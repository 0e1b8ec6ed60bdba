import Concord.Proofs.Pieces

/-!
The entries of a destructuring pattern, one by one. What an entry binds is a part of its text, at
the offset that is given with it, and balances where the entry does.
-/
namespace Concord.Export

open Concord.Scan Concord.Text

/-- What stands before the default of an entry. -/
def boundPart (entry : List Char) : Except Imbalance (List Char) := do
  match ← findAssign entry with
  | some equals => return takeBytes entry equals
  | none => return entry

theorem bindingTarget_eq (isObject : Bool) (entry : List Char) :
    bindingTarget isObject entry = do
      let bound ← boundPart entry
      if isObject then
        match ← split ':' bound with
        | _ :: value :: _ => return value
        | _ => return ⟨0, bound⟩
      else return ⟨0, bound⟩ := by
  simp only [bindingTarget, boundPart]
  cases findAssign entry with
  | error => rfl
  | ok position => cases position <;> rfl

/-- The bindings of one entry of a pattern. -/
def entryBindings (isObject : Bool) (line : Nat) (pattern : List Char) (piece : Piece) :
    Except Imbalance (List Binding) :=
  let entry := trim piece.text
  let entryLine := line + breaksBefore pattern (piece.offset + byteSize (indent piece.text))
  if entry.isEmpty then .ok []
  else if "...".toList.isPrefixOf entry then .ok (Binding.ofName (entry.drop 3) entryLine)
  else
    match bindingTarget isObject entry with
    | .error imbalance => .error imbalance
    | .ok target =>
      let targetLine :=
        entryLine + breaksBefore entry (target.offset + byteSize (indent target.text))
      match nestedPattern? (trim target.text) with
      | some (innerIsObject, inner) => bindings innerIsObject targetLine inner
      | none => .ok (Binding.ofName target.text targetLine)

theorem bindings_eq (isObject : Bool) (line : Nat) (pattern : List Char) :
    bindings isObject line pattern = do
      let pieces ← split ',' pattern
      let found ← pieces.mapM (entryBindings isObject line pattern)
      return found.flatten := by
  rw [bindings]
  split
  next cut =>
    rw [cut]
    rfl
  next pieces cut =>
    rw [cut]
    -- the recursion carries the pieces with their membership, which the reading of one does not use
    have entries : (pieces.attach.mapM fun piece : { piece // piece ∈ pieces } =>
        entryBindings isObject line pattern piece.val) =
        pieces.mapM (entryBindings isObject line pattern) := by
      rw [List.mapM_subtype fun _ _ => rfl, List.unattach_attach]
    simp only [bind, Except.bind]
    rw [← entries]
    congr 2
    funext piece
    simp only [entryBindings]
    repeat' split
    all_goals first | rfl | simp_all [pure, Except.pure]

/-! The part that binds -/

theorem boundPart_eq_ok {entry bound : List Char} (read : boundPart entry = .ok bound) :
    ∃ back, entry = bound ++ back ∧ (Balances [] true entry → Balances [] true bound) := by
  obtain ⟨position, found, read⟩ := bind_eq_ok.mp read
  cases position with
  | none =>
    cases read
    exact ⟨[], by simp, id⟩
  | some equals =>
    cases read
    obtain ⟨front, back, split, place, balances⟩ :=
      Cursor.findAssign_eq_some found (.refl _) (.refl _)
    have whole : entry = front ++ back := split
    have size : equals = byteSize front := by simpa [Cursor.start] using place
    rw [whole, size, takeBytes_append]
    exact ⟨back, rfl, fun _ => balances⟩

/-- What an entry binds stands in it at its offset, and balances where the entry does. -/
theorem bindingTarget_eq_ok {isObject : Bool} {entry : List Char} {target : Piece}
    (read : bindingTarget isObject entry = .ok target) :
    ∃ front back, entry = front ++ (target.text ++ back) ∧ target.offset = byteSize front ∧
      (Balances [] true entry → Balances [] true target.text) := by
  rw [bindingTarget_eq] at read
  obtain ⟨bound, before, chosen⟩ := bind_eq_ok.mp read
  obtain ⟨back, rfl, balances⟩ := boundPart_eq_ok before
  -- without a colon, and in a list, the whole bound part is the target
  have whole : ∃ front after, bound ++ back = front ++ (bound ++ after) ∧ 0 = byteSize front ∧
      (Balances [] true (bound ++ back) → Balances [] true bound) :=
    ⟨[], back, rfl, rfl, balances⟩
  split at chosen
  · obtain ⟨pieces, cut, picked⟩ := bind_eq_ok.mp chosen
    split at picked
    next key value more =>
      cases picked
      have cuts := split_cuts (by decide) cut
      obtain ⟨front, after, rfl, place⟩ := cuts.stands target (by simp)
      refine ⟨front, after ++ back, by simp, by simpa using place, fun _ => ?_⟩
      exact cuts.balances target (by simp)
    · cases picked
      exact whole
  · cases chosen
    exact whole

theorem exists_bindingTarget {isObject : Bool} {entry : List Char}
    (balances : Balances [] true entry) : ∃ target, bindingTarget isObject entry = .ok target := by
  obtain ⟨position, found⟩ := balances.exists_findAssign
  have before : ∃ bound, boundPart entry = .ok bound := by
    rw [boundPart, found]
    cases position <;> exact ⟨_, rfl⟩
  obtain ⟨bound, before⟩ := before
  obtain ⟨-, -, cutsOff⟩ := boundPart_eq_ok before
  have colon : isSeparator ':' = true := by decide
  obtain ⟨pieces, cut⟩ := (cutsOff balances).exists_split colon
  rw [bindingTarget_eq, before]
  cases isObject with
  | false => exact ⟨_, rfl⟩
  | true =>
    simp only [bind, Except.bind, if_true, cut]
    split <;> exact ⟨_, rfl⟩

/-! Nested patterns -/

theorem dropLastMark?_eq_some_iff {mark : Char} {text front : List Char} :
    dropLastMark? mark text = some front ↔ text = front ++ [mark] := by
  rw [dropLastMark?, Option.map_eq_some_iff]
  constructor
  · rintro ⟨reversed, dropped, rfl⟩
    cases whole : text.reverse with
    | nil => simp [whole, dropMark?] at dropped
    | cons c rest =>
      simp only [whole, dropMark?] at dropped
      split at dropped
      next same =>
        cases dropped
        rw [← List.reverse_reverse text, whole, List.reverse_cons, same]
      · cases dropped
  · rintro rfl
    exact ⟨front.reverse, by simp [dropMark?], by simp⟩

/-- The body of a nested pattern is its target without the opener, and without the closer if it
ends so. -/
theorem nestedPattern?_eq_some {isObject : Bool} {target inner : List Char}
    (nested : nestedPattern? target = some (isObject, inner)) :
    ∃ (bracket : Bracket) (body : List Char), target = bracket.opener :: body ∧
      (body = inner ++ [bracket.closer] ∨
        body = inner ∧ dropLastMark? bracket.closer body = none) := by
  -- the opener is the first character, and the closer is the last one if it is there
  have opened {mark : Char} {text body : List Char} (dropped : dropMark? mark text = some body) :
      text = mark :: body := by
    cases text with
    | nil => cases dropped
    | cons c rest =>
      simp only [dropMark?] at dropped
      split at dropped <;> simp_all
  have cut {mark : Char} {body : List Char} (same : (dropLastMark? mark body).getD body = inner) :
      body = inner ++ [mark] ∨ body = inner ∧ dropLastMark? mark body = none := by
    cases last : dropLastMark? mark body with
    | none =>
      rw [last] at same
      exact Or.inr ⟨same, rfl⟩
    | some front =>
      rw [last] at same
      obtain rfl : front = inner := same
      exact Or.inl (dropLastMark?_eq_some_iff.mp last)
  simp only [nestedPattern?] at nested
  split at nested
  next body dropped =>
    simp only [Option.some.injEq, Prod.mk.injEq] at nested
    exact ⟨.curly, body, opened dropped, cut nested.2⟩
  · simp only [Option.map_eq_some_iff, Prod.mk.injEq] at nested
    obtain ⟨body, dropped, -, same⟩ := nested
    exact ⟨.square, body, opened dropped, cut same⟩

end Concord.Export
