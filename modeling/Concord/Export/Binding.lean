import Concord.Scan.Split
import Concord.Text.Blank

/-!
The names that a destructuring pattern binds, each with its line. A pattern is cut at its commas;
an entry binds its rename target without the default, and a target that is again a pattern binds
its own leaves.
-/
namespace Concord.Export

open Concord.Scan Concord.Text

structure Binding where
  name : List Char
  line : Nat
  deriving DecidableEq, Repr

/-- A plain identifier binds itself, anything else binds nothing. -/
def Binding.ofName (name : List Char) (line : Nat) : List Binding :=
  if isIdentifier (trim name) then [⟨trim name, line⟩] else []

/-- The part of an entry that binds: what stands before the default and, in an object, after the
first colon. The default goes first, since it may hold a colon of its own. -/
def bindingTarget (isObject : Bool) (entry : List Char) : Except Imbalance Piece := do
  let bound ←
    match ← findAssign entry with
    | some equals => pure (takeBytes entry equals)
    | none => pure entry
  if isObject then
    match ← split ':' bound with
    | _ :: value :: _ => return value
    | _ => return ⟨0, bound⟩
  else return ⟨0, bound⟩

/-- The body of a nested pattern and whether it is an object. A missing closer leaves the rest of
the text as the body. -/
def nestedPattern? (target : List Char) : Option (Bool × List Char) :=
  match dropMark? '\x7b' target with
  | some body => some (true, (dropLastMark? '\x7d' body).getD body)
  | none => (dropMark? '[' target).map fun body => (false, (dropLastMark? ']' body).getD body)

theorem nestedPattern?_length_lt {target body : List Char} {isObject : Bool}
    (nested : nestedPattern? target = some (isObject, body)) : body.length < target.length := by
  have shorter (closer : Char) (inner : List Char) :
      ((dropLastMark? closer inner).getD inner).length ≤ inner.length := by
    cases h : dropLastMark? closer inner with
    | none => simp
    | some cut => exact Nat.le_of_lt (dropLastMark?_length_lt h)
  simp only [nestedPattern?] at nested
  split at nested
  next inner opened =>
    simp only [Option.some.injEq, Prod.mk.injEq] at nested
    rw [← nested.2]
    exact Nat.lt_of_le_of_lt (shorter _ _) (dropMark?_length_lt opened)
  · simp only [Option.map_eq_some_iff, Prod.mk.injEq] at nested
    obtain ⟨inner, opened, -, rfl⟩ := nested
    exact Nat.lt_of_le_of_lt (shorter _ _) (dropMark?_length_lt opened)

theorem bindingTarget_length_le {isObject : Bool} {entry : List Char} {target : Piece}
    (found : bindingTarget isObject entry = .ok target) : target.text.length ≤ entry.length := by
  have cut (bound : List Char) (short : bound.length ≤ entry.length)
      (rest : (if isObject then do
          match ← split ':' bound with
          | _ :: value :: _ => return value
          | _ => return ⟨0, bound⟩
        else return ⟨0, bound⟩ : Except Imbalance Piece) = .ok target) :
      target.text.length ≤ entry.length := by
    split at rest
    · cases h : split ':' bound with
      | error => simp [h, bind, Except.bind] at rest
      | ok pieces =>
        simp only [h, bind, Except.bind, pure, Except.pure] at rest
        split at rest <;> simp only [Except.ok.injEq] at rest <;> subst rest
        next first more => exact Nat.le_trans (split_length_le h _ (by simp)) short
        · exact short
    · simp only [pure, Except.pure, Except.ok.injEq] at rest
      subst rest
      exact short
  simp only [bindingTarget] at found
  cases h : findAssign entry with
  | error => simp [h, bind, Except.bind] at found
  | ok position =>
    cases position with
    | none =>
      refine cut entry (Nat.le_refl _) ?_
      simpa [h, bind, Except.bind, pure, Except.pure] using found
    | some equals =>
      refine cut (takeBytes entry equals) (takeBytes_length_le entry equals) ?_
      simpa [h, bind, Except.bind, pure, Except.pure] using found

/-- The bindings of the body of a pattern that starts on `line`. -/
def bindings (isObject : Bool) (line : Nat) (pattern : List Char) :
    Except Imbalance (List Binding) :=
  match _cut : split ',' pattern with
  | .error imbalance => .error imbalance
  | .ok pieces => do
    let found ← pieces.attach.mapM fun ⟨piece, _member⟩ =>
      let entry := trim piece.text
      let entryLine := line + breaksBefore pattern (piece.offset + byteSize (indent piece.text))
      if entry.isEmpty then pure []
      else if "...".toList.isPrefixOf entry then pure (Binding.ofName (entry.drop 3) entryLine)
      else
        match _target : bindingTarget isObject entry with
        | .error imbalance => .error imbalance
        | .ok target =>
          let targetLine :=
            entryLine + breaksBefore entry (target.offset + byteSize (indent target.text))
          match _nested : nestedPattern? (trim target.text) with
          | some (innerIsObject, inner) => bindings innerIsObject targetLine inner
          | none => pure (Binding.ofName target.text targetLine)
    return found.flatten
  termination_by pattern.length
  decreasing_by
    have first := split_length_le _cut piece _member
    have second : entry.length ≤ piece.text.length := trim_length_le piece.text
    have third := bindingTarget_length_le _target
    have fourth := trim_length_le target.text
    have fifth := nestedPattern?_length_lt _nested
    omega

end Concord.Export
