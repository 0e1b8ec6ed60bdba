import Concord.Proofs.Clauses
import Concord.Proofs.PatternEntries

/-!
When a pattern can be read. The entries of a pattern are cut from a text that balances, so each of
them balances too, at every depth, with one exception: the body of a nested pattern is what stands
between the first and the last character of its target, and behind the closer of the pattern
nothing may follow. A text that balances is refused exactly for a nested pattern that does not end
its target.
-/
namespace Concord.Scan

open Concord.Text

theorem Balances.of_runs {around later : List Enclosure} {flag last : Bool} {text rest : List Char}
    (balances : Balances around flag (text ++ rest))
    (runs : Runs around flag text rest later last) : Balances later last rest := by
  induction runs with
  | done => exact balances
  | step moves _ ih =>
    rw [List.append_assoc] at balances
    exact ih (balances.of_moves moves)

theorem Cursor.exists_skipToken_eq_ok {c : Cursor} (fine : c.imbalance? [] = none) :
    ∃ next, c.skipToken = .ok next := by
  rw [imbalance?_skipToken] at fine
  cases skipped : c.skipToken with
  | ok next => exact ⟨next, rfl⟩
  | error halt =>
    rw [skipped] at fine
    cases fine

theorem punctuation_closer (bracket : Bracket) : punctuation bracket.closer = .closer bracket := by
  cases bracket <;> rfl

/-- At depth 0 no text starts with a closer. -/
theorem not_balances_closer {flag : Bool} {bracket : Bracket} {text : List Char} :
    ¬ Balances [] flag (bracket.closer :: text) := by
  intro balances
  let c : Cursor := ⟨bracket.closer :: text, 0, 1, flag⟩
  have fine : c.imbalance? [] = none := by
    apply Balances.imbalance?
    exact balances
  have lexes : Lexes flag (.closer bracket) [bracket.closer] text
      (regexMayFollow bracket.closer) := by
    rw [← punctuation_closer]
    refine .mark ?_ ?_ ?_ ?_
    all_goals cases bracket <;> first | decide | exact fun slash => absurd slash (by decide)
  have read : c.lexeme? = _ := Cursor.lexeme?_of_lexes lexes rfl
  have failed : c.step [] = .failed ⟨1, .unmatched bracket⟩ := by
    simp [Cursor.step, Cursor.stepCode, Cursor.stepCloser, read, c]
  rw [Cursor.imbalance?_of_failed failed] at fine
  cases fine

/-- An opener is one wherever it stands. -/
theorem Balances.opener_anew {flag : Bool} {bracket : Bracket} {text : List Char}
    (balances : Balances [] flag (bracket.opener :: text)) :
    Balances [] true (bracket.opener :: text) := by
  have opens (flag : Bool) : Moves none flag [bracket.opener] text (.enter (.group bracket)) true :=
    .opener (by simp) (.openerMark flag bracket text)
  have whole : Balances [] flag ([bracket.opener] ++ text) := balances
  have anew : Balances [] true ([bracket.opener] ++ text) :=
    .step (opens true) (whole.of_moves (opens flag))
  exact anew

theorem isWordStart_or_eq_of_isBlank {x : Char} (blank : isBlank x = true)
    (other : isAsciiBlank x = false) : isWordStart x = true ∨ x = '\x0b' := by
  by_cases high : 0x80 ≤ x.toNat
  · exact Or.inl (by simp [isWordStart, high])
  · have low : ∀ n < 0x80, isBlank (Char.ofNat n) = true → isAsciiBlank (Char.ofNat n) = false →
        Char.ofNat n = '\x0b' := by
      decide
    have found := low x.toNat (by omega)
    rw [Char.ofNat_toNat] at found
    exact Or.inr (found blank other)

theorem Bracket.isWordPart_opener (bracket : Bracket) : isWordPart bracket.opener = false := by
  cases bracket <;> decide

/-- Blanks of any kind in front of a group do not belong to it. -/
theorem Balances.drop_to_opener {flag : Bool} {bracket : Bracket} {blanks text : List Char}
    (blank : ∀ x ∈ blanks, isBlank x = true)
    (balances : Balances [] flag (blanks ++ bracket.opener :: text)) :
    Balances [] true (bracket.opener :: text) := by
  match blanks with
  | [] => exact balances.opener_anew
  | x :: blanks =>
    have behind {y : Char} (member : y ∈ blanks) : isBlank y = true :=
      blank y (List.mem_cons_of_mem x member)
    cases ascii : isAsciiBlank x with
    | true =>
      have moves : Moves none flag [x] (blanks ++ bracket.opener :: text) .stay flag :=
        .quiet (by simp) (.blank ascii) rfl
      have whole : Balances [] flag ([x] ++ (blanks ++ bracket.opener :: text)) := balances
      exact Balances.drop_to_opener (fun y => behind) (whole.of_moves moves)
    | false =>
      rcases isWordStart_or_eq_of_isBlank (blank x List.mem_cons_self) ascii with starts | rfl
      · -- a blank outside ASCII is a word, with the word characters behind it
        have split : x :: (blanks ++ bracket.opener :: text) =
            (x :: blanks.takeWhile isWordPart) ++
              (blanks.dropWhile isWordPart ++ bracket.opener :: text) := by
          rw [List.cons_append, ← List.append_assoc, List.takeWhile_append_dropWhile]
        have ends : ∀ y ∈ (blanks.dropWhile isWordPart ++ bracket.opener :: text).head?,
            isWordPart y = false := by
          intro y member
          cases after : blanks.dropWhile isWordPart with
          | nil =>
            rw [after] at member
            obtain rfl : bracket.opener = y := by simpa using member
            exact bracket.isWordPart_opener
          | cons z more =>
            refine head?_dropWhile_forall isWordPart blanks y ?_
            rw [after] at member ⊢
            simpa using member
        have inside : ∀ y ∈ blanks.takeWhile isWordPart, isWordPart y = true :=
          fun y => List.mem_takeWhile_imp
        have moves : Moves none flag _ _ .stay _ :=
          .quiet (by simp) (.word starts inside ends) rfl
        rw [List.cons_append, split] at balances
        have := dropWhile_length_le isWordPart blanks
        refine Balances.drop_to_opener (fun y member => behind ?_) (balances.of_moves moves)
        exact (List.dropWhile_suffix isWordPart).subset member
      -- a vertical tab is the one blank of ASCII that the scanner takes for a mark
      · have moves : Moves none flag ['\x0b'] (blanks ++ bracket.opener :: text) .stay false :=
          .quiet (by simp) (.mark (by decide) (by decide) (by decide)
            fun slash => absurd slash (by decide)) rfl
        have whole : Balances [] flag (['\x0b'] ++ (blanks ++ bracket.opener :: text)) := balances
        exact Balances.drop_to_opener (fun y => behind) (whole.of_moves moves)
  termination_by blanks.length

end Concord.Scan

namespace Concord.Export

open Concord.Scan Concord.Text

/-- The text is one token from end to end. -/
def isToken (text : List Char) : Bool :=
  match (Cursor.start text).skipToken with
  | .ok next => next.rest.isEmpty
  | .error _ => false

/-- An entry of a pattern as it stands between the commas, and the target it binds. -/
structure Entry where
  text : List Char
  target : List Char
  deriving DecidableEq, Repr

/-- The scanner steps over the blanks in front of the entry. -/
def Entry.indented (e : Entry) : Bool :=
  (indent e.text).all isAsciiBlank

/-- A target that is a nested pattern ends with it. -/
def Entry.tidy (e : Entry) : Bool :=
  (nestedPattern? e.target).isNone || isToken e.target

/-- The entries of a pattern and of the patterns nested in it, without those that are empty or bind
the rest. -/
def entries (isObject : Bool) (pattern : List Char) : List Entry :=
  match _cut : split ',' pattern with
  | .error _ => []
  | .ok pieces =>
    pieces.attach.flatMap fun ⟨piece, _member⟩ =>
      let entry := trim piece.text
      if entry.isEmpty || "...".toList.isPrefixOf entry then []
      else
        match _target : bindingTarget isObject entry with
        | .error _ => [⟨piece.text, []⟩]
        | .ok target =>
          match _nested : nestedPattern? (trim target.text) with
          | none => [⟨piece.text, trim target.text⟩]
          | some (innerIsObject, inner) =>
            ⟨piece.text, trim target.text⟩ :: entries innerIsObject inner
  termination_by pattern.length
  decreasing_by
    have first := split_length_le _cut piece _member
    have second : entry.length ≤ piece.text.length := trim_length_le piece.text
    have third := bindingTarget_length_le _target
    have fourth := trim_length_le target.text
    have fifth := nestedPattern?_length_lt _nested
    omega

/-- The entries of one piece of a pattern. -/
def pieceEntries (isObject : Bool) (piece : Piece) : List Entry :=
  let entry := trim piece.text
  if entry.isEmpty || "...".toList.isPrefixOf entry then []
  else
    match bindingTarget isObject entry with
    | .error _ => [⟨piece.text, []⟩]
    | .ok target =>
      match nestedPattern? (trim target.text) with
      | none => [⟨piece.text, trim target.text⟩]
      | some (innerIsObject, inner) =>
        ⟨piece.text, trim target.text⟩ :: entries innerIsObject inner

theorem entries_eq {isObject : Bool} {pattern : List Char} {pieces : List Piece}
    (cut : split ',' pattern = .ok pieces) :
    entries isObject pattern = pieces.flatMap (pieceEntries isObject) := by
  rw [entries]
  split
  next failed => rw [failed] at cut; cases cut
  next same =>
    rw [cut] at same
    cases same
    have each : (pieces.attach.flatMap fun piece : { piece // piece ∈ pieces } =>
        pieceEntries isObject piece.val) = pieces.flatMap (pieceEntries isObject) := by
      rw [List.flatMap_subtype fun _ _ => rfl, List.unattach_attach]
    rw [← each]
    congr 1
    funext piece
    simp only [pieceEntries]
    repeat' split
    all_goals simp_all

/-! Nested patterns -/

/-- The body of a nested pattern balances exactly if nothing follows the pattern. -/
theorem balances_nested_iff {isObject : Bool} {target inner : List Char}
    (balances : Balances [] true target)
    (nested : nestedPattern? target = some (isObject, inner)) :
    Balances [] true inner ↔ isToken target = true := by
  obtain ⟨bracket, body, rfl, cut⟩ := nestedPattern?_eq_some nested
  obtain ⟨next, skipped⟩ := Cursor.exists_skipToken_eq_ok balances.imbalance?_start
  obtain ⟨inside, last, rfl, runs⟩ := Cursor.skipToken_group rfl skipped
  rw [isToken, skipped, List.isEmpty_iff]
  constructor
  · intro fine
    by_contra follows
    -- what follows keeps the closer in the body, and there it closes nothing
    have kept :
        ∃ rest tail, inner = inside ++ bracket.closer :: rest ∧ next.rest = rest ++ tail := by
      rcases cut with dropped | ⟨whole, -⟩
      · obtain ⟨rest, y, split⟩ := (List.eq_nil_or_concat next.rest).resolve_left follows
        rw [split, List.concat_eq_append, ← List.cons_append, ← List.append_assoc] at dropped
        obtain ⟨same, -⟩ := List.append_inj' dropped rfl
        exact ⟨rest, [y], same.symm, by rw [split, List.concat_eq_append]⟩
      · exact ⟨next.rest, [], whole.symm, by simp⟩
    obtain ⟨rest, tail, rfl, split⟩ := kept
    rw [split, ← List.cons_append] at runs
    exact not_balances_closer (fine.of_runs runs.cut)
  · intro ends
    rw [ends] at runs cut
    rcases cut with dropped | ⟨-, none⟩
    · rw [← List.append_cancel_right dropped]
      exact runs.alone
    · rw [dropLastMark?_eq_some_iff.mpr rfl] at none
      cases none

/-! Entries at every depth -/

/-- The target of an entry balances without its blanks, if it is a nested pattern. -/
theorem balances_trim_nested {text inner : List Char} {isObject : Bool}
    (balances : Balances [] true text)
    (nested : nestedPattern? (trim text) = some (isObject, inner)) :
    Balances [] true (trim text) := by
  obtain ⟨bracket, body, opened, -⟩ := nestedPattern?_eq_some nested
  obtain ⟨blanks, blank, split⟩ := trimStart_split text
  rw [opened] at split ⊢
  have whole : Balances [] true (indent text ++ bracket.opener :: (body ++ blanks)) := by
    rwa [← List.cons_append, ← split, indent, trimStart, List.takeWhile_append_dropWhile]
  have front := Balances.drop_to_opener (fun x => List.mem_takeWhile_imp) whole
  rw [← List.cons_append] at front
  exact front.cut_blanks blank

/-- A text that can be cut balances. -/
theorem balances_of_split {sep : Char} {text : List Char} {pieces : List Piece}
    (separates : isSeparator sep = true) (cut : split sep text = .ok pieces) :
    Balances [] true text := by
  have fine : (Cursor.start text).imbalance? [] = none := by
    cases verdict : (Cursor.start text).imbalance? [] with
    | none => rfl
    | some imbalance =>
      have failed : split sep text = .error imbalance :=
        (Cursor.split_eq_error_iff separates).mpr verdict
      rw [cut] at failed
      cases failed
  exact Cursor.balances_of_imbalance? fine

/-- An entry is passed over, or reading it comes down to reading its target. -/
theorem entry_cases {isObject : Bool} {piece : Piece} (balances : Balances [] true piece.text)
    (indented : ∀ e ∈ pieceEntries isObject piece, e.indented = true) (line : Nat)
    (pattern : List Char) :
    (pieceEntries isObject piece = [] ∧
      ∃ found, entryBindings isObject line pattern piece = .ok found) ∨
    ∃ target innerLine, Balances [] true target ∧ target.length ≤ piece.text.length ∧
      pieceEntries isObject piece = ⟨piece.text, trim target⟩ ::
        (match nestedPattern? (trim target) with
        | none => []
        | some (innerIsObject, inner) => entries innerIsObject inner) ∧
      entryBindings isObject line pattern piece =
        match nestedPattern? (trim target) with
        | none => .ok (Binding.ofName target innerLine)
        | some (innerIsObject, inner) => bindings innerIsObject innerLine inner := by
  -- an empty entry and a rest have no target to be read further
  by_cases empty : (trim piece.text).isEmpty = true
  · refine Or.inl ⟨?_, [], ?_⟩
    · simp only [pieceEntries]
      rw [if_pos (by rw [empty, Bool.true_or])]
    · simp only [entryBindings]
      rw [if_pos empty]
  by_cases remains : "...".toList.isPrefixOf (trim piece.text) = true
  · refine Or.inl ⟨?_, ?_⟩
    · simp only [pieceEntries]
      rw [if_pos (by rw [remains, Bool.or_true])]
    · simp only [entryBindings]
      rw [if_neg empty, if_pos remains]
      exact ⟨_, rfl⟩
  have taken :
      ¬ ((trim piece.text).isEmpty || "...".toList.isPrefixOf (trim piece.text)) = true := by
    rw [Bool.or_eq_true]
    exact not_or.mpr ⟨empty, remains⟩
  have bound : Balances [] true (trim piece.text) := by
    refine balances.trim (List.all_eq_true.mp ?_)
    -- any other entry has one, and by hypothesis it is indented by blanks only
    have shown : ∃ target, ⟨piece.text, target⟩ ∈ pieceEntries isObject piece := by
      simp only [pieceEntries]
      rw [if_neg taken]
      repeat' split
      all_goals exact ⟨_, List.mem_cons_self⟩
    obtain ⟨target, member⟩ := shown
    exact indented _ member
  obtain ⟨target, found⟩ : ∃ target, bindingTarget isObject (trim piece.text) = .ok target :=
    exists_bindingTarget bound
  obtain ⟨front, back, split, place, inside⟩ := bindingTarget_eq_ok found
  refine Or.inr ⟨target.text,
    line + breaksBefore pattern (piece.offset + byteSize (indent piece.text)) +
      breaksBefore (trim piece.text) (target.offset + byteSize (indent target.text)),
    inside bound, ?_, ?_, ?_⟩
  · exact Nat.le_trans (bindingTarget_length_le found) (trim_length_le piece.text)
  · simp only [pieceEntries, found]
    rw [if_neg taken]
    cases nestedPattern? (trim target.text) <;> rfl
  · simp only [entryBindings, found]
    rw [if_neg empty, if_neg remains]
    cases nestedPattern? (trim target.text) <;> rfl

theorem exists_bindings_iff {isObject : Bool} {line : Nat} {pattern : List Char}
    {pieces : List Piece} (cut : split ',' pattern = .ok pieces) :
    (∃ found, bindings isObject line pattern = .ok found) ↔
      ∀ piece ∈ pieces, ∃ found, entryBindings isObject line pattern piece = .ok found := by
  rw [← exists_mapM_eq_ok_iff, bindings_eq, cut]
  constructor
  · rintro ⟨_, read⟩
    obtain ⟨_, same, read⟩ := bind_eq_ok.mp read
    cases same
    obtain ⟨found, read, -⟩ := bind_eq_ok.mp read
    exact ⟨found, read⟩
  · rintro ⟨found, read⟩
    exact ⟨found.flatten, bind_eq_ok.mpr ⟨_, rfl, bind_eq_ok.mpr ⟨found, read, rfl⟩⟩⟩

/-- A pattern that balances is read exactly if its entries are tidy at every depth. -/
theorem bindings_ok_iff {isObject : Bool} {line : Nat} {pattern : List Char}
    (balances : Balances [] true pattern)
    (indented : ∀ e ∈ entries isObject pattern, e.indented = true) :
    (∃ found, bindings isObject line pattern = .ok found) ↔
      ∀ e ∈ entries isObject pattern, e.tidy = true := by
  have comma : isSeparator ',' = true := by decide
  obtain ⟨pieces, cut⟩ := balances.exists_split comma
  have cuts := split_cuts (by decide) cut
  rw [entries_eq cut] at indented
  rw [exists_bindings_iff cut, entries_eq cut]
  simp only [List.forall_mem_flatMap] at indented ⊢
  refine forall₂_congr fun piece member => ?_
  rcases entry_cases (cuts.balances piece member) (indented piece member) line pattern with
    ⟨none, found⟩ | ⟨target, innerLine, balanced, short, listed, read⟩
  · simp [none, found]
  · have indented := indented piece member
    rw [listed] at indented
    rw [read, listed]
    cases nested : nestedPattern? (trim target) with
    | none => simp [Entry.tidy, nested]
    | some body =>
      obtain ⟨innerIsObject, inner⟩ := body
      simp only [nested, List.forall_mem_cons] at indented ⊢
      have closed := balances_nested_iff (balances_trim_nested balanced nested) nested
      have shorter : inner.length < pattern.length := by
        have first := split_length_le cut piece member
        have second := trim_length_le target
        have third := nestedPattern?_length_lt nested
        omega
      cases tidy : isToken (trim target) with
      | true =>
        have deeper : (∃ found, bindings innerIsObject innerLine inner = .ok found) ↔ _ :=
          bindings_ok_iff (closed.mpr tidy) indented.2
        simp [Entry.tidy, nested, tidy, deeper]
      | false =>
        -- behind the nested pattern something follows, so its body cannot be cut
        have fails : ¬ ∃ found, bindings innerIsObject innerLine inner = .ok found := by
          rintro ⟨found, read⟩
          rw [bindings_eq] at read
          obtain ⟨pieces, cut, -⟩ := bind_eq_ok.mp read
          rw [closed.mp (balances_of_split comma cut)] at tidy
          cases tidy
        simp [Entry.tidy, nested, tidy, fails]
  termination_by pattern.length

/-- The entries of a pattern, at every depth. -/
def patternEntries (pattern : Token) : List Entry :=
  entries (pattern.group? = some .curly) pattern.interior

/-- A text that balances is read exactly if no nested pattern in it is followed by something in its
target. Entries may start with any blanks that the scanner steps over. -/
theorem extract_ok_iff_tidy (text : List Char) (balanced : (scan text).stop.imbalance? = none)
    (indented : ∀ p ∈ patterns text, ∀ e ∈ patternEntries p, e.indented = true) :
    (∃ exports, extract text = .ok exports) ↔
      ∀ p ∈ patterns text, ∀ e ∈ patternEntries p, e.tidy = true := by
  have each (p : Token) (member : p ∈ patterns text) :
      (∃ found, patternBindings p = .ok found) ↔ ∀ e ∈ patternEntries p, e.tidy = true :=
    bindings_ok_iff (balances_of_mem_patterns member) (indented p member)
  have clause (c : List Token) (member : c ∈ clauses text) :
      (∃ found, clauseExports (scan text).stop c = .ok found) ↔
        ∀ p ∈ clausePatterns (scan text).stop c, ∃ found, patternBindings p = .ok found :=
    exists_clauseExports_iff balanced ((listsCut_scan text).remains (clausesFrom_remains member))
  rw [exists_extract_eq_ok_iff, ← forall₂_congr each, patterns]
  constructor
  · rintro ⟨-, fine⟩
    exact List.forall_mem_flatMap.mpr fun c member => (clause c member).mp (fine c member)
  · intro fine
    refine ⟨balanced, fun c member => (clause c member).mpr ?_⟩
    exact List.forall_mem_flatMap.mp fine c member

/-- Patterns in patterns, with a default that holds a closer and with a hole. -/
def nestedPatterns : List Char :=
  "export const \x7b a: \x7b b = /[\x7d]/, ...c \x7d = d, e: [, f] \x7d: T = g".toList

theorem extract_ok_iff_tidy_nested :
    (scan nestedPatterns).stop.imbalance? = none ∧
      (∀ p ∈ patterns nestedPatterns, ∀ e ∈ patternEntries p, e.indented = true) ∧
      ∃ exports, extract nestedPatterns = .ok exports := by
  have balanced : (scan nestedPatterns).stop.imbalance? = none := by decide +kernel
  have indented : ∀ p ∈ patterns nestedPatterns, ∀ e ∈ patternEntries p, e.indented = true := by
    decide +kernel
  exact ⟨balanced, indented,
    (extract_ok_iff_tidy nestedPatterns balanced indented).mpr (by decide +kernel)⟩

/-- A comment behind a nested pattern. -/
def followedPattern : List Char :=
  "export const \x7b a: \x7b b \x7d /* c */ \x7d = x;".toList

theorem extract_refuses_followedPattern :
    (scan followedPattern).stop.imbalance? = none ∧
      extract followedPattern = .error ⟨1, .unmatched .curly⟩ := by
  decide +kernel

end Concord.Export
