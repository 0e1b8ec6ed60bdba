import Concord.Proofs.Places
import Concord.Proofs.ProjectionKeys

/-!
What stands inside a group. A group that was stepped over under an explicit stack is its opener, its
interior and its closer. The interior can be scanned as a text of its own, from a fresh start, and
the groups which that scan finds are groups of the whole text, at the same place and of the same
length. So cutting an interior never fails.
-/
namespace Concord.Scan

open Concord.Text
open Concord.Access (isGroup_of_isToken skipGroup_eq_skipToken)

@[simp] theorem Bracket.utf8Size_opener (bracket : Bracket) : bracket.opener.utf8Size = 1 := by
  cases bracket <;> decide

@[simp] theorem Bracket.utf8Size_closer (bracket : Bracket) : bracket.closer.utf8Size = 1 := by
  cases bracket <;> decide

/-- A text that balances is scanned to its end. -/
theorem Balances.finished {text : List Char} (balances : Balances [] true text) :
    (scan text).stop = .finished := by
  apply Stop.eq_finished
  rw [scan_imbalance?]
  exact balances.imbalance?_start

/-- A group that is stepped over has an interior between its brackets, and that balances. -/
theorem Cursor.exists_interior {c later : Cursor} {bracket : Bracket}
    (opens : c.rest.head? = some bracket.opener) (skipped : c.skipGroup = .ok later) :
    ∃ interior, c.rest = bracket.opener :: (interior ++ bracket.closer :: later.rest) ∧
      later.offset = c.offset + 1 + byteSize interior + 1 ∧ Balances [] true interior := by
  rw [skipGroup_eq_skipToken opens] at skipped
  obtain ⟨rest, split⟩ := List.head?_eq_some_iff.mp opens
  obtain ⟨interior, last, closed, runs⟩ := skipToken_group split skipped
  have whole : c.rest = bracket.opener :: (interior ++ bracket.closer :: later.rest) := by
    rw [split, closed]
  refine ⟨interior, whole, ?_, runs.alone⟩
  -- what was passed is the opener, the interior and the closer
  obtain ⟨passed, behind, moved⟩ := skipToken_reaches skipped
  have same : passed = bracket.opener :: (interior ++ [bracket.closer]) := by
    have both : passed ++ later.rest =
        (bracket.opener :: (interior ++ [bracket.closer])) ++ later.rest := by
      rw [← behind, whole, List.cons_append, List.append_assoc]
      rfl
    exact List.append_cancel_right both
  rw [moved, same]
  simp only [advance, byteSize, byteSize_append, Bracket.utf8Size_opener, Bracket.utf8Size_closer]
  omega

/-- A token that starts with an opener is a group. -/
theorem isGroup_of_mem_tokens {text : List Char} {t : Token} {bracket : Bracket}
    (member : t ∈ (scan text).tokens) (group : t.group? = some bracket) :
    isGroup bracket t.text = true := by
  obtain ⟨here, next, skipped, split⟩ := Cursor.exists_skipToken member
  obtain ⟨back, shown⟩ := Token.group_text group
  have opens : t.text.head? = some bracket.opener := by
    rw [shown]
    rfl
  have start : here.rest = [bracket.opener] ++ (t.interior ++ back ++ next.rest) := by
    rw [split, shown]
    simp
  have read := Cursor.lexeme?_of_lexes (.openerMark here.regexOk bracket _) start
  have stays : here.skipTrivia = .ok here :=
    Cursor.skipTrivia_of_token read (by simp) (by simp) (by simp)
  obtain ⟨passed, behind, token⟩ :=
    Cursor.isToken_of_skipToken stays (by rw [start]; simp) skipped
  obtain rfl : passed = t.text := List.append_cancel_right (behind.symm.trans split)
  -- what closes the group does not see what follows it, nor what stood in front of it
  generalize whole : t.text = all at token opens
  cases token with
  | @lexeme _ kind _ _ lexes quiet =>
    obtain ⟨rest, rfl⟩ := List.head?_eq_some_iff.mp opens
    obtain ⟨rfl, -, -⟩ := lexes.unique
      (.openerMark here.regexOk bracket (rest ++ next.rest)) rfl
    cases quiet
  | group inner shuts => exact isGroup_of_isToken (.group inner (shuts.anywhere [])) opens
  | template => cases bracket <;> cases opens

/-- A group is stepped over wherever it stands. -/
theorem Cursor.skipGroup_of_isGroup {c : Cursor} {bracket : Bracket} {text rest : List Char}
    (group : isGroup bracket text = true) (split : c.rest = text ++ rest) :
    ∃ next, c.skipGroup = .ok next ∧ next.offset = c.offset + byteSize text := by
  obtain ⟨last, token⟩ := isToken_of_isGroup group c.regexOk rest
  have opens : c.rest.head? = some bracket.opener := by
    obtain ⟨inner, -, rfl, -⟩ := exists_shuts_of_isGroup group
    rw [split]
    rfl
  refine ⟨c.advance text rest last, ?_, rfl⟩
  rw [skipGroup_eq_skipToken opens]
  exact (token.skips split).2

/-- From a position of a text on, an interior stands that is scanned to its end as a text of its
own. Each group that is a token of it is stepped over where it stands in the whole text, whatever
line and flag a cursor has there, and the interior can be cut at commas and at colons. -/
structure Rescans (text : List Char) (start : Nat) (interior : List Char) : Prop where
  finished : (scan interior).stop = .finished
  groups : ∀ place t bracket, (place, t) ∈ placedTokens interior → t.group? = some bracket →
    ∀ here : Cursor, here.StandsIn text → here.offset = start + place →
      ∃ next, here.skipGroup = .ok next ∧
        next.offset = start + (place + byteSize t.text)
  cut : ∀ sep, sep = ',' ∨ sep = ':' → ∃ pieces, split sep interior = .ok pieces

theorem Rescans.of_balances {text front interior behind : List Char}
    (split : text = front ++ (interior ++ behind)) (balances : Balances [] true interior) :
    Rescans text (byteSize front) interior := by
  refine ⟨balances.finished, ?_, ?_⟩
  · intro place t bracket member group here inText there
    obtain ⟨before, ⟨after, inside⟩, size⟩ := shownAt_of_mem_placedTokens member
    -- in the whole text the group stands behind what is in front of the interior
    have around : text = (front ++ before) ++ (t.text ++ (after ++ behind)) := by
      rw [split, ← inside]
      simp
    have offset : here.offset = byteSize (front ++ before) := by
      rw [there, byteSize_append, size]
    rw [around] at inText
    obtain ⟨next, closed, moved⟩ := Cursor.skipGroup_of_isGroup
      (isGroup_of_mem_tokens (mem_tokens_of_mem_placedTokens member) group)
      (inText.rest_eq offset)
    refine ⟨next, closed, ?_⟩
    rw [moved, there, Nat.add_assoc]
  · intro sep separates
    apply balances.exists_split
    rcases separates with rfl | rfl <;> decide

/-- A group that is stepped over, from anywhere and in any state, has an interior that can be read
again on its own. -/
theorem skipGroup_rescans {text : List Char} {c later : Cursor} {bracket : Bracket}
    (stands : c.StandsIn text) (opens : c.rest.head? = some bracket.opener)
    (skipped : c.skipGroup = .ok later) :
    ∃ front interior : List Char,
      text = front ++ bracket.opener :: (interior ++ bracket.closer :: later.rest) ∧
      c.offset = byteSize front ∧ later.offset = c.offset + 1 + byteSize interior + 1 ∧
      Rescans text (c.offset + 1) interior := by
  obtain ⟨interior, whole, stop, balances⟩ := Cursor.exists_interior opens skipped
  obtain ⟨front, split, start⟩ := stands
  rw [whole] at split
  refine ⟨front, interior, split, start, stop, ?_⟩
  have behind : text = (front ++ [bracket.opener]) ++ (interior ++ bracket.closer :: later.rest) :=
    by simpa using split
  have size : byteSize (front ++ [bracket.opener]) = c.offset + 1 := by
    rw [byteSize_append, byteSize, Bracket.utf8Size_opener, start]
    rfl
  rw [← size]
  exact .of_balances behind balances

/-- A group in a group, behind a string that holds a closer. -/
def nestedGroups : List Char :=
  "f(')', [b])".toList

theorem skipGroup_rescans_nested :
    (⟨"(')', [b])".toList, 1, 1, false⟩ : Cursor).StandsIn nestedGroups ∧
      "(')', [b])".toList.head? = some Bracket.round.opener ∧
      (⟨"(')', [b])".toList, 1, 1, false⟩ : Cursor).skipGroup = .ok ⟨[], 11, 1, false⟩ ∧
      Rescans nestedGroups 2 "')', [b]".toList ∧
      (⟨"[b])".toList, 7, 3, true⟩ : Cursor).StandsIn nestedGroups ∧
      ∃ next, (⟨"[b])".toList, 7, 3, true⟩ : Cursor).skipGroup = .ok next ∧ next.offset = 10 := by
  have stands : (⟨"(')', [b])".toList, 1, 1, false⟩ : Cursor).StandsIn nestedGroups :=
    ⟨['f'], by decide, by decide⟩
  have skipped : (⟨"(')', [b])".toList, 1, 1, false⟩ : Cursor).skipGroup =
      .ok ⟨[], 11, 1, false⟩ := by decide +kernel
  have inner : (⟨"[b])".toList, 7, 3, true⟩ : Cursor).StandsIn nestedGroups :=
    ⟨"f(')', ".toList, by decide, by decide⟩
  obtain ⟨front, interior, split, start, -, rescans⟩ :=
    @skipGroup_rescans _ _ _ .round stands (by decide) skipped
  -- the position decides where the group stands, and so its interior
  have shown : ['f'] ++ '(' :: ("')', [b]".toList ++ [')']) = front ++ '(' :: (interior ++ [')']) :=
    split
  obtain ⟨-, same⟩ := eq_of_byteSize_eq shown start
  obtain rfl : "')', [b]".toList = interior :=
    List.append_cancel_right (List.cons.inj same).2
  have found : (5, ⟨[' '], "[b]".toList, 1⟩) ∈ placedTokens "')', [b]".toList := by
    decide +kernel
  exact ⟨stands, by decide, skipped, rescans, inner,
    rescans.groups 5 _ .square found (by decide) _ inner rfl⟩

end Concord.Scan
