import Concord.Proofs.PatternSyntax

/-!
Words and groups that stand anywhere. A word is one token in front of anything that does not
continue it, and a group that balances is one token in front of anything at all, because its closer
ends it. Neither looks at what stands before it. So items made of blanks, words, groups and marks
are read behind any token.
-/
namespace Concord.Scan

open Concord.Text

/-! Groups -/

/-- Where nothing is left to read, nothing is open. -/
theorem Shuts.eq_nil {around : List Enclosure} {flag last : Bool} {rest : List Char}
    (shuts : Shuts around flag [] rest last) : around = [] := by
  generalize empty : ([] : List Char) = text at shuts
  cases shuts with
  | done => rfl
  | step moves => exact absurd (List.append_eq_nil_iff.mp empty.symm).1 moves.ne_nil

/-- A unit that closes what it stands in does not see what follows. -/
theorem Moves.leave_anywhere {top : Option Enclosure} {flag after : Bool} {text rest : List Char}
    (moves : Moves top flag text rest .leave after) (rest' : List Char) :
    Moves top flag text rest' .leave after := by
  cases moves with
  | @closer _ _ bracket _ _ lexes =>
    obtain ⟨rfl, rfl⟩ := lexes.closer_text
    exact .closer (.closerMark flag bracket rest')
  | templateEnd => exact .templateEnd

/-- What closes all that is open ends with the unit that closes the last of it, so anything may
follow. -/
theorem Shuts.anywhere {around : List Enclosure} {flag last : Bool} {text rest : List Char}
    (shuts : Shuts around flag text rest last) (rest' : List Char) :
    Shuts around flag text rest' last := by
  induction shuts with
  | done => exact .done
  | @step top below flag after last front text rest change moves later ih =>
    refine .step ?_ ih
    cases text with
    | cons x text =>
      -- the unit sees the text behind it, and nothing further
      exact moves.exchange ⟨id, id, id, id, fun none => by cases none⟩
    | nil =>
      have closed := later.eq_nil
      cases change with
      | stay => cases closed
      | enter inner => cases closed
      | leave => exact moves.leave_anywhere rest'

/-- What closes something ends with a character that is no blank. -/
theorem Shuts.exists_last {around : List Enclosure} {flag last : Bool} {text rest : List Char}
    (shuts : Shuts around flag text rest last) (opened : around ≠ []) :
    ∃ front x, text = front ++ [x] ∧ isBlank x = false := by
  induction shuts with
  | done => exact absurd rfl opened
  | @step top below flag after last unit text rest change moves later ih =>
    by_cases closed : change.on (top :: below) = []
    · -- the last unit closes the last of what is open
      rw [closed] at later
      cases later with
      | done =>
        cases change with
        | stay => cases closed
        | enter inner => cases closed
        | leave =>
          obtain ⟨x, rfl, dark⟩ := moves.leave_text
          exact ⟨[], x, rfl, dark⟩
    · obtain ⟨front, x, rfl, dark⟩ := ih closed
      exact ⟨unit ++ front, x, (List.append_assoc unit front [x]).symm, dark⟩

/-- The text is one group with this bracket: the scanner steps over it and comes to its end. -/
def isGroup (bracket : Bracket) (text : List Char) : Bool :=
  text.head? = some bracket.opener &&
    match (Cursor.start text).skipGroup with
    | .ok c => c.atEnd
    | .error _ => false

/-- Behind its opener, a group closes all that it opens, whatever follows. -/
theorem exists_shuts_of_isGroup {bracket : Bracket} {text : List Char}
    (group : isGroup bracket text = true) :
    ∃ inner last, text = bracket.opener :: inner ∧
      ∀ rest, Shuts [.group bracket] true inner rest last := by
  rw [isGroup, Bool.and_eq_true, decide_eq_true_eq] at group
  obtain ⟨opens, ends⟩ := group
  obtain ⟨body, rfl⟩ := List.head?_eq_some_iff.mp opens
  have read := Cursor.lexeme?_of_lexes (.openerMark true bracket body)
    (show (Cursor.start (bracket.opener :: body)).rest = [bracket.opener] ++ body by rfl)
  -- that the text is one group says that skipping it comes to the end
  rw [Cursor.skipGroup, read] at ends
  simp only at ends
  split at ends
  next c closed =>
    obtain ⟨inner, split, shuts⟩ := Cursor.close_shuts closed
    have last : c.rest = [] := List.isEmpty_iff.mp ends
    obtain rfl : body = inner := by
      rw [last, List.append_nil] at split
      exact split
    exact ⟨body, _, rfl, shuts.anywhere⟩
  · cases ends

/-- A group is one token in front of anything. -/
theorem isToken_of_isGroup {bracket : Bracket} {text : List Char}
    (group : isGroup bracket text = true) (flag : Bool) (rest : List Char) :
    ∃ last, IsToken flag text rest last := by
  obtain ⟨inner, last, rfl, shuts⟩ := exists_shuts_of_isGroup group
  exact ⟨last, .group bracket (shuts rest)⟩

/-- A group ends with a character that is no blank. -/
theorem dark_of_isGroup {bracket : Bracket} {text : List Char}
    (group : isGroup bracket text = true) : ∀ x ∈ text.getLast?, isBlank x = false := by
  obtain ⟨inner, last, rfl, shuts⟩ := exists_shuts_of_isGroup group
  obtain ⟨front, x, rfl, dark⟩ := (shuts []).exists_last (by simp)
  intro y found
  rw [← List.cons_append, List.getLast?_concat] at found
  cases found
  exact dark

/-! Items that are read behind any token -/

/-- Whatever stands in front, the items are read in front of `rest`. -/
def Readable (items : List Item) (rest : List Char) : Prop :=
  ∀ flag, ∃ last, Reads flag items rest last

namespace Readable

variable {items more : List Item} {rest : List Char}

theorem nil : Readable [] rest :=
  fun flag => ⟨flag, .done⟩

theorem append (first : Readable items (Item.source more ++ rest)) (second : Readable more rest) :
    Readable (items ++ more) rest := by
  intro flag
  obtain ⟨middle, front⟩ := first flag
  obtain ⟨last, back⟩ := second middle
  exact ⟨last, front.trans back⟩

theorem token {text : List Char}
    (one : ∀ flag, ∃ last, IsToken flag text (Item.source items ++ rest) last)
    (later : Readable items rest) : Readable (.token text :: items) rest := by
  intro flag
  obtain ⟨middle, token⟩ := one flag
  obtain ⟨last, behind⟩ := later middle
  exact ⟨last, .token token behind⟩

theorem mark {x : Char} (separates : isSeparator x = true) (later : Readable items rest) :
    Readable (.token [x] :: items) rest :=
  token (fun flag => ⟨_, .separator separates flag _⟩) later

theorem space (later : Readable items rest) : Readable (.gap [' '] :: items) rest := by
  intro flag
  obtain ⟨last, behind⟩ := later flag
  exact ⟨last, .gap (.blank (by decide)) (Or.inl rfl) behind⟩

theorem group {bracket : Bracket} {text : List Char} (group : isGroup bracket text = true)
    (later : Readable items rest) : Readable (.token text :: items) rest :=
  token (fun flag => isToken_of_isGroup group flag _) later

end Readable

end Concord.Scan

namespace Concord.Export

open Concord.Scan Concord.Text

/-! Words -/

/-- A word start, and parts of words behind it. -/
def isWord : List Char → Bool
  | [] => false
  | x :: rest => isWordStart x && rest.all isWordPart

/-- A word of the scanner. -/
structure Word where
  text : List Char
  word : isWord text = true := by decide +kernel

/-- A balanced group. -/
structure Group (bracket : Bracket) where
  text : List Char
  whole : isGroup bracket text = true := by decide +kernel

namespace Word

variable (word : Word)

theorem exists_cons : ∃ x rest, word.text = x :: rest ∧ isWordStart x = true ∧
    ∀ y ∈ rest, isWordPart y = true := by
  obtain ⟨text, word⟩ := word
  cases text with
  | nil => cases word
  | cons x rest =>
    rw [isWord, Bool.and_eq_true, List.all_eq_true] at word
    exact ⟨x, rest, rfl, word⟩

/-- A word is no mark. -/
theorem ne_mark {mark : Char} (noWord : isWordStart mark = false) : word.text ≠ [mark] := by
  obtain ⟨x, rest, shown, starts, -⟩ := word.exists_cons
  rw [shown]
  rintro ⟨⟩
  rw [starts] at noWord
  cases noWord

theorem isWordPart_of_mem {x : Char} (member : x ∈ word.text) : isWordPart x = true := by
  obtain ⟨y, rest, shown, starts, inside⟩ := word.exists_cons
  rw [shown] at member
  rcases List.mem_cons.mp member with rfl | member
  · simp [isWordPart, starts]
  · exact inside x member

/-- A word stands on one line. -/
theorem lineBreaks_text : lineBreaks word.text = 0 := by
  apply List.count_eq_zero_of_not_mem
  intro newline
  cases word.isWordPart_of_mem newline

theorem isToken {rest : List Char} (ends : ∀ x ∈ rest.head?, isWordPart x = false) (flag : Bool) :
    ∃ last, IsToken flag word.text rest last := by
  obtain ⟨x, inner, shown, starts, inside⟩ := word.exists_cons
  rw [shown]
  exact ⟨_, .lexeme (.word starts inside ends) rfl (by simp)⟩

theorem readable {items : List Item} {rest : List Char}
    (ends : ∀ x ∈ (Item.source items ++ rest).head?, isWordPart x = false)
    (later : Readable items rest) : Readable (.token word.text :: items) rest :=
  .token (word.isToken ends) later

end Word

/-! Tokens that are words or groups -/

/-- A token with the text of a word. -/
theorem Word.word?_eq {t : Token} (word : Word) (shown : t.text = word.text) :
    t.word? = some word.text := by
  obtain ⟨x, rest, text, starts, -⟩ := word.exists_cons
  rw [Token.word?, Token.first, shown, text]
  simp [starts]

theorem Word.group?_eq {t : Token} (word : Word) (shown : t.text = word.text) :
    t.group? = none := by
  obtain ⟨x, rest, text, starts, -⟩ := word.exists_cons
  rw [Token.group?, Token.first, shown, text]
  cases found : Bracket.ofOpener? x with
  | none => simpa using found
  | some bracket =>
    rw [Bracket.eq_opener_of_ofOpener? found] at starts
    cases bracket <;> cases starts

theorem Group.head_text {bracket : Bracket} (group : Group bracket) :
    group.text.head? = some bracket.opener := by
  have whole := group.whole
  rw [isGroup, Bool.and_eq_true, decide_eq_true_eq] at whole
  exact whole.1

theorem Group.group?_eq {t : Token} {bracket : Bracket} (group : Group bracket)
    (shown : t.text = group.text) : t.group? = some bracket := by
  rw [Token.group?, Token.first, shown, List.headD_eq_head?_getD, group.head_text]
  exact Bracket.ofOpener?_opener bracket

end Concord.Export
