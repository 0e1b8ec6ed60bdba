import Concord.Proofs.MaskedBytes
import Concord.Proofs.Places

/-!
The first assignment of a text. The search for one carries the character in front of it along, and
looks at the bytes beside an `=` as characters. Both come to the bytes of the text beside the token:
in a text that is scanned to its end, the search finds the first `=` among the tokens whose
neighbours make no other operator of it.
-/
namespace Concord.Scan

open Concord.Text

/-! Bytes beside a position -/

/-- The byte at a position is one of these characters. -/
def isByteOf (marks text : List Char) (offset : Nat) : Bool :=
  (byteAt? text offset).any fun byte => marks.contains (byteChar byte)

/-- The bytes beside an `=` at a position make no other operator of it. -/
def assignsAt (text : List Char) (place : Nat) : Bool :=
  !isByteOf ['>', '='] text (place + 1)
    && (place = 0 || !isByteOf ['=', '<', '>', '!'] text (place - 1))

/-- The position of the first token of a text that assigns. -/
def firstAssignment? (text : List Char) : Option Nat :=
  ((placedTokens text).find? fun place => place.2.is '=' && assignsAt text place.1).map Prod.fst

theorem isByteOf_iff {marks text : List Char} {offset : Nat} :
    isByteOf marks text offset = true ↔ ∃ mark ∈ marks, (latin text)[offset]? = some mark := by
  rw [isByteOf, byteAt?_eq_getElem?, latin, List.getElem?_map]
  cases (bytes text)[offset]? with
  | none => simp
  | some byte => simp

/-- Looking at bytes finds an ASCII character at the end just where it stands. -/
theorem getLast?_latin {x : Char} (narrow : isWide x = false) (text : List Char) :
    (latin text).getLast? = some x ↔ text.getLast? = some x := by
  rcases List.eq_nil_or_concat text with rfl | ⟨front, c, rfl⟩
  · rfl
  · rw [List.concat_eq_append, latin_append, List.getLast?_concat]
    rcases latin_singleton c with ⟨wide, y, more, whole, all⟩ | ⟨-, whole⟩
    · -- the last byte of a character outside ASCII is no ASCII character
      have last : (y :: more).getLast? = some ((y :: more).getLast (by simp)) :=
        List.getLast?_eq_some_getLast (by simp)
      have wideLast := all _ (List.getLast_mem (l := y :: more) (by simp))
      rw [whole, List.getLast?_append, last, Option.some_or]
      constructor
      · rintro ⟨⟩
        rw [wideLast] at narrow
        cases narrow
      · rintro ⟨⟩
        rw [wide] at narrow
        cases narrow
    · rw [whole, List.getLast?_concat]

section

variable {marks : List Char} (narrow : ∀ x ∈ marks, isWide x = false)

include narrow

/-- Where the bytes of a text show the marks that a character is, they tell what it tells. -/
theorem isByteOf_eq_any {text : List Char} {offset : Nat} {found : Option Char}
    (same : ∀ x, isWide x = false → ((latin text)[offset]? = some x ↔ found = some x)) :
    isByteOf marks text offset = found.any marks.contains := by
  rw [Bool.eq_iff_iff, isByteOf_iff, Option.any_eq_true]
  -- the marks are ASCII, so a byte shows one exactly where the character is one
  constructor
  · rintro ⟨x, member, shown⟩
    exact ⟨x, (same x (narrow x member)).mp shown, by simpa using member⟩
  · rintro ⟨x, shown, member⟩
    have listed : x ∈ marks := by simpa using member
    exact ⟨x, listed, (same x (narrow x listed)).mpr shown⟩

/-- The byte behind a text is the character that follows. -/
theorem isByteOf_behind (front rest : List Char) :
    isByteOf marks (front ++ rest) (byteSize front) = rest.head?.any marks.contains := by
  apply isByteOf_eq_any narrow
  intro x ascii
  rw [latin_append, List.getElem?_append_right (by rw [length_latin]), length_latin,
    Nat.sub_self, ← List.head?_eq_getElem?]
  exact head?_latin ascii rest

/-- The last byte of a text is its last character. -/
theorem isByteOf_last {front : List Char} (shown : front ≠ []) (rest : List Char) :
    isByteOf marks (front ++ rest) (byteSize front - 1) = front.getLast?.any marks.contains := by
  have size := byteSize_pos shown
  apply isByteOf_eq_any narrow
  intro x ascii
  rw [latin_append, List.getElem?_append_left (by rw [length_latin]; omega), ← length_latin,
    ← List.getLast?_eq_getElem?]
  exact getLast?_latin ascii front

end

theorem assigns_eq (previous : Char) (next : Option Char) :
    assigns previous next =
      (!next.any ['>', '='].contains && !(['=', '<', '>', '!'].contains previous)) := by
  cases next with
  | none => simp [assigns, Bool.or_assoc]
  | some next => simp [assigns, Bool.or_assoc]

/-- The characters beside an `=` tell what the bytes tell. -/
theorem assignsAt_eq (front rest : List Char) :
    assignsAt (front ++ '=' :: rest) (byteSize front) =
      assigns (front.getLastD ' ') rest.head? := by
  -- what stands behind the mark is looked up one byte further
  have next : isByteOf ['>', '='] (front ++ '=' :: rest) (byteSize front + 1) =
      rest.head?.any ['>', '='].contains := by
    have behind := @isByteOf_behind ['>', '='] (by simp [isWide]) (front ++ ['=']) rest
    rwa [List.append_assoc, byteSize_append] at behind
  rw [assignsAt, assigns_eq, next]
  by_cases shown : front = []
  · subst shown
    rfl
  · have start : byteSize front ≠ 0 := Nat.ne_of_gt (byteSize_pos shown)
    obtain ⟨last, ends⟩ : ∃ last, front.getLast? = some last :=
      ⟨_, List.getLast?_eq_some_getLast shown⟩
    rw [isByteOf_last (by simp [isWide]) shown, List.getLastD_eq_getLast?, ends]
    simp [start]

/-! The search -/

/-- A token that starts with an `=` is the `=`. -/
theorem Cursor.upTo_of_equals {c next : Cursor} {rest : List Char} (equals : c.rest = '=' :: rest)
    (token : c.skipToken = .ok next) : c.upTo next = ['='] := by
  have one : IsToken c.regexOk ['='] rest (regexMayFollow '=') :=
    .separator (by decide) c.regexOk rest
  have skipped := (one.skips equals).2.symm.trans token
  cases skipped
  exact upTo_eq equals

/-- The cursor stands in the text, and this character in front of it. -/
def Cursor.Follows (c : Cursor) (previous : Char) (text : List Char) : Prop :=
  ∃ front, text = front ++ c.rest ∧ c.offset = byteSize front ∧ front.getLastD ' ' = previous

namespace Cursor.Follows

variable {c here : Cursor} {previous : Char} {text : List Char}

theorem start (text : List Char) : (Cursor.start text).Follows ' ' text :=
  ⟨[], rfl, rfl, rfl⟩

theorem reaches (follows : c.Follows previous text) (reached : Reaches c here) :
    here.Follows ((c.upTo here).getLastD previous) text := by
  obtain ⟨front, split, place, rfl⟩ := follows
  obtain ⟨passed, behind, moved⟩ := reached
  refine ⟨front ++ passed, ?_, ?_, ?_⟩
  · rw [split, behind, List.append_assoc]
  · rw [moved, byteSize_append, ← place]
    rfl
  · rw [upTo_eq behind, getLastD_append]

theorem assignsAt_eq {rest : List Char} (follows : c.Follows previous text)
    (equals : c.rest = '=' :: rest) : assignsAt text c.offset = assigns previous rest.head? := by
  obtain ⟨front, split, place, rfl⟩ := follows
  rw [split, equals, place, Scan.assignsAt_eq]

end Cursor.Follows

/-- The search finds the first token from here on that assigns. -/
theorem Cursor.findAssign_eq {text : List Char} {previous : Char} {c : Cursor}
    (follows : c.Follows previous text) (finished : c.scan.stop = .finished) :
    c.findAssign previous = .ok (((Token.placed c.offset c.scan.tokens).find? fun place =>
      place.2.is '=' && assignsAt text place.1).map Prod.fst) := by
  fun_induction Cursor.findAssign previous c with
  | case1 previous c halt trivia =>
    rw [scan_of_openComment trivia] at finished
    cases finished
  | case2 previous c here trivia ended =>
    rw [scan_of_atEnd trivia ended]
    rfl
  | case3 previous c here trivia unread before =>
    rename_i assigned
    rw [Bool.and_eq_true, decide_eq_true_eq] at assigned
    obtain ⟨equals, assigned⟩ := assigned
    obtain ⟨rest, shown⟩ := List.head?_eq_some_iff.mp equals
    -- the token is the `=`, and it is the first one
    have one : IsToken here.regexOk ['='] rest (regexMayFollow '=') :=
      .separator (by decide) here.regexOk rest
    have token := (one.skips shown).2
    have here_assigns := (follows.reaches (skipTrivia_reaches trivia)).assignsAt_eq shown
    rw [shown, List.tail_cons, ← here_assigns] at assigned
    rw [placed_scan trivia unread token, upTo_of_equals shown token, List.find?_cons_of_pos]
    · rfl
    · simp [Token.is, assigned]
  | case4 previous c here trivia unread before =>
    rename_i other halt token
    rw [scan_of_blocked trivia unread token] at finished
    cases finished
  | case5 previous c here trivia unread before =>
    rename_i other next token ih
    have follows := follows.reaches (skipTrivia_reaches trivia)
    have later := ih (follows.reaches (skipToken_reaches token))
      ((scan_of_token trivia unread token).1.symm.trans finished)
    rw [later, placed_scan trivia unread token, List.find?_cons_of_neg]
    -- an `=` that is passed over is none that assigns
    intro both
    rw [Bool.and_eq_true] at both
    obtain ⟨equals, assigned⟩ := both
    obtain ⟨unit, behind, -⟩ := skipToken_reaches token
    have unit_eq : unit = ['='] := by
      rw [upTo_eq behind] at equals
      simpa [Token.is] using equals
    have shown : here.rest = '=' :: next.rest := by rw [behind, unit_eq, List.singleton_append]
    rw [follows.assignsAt_eq shown] at assigned
    apply other
    rw [shown, Bool.and_eq_true]
    exact ⟨decide_eq_true rfl, assigned⟩

/-- In a text that is scanned to its end, the search finds the first token that assigns. -/
theorem findAssign_eq {text : List Char} (finished : (scan text).stop = .finished) :
    findAssign text = .ok (firstAssignment? text) :=
  Cursor.findAssign_eq (.start text) finished

end Concord.Scan
