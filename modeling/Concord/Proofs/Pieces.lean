import Concord.Proofs.BalancedRuns
import Concord.Proofs.ExportTokens

/-!
The pieces of a text. Cutting keeps every character: the pieces and the separators between them are
the text again, each piece stands at its offset, and each balances by itself. The same holds of what
stands before an assignment, and so of the part of a pattern entry that binds.
-/
namespace Concord.Text

theorem takeBytes_append (front back : List Char) :
    takeBytes (front ++ back) (byteSize front) = front := by
  induction front with
  | nil => cases back <;> simp [takeBytes, byteSize]
  | cons c front ih =>
    have := Char.utf8Size_pos c
    simp only [List.cons_append, takeBytes, byteSize]
    rw [if_neg (by omega), Nat.add_sub_cancel_left, ih]

theorem breaksBefore_append (front back : List Char) :
    breaksBefore (front ++ back) (byteSize front) = lineBreaks front := by
  induction front with
  | nil => cases back <;> simp [breaksBefore, byteSize, lineBreaks]
  | cons c front ih =>
    have := Char.utf8Size_pos c
    simp only [List.cons_append, breaksBefore, byteSize]
    rw [if_neg (by omega), Nat.add_sub_cancel_left, ih]
    by_cases newline : c = '\n'
    · simp [newline, lineBreaks, Nat.add_comm]
    · simp [newline, lineBreaks]

end Concord.Text

namespace Concord.Scan

open Concord.Export Concord.Text

/-- The pieces of a text that starts at a given offset, between occurrences of `sep`. -/
inductive Cuts (sep : Char) : Nat → List Char → List Piece → Prop
  | last {offset : Nat} {text : List Char} (balances : Balances [] true text) :
      Cuts sep offset text [⟨offset, text⟩]
  | next {offset : Nat} {piece rest : List Char} {pieces : List Piece}
      (balances : Balances [] true piece)
      (later : Cuts sep (offset + byteSize piece + sep.utf8Size) rest pieces) :
      Cuts sep offset (piece ++ sep :: rest) (⟨offset, piece⟩ :: pieces)

/-- A separator behind which a `/` opens a regular expression, as at the start of a text. -/
def startsAnew (sep : Char) : Bool :=
  isSeparator sep && regexMayFollow sep

namespace Cursor

theorem eat?_eq_some {c next : Cursor} {sep : Char} (separates : startsAnew sep = true)
    (eaten : c.eat? sep = some next) :
    c.rest = sep :: next.rest ∧ next.offset = c.offset + sep.utf8Size ∧ next.regexOk = true := by
  simp only [startsAnew, isSeparator, Bool.and_eq_true, Bool.not_eq_true'] at separates
  simp only [eat?] at eaten
  split at eaten
  · cases eaten
  next x rest text =>
    split at eaten
    next same =>
      subst same
      cases eaten
      rw [text]
      simp [advance, byteSize, separates]
    · cases eaten

/-- Cutting gives the pieces of what is left from the start of the current piece. -/
theorem split_cuts {sep : Char} (separates : startsAnew sep = true) {start c : Cursor}
    {pieces : List Piece} (cut : Cursor.split sep start c = .ok pieces)
    (anew : start.regexOk = true) (passed : Passes start c) (reached : Reaches start c) :
    Cuts sep start.offset start.rest pieces := by
  fun_induction Cursor.split sep start c generalizing pieces with
  | case1 => cases cut
  -- at the end of the text the last piece is what is left, and it balances
  | case2 start c here trivia read =>
    cases cut
    have whole := passed.trans (skipTrivia_passes trivia)
    have balances : Balances [] start.regexOk start.rest := whole.balances (by simp [read])
    exact .last (anew ▸ balances)
  -- at a separator a piece ends, and the next one begins with a fresh state behind it
  | case3 start c here trivia unread next eaten ih =>
    obtain ⟨later, behind, same⟩ := bind_eq_ok.mp cut
    cases same
    obtain ⟨text, offset, flag⟩ := eat?_eq_some separates eaten
    have passed := passed.trans (skipTrivia_passes trivia)
    obtain ⟨piece, split, moved⟩ := reached.trans (skipTrivia_reaches trivia)
    have balances := passed.balances split
    rw [upTo_eq split, split, text]
    refine .next (anew ▸ balances) ?_
    have sum : next.offset = start.offset + byteSize piece + sep.utf8Size := by
      rw [offset, moved]
      rfl
    rw [← sum]
    exact ih behind flag (.refl next) (.refl next)
  | case4 => cases cut
  -- any other token belongs to the piece that has begun
  | case5 start c here trivia unread uncut next token ih =>
    exact ih cut anew ((passed.trans (skipTrivia_passes trivia)).trans (skipToken_passes token))
      ((reached.trans (skipTrivia_reaches trivia)).trans (skipToken_reaches token))

end Cursor

theorem split_cuts {sep : Char} (separates : startsAnew sep = true) {text : List Char}
    {pieces : List Piece} (cut : split sep text = .ok pieces) : Cuts sep 0 text pieces :=
  Cursor.split_cuts separates cut rfl (.refl _) (.refl _)

namespace Cuts

variable {sep : Char} {offset : Nat} {text : List Char} {pieces : List Piece}

theorem balances (cuts : Cuts sep offset text pieces) :
    ∀ piece ∈ pieces, Balances [] true piece.text := by
  induction cuts with
  | last balances => simpa using balances
  | next balances _ ih => simpa using ⟨balances, ih⟩

/-- Every piece stands at its offset. -/
theorem stands (cuts : Cuts sep offset text pieces) :
    ∀ piece ∈ pieces, ∃ front back, text = front ++ (piece.text ++ back) ∧
      piece.offset = offset + byteSize front := by
  induction cuts with
  | last => exact fun piece member => ⟨[], [], by simp_all, by simp_all [byteSize]⟩
  | @next offset first rest pieces _ _ ih =>
    intro piece member
    rcases List.mem_cons.mp member with rfl | member
    · exact ⟨[], sep :: rest, rfl, by simp [byteSize]⟩
    · obtain ⟨front, back, rfl, place⟩ := ih piece member
      refine ⟨first ++ sep :: front, back, by simp, ?_⟩
      simp only [place, byteSize_append, byteSize]
      omega

end Cuts

/-! Assignments -/

/-- What stands before an assignment balances, and its size is the position that is found. -/
theorem Cursor.findAssign_eq_some {previous : Char} {start c : Cursor} {position : Nat}
    (found : c.findAssign previous = .ok (some position)) (passed : Passes start c)
    (reached : Reaches start c) :
    ∃ front back, start.rest = front ++ back ∧ position = start.offset + byteSize front ∧
      Balances [] start.regexOk front := by
  fun_induction Cursor.findAssign previous c with
  | case1 | case2 | case4 => cases found
  | case3 previous c here trivia unread before assigns =>
    cases found
    obtain ⟨front, split, moved⟩ := reached.trans (skipTrivia_reaches trivia)
    have balances := (passed.trans (skipTrivia_passes trivia)).balances split
    exact ⟨front, here.rest, split, by rw [moved]; rfl, balances⟩
  | case5 previous c here trivia unread before other next token ih =>
    exact ih found ((passed.trans (skipTrivia_passes trivia)).trans (skipToken_passes token))
      ((reached.trans (skipTrivia_reaches trivia)).trans (skipToken_reaches token))

theorem Cursor.findAssign_error {previous : Char} {c : Cursor} {imbalance : Imbalance}
    (failed : c.findAssign previous = .error imbalance) : c.imbalance? [] = some imbalance := by
  fun_induction Cursor.findAssign previous c with
  | case1 previous c halt trivia =>
    cases failed
    rw [imbalance?_skipTrivia, trivia, verdict]
  | case2 | case3 => cases failed
  | case4 previous c here trivia unread before other halt token =>
    cases failed
    rw [imbalance?_skipTrivia, trivia, verdict, imbalance?_skipToken, token, verdict]
  | case5 previous c here trivia unread before other next token ih =>
    rw [imbalance?_skipTrivia, trivia, verdict, imbalance?_skipToken, token, verdict]
    exact ih failed

theorem Balances.exists_findAssign {text : List Char} (balances : Balances [] true text) :
    ∃ position, findAssign text = .ok position := by
  cases found : findAssign text with
  | ok position => exact ⟨position, rfl⟩
  | error imbalance =>
    have fine := balances.imbalance?_start
    rw [Cursor.findAssign_error found] at fine
    cases fine

end Concord.Scan
