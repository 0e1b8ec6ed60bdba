import Concord.Scan.Group

/-!
Cutting a text at depth 0. A separator counts only where a token could start, so one inside a
literal, a comment or a bracket group never cuts.
-/
namespace Concord.Scan

open Concord.Text

structure Piece where
  offset : Nat
  text : List Char
  deriving DecidableEq, Repr

/-- The pieces from `start` on, when the scan has come to `c`. -/
def Cursor.split (sep : Char) (start c : Cursor) : Except Imbalance (List Piece) :=
  match _trivia : c.skipTrivia with
  | .error halt => .error halt.imbalance
  | .ok here =>
    if _unread : here.rest = [] then .ok [⟨start.offset, start.rest⟩]
    else
      match _cut : here.eat? sep with
      | some next => do
        let later ← split sep next next
        return ⟨start.offset, start.upTo here⟩ :: later
      | none =>
        match _token : here.skipToken with
        | .error halt => .error halt.imbalance
        | .ok next => split sep start next
  termination_by c.rest.length
  decreasing_by
    · refine Nat.lt_of_lt_of_le ?_ (skipTrivia_reaches _trivia).length_le
      simp only [eat?] at _cut
      split at _cut
      · simp at _cut
      next x rest h =>
        split at _cut
        · simp only [Option.some.injEq] at _cut
          simp [← _cut, advance, h]
        · simp at _cut
    · exact Nat.lt_of_lt_of_le (skipToken_length_lt _unread _token)
        (skipTrivia_reaches _trivia).length_le

/-- The pieces of a text between the depth-0 occurrences of `sep`. -/
def split (sep : Char) (text : List Char) : Except Imbalance (List Piece) :=
  (Cursor.start text).split sep (Cursor.start text)

/-- An `=` between these neighbours assigns: it is no part of `=>`, `==`, `<=`, `>=` or `!=`. -/
def assigns (previous : Char) (next : Option Char) : Bool :=
  !(next = some '>' || next = some '=')
    && !(previous = '=' || previous = '<' || previous = '>' || previous = '!')

/-- First assignment from `c` on; `previous` is the character in front of `c`. -/
def Cursor.findAssign (previous : Char) (c : Cursor) : Except Imbalance (Option Nat) :=
  match _trivia : c.skipTrivia with
  | .error halt => .error halt.imbalance
  | .ok here =>
    if _unread : here.rest = [] then .ok none
    else
      let before := (c.upTo here).getLastD previous
      if here.rest.head? = some '=' && assigns before here.rest.tail.head? then
        .ok (some here.offset)
      else
        match _token : here.skipToken with
        | .error halt => .error halt.imbalance
        | .ok next => findAssign ((here.upTo next).getLastD before) next
  termination_by c.rest.length
  decreasing_by
    exact Nat.lt_of_lt_of_le (skipToken_length_lt _unread _token)
      (skipTrivia_reaches _trivia).length_le

/-- Byte position of the first depth-0 assignment. -/
def findAssign (text : List Char) : Except Imbalance (Option Nat) :=
  (Cursor.start text).findAssign ' '

/-- No piece is longer than what was left to cut. -/
theorem Cursor.split_length_le {sep : Char} {start c : Cursor} {pieces : List Piece}
    (cut : Cursor.split sep start c = .ok pieces) (ahead : c.rest.length ≤ start.rest.length) :
    ∀ piece ∈ pieces, piece.text.length ≤ start.rest.length := by
  fun_induction Cursor.split sep start c generalizing pieces with
  | case1 => cases cut
  | case2 =>
    cases cut
    simp
  | case3 start c here trivia unread next eaten ih =>
    cases h : Cursor.split sep next next with
    | error => simp [h, bind, Except.bind] at cut
    | ok later =>
      simp only [h, bind, Except.bind, pure, Except.pure, Except.ok.injEq] at cut
      subst cut
      have shorter : next.rest.length ≤ start.rest.length := by
        have reached := (skipTrivia_reaches trivia).length_le
        have : next.rest.length ≤ here.rest.length := by
          simp only [eat?] at eaten
          split at eaten
          · simp at eaten
          next x rest h =>
            split at eaten
            · simp only [Option.some.injEq] at eaten
              simp [← eaten, advance, h]
            · simp at eaten
        omega
      intro piece member
      rcases List.mem_cons.mp member with rfl | member
      · simp only [upTo, List.length_take]
        omega
      · exact Nat.le_trans (ih h (Nat.le_refl _) piece member) shorter
  | case4 => cases cut
  | case5 start c here trivia unread uncut next token ih =>
    exact ih cut (Nat.le_trans (skipToken_reaches token).length_le
      (Nat.le_trans (skipTrivia_reaches trivia).length_le ahead))

theorem split_length_le {sep : Char} {text : List Char} {pieces : List Piece}
    (cut : split sep text = .ok pieces) : ∀ piece ∈ pieces, piece.text.length ≤ text.length := by
  simpa [split, Cursor.start] using Cursor.split_length_le cut (Nat.le_refl _)

end Concord.Scan
