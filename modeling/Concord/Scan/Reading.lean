import Concord.Outcome
import Concord.Scan.Group

/-!
Steps of a reader that gives up at the first imbalance. Nothing but the imbalance is kept of a step
that fails, and one that succeeds leads to a cursor that is reached by reading.
-/
namespace Concord.Scan

open Concord.Text

namespace Cursor

def pastTrivia (c : Cursor) : Except Imbalance Cursor :=
  c.skipTrivia.mapError Halt.imbalance

def pastToken (c : Cursor) : Except Imbalance Cursor :=
  c.skipToken.mapError Halt.imbalance

def pastGroup (c : Cursor) : Except Imbalance Cursor :=
  c.skipGroup.mapError Halt.imbalance

def peek? (c : Cursor) : Option Char :=
  c.rest.head?

/-- Steps over `mark` if it is next, and else stays. -/
def dropMark (c : Cursor) (mark : Char) : Cursor :=
  (c.eat? mark).getD c

/-- Steps over `=>` if it is next. -/
def eatArrow? (c : Cursor) : Option Cursor :=
  (c.eat? '=').bind fun next => next.eat? '>'

variable {c next : Cursor}

theorem skipGroup_reaches (skipped : c.skipGroup = .ok next) : Reaches c next := by
  simp only [skipGroup] at skipped
  split at skipped
  next bracket within read => exact (Reaches.lexeme read).trans (close_reaches skipped)
  · cases skipped

theorem word?_reaches {word : List Char} (read : c.word? = some (word, next)) :
    Reaches c next := by
  simp only [word?] at read
  split at read
  next next found =>
    cases read
    exact .lexeme found
  · cases read

theorem word?_length_lt {word : List Char} (read : c.word? = some (word, next)) :
    next.rest.length < c.rest.length := by
  simp only [word?] at read
  split at read
  next next found =>
    cases read
    exact lexeme?_length_lt found
  · cases read

theorem skipToken_of_word? {word : List Char} (read : c.word? = some (word, next)) :
    c.skipToken = .ok next := by
  simp only [word?] at read
  split at read
  next next found =>
    cases read
    rw [skipToken, found]
  · cases read

theorem eat?_cons {mark : Char} (eaten : c.eat? mark = some next) :
    ∃ rest flag, c.rest = mark :: rest ∧ next = c.advance [mark] rest flag := by
  simp only [eat?] at eaten
  split at eaten
  · cases eaten
  next x rest text =>
    split at eaten
    next same =>
      subst same
      cases eaten
      exact ⟨rest, _, text, rfl⟩
    · cases eaten

theorem eat?_reaches {mark : Char} (eaten : c.eat? mark = some next) : Reaches c next := by
  obtain ⟨rest, flag, text, rfl⟩ := eat?_cons eaten
  exact .advance text _

theorem eat?_length_lt {mark : Char} (eaten : c.eat? mark = some next) :
    next.rest.length < c.rest.length := by
  obtain ⟨rest, flag, text, rfl⟩ := eat?_cons eaten
  simp [advance, text]

theorem dropMark_reaches (c : Cursor) (mark : Char) : Reaches c (c.dropMark mark) := by
  cases eaten : c.eat? mark with
  | none => simpa [dropMark, eaten] using Reaches.refl c
  | some next => simpa [dropMark, eaten] using eat?_reaches eaten

theorem pastTrivia_reaches (passed : c.pastTrivia = .ok next) : Reaches c next :=
  skipTrivia_reaches (mapError_eq_ok.mp passed)

theorem pastToken_reaches (passed : c.pastToken = .ok next) : Reaches c next :=
  skipToken_reaches (mapError_eq_ok.mp passed)

theorem pastGroup_reaches (passed : c.pastGroup = .ok next) : Reaches c next :=
  skipGroup_reaches (mapError_eq_ok.mp passed)

theorem atEnd_of_peek? {x : Char} (shown : c.peek? = some x) : c.atEnd = false := by
  cases text : c.rest with
  | nil => simp [peek?, text] at shown
  | cons => simp [atEnd, text]

theorem pastToken_length_lt (unread : c.atEnd = false) (passed : c.pastToken = .ok next) :
    next.rest.length < c.rest.length := by
  refine skipToken_length_lt ?_ (mapError_eq_ok.mp passed)
  simpa [atEnd] using unread

/-- Steps on to the first token, the one at the cursor included, that `ends` is true of. -/
def skipTo (ends : Cursor → Bool) (c : Cursor) : Except Imbalance Cursor :=
  match _trivia : c.pastTrivia with
  | .error imbalance => .error imbalance
  | .ok here =>
    if _ended : here.atEnd || ends here then .ok here
    else
      match _token : here.pastToken with
      | .error imbalance => .error imbalance
      | .ok next => skipTo ends next
  termination_by c.rest.length
  decreasing_by
    simp only [Bool.or_eq_true, not_or, Bool.not_eq_true] at _ended
    exact Nat.lt_of_lt_of_le (pastToken_length_lt _ended.1 _token)
      (pastTrivia_reaches _trivia).length_le

theorem skipTo_reaches {ends : Cursor → Bool} (skipped : c.skipTo ends = .ok next) :
    Reaches c next := by
  fun_induction skipTo ends c with
  | case1 | case3 => cases skipped
  | case2 c here trivia =>
    cases skipped
    exact pastTrivia_reaches trivia
  | case4 c here trivia _ middle token ih =>
    exact ((pastTrivia_reaches trivia).trans (pastToken_reaches token)).trans (ih skipped)

end Cursor

end Concord.Scan
