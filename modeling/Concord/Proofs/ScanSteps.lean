import Concord.Proofs.Moves
import Concord.Scan.Token

/-!
Scanning step by step. Whether a text balances is what repeated steps come to, and the scan over
whole tokens comes to the same: it only groups the steps.
-/
namespace Concord.Scan

open Concord.Text

namespace Cursor

/-- What is wrong with the rest of a text, if anything. -/
def imbalance? (frames : List Frame) (c : Cursor) : Option Imbalance :=
  match _read : c.step frames with
  | .ended => none
  | .failed imbalance => some imbalance
  | .moved frames next => imbalance? frames next
  termination_by c.rest.length
  decreasing_by exact step_length_lt _read

section

variable {frames later : List Frame} {c next : Cursor} {imbalance : Imbalance}

theorem imbalance?_of_ended (ended : c.step frames = .ended) : c.imbalance? frames = none := by
  rw [imbalance?]
  split <;> simp_all

theorem imbalance?_of_failed (failed : c.step frames = .failed imbalance) :
    c.imbalance? frames = some imbalance := by
  rw [imbalance?]
  split <;> simp_all

theorem imbalance?_of_moved (moved : c.step frames = .moved later next) :
    c.imbalance? frames = next.imbalance? later := by
  rw [imbalance?]
  split <;> simp_all

end

/-- What is wrong with a text that was read to depth 0, or could not be. -/
def verdict : Except Halt Cursor → Option Imbalance
  | .ok next => next.imbalance? []
  | .error halt => some halt.imbalance

/-- Closing what is open takes one step and goes on, or fails with the step. -/
theorem close_cons (top : Frame) (below : List Frame) (c : Cursor) :
    (∃ later next, c.step (top :: below) = .moved later next ∧
      close (top :: below) c = close later next) ∨
    ∃ halt, c.step (top :: below) = .failed halt.imbalance ∧
      close (top :: below) c = .error halt := by
  -- the cases of `close` are those of a step, one for one
  generalize whole : top :: below = frames
  fun_cases close frames c with
  | case1 => cases whole
  | case2 bracket line frames c read =>
    exact Or.inr ⟨_, by simp [step, stepCode, stepEnd, read], rfl⟩
  | case3 bracket line frames c next read =>
    exact Or.inr ⟨_, by simp [step, stepCode, read], rfl⟩
  | case4 bracket line frames c inner next read =>
    exact Or.inl ⟨_, _, by simp [step, stepCode, read], rfl⟩
  | case5 line frames c bracket next read =>
    exact Or.inl ⟨_, _, by simp [step, stepCode, stepCloser, read], rfl⟩
  | case6 bracket line frames c other next read differ =>
    exact Or.inr ⟨_, by simp [step, stepCode, stepCloser, read, differ], rfl⟩
  | case7 bracket line frames c next read =>
    exact Or.inl ⟨_, _, by simp [step, stepCode, read], rfl⟩
  | case8 bracket line frames c kind next noComment noOpener noCloser noQuote read =>
    refine Or.inl ⟨_, next, ?_, rfl⟩
    cases kind <;> simp_all [step, stepCode]
  | case9 line frames c text =>
    exact Or.inr ⟨_, by simp [step, stepTemplate, text], rfl⟩
  | case10 line frames c x rest text =>
    exact Or.inl ⟨_, _, by simp [step, stepTemplate, text], rfl⟩
  | case11 line frames c rest text =>
    exact Or.inl ⟨_, _, by simp [step, stepTemplate, text], rfl⟩
  | case12 line frames c rest _ _ text =>
    exact Or.inl ⟨_, _, by simp [step, stepTemplate, text], rfl⟩
  | case13 line frames c x rest _ _ text other =>
    refine Or.inl ⟨_, _, ?_, rfl⟩
    simp only [step, stepTemplate, text]
    split <;> simp_all

/-- Closing what is open reads on to depth 0. -/
theorem imbalance?_close (frames : List Frame) (c : Cursor) :
    c.imbalance? frames = verdict (close frames c) := by
  cases frames with
  | nil =>
    rw [close]
    rfl
  | cons top below =>
    rcases close_cons top below c with ⟨later, next, moved, closed⟩ | ⟨halt, failed, closed⟩
    · have := step_length_lt moved
      rw [imbalance?_of_moved moved, closed]
      exact imbalance?_close later next
    · rw [imbalance?_of_failed failed, closed, verdict]
  termination_by c.rest.length

theorem imbalance?_of_atEnd {c : Cursor} (text : c.rest = []) : c.imbalance? [] = none :=
  imbalance?_of_ended (by simp [step, stepCode, stepEnd, lexeme?_eq_none_iff.mpr text])

/-- Trivia leave the frames alone. -/
theorem imbalance?_skipTrivia (c : Cursor) : c.imbalance? [] = verdict c.skipTrivia := by
  fun_induction skipTrivia c with
  | case1 c next read ih | case2 c next read ih =>
    rw [← ih]
    exact imbalance?_of_moved (by simp [step, stepCode, read])
  | case3 c next read => exact imbalance?_of_failed (by simp [step, stepCode, read])
  | case4 => rfl

/-- A token is a run of steps from depth 0 to depth 0. -/
theorem imbalance?_skipToken (c : Cursor) : c.imbalance? [] = verdict c.skipToken := by
  fun_cases skipToken c with
  | case1 => rfl
  | case2 => exact imbalance?_skipTrivia c
  | case3 next read => exact imbalance?_of_failed (by simp [step, stepCode, read])
  -- a group or a template is closed before the token ends
  | case4 bracket next read =>
    rw [← imbalance?_close]
    exact imbalance?_of_moved (by simp [step, stepCode, read])
  | case5 next read =>
    rw [← imbalance?_close]
    exact imbalance?_of_moved (by simp [step, stepCode, read])
  | case6 bracket next read =>
    exact imbalance?_of_failed (by simp [step, stepCode, stepCloser, read])
  | case7 kind next _ _ _ _ _ read =>
    refine imbalance?_of_moved ?_
    cases kind <;> simp_all [step, stepCode]

/-- The scan over tokens fails exactly where the steps fail. -/
theorem imbalance?_scan (c : Cursor) : c.scan.stop.imbalance? = c.imbalance? [] := by
  fun_induction scan c with
  | case1 c halt trivia => rw [imbalance?_skipTrivia, trivia, Stop.imbalance?, verdict]
  | case2 c here trivia read =>
    rw [imbalance?_skipTrivia, trivia, Stop.imbalance?, verdict, imbalance?_of_atEnd read]
  | case3 c here trivia unread halt token =>
    rw [imbalance?_skipTrivia, trivia, Stop.imbalance?, verdict, imbalance?_skipToken, token,
      verdict]
  | case4 c here trivia unread next token later ih =>
    rw [imbalance?_skipTrivia, trivia, verdict, imbalance?_skipToken, token, verdict]
    exact ih

end Cursor

theorem scan_imbalance? (text : List Char) :
    (scan text).stop.imbalance? = (Cursor.start text).imbalance? [] :=
  Cursor.imbalance?_scan _

end Concord.Scan
