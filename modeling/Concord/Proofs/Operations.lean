import Concord.Proofs.BytewiseReading
import Concord.Proofs.Places
import Concord.Scan.Reading

/-!
Where a cursor can come to. Whatever is asked of it, and whether that succeeds or not, a cursor only
reads on: it steps over some text and counts the bytes and the line breaks of it. So it stands at a
boundary between characters, also where it looks at bytes only, and on the line of its position.
What lies between two of its places is a part of the text, and no more tokens can be passed than the
text has bytes.
-/
namespace Concord.Text

theorem utf8ByteSize_ofList (text : List Char) :
    (String.ofList text).utf8ByteSize = byteSize text := by
  induction text with
  | nil => rfl
  | cons c rest ih => simp [String.ofList_cons, byteSize, ih]

end Concord.Text

namespace Concord.Scan

open Concord.Text

/-- The cursor stands inside the text, at a boundary between characters and on its line. -/
structure Cursor.Sound (text : List Char) (c : Cursor) : Prop where
  within : c.offset ≤ byteSize text
  boundary : (String.Pos.Raw.mk c.offset).IsValid (String.ofList text)
  onLine : c.line = lineAt text c.offset

/-- The text between two places of a cursor. -/
structure Cursor.Spans (text : List Char) (c later : Cursor) : Prop where
  forward : c.offset ≤ later.offset
  slice : ∃ front back, text = front ++ (c.upTo later ++ back) ∧ byteSize front = c.offset ∧
    byteSize (front ++ c.upTo later) = later.offset

namespace Reaches

variable {c later : Cursor} {text : List Char}

theorem offset_le (reached : Reaches c later) : c.offset ≤ later.offset := by
  obtain ⟨passed, -, moved⟩ := reached
  rw [moved]
  exact Nat.le_add_right _ _

/-- Reading on from the start leads to sound places only. -/
theorem sound (reached : Reaches (Cursor.start text) c) : c.Sound text := by
  have stands := (Cursor.StandsIn.start text).reaches reached
  obtain ⟨passed, split, moved⟩ := reached
  have whole : text = passed ++ c.rest := split
  have offset : c.offset = byteSize passed := by
    rw [moved]
    exact Nat.zero_add _
  refine ⟨stands.offset_le, ?_, ?_⟩
  · apply String.Pos.Raw.isValid_iff_exists_append.mpr
    refine ⟨String.ofList passed, String.ofList c.rest, ?_, ?_⟩
    · rw [← String.ofList_append, ← whole]
    · rw [offset, ← utf8ByteSize_ofList]
      rfl
  · rw [offset, whole, lineAt_append, moved, Nat.add_comm]
    rfl

theorem spans (stands : c.StandsIn text) (reached : Reaches c later) : c.Spans text later := by
  refine ⟨reached.offset_le, ?_⟩
  obtain ⟨front, split, place⟩ := stands
  obtain ⟨passed, behind, moved⟩ := reached
  rw [Cursor.upTo_eq behind]
  refine ⟨front, later.rest, ?_, place.symm, ?_⟩
  · rw [split, behind]
  · rw [byteSize_append, ← place, moved]
    rfl

end Reaches

/-! Where a refused operation leaves the cursor -/

namespace Cursor

variable {c : Cursor} {halt : Halt}

/-- What cannot be closed is read up to the place where that shows. -/
theorem close_error_reaches {frames : List Frame} (failed : close frames c = .error halt) :
    Reaches c halt.cursor := by
  -- by the recursion of the closing: each step reads a lexeme or a piece of a template
  fun_induction close frames c with
  | case1 => cases failed
  | case2 | case6 | case9 =>
    cases failed
    exact .refl _
  | case3 bracket line frames c next read =>
    cases failed
    exact .lexeme read
  | case4 bracket line frames c inner next read ih => exact (Reaches.lexeme read).trans (ih failed)
  | case5 line frames c other next read ih => exact (Reaches.lexeme read).trans (ih failed)
  | case7 bracket line frames c next read ih => exact (Reaches.lexeme read).trans (ih failed)
  | case8 bracket line frames c kind next _ _ _ _ read ih =>
    exact (Reaches.lexeme read).trans (ih failed)
  | case10 line frames c x rest text ih =>
    exact (Reaches.advance (by simp [text]) _).trans (ih failed)
  | case11 line frames c rest text ih =>
    exact (Reaches.advance (by simp [text]) _).trans (ih failed)
  | case12 line frames c rest _ _ text ih =>
    exact (Reaches.advance (by simp [text]) _).trans (ih failed)
  | case13 line frames c x rest _ _ text _ ih =>
    exact (Reaches.advance (by simp [text]) _).trans (ih failed)

theorem skipTrivia_error_reaches (failed : c.skipTrivia = .error halt) :
    Reaches c halt.cursor := by
  fun_induction skipTrivia c with
  | case1 c next read ih | case2 c next read ih => exact (Reaches.lexeme read).trans (ih failed)
  | case3 c next read =>
    cases failed
    exact .lexeme read
  | case4 => cases failed

theorem skipToken_error_reaches (failed : c.skipToken = .error halt) :
    Reaches c halt.cursor := by
  simp only [skipToken] at failed
  split at failed
  · cases failed
  · exact skipTrivia_error_reaches failed
  next next read =>
    cases failed
    exact .lexeme read
  next bracket next read => exact (Reaches.lexeme read).trans (close_error_reaches failed)
  next next read => exact (Reaches.lexeme read).trans (close_error_reaches failed)
  · cases failed
    exact .refl c
  · cases failed

theorem skipGroup_error_reaches (failed : c.skipGroup = .error halt) :
    Reaches c halt.cursor := by
  simp only [skipGroup] at failed
  split at failed
  next bracket next read => exact (Reaches.lexeme read).trans (close_error_reaches failed)
  · cases failed
    exact .refl c

end Cursor

theorem Outcome.ofSkip_reaches {c : Cursor} {result : Except Halt Cursor}
    (answer : Cursor → Answer) (skips : ∀ next, result = .ok next → Reaches c next)
    (fails : ∀ halt, result = .error halt → Reaches c halt.cursor) :
    Reaches c (ofSkip answer result).cursor := by
  cases result with
  | ok next => exact skips next rfl
  | error halt => exact fails halt rfl

/-- Whatever is asked of a cursor, it reads on. -/
theorem Operation.on_reaches (operation : Operation) (c : Cursor) :
    Reaches c (operation.on c).cursor := by
  -- each operation moves by one reader, and readers only read on, whether they succeed or fail
  cases operation with
  | skipTrivia | crossLines =>
    apply Outcome.ofSkip_reaches
    · exact fun next => Cursor.skipTrivia_reaches
    · exact fun halt => Cursor.skipTrivia_error_reaches
  | skipToken =>
    apply Outcome.ofSkip_reaches
    · exact fun next => Cursor.skipToken_reaches
    · exact fun halt => Cursor.skipToken_error_reaches
  | skipGroup =>
    apply Outcome.ofSkip_reaches
    · exact fun next => Cursor.skipGroup_reaches
    · exact fun halt => Cursor.skipGroup_error_reaches
  | readWord =>
    rw [on]
    cases read : c.word? with
    | none => exact .refl c
    | some found => exact Cursor.word?_reaches read
  | peekWord => exact .refl c
  | eat mark =>
    rw [on]
    cases eaten : c.eat? mark with
    | none => exact .refl c
    | some next => exact Cursor.eat?_reaches eaten

/-- By induction over the operations: each goes on from where the one before it stopped. -/
theorem Cursor.after_reaches (c : Cursor) (operations : List Operation) :
    Reaches c (c.after operations) := by
  induction operations generalizing c with
  | nil => exact .refl c
  | cons operation rest ih => exact (operation.on_reaches c).trans (ih (operation.on c).cursor)

/-! Progress -/

/-- A token in front of the end takes at least one byte. -/
theorem Operation.offset_lt_of_passesToken {c : Cursor} {operation : Operation}
    (passes : operation.passesToken c = true) : c.offset < (operation.on c).cursor.offset := by
  rw [passesToken, Bool.and_eq_true, Bool.and_eq_true, decide_eq_true_eq, decide_eq_true_eq]
    at passes
  obtain ⟨⟨rfl, unread⟩, answered⟩ := passes
  rw [on] at answered ⊢
  -- a refused operation has passed no token
  cases skipped : c.skipToken with
  | error halt =>
    rw [skipped] at answered
    cases answered
  | ok next =>
    have text : c.rest ≠ [] := by simpa [Cursor.atEnd] using unread
    have shorter := Cursor.skipToken_length_lt text skipped
    obtain ⟨passed, split, moved⟩ := Cursor.skipToken_reaches skipped
    have some : passed ≠ [] := by
      rintro rfl
      rw [split] at shorter
      exact absurd shorter (Nat.lt_irrefl _)
    have size := byteSize_pos some
    show c.offset < next.offset
    rw [moved]
    exact Nat.lt_add_of_pos_right size

theorem Cursor.tokensPassed_le (c : Cursor) (operations : List Operation) :
    c.offset + c.tokensPassed operations ≤ (c.after operations).offset := by
  induction operations generalizing c with
  | nil => exact Nat.le_refl _
  | cons operation rest ih =>
    have later := ih (operation.on c).cursor
    rw [tokensPassed, after]
    split
    next passes =>
      have moved := operation.offset_lt_of_passesToken passes
      omega
    next =>
      have moved := (operation.on_reaches c).offset_le
      omega

/-- After any operations, refused ones among them, a cursor is sound. Read byte by byte, the same
operations stop at the same place. A cursor never goes back, and what lies between two of its places
is a part of the text. A token that is passed takes it forward, so there are no more of these than
the text has bytes. -/
theorem Cursor.after_sound (text : List Char) (operations more : List Operation) :
    let here := (Cursor.start text).after operations
    here.Sound text ∧ here.Bytewise ((Cursor.start (latin text)).after operations) ∧
      here.Spans text ((Cursor.start text).after (operations ++ more)) ∧
      (here.atEnd = false → (Operation.skipToken.on here).answer = .done →
        here.offset < (Operation.skipToken.on here).cursor.offset) ∧
      (Cursor.start text).tokensPassed operations ≤ byteSize text := by
  intro here
  -- everything follows from this: whatever was asked, the cursor has only read on from the start
  have reached : Reaches (Cursor.start text) here := after_reaches _ operations
  refine ⟨reached.sound, (Bytewise.start text).after operations, ?_, ?_, ?_⟩
  · rw [after_append]
    exact Reaches.spans ((StandsIn.start text).reaches reached) (after_reaches here more)
  · intro unread answered
    apply Operation.offset_lt_of_passesToken
    simp [Operation.passesToken, unread, answered]
  · have passed := tokensPassed_le (Cursor.start text) operations
    have start : (Cursor.start text).offset = 0 := rfl
    have within : ((Cursor.start text).after operations).offset ≤ byteSize text :=
      reached.sound.within
    omega

/-- A group with a wrong closer, and a string that escapes two bytes. -/
def wrongGroup : List Char :=
  "(é] '\\é'".toList

/-- A refused token leaves the cursor at the wrong closer, and reading goes on from there. -/
theorem Cursor.after_sound_refused :
    let here : Cursor := ⟨"'\\é'".toList, 5, 1, false⟩
    (Operation.skipToken.on (Cursor.start wrongGroup)).answer =
        .refused ⟨1, .wrongCloser .square .round 1⟩ ∧
      (Cursor.start wrongGroup).after [.skipToken, .eat ']' (by decide), .skipTrivia] = here ∧
      here.Sound wrongGroup ∧ here.Spans wrongGroup ⟨[], 10, 1, false⟩ ∧
      here.atEnd = false ∧ (Operation.skipToken.on here).answer = .done ∧
      here.offset < (Operation.skipToken.on here).cursor.offset := by
  intro here
  have refused : (Operation.skipToken.on (Cursor.start wrongGroup)).answer =
      .refused ⟨1, .wrongCloser .square .round 1⟩ := by decide +kernel
  have come : (Cursor.start wrongGroup).after
      [.skipToken, .eat ']' (by decide), .skipTrivia] = here := by decide +kernel
  have behind : (Cursor.start wrongGroup).after
      ([.skipToken, .eat ']' (by decide), .skipTrivia] ++ [.skipToken]) = ⟨[], 10, 1, false⟩ := by
    decide +kernel
  have answered : (Operation.skipToken.on here).answer = .done := by decide +kernel
  obtain ⟨sound, -, spans, forward, -⟩ := after_sound wrongGroup
    [.skipToken, .eat ']' (by decide), .skipTrivia] [.skipToken]
  rw [come] at sound spans forward
  rw [behind] at spans
  exact ⟨refused, come, sound, spans, rfl, answered, forward rfl answered⟩

end Concord.Scan
