import Concord.Scan.Group

/-!
What can be asked of a cursor. Every operation has an answer and leaves a cursor to go on from. One
that is refused leaves the cursor where reading stopped, so operations can be asked one after the
other, whatever became of those before.
-/
namespace Concord.Scan

inductive Operation where
  | skipTrivia
  /-- Skips trivia and tells whether a line break was among them. -/
  | crossLines
  | skipToken
  | skipGroup
  | readWord
  | peekWord
  | eat (mark : Char) (ascii : mark.toNat < 0x80)
  deriving DecidableEq, Repr

inductive Answer where
  | done
  | told (yes : Bool)
  | word (text? : Option (List Char))
  | refused (imbalance : Imbalance)
  deriving DecidableEq, Repr

structure Outcome where
  answer : Answer
  cursor : Cursor
  deriving DecidableEq, Repr

/-- What comes of a skip, with the answer that is given if it succeeds. -/
def Outcome.ofSkip (answer : Cursor → Answer) : Except Halt Cursor → Outcome
  | .ok next => ⟨answer next, next⟩
  | .error halt => ⟨.refused halt.imbalance, halt.cursor⟩

def Operation.on (c : Cursor) : Operation → Outcome
  | skipTrivia => .ofSkip (fun _ => .done) c.skipTrivia
  | crossLines => .ofSkip (fun next => .told (next.line ≠ c.line)) c.skipTrivia
  | skipToken => .ofSkip (fun _ => .done) c.skipToken
  | skipGroup => .ofSkip (fun _ => .done) c.skipGroup
  | readWord =>
    match c.word? with
    | some (word, next) => ⟨.word (some word), next⟩
    | none => ⟨.word none, c⟩
  | peekWord => ⟨.word (c.word?.map Prod.fst), c⟩
  | eat mark _ =>
    match c.eat? mark with
    | some next => ⟨.told true, next⟩
    | none => ⟨.told false, c⟩

/-- The operation steps over a token in front of the end of the text. -/
def Operation.passesToken (c : Cursor) (operation : Operation) : Bool :=
  operation = skipToken && !c.atEnd && (operation.on c).answer = .done

namespace Cursor

/-- The cursor behind a sequence of operations. -/
def after (c : Cursor) : List Operation → Cursor
  | [] => c
  | operation :: rest => (operation.on c).cursor.after rest

/-- How many of the operations step over a token. -/
def tokensPassed (c : Cursor) : List Operation → Nat
  | [] => 0
  | operation :: rest =>
    (if operation.passesToken c then 1 else 0) + (operation.on c).cursor.tokensPassed rest

theorem after_append (c : Cursor) (first more : List Operation) :
    c.after (first ++ more) = (c.after first).after more := by
  induction first generalizing c with
  | nil => rfl
  | cons operation rest ih => exact ih (operation.on c).cursor

end Cursor

end Concord.Scan
