import Concord.Scan.Reading

/-!
How far a type or an initializer reaches. A type ends at the `=`, `,` or `;` outside its angle
brackets. An initializer ends at `,` or `;`, or at a line break across which it cannot go on. Both
also end in front of a closer, which then belongs to something around them.
-/
namespace Concord.Export

open Concord.Scan Concord.Text

/-- Marks that keep an expression open at the end of a line. -/
def trailing : List Char :=
  "=+-*/%&|^!?:,.<>([\x7b~".toList

/-- Marks that continue an expression at the start of a line. -/
def leading : List Char :=
  ".?:+-*/%&|^=<>([\x60".toList

/-- An expression that ends in `last` goes on across a line break to `next`. -/
def continues (last next : Char) (word : Option (List Char)) : Bool :=
  trailing.contains last || leading.contains next
    || ["as", "satisfies", "instanceof", "in"].any fun keyword => word = some keyword.toList

/-- The last character of a text, where every word character counts as one letter. -/
def ending (text : List Char) : Char :=
  let last := text.getLastD ' '
  if isWordPart last then 'a' else last

namespace Reader

/-! Types -/

/-- A token inside a type. The arrow `=>` is one token and closes no angle bracket. -/
inductive TypeToken where
  | opened
  | closed
  | other
  deriving DecidableEq, Repr

def typeToken (c : Cursor) : Except Imbalance (TypeToken × Cursor) :=
  match c.eat? '<' with
  | some next => .ok (.opened, next)
  | none =>
    match c.eat? '>' with
    | some next => .ok (.closed, next)
    | none =>
      match c.eatArrow? with
      | some next => .ok (.other, next)
      | none => c.pastToken.map fun next => (.other, next)

/-- A type outside angle brackets ends here. -/
def endsType (c : Cursor) : Bool :=
  match c.peek? with
  | none => true
  | some x =>
    x = ';' || x = ',' || (Bracket.ofCloser? x).isSome || x = '=' && c.eatArrow?.isNone

theorem typeToken_moves {c next : Cursor} {kind : TypeToken}
    (read : typeToken c = .ok (kind, next)) :
    Reaches c next ∧ (c.atEnd = false → next.rest.length < c.rest.length) := by
  simp only [typeToken] at read
  split at read
  next eaten =>
    cases read
    exact ⟨Cursor.eat?_reaches eaten, fun _ => Cursor.eat?_length_lt eaten⟩
  · split at read
    next eaten =>
      cases read
      exact ⟨Cursor.eat?_reaches eaten, fun _ => Cursor.eat?_length_lt eaten⟩
    · split at read
      next eaten =>
        cases read
        obtain ⟨middle, first, second⟩ := Option.bind_eq_some_iff.mp eaten
        exact ⟨(Cursor.eat?_reaches first).trans (Cursor.eat?_reaches second),
          fun _ => Nat.lt_trans (Cursor.eat?_length_lt second) (Cursor.eat?_length_lt first)⟩
      · obtain ⟨later, passed, same⟩ := map_eq_ok.mp read
        cases same
        exact ⟨Cursor.pastToken_reaches passed,
          fun unread => Cursor.pastToken_length_lt unread passed⟩

/-- Steps over a type with `angle` angle brackets open. -/
def skipType (angle : Nat) (c : Cursor) : Except Imbalance Cursor :=
  match _trivia : c.pastTrivia with
  | .error imbalance => .error imbalance
  | .ok here =>
    if _ended : here.atEnd || angle = 0 && endsType here then .ok here
    else
      match _token : typeToken here with
      | .error imbalance => .error imbalance
      | .ok (.opened, next) => skipType (angle + 1) next
      | .ok (.closed, next) => skipType (angle - 1) next
      | .ok (.other, next) => skipType angle next
  termination_by c.rest.length
  decreasing_by
    all_goals
      simp only [Bool.or_eq_true, not_or, Bool.not_eq_true] at _ended
      exact Nat.lt_of_lt_of_le ((typeToken_moves _token).2 _ended.1)
        (Cursor.pastTrivia_reaches _trivia).length_le

/-- Steps over a list of type parameters in angle brackets, through the `>` that closes it. -/
def skipTypeParameters (angle : Nat) (c : Cursor) : Except Imbalance Cursor :=
  match _trivia : c.pastTrivia with
  | .error imbalance => .error imbalance
  | .ok here =>
    if _ended : here.atEnd then .ok here
    else
      match _token : typeToken here with
      | .error imbalance => .error imbalance
      | .ok (.opened, next) => skipTypeParameters (angle + 1) next
      | .ok (.closed, next) => if angle ≤ 1 then .ok next else skipTypeParameters (angle - 1) next
      | .ok (.other, next) => skipTypeParameters angle next
  termination_by c.rest.length
  decreasing_by
    all_goals
      exact Nat.lt_of_lt_of_le ((typeToken_moves _token).2 (by simpa using _ended))
        (Cursor.pastTrivia_reaches _trivia).length_le

theorem skipType_reaches {angle : Nat} {c later : Cursor} (skipped : skipType angle c = .ok later) :
    Reaches c later := by
  fun_induction skipType angle c with
  | case1 | case3 => cases skipped
  | case2 angle c here trivia =>
    cases skipped
    exact Cursor.pastTrivia_reaches trivia
  | case4 angle c here trivia _ next token ih | case5 angle c here trivia _ next token ih
  | case6 angle c here trivia _ next token ih =>
    exact ((Cursor.pastTrivia_reaches trivia).trans (typeToken_moves token).1).trans (ih skipped)

theorem skipTypeParameters_reaches {angle : Nat} {c later : Cursor}
    (skipped : skipTypeParameters angle c = .ok later) : Reaches c later := by
  fun_induction skipTypeParameters angle c with
  | case1 | case3 => cases skipped
  | case2 angle c here trivia =>
    cases skipped
    exact Cursor.pastTrivia_reaches trivia
  | case4 angle c here trivia _ next token ih | case6 angle c here trivia _ next token _ ih
  | case7 angle c here trivia _ next token ih =>
    exact ((Cursor.pastTrivia_reaches trivia).trans (typeToken_moves token).1).trans (ih skipped)
  | case5 angle c here trivia _ next token =>
    cases skipped
    exact (Cursor.pastTrivia_reaches trivia).trans (typeToken_moves token).1

/-- Steps over type parameters and the trivia behind them, if there are any. -/
def pastTypeParameters (c : Cursor) : Except Imbalance Cursor :=
  if c.peek? = some '<' then do (← skipTypeParameters 0 c).pastTrivia else .ok c

/-! Initializers -/

/-- Reads an expression that began at `start` on from `c`, where it has come to `last`. -/
def expressionFrom (start : Cursor) (last : Char) (c : Cursor) :
    Except Imbalance (List Char × Cursor) :=
  match _trivia : c.pastTrivia with
  | .error imbalance => .error imbalance
  | .ok here =>
    match _next : here.peek? with
    | none => .ok (trim (start.upTo c), here)
    | some next =>
      if next = ',' || next = ';' || (Bracket.ofCloser? next).isSome then
        .ok (trim (start.upTo c), c)
      else if here.line ≠ c.line && !continues last next (here.word?.map Prod.fst) then
        .ok (trim (start.upTo c), c)
      else
        match _token : here.pastToken with
        | .error imbalance => .error imbalance
        | .ok after => expressionFrom start (ending (start.upTo after)) after
  termination_by c.rest.length
  decreasing_by
    exact Nat.lt_of_lt_of_le (Cursor.pastToken_length_lt (Cursor.atEnd_of_peek? _next) _token)
      (Cursor.pastTrivia_reaches _trivia).length_le

theorem expressionFrom_reaches {start c later : Cursor} {last : Char} {text : List Char}
    (read : expressionFrom start last c = .ok (text, later)) : Reaches c later := by
  fun_induction expressionFrom start last c with
  | case1 | case5 => cases read
  | case2 last c here trivia =>
    cases read
    exact Cursor.pastTrivia_reaches trivia
  | case3 | case4 =>
    cases read
    exact .refl _
  | case6 last c here trivia next _ _ _ after token ih =>
    exact ((Cursor.pastTrivia_reaches trivia).trans (Cursor.pastToken_reaches token)).trans
      (ih read)

/-- The expression behind an `=`. -/
def initializer (c : Cursor) : Except Imbalance (List Char × Cursor) := do
  let start ← c.pastTrivia
  expressionFrom start '=' start

/-! Function expressions -/

/-- An arrow behind parameters, with or without a return type in front of it. -/
def parametersArrow (c : Cursor) : Except Imbalance Bool := do
  let c ← pastTypeParameters c
  if c.peek? = some '(' then
    let behind ← (← c.pastGroup).pastTrivia
    match behind.eat? ':' with
    | some typed => return (← typed.skipTo fun c => c.eatArrow?.isSome).eatArrow?.isSome
    | none => return behind.eatArrow?.isSome
  else return false

/-- An arrow with one name, or one with parameters. -/
def startsArrow (c : Cursor) : Except Imbalance Bool :=
  match c.word? with
  | some (_, next) => return (← next.pastTrivia).eatArrow?.isSome
  | none => parametersArrow c

/-- The cursor behind `async`, if something that an `async` can belong to follows it. -/
def pastAsync (c : Cursor) : Cursor :=
  match c.word? with
  | some (word, next) =>
    if word = "async".toList then
      match next.pastTrivia with
      | .ok here => if here.atEnd || here.peek? = some '=' then c else here
      | .error _ => c
    else c
  | none => c

end Reader

/-- A function expression: `function`, an arrow with one name, or an arrow with parameters, each
also behind `async`. One that cannot be read is none. -/
def isFunction (expression : List Char) : Bool :=
  match (Cursor.start expression).pastTrivia with
  | .error _ => false
  | .ok here =>
    let body := Reader.pastAsync here
    if body.word?.any fun found => found.1 = "function".toList then true
    else
      match Reader.startsArrow body with
      | .ok yes => yes
      | .error _ => false

end Concord.Export
