import Concord.Export.Expression
import Concord.Scan.Token

/-!
Types and initializers as lists of depth-0 tokens: how many of the tokens belong to one, told
without moving a cursor. Closers are no tokens, so that a type or an initializer can end in front of
one is for whoever knows how the scan stopped.
-/
namespace Concord.Export

open Concord.Scan Concord.Text

/-- Steps over a type with `angle` angle brackets open: how many are open at the end, and the tokens
from the one that ends it. -/
def skipType (angle : Nat) : List Token → Nat × List Token
  | [] => (angle, [])
  | t :: rest =>
    if t.is '<' then skipType (angle + 1) rest
    else if t.is '>' then skipType (angle - 1) rest
    else if t.is '=' then
      match rest with
      | [] => if angle = 0 then (angle, [t]) else (angle, [])
      | u :: later =>
        if u.isGlued '>' then skipType angle later
        else if angle = 0 then (angle, t :: u :: later)
        else skipType angle (u :: later)
    else if angle = 0 && (t.is ';' || t.is ',') then (angle, t :: rest)
    else skipType angle rest

/-- Steps over a list of type parameters in angle brackets, through the `>` that closes it. -/
def skipTypeParameters (angle : Nat) : List Token → List Token
  | [] => []
  | t :: rest =>
    if t.is '<' then skipTypeParameters (angle + 1) rest
    else if t.is '>' then if angle ≤ 1 then rest else skipTypeParameters (angle - 1) rest
    else if t.is '=' then
      match rest with
      | [] => []
      | u :: later =>
        if u.isGlued '>' then skipTypeParameters angle later
        else skipTypeParameters angle (u :: later)
    else skipTypeParameters angle rest

/-- How a token ends. -/
def lastMark (t : Token) : Char :=
  ending t.text

/-- The tokens of an expression after one that ends in `last`, and the remaining ones. -/
def takeExpression (last : Char) : List Token → List Token × List Token
  | [] => ([], [])
  | t :: rest =>
    if t.is ',' || t.is ';' then ([], t :: rest)
    else if t.freshLine && !continues last t.first t.word? then ([], t :: rest)
    else
      let (taken, later) := takeExpression (lastMark t) rest
      (t :: taken, later)

/-- An initializer and the tokens after it. -/
def takeInitializer : List Token → List Token × List Token
  | [] => ([], [])
  | t :: rest => takeExpression '=' ({ t with lead := [] } :: rest)

/-- The tokens of a function expression: `function`, an arrow with one name, or an arrow with
parameters, each also behind `async`. -/
def isFunctionOf (tokens : List Token) : Bool :=
  match tokens with
  | [] => false
  | t :: rest =>
    let body :=
      match rest with
      | u :: _ => if t.isWord "async" && u.first ≠ '=' then rest else tokens
      | [] => tokens
    opensFunction body
where
  startsArrow : List Token → Bool
    | t :: u :: _ => t.is '=' && u.isGlued '>'
    | _ => false
  returnsArrow : List Token → Bool
    | [] => false
    | t :: rest => startsArrow (t :: rest) || returnsArrow rest
  parametersArrow : List Token → Bool
    | [] => false
    | t :: rest =>
      if t.group? = some .round then
        match rest with
        | [] => false
        | u :: later => if u.is ':' then returnsArrow later else startsArrow (u :: later)
      else false
  opensFunction : List Token → Bool
    | [] => false
    | t :: rest =>
      if t.isWord "function" then true
      else if t.word?.isSome then startsArrow rest
      else if t.is '<' then parametersArrow (skipTypeParameters 0 (t :: rest))
      else parametersArrow (t :: rest)

theorem skipType_length_le (angle : Nat) (tokens : List Token) :
    (skipType angle tokens).2.length ≤ tokens.length := by
  fun_induction skipType angle tokens <;> simp_all <;> omega

theorem skipTypeParameters_length_le (angle : Nat) (tokens : List Token) :
    (skipTypeParameters angle tokens).length ≤ tokens.length := by
  fun_induction skipTypeParameters angle tokens <;> simp_all <;> omega

theorem takeExpression_length_le (last : Char) (tokens : List Token) :
    (takeExpression last tokens).2.length ≤ tokens.length := by
  fun_induction takeExpression last tokens <;> simp_all
  omega

theorem takeInitializer_length_le (tokens : List Token) :
    (takeInitializer tokens).2.length ≤ tokens.length := by
  cases tokens with
  | nil => simp [takeInitializer]
  | cons t rest => exact takeExpression_length_le '=' ({ t with lead := [] } :: rest)

end Concord.Export
