import Concord.Script.Lexer
import Concord.Script.Outline

/-!
The frame of the parser. A parser runs on the token that is looked at and the text behind it, and
either fails or goes on; a script that parsed with a fault is no better than one that failed, but a
fault does not make a trial reading fail. Rules name the constructs inside them by `Goal` and get
their parser handed down, so no rule calls itself and the recursion is tied once, over the depth.
-/
namespace Concord.Script

/-- What the place of a construct allows in it. -/
structure Context where
  /-- `in` is an operator. -/
  inOperator : Bool := true
  yields : Bool := false
  awaits : Bool := true
  returns : Bool := false
  /-- Inside a decorator, where a bracket starts the key of the member behind it. -/
  decorator : Bool := false
  /-- Declarations only: nothing has a body or needs a value. -/
  ambient : Bool := false
  conditionalTypes : Bool := true
  deriving DecidableEq, Repr

structure State where
  token : Token
  rest : List Char
  /-- More than there are tokens in the text, so no list in it is as long. -/
  bound : Nat
  context : Context := {}
  faulty : Bool := false
  /-- Places, told by the length of the text from them on, where no arrow function starts. -/
  notArrows : List Nat := []

/-- The constructs that contain each other. -/
inductive Goal where
  | expression
  /-- An expression without commas. `arrowTypes` says that a colon behind the parameters of an arrow
  function is always its return type. -/
  | assignment (arrowTypes : Bool)
  /-- Operands and operators that bind tighter than `level`. -/
  | binary (level : Nat)
  | unary
  /-- A name or literal with members and calls behind it. -/
  | leftHand
  /-- The callee behind `new`. -/
  | construct
  | object
  /-- An element; `inContent` says that it stands in the content of another. -/
  | markup (inContent : Bool)
  | pattern
  | type
  | statement (single : Bool)
  | block
  | classBody
  | typeMembers
  deriving DecidableEq, Repr

/-- A failed step leaves its state behind as well: what was learnt on a trial reading is kept. -/
abbrev Step := EStateM Unit State

abbrev Parser := ReaderT (Goal → Step Node) Step

namespace Parser

/-- Parses a construct inside the present one. -/
def inner (goal : Goal) : Parser Node := fun parse => parse goal

def fail {α : Type} : Parser α := throw ()

def fault : Parser Unit := modify fun s => { s with faulty := true }

/-- Notes a fault if the condition holds. -/
def faultIf (condition : Bool) : Parser Unit := do
  if condition then fault

def token : Parser Token := return (← get).token

def kind : Parser Kind := return (← token).kind

def context : Parser Context := return (← get).context

/-- Goes on to the next token. -/
def advance : Parser Unit := modify fun s =>
  let (token, rest) := lex s.rest
  { s with token, rest }

/-- Reads the present token again as `kind`, with `rest` behind it. -/
def reread (kind : Kind) (rest : List Char) : Parser Unit := modify fun s =>
  { s with token := { s.token with kind }, rest }

/-- Runs a parser and goes back to where it started if it fails. -/
def attempt {α : Type} (p : Parser α) : Parser (Option α) := fun parse s =>
  match p parse s with
  | .ok a s => .ok (some a) s
  | .error _ failed => .ok none { s with notArrows := failed.notArrows }

/-- Runs a parser and goes back to where it started. -/
def lookAhead {α : Type} (p : Parser α) : Parser (Option α) := fun parse s =>
  match p parse s with
  | .ok a _ => .ok (some a) s
  | .error _ _ => .ok none s

/-- Whether the condition holds of what follows. -/
def ahead (p : Parser Bool) : Parser Bool := return (← lookAhead p).getD false

/-- Runs a parser in a changed context. -/
def within {α : Type} (change : Context → Context) (p : Parser α) : Parser α := do
  let outer ← context
  modify fun s => { s with context := change s.context }
  let a ← p
  modify fun s => { s with context := outer }
  return a

/-- Runs a parser inside brackets, which shut off what holds around them. -/
def bracketed {α : Type} (p : Parser α) : Parser α :=
  within (fun c => { c with inOperator := true, decorator := false }) p

/-! Tokens -/

def isMark (mark : String) : Parser Bool := return (← kind).isMark mark

def isWord (word : String) : Parser Bool := return (← kind).isWord word

def isAnyMark (marks : List String) : Parser Bool := return marks.any (← kind).isMark

def isAnyWord (words : List String) : Parser Bool := return words.any (← kind).isWord

def onNewLine : Parser Bool := return (← token).newline

/-- Steps over a word with a fixed meaning, which must be written without escapes. -/
def keyword : Parser Unit := do
  match ← kind with
  | .word _ escaped => faultIf escaped
  | _ => pure ()
  advance

def eat (mark : String) : Parser Bool := do
  if ← isMark mark then
    advance
    return true
  return false

/-- Steps over one of the marks. -/
def eatAny (marks : List String) : Parser Bool := do
  if ← isAnyMark marks then
    advance
    return true
  return false

def eatWord (word : String) : Parser Bool := do
  if ← isWord word then
    keyword
    return true
  return false

def expect (mark : String) : Parser Unit := do
  unless ← eat mark do fail

def expectWord (word : String) : Parser Unit := do
  unless ← eatWord word do fail

/-- What the token behind the present one is like. -/
def next (test : Token → Bool) : Parser Bool := ahead do
  advance
  return test (← token)

def nextIsMark (mark : String) : Parser Bool := next fun t => t.kind.isMark mark

/-- Whether a statement can end here without a semicolon. -/
def canEnd : Parser Bool := do
  return (← isAnyMark [";", "\x7d"]) || (← kind) = .finish || (← onNewLine)

/-- The end of a statement. -/
def semicolon : Parser Unit := do
  unless ← canEnd do fail
  discard (eat ";")

/-- The name of a property or the like, which may be any word. -/
def anyWord : Parser String := do
  match ← kind with
  | .word text _ =>
    advance
    return text
  | _ => fail

/-- Whether a word is an operator here, and so no name. -/
def isOperatorHere (k : Kind) : Parser Bool := do
  let c ← context
  return k.isWord "await" && c.awaits || k.isWord "yield" && c.yields

/-- A name that is declared. -/
def bindingName : Parser Unit := do
  let k ← kind
  unless k.isBinding do fail
  faultIf (← isOperatorHere k)
  advance

/-- A name that is referred to. -/
def nameReference : Parser Node := do
  match ← kind with
  | .word text _ =>
    bindingName
    return .mk (.name text.toList) []
  | _ => fail

/-! Repetition -/

def repeatUpTo {α : Type} (step : Parser (Option α)) : Nat → Parser (List α)
  | 0 => fail
  | n + 1 => do
    match ← step with
    | none => return []
    | some a => return a :: (← repeatUpTo step n)

/-- Repeats a step until it gives nothing. Every step takes a token, which bounds their number. -/
def many {α : Type} (step : Parser (Option α)) : Parser (List α) := do
  repeatUpTo step (← get).bound

def growUpTo {α : Type} (step : α → Parser (Option α)) : Nat → α → Parser α
  | 0, _ => fail
  | n + 1, a => do
    match ← step a with
    | none => return a
    | some a => growUpTo step n a

/-- Applies a step to its own result until it gives nothing. -/
def grow {α : Type} (step : α → Parser (Option α)) (start : α) : Parser α := do
  growUpTo step (← get).bound start

def listUpTo {α : Type} (close : String) (item : Parser α) : Nat → Parser (List α × Bool)
  | 0 => fail
  | n + 1 => do
    if ← isMark close then return ([], false)
    let a ← item
    unless ← eat "," do return ([a], false)
    if ← isMark close then return ([a], true)
    let (as, trailing) ← listUpTo close item n
    return (a :: as, trailing)

/-- Items between commas up to a closing mark, and whether a comma follows the last one. -/
def items {α : Type} (close : String) (item : Parser α) : Parser (List α × Bool) := do
  listUpTo close item (← get).bound

/-- Items between commas and the closing mark behind them. -/
def list {α : Type} (close : String) (item : Parser α) : Parser (List α × Bool) := do
  let found ← items close item
  expect close
  return found

/-- One item or more between commas. -/
def commaSeparated {α : Type} (item : Parser α) : Parser (List α) := do
  let first ← item
  let more ← many do
    if ← eat "," then return some (← item)
    return none
  return first :: more

/-! Angles -/

/-- Reads a mark that starts with `<` as that one character. -/
def narrowAngle : Parser Unit := do
  if ← isAnyMark ["<<", "<=", "<<="] then reread (.mark "<") ((← token).source.drop 1)

/-- Reads a `>` together with what makes it a longer operator. -/
def widenAngle : Parser Unit := do
  if ← isMark ">" then
    match markOf? angleMarks (← token).source with
    | some (mark, rest) => reread (.mark mark) rest
    | none => pure ()

end Parser

end Concord.Script
