import Concord.Script.Parser.Declarations

/-!
Statements. Where one statement stands alone, such as behind a condition, it may not declare what
only a block can hold.
-/
namespace Concord.Script.Parser

def block : Parser Node := do
  expect "\x7b"
  let items ← many do
    if ← isMark "\x7d" then return none
    return some (← inner (.statement false))
  expect "\x7d"
  return .all items

/-- An expression in the parentheses behind a word. -/
def condition : Parser Node := do
  expect "("
  let node ← bracketed (inner .expression)
  expect ")"
  return node

/-- The statement that another one governs. -/
def governed : Parser Node := inner (.statement true)

/-- An expression as a statement, or a label and the statement behind it. -/
def expressionStatement : Parser Node := do
  let node ← inner .expression
  -- A plain name in front of a colon was a label.
  if node.isName && (← isMark ":") then
    advance
    return ← governed
  semicolon
  return node

def ifStatement : Parser Node := do
  keyword
  let test ← condition
  let yes ← governed
  let no ← if ← eatWord "else" then governed else pure .leaf
  return .all [test, yes, no]

def doStatement : Parser Node := do
  keyword
  let body ← governed
  expectWord "while"
  let test ← condition
  -- What follows may stand on the same line.
  discard (eat ";")
  return .all [body, test]

/-! Loops -/

/-- The rest of a loop with a test and a step, behind what starts it. -/
def countingLoop (start : Node) : Parser Node := do
  expect ";"
  let test ← if ← isMark ";" then pure .leaf else bracketed (inner .expression)
  expect ";"
  let step ← if ← isMark ")" then pure .leaf else bracketed (inner .expression)
  expect ")"
  return .all [start, test, step, ← governed]

/-- The rest of a loop over keys or values. -/
def valuesLoop (target : Node) : Parser Node := do
  let values ←
    if ← eatWord "of" then bracketed (inner (.assignment true))
    else
      expectWord "in"
      bracketed (inner .expression)
  expect ")"
  return .all [target, values, ← governed]

def variableLoop (awaited : Bool) (word : VariableKind) : Parser Node := do
  keyword
  let (node, lacking) ← within (fun c => { c with inOperator := false }) (declarators word)
  if ← isAnyWord ["of", "in"] then
    faultIf ((← isWord "in") && (awaited || word = .using))
    return ← valuesLoop node
  faultIf (lacking && word ≠ .using || awaited)
  countingLoop node

def isUsing : Parser Bool := do
  return (← isWord "using") && (← next fun t => t.kind.isBinding && !t.newline)

def isAwaitUsing : Parser Bool := do
  return (← isWord "await") && (← ahead do
    advance
    if ← onNewLine then return false
    isUsing)

/-- Whether `using` declares what a loop runs over; `using of` names what is assigned to. -/
def isUsingInLoop : Parser Bool := do
  return (← isUsing) && !(← next fun t => t.kind.isWord "of")

def forStatement : Parser Node := do
  keyword
  let awaited ← eatWord "await"
  faultIf (awaited && !(← context).awaits)
  expect "("
  if ← isMark ";" then
    faultIf awaited
    return ← countingLoop .leaf
  if ← isWord "var" then return ← variableLoop awaited .var
  if ← isWord "const" then return ← variableLoop awaited .const
  if (← isWord "let") && (← next fun t =>
      t.kind.isMark "[" || t.kind.isMark "\x7b" || t.kind.isAnyWord && !t.kind.isWord "in") then
    return ← variableLoop awaited .let
  if ← isUsingInLoop then return ← variableLoop awaited .using
  if ← isAwaitUsing then
    keyword
    return ← variableLoop awaited .using
  let startsLet ← isWord "let"
  let asyncOf := (← isWord "async") && (← next fun t => t.kind.isWord "of")
  -- An `in` ends the expression here, so that it can be what is assigned to.
  let start ← within (fun c => { c with inOperator := false }) (inner .expression)
  if ← isAnyWord ["of", "in"] then
    faultIf (awaited && (← isWord "in"))
    faultIf ((startsLet || asyncOf && !awaited) && (← isWord "of"))
    return ← valuesLoop (.mk .loopTarget [start])
  faultIf awaited
  countingLoop start

/-! Leaving -/

/-- `break` and `continue`, to a label on the same line. -/
def jumpStatement : Parser Node := do
  keyword
  unless ← canEnd do
    let k ← kind
    if !k.isBinding || (← isOperatorHere k) then fail
    advance
  semicolon
  return .leaf

def returnStatement : Parser Node := do
  keyword
  faultIf !(← context).returns
  if ← canEnd then
    semicolon
    return .leaf
  let node ← bracketed (inner .expression)
  semicolon
  return node

def throwStatement : Parser Node := do
  keyword
  faultIf (← onNewLine)
  let node ← inner .expression
  semicolon
  return node

def tryStatement : Parser Node := do
  keyword
  let body ← inner .block
  let handled ← eatWord "catch"
  let handler ←
    if handled then
      let caught ←
        if ← eat "(" then
          let target ← inner .pattern
          let type ← typeAnnotated
          expect ")"
          pure (Node.all [target, type])
        else pure .leaf
      pure (Node.all [caught, ← inner .block])
    else pure .leaf
  let finalized ← eatWord "finally"
  faultIf !(handled || finalized)
  let final ← if finalized then inner .block else pure .leaf
  return .all [body, handler, final]

/-! Branches -/

def switchCase : Parser Node := do
  let test ←
    if ← eatWord "default" then pure .leaf
    else
      expectWord "case"
      bracketed (inner .expression)
  expect ":"
  let body ← many do
    if (← isAnyWord ["case", "default"]) || (← isMark "\x7d") then return none
    return some (← inner (.statement false))
  return .all (test :: body)

def switchStatement : Parser Node := do
  keyword
  let subject ← condition
  expect "\x7b"
  let cases ← many do
    if ← isMark "\x7d" then return none
    return some (← switchCase)
  expect "\x7d"
  return .all (subject :: cases)

/-! Words with several meanings -/

/-- Whether an operator follows that makes a word in front of it an operand. -/
def followedByOperator : Parser Bool := next fun t =>
  match t.kind with
  | .mark m =>
    -- The logical operators, which bind the loosest, are not among them.
    m = "=" || assignmentMarks.contains m || (bindingLevel? t.kind).getD 0 > 3
  | .word w _ => w = "in" || w = "instanceof"
  | _ => false

/-- A statement that starts with `let`, which is a name in front of an operator, a member or a
call, and where it cannot declare anything. -/
def letStatement (single : Bool) : Parser Node := do
  let operand ←
    if ← followedByOperator then some <$> inner (.assignment true)
    else if ← next fun t => [".", "?.", "("].any t.kind.isMark then some <$> inner .expression
    else if ← next fun t => t.kind.isMark ";" || single && !t.kind.isMark "[" then
      some <$> nameReference
    else pure none
  match operand with
  | some node =>
    semicolon
    return node
  | none =>
    keyword
    faultIf single
    variableStatement .let

def constStatement (single : Bool) : Parser Node := do
  keyword
  if ← isWord "enum" then return ← enumRule
  faultIf single
  variableStatement .const

def functionStatement (single async : Bool) : Parser Node := do
  if async then keyword
  faultIf (single && (async || (← nextIsMark "*")))
  functionDeclaration async true

/-- Words that may start a declaration and are names otherwise. -/
def declarationWords : List String :=
  ["interface", "type", "module", "namespace", "declare", "enum", "private", "protected", "public",
    "abstract", "accessor", "async", "static", "readonly", "global"]

end Concord.Script.Parser
