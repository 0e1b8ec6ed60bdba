import Concord.Script.Parser.Functions

/-!
Expressions. What is assigned to is read as an expression and judged on the outline afterwards.
-/
namespace Concord.Script.Parser

/-! Literals -/

/-- A regular expression, read again from its slash. -/
def patternLiteral : Parser Node := do
  match pattern? ((← token).source.drop 1) with
  | some rest =>
    reread .content rest
    advance
    return .leaf
  | none => fail

def spreadItem : Parser Node := do
  expect "..."
  return .mk .spread [← inner (.assignment true)]

def arrayLiteral : Parser Node := do
  expect "["
  let (items, trailing) ← bracketed <| list "]" do
    if ← isMark "," then return .mk .hole []
    if ← isMark "..." then return ← spreadItem
    inner (.assignment true)
  return .mk (.array trailing) items

/-- A method, an accessor, a pair or a name of an object. -/
def objectItem : Parser Node := do
  if ← isMark "..." then return ← spreadItem
  let async := (← isWord "async") && (← next fun t => followsModifier t && !t.newline)
  if async then keyword
  if ← startsAccessor then
    let setter ← isWord "set"
    faultIf async
    keyword
    let key ← propertyKey
    let (value, s) ← functionRest { bodyRequired := true }
    faultIf (accessorFault setter s.parameters)
    return .mk (.method key.text) [key.node, value]
  let generator ← eat "*"
  -- Only a key that is a word can stand without a value, so the token is kept.
  let name ← kind
  let key ← propertyKey
  if generator || (← isAnyMark ["(", "<"]) then
    let (value, _) ← functionRest { async, generator, bodyRequired := true }
    return .mk (.method key.text) [key.node, value]
  faultIf async
  if ← eat ":" then
    return .mk (.property key.text) [key.node, ← inner (.assignment true)]
  match name with
  | .word text _ =>
    unless name.isBinding do fail
    faultIf (← isOperatorHere name)
    if ← eat "=" then return .mk (.defaulted text.toList) [← inner (.assignment true)]
    return .mk (.shorthand text.toList) []
  | _ => fail

def objectLiteral : Parser Node := do
  expect "\x7b"
  let (items, trailing) ← bracketed (list "\x7d" objectItem)
  return .mk (.object trailing) items

def parenthesized : Parser Node := do
  expect "("
  let (items, trailing) ← bracketed (list ")" (inner (.assignment true)))
  faultIf trailing
  match items with
  | [] => fail
  | [item] => return .mk .parens [item]
  | items => return .mk .parens [.mk .sequence items]

/-! Members and calls -/

def arguments : Parser Node := do
  expect "("
  let (items, _) ← bracketed <| list ")" do
    if ← isMark "..." then spreadItem else inner (.assignment true)
  return .all items

/-- How tight an operator between two operands binds. -/
def bindingLevel? : Kind → Option Nat
  | .mark m =>
    match m with
    | "??" => some 1
    | "||" => some 2
    | "&&" => some 3
    | "|" => some 4
    | "^" => some 5
    | "&" => some 6
    | "==" | "!=" | "===" | "!==" => some 7
    | "<" | ">" | "<=" | ">=" => some 8
    | "<<" | ">>" | ">>>" => some 9
    | "+" | "-" => some 10
    | "*" | "/" | "%" => some 11
    | "**" => some 12
    | _ => none
  | .word w _ => if ["in", "instanceof", "as", "satisfies"].contains w then some 8 else none
  | _ => none

def isBinaryOperator : Parser Bool := do
  let k ← kind
  return (bindingLevel? k).isSome && ((← context).inOperator || !k.isWord "in")

/-- Whether an expression can start with the token. -/
def startsExpression : Parser Bool := do
  let k ← kind
  match k with
  | .word _ _ =>
    return k.isBinding || ["this", "super", "null", "true", "false", "function", "class", "new",
      "delete", "typeof", "void", "import", "in", "instanceof"].any k.isWord
  | .mark m =>
    return ["(", "[", "\x7b", "+", "-", "~", "!", "++", "--", "@", "/="].contains m ||
      (← isBinaryOperator)
  | .finish | .invalid | .content => return false
  | _ => return true

/-- Whether angles behind an expression that could be comparisons are type arguments, judged by what
follows them. -/
def followsTypeArguments : Parser Bool := do
  let k ← kind
  match k with
  | .template _ _ => return true
  | .mark "(" => return true
  | _ =>
    -- These make sense behind a comparison as well, and are taken for that.
    if ["<", ">", "+", "-"].any k.isMark then return false
    return (← onNewLine) || (← isBinaryOperator) || !(← startsExpression)

/-- Type arguments behind an expression. -/
def typeArgumentsInExpression : Parser Node := do
  narrowAngle
  expect "<"
  if ← isMark ">" then fail
  let (types, _) ← items ">" (inner .type)
  -- Behind `a < b >= c` there are no type arguments, so the last angle is read with what follows.
  widenAngle
  expect ">"
  unless ← followsTypeArguments do fail
  return .all types

/-- The member behind a dot. -/
def dotMember (object : Node) : Parser Node := do
  let t ← token
  match t.kind with
  | .word text _ =>
    advance
    return .mk (.member text.toList (Text.byteSize t.source)) [object]
  | .privateName _ =>
    advance
    return .mk .element [object]
  | _ => fail

def bracketMember (object : Node) : Parser Node := do
  expect "["
  let index ← bracketed (inner .expression)
  expect "]"
  return .mk .element [object, index]

/-- What `?.` goes on with: a member, an element or a call. -/
def optionalMember (object : Node) : Parser Node := do
  expect "?."
  if ← isMark "[" then return ← bracketMember object
  if ← isMark "(" then return .all [object, ← arguments]
  if ← isAnyMark ["<", "<<"] then
    let types ← typeArgumentsInExpression
    return .all [object, types, ← arguments]
  dotMember object

/-- One more step of a chain of members and calls, and whether a `?.` occurred in it. A callee
behind `new` takes no calls. -/
def memberStep (calls : Bool) (chain : Node × Bool) : Parser (Option (Node × Bool)) := do
  let (object, optional) := chain
  match ← kind with
  | .mark "." =>
    advance
    return some (← dotMember object, optional)
  | .mark "?." =>
    unless calls do return none
    return some (← optionalMember object, true)
  | .mark "[" =>
    if (← context).decorator then return none
    return some (← bracketMember object, optional)
  | .mark "(" =>
    unless calls do return none
    return some (.all [object, ← arguments], optional)
  | .template _ _ =>
    faultIf optional
    return some (.all [object, ← template true (inner .expression)], optional)
  | .mark "!" =>
    if ← onNewLine then return none
    advance
    return some (.mk .assertion [object], optional)
  | .mark "<" | .mark "<<" =>
    match ← attempt typeArgumentsInExpression with
    | none => return none
    | some types => return some (.mk .applied [object, types], optional)
  | _ => return none

/-- `import.meta`, or an import as a call. -/
def importExpression : Parser Node := do
  expectWord "import"
  if ← eat "." then
    if ← eatWord "meta" then return .leaf
    unless ← isAnyWord ["defer", "source"] do fail
    keyword
  expect "("
  let source ← bracketed (inner (.assignment true))
  let options ←
    if (← eat ",") && !(← isMark ")") then
      let options ← bracketed (inner (.assignment true))
      discard (eat ",")
      pure options
    else pure .leaf
  expect ")"
  return .all [source, options]

def newExpression : Parser Node := do
  expectWord "new"
  if ← eat "." then
    expectWord "target"
    return .leaf
  faultIf ((← isWord "import") && (← nextIsMark "("))
  let callee ← inner .construct
  if ← isMark "(" then return .all [callee, ← arguments]
  -- `new a?.b()` would have no clear callee.
  faultIf (← isMark "?.")
  return .all [callee]

def superExpression : Parser Node := do
  expectWord "super"
  faultIf !(← isAnyMark [".", "[", "("])
  return .leaf

def primary : Parser Node := do
  match ← kind with
  | .number | .string _ =>
    advance
    return .leaf
  | .template _ _ => template false (inner .expression)
  | .mark "/" | .mark "/=" => patternLiteral
  | .mark "[" => arrayLiteral
  | .mark "\x7b" => inner .object
  | .mark "(" => parenthesized
  | .mark "@" =>
    let marks ← decorators
    classModifiers
    return .all (marks ++ [← classRule])
  | .word "function" _ => functionExpression false
  | .word "class" _ => classRule
  | .word "new" _ => newExpression
  | .word "super" _ => superExpression
  | .word "import" _ => importExpression
  | .word "this" _ | .word "null" _ | .word "true" _ | .word "false" _ =>
    keyword
    return .leaf
  | _ =>
    if ← isAsyncFunction then
      keyword
      functionExpression true
    else nameReference

def leftHand : Parser Node := do
  let (node, optional) ← grow (memberStep true) (← primary, false)
  return if optional then .mk .chain [node] else node

def construct : Parser Node := do
  let (node, _) ← grow (memberStep false) (← primary, false)
  return node

/-! Operators -/

/-- Whether `await` at hand is an operator. Where it is a name as well, it is still taken for the
operator, in vain, if the name would make no sense in front of what follows. -/
def isAwait : Parser Bool := do
  unless ← isWord "await" do return false
  if (← context).awaits then return true
  next fun t =>
    !t.newline && match t.kind with
      | .word w _ => w ≠ "in" && w ≠ "instanceof"
      | .number | .string _ => true
      | _ => false

def unary : Parser Node := do
  let k ← kind
  if ["+", "-", "~", "!"].any k.isMark || ["delete", "typeof", "void"].any k.isWord then
    keyword
    return .mk .unary [← inner .unary]
  if ← isAwait then
    faultIf !(← context).awaits
    keyword
    return .mk .unary [← inner .unary]
  if k.isMark "++" || k.isMark "--" then
    advance
    return .mk .update [← inner .unary]
  -- An element takes no members or calls behind it.
  if k.isMark "<" then return ← inner (.markup false)
  let node ← inner .leftHand
  if (← isAnyMark ["++", "--"]) && !(← onNewLine) then
    advance
    return .mk .update [node]
  return node

/-- `#x in object`, where operators bind tighter than `level`. -/
def privateIn (level : Nat) : Parser Node := do
  advance
  unless (← isWord "in") && (← context).inOperator && level < 8 do fail
  keyword
  return .all [← inner (.binary 8)]

/-- Operators of `??` and of `||` or `&&` do not mix without parentheses. -/
def mixesCoalescing (operator : String) (left right : Node) : Bool :=
  operator = "??" && (left.shape = .logical false || right.shape = .logical false)

def binaryStep (level : Nat) (left : Node) : Parser (Option Node) := do
  widenAngle
  unless ← isBinaryOperator do return none
  let operator ← kind
  let some tightness := bindingLevel? operator | return none
  -- Operators of one level group to the left, powers to the right.
  if tightness < level || tightness = level && tightness ≠ 12 then return none
  match operator with
  | .word text _ =>
    if text = "as" || text = "satisfies" then
      if ← onNewLine then return none
      keyword
      return some (.mk .assertion [left, ← inner .type])
    keyword
    return some (.all [left, ← inner (.binary tightness)])
  | .mark text =>
    -- `-a ** b` is refused because it could be read in two ways.
    faultIf (text = "**" && left.shape = .unary)
    advance
    let right ← inner (.binary tightness)
    faultIf (mixesCoalescing text left right)
    let shape : Shape :=
      if text = "??" then .logical true
      else if text = "||" || text = "&&" then .logical false
      else .other
    return some (.mk shape [left, right])
  | _ => return none

def binary (level : Nat) : Parser Node := do
  let left ←
    match ← kind with
    | .privateName _ => privateIn level
    | _ => inner .unary
  grow (binaryStep level) left

/-! Arrow functions -/

inductive Likelihood where
  | no
  | maybe
  | yes
  deriving DecidableEq, Repr

/-- Whether a parenthesis opens the parameters of an arrow function. -/
def parenthesisOpensArrow (async : Bool) : Parser Likelihood := do
  expect "("
  if ← eat ")" then
    -- `async ()` may also be a call in the first branch of a condition.
    if async && (← isMark ":") then return .maybe
    return if ← isAnyMark ["=>", ":", "\x7b"] then .yes else .no
  -- A pattern and a literal look alike until an arrow follows.
  if ← isAnyMark ["[", "\x7b"] then return .maybe
  if ← isMark "..." then return .yes
  if (← isAnyWord modifierWords) && !(← isWord "async") && (← next fun t => t.kind.isName) then
    return if ← next fun t => t.kind.isWord "as" then .no else .yes
  unless (← kind).isBinding || (← isWord "this") do return .no
  advance
  if ← isMark ":" then return .yes
  if ← eat "?" then return if ← isAnyMark [":", ",", "=", ")"] then .yes else .no
  return if ← isAnyMark [",", "=", ")"] then .maybe else .no

/-- Whether an angle opens the type parameters of an arrow function. It opens an element, unless a
comma, a default or a bound follows the first name. -/
def angleOpensArrow : Parser Likelihood := do
  expect "<"
  discard (eatWord "const")
  unless (← kind).isName do return .no
  advance
  if ← eatWord "extends" then return if ← isAnyMark ["=", ">", "/"] then .no else .yes
  return if ← isAnyMark [",", "="] then .yes else .no

def opensArrow : Parser Likelihood := do
  let found ← lookAhead do
    let async ← eatWord "async"
    if async && (← onNewLine) then return .no
    if ← isMark "(" then parenthesisOpensArrow async
    else if ← isMark "<" then angleOpensArrow
    else return .no
  return found.getD .no

/-- The body behind an arrow. -/
def arrowBody (async arrowTypes : Bool) : Parser Node := do
  faultIf (← onNewLine)
  expect "=>"
  within (fun c => { c with awaits := async, yields := false }) do
    -- What the function gives is not what the function is.
    if ← isMark "\x7b" then functionBody else return .all [← inner (.assignment arrowTypes)]

/-- An arrow function with parameters in parentheses, and whether it has a return type. -/
def arrowFunction (arrowTypes : Bool) : Parser (Node × Bool) := do
  let async ← eatWord "async"
  let awaits := (← context).awaits || async
  let (head, typed) ← within (fun c => { c with awaits }) do
    let types ← typeParameters
    let params ← parameters .function
    faultIf params.receiver
    let typed ← isMark ":"
    return (Node.all [types, params.node, ← returnType], typed)
  unless ← isMark "=>" do fail
  return (.all [head, ← arrowBody async arrowTypes], typed)

/-- An arrow function where one may start. In the first branch of a condition the colon behind the
parameters may belong to the condition; it does if no other follows the body. -/
def arrowFunction? (arrowTypes : Bool) : Parser (Option Node) := do
  match ← opensArrow with
  | .no => return none
  | .yes => return some (← arrowFunction true).1
  | .maybe =>
    -- A place that was tried in vain is not tried again when the text around it is.
    let place := (← token).source.length
    if (← get).notArrows.contains place then return none
    let found ← attempt do
      let (node, typed) ← arrowFunction arrowTypes
      if typed && !arrowTypes && !(← isMark ":") then fail
      return node
    if found.isNone then modify fun s => { s with notArrows := place :: s.notArrows }
    return found

/-- `async x => body`. -/
def asyncArrow? (arrowTypes : Bool) : Parser (Option Node) := do
  let starts ← ahead do
    expectWord "async"
    if (← onNewLine) || !(← kind).isBinding then return false
    next fun t => t.kind.isMark "=>" && !t.newline
  unless starts do return none
  keyword
  bindingName
  return some (← arrowBody true arrowTypes)

/-! Assignments -/

def yieldExpression : Parser Node := do
  keyword
  if ← onNewLine then return .leaf
  let delegates ← eat "*"
  let ends := (← isAnyMark [";", "\x7d", ")", "]", ":", ","]) || (← isWord "in")
    || (← kind) = .finish
  if ends && !delegates then return .leaf
  return .all [← inner (.assignment true)]

def assignmentMarks : List String :=
  ["+=", "-=", "*=", "/=", "%=", "**=", "<<=", ">>=", ">>>=", "&=", "|=", "^=", "&&=", "||=", "??="]

def assignmentRest (arrowTypes : Bool) (left : Node) : Parser Node := do
  if left.isName && (← isMark "=>") then return ← arrowBody false arrowTypes
  if ← eat "=" then return .mk .assign [left, ← inner (.assignment arrowTypes)]
  if ← isAnyMark assignmentMarks then
    advance
    return .mk .modify [left, ← inner (.assignment arrowTypes)]
  unless ← eat "?" do return left
  let yes ← within (fun c => { c with inOperator := true }) (inner (.assignment false))
  expect ":"
  return .all [left, yes, ← inner (.assignment arrowTypes)]

def assignment (arrowTypes : Bool) : Parser Node := do
  if (← isWord "yield") && (← context).yields then return ← yieldExpression
  if let some node ← arrowFunction? arrowTypes then return node
  if let some node ← asyncArrow? arrowTypes then return node
  assignmentRest arrowTypes (← inner (.binary 0))

def expression : Parser Node :=
  within (fun c => { c with decorator := false }) do
    match ← commaSeparated (inner (.assignment true)) with
    | [item] => return item
    | items => return .mk .sequence items

end Concord.Script.Parser
