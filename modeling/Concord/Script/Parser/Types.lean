import Concord.Script.Parser.Patterns

/-!
Types. They are read to know where they end; of their parts only expressions are kept, which stand
in computed keys.
-/
namespace Concord.Script.Parser

/-- Type arguments in angles, at least one, if there are any. -/
def typeArguments : Parser Node := do
  unless ← eat "<" do return .leaf
  if ← isMark ">" then fail
  let (types, _) ← list ">" (inner .type)
  return .all types

/-- Type arguments on the same line. A longer mark is taken for the angle that it starts with. -/
def typeArgumentsHere : Parser Node := do
  if ← onNewLine then return .leaf
  narrowAngle
  typeArguments

/-- Names behind dots. -/
def qualifiers : Parser Unit := do
  discard <| many do
    unless ← eat "." do return none
    discard anyWord
    return some ()

/-- A named type with its arguments. Any word will do, as in `as const`. -/
def typeReference : Parser Node := do
  discard anyWord
  qualifiers
  typeArgumentsHere

/-- The type of a thing that is referred to by name. -/
def typeQuery : Parser Node := do
  discard anyWord
  qualifiers
  if ← onNewLine then return .leaf
  typeArguments

/-- Type parameters, if there are any. -/
def typeParameters : Parser Node := do
  unless ← eat "<" do return .leaf
  if ← isMark ">" then fail
  let (items, _) ← list ">" do
    let modifiers ← modifiersAmong ("const" :: modifierWords) false
    onlyModifiers ["const", "in", "out"] modifiers
    bindingName
    let bound ← if ← eatWord "extends" then inner .type else pure .leaf
    let default ← if ← eat "=" then inner .type else pure .leaf
    return Node.all [bound, default]
  return .all items

/-- A type, or what a function tells about a parameter: `x is T`. -/
def typeOrPredicate : Parser Node := do
  if (← kind).isAnyWord && (← next fun t => t.kind.isWord "is" && !t.newline) then
    advance
    keyword
  inner .type

def returnType : Parser Node := do
  if ← eat ":" then typeOrPredicate else return .leaf

/-- Type parameters, parameters and return type. -/
structure Signature where
  node : Node
  parameters : Parameters
  /-- Whether the return type is told. -/
  returnTyped : Bool

def signature (owner : ParameterOwner) : Parser Signature := do
  let types ← typeParameters
  let parameters ← parameters owner
  let returnTyped ← isMark ":"
  return { node := .all [types, parameters.node, ← returnType], parameters, returnTyped }

/-! Function types -/

/-- Whether a parameter starts here, without its type. -/
def skipParameterStart : Parser Bool := do
  discard (modifiersAmong modifierWords false)
  if (← kind).isName || (← isWord "this") then
    advance
    return true
  if ← isAnyMark ["[", "\x7b"] then
    discard (inner .pattern)
    return !(← get).faulty
  return false

/-- Whether a parenthesis opens the parameters of a function type. -/
def opensFunctionType : Parser Bool := ahead do
  expect "("
  if ← isAnyMark [")", "..."] then return true
  unless ← skipParameterStart do return false
  if ← isAnyMark [":", ",", "?", "="] then return true
  if ← eat ")" then isMark "=>" else return false

def startsFunctionType : Parser Bool := do
  if ← isMark "<" then return true
  if ← isMark "(" then return ← opensFunctionType
  if ← isWord "abstract" then return ← next fun t => t.kind.isWord "new"
  isWord "new"

def functionType : Parser Node := do
  discard (eatWord "abstract")
  let constructs ← eatWord "new"
  let types ← typeParameters
  let params ← parameters .function
  faultIf (constructs && params.receiver)
  -- The arrow is not looked at: whatever stands in its place is stepped over.
  keyword
  return .all [types, params.node, ← typeOrPredicate]

/-! Members of object types -/

/-- Whether a bracket opens an index signature. -/
def isIndexSignature : Parser Bool := ahead do
  expect "["
  if ← isAnyMark ["...", "]"] then return true
  if ← isAnyWord modifierWords then
    advance
    if (← kind).isName then return true
  else
    unless (← kind).isName do return false
    advance
  if ← isAnyMark [":", ","] then return true
  if ← eat "?" then isAnyMark [":", ",", "]"] else return false

/-- What separates a member from the next one: a comma, a semicolon or nothing. -/
def memberEnd : Parser Unit := do
  unless ← eat "," do discard (eat ";")

/-- A type behind a colon. -/
def requiredType : Parser Node := do
  expect ":"
  inner .type

def indexSignature (modifiers : List String) : Parser Node := do
  onlyModifiers ["static", "readonly"] modifiers
  expect "["
  discard anyWord
  let domain ← requiredType
  expect "]"
  return .all [domain, ← requiredType]

/-- Whether an accessor starts with the word at hand. -/
def startsAccessor : Parser Bool := do
  return (← isAnyWord ["get", "set"]) &&
    (← next fun t => t.kind.isLiteralKey || t.kind.isMark "[")

def accessorSignature : Parser Node := do
  let setter ← isWord "set"
  keyword
  let key ← propertyKey
  let params ← parameters .function
  faultIf (setter && (← isMark ":"))
  return .all [key.node, params.node, ← returnType]

def constructSignature : Parser Node := do
  expectWord "new"
  let s ← signature .function
  faultIf s.parameters.receiver
  return s.node

/-- A member with a key: a property or a method. -/
def keyedSignature (modifiers : List String) : Parser Node := do
  let key ← propertyKey
  discard (eat "?")
  if ← isAnyMark ["(", "<"] then
    onlyModifiers [] modifiers
    return .all [key.node, (← signature .function).node]
  onlyModifiers ["readonly"] modifiers
  return .all [key.node, ← typeAnnotated]

def typeMember : Parser Node := do
  if ← isAnyMark ["(", "<"] then return (← signature .function).node
  if (← isWord "new") && (← next fun t => t.kind.isMark "(" || t.kind.isMark "<") then
    return ← constructSignature
  let modifiers ← modifiersAmong modifierWords false
  if ← startsAccessor then
    onlyModifiers [] modifiers
    return ← accessorSignature
  if ← isIndexSignature then return ← indexSignature modifiers
  keyedSignature modifiers

/-- The members of an object type in braces. -/
def typeMembers : Parser Node := do
  expect "\x7b"
  let members ← many do
    if ← isMark "\x7d" then return none
    let member ← typeMember
    memberEnd
    return some member
  expect "\x7d"
  return .all members

/-! Mapped types -/

def isMappedType : Parser Bool := ahead do
  expect "\x7b"
  if ← eatAny ["+", "-"] then return ← isWord "readonly"
  discard (eatWord "readonly")
  expect "["
  discard anyWord
  isWord "in"

/-- A mark that is added, taken away or simply there. -/
def signed (p : Parser Bool) : Parser Unit := do
  if ← eatAny ["+", "-"] then
    unless ← p do fail
  else discard p

def mappedType : Parser Node := do
  expect "\x7b"
  signed (eatWord "readonly")
  expect "["
  discard anyWord
  expectWord "in"
  let domain ← inner .type
  let renamed ← if ← eatWord "as" then inner .type else pure .leaf
  expect "]"
  signed (eat "?")
  let value ← typeAnnotated
  discard (eat ";")
  expect "\x7d"
  return .all [domain, renamed, value]

/-! Other types -/

/-- An item of a tuple. It may have a label: a word with a colon, and maybe a question mark before
it. -/
def tupleItem : Parser Node := do
  let labelled ← ahead do
    discard (eat "...")
    discard anyWord
    discard (eat "?")
    isMark ":"
  if labelled then
    let rest ← eat "..."
    discard anyWord
    faultIf (rest && (← isMark "?"))
    discard (eat "?")
    expect ":"
  discard (eat "...")
  inner .type

def importType : Parser Node := do
  expectWord "import"
  expect "("
  unless (← kind).isString do fail
  advance
  let options ← if ← eat "," then inner .object else pure .leaf
  expect ")"
  qualifiers
  return .all [options, ← typeArgumentsHere]

/-- Types that are no names: they take no arguments. -/
def basicTypes : List String :=
  ["any", "unknown", "string", "number", "bigint", "symbol", "boolean", "undefined", "never",
    "object"]

/-- A type that starts with a word. -/
def wordType (k : Kind) : Parser Node := do
  match k with
  | .word "this" _ =>
    keyword
    if (← isWord "is") && !(← onNewLine) then
      keyword
      return ← inner .type
    return .leaf
  | .word "typeof" _ =>
    keyword
    if ← isWord "import" then importType else typeQuery
  | .word "import" _ => importType
  | .word "asserts" _ =>
    unless ← next fun t => t.kind.isAnyWord && !t.newline do return ← typeReference
    keyword
    advance
    if ← eatWord "is" then inner .type else return .leaf
  | _ =>
    if ["void", "null", "true", "false"].any k.isWord then
      keyword
      return .leaf
    -- With a dot behind it, the name of a basic type is that of a namespace.
    if basicTypes.any k.isWord && !(← nextIsMark ".") then
      keyword
      return .leaf
    typeReference

/-- A type whose end its first token tells. -/
def simpleType : Parser Node := do
  let k ← kind
  match k with
  | .number | .string _ =>
    advance
    return .leaf
  | .template _ _ => template false (inner .type)
  | .mark "-" =>
    advance
    unless (← kind) = .number do fail
    advance
    return .leaf
  | .mark "?" =>
    advance
    -- Alone it stands for a type that is not known.
    if ← isAnyMark [",", "\x7d", ")", ">", "=", "|"] then return .leaf
    inner .type
  | .mark "\x7b" => if ← isMappedType then mappedType else inner .typeMembers
  | .mark "[" =>
    advance
    let (items, _) ← list "]" tupleItem
    return .all items
  | .mark "(" =>
    advance
    let type ← inner .type
    expect ")"
    return type
  | k => wordType k

/-- Whether a type starts with the token at hand. -/
def startsType : Parser Bool := do
  let k ← kind
  match k with
  | .word _ _ =>
    return k.isName || ["null", "true", "false", "this", "void", "typeof", "import", "new",
      "function"].any k.isWord
  | .number | .string _ | .template _ _ => return true
  | .mark "-" => next fun t => t.kind = .number
  | .mark m => return ["\x7b", "[", "<", "|", "&", "!", "?", "*", "..."].contains m
  | _ => return false

/-- Whether a type starts here. A parenthesis starts one if a type or a parameter follows, behind as
many more of them as there are. -/
def startsTypeHere : Parser Bool := ahead do
  unless ← isMark "(" do return ← startsType
  discard <| many do
    if ← eat "(" then return some ()
    return none
  let k ← kind
  return k.isBinding || modifierWords.any k.isWord || (← isAnyMark [")", "@"]) || (← startsType)
    || match k with
      | .privateName _ => true
      | _ => false

/-- A type with brackets behind it, and whether it is an array or a tuple. -/
def indexedType : Parser (Node × Bool) := do
  let asserted ← many do
    if ← eat "!" then return some ()
    return none
  let isTuple ← isMark "["
  let head ← simpleType
  flip grow (head, isTuple && asserted.isEmpty) fun (type, _) => do
    if ← onNewLine then return none
    if ← eat "!" then return some (type, false)
    if ← isMark "?" then
      -- A question mark in front of a type belongs to a condition around this one.
      if ← ahead (do advance; startsTypeHere) then return none
      advance
      return some (type, false)
    unless ← eat "[" do return none
    if ← startsTypeHere then
      let index ← inner .type
      expect "]"
      return some (.all [type, index], false)
    expect "]"
    return some (type, true)

/-- The bound of an inferred type, unless a condition starts with it. -/
def inferBound : Parser Node := do
  let inside := (← context).conditionalTypes
  let bound ← attempt do
    expectWord "extends"
    let bound ← within (fun c => { c with conditionalTypes := false }) (inner .type)
    if inside && (← isMark "?") then fail
    return bound
  return bound.getD .leaf

/-- A type behind operators. Only an array or a tuple can be `readonly`, and only directly. -/
def operatorType : Parser Node := do
  let operators ← many do
    match ← kind with
    | .word text _ =>
      unless ["keyof", "unique", "readonly"].contains text do return none
      keyword
      return some text
    | _ => return none
  faultIf (operators.dropLast.contains "readonly")
  let frozen := operators.getLast? = some "readonly"
  if ← eatWord "infer" then
    faultIf frozen
    bindingName
    return ← inferBound
  let (type, isList) ← within (fun c => { c with conditionalTypes := true }) indexedType
  faultIf (frozen && !isList)
  return type

/-- Types between marks, of which one may also stand in front. -/
def joinedBy (mark : String) (item : Parser Node) : Parser Node := do
  discard (eat mark)
  let first ← item
  let more ← many do
    if ← eat mark then return some (← item)
    return none
  return .all (first :: more)

/-- Function types, conditional types, and what these are made of. -/
def typeRule : Parser Node := do
  if ← startsFunctionType then return ← functionType
  let head ← joinedBy "|" (joinedBy "&" operatorType)
  unless (← context).conditionalTypes && !(← onNewLine) && (← isWord "extends") do return head
  keyword
  let bound ← within (fun c => { c with conditionalTypes := false }) (inner .type)
  expect "?"
  let yes ← within (fun c => { c with conditionalTypes := true }) (inner .type)
  expect ":"
  let no ← within (fun c => { c with conditionalTypes := true }) (inner .type)
  return .all [head, bound, yes, no]

end Concord.Script.Parser
