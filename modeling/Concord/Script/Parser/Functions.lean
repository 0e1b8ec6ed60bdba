import Concord.Script.Parser.Types

/-!
Functions and classes.
-/
namespace Concord.Script.Parser

/-- What kind of function is read. -/
structure FunctionForm where
  async : Bool := false
  generator : Bool := false
  /-- Overloads and abstract members have no body. -/
  bodyRequired : Bool := false
  /-- A function that is only declared or abstract may not have one. -/
  bodyBarred : Bool := false
  owner : ParameterOwner := .function

/-- A body in braces, from which a function returns. -/
def functionBody : Parser Node :=
  within (fun c => { c with returns := true, inOperator := true, decorator := false,
                            conditionalTypes := true }) (inner .block)

/-- What stands behind a function's name. -/
def functionRest (form : FunctionForm) : Parser (Node × Signature) :=
  within (fun c => { c with awaits := form.async, yields := form.generator, inOperator := true,
                            decorator := false }) do
    let s ← signature form.owner
    if ← isMark "\x7b" then
      faultIf form.bodyBarred
      return (.all [s.node, ← functionBody], s)
    if form.bodyRequired then fail
    -- An overload or an abstract member ends like a statement.
    semicolon
    return (s.node, s)

/-- A function as an expression, behind its `async`. Its name belongs to its inside. -/
def functionExpression (async : Bool) : Parser Node := do
  expectWord "function"
  let generator ← eat "*"
  if (← kind).isBinding then
    within (fun c => { c with awaits := async, yields := generator }) bindingName
  return (← functionRest { async, generator, bodyRequired := true }).1

/-- A function that is declared, behind its `async`. `named` says that it needs a name; only a
parenthesis or a word that is none in its place shows that it lacks one. -/
def functionDeclaration (async named : Bool) : Parser Node := do
  expectWord "function"
  let generator ← eat "*"
  if (← kind).isBinding then bindingName
  else if named then
    if (← kind).isAnyWord then fail
    faultIf (← isMark "(")
  return (← functionRest { async, generator }).1

/-- A function behind `declare`, which has neither a body nor yields. -/
def ambientFunction (async : Bool) : Parser Node := do
  expectWord "function"
  faultIf (← eat "*")
  if (← kind).isBinding then bindingName
  return (← functionRest { async, bodyBarred := true }).1

def isAsyncFunction : Parser Bool := do
  return (← isWord "async") && (← next fun t => t.kind.isWord "function" && !t.newline)

/-! Members of classes -/

/-- The key of a member. A private name says itself who has access. -/
def memberKey (modifiers : List String) : Parser Key := do
  match ← kind with
  | .privateName text =>
    faultIf (text = "constructor" || modifiers.any accessWords.contains)
    advance
    return {}
  | _ => propertyKey

/-- A getter has no parameter and a setter exactly one, which is always given. -/
def accessorFault (setter : Bool) (params : Parameters) : Bool :=
  if setter then params.rest || params.count ≠ 1 || params.defaulted else params.count ≠ 0

/-- Notes a fault if the key is one that a member of a class itself cannot have. -/
def checkStaticKey (modifiers : List String) (key : Key) : Parser Unit :=
  faultIf (modifiers.contains "static" && key.text = some "prototype".toList)

def accessorMember (modifiers : List String) : Parser Node := do
  faultIf (modifiers.contains "readonly")
  let setter ← isWord "set"
  keyword
  let key ← memberKey modifiers
  faultIf (key.text = some "constructor".toList && !modifiers.contains "static")
  checkStaticKey modifiers key
  let (value, s) ← functionRest { bodyBarred := modifiers.contains "abstract", owner := .method }
  faultIf (accessorFault setter s.parameters)
  return .all [key.node, value]

/-- A constructor behind its name. It takes no type parameters and tells no return type. -/
def constructorMember (modifiers : List String) : Parser Node := do
  onlyModifiers accessWords modifiers
  faultIf (← isMark "<")
  let (value, s) ← functionRest { owner := .constructor }
  faultIf (s.parameters.receiver || s.returnTyped)
  return value

def methodMember (modifiers : List String) (generator : Bool) (key : Key) : Parser Node := do
  faultIf (modifiers.contains "readonly")
  checkStaticKey modifiers key
  let form : FunctionForm :=
    { async := modifiers.contains "async", generator, owner := .method,
      bodyBarred := modifiers.contains "abstract" }
  return .all [key.node, (← functionRest form).1]

def fieldMember (modifiers : List String) (optional : Bool) (key : Key) : Parser Node := do
  faultIf (key.text = some "constructor".toList)
  checkStaticKey modifiers key
  if modifiers.contains "accessor" then
    faultIf optional
    onlyModifiers (accessWords ++ ["static", "abstract", "override", "accessor"]) modifiers
  let definite ← eat "!"
  faultIf (optional && definite)
  let type ← typeAnnotated
  let value ← within (fun c => { c with awaits := false, yields := false, inOperator := true })
    initializer?
  faultIf (modifiers.contains "abstract" && value.isSome)
  semicolon
  return .all [key.node, type, value.getD .leaf]

/-- A method or a field. -/
def keyedMember (modifiers : List String) : Parser Node := do
  let generator ← eat "*"
  let key ← memberKey modifiers
  let optional ← eat "?"
  let isMethod := generator || (← isAnyMark ["(", "<"])
  let isConstructor := key.text = some "constructor".toList && !modifiers.contains "static"
  if isMethod && isConstructor then
    faultIf generator
    constructorMember modifiers
  else if isMethod then methodMember modifiers generator key
  else fieldMember modifiers optional key

/-- Statements that run when a class is made. -/
def staticBlock : Parser Node := do
  keyword
  within (fun c => { c with awaits := true, yields := false, returns := false }) (inner .block)

/-- A member of a class: a block of statements, an accessor, an index signature, a method or a
field. -/
def classMember : Parser Node := do
  let marks ← decorators
  let modifiers ← modifiersAmong modifierWords true
  if (← isWord "static") && (← nextIsMark "\x7b") then
    faultIf !marks.isEmpty
    return ← staticBlock
  if ← startsAccessor then return .all (marks ++ [← accessorMember modifiers])
  if ← isIndexSignature then
    faultIf !marks.isEmpty
    let index ← indexSignature modifiers
    memberEnd
    return index
  return .all (marks ++ [← keyedMember modifiers])

def classBody : Parser Node := do
  expect "\x7b"
  let members ← many do
    if ← isMark "\x7d" then return none
    if ← eat ";" then return some .leaf
    return some (← classMember)
  expect "\x7d"
  return .all members

/-! Classes -/

/-- One base of a class or an interface. -/
def heritageItem : Parser Node := do
  let base ← inner .leftHand
  let types ← typeArguments
  return .all [base, types]

/-- One interface that a class implements. -/
def implementedItem : Parser Node := do
  discard anyWord
  qualifiers
  typeArguments

/-- The clauses behind a class name: at most one base, then the interfaces. -/
def heritage : Parser Node := do
  let bases ← many do
    unless ← eatWord "extends" do return none
    return some (← commaSeparated heritageItem)
  let interfaces ← many do
    unless ← eatWord "implements" do return none
    return some (← commaSeparated implementedItem)
  faultIf (bases.flatten.length > 1 || interfaces.length > 1)
  return .all (bases.flatten ++ interfaces.flatten)

/-- A class behind the word for it. It need not have a name. -/
def classRest : Parser Node := do
  if (← kind).isBinding && !(← isWord "implements") then bindingName
  within (fun c => { c with decorator := false, inOperator := true, conditionalTypes := true }) do
    let types ← typeParameters
    let bases ← heritage
    return .all [types, bases, ← inner .classBody]

/-- A class behind its decorators and modifiers. -/
def classRule : Parser Node := do
  expectWord "class"
  classRest

/-- The modifiers that stand in front of a class. -/
def classModifiers : Parser Unit := do
  onlyModifiers ["declare", "abstract"] (← modifiersAmong modifierWords false)

end Concord.Script.Parser
