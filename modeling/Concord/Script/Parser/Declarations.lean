import Concord.Script.Parser.Markup

/-!
Declarations of variables, types, enumerations and namespaces.
-/
namespace Concord.Script.Parser

/-! Variables -/

inductive VariableKind where
  | var
  | let
  | const
  | using
  deriving DecidableEq, Repr

/-- One variable or pattern, and whether it lacks a value that it needs. -/
def declarator (word : VariableKind) : Parser (Node × Bool) := do
  let plain := !(← isAnyMark ["[", "\x7b"])
  faultIf (word = .using && !plain)
  let target ← inner .pattern
  let promised := plain && (← isMark "!") && !(← onNewLine)
  if promised then advance
  faultIf (← eat "?")
  let typed ← isMark ":"
  let type ← typeAnnotated
  let value ← initializer?
  -- `let x!: T` promises a value that comes later.
  faultIf (promised && (!typed || value.isSome))
  let lacking := value.isNone && (!plain || word = .const || word = .using)
  return (.all [target, type, value.getD .leaf], lacking)

/-- Variables behind the word that declares them, and whether one of them lacks a value. -/
def declarators (word : VariableKind) : Parser (Node × Bool) := do
  let items ← commaSeparated (declarator word)
  return (.all (items.map Prod.fst), items.any Prod.snd)

/-- A statement that declares variables. -/
def variableStatement (word : VariableKind) : Parser Node := do
  let (node, lacking) ← declarators word
  faultIf (lacking && !(← context).ambient)
  semicolon
  return node

/-! Types and namespaces -/

/-- The key of an enumeration's member, which is a word or a string. -/
def enumKey : Parser Unit := do
  match ← kind with
  | .word _ _ | .string _ => advance
  | .mark "[" =>
    advance
    match ← kind with
    | .string _ | .template true true => advance
    | _ => fail
    expect "]"
  | _ => fail

def enumRule : Parser Node := do
  expectWord "enum"
  bindingName
  expect "\x7b"
  let (members, _) ← list "\x7d" do
    enumKey
    initializer
  return .all members

/-- Whether an expression is a name with names behind dots. -/
def isQualifiedName : Node → Bool
  | .mk (.name _) _ => true
  | .mk (.member _ _) [object] => isQualifiedName object
  | _ => false

/-- One base of an interface: a name, maybe with type arguments. -/
def interfaceBase : Parser Node := do
  let base ← inner .leftHand
  let name :=
    match base with
    | .mk .applied (name :: _) => name
    | base => base
  faultIf !isQualifiedName name
  return .all [base, ← typeArguments]

def interfaceRule : Parser Node := do
  expectWord "interface"
  bindingName
  let types ← typeParameters
  let bases ← if ← eatWord "extends" then commaSeparated interfaceBase else pure []
  return .all (types :: bases ++ [← inner .typeMembers])

def typeAlias : Parser Node := do
  expectWord "type"
  bindingName
  let types ← typeParameters
  expect "="
  let value ← inner .type
  semicolon
  return .all [types, value]

def namespaceBody : Parser Node :=
  within (fun c => { c with returns := false }) (inner .block)

/-- A namespace with its body, or a module that a string names and that may have none. -/
def namespaceRule : Parser Node := do
  let isModule ← isWord "module"
  keyword
  if isModule && (← kind).isString then
    advance
    if ← isMark "\x7b" then return ← namespaceBody
    semicolon
    return .leaf
  bindingName
  qualifiers
  namespaceBody

/-- What stands behind `import`, if it names a thing instead of a module's contents. -/
def importAlias : Parser Node := do
  bindingName
  expect "="
  if ← eatWord "require" then
    expect "("
    unless (← kind).isString do fail
    advance
    expect ")"
  else
    discard anyWord
    qualifiers
  semicolon
  return .leaf

/-! Declarations -/

def declarationModifiers : List String :=
  ["abstract", "accessor", "async", "declare", "private", "protected", "public", "readonly"]

/-- Whether a declaration follows that starts with a word which is a name elsewhere. -/
def startsDeclaration : Parser Bool := ahead do
  discard <| many do
    if ← isWord "static" then
      advance
      return some ()
    unless ← isAnyWord declarationModifiers do return none
    advance
    if ← onNewLine then fail
    return some ()
  match ← kind with
  | .word text _ =>
    match text with
    | "var" | "let" | "const" | "function" | "class" | "enum" => return true
    | "interface" | "type" => next fun t => t.kind.isBinding && !t.newline
    | "module" | "namespace" =>
      next fun t => !t.newline && (t.kind.isBinding || t.kind.isString)
    | "global" => next fun t => t.kind.isPlain || t.kind.isMark "\x7b" || t.kind.isWord "export"
    | "import" =>
      next fun t => t.kind.isName || t.kind.isMark "*" || t.kind.isMark "\x7b" ||
        t.kind.isString
    | "export" =>
      next fun t => ["=", "*", "\x7b", "@"].any t.kind.isMark || ["default", "as"].any t.kind.isWord
    | _ => return false
  | _ => return false

/-- A declaration behind its modifiers. -/
def declarationRest (modifiers : List String) : Parser Node := do
  let k ← kind
  let allowed : List String :=
    if k.isWord "function" then ["declare", "async"]
    else if k.isWord "class" then ["declare", "abstract"]
    else ["declare"]
  onlyModifiers allowed modifiers
  match k with
  | .word text _ =>
    match text with
    | "var" =>
      keyword
      variableStatement .var
    | "let" =>
      keyword
      variableStatement .let
    | "const" =>
      keyword
      if ← isWord "enum" then enumRule else variableStatement .const
    | "function" =>
      let async := modifiers.contains "async"
      if modifiers.contains "declare" then ambientFunction async else functionDeclaration async true
    | "class" => classRule
    | "enum" => enumRule
    | "interface" => interfaceRule
    | "type" => typeAlias
    | "module" | "namespace" => namespaceRule
    | "global" =>
      keyword
      namespaceBody
    | "import" =>
      keyword
      -- `type` may stand in front of the name.
      if (← isWord "type") && (← next fun t => t.kind.isBinding) then keyword
      importAlias
    | _ => fail
  | _ => fail

/-- A declaration with its modifiers. As a statement of its own it waits for nothing, unless it is
marked so; behind `export` it stands in the same context as the export. -/
def declaration (exported : Bool) : Parser Node := do
  let modifiers ← modifiersAmong ("static" :: declarationModifiers) false
  let declared := modifiers.contains "declare"
  let async := modifiers.contains "async"
  let change (c : Context) : Context :=
    { c with ambient := c.ambient || declared, awaits := if exported then c.awaits else async }
  within change (declarationRest modifiers)

end Concord.Script.Parser
