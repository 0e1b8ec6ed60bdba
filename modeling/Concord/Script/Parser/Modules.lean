import Concord.Script.Parser.Statements

/-!
Imports and exports, and the choice of a statement's rule by its first token.
-/
namespace Concord.Script.Parser

/-- A module's name. -/
def moduleSource : Parser Unit := do
  match ← kind with
  | .string _ => advance
  | _ => fail

/-- A name of something in another module: a word or a string. -/
def exportedName : Parser (List Char) := do
  match ← kind with
  | .word text _ =>
    advance
    return text.toList
  | .string text =>
    advance
    return text
  | _ => fail

/-- The attributes behind a module's name, each a string with a key of its own. -/
def moduleAttributes : Parser Unit := do
  if (← isWord "with") || (← isWord "assert") && !(← onNewLine) then
    keyword
    expect "\x7b"
    let (keys, _) ← list "\x7d" do
      let key ← exportedName
      expect ":"
      moduleSource
      return key
    faultIf (keys.eraseDups.length ≠ keys.length)

/-- The end of a statement that names a module. -/
def moduleEnd : Parser Unit := do
  moduleSource
  moduleAttributes
  semicolon

/-- The words and strings of an item in braces. -/
def specifier : Parser (List Kind) := many do
  let k ← kind
  match k with
  | .word _ _ | .string _ =>
    advance
    return some k
  | _ => return none

/-- An item in braces: the thing named and the name it gets. -/
structure Specifier where
  thing : Kind
  name : Kind
  /-- Whether `type` stands in front. -/
  typed : Bool := false
  /-- Whether its `as` is written with escapes. -/
  escaped : Bool := false

/-- An item from its words and strings, if they are in order. -/
def specifierOf? : List Kind → Option Specifier
  | [k] => some { thing := k, name := k }
  | [a, b] => if a.isWord "type" then some { thing := b, name := b, typed := true } else none
  | [a, b, c] =>
    if b.isWord "as" then some { thing := a, name := c, escaped := b = .word "as" true } else none
  | [a, b, c, d] =>
    if a.isWord "type" && c.isWord "as" then
      some { thing := b, name := d, typed := true, escaped := c = .word "as" true }
    else none
  | _ => none

/-- Items in braces. Where all of them are types, none is marked as one. -/
def specifiers (types : Bool) : Parser (List Specifier) := do
  expect "\x7b"
  let (items, _) ← list "\x7d" do
    match specifierOf? (← specifier) with
    | some s =>
      faultIf (s.escaped || types && s.typed)
      return s
    | none => fail
  return items

/-! Imports -/

def namespaceImport : Parser Unit := do
  expect "*"
  expectWord "as"
  bindingName

def namedImports (types : Bool) : Parser Unit := do
  let items ← specifiers types
  faultIf !(items.all fun s => s.name.isBinding && !s.name.isWord "await")

/-- Whether the word at hand says how to import, so that it is not the name that is imported. -/
def isImportWord : Parser Bool := do
  let starts (t : Token) : Bool := t.kind.isMark "\x7b" || t.kind.isMark "*"
  if ← isWord "type" then
    ahead do
      advance
      if starts (← token) then return true
      unless (← kind).isName do return false
      if ← isWord "from" then
        advance
        return (← isWord "from") || (← isMark "=")
      return true
  else if ← isWord "defer" then nextIsMark "*"
  else if ← isWord "source" then
    ahead do
      advance
      unless (← kind).isName do return false
      advance
      isWord "from"
  else return false

def importDeclaration : Parser Node := do
  keyword
  match ← kind with
  | .string _ =>
    moduleEnd
    return .leaf
  | _ =>
    faultIf ((← kind) = .word "type" true)
    let types ← isWord "type"
    let marked ← isImportWord
    let types := types && marked
    if marked then keyword
    if (← kind).isBinding then
      if ← nextIsMark "=" then return ← importAlias
      bindingName
      if ← eat "," then
        faultIf types
        if ← isMark "*" then namespaceImport else namedImports types
    else if ← isMark "*" then namespaceImport
    else namedImports types
    expectWord "from"
    moduleEnd
    return .leaf

def importStatement : Parser Node := do
  if ← next fun t => t.kind.isMark "." || t.kind.isMark "(" then expressionStatement
  else importDeclaration

/-! Exports -/

def exportAll : Parser Node := do
  expect "*"
  if ← eatWord "as" then discard exportedName
  expectWord "from"
  moduleEnd
  return .leaf

/-- Words that name nothing in a module, though they can be written where a name is. -/
def futureWords : List String :=
  ["implements", "interface", "let", "package", "private", "protected", "public", "static"]

/-- Whether a thing of this module can have the name. -/
def isLocalName (k : Kind) : Bool :=
  k.isName && !futureWords.any k.isWord

/-- Names that are exported; they must be names of this module unless another one is given. -/
def exportNames (types : Bool) : Parser Node := do
  let items ← specifiers types
  if (← eatWord "from") && (← kind).isString then moduleEnd
  else
    faultIf !(items.all fun s => isLocalName s.thing)
    semicolon
  return .leaf

def isAbstractClass : Parser Bool := do
  return (← isWord "abstract") && (← next fun t => t.kind.isWord "class" && !t.newline)

/-- What stands behind `export default`. Decorators in front of the export must be for a class. -/
def exportDefault (decorated : Bool) : Parser Node := do
  keyword
  let marks ← decorators
  faultIf (decorated && !marks.isEmpty)
  if ← isAbstractClass then keyword
  if ← isWord "class" then return .all (marks ++ [← classRule])
  faultIf (decorated || !marks.isEmpty)
  if ← isWord "interface" then return ← interfaceRule
  if ← isWord "function" then return ← functionDeclaration false false
  if ← isAsyncFunction then
    keyword
    return ← functionDeclaration true false
  let node ← inner (.assignment true)
  semicolon
  return node

/-- A class behind `export` and decorators. The word for it is not looked at. -/
def exportedClass : Parser Node := do
  let marks ← decorators
  classModifiers
  keyword
  return .all (marks ++ [← classRest])

/-- A declaration behind `export`. Decorators in front of it must be for a class. -/
def exportedDeclaration (decorated : Bool) : Parser Node := do
  let isClass ← ahead do
    discard (modifiersAmong modifierWords false)
    isWord "class"
  faultIf (decorated && !isClass)
  declaration true

def exportStatement (marks : List Node) : Parser Node := do
  let decorated := !marks.isEmpty
  keyword
  let node ←
    if ← isMark "@" then
      faultIf decorated
      exportedClass
    else if ← isMark "*" then exportAll
    else if ← isMark "\x7b" then exportNames false
    else if ← isWord "default" then exportDefault decorated
    else if ← eat "=" then
      let node ← inner (.assignment true)
      semicolon
      pure node
    else if (← isWord "as") && (← next fun t => t.kind.isWord "namespace") then
      keyword
      keyword
      discard anyWord
      semicolon
      pure .leaf
    else if (← isWord "type") && (← nextIsMark "*") then
      keyword
      exportAll
    else if (← isWord "type") && (← nextIsMark "\x7b") then
      keyword
      exportNames true
    else exportedDeclaration decorated
  return .all (marks ++ [node])

/-! Statements -/

def decoratedStatement (single : Bool) : Parser Node := do
  let marks ← decorators
  if ← isWord "export" then return ← exportStatement marks
  classModifiers
  faultIf single
  return .all (marks ++ [← classRule])

/-- A statement that starts with a word. -/
def wordStatement (single : Bool) (text : String) (escaped : Bool) : Parser Node := do
  match text with
  | "if" => ifStatement
  | "do" => doStatement
  | "while" | "with" =>
    keyword
    let test ← condition
    return .all [test, ← governed]
  | "for" => forStatement
  | "continue" | "break" => jumpStatement
  | "switch" => switchStatement
  | "throw" => throwStatement
  | "try" => tryStatement
  | "debugger" =>
    keyword
    semicolon
    return .leaf
  | "class" =>
    faultIf single
    classRule
  | "export" => exportStatement []
  | "import" => importStatement
  | "return" => returnStatement
  | "var" =>
    keyword
    variableStatement .var
  | "const" => constStatement single
  | "let" => if escaped then expressionStatement else letStatement single
  | "function" => functionStatement single false
  | _ =>
    if ← isAsyncFunction then functionStatement single true
    else if ← isUsing then
      keyword
      faultIf single
      variableStatement .using
    else if ← isAwaitUsing then
      keyword
      keyword
      faultIf single
      variableStatement .using
    else if declarationWords.contains text && (← startsDeclaration) then declaration false
    else expressionStatement

def statement (single : Bool) : Parser Node := do
  match ← kind with
  | .mark "\x7b" => inner .block
  | .mark ";" =>
    advance
    return .leaf
  | .mark "@" => decoratedStatement single
  | .word text escaped => wordStatement single text escaped
  | _ => expressionStatement

end Concord.Script.Parser
