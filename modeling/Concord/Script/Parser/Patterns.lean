import Concord.Script.Parser.Modifiers

/-!
Keys of properties, the patterns that declarations bind, and parameter lists.
-/
namespace Concord.Script.Parser

/-- A property's key: its text if it is a word or a string, and the expression if it is computed. -/
structure Key where
  text : Option (List Char) := none
  node : Node := .leaf

def computedKey : Parser Key := do
  expect "["
  let node ← bracketed (inner (.assignment true))
  expect "]"
  return { node }

def propertyKey : Parser Key := do
  match ← kind with
  | .word text _ =>
    advance
    return { text := some text.toList }
  | .string text =>
    advance
    return { text := some text }
  | .number =>
    advance
    return {}
  | _ => computedKey

/-- The decorators that stand here. None of them may lack its value, as with a `?.` it could. -/
def decorators : Parser (List Node) := many do
  unless ← eat "@" do return none
  let node ← within (fun c => { c with decorator := true }) (inner .leftHand)
  faultIf (node.shape = .chain)
  return some node

/-- The type behind a colon, if there is one. -/
def typeAnnotated : Parser Node := do
  if ← eat ":" then inner .type else return .leaf

/-- The value behind an equals sign, if there is one. -/
def initializer? : Parser (Option Node) := do
  if ← eat "=" then return some (← inner (.assignment true))
  return none

def initializer : Parser Node := return (← initializer?).getD .leaf

/-- An item that takes all that is left must be the last one, and no comma may follow it. -/
def restLast (items : List (Node × Bool) × Bool) : Parser Node := do
  let (items, trailing) := items
  faultIf (items.dropLast.any Prod.snd)
  faultIf (trailing && (items.getLast?.map Prod.snd).getD false)
  return .all (items.map Prod.fst)

def arrayPattern : Parser Node := do
  expect "["
  let items ← bracketed <| list "]" do
    if ← isMark "," then return (Node.leaf, false)
    if ← eat "..." then
      let target ← inner .pattern
      faultIf (← isMark "=")
      return (.all [target, ← initializer], true)
    let target ← inner .pattern
    return (.all [target, ← initializer], false)
  restLast items

def objectPattern : Parser Node := do
  expect "\x7b"
  let items ← bracketed <| list "\x7d" do
    if ← eat "..." then
      faultIf (← isAnyMark ["[", "\x7b"])
      return (← inner .pattern, true)
    let name ← kind
    let key ← propertyKey
    if ← eat ":" then
      let target ← inner .pattern
      return (.all [key.node, target, ← initializer], false)
    unless name.isBinding do fail
    return (← initializer, false)
  restLast items

/-- A name, or the pieces of an array or an object. -/
def bindingPattern : Parser Node := do
  if ← isMark "[" then arrayPattern
  else if ← isMark "\x7b" then objectPattern
  else
    bindingName
    return .leaf

/-! Parameters -/

/-- What has the parameters. -/
inductive ParameterOwner where
  | function
  | method
  /-- A parameter may be a property as well. -/
  | constructor
  deriving DecidableEq, Repr

/-- What a parameter list holds; the parameter `this` is counted apart. -/
structure Parameters where
  node : Node
  count : Nat
  rest : Bool
  /-- Whether a parameter has a value for when it is left out. -/
  defaulted : Bool
  receiver : Bool

structure Parameter where
  node : Node
  rest : Bool := false
  defaulted : Bool := false

/-- The parameter that takes all that is left, behind its dots. -/
def restParameter : Parser Parameter := do
  let target ← inner .pattern
  faultIf (← isMark "?")
  discard (eat "?")
  let type ← typeAnnotated
  faultIf (← isMark "=")
  return { node := .all [target, type, ← initializer], rest := true }

def plainParameter (owner : ParameterOwner) : Parser Parameter := do
  let modifiers ← modifiersAmong modifierWords false
  let allowed := if owner = .constructor then accessWords ++ ["override"] else []
  onlyModifiers ("readonly" :: allowed) modifiers
  -- Only a parameter with a name can be a property.
  faultIf (!modifiers.isEmpty && (← isAnyMark ["[", "\x7b"]))
  let target ← inner .pattern
  let optional ← eat "?"
  let type ← typeAnnotated
  let value ← initializer?
  faultIf (optional && value.isSome)
  return { node := .all [target, type, value.getD .leaf], defaulted := value.isSome }

def parameter (owner : ParameterOwner) : Parser Parameter := do
  let marks ← decorators
  faultIf (owner = .function && !marks.isEmpty)
  let p ← if ← eat "..." then restParameter else plainParameter owner
  return { p with node := .all (marks ++ [p.node]) }

/-- The parameter `this`, which tells a type only and comes first. -/
def receiver? : Parser (Option Node) := do
  unless ← eatWord "this" do return none
  let type ← typeAnnotated
  unless ← isMark ")" do expect ","
  return some type

def parameters (owner : ParameterOwner) : Parser Parameters := do
  expect "("
  bracketed do
    let receiver ← receiver?
    let (items, trailing) ← list ")" (parameter owner)
    -- Where there are only declarations, a comma may follow the last parameter in any case.
    let trailing := trailing && !(← context).ambient
    let node ← restLast (items.map fun p => (p.node, p.rest), trailing)
    return { node := .all [receiver.getD .leaf, node], receiver := receiver.isSome,
             rest := items.any Parameter.rest, defaulted := items.any Parameter.defaulted,
             count := items.length }

/-! Templates -/

/-- The items in a hole of a template. There may be several in a row, up to the closing brace. -/
def templateHole (item : Parser Node) : Parser Node := do
  let first ← item
  let more ← many do
    if ← isMark "\x7d" then return none
    return some (← item)
  return .all (first :: more)

/-- A template whose holes hold items. In a tagged template escapes may mean anything. -/
def template (tagged : Bool) (item : Parser Node) : Parser Node := do
  let items ← many do
    match ← kind with
    | .template closed valid =>
      unless valid || tagged do fail
      advance
      if closed then return none
      let hole ← bracketed (templateHole item)
      -- The brace that ends the hole is the start of the next piece.
      let (kind, rest) := templatePiece ((← token).source.drop 1)
      reread kind rest
      return some hole
    | _ => fail
  return .all items

end Concord.Script.Parser
