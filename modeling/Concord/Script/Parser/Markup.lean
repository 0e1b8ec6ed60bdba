import Concord.Script.Parser.Expressions

/-!
Elements of markup inside expressions. Their content is running text, which is read by rules of its
own from behind the angle or brace before it; so a closing mark is stepped over together with the
reading of what follows it.
-/
namespace Concord.Script.Parser

/-- Goes on to the next part of an element's content. -/
def advanceContent : Parser Unit := modify fun s =>
  let (token, rest) := lexContent s.rest
  { s with token, rest }

/-- Goes on to the value of an attribute. -/
def advanceAttribute : Parser Unit := modify fun s =>
  let (token, rest) := lexAttribute s.rest
  { s with token, rest }

/-- Steps over a closing mark; content follows if the mark stands inside an element. -/
def closeMark (mark : String) (inContent : Bool) : Parser Unit := do
  unless ← isMark mark do fail
  if inContent then advanceContent else advance

/-- One name of a tag or an attribute: a word and what follows it with hyphens. -/
def markupWord : Parser String := do
  match ← kind with
  | .word text escaped =>
    let (more, rest) := markupNameTail (← get).rest
    reread (.word text escaped) rest
    advance
    return text ++ more
  | _ => fail

/-- A name with another one behind a colon. -/
def namespacedName : Parser String := do
  let name ← markupWord
  if ← eat ":" then return name ++ ":" ++ (← markupWord)
  return name

/-- The name of an element: one name, two with a colon between them, or several with dots. -/
def elementName : Parser String := do
  let name ← namespacedName
  let names ← many do
    if ← eat "." then return some (← markupWord)
    return none
  faultIf (names.any (·.contains '-'))
  if !names.isEmpty && name.contains ':' then fail
  return ".".intercalate (name :: names)

/-- An expression in braces. In content a spread may stand there as well. -/
def container (inContent emptyAllowed : Bool) : Parser Node := do
  expect "\x7b"
  if ← isMark "\x7d" then
    faultIf !emptyAllowed
    closeMark "\x7d" inContent
    return .leaf
  if inContent then discard (eat "...")
  let node ← bracketed (inner .expression)
  closeMark "\x7d" inContent
  return node

def attributeValue : Parser Node := do
  match ← kind with
  | .string _ =>
    advance
    return .leaf
  | .mark "\x7b" => container false false
  | .mark "<" => inner (.markup false)
  | _ => fail

/-- An attribute or a spread of several, if one stands here. -/
def markupAttribute : Parser (Option Node) := do
  match ← kind with
  | .mark "\x7b" =>
    advance
    expect "..."
    let node ← bracketed (inner .expression)
    expect "\x7d"
    return some node
  | .word _ _ =>
    discard namespacedName
    unless ← isMark "=" do return some .leaf
    advanceAttribute
    return some (← attributeValue)
  | _ => return none

/-- The content of an element up to its closing tag. -/
def elementContent : Parser Node := do
  let items ← many do
    match ← kind with
    | .content =>
      advanceContent
      return some .leaf
    | .mark "\x7b" => return some (← container true true)
    | .mark "<" =>
      -- The closing tag of this element ends the content.
      if ← nextIsMark "/" then return none
      return some (← inner (.markup true))
    | _ => fail
  return .all items

/-- The content and the closing tag of an element, which repeats its name. A fragment has none. -/
def elementRest (name : String) (inContent : Bool) : Parser Node := do
  closeMark ">" true
  let content ← elementContent
  expect "<"
  expect "/"
  let closing ← if ← isMark ">" then pure "" else elementName
  faultIf (closing ≠ name)
  closeMark ">" inContent
  return content

/-- An element or a fragment. -/
def markup (inContent : Bool) : Parser Node := do
  expect "<"
  if ← isMark ">" then return ← elementRest "" inContent
  let name ← elementName
  let types ← typeArguments
  let attributes ← many markupAttribute
  if ← eat "/" then
    closeMark ">" inContent
    return .all (types :: attributes)
  return .all (types :: attributes ++ [← elementRest name inContent])

end Concord.Script.Parser
