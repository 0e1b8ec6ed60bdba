import Concord.Script.Parser.Basic

/-!
Modifiers: the words in front of a member, a parameter, a type parameter or a declaration that say
more about it. All of them can be names too, or keys; what stands behind them decides.
-/
namespace Concord.Script.Parser

/-- Whether the token can stand behind a modifier. -/
def followsModifier (t : Token) : Bool :=
  t.kind.isLiteralKey || ["[", "\x7b", "*", "..."].any t.kind.isMark

def accessWords : List String :=
  ["public", "private", "protected"]

/-- The words that can be modifiers. `const` is one only in front of a type parameter. -/
def modifierWords : List String :=
  accessWords ++ ["abstract", "accessor", "async", "declare", "default", "export", "in", "out",
    "override", "readonly", "static"]

/-- Whether no word comes twice and at most one says who has access. -/
def modifiersDistinct (modifiers : List String) : Bool :=
  modifiers.eraseDups.length = modifiers.length &&
    (modifiers.filter accessWords.contains).length ≤ 1

/-- The modifiers that stand here, as far as they are among the given words. Behind all but `static`
the line goes on; `blocks` says that a brace behind `static` opens statements. -/
def modifiersAmong (words : List String) (blocks : Bool) : Parser (List String) := do
  let modifiers ← flip grow [] fun found => do
    match ← kind with
    | .word text _ =>
      unless words.contains text do return none
      let isStatic := text = "static"
      if isStatic && found.contains text then return none
      let follows (t : Token) : Bool :=
        followsModifier t &&
          if isStatic then !(blocks && t.kind.isMark "\x7b") else !t.newline
      unless ← next follows do return none
      keyword
      return some (found ++ [text])
    | _ => return none
  faultIf !modifiersDistinct modifiers
  return modifiers

/-- Notes a fault if a modifier is not among the allowed ones. -/
def onlyModifiers (allowed modifiers : List String) : Parser Unit :=
  faultIf !(modifiers.all allowed.contains)

end Concord.Script.Parser
