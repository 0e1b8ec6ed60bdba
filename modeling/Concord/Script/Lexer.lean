import Concord.Script.Escape
import Concord.Script.Token
import Concord.Text.Blank

/-!
Reading tokens. `lex` gives the token at the front of a text under the usual rules; regular
expressions, template pieces and the parts of markup are read by functions of their own, which the
grammar calls where they can stand. A `>` is always read alone, because the end of nested type
arguments is written with several of them.
-/
namespace Concord.Script

open Concord.Unicode (isIdentifierStart isIdentifierPart)

/-- What stands in front of a token. -/
inductive Gap where
  | blank
  | line
  | block
  deriving DecidableEq, Repr

/-- Steps over blanks and comments and tells whether a line break was among them. The text is
`none` if a comment is not closed. -/
def skipGap : Gap → Bool → List Char → Bool × Option (List Char)
  | .block, newline, [] => (newline, none)
  | _, newline, [] => (newline, some [])
  | .blank, newline, '/' :: '/' :: rest => skipGap .line newline rest
  | .blank, newline, '/' :: '*' :: rest => skipGap .block newline rest
  | .blank, newline, c :: rest =>
    if isLineBreak c then skipGap .blank true rest
    else if Text.isBlank c || c = '\u200b' || c = '\ufeff' then skipGap .blank newline rest
    else (newline, some (c :: rest))
  | .line, newline, c :: rest =>
    if isLineBreak c then skipGap .blank true rest else skipGap .line newline rest
  | .block, newline, '*' :: '/' :: rest => skipGap .blank newline rest
  | .block, newline, c :: rest => skipGap .block (newline || isLineBreak c) rest

/-! Numbers -/

/-- The digits at the front: at least one, with single separators between them. -/
def digits? (isDigit : Char → Bool) (text : List Char) : Option (List Char) :=
  let isIn (c : Char) : Bool := isDigit c || c = '_'
  let run := text.takeWhile isIn
  if (Text.splitAt '_' run).all (!·.isEmpty) then some (text.dropWhile isIn) else none

/-- Steps over the exponent, if there is one. -/
def exponent? : List Char → Option (List Char)
  | c :: rest =>
    if c = 'e' || c = 'E' then
      match rest with
      | '+' :: rest | '-' :: rest => digits? Char.isDigit rest
      | rest => digits? Char.isDigit rest
    else some (c :: rest)
  | [] => some []

/-- Steps over the digits behind the point, if there are any, and the exponent. -/
def fraction? (rest : List Char) : Option (List Char) :=
  match rest with
  | c :: _ => if c.isDigit then digits? Char.isDigit rest >>= exponent? else exponent? rest
  | [] => some []

def isHexDigit (c : Char) : Bool :=
  (Json.hexValue? c).isSome

def isOctalDigit (c : Char) : Bool :=
  (octalValue? c).isSome

/-- Steps over the mark of a whole number without bounds, if it is there. -/
def skipBigMark : List Char → List Char
  | 'n' :: rest => rest
  | rest => rest

/-- Steps over the whole part of a number and what belongs to it. -/
def numberBody? (text : List Char) : Option (List Char) :=
  match text with
  | '.' :: rest => fraction? rest
  | '0' :: c :: rest =>
    if c = 'x' || c = 'X' then (digits? isHexDigit rest).map skipBigMark
    else if c = 'o' || c = 'O' then (digits? isOctalDigit rest).map skipBigMark
    else if c = 'b' || c = 'B' then (digits? (fun d => d = '0' || d = '1') rest).map skipBigMark
    else if c.isDigit then
      let tail := rest.dropWhile Char.isDigit
      if (c :: rest.takeWhile Char.isDigit).all isOctalDigit then some tail
      else
        match tail with
        | '.' :: tail => fraction? tail
        | tail => exponent? tail
    else
      match c :: rest with
      | 'n' :: rest => some rest
      | '.' :: rest => fraction? rest
      | rest => exponent? rest
  | text => do
    match ← digits? Char.isDigit text with
    | 'n' :: rest => some rest
    | '.' :: rest => fraction? rest
    | rest => exponent? rest

/-- Steps over a number. No digit and no word may follow it at once. -/
def number? (text : List Char) : Option (List Char) := do
  let rest ← numberBody? text
  match rest with
  | c :: _ => if c.isDigit || isIdentifierStart c then none else some rest
  | [] => some rest

/-! Quoted texts -/

/-- The raw text of a string behind its opening quote, and what stands behind the closing one. -/
def quotedText? (quote : Char) : List Char → Option (List Char × List Char)
  | [] => none
  | '\\' :: '\r' :: '\n' :: rest =>
    (quotedText? quote rest).map fun (raw, tail) => ('\\' :: '\r' :: '\n' :: raw, tail)
  | '\\' :: c :: rest => (quotedText? quote rest).map fun (raw, tail) => ('\\' :: c :: raw, tail)
  | c :: rest =>
    if c = quote then some ([], rest)
    else if c = '\n' || c = '\r' then none
    else (quotedText? quote rest).map fun (raw, tail) => (c :: raw, tail)

/-- The raw text of a template piece, whether the template ends with it, and what stands behind. -/
def templateText? : List Char → Option (List Char × Bool × List Char)
  | [] => none
  | '\x60' :: rest => some ([], true, rest)
  | '$' :: '\x7b' :: rest => some ([], false, rest)
  | '\\' :: c :: rest => (templateText? rest).map fun (raw, tail) => ('\\' :: c :: raw, tail)
  | c :: rest => (templateText? rest).map fun (raw, tail) => (c :: raw, tail)

/-- The template piece behind a back quote or a closing brace. -/
def templatePiece (text : List Char) : Kind × List Char :=
  match templateText? text with
  | some (raw, closed, rest) => (.template closed (templateValid 0 raw), rest)
  | none => (.invalid, [])

/-- Steps over a regular expression behind its opening slash. In a class of characters a slash does
not end it. -/
def patternBody? (inClass : Bool) : List Char → Option (List Char)
  | [] => none
  | '\\' :: c :: rest => if isLineBreak c then none else patternBody? inClass rest
  | c :: rest =>
    if isLineBreak c then none
    else if c = '/' && !inClass then some rest
    else patternBody? (if c = '[' then true else if c = ']' then false else inClass) rest

/-- Steps over a regular expression and its flags, each of them at most once. -/
def pattern? (text : List Char) : Option (List Char) := do
  let rest ← patternBody? false text
  let isFlag (c : Char) : Bool := c.isAlphanum || c = '_' || c = '$'
  let flags := rest.takeWhile isFlag
  if flags.all "dgimsuvy".toList.contains && flags.eraseDups.length = flags.length then
    some (rest.dropWhile isFlag)
  else none

/-! Marks -/

/-- The marks of more than one character, longer ones before the shorter ones that start them. -/
def longMarks : List String :=
  ["...", "===", "!==", "**=", "<<=", "&&=", "||=", "??=", "=>", "==", "!=", "**", "++", "--", "<<",
    "<=", "&&", "||", "??", "?.", "+=", "-=", "*=", "/=", "%=", "&=", "|=", "^="]

/-- The ways in which a `>` can go on as an operator. -/
def angleMarks : List String :=
  [">>>=", ">>>", ">>=", ">>", ">=", ">"]

def shortMarks : List Char :=
  "\x7b\x7d()[];,<>+-*/%&|^!~?:=.@".toList

/-- Steps over `front` if the text starts with it. -/
def stripFront? (front : String) (text : List Char) : Option (List Char) :=
  if front.toList.isPrefixOf text then some (text.drop front.length) else none

/-- The first of the marks that the text starts with. -/
def markOf? (marks : List String) (text : List Char) : Option (String × List Char) :=
  marks.findSome? fun mark => (stripFront? mark text).map (mark, ·)

/-- The mark at the front. A `?.` in front of a digit is a `?` and a number. -/
def lexMark (text : List Char) : Kind × List Char :=
  let single : Kind × List Char :=
    match text with
    | c :: rest => if shortMarks.contains c then (.mark c.toString, rest) else (.invalid, rest)
    | [] => (.finish, [])
  match markOf? longMarks text with
  | some ("?.", c :: rest) => if c.isDigit then single else (.mark "?.", c :: rest)
  | some (mark, rest) => (.mark mark, rest)
  | none => single

/-! Tokens -/

/-- The string behind an opening quote. -/
def lexString (quote : Char) (text : List Char) : Kind × List Char :=
  match quotedText? quote text with
  | some (raw, rest) =>
    match stringCodes 0 raw with
    | some codes => (.string (textOfCodes codes), rest)
    | none => (.invalid, rest)
  | none => (.invalid, [])

/-- The word at the front. -/
def lexWord (text : List Char) : Kind × List Char :=
  match word? text with
  | some (word, rest) =>
    (.word (String.ofList word) (text.take word.length ≠ word), rest)
  | none => (.invalid, [])

/-- The kind of the token at the front of a text that starts with it, and the text behind. -/
def lexKind (text : List Char) : Kind × List Char :=
  let number : Kind × List Char :=
    match number? text with
    | some rest => (.number, rest)
    | none => (.invalid, [])
  match text with
  | [] => (.finish, [])
  | '.' :: c :: _ => if c.isDigit then number else lexMark text
  | '#' :: rest =>
    match word? rest with
    | some (word, rest) => (.privateName (String.ofList word), rest)
    | none => (.invalid, [])
  | '\x60' :: rest => templatePiece rest
  | c :: rest =>
    if c = '\x27' || c = '\x22' then lexString c rest
    else if c.isDigit then number
    else if c = '\\' || isIdentifierStart c then lexWord text
    else lexMark text

/-- The next token and the text behind it. -/
def lex (text : List Char) : Token × List Char :=
  match skipGap .blank false text with
  | (newline, none) => (⟨.invalid, [], newline⟩, [])
  | (newline, some source) =>
    let (kind, rest) := lexKind source
    (⟨kind, source, newline⟩, rest)

/-- Steps over a first line that names an interpreter. -/
def skipInterpreter : List Char → List Char
  | '#' :: '!' :: rest => rest.dropWhile (!isLineBreak ·)
  | text => text

/-! Markup -/

/-- The next part of an element's content: running text, a tag or an expression in braces. Running
text holds no closing angle or brace. -/
def lexContent (text : List Char) : Token × List Char :=
  let isIn (c : Char) : Bool := c ≠ '<' && c ≠ '>' && c ≠ '\x7b' && c ≠ '\x7d'
  match text with
  | [] => (⟨.finish, [], false⟩, [])
  | '<' :: rest => (⟨.mark "<", text, false⟩, rest)
  | '\x7b' :: rest => (⟨.mark "\x7b", text, false⟩, rest)
  | _ =>
    match text.dropWhile isIn with
    | '>' :: rest | '\x7d' :: rest => (⟨.invalid, text, false⟩, rest)
    | rest => (⟨.content, text, false⟩, rest)

/-- The value of an attribute. Strings have no escapes and may run over lines. -/
def lexAttribute (text : List Char) : Token × List Char :=
  match skipGap .blank false text with
  | (newline, some (c :: rest)) =>
    if c = '\x27' || c = '\x22' then
      match rest.dropWhile (· ≠ c) with
      | _ :: tail => (⟨.string (rest.takeWhile (· ≠ c)), c :: rest, newline⟩, tail)
      | [] => (⟨.invalid, c :: rest, newline⟩, [])
    else lex text
  | _ => lex text

/-- What goes on with hyphens and words in the name of a tag or an attribute. -/
def markupNameTail (text : List Char) : String × List Char :=
  let isIn (c : Char) : Bool := isIdentifierPart c || c = '-'
  (String.ofList (text.takeWhile isIn), text.dropWhile isIn)

end Concord.Script
