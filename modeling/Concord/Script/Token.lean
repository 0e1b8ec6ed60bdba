/-!
Tokens of a script. A token keeps the text from its first character on, so that one which was read
with the wrong eyes can be read again: what a `/`, a `>` or a closing brace is depends on where in
the grammar it stands.
-/
namespace Concord.Script

/-- What a token is. Words and strings keep the text that they stand for, escapes resolved. A
template piece is closed if it ends the template and valid if its escapes are. -/
inductive Kind where
  | word (text : String) (escaped : Bool)
  | privateName (text : String)
  | number
  | string (value : List Char)
  | template (closed valid : Bool)
  | content
  | mark (text : String)
  | finish
  | invalid
  deriving DecidableEq, Repr

structure Token where
  kind : Kind
  source : List Char
  /-- Whether a line break stands in front of it. -/
  newline : Bool
  deriving DecidableEq, Repr

namespace Kind

/-- Words that no name can have. -/
def reserved : List String :=
  ["break", "case", "catch", "class", "const", "continue", "debugger", "default", "delete", "do",
    "else", "enum", "export", "extends", "false", "finally", "for", "function", "if", "import",
    "in", "instanceof", "new", "null", "return", "super", "switch", "this", "throw", "true", "try",
    "typeof", "var", "void", "while", "with"]

/-- Words that are names, but mean something else in some places. -/
def contextual : List String :=
  ["abstract", "accessor", "any", "as", "assert", "asserts", "async", "bigint", "boolean",
    "constructor", "declare", "defer", "from", "get", "global", "implements", "infer", "interface",
    "intrinsic", "is", "keyof", "let", "meta", "module", "namespace", "never", "number", "object",
    "of", "out", "override", "package", "private", "protected", "public", "readonly", "require",
    "satisfies", "set", "source", "static", "string", "symbol", "target", "type", "undefined",
    "unique", "unknown", "using"]

def isMark (text : String) : Kind → Bool
  | mark m => m = text
  | _ => false

def isWord (text : String) : Kind → Bool
  | word w _ => w = text
  | _ => false

def isAnyWord : Kind → Bool
  | word _ _ => true
  | _ => false

def isString : Kind → Bool
  | string _ => true
  | _ => false

/-- A word that can be declared or referred to. The words `await` and `yield` are such, except where
they are operators. -/
def isBinding : Kind → Bool
  | word w _ => !reserved.contains w
  | _ => false

/-- A word that is a name everywhere. -/
def isName (k : Kind) : Bool :=
  k.isBinding && !k.isWord "await" && !k.isWord "yield"

/-- A plain word, none that has a meaning of its own somewhere in the grammar. -/
def isPlain (k : Kind) : Bool :=
  k.isName && !contextual.any k.isWord

/-- A token that can name a property without brackets. -/
def isLiteralKey : Kind → Bool
  | word _ _ | privateName _ | number | string _ => true
  | _ => false

end Kind

end Concord.Script
