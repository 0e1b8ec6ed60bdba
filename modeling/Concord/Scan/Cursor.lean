import Concord.Text.Basic
import Concord.Text.Identifier

/-!
A place in a text: what is still to be read, how many bytes and lines were passed, and whether a `/`
here would open a regular expression. Moving a cursor always means stepping over a known text.
-/
namespace Concord.Scan

open Concord.Text

structure Cursor where
  rest : List Char
  offset : Nat
  line : Nat
  regexOk : Bool
  deriving DecidableEq, Repr

namespace Cursor

def start (text : List Char) : Cursor :=
  ⟨text, 0, 1, true⟩

/-- Steps over `text`, which leaves `rest`. -/
def advance (c : Cursor) (text rest : List Char) (regexOk : Bool) : Cursor :=
  ⟨rest, c.offset + byteSize text, c.line + lineBreaks text, regexOk⟩

def atEnd (c : Cursor) : Bool :=
  c.rest.isEmpty

def startsWith (c : Cursor) (text : List Char) : Bool :=
  text.isPrefixOf c.rest

/-- The text between two cursors of one text. -/
def upTo (c later : Cursor) : List Char :=
  c.rest.take (c.rest.length - later.rest.length)

theorem upTo_eq {c later : Cursor} {text : List Char} (split : c.rest = text ++ later.rest) :
    c.upTo later = text := by
  simp [upTo, split]

end Cursor

/-- A `/` after this character opens a regular expression and is no division. `<` is not among
them, so the closing tag of a markup element stays plain code. -/
def regexMayFollow (c : Char) : Bool :=
  ['(', ',', '=', ':', '[', '!', '&', '|', '?', '\x7b', '\x7d', ';', '+', '-', '*', '%', '>', '~',
    '^'].contains c

/-- Words after which an expression starts. -/
def regexMayFollowWord (word : List Char) : Bool :=
  ["return", "typeof", "instanceof", "in", "of", "new", "delete", "void", "throw", "case", "do",
    "else", "yield", "await"].any fun keyword => keyword.toList = word

end Concord.Scan
