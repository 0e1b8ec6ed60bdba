/-!
What can be wrong with the brackets and literals of a text, and how it is said.
-/
namespace Concord.Scan

inductive Bracket where
  | round
  | square
  | curly
  deriving DecidableEq, Repr

namespace Bracket

def opener : Bracket → Char
  | round => '('
  | square => '['
  | curly => '\x7b'

def closer : Bracket → Char
  | round => ')'
  | square => ']'
  | curly => '\x7d'

def ofOpener? (c : Char) : Option Bracket :=
  if c = '(' then some round
  else if c = '[' then some square
  else if c = '\x7b' then some curly
  else none

def ofCloser? (c : Char) : Option Bracket :=
  if c = ')' then some round
  else if c = ']' then some square
  else if c = '\x7d' then some curly
  else none

@[simp] theorem ofOpener?_opener (b : Bracket) : ofOpener? b.opener = some b := by
  cases b <;> rfl

@[simp] theorem ofCloser?_closer (b : Bracket) : ofCloser? b.closer = some b := by
  cases b <;> rfl

theorem eq_opener_of_ofOpener? {c : Char} {b : Bracket} (found : ofOpener? c = some b) :
    c = b.opener := by
  grind [ofOpener?, opener]

theorem eq_closer_of_ofCloser? {c : Char} {b : Bracket} (found : ofCloser? c = some b) :
    c = b.closer := by
  grind [ofCloser?, closer]

end Bracket

/-- Why a text does not balance. -/
inductive Fault where
  | openComment
  | openTemplate
  | neverClosed (bracket : Bracket)
  | wrongCloser (closer opener : Bracket) (openedAt : Nat)
  | unmatched (closer : Bracket)
  | notAnOpener (found : Char)
  deriving DecidableEq, Repr

/-- A fault and the line it is reported at. -/
structure Imbalance where
  line : Nat
  fault : Fault
  deriving DecidableEq, Repr

def Fault.message : Fault → String
  | openComment => "unterminated block comment"
  | openTemplate => "unterminated template literal"
  | neverClosed bracket => s!"'{bracket.opener}' is never closed"
  | wrongCloser closer opener openedAt =>
    s!"'{closer.closer}' does not close '{opener.opener}' opened at line {openedAt}"
  | unmatched closer => s!"unmatched '{closer.closer}'"
  | notAnOpener found => s!"expected an opening bracket, found '{found}'"

def Imbalance.message (imbalance : Imbalance) : String :=
  imbalance.fault.message

def Imbalance.display (imbalance : Imbalance) : String :=
  s!"line {imbalance.line}: {imbalance.message}"

end Concord.Scan
