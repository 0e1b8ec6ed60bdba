/-!
Words and identifiers. A word of the scanner may hold any character outside ASCII; a plain
identifier is made of ASCII letters, digits, `_` and `$`.
-/
namespace Concord.Text

def isWordStart (c : Char) : Bool :=
  c.isAlpha || c = '_' || c = '$' || 0x80 ≤ c.toNat

def isWordPart (c : Char) : Bool :=
  isWordStart c || c.isDigit

def isPlainStart (c : Char) : Bool :=
  c.isAlpha || c = '_' || c = '$'

def isPlainPart (c : Char) : Bool :=
  isPlainStart c || c.isDigit

/-- A non-empty run of plain characters that does not start with a digit. -/
def isIdentifier : List Char → Bool
  | [] => false
  | c :: rest => isPlainStart c && rest.all isPlainPart

theorem isWordStart_of_isPlainStart {c : Char} (plain : isPlainStart c = true) :
    isWordStart c = true := by
  simp only [isPlainStart, isWordStart, Bool.or_eq_true] at plain ⊢
  exact Or.inl plain

theorem isWordPart_of_isPlainPart {c : Char} (plain : isPlainPart c = true) :
    isWordPart c = true := by
  simp only [isPlainPart, isWordPart, Bool.or_eq_true] at plain ⊢
  exact plain.imp_left isWordStart_of_isPlainStart

end Concord.Text
