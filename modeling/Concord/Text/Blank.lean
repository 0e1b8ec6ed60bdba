import Concord.Text.Basic

/-!
Blank characters. The scanner steps over the five ASCII blanks only; names and paths are trimmed and
cut at every character with the Unicode property White_Space.
-/
namespace Concord.Text

/-- Space, tab, line feed, form feed and carriage return. -/
def isAsciiBlank (c : Char) : Bool :=
  c = ' ' || c = '\t' || c = '\n' || c = '\x0c' || c = '\r'

/-- The property White_Space. -/
def isBlank (c : Char) : Bool :=
  let n := c.toNat
  9 ≤ n && n ≤ 13 || n = 0x20 || n = 0x85 || n = 0xA0 || n = 0x1680 || 0x2000 ≤ n && n ≤ 0x200A
    || n = 0x2028 || n = 0x2029 || n = 0x202F || n = 0x205F || n = 0x3000

def trimStart (text : List Char) : List Char :=
  text.dropWhile isBlank

def trimEnd (text : List Char) : List Char :=
  (text.reverse.dropWhile isBlank).reverse

def trim (text : List Char) : List Char :=
  trimEnd (trimStart text)

/-- The blanks in front of the text. -/
def indent (text : List Char) : List Char :=
  text.takeWhile isBlank

/-- The runs of characters that are not blank. -/
def words : List Char → List (List Char)
  | [] => []
  | c :: rest =>
    if isBlank c then words rest
    else
      match rest, words rest with
      | d :: _, word :: more => if isBlank d then [c] :: word :: more else (c :: word) :: more
      | _, more => [c] :: more

theorem isBlank_of_isAsciiBlank {c : Char} (blank : isAsciiBlank c = true) : isBlank c = true := by
  simp only [isAsciiBlank, Bool.or_eq_true, decide_eq_true_eq] at blank
  rcases blank with (((rfl | rfl) | rfl) | rfl) | rfl <;> rfl

theorem dropWhile_length_le (p : Char → Bool) (text : List Char) :
    (text.dropWhile p).length ≤ text.length :=
  (List.dropWhile_suffix p).length_le

theorem trim_length_le (text : List Char) : (trim text).length ≤ text.length := by
  have front : (trimStart text).length ≤ text.length := dropWhile_length_le isBlank text
  have back : (trim text).length ≤ (trimStart text).length := by
    simpa [trim, trimEnd] using dropWhile_length_le isBlank (trimStart text).reverse
  exact Nat.le_trans back front

end Concord.Text
