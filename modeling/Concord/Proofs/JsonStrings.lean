import Concord.Json.Reader
import Concord.Json.Value
import Mathlib.Tactic.SplitIfs

/-!
Strings in JSON texts. What may be written for one character is a relation, `SpellsChar`, which
the reader steps over as a whole; a written string, `Spells`, is a chain of such steps. A string
whose text does not matter, `IsStringBody`, may moreover hold half of a surrogate pair.
-/
namespace Concord.Json

open Concord.Text

/-- A character that stands for itself in a string. -/
def isPlain (c : Char) : Bool :=
  c ≠ '\x22' && c ≠ '\\' && 0x20 ≤ c.toNat

/-- Four hexadecimal digits and their number. -/
inductive HexNumber : List Char → Nat → Prop where
  | digits {a b c d : Char} {i j k l : Nat} :
    hexValue? a = some i → hexValue? b = some j → hexValue? c = some k → hexValue? d = some l →
      HexNumber [a, b, c, d] (((i * 16 + j) * 16 + k) * 16 + l)

/-- What may be written for a character: itself, a one-letter escape, its number, or the numbers
of its two surrogates. -/
inductive SpellsChar : List Char → Char → Prop where
  | plain {c : Char} : isPlain c = true → SpellsChar [c] c
  | short {e c : Char} : shortEscape? e = some c → SpellsChar ['\\', e] c
  | number {digits : List Char} {n : Nat} :
    HexNumber digits n → n < 0xD800 ∨ 0xDFFF < n →
      SpellsChar ('\\' :: 'u' :: digits) (Char.ofNat n)
  | surrogates {first second : List Char} {high low : Nat} :
    HexNumber first high → 0xD800 ≤ high → high ≤ 0xDBFF →
    HexNumber second low → 0xDC00 ≤ low → low ≤ 0xDFFF →
      SpellsChar ('\\' :: 'u' :: (first ++ '\\' :: 'u' :: second))
        (Char.ofNat (0x10000 + (high - 0xD800) * 0x400 + (low - 0xDC00)))

/-- What may be written for a text between two quotes. -/
inductive Spells : List Char → List Char → Prop where
  | nil : Spells [] []
  | cons {unit body text : List Char} {c : Char} :
    SpellsChar unit c → Spells body text → Spells (unit ++ body) (c :: text)

/-- What may stand between the quotes of a string whose text does not matter. -/
inductive IsStringBody : List Char → Prop where
  | nil : IsStringBody []
  | plain {c : Char} {body : List Char} :
    isPlain c = true → IsStringBody body → IsStringBody (c :: body)
  | short {e : Char} {body : List Char} :
    (shortEscape? e).isSome = true → IsStringBody body → IsStringBody ('\\' :: e :: body)
  | number {digits body : List Char} {n : Nat} :
    HexNumber digits n → IsStringBody body → IsStringBody ('\\' :: 'u' :: (digits ++ body))

/-! Reading -/

theorem HexNumber.hexEscape {digits : List Char} {n : Nat} (number : HexNumber digits n)
    (rest : List Char) : hexEscape (digits ++ rest) = .ok (n, rest) := by
  cases number with
  | @digits a b c d _ _ _ _ ha hb hc hd =>
    -- the reader counts bytes, and a character has at least one
    have enough : ¬byteSize (a :: b :: c :: d :: rest) < 4 := by
      have := Char.utf8Size_pos a
      have := Char.utf8Size_pos b
      have := Char.utf8Size_pos c
      have := Char.utf8Size_pos d
      simp only [byteSize]
      omega
    change Json.hexEscape (a :: b :: c :: d :: rest) = _
    rw [Json.hexEscape.eq_def, if_neg enough]
    simp only [ha, hb, hc, hd]

theorem unicodeEscape_number {digits : List Char} {n : Nat} (number : HexNumber digits n)
    (single : n < 0xD800 ∨ 0xDFFF < n) (rest : List Char) :
    unicodeEscape (digits ++ rest) = .ok (Char.ofNat n, rest) := by
  have noLow : ¬(0xDC00 ≤ n ∧ n ≤ 0xDFFF) := by omega
  have noHigh : n < 0xD800 ∨ 0xDBFF < n := by omega
  simp [unicodeEscape, number.hexEscape rest, bind, Except.bind, noLow, noHigh, pure, Except.pure]

theorem unicodeEscape_surrogates {first second : List Char} {high low : Nat}
    (firstNumber : HexNumber first high) (above : 0xD800 ≤ high) (below : high ≤ 0xDBFF)
    (secondNumber : HexNumber second low) (lowAbove : 0xDC00 ≤ low) (lowBelow : low ≤ 0xDFFF)
    (rest : List Char) :
    unicodeEscape ((first ++ '\\' :: 'u' :: second) ++ rest)
      = .ok (Char.ofNat (0x10000 + (high - 0xD800) * 0x400 + (low - 0xDC00)), rest) := by
  have noLow : ¬(0xDC00 ≤ high ∧ high ≤ 0xDFFF) := by omega
  have isHigh : ¬(high < 0xD800 ∨ 0xDBFF < high) := by omega
  have isLow : 0xDC00 ≤ low ∧ low ≤ 0xDFFF := ⟨lowAbove, lowBelow⟩
  rw [List.append_assoc]
  simp [unicodeEscape, firstNumber.hexEscape, secondNumber.hexEscape rest, bind, Except.bind, noLow,
    isHigh, isLow, pure, Except.pure]

/-- A character is read in one step, however it is written. -/
theorem SpellsChar.stringBody {unit : List Char} {c : Char} (spells : SpellsChar unit c)
    (fuel : Nat) (rest : List Char) :
    stringBody (fuel + 1) (unit ++ rest) = do
      let (more, rest) ← stringBody fuel rest
      return (c :: more, rest) := by
  -- a character is written as itself, by a short escape, by its number or by a surrogate pair
  cases spells with
  | plain isPlain =>
    simp only [Json.isPlain, Bool.and_eq_true, decide_eq_true_eq] at isPlain
    obtain ⟨⟨noQuote, noEscape⟩, printable⟩ := isPlain
    rw [List.singleton_append, Json.stringBody.eq_def]
    simp [Nat.not_lt.mpr printable]
  | @short e _ isShort =>
    have noNumber : e ≠ 'u' := by
      rintro rfl
      simp [shortEscape?] at isShort
    simp [Json.stringBody, isShort, bind, Except.bind]
  | number digits single =>
    simp [Json.stringBody, unicodeEscape_number digits single, bind, Except.bind]
  | surrogates first above below second lowAbove lowBelow =>
    have escape := unicodeEscape_surrogates first above below second lowAbove lowBelow rest
    rw [List.cons_append, List.cons_append]
    simp only [Json.stringBody, escape, bind, Except.bind]

theorem Spells.stringBody {body text : List Char} (spells : Spells body text) (rest : List Char) :
    ∀ fuel, body.length < fuel →
      stringBody fuel (body ++ '\x22' :: rest) = .ok (text, rest) := by
  induction spells with
  | nil =>
    intro fuel enough
    cases fuel with
    | zero => omega
    | succ fuel => rfl
  | @cons unit body text c unitSpells _ ih =>
    intro fuel enough
    -- one unit of fuel is spent on a character, which is written with one or more
    have shown : 0 < unit.length := by
      cases unitSpells <;> simp
    rw [List.length_append] at enough
    cases fuel with
    | zero => omega
    | succ fuel =>
      rw [List.append_assoc, unitSpells.stringBody, ih fuel (by omega)]
      rfl

/-- A written string gives its text. -/
theorem Spells.string {body text : List Char} (spells : Spells body text) (rest : List Char) :
    string (body ++ '\x22' :: rest) = .ok (text, rest) :=
  spells.stringBody rest _ (by rw [List.length_append]; omega)

theorem IsStringBody.skipStringBody {body : List Char} (isBody : IsStringBody body)
    (rest : List Char) :
    ∀ fuel, body.length < fuel → skipStringBody fuel (body ++ '\x22' :: rest) = .ok rest := by
  -- by induction over the body; fuel beyond its length is enough, as each step takes a character at
  -- least
  induction isBody with
  | nil =>
    intro fuel enough
    cases fuel with
    | zero => omega
    | succ fuel => rfl
  | @plain c body isPlain _ ih =>
    intro fuel enough
    simp only [Json.isPlain, Bool.and_eq_true, decide_eq_true_eq] at isPlain
    obtain ⟨⟨noQuote, noEscape⟩, printable⟩ := isPlain
    cases fuel with
    | zero => omega
    | succ fuel =>
      rw [List.cons_append, Json.skipStringBody.eq_def]
      simp only [List.length_cons, Nat.add_lt_add_iff_right] at enough
      simp [Nat.not_lt.mpr printable, ih fuel enough]
  | @short e body isShort _ ih =>
    intro fuel enough
    have noNumber : e ≠ 'u' := by
      rintro rfl
      simp [shortEscape?] at isShort
    cases fuel with
    | zero => omega
    | succ fuel =>
      simp only [List.length_cons] at enough
      simp [Json.skipStringBody, isShort, ih fuel (by omega)]
  | @number digits body n isNumber _ ih =>
    intro fuel enough
    cases fuel with
    | zero => omega
    | succ fuel =>
      simp only [List.length_cons, List.length_append] at enough
      simp [Json.skipStringBody, isNumber.hexEscape, bind, Except.bind, ih fuel (by omega)]

/-! Writing -/

theorem hexValue?_hexDigit {n : Nat} (small : n < 16) : hexValue? (hexDigit n) = some n := by
  have all : ∀ i : Fin 16, hexValue? (hexDigit i) = some i.val := by decide
  exact all ⟨n, small⟩

/-- The escaped form of a character spells it. -/
theorem spellsChar_escape (c : Char) : SpellsChar (escape c) c := by
  unfold escape
  split_ifs with isQuote isEscape isBack isTab isLine isFeed isReturn isControl
  · exact .short (by simp [shortEscape?, isQuote])
  · exact .short (by simp [shortEscape?, isEscape])
  · exact .short (by simp [shortEscape?, isBack])
  · exact .short (by simp [shortEscape?, isTab])
  · exact .short (by simp [shortEscape?, isLine])
  · exact .short (by simp [shortEscape?, isFeed])
  · exact .short (by simp [shortEscape?, isReturn])
  · -- a control character without a short form is written with its number
    have zero : hexValue? '0' = some 0 := by decide
    have digits := HexNumber.digits zero zero (hexValue?_hexDigit (n := c.toNat / 16) (by omega))
      (hexValue?_hexDigit (n := c.toNat % 16) (by omega))
    have number : ((0 * 16 + 0) * 16 + c.toNat / 16) * 16 + c.toNat % 16 = c.toNat := by omega
    rw [number] at digits
    have spells := SpellsChar.number digits (by omega)
    rwa [Char.ofNat_toNat] at spells
  · exact .plain (by simp [isPlain, isQuote, isEscape, Nat.le_of_not_lt isControl])

theorem spells_escape (text : List Char) : Spells (text.flatMap escape) text := by
  induction text with
  | nil => exact .nil
  | cons c rest ih => exact .cons (spellsChar_escape c) ih

end Concord.Json
