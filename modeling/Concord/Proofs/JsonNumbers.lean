import Concord.Proofs.JsonTexts
import Concord.Json.Record

/-!
Numbers in JSON texts: the grammar of numerals, whose digits the reader takes apart, and the
decimal digits of a natural number, which are read as that number.
-/
namespace Concord.Json

open Concord.Scan

def IsDigits (digits : List Char) : Prop :=
  digits ≠ [] ∧ ∀ c ∈ digits, c.isDigit = true

/-- What may be written for the digits behind the point. -/
inductive WritesFraction : List Char → List Char → Prop where
  | none : WritesFraction [] []
  | digits {digits : List Char} : IsDigits digits → WritesFraction ('.' :: digits) digits

/-- What may be written for an exponent, which is negative or not. -/
inductive WritesExponent : List Char → Bool → List Char → Prop where
  | none : WritesExponent [] false []
  | bare {e : Char} {digits : List Char} :
    e = 'e' ∨ e = 'E' → IsDigits digits → WritesExponent (e :: digits) false digits
  | plus {e : Char} {digits : List Char} :
    e = 'e' ∨ e = 'E' → IsDigits digits → WritesExponent (e :: '+' :: digits) false digits
  | minus {e : Char} {digits : List Char} :
    e = 'e' ∨ e = 'E' → IsDigits digits → WritesExponent (e :: '-' :: digits) true digits

/-- What may be written for a numeral. A first zero is the only digit before the point. -/
inductive WritesNumeral : List Char → Numeral → Prop where
  | parts {whole fractionText fraction exponentText exponent : List Char} {negative : Bool} :
    IsDigits whole → (whole.head? = some '0' → whole.length = 1) →
    WritesFraction fractionText fraction → WritesExponent exponentText negative exponent →
      WritesNumeral (whole ++ (fractionText ++ exponentText)) ⟨whole, fraction, negative, exponent⟩

theorem IsDigits.exists_cons {digits : List Char} (isDigits : IsDigits digits) :
    ∃ c rest, digits = c :: rest ∧ c.isDigit = true := by
  cases digits with
  | nil => exact absurd rfl isDigits.1
  | cons c rest => exact ⟨c, rest, rfl, isDigits.2 c (by simp)⟩

/-- What follows a value goes on with no numeral. -/
theorem Ends.outside {rest : List Char} (ends : Ends rest) :
    ∀ c ∈ rest.head?, c.isDigit = false ∧ c ≠ '.' ∧ c ≠ 'e' ∧ c ≠ 'E' := by
  intro c first
  rcases ends c first with space | rfl | rfl | rfl
  · simp only [isSpace, Bool.or_eq_true, decide_eq_true_eq] at space
    obtain ((rfl | rfl) | rfl) | rfl := space <;> decide
  all_goals decide

theorem Ends.isDigit {rest : List Char} (ends : Ends rest) :
    ∀ c ∈ rest.head?, c.isDigit = false :=
  fun c first => (ends.outside c first).1

theorem Ends.isDigit_exponent {rest : List Char} (ends : Ends rest) {text digits : List Char}
    {negative : Bool} (writes : WritesExponent text negative digits) :
    ∀ c ∈ (text ++ rest).head?, c.isDigit = false := by
  cases writes with
  | none => exact ends.isDigit
  | bare isE _ | plus isE _ | minus isE _ =>
    intro c first
    obtain rfl : _ = c := by simpa using first
    rcases isE with rfl | rfl <;> decide

theorem Ends.isDigit_fraction {rest : List Char} (ends : Ends rest)
    {fractionText fraction exponentText exponent : List Char} {negative : Bool}
    (writesFraction : WritesFraction fractionText fraction)
    (writesExponent : WritesExponent exponentText negative exponent) :
    ∀ c ∈ (fractionText ++ (exponentText ++ rest)).head?, c.isDigit = false := by
  cases writesFraction with
  | none => exact ends.isDigit_exponent writesExponent
  | digits _ =>
    intro c first
    obtain rfl : '.' = c := by simpa using first
    decide

/-- The digits at the front, of which there must be one. -/
def digitsAt (atEnd : Problem) (text : List Char) : Except Problem (List Char × List Char) :=
  match text with
  | [] => .error atEnd
  | c :: _ =>
    if c.isDigit then .ok (text.takeWhile Char.isDigit, text.dropWhile Char.isDigit)
    else .error .malformed

def fractionAt (atEnd : Problem) (text : List Char) : Except Problem (List Char × List Char) :=
  match text with
  | '.' :: rest => digitsAt atEnd rest
  | rest => .ok ([], rest)

/-- The sign and the digits of the exponent at the front. -/
def exponentAt (atEnd : Problem) (text : List Char) :
    Except Problem ((Bool × List Char) × List Char) :=
  match text with
  | e :: rest =>
    if e = 'e' || e = 'E' then do
      let (negative, rest) :=
        match rest with
        | '+' :: rest => (false, rest)
        | '-' :: rest => (true, rest)
        | rest => (false, rest)
      let (exponent, rest) ← digitsAt atEnd rest
      return ((negative, exponent), rest)
    else return ((false, []), e :: rest)
  | [] => return ((false, []), [])

theorem numeral_eq (atEnd : Problem) (text : List Char) :
    numeral atEnd text = do
      let (whole, rest) ← digitsAt atEnd text
      if whole.head? = some '0' && whole.length > 1 then .error .malformed
      else
        let (fraction, rest) ← fractionAt atEnd rest
        let ((negative, exponent), rest) ← exponentAt atEnd rest
        return (⟨whole, fraction, negative, exponent⟩, rest) := by
  rw [numeral]
  change (digitsAt atEnd text >>= _) = _
  refine bind_congr fun ⟨whole, rest⟩ => ?_
  dsimp only
  split_ifs
  · rfl
  -- What follows the fraction is the same whether there is a point or not.
  have exponent (fraction rest : List Char) :
      (match rest with
        | e :: rest =>
          if e = 'e' || e = 'E' then do
            let (negative, rest) :=
              match rest with
              | '+' :: rest => (false, rest)
              | '-' :: rest => (true, rest)
              | rest => (false, rest)
            let (exponent, rest) ← digitsAt atEnd rest
            return (Numeral.mk whole fraction negative exponent, rest)
          else return (Numeral.mk whole fraction false [], e :: rest)
        | [] => return (Numeral.mk whole fraction false [], [])) = do
        let ((negative, exponent), rest) ← exponentAt atEnd rest
        return (⟨whole, fraction, negative, exponent⟩, rest) := by
    cases rest with
    | nil => rfl
    | cons e rest =>
      simp only [exponentAt]
      split_ifs
      · simp only [bind_assoc, pure_bind]
      · rfl
  cases rest with
  | nil => rfl
  | cons c rest =>
    by_cases point : c = '.'
    · subst point
      refine bind_congr fun ⟨fraction, rest⟩ => exponent fraction rest
    · have bare : fractionAt atEnd (c :: rest) = .ok ([], c :: rest) := by
        simp [fractionAt, point]
      rw [bare]
      refine Eq.trans ?_ (exponent [] (c :: rest))
      split
      · next same => exact absurd (List.cons.inj same).1 point
      · rfl

theorem IsDigits.digitsAt {digits : List Char} (isDigits : IsDigits digits) (atEnd : Problem)
    {rest : List Char} (ends : ∀ c ∈ rest.head?, c.isDigit = false) :
    digitsAt atEnd (digits ++ rest) = .ok (digits, rest) := by
  obtain ⟨taken, dropped⟩ := takeWhile_append_of isDigits.2 ends
  obtain ⟨c, more, rfl, isDigit⟩ := isDigits.exists_cons
  rw [List.cons_append, Json.digitsAt, if_pos isDigit, ← List.cons_append, taken, dropped]

theorem WritesExponent.exponentAt {text digits : List Char} {negative : Bool}
    (writes : WritesExponent text negative digits) (atEnd : Problem) {rest : List Char}
    (ends : Ends rest) :
    exponentAt atEnd (text ++ rest) = .ok ((negative, digits), rest) := by
  -- an exponent is absent, or has digits behind its sign
  cases writes with
  | none =>
    cases rest with
    | nil => rfl
    | cons c rest =>
      have noE := (ends.outside c (by simp)).2.2
      simp [Json.exponentAt, noE, pure, Except.pure]
  | bare isE isDigits =>
    have read := isDigits.digitsAt atEnd ends.isDigit
    obtain ⟨c, more, rfl, isDigit⟩ := isDigits.exists_cons
    have noSign : c ≠ '+' ∧ c ≠ '-' := by
      constructor <;> rintro rfl <;> exact absurd isDigit (by decide)
    simp only [List.cons_append] at read ⊢
    simp [Json.exponentAt, isE, noSign, read, bind, Except.bind, pure, Except.pure]
  | plus isE isDigits | minus isE isDigits =>
    have read := isDigits.digitsAt atEnd ends.isDigit
    simp [Json.exponentAt, isE, read, bind, Except.bind, pure, Except.pure]

theorem WritesFraction.fractionAt {fractionText fraction exponentText exponent : List Char}
    {negative : Bool} (writesFraction : WritesFraction fractionText fraction)
    (writesExponent : WritesExponent exponentText negative exponent) (atEnd : Problem)
    {rest : List Char} (ends : Ends rest) :
    fractionAt atEnd (fractionText ++ (exponentText ++ rest))
      = .ok (fraction, exponentText ++ rest) := by
  cases writesFraction with
  | digits isDigits => exact isDigits.digitsAt atEnd (ends.isDigit_exponent writesExponent)
  | none =>
    have noPoint : ∀ c ∈ (exponentText ++ rest).head?, c ≠ '.' := by
      intro c first
      cases writesExponent with
      | none => exact (ends.outside c first).2.1
      | bare isE _ | plus isE _ | minus isE _ =>
        obtain rfl : _ = c := by simpa using first
        rcases isE with rfl | rfl <;> decide
    rw [List.nil_append, Json.fractionAt]
    intro behind same
    exact noPoint '.' (by simp [same]) rfl

/-- A written numeral is read as its digits. -/
theorem WritesNumeral.numeral {text : List Char} {n : Numeral} (writes : WritesNumeral text n)
    (atEnd : Problem) {rest : List Char} (ends : Ends rest) :
    numeral atEnd (text ++ rest) = .ok (n, rest) := by
  cases writes with
  | @parts whole fractionText fraction exponentText exponent negative isWhole zero
      writesFraction writesExponent =>
  have readWhole := isWhole.digitsAt atEnd (ends.isDigit_fraction writesFraction writesExponent)
  have readExponent := writesExponent.exponentAt atEnd ends
  -- the reader refuses a zero in front, which no numeral has
  have noZero : ¬(whole.head? = some '0' ∧ 1 < whole.length) := by
    rintro ⟨isZero, long⟩
    have := zero isZero
    omega
  have readFraction := writesFraction.fractionAt writesExponent atEnd ends
  rw [List.append_assoc, List.append_assoc, numeral_eq, readWhole]
  simp only [bind, Except.bind, readFraction, readExponent]
  rw [if_neg (by simpa using noZero)]
  rfl

/-! Natural numbers -/

theorem isDigits_toDigits (n : Nat) : IsDigits (Nat.toDigits 10 n) :=
  ⟨Nat.toDigits_ne_nil, fun _ => Nat.isDigit_of_mem_toDigits (by decide) (by decide)⟩

theorem digitsValue_toDigits (n : Nat) : digitsValue (Nat.toDigits 10 n) = n := by
  have same : digitsValue (Nat.toDigits 10 n) = Nat.ofDigitChars 10 (Nat.toDigits 10 n) 0 := by
    simp only [digitsValue, Nat.ofDigitChars, Nat.mul_comm]
  rw [same, Nat.ofDigitChars_toDigits (by decide) (by decide)]

/-- Only zero is written with a zero in front. -/
theorem head?_toDigits {n : Nat} (positive : 0 < n) : (Nat.toDigits 10 n).head? ≠ some '0' := by
  induction n using Nat.strongRecOn with
  | ind n ih =>
    rcases Nat.lt_or_ge n 10 with small | large
    · rw [Nat.toDigits_of_lt_base small, List.head?_cons]
      intro isZero
      have := Nat.digitChar_eq_zero.mp (Option.some.inj isZero)
      omega
    · -- the first digit is that of the number without its last one
      have shorter := ih (n / 10) (by omega) (by omega)
      rw [Nat.toDigits_of_base_le (by decide) large]
      rwa [List.head?_append_of_ne_nil _ Nat.toDigits_ne_nil]

theorem writesNumeral_toDigits (n : Nat) :
    WritesNumeral (Nat.toDigits 10 n) ⟨Nat.toDigits 10 n, [], false, []⟩ := by
  have writes := WritesNumeral.parts (isDigits_toDigits n) ?_ .none .none
  · simpa using writes
  · intro isZero
    rcases Nat.eq_zero_or_pos n with rfl | positive
    · rfl
    · exact absurd isZero (head?_toDigits positive)

/-- A number below the limit is read from its digits. -/
theorem readNat_render {limit n : Nat} (below : n < limit) :
    ReadsAs (readNat limit) (Value.number n).render n where
  opens := by
    obtain ⟨c, rest, digits, isDigit⟩ := (isDigits_toDigits n).exists_cons
    refine ⟨c, rest, digits, isSpace_of_isDigit isDigit, ?_, ?_⟩
    all_goals rintro rfl; exact absurd isDigit (by decide)
  reads := by
    intro space rest spaced ends
    have read := (writesNumeral_toDigits n).numeral .truncated ends
    obtain ⟨c, more, digits, isDigit⟩ := (isDigits_toDigits n).exists_cons
    have shown : skipSpace (Nat.toDigits 10 n ++ rest) = Nat.toDigits 10 n ++ rest := by
      rw [digits, List.cons_append, skipSpace_shown (isSpace_of_isDigit isDigit)]
    change readNat limit (space ++ (Nat.toDigits 10 n ++ rest)) = _
    rw [readNat, skipSpace_spaced spaced, shown, read]
    simp [digitsValue_toDigits, below]

end Concord.Json
