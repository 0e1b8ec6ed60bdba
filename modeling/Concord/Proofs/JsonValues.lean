import Concord.Proofs.JsonNumbers
import Mathlib.Data.List.DropRight

/-!
The grammar of JSON values, nested as deep as one likes and with space between all parts. Every
text of the grammar is stepped over as a whole by the reader that ignores values.
-/
namespace Concord.Json

/-- One item of an array as it is written, with the space around it. -/
structure Element where
  before : List Char
  value : List Char
  behind : List Char

def Element.text (element : Element) : List Char :=
  element.before ++ (element.value ++ element.behind)

structure Element.Spaced (element : Element) : Prop where
  before : IsSpaced element.before
  behind : IsSpaced element.behind

/-- The texts of JSON values. -/
inductive IsValue : List Char → Prop where
  | null : IsValue "null".toList
  | bool (value : Bool) : IsValue (Value.bool value).render
  | number {text : List Char} {n : Numeral} : WritesNumeral text n → IsValue text
  | negative {text : List Char} {n : Numeral} : WritesNumeral text n → IsValue ('-' :: text)
  | string {body : List Char} : IsStringBody body → IsValue ('\x22' :: (body ++ ['\x22']))
  | array {elements : List Element} {gap : List Char} :
    (∀ element ∈ elements, element.Spaced) → (∀ element ∈ elements, IsValue element.value) →
    IsSpaced gap →
      IsValue ('[' :: (commaSeparated (elements.map Element.text) ++ (gap ++ [']'])))
  | object {members : List Member} {gap : List Char} :
    (∀ member ∈ members, member.Spaced) → (∀ member ∈ members, IsStringBody member.name) →
    (∀ member ∈ members, IsValue member.value) → IsSpaced gap →
      IsValue ('\x7b' :: (commaSeparated (members.map Member.text) ++ (gap ++ ['\x7d'])))

/-- The text is stepped over wherever it stands, with as much fuel as it has characters. -/
structure Skips (text : List Char) : Prop where
  opens : Opens text
  skips : ∀ fuel space rest, text.length ≤ fuel → IsSpaced space → Ends rest →
    skipValue fuel (space ++ (text ++ rest)) = .ok rest

/-- A text is stepped over if it is behind its first character, without space in front. -/
theorem skips_of {c : Char} {more : List Char} (shown : isSpace c = false) (noComma : c ≠ ',')
    (noClose : c ≠ ']')
    (reads : ∀ fuel rest, more.length ≤ fuel → Ends rest →
      skipValue (fuel + 1) (c :: (more ++ rest)) = .ok rest) : Skips (c :: more) where
  opens := ⟨c, more, rfl, shown, noComma, noClose⟩
  skips := by
    intro fuel space rest enough spaced ends
    cases fuel with
    | zero => simp at enough
    | succ fuel =>
      have bare := reads fuel rest (by simpa using enough) ends
      rw [skipValue, skipSpace_shown shown] at bare
      rw [List.cons_append, skipValue, skipSpace_spaced spaced, skipSpace_shown shown]
      exact bare

theorem WritesNumeral.skipNumber {text : List Char} {n : Numeral} (writes : WritesNumeral text n)
    {rest : List Char} (ends : Ends rest) : skipNumber (text ++ rest) = .ok rest := by
  rw [Json.skipNumber, writes.numeral .malformed ends]
  rfl

theorem WritesNumeral.exists_cons {text : List Char} {n : Numeral}
    (writes : WritesNumeral text n) : ∃ c more, text = c :: more ∧ c.isDigit = true := by
  cases writes with
  | parts isWhole _ _ _ =>
    obtain ⟨c, rest, rfl, isDigit⟩ := isWhole.exists_cons
    exact ⟨c, _, rfl, isDigit⟩

/-- A numeral starts with a digit, by which the reader knows it. -/
theorem WritesNumeral.skips {text : List Char} {n : Numeral} (writes : WritesNumeral text n) :
    Skips text := by
  obtain ⟨c, more, rfl, isDigit⟩ := writes.exists_cons
  have ne (d : Char) (noDigit : d.isDigit = false) : c ≠ d := by
    rintro rfl
    exact absurd isDigit (by simp [noDigit])
  have shown := isSpace_of_isDigit isDigit
  refine skips_of shown (ne ',' (by decide)) (ne ']' (by decide)) fun fuel rest _ ends => ?_
  have skipped := writes.skipNumber ends
  rw [List.cons_append] at skipped
  have noNull := ne 'n' (by decide)
  have noTrue := ne 't' (by decide)
  have noFalse := ne 'f' (by decide)
  have noQuote := ne '\x22' (by decide)
  have noMinus := ne '-' (by decide)
  have noArray := ne '[' (by decide)
  have noObject := ne '\x7b' (by decide)
  rw [skipValue, skipSpace_shown shown]
  simp [isDigit, skipped]

/-! Space in front -/

theorem skipSpace_skipSpace (text : List Char) : skipSpace (skipSpace text) = skipSpace text :=
  List.dropWhile_idempotent isSpace text

/-- Space in front of a value does not matter. -/
theorem skipValue_skipSpace (fuel : Nat) (text : List Char) :
    skipValue fuel (skipSpace text) = skipValue fuel text := by
  cases fuel with
  | zero => rfl
  | succ fuel => rw [skipValue, skipValue, skipSpace_skipSpace]

theorem skipItems_skipSpace (fuel : Nat) (text : List Char) :
    skipItems fuel (skipSpace text) = skipItems fuel text := by
  cases fuel with
  | zero => rfl
  | succ fuel => rw [skipItems, skipItems, skipValue_skipSpace]

theorem skipFields_skipSpace (fuel : Nat) (text : List Char) :
    skipFields fuel (skipSpace text) = skipFields fuel text := by
  cases fuel with
  | zero => rfl
  | succ fuel => rw [skipFields, skipFields, skipSpace_skipSpace]

/-! Loops -/

/-- With enough fuel the loop steps over the text. It goes on behind a comma and ends behind the
closer. -/
structure StepsOver (loop : Nat → List Char → Except Problem (List Char)) (closer : Char)
    (text : List Char) : Prop where
  again : ∀ fuel rest, text.length ≤ fuel → loop (fuel + 1) (text ++ ',' :: rest) = loop fuel rest
  last : ∀ fuel gap rest, text.length ≤ fuel → IsSpaced gap →
    loop (fuel + 1) (text ++ (gap ++ closer :: rest)) = .ok rest

/-- A loop that steps over each of the texts runs over all of them. -/
theorem loop_commaSeparated {loop : Nat → List Char → Except Problem (List Char)} {closer : Char}
    {texts : List (List Char)} {gap : List Char} (gapSpaced : IsSpaced gap) (rest : List Char) :
    ∀ (first : List Char) (fuel : Nat), (∀ text ∈ first :: texts, StepsOver loop closer text) →
      (commaSeparated (first :: texts)).length < fuel →
        loop fuel (commaSeparated (first :: texts) ++ (gap ++ closer :: rest)) = .ok rest := by
  -- the fuel is spent one by one, and each text is at least as long as what it costs
  induction texts with
  | nil =>
    intro first fuel steps enough
    rw [commaSeparated_cons, afterCommas_nil, List.append_nil] at enough ⊢
    cases fuel with
    | zero => omega
    | succ fuel => exact (steps first (by simp)).last fuel gap rest (by omega) gapSpaced
  | cons second texts ih =>
    intro first fuel steps enough
    rw [commaSeparated_cons, afterCommas_cons, ← commaSeparated_cons] at enough ⊢
    rw [List.length_append, List.length_cons] at enough
    cases fuel with
    | zero => omega
    | succ fuel =>
      rw [List.append_assoc, List.cons_append, (steps first (by simp)).again fuel _ (by omega)]
      exact ih second fuel (fun text later => steps text (by simp [later])) (by omega)

/-! Arrays -/

/-- Behind an item the array goes on at what follows it. -/
theorem Element.Spaced.skipItems {element : Element} (spaced : element.Spaced)
    (skips : Skips element.value) {fuel : Nat} (enough : element.text.length ≤ fuel)
    {more : List Char} (ends : Ends more) :
    skipItems (fuel + 1) (element.text ++ more) =
      match skipSpace more with
      | [] => .error .truncated
      | ',' :: rest => Json.skipItems fuel rest
      | ']' :: rest => .ok rest
      | _ => .error .malformed := by
  simp only [Element.text, List.length_append] at enough
  have read := skips.skips fuel element.before _ (by omega) spaced.before
    (.behind spaced.behind ends)
  rw [← skipSpace_spaced spaced.behind, Element.text, List.append_assoc, List.append_assoc,
    Json.skipItems, read]
  rfl

theorem Element.Spaced.stepsOver {element : Element} (spaced : element.Spaced)
    (skips : Skips element.value) : StepsOver Json.skipItems ']' element.text where
  again := by
    intro fuel rest enough
    rw [spaced.skipItems skips enough (ends_cons (.inl rfl) rest), skipSpace_shown (by decide)]
    rfl
  last := by
    intro fuel gap rest enough gapSpaced
    rw [spaced.skipItems skips enough (.behind gapSpaced (ends_cons (by simp) rest)),
      skipSpace_spaced gapSpaced, skipSpace_shown (by decide)]
    rfl

theorem Skips.array {elements : List Element} {gap : List Char}
    (spaced : ∀ element ∈ elements, element.Spaced)
    (skips : ∀ element ∈ elements, Skips element.value) (gapSpaced : IsSpaced gap) :
    Skips ('[' :: (commaSeparated (elements.map Element.text) ++ (gap ++ [']']))) := by
  refine skips_of (by decide) (by decide) (by decide) fun fuel rest enough _ => ?_
  rw [List.append_assoc, List.append_assoc, List.singleton_append, skipValue,
    skipSpace_shown (by decide)]
  cases elements with
  | nil =>
    have closes : skipSpace (gap ++ ']' :: rest) = ']' :: rest := by
      rw [skipSpace_spaced gapSpaced, skipSpace_shown (by decide)]
    rw [List.map_nil, commaSeparated, List.nil_append]
    simp only [closes]
  | cons first elements =>
    have steps : ∀ text ∈ (first :: elements).map Element.text,
        StepsOver skipItems ']' text := by
      intro text written
      obtain ⟨element, listed, rfl⟩ := List.mem_map.mp written
      exact (spaced element listed).stepsOver (skips element listed)
    have shorter : (commaSeparated ((first :: elements).map Element.text)).length < fuel := by
      simp only [List.length_append, List.length_singleton] at enough
      omega
    have items := loop_commaSeparated gapSpaced rest first.text fuel steps shorter
    -- an array that is not empty does not close where its first item starts
    obtain ⟨c, tail, starts, noClose⟩ : ∃ c tail, skipSpace (commaSeparated
        ((first :: elements).map Element.text) ++ (gap ++ ']' :: rest)) = c :: tail ∧ c ≠ ']' := by
      rw [List.map_cons, commaSeparated_cons, Element.text, List.append_assoc, List.append_assoc,
        List.append_assoc, skipSpace_spaced (spaced first (by simp)).before]
      obtain ⟨c, more, shown, dark, -, noClose⟩ := (skips first (by simp)).opens
      rw [shown]
      exact ⟨c, _, skipSpace_shown dark _, noClose⟩
    rw [← List.map_cons, ← skipItems_skipSpace, starts] at items
    simp only [starts]
    simp [noClose, items]

/-! Objects -/

/-- Behind a member the object goes on at what follows it. -/
theorem Member.Spaced.skipFields {member : Member} (spaced : member.Spaced)
    (named : IsStringBody member.name) (skips : Skips member.value) {fuel : Nat}
    (enough : member.text.length ≤ fuel) {more : List Char} (ends : Ends more) :
    skipFields (fuel + 1) (member.text ++ more) =
      match skipSpace more with
      | [] => .error .truncated
      | ',' :: rest => Json.skipFields fuel rest
      | '\x7d' :: rest => .ok rest
      | _ => .error .malformed := by
  simp only [Member.text, List.length_append, List.length_cons] at enough
  have read := skips.skips fuel member.beforeValue _ (by omega) spaced.beforeValue
    (.behind spaced.behind ends)
  let content := member.behindName ++ ':' :: (member.beforeValue ++
    (member.value ++ (member.behind ++ more)))
  have name : skipStringBody ((member.name ++ '\x22' :: content).length + 1)
      (member.name ++ '\x22' :: content) = .ok content :=
    named.skipStringBody content _ (by rw [List.length_append]; omega)
  have colon : skipSpace content = ':' :: (member.beforeValue ++
      (member.value ++ (member.behind ++ more))) := by
    rw [skipSpace_spaced spaced.behindName, skipSpace_shown (by decide)]
  have opens : skipSpace (member.text ++ more) = '\x22' :: (member.name ++ '\x22' :: content) :=
    spaced.skipSpace_text more
  -- the name, the colon and the value are stepped over one after the other
  rw [← skipSpace_spaced spaced.behind, Json.skipFields, opens]
  have goesOn (next : List Char → Except Problem (List Char)) :
      (Except.ok content >>= next) = next content := rfl
  simp only [name, goesOn, colon]
  rw [read]
  rfl

theorem Member.Spaced.stepsOver {member : Member} (spaced : member.Spaced)
    (named : IsStringBody member.name) (skips : Skips member.value) :
    StepsOver Json.skipFields '\x7d' member.text where
  again := by
    intro fuel rest enough
    rw [spaced.skipFields named skips enough (ends_cons (.inl rfl) rest),
      skipSpace_shown (by decide)]
    rfl
  last := by
    intro fuel gap rest enough gapSpaced
    rw [spaced.skipFields named skips enough (.behind gapSpaced (ends_cons (by simp) rest)),
      skipSpace_spaced gapSpaced, skipSpace_shown (by decide)]
    rfl

theorem Skips.object {members : List Member} {gap : List Char}
    (spaced : ∀ member ∈ members, member.Spaced)
    (named : ∀ member ∈ members, IsStringBody member.name)
    (skips : ∀ member ∈ members, Skips member.value) (gapSpaced : IsSpaced gap) :
    Skips ('\x7b' :: (commaSeparated (members.map Member.text) ++ (gap ++ ['\x7d']))) := by
  refine skips_of (by decide) (by decide) (by decide) fun fuel rest enough _ => ?_
  rw [List.append_assoc, List.append_assoc, List.singleton_append, skipValue,
    skipSpace_shown (by decide)]
  cases members with
  | nil =>
    have closes : Json.skipSpace (gap ++ '\x7d' :: rest) = '\x7d' :: rest := by
      rw [skipSpace_spaced gapSpaced, skipSpace_shown (by decide)]
    rw [List.map_nil, commaSeparated, List.nil_append]
    simp only [closes]
  | cons first members =>
    have steps : ∀ text ∈ (first :: members).map Member.text,
        StepsOver skipFields '\x7d' text := by
      intro text written
      obtain ⟨member, listed, rfl⟩ := List.mem_map.mp written
      exact (spaced member listed).stepsOver (named member listed) (skips member listed)
    have shorter : (commaSeparated ((first :: members).map Member.text)).length < fuel := by
      simp only [List.length_append, List.length_singleton] at enough
      omega
    have fields := loop_commaSeparated gapSpaced rest first.text fuel steps shorter
    -- a member starts with a quote
    obtain ⟨tail, starts⟩ : ∃ tail, skipSpace (commaSeparated
        ((first :: members).map Member.text) ++ (gap ++ '\x7d' :: rest)) = '\x22' :: tail := by
      rw [List.map_cons, commaSeparated_cons, List.append_assoc]
      exact ⟨_, (spaced first (by simp)).skipSpace_text _⟩
    rw [← List.map_cons, ← skipFields_skipSpace, starts] at fields
    simp only [starts]
    exact fields

/-- Every JSON value is stepped over. -/
theorem IsValue.skips {text : List Char} (isValue : IsValue text) : Skips text := by
  -- the first character tells the kind of the value, so each kind is stepped over on its own
  induction isValue with
  | null =>
    exact skips_of (by decide) (by decide) (by decide) fun fuel rest _ _ => rfl
  | bool value =>
    cases value <;>
      exact skips_of (by decide) (by decide) (by decide) fun fuel rest _ _ => rfl
  | number writes => exact writes.skips
  | negative writes =>
    refine skips_of (by decide) (by decide) (by decide) fun fuel rest _ ends => ?_
    rw [skipValue, skipSpace_shown (by decide)]
    exact writes.skipNumber ends
  | string isBody =>
    refine skips_of (by decide) (by decide) (by decide) fun fuel rest _ ends => ?_
    rw [skipValue, skipSpace_shown (by decide), List.append_assoc]
    exact isBody.skipStringBody rest _ (by rw [List.length_append]; omega)
  | array spaced _ gapSpaced skips => exact .array spaced skips gapSpaced
  | object spaced named _ gapSpaced skips => exact .object spaced named skips gapSpaced

/-- A value that does not matter is stepped over, with the space in front of it. -/
theorem IsValue.ignore {text : List Char} (isValue : IsValue text) {space rest : List Char}
    (spaced : IsSpaced space) (ends : Ends rest) : ignore (space ++ (text ++ rest)) = .ok rest :=
  isValue.skips.skips _ space rest (by simp; omega) spaced ends

end Concord.Json
