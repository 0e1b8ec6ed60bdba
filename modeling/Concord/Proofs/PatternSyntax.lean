import Concord.Proofs.ItemCuts
import Concord.Proofs.MaskedLexemes

/-!
The syntax of destructuring patterns. A pattern is a tree of objects and arrays with its layout:
the blanks between its tokens, the keys of its fields and the defaults of its targets are part of
it, each with what makes it well-formed. From the tree come its text and its leaves, the names it
binds with their lines. Every entry of a pattern can be scanned in front of a comma or a closing
bracket, and no comma of its own is at depth 0.
-/
namespace Concord.Export

open Concord.Scan Concord.Text

/-! Parts of patterns -/

/-- Blanks between tokens. -/
structure Gap where
  text : List Char
  blank : text.all isAsciiBlank = true := by decide +kernel

/-- No blanks. -/
def Gap.empty : Gap :=
  ⟨[], by simp⟩

/-- One blank. -/
def Gap.space : Gap where
  text := [' ']

theorem Gap.space_ne_nil : Gap.space.text ≠ [] :=
  List.cons_ne_nil _ _

/-- A plain name. -/
structure Name where
  text : List Char
  plain : isIdentifier text = true := by decide +kernel

/-- A text that balances and does not run past its end. -/
structure Fragment where
  text : List Char
  contained : isContained text = true := by decide +kernel

/-- The text of a string without escapes, and the quote around it. -/
structure Literal where
  quote : Char
  text : List Char
  quotes : quote = '\x27' ∨ quote = '\x22' := by decide +kernel
  plain : (text.all fun x => x ≠ quote && x ≠ '\\' && x ≠ '\n') = true := by decide +kernel

/-- Digits, the letters of a base, an exponent or a suffix, and the marks of a number. -/
def isNumberPart (x : Char) : Bool :=
  isPlainPart x || x = '.' || x = '+' || x = '-'

/-- A number starts with a digit, or with a point and a digit. -/
def isNumber : List Char → Bool
  | [] => false
  | x :: rest => (x.isDigit || x = '.' && rest.head?.any Char.isDigit) && rest.all isNumberPart

structure Numeral where
  text : List Char
  number : isNumber text = true := by decide +kernel

/-- What a field of an object is found by. -/
inductive Key where
  | identifier (name : Name)
  | string (literal : Literal)
  | number (numeral : Numeral)
  | computed (expression : Fragment)

def Key.text : Key → List Char
  | identifier name => name.text
  | string literal => literal.quote :: (literal.text ++ [literal.quote])
  | number numeral => numeral.text
  | computed expression => '[' :: (expression.text ++ [']'])

/-- The default of a target, with the blanks around its `=`. It has no comma at depth 0 and makes no
other mark of the `=`. -/
structure Default extends Fragment where
  before : Gap
  after : Gap
  noComma : ((scan text).tokens.all fun t => !t.is ',') = true := by decide +kernel
  apart : (text.head?.all fun x => x ≠ '=' && x ≠ '>') = true := by decide +kernel

/-- What stands between a target and the blanks at the end of its entry. -/
def Default.text? : Option Default → List Char
  | none => []
  | some d => d.before.text ++ '=' :: (d.after.text ++ d.text)

/-! Patterns -/

mutual

/-- What a value is bound to: a name, or the entries of an object or an array. -/
inductive Target where
  | name (name : Name)
  | pattern (isObject : Bool) (entries : Entries isObject)

/-- The entries of a pattern from one on. A hole is nothing between commas; the place behind the
last comma of an object is one, too. -/
inductive Entries : Bool → Type
  | nil {isObject : Bool} : Entries isObject
  | hole {isObject : Bool} (gap : Gap) (more : Entries isObject) : Entries isObject
  | rest {isObject : Bool} (lead inner : Gap) (name : Name) (trail : Gap)
      (more : Entries isObject) : Entries isObject
  | item (lead : Gap) (target : Target) (default : Option Default) (trail : Gap)
      (more : Entries false) : Entries false
  | shorthand (lead : Gap) (name : Name) (default : Option Default) (trail : Gap)
      (more : Entries true) : Entries true
  | keyed (lead : Gap) (key : Key) (before after : Gap) (target : Target)
      (default : Option Default) (trail : Gap) (more : Entries true) : Entries true

end

/-- The brackets around a pattern. -/
def patternBracket (isObject : Bool) : Bracket :=
  if isObject then .curly else .square

/-- The entries of a pattern with the commas between them. -/
def joined : List (List Char) → List Char
  | [] => []
  | [text] => text
  | text :: next :: more => text ++ ',' :: joined (next :: more)

/-- The text of an entry that collects what is left. -/
def restText (lead inner : Gap) (name : Name) (trail : Gap) : List Char :=
  lead.text ++ ("...".toList ++ (inner.text ++ (name.text ++ trail.text)))

/-- The key of a field up to its target. -/
def keyText (key : Key) (before after : Gap) : List Char :=
  key.text ++ (before.text ++ ':' :: after.text)

/-- The text of an entry that binds `target` behind `head`. -/
def entryText (lead : Gap) (head target : List Char) (default : Option Default) (trail : Gap) :
    List Char :=
  lead.text ++ (head ++ (target ++ (Default.text? default ++ trail.text)))

mutual

def Target.text : Target → List Char
  | .name name => name.text
  | .pattern isObject entries =>
    (patternBracket isObject).opener :: (joined entries.texts ++ [(patternBracket isObject).closer])

/-- The texts of the entries. -/
def Entries.texts : {isObject : Bool} → Entries isObject → List (List Char)
  | _, .nil => []
  | _, .hole gap more => gap.text :: more.texts
  | _, .rest lead inner name trail more => restText lead inner name trail :: more.texts
  | _, .item lead target default trail more =>
    entryText lead [] target.text default trail :: more.texts
  | _, .shorthand lead name default trail more =>
    entryText lead [] name.text default trail :: more.texts
  | _, .keyed lead key before after target default trail more =>
    entryText lead (keyText key before after) target.text default trail :: more.texts

end

mutual

/-- The leaves of a target that starts on `line`: the names it binds, each on the line where it
stands. -/
def Target.leaves (line : Nat) : Target → List Binding
  | .name name => [⟨name.text, line⟩]
  | .pattern _ entries => entries.leaves line

/-- The leaves of entries that start on `line`. A name that collects what is left stands where its
dots do. -/
def Entries.leaves (line : Nat) : {isObject : Bool} → Entries isObject → List Binding
  | _, .nil => []
  | _, .hole gap more => more.leaves (line + lineBreaks gap.text)
  | _, .rest lead inner name trail more =>
    ⟨name.text, line + lineBreaks lead.text⟩ ::
      more.leaves (line + lineBreaks (restText lead inner name trail))
  | _, .item lead target default trail more =>
    target.leaves (line + lineBreaks lead.text) ++
      more.leaves (line + lineBreaks (entryText lead [] target.text default trail))
  | _, .shorthand lead name default trail more =>
    ⟨name.text, line + lineBreaks lead.text⟩ ::
      more.leaves (line + lineBreaks (entryText lead [] name.text default trail))
  | _, .keyed lead key before after target default trail more =>
    let head := keyText key before after
    target.leaves (line + lineBreaks lead.text + lineBreaks head) ++
      more.leaves (line + lineBreaks (entryText lead head target.text default trail))

end

/-! Characters -/

theorem isStopper_of_isAsciiBlank {x : Char} (blank : isAsciiBlank x = true) :
    isStopper x = true := by
  simp only [isAsciiBlank, Bool.or_eq_true, decide_eq_true_eq] at blank
  rcases blank with (((rfl | rfl) | rfl) | rfl) | rfl <;> decide

theorem isStopper_closer (bracket : Bracket) : isStopper bracket.closer = true := by
  cases bracket <;> decide

theorem isWordPart_of_isStopper {x : Char} (stops : isStopper x = true) : isWordPart x = false := by
  simp only [isStopper, Bool.and_eq_true, Bool.not_eq_true'] at stops
  exact stops.1.1.1

/-- A plain character is no blank, no bracket and no mark. -/
theorem ne_of_isPlainPart {x y : Char} (plain : isPlainPart x = true)
    (other : isPlainPart y = false) : x ≠ y := by
  rintro rfl
  rw [plain] at other
  cases other

theorem isPlainPart_range {x : Char} (plain : isPlainPart x = true) :
    x.toNat = 36 ∨ 48 ≤ x.toNat ∧ x.toNat ≤ 122 := by
  simp only [isPlainPart, isPlainStart, Bool.or_eq_true, decide_eq_true_eq] at plain
  rcases plain with ((letter | rfl) | rfl) | digit
  · rcases (Bool.or_eq_true _ _).mp letter with upper | lower
    · obtain ⟨low, high⟩ : 65 ≤ x.toNat ∧ x.toNat ≤ 90 := of_decide_eq_true upper
      omega
    · obtain ⟨low, high⟩ := (Bool.and_eq_true _ _).mp lower
      have low : 97 ≤ x.toNat := of_decide_eq_true low
      have high : x.toNat ≤ 122 := of_decide_eq_true high
      omega
  · decide
  · decide
  · obtain ⟨value, rfl⟩ := Masking.isDigit_cases digit
    revert value
    decide

theorem isBlank_of_isPlainPart {x : Char} (plain : isPlainPart x = true) : isBlank x = false := by
  have range := isPlainPart_range plain
  by_contra blank
  simp only [Bool.not_eq_false, isBlank, Bool.or_eq_true, Bool.and_eq_true, decide_eq_true_eq]
    at blank
  omega

/-! Reading -/

/-- The blanks of a gap, one by one. -/
def Gap.items (gap : Gap) : List Item :=
  gap.text.map fun x => .gap [x]

theorem Gap.source_items (gap : Gap) (items : List Item) :
    Item.source (gap.items ++ items) = gap.text ++ Item.source items := by
  simp [Gap.items, Item.source, List.flatMap_map, Item.text]

theorem Gap.reads (gap : Gap) {flag last : Bool} {items : List Item} {rest : List Char}
    (reads : Reads flag items rest last) : Reads flag (gap.items ++ items) rest last := by
  obtain ⟨blanks, blank⟩ := gap
  induction blanks with
  | nil => exact reads
  | cons x blanks ih =>
    rw [List.all_cons, Bool.and_eq_true] at blank
    exact .gap (.blank blank.1) (Or.inl rfl) (ih blank.2)

/-- In front of a stopper the text is read item by item, and none of `seps` is among the items.
`flag` is the flag in front of the text. -/
def Legible (flag : Bool) (seps text : List Char) : Prop :=
  ∀ rest : List Char, (∀ x ∈ rest.head?, isStopper x = true) →
    ∃ items last, text = Item.source items ∧ (∀ x ∈ seps, .token [x] ∉ items) ∧
      Reads flag items rest last

namespace Legible

variable {flag : Bool} {seps front text : List Char}

theorem nil : Legible flag seps [] :=
  fun _ _ => ⟨[], flag, rfl, by simp, .done⟩

theorem mono {fewer : List Char} (legible : Legible flag seps text) (subset : fewer ⊆ seps) :
    Legible flag fewer text := by
  intro rest stops
  obtain ⟨items, last, same, uncut, reads⟩ := legible _ stops
  exact ⟨items, last, same, fun x member => uncut x (subset member), reads⟩

theorem append (first : Legible flag seps front) (second : ∀ flag, Legible flag seps text)
    (apart : ∀ x ∈ text.head?, isStopper x = true) : Legible flag seps (front ++ text) := by
  intro rest stops
  have behind : ∀ x ∈ (text ++ rest).head?, isStopper x = true := by
    cases text with
    | nil => exact stops
    | cons x text => exact apart
  obtain ⟨items, middle, rfl, uncut, reads⟩ := first _ behind
  obtain ⟨more, last, rfl, uncut', reads'⟩ := second middle _ stops
  refine ⟨items ++ more, last, by simp, fun x member inside => ?_, reads.trans reads'⟩
  rcases List.mem_append.mp inside with inside | inside
  · exact uncut x member inside
  · exact uncut' x member inside

/-- Blanks stand in front of anything. -/
theorem behind_gap (gap : Gap) (legible : Legible flag seps text) :
    Legible flag seps (gap.text ++ text) := by
  intro rest stops
  obtain ⟨items, last, rfl, uncut, reads⟩ := legible _ stops
  refine ⟨gap.items ++ items, last, (gap.source_items items).symm, fun x member inside => ?_,
    gap.reads reads⟩
  rcases List.mem_append.mp inside with blank | inside
  · simp [Gap.items] at blank
  · exact uncut x member inside

/-- A separator stands in front of anything. -/
theorem cons {x : Char} (separates : isSeparator x = true) (other : x ∉ seps)
    (legible : Legible (regexMayFollow x) seps text) : Legible flag seps (x :: text) := by
  intro rest stops
  obtain ⟨items, last, rfl, uncut, reads⟩ := legible _ stops
  refine ⟨.token [x] :: items, last, rfl, fun y member inside => ?_,
    .token (.separator separates flag _) reads⟩
  rcases List.mem_cons.mp inside with same | inside
  · cases same
    exact other member
  · exact uncut y member inside

/-- One token, that is none of the separators. -/
theorem token (other : ∀ x ∈ seps, text ≠ [x])
    (one : ∀ {rest : List Char}, (∀ x ∈ rest.head?, isStopper x = true) →
      ∃ last, IsToken flag text rest last) : Legible flag seps text := by
  intro rest stops
  obtain ⟨last, token⟩ := one stops
  refine ⟨[.token text], last, by simp [Item.text], fun x member inside => ?_,
    .token (by simpa using token) .done⟩
  cases List.mem_singleton.mp inside
  exact other x member rfl

end Legible

theorem stops_cons {x : Char} (stops : isStopper x = true) (text : List Char) :
    ∀ y ∈ (x :: text).head?, isStopper y = true := by
  rintro _ ⟨⟩
  exact stops

theorem Gap.stops (gap : Gap) {text : List Char} (stops : ∀ x ∈ text.head?, isStopper x = true) :
    ∀ x ∈ (gap.text ++ text).head?, isStopper x = true := by
  obtain ⟨blanks, blank⟩ := gap
  cases blanks with
  | nil => exact stops
  | cons x blanks =>
    rw [List.all_cons, Bool.and_eq_true] at blank
    exact stops_cons (isStopper_of_isAsciiBlank blank.1) _

theorem Gap.stops_alone (gap : Gap) : ∀ x ∈ gap.text.head?, isStopper x = true := by
  simpa using @Gap.stops gap [] (by simp)

theorem Gap.legible (gap : Gap) {flag : Bool} {seps : List Char} : Legible flag seps gap.text := by
  have blanks : Legible flag seps (gap.text ++ []) := .behind_gap gap .nil
  rwa [List.append_nil] at blanks

/-! Keys and defaults -/

/-- The marks that divide an entry. -/
def entryMarks : List Char :=
  [',', ':', '=']

theorem Name.isToken (name : Name) {flag : Bool} {rest : List Char}
    (ends : ∀ x ∈ rest.head?, isWordPart x = false) :
    ∃ last, IsToken flag name.text rest last := by
  obtain ⟨text, plain⟩ := name
  cases text with
  | nil => cases plain
  | cons x text =>
    simp only [isIdentifier, Bool.and_eq_true, List.all_eq_true] at plain
    exact ⟨_, .lexeme (.word (isWordStart_of_isPlainStart plain.1)
      (fun y member => isWordPart_of_isPlainPart (plain.2 y member)) ends) rfl (by simp)⟩

/-- Every character of a name is plain. -/
theorem Name.isPlainPart_of_mem (name : Name) {x : Char} (member : x ∈ name.text) :
    isPlainPart x = true := by
  obtain ⟨text, plain⟩ := name
  cases text with
  | nil => cases plain
  | cons y text =>
    simp only [isIdentifier, Bool.and_eq_true, List.all_eq_true] at plain
    rcases List.mem_cons.mp member with rfl | member
    · simp [isPlainPart, plain.1]
    · exact plain.2 x member

theorem quoted_of_plain {quote : Char} {text : List Char}
    (plain : ∀ x ∈ text, x ≠ quote ∧ x ≠ '\\' ∧ x ≠ '\n') (notBreak : quote ≠ '\n')
    (notBack : quote ≠ '\\') (rest : List Char) :
    quoted quote (text ++ quote :: rest) = (text ++ [quote], rest) := by
  induction text with
  | nil =>
    rw [List.nil_append, quoted_cons (fun back => absurd back notBack), if_neg notBreak,
      if_pos rfl]
    rfl
  | cons x text ih =>
    obtain ⟨⟨notQuote, noEscape, noBreak⟩, others⟩ := List.forall_mem_cons.mp plain
    rw [List.cons_append, quoted_cons (fun back => absurd back noEscape), if_neg noBreak,
      if_neg notQuote, ih others]
    rfl

theorem Literal.isToken (literal : Literal) (flag : Bool) (rest : List Char) :
    IsToken flag (literal.quote :: (literal.text ++ [literal.quote])) rest false := by
  have notBreak : literal.quote ≠ '\n' := by rcases literal.quotes with same | same <;> simp [same]
  have notBack : literal.quote ≠ '\\' := by rcases literal.quotes with same | same <;> simp [same]
  refine .lexeme (.quoted literal.quotes ?_) rfl (by simp)
  rw [List.append_assoc]
  have plain := literal.plain
  simp only [List.all_eq_true, Bool.and_eq_true, decide_eq_true_eq, and_assoc] at plain
  exact quoted_of_plain plain notBreak notBack rest

/-- A character of a number is part of a word, or a mark that can stand anywhere. -/
theorem isNumberPart_cases {x : Char} (part : isNumberPart x = true) :
    isWordPart x = true ∨ isStopper x = true ∧ isSeparator x = true := by
  simp only [isNumberPart, Bool.or_eq_true, decide_eq_true_eq] at part
  rcases part with ((plain | rfl) | rfl) | rfl
  · exact Or.inl (isWordPart_of_isPlainPart plain)
  all_goals exact Or.inr (by decide)

theorem isSeparator_of_isDigit {x : Char} (digit : x.isDigit = true) : isSeparator x = true := by
  obtain ⟨value, rfl⟩ := Masking.isDigit_cases digit
  revert value
  decide

/-- The marks that divide an entry are no part of a number. -/
theorem not_mem_entryMarks {x : Char} (part : isNumberPart x = true) : x ∉ entryMarks := by
  intro member
  simp only [entryMarks, List.mem_cons, List.not_mem_nil, or_false] at member
  rcases member with rfl | rfl | rfl <;> cases part

/-- Letters, digits and the marks of numbers are read as words and single marks. -/
theorem legible_of_numberParts {flag : Bool} {seps text : List Char}
    (parts : ∀ x ∈ text, isNumberPart x = true) (apart : ∀ x ∈ seps, x ∉ text) :
    Legible flag seps text := by
  match text with
  | [] => exact .nil
  | x :: text =>
    obtain ⟨part, others⟩ := List.forall_mem_cons.mp parts
    by_cases starts : isWordStart x = true
    · -- a word goes on as long as it can, and nothing or a mark follows it
      have shorter := (List.dropWhile_suffix (l := text) isWordPart).length_le
      have inside : ∀ y ∈ text.dropWhile isWordPart, y ∈ text :=
        fun y member => (List.dropWhile_suffix isWordPart).subset member
      have later (flag : Bool) : Legible flag seps (text.dropWhile isWordPart) :=
        legible_of_numberParts (fun y member => others y (inside y member))
          fun y member found => apart y member (List.mem_cons_of_mem _ (inside y found))
      have stops : ∀ y ∈ (text.dropWhile isWordPart).head?, isStopper y = true := by
        intro y first
        have notPart := head?_dropWhile_forall isWordPart text y first
        rcases isNumberPart_cases (others y (inside y (List.mem_of_mem_head? first))) with
          part | mark
        · rw [notPart] at part
          cases part
        · exact mark.1
      have word : Legible flag seps (x :: text.takeWhile isWordPart) := by
        refine .token (fun y member same => ?_) fun ends => ⟨_, .lexeme (.word starts
          (fun y member => List.mem_takeWhile_imp member)
          fun y member => isWordPart_of_isStopper (ends y member)) rfl (by simp)⟩
        obtain ⟨rfl, -⟩ := List.cons.inj same
        exact apart x member List.mem_cons_self
      have whole := word.append later stops
      rwa [List.cons_append, List.takeWhile_append_dropWhile] at whole
    · -- a digit that starts no word is a mark of its own
      have separates : isSeparator x = true := by
        rcases isNumberPart_cases part with word | mark
        · rw [isWordPart, Bool.or_eq_true] at word
          exact isSeparator_of_isDigit (word.resolve_left starts)
        · exact mark.2
      refine .cons separates (fun member => apart x member List.mem_cons_self) ?_
      exact legible_of_numberParts others fun y member found =>
        apart y member (List.mem_cons_of_mem _ found)
  termination_by text.length

theorem Numeral.isNumberPart_of_mem (numeral : Numeral) {x : Char} (member : x ∈ numeral.text) :
    isNumberPart x = true := by
  obtain ⟨text, number⟩ := numeral
  cases text with
  | nil => cases number
  | cons y text =>
    simp only [isNumber, Bool.and_eq_true, Bool.or_eq_true, decide_eq_true_eq, List.all_eq_true]
      at number
    rcases List.mem_cons.mp member with rfl | member
    · rcases number.1 with digit | ⟨rfl, -⟩
      · simp [isNumberPart, isPlainPart, digit]
      · rfl
    · exact number.2 x member

theorem Name.legible (name : Name) {flag : Bool} : Legible flag entryMarks name.text := by
  refine .token (fun x member same => ?_) fun stops =>
    name.isToken fun x member => isWordPart_of_isStopper (stops x member)
  have found : x ∈ name.text := by simp [same]
  exact not_mem_entryMarks (by simp [isNumberPart, name.isPlainPart_of_mem found]) member

theorem Key.legible (key : Key) {flag : Bool} : Legible flag entryMarks key.text := by
  cases key with
  | identifier name => exact name.legible
  | string literal =>
    refine .token (fun x member same => ?_) fun _ => ⟨_, literal.isToken flag _⟩
    simp [Key.text] at same
  | number numeral =>
    exact legible_of_numberParts (fun x => numeral.isNumberPart_of_mem) fun x member found =>
      not_mem_entryMarks (numeral.isNumberPart_of_mem found) member
  | computed expression =>
    refine .token (fun x member same => ?_) fun {rest} _ => ?_
    · simp [Key.text] at same
    · obtain ⟨items, source, -, -, reads⟩ := reads_of_isContained expression.contained
      obtain ⟨last, reads⟩ := @reads (Bracket.square.closer :: rest) (stops_cons (by decide) _)
      rw [Key.text, source]
      exact ⟨_, reads.isToken flag⟩

/-- The colon behind a key is the only mark in front of its target. -/
theorem keyText_legible (key : Key) (before after : Gap) {flag : Bool} {seps text : List Char}
    (subset : seps ⊆ entryMarks) (other : ':' ∉ seps)
    (later : Legible (regexMayFollow ':') seps text) :
    Legible flag seps (keyText key before after ++ text) := by
  rw [keyText, List.append_assoc, List.append_assoc, List.cons_append]
  have stops := before.stops (stops_cons (show isStopper ':' = true by decide) (after.text ++ text))
  refine .append (key.legible.mono subset) (fun flag => ?_) stops
  exact .behind_gap before (.cons (by decide) other (.behind_gap after later))

theorem Fragment.legible (fragment : Fragment) {seps : List Char}
    (apart : ∀ x ∈ seps, ∀ t ∈ (scan fragment.text).tokens, t.is x = false) :
    Legible true seps fragment.text := by
  intro rest stops
  obtain ⟨items, source, -, tokens, reads⟩ := reads_of_isContained fragment.contained
  obtain ⟨last, reads⟩ := reads stops
  refine ⟨items, last, source, fun x member inside => ?_, reads⟩
  -- a separator among the items would be a token of the fragment
  obtain ⟨t, listed, shown⟩ := Item.exists_mem_tokens [] 1 inside
  rw [← tokens] at listed
  have other := apart x member t listed
  rw [Token.is, shown] at other
  simp at other

/-- What stands behind a target. -/
theorem Default.legible (default : Option Default) (trail : Gap) {flag : Bool} :
    Legible flag [','] (Default.text? default ++ trail.text) := by
  cases default with
  | none => exact trail.legible
  | some d =>
    rw [Default.text?, List.append_assoc, List.cons_append, List.append_assoc]
    refine .behind_gap d.before (.cons (by decide) (by decide) (.behind_gap d.after ?_))
    exact .append (d.toFragment.legible (by simpa using d.noComma)) (fun _ => trail.legible)
      trail.stops_alone

theorem Default.stops (default : Option Default) (trail : Gap) :
    ∀ x ∈ (Default.text? default ++ trail.text).head?, isStopper x = true := by
  cases default with
  | none => exact trail.stops_alone
  | some d =>
    rw [Default.text?, List.append_assoc]
    exact d.before.stops (stops_cons (by decide) _)

theorem Legible.behind_target {flag : Bool} {target : List Char}
    (legible : Legible flag [','] target) (default : Option Default) (trail : Gap) :
    Legible flag [','] (target ++ (Default.text? default ++ trail.text)) :=
  .append legible (fun _ => Default.legible default trail) (Default.stops default trail)

/-! Patterns -/

/-- The texts as pieces, the first at `offset`, with one separator between them. -/
def piecesAt (offset : Nat) : List (List Char) → List Piece
  | [] => [⟨offset, []⟩]
  | [text] => [⟨offset, text⟩]
  | text :: next :: more => ⟨offset, text⟩ :: piecesAt (offset + byteSize text + 1) (next :: more)

/-- Entries with commas between them are read one after the other, and cut where they are joined. -/
theorem reads_joined {texts : List (List Char)} {flag : Bool} {rest : List Char}
    (each : ∀ text ∈ texts, ∀ flag, Legible flag [','] text)
    (stops : ∀ x ∈ rest.head?, isStopper x = true) :
    ∃ items last, joined texts = Item.source items ∧ Reads flag items rest last ∧
      ∀ offset, Item.pieces ',' offset [] items = piecesAt offset texts := by
  -- by recursion over the entries: each is read in front of a comma, the last one in front of what
  -- follows
  match texts with
  | [] => exact ⟨[], flag, rfl, .done, fun _ => rfl⟩
  | [text] =>
    obtain ⟨items, last, source, uncut, reads⟩ := each text List.mem_cons_self flag rest stops
    refine ⟨items, last, source, reads, fun offset => ?_⟩
    rw [Item.pieces_of_uncut (uncut ',' List.mem_cons_self), piecesAt, source]
    rfl
  | text :: next :: more =>
    obtain ⟨first, others⟩ := List.forall_mem_cons.mp each
    obtain ⟨behind, last, joins, later, pieces⟩ :=
      @reads_joined (next :: more) (regexMayFollow ',') rest others stops
    obtain ⟨items, middle, source, uncut, reads⟩ :=
      first flag (',' :: (Item.source behind ++ rest)) (stops_cons (by decide) _)
    have comma : Reads middle (.token [','] :: behind) rest last :=
      .token (.separator (by decide) middle _) later
    refine ⟨items ++ .token [','] :: behind, last, ?_, reads.trans comma, fun offset => ?_⟩
    · rw [joined, joins, source, Item.source_append]
      rfl
    · rw [Item.pieces_append (uncut ',' List.mem_cons_self), Item.pieces, if_pos rfl, piecesAt,
        pieces, List.nil_append, source]
      rfl

mutual

/-- A target is one token. -/
theorem Target.isToken (target : Target) {flag : Bool} {rest : List Char}
    (stops : ∀ x ∈ rest.head?, isStopper x = true) :
    ∃ last, IsToken flag target.text rest last := by
  match target with
  | .name name => exact name.isToken fun x member => isWordPart_of_isStopper (stops x member)
  | .pattern isObject entries =>
    obtain ⟨items, last, joins, reads, -⟩ :=
      @reads_joined entries.texts true ((patternBracket isObject).closer :: rest)
        (fun text member flag => entries.legible text member) (stops_cons (isStopper_closer _) _)
    rw [Target.text, joins]
    exact ⟨_, reads.isToken flag⟩

theorem Target.legible (target : Target) {flag : Bool} : Legible flag entryMarks target.text := by
  match target with
  | .name name => exact name.legible
  | .pattern isObject entries =>
    refine .token (fun x member same => ?_) (Target.pattern isObject entries).isToken
    simp [Target.text] at same

/-- Every entry can be read, and none of its commas is at depth 0. -/
theorem Entries.legible {isObject : Bool} (entries : Entries isObject) {flag : Bool} :
    ∀ text ∈ entries.texts, Legible flag [','] text := by
  -- each kind of entry is laid out from parts that can be read, with its gaps between them
  match entries with
  | .nil => simp [Entries.texts]
  | .hole gap more => exact List.forall_mem_cons.mpr ⟨gap.legible, more.legible⟩
  | .rest lead inner name trail more =>
    refine List.forall_mem_cons.mpr ⟨.behind_gap lead ?_, more.legible⟩
    have named {flag : Bool} : Legible flag [','] (name.text ++ trail.text) :=
      .append (name.legible.mono (by decide)) (fun _ => trail.legible) trail.stops_alone
    have dot : isSeparator '.' = true := by decide
    exact .cons dot (by decide) (.cons dot (by decide) (.cons dot (by decide)
      (.behind_gap inner named)))
  | .item lead target default trail more =>
    refine List.forall_mem_cons.mpr ⟨.behind_gap lead ?_, more.legible⟩
    exact .behind_target (target.legible.mono (by decide)) default trail
  | .shorthand lead name default trail more =>
    refine List.forall_mem_cons.mpr ⟨.behind_gap lead ?_, more.legible⟩
    exact .behind_target (name.legible.mono (by decide)) default trail
  | .keyed lead key before after target default trail more =>
    refine List.forall_mem_cons.mpr ⟨.behind_gap lead ?_, more.legible⟩
    refine keyText_legible key before after (by decide) (by decide) ?_
    exact .behind_target (target.legible.mono (by decide)) default trail

end

end Concord.Export
