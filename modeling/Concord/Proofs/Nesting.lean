import Concord.Scan.Imbalance
import Concord.Text.Basic

/-!
Brackets without a lexer: a stack of openers run over the characters of a text. The stack matcher
finds nothing wrong exactly with the texts whose brackets are well nested, and otherwise names the
first closer that closes nothing, or else the innermost opener that stays open.
-/
namespace Concord.Scan

open Concord.Text

/-- An opener that waits for its closer, and its line. -/
structure Opener where
  bracket : Bracket
  line : Nat
  deriving DecidableEq, Repr

/-- What is wrong with the brackets of a text that starts on `line` behind the openers `stack`. -/
def mismatch? : List Opener → Nat → List Char → Option Imbalance
  | [], _, [] => none
  | top :: _, _, [] => some ⟨top.line, .neverClosed top.bracket⟩
  | stack, line, c :: rest =>
    match Bracket.ofOpener? c, Bracket.ofCloser? c with
    | some bracket, _ => mismatch? (⟨bracket, line⟩ :: stack) line rest
    | none, some closer =>
      match stack with
      | [] => some ⟨line, .unmatched closer⟩
      | top :: below =>
        if closer = top.bracket then mismatch? below line rest
        else some ⟨line, .wrongCloser closer top.bracket top.line⟩
    | none, none => mismatch? stack (if c = '\n' then line + 1 else line) rest

def isBracket (c : Char) : Bool :=
  (Bracket.ofOpener? c).isSome || (Bracket.ofCloser? c).isSome

/-- Texts in which every bracket belongs to a pair and pairs do not cross. -/
inductive WellNested : List Char → Prop
  | nil : WellNested []
  | other {c : Char} {text : List Char} (plain : isBracket c = false) (rest : WellNested text) :
      WellNested (c :: text)
  | group (bracket : Bracket) {inner text : List Char} (inside : WellNested inner)
      (rest : WellNested text) : WellNested (bracket.opener :: (inner ++ bracket.closer :: text))

section

variable {stack : List Opener} {line : Nat} {rest : List Char}

theorem mismatch?_opener (bracket : Bracket) :
    mismatch? stack line (bracket.opener :: rest) =
      mismatch? (⟨bracket, line⟩ :: stack) line rest := by
  rw [mismatch?, Bracket.ofOpener?_opener]

theorem Bracket.ofOpener?_closer (bracket : Bracket) :
    Bracket.ofOpener? bracket.closer = none := by
  cases bracket <;> rfl

theorem mismatch?_closer_nil (closer : Bracket) :
    mismatch? [] line (closer.closer :: rest) = some ⟨line, .unmatched closer⟩ := by
  rw [mismatch?, Bracket.ofOpener?_closer, Bracket.ofCloser?_closer]

theorem mismatch?_closer_cons (closer : Bracket) (top : Opener) :
    mismatch? (top :: stack) line (closer.closer :: rest) =
      if closer = top.bracket then mismatch? stack line rest
      else some ⟨line, .wrongCloser closer top.bracket top.line⟩ := by
  rw [mismatch?, Bracket.ofOpener?_closer, Bracket.ofCloser?_closer]

theorem mismatch?_other {c : Char} (plain : isBracket c = false) :
    mismatch? stack line (c :: rest) =
      mismatch? stack (line + lineBreaks [c]) rest := by
  simp only [isBracket, Bool.or_eq_false_iff, Option.isSome_eq_false_iff, Option.isNone_iff_eq_none]
    at plain
  rw [mismatch?, plain.1, plain.2]
  by_cases newline : c = '\n'
  · simp [newline, lineBreaks]
  · simp [newline, lineBreaks]

/-- Text without brackets only moves the line. -/
theorem mismatch?_plain {text : List Char} (plain : ∀ c ∈ text, isBracket c = false) :
    mismatch? stack line (text ++ rest) = mismatch? stack (line + lineBreaks text) rest := by
  induction text generalizing line with
  | nil => simp [lineBreaks]
  | cons c text ih =>
    rw [List.cons_append, mismatch?_other (plain c List.mem_cons_self),
      ih fun d member => plain d (List.mem_cons_of_mem c member), Nat.add_assoc,
      ← lineBreaks_append, List.singleton_append]

/-- Well nested text leaves the stack as it found it. -/
theorem WellNested.mismatch?_append {text : List Char} (nested : WellNested text)
    (stack : List Opener) (line : Nat) (rest : List Char) :
    mismatch? stack line (text ++ rest) = mismatch? stack (line + lineBreaks text) rest := by
  induction nested generalizing stack line rest with
  | nil => simp [lineBreaks]
  | @other c text plain _ ih =>
    rw [List.cons_append, mismatch?_other plain, ih, Nat.add_assoc, ← lineBreaks_append,
      List.singleton_append]
  | @group bracket inner text _ _ inside after =>
    -- brackets are no line breaks
    have breaks : lineBreaks (bracket.opener :: (inner ++ bracket.closer :: text)) =
        lineBreaks inner + lineBreaks text := by
      cases bracket <;> simp [lineBreaks, Bracket.opener, Bracket.closer]
    rw [List.cons_append, mismatch?_opener, List.append_assoc, inside, List.cons_append,
      mismatch?_closer_cons, if_pos rfl, after, Nat.add_assoc, breaks]

end

/-- A text that closes the open brackets one after the other and is well nested between them. -/
inductive ClosesAll : List Bracket → List Char → Prop
  | done {text : List Char} (nested : WellNested text) : ClosesAll [] text
  | next {bracket : Bracket} {below : List Bracket} {text rest : List Char}
      (nested : WellNested text) (later : ClosesAll below rest) :
      ClosesAll (bracket :: below) (text ++ bracket.closer :: rest)

theorem ClosesAll.other {brackets : List Bracket} {c : Char} {text : List Char}
    (plain : isBracket c = false) (closes : ClosesAll brackets text) :
    ClosesAll brackets (c :: text) := by
  cases closes with
  | done nested => exact .done (.other plain nested)
  | next nested later => exact .next (.other plain nested) later

/-- An opener in front is closed by what closed the innermost bracket. -/
theorem ClosesAll.opened {brackets : List Bracket} {bracket : Bracket} {text : List Char}
    (closes : ClosesAll (bracket :: brackets) text) :
    ClosesAll brackets (bracket.opener :: text) := by
  cases closes with
  | @next _ _ inner rest nested later =>
    -- what stood behind the closer now stands behind the group
    cases later with
    | done after => exact .done (.group bracket nested after)
    | @next top below text' rest' after later =>
      have joined : ClosesAll (top :: below) _ := .next (.group bracket nested after) later
      simpa using joined

theorem closesAll_of_mismatch? {stack : List Opener} {line : Nat} {text : List Char}
    (matched : mismatch? stack line text = none) : ClosesAll (stack.map Opener.bracket) text := by
  -- the stack is what is still to be closed: an opener lets it grow and a closer shrink
  induction text generalizing stack line with
  | nil =>
    cases stack with
    | nil => exact .done .nil
    | cons top below => simp [mismatch?] at matched
  | cons c rest ih =>
    cases opens : Bracket.ofOpener? c with
    | some bracket =>
      obtain rfl := Bracket.eq_opener_of_ofOpener? opens
      rw [mismatch?_opener] at matched
      exact (ih matched).opened
    | none =>
      cases closes : Bracket.ofCloser? c with
      | none =>
        have plain : isBracket c = false := by simp [isBracket, opens, closes]
        rw [mismatch?_other plain] at matched
        exact (ih matched).other plain
      | some closer =>
        obtain rfl := Bracket.eq_closer_of_ofCloser? closes
        cases stack with
        | nil => simp [mismatch?_closer_nil] at matched
        | cons top below =>
          rw [mismatch?_closer_cons] at matched
          split at matched
          next same =>
            subst same
            exact .next .nil (ih matched)
          · simp at matched

/-- The stack matcher accepts exactly the well nested texts. -/
theorem mismatch?_eq_none_iff {line : Nat} {text : List Char} :
    mismatch? [] line text = none ↔ WellNested text := by
  constructor
  · intro matched
    cases closesAll_of_mismatch? matched with
    | done nested => exact nested
  · intro nested
    have through := nested.mismatch?_append [] line []
    rw [List.append_nil] at through
    rw [through, mismatch?]

end Concord.Scan
