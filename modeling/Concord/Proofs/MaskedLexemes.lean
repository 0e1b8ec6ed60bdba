import Concord.Proofs.Lexemes
import Concord.Proofs.Nesting
import Concord.Scan.Mask
import Mathlib.Data.List.Infix

/-!
What masking does to one lexeme of code. The mask has no notion of a lexeme: it changes its mode
character by character. Here its modes are followed through each kind of lexeme, back to plain code,
with the same flag for a `/` to come as behind the lexeme. On the way no bracket is shown.
-/
namespace Concord.Scan

open Concord.Text

theorem blanked_plain (x : Char) : ∀ y ∈ blanked x, isBracket y = false := by
  intro y member
  simp only [blanked] at member
  split at member
  · rw [List.mem_singleton.mp member]
    decide
  · rw [List.eq_of_mem_replicate member]
    decide

@[simp] theorem lineBreaks_blanked (x : Char) : lineBreaks (blanked x) = lineBreaks [x] := by
  simp only [blanked]
  split
  next newline => rw [newline]
  next other => simp [lineBreaks, other, List.count_replicate]

namespace Masking

/-- Masking `text` in front of `rest` shows no bracket and comes to `after`. -/
def Passes (m : Masking) (text rest : List Char) (after : Masking) : Prop :=
  ∀ stack line, mismatch? stack line (m.run (text ++ rest)) =
    mismatch? stack (line + lineBreaks text) (after.run rest)

namespace Passes

variable {m middle after : Masking} {x : Char} {text rest : List Char}

theorem stay (same : m.run rest = after.run rest) : m.Passes [] rest after := by
  intro stack line
  simp [same, lineBreaks]

theorem kept (step : m.step x (text ++ rest) = ([x], middle)) (plain : isBracket x = false)
    (later : middle.Passes text rest after) : m.Passes (x :: text) rest after := by
  intro stack line
  rw [List.cons_append, run, step]
  simp only [List.singleton_append]
  rw [mismatch?_other plain, later, Nat.add_assoc, ← lineBreaks_append, List.singleton_append]

theorem hidden (step : m.step x (text ++ rest) = (blanked x, middle))
    (later : middle.Passes text rest after) : m.Passes (x :: text) rest after := by
  intro stack line
  rw [List.cons_append, run, step]
  simp only
  rw [mismatch?_plain (blanked_plain x), later, lineBreaks_blanked, Nat.add_assoc,
    ← lineBreaks_append, List.singleton_append]

/-- An escape hides two characters and leaves the mode. -/
theorem escape {mode : Mode}
    (step : { m with mode := mode }.step '\\' (x :: (text ++ rest)) =
      (blanked '\\', { m with mode := .escaped mode }))
    (later : { m with mode := mode }.Passes text rest after) :
    { m with mode := mode }.Passes ('\\' :: x :: text) rest after := by
  have second : { m with mode := .escaped mode }.Passes (x :: text) rest after := .hidden rfl later
  exact .hidden step second

/-- At the end of the text the state does not matter any more. -/
theorem last (shown : (m.step x []).1 = blanked x) : m.Passes [x] [] after := by
  have step : m.step x [] = (blanked x, (m.step x []).2) := Prod.ext shown rfl
  exact .hidden step (.stay rfl)

end Passes

/-- Masking is in code, between two lexemes. -/
structure InCode (m : Masking) (depth : Nat) : Prop where
  context : m.context = .code depth
  mode : m.mode = .plain

variable {m : Masking} {depth : Nat}

theorem InCode.step (code : m.InCode depth) (x : Char) (rest : List Char) :
    m.step x rest = m.stepCode depth x rest := by
  simp [Masking.step, stepPlain, code.mode, code.context]

/-- The state with another flag. -/
def allow (m : Masking) (regexOk : Bool) : Masking :=
  { m with regexOk := regexOk }

theorem InCode.allow (code : m.InCode depth) (regexOk : Bool) : (m.allow regexOk).InCode depth :=
  ⟨code.context, code.mode⟩

/-- A line break is code like any other blank, so it may also end the mode before it. -/
theorem run_newline (code : m.InCode depth) {mode : Mode} {flag : Bool} {rest : List Char}
    (ends : rest = [] ∨ rest.head? = some '\n')
    (leaves : ∀ tail, { m with mode := mode }.step '\n' tail = (['\n'], m.allow flag)) :
    { m with mode := mode }.run rest = (m.allow flag).run rest := by
  -- at the end of the text there is nothing left to mask, whatever the mode
  rcases ends with rfl | newline
  · rfl
  · obtain ⟨tail, rfl⟩ := List.head?_eq_some_iff.mp newline
    rw [run, run, leaves, (code.allow flag).step]
    rfl

theorem InCode.settle (code : m.InCode depth) (flag : Bool) :
    ({ m with mode := .plain, regexOk := flag } : Masking) = m.allow flag := by
  rw [← code.mode]
  rfl

/-! Literals -/

theorem quoted_passes (code : m.InCode depth) {quote : Char}
    (quotes : quote = '\x27' ∨ quote = '\x22') {text rest : List Char}
    (closed : quoted quote (text ++ rest) = (text, rest)) :
    { m with mode := .quoted quote }.Passes text rest (m.allow false) := by
  have notBack : '\\' ≠ quote := by rcases quotes with rfl | rfl <;> decide
  have notBreak : '\n' ≠ quote := by rcases quotes with rfl | rfl <;> decide
  have plain : isBracket quote = false := by rcases quotes with rfl | rfl <;> decide
  -- the induction is on the whole of what is left, since the literal ends where `quoted` ends it
  generalize whole : text ++ rest = all at closed
  fun_induction quoted quote all generalizing text with
  | case1 =>
    obtain ⟨rfl, rfl⟩ := List.append_eq_nil_iff.mp whole
    exact .stay rfl
  | case2 x after front back read ih =>
    obtain ⟨rfl, rfl⟩ := Prod.mk.inj closed
    simp only [List.cons_append, List.cons.injEq, true_and] at whole
    refine .escape ?_ (ih whole read)
    simp only [Masking.step, if_neg notBack]
    rfl
  | case3 after escapes =>
    obtain ⟨rfl, rfl⟩ := Prod.mk.inj closed
    refine .stay (run_newline code (Or.inr rfl) fun tail => ?_)
    simp only [Masking.step, if_neg notBreak]
    rw [← code.settle]
    rfl
  | case4 after escapes newline =>
    obtain ⟨rfl, rfl⟩ := Prod.mk.inj closed
    refine .kept ?_ plain (.stay rfl)
    simp only [Masking.step, if_pos]
    rw [← code.settle]
  | case5 x after escapes newline other front back read ih =>
    obtain ⟨rfl, rfl⟩ := Prod.mk.inj closed
    simp only [List.cons_append, List.cons.injEq, true_and] at whole
    by_cases escape : x = '\\'
    · -- an escape with nothing behind it ends the text
      have ended : after = [] := eq_nil_of_no_escape escapes escape
      rw [ended, List.append_eq_nil_iff] at whole
      obtain ⟨rfl, rfl⟩ := whole
      refine .last ?_
      simp only [Masking.step, if_neg other, if_neg newline, if_pos escape]
    · refine .hidden ?_ (ih whole read)
      simp only [Masking.step, if_neg other, if_neg newline, if_neg escape]

/-! Words and comments -/

theorem isBracket_of_isWordPart {x : Char} (part : isWordPart x = true) : isBracket x = false := by
  by_contra bracket
  simp only [isBracket, Bool.not_eq_false, Bool.or_eq_true, Option.isSome_iff_exists] at bracket
  rcases bracket with ⟨b, opens⟩ | ⟨b, closes⟩
  · rw [Bracket.eq_opener_of_ofOpener? opens] at part
    cases b <;> revert part <;> decide
  · rw [Bracket.eq_closer_of_ofCloser? closes] at part
    cases b <;> revert part <;> decide

/-- The rest of a word, up to a character outside it. -/
theorem wordParts_passes (code : m.InCode depth) (flag : Bool) {text rest : List Char}
    (inside : ∀ y ∈ text, isWordPart y = true) (ends : ∀ y ∈ rest.head?, isWordPart y = false) :
    { m with mode := .word flag }.Passes text rest (m.allow flag) := by
  induction text with
  | nil =>
    refine .stay ?_
    cases rest with
    | nil => rfl
    | cons y tail =>
      -- the character behind the word is masked as plain code, under the flag of the word
      have outside := ends y rfl
      rw [run, run]
      simp only [Masking.step, outside, Bool.false_eq_true, if_false, (code.allow flag).mode]
      rw [code.settle]
  | cons y text ih =>
    have part := inside y List.mem_cons_self
    refine .kept ?_ (isBracket_of_isWordPart part)
      (ih fun z member => inside z (List.mem_cons_of_mem y member))
    simp only [Masking.step, part, if_true]

/-- Characters that start a word are no part of anything else. -/
theorem InCode.step_word (code : m.InCode depth) {x : Char} (starts : isWordStart x = true)
    (rest : List Char) :
    m.step x rest =
      ([x], { m with mode := .word (regexMayFollowWord (x :: rest.takeWhile isWordPart)) }) := by
  obtain ⟨-, notApostrophe, notQuote, notSlash⟩ := isWordStart_not_special starts
  have notTick : x ≠ '\x60' := by
    rintro rfl
    revert starts
    decide
  have notOpen : x ≠ '\x7b' := by
    rintro rfl
    revert starts
    decide
  have notClose : x ≠ '\x7d' := by
    rintro rfl
    revert starts
    decide
  rw [code.step]
  simp [stepCode, notApostrophe, notQuote, notSlash, notTick, notOpen, notClose, starts]

theorem word_passes (code : m.InCode depth) {x : Char} {text rest : List Char}
    (starts : isWordStart x = true) (inside : ∀ y ∈ text, isWordPart y = true)
    (ends : ∀ y ∈ rest.head?, isWordPart y = false) :
    m.Passes (x :: text) rest (m.allow (regexMayFollowWord (x :: text))) := by
  have part : isWordPart x = true := by simp [isWordPart, starts]
  refine .kept ?_ (isBracket_of_isWordPart part) (wordParts_passes code _ inside ends)
  rw [code.step_word starts, (takeWhile_append_of inside ends).1]

theorem lineComment_passes (code : m.InCode depth) {text rest : List Char}
    (inside : ∀ x ∈ text, x ≠ '\n') (ends : ∀ x ∈ rest.head?, x = '\n') :
    { m with mode := .lineComment }.Passes text rest m := by
  induction text with
  | nil =>
    have newline : rest = [] ∨ rest.head? = some '\n' := by
      cases rest with
      | nil => exact Or.inl rfl
      | cons y tail => exact Or.inr (by rw [ends y rfl]; rfl)
    refine .stay (run_newline code newline fun tail => ?_)
    simp only [Masking.step, if_true]
    rw [← code.settle]
  | cons x text ih =>
    refine .hidden ?_ (ih fun y member => inside y (List.mem_cons_of_mem x member))
    simp only [Masking.step, if_neg (inside x List.mem_cons_self)]

theorem blockComment_passes (code : m.InCode depth) {text rest : List Char}
    (closed : blockComment (text ++ rest) = some (text, rest)) :
    { m with mode := .blockComment }.Passes text rest m := by
  generalize whole : text ++ rest = all at closed
  fun_induction blockComment all generalizing text with
  | case1 => simp at closed
  | case2 after =>
    simp only [Option.some.injEq, Prod.mk.injEq] at closed
    obtain ⟨rfl, rfl⟩ := closed
    -- the `/` is hidden as if it were escaped, so that it opens nothing
    have slash : { m with mode := .escaped .plain }.Passes ['/'] after m := by
      refine .hidden ?_ (.stay rfl)
      simp only [Masking.step]
      rw [code.settle]
      rfl
    exact .hidden rfl slash
  | case3 x after inside ih =>
    simp only [Option.map_eq_some_iff, Prod.mk.injEq, Prod.exists] at closed
    obtain ⟨front, back, found, rfl, rfl⟩ := closed
    simp only [List.cons_append, List.cons.injEq, true_and] at whole
    refine .hidden ?_ (ih whole found)
    have stays : ¬ (x = '*' ∧ (front ++ back).head? = some '/') := by
      rintro ⟨rfl, slash⟩
      obtain ⟨behind, slashed⟩ := List.head?_eq_some_iff.mp slash
      exact inside behind rfl (whole.symm.trans slashed)
    simp only [Masking.step]
    rw [if_neg (by simpa using stays)]

/-! Single characters and regular expressions -/

/-- A character that opens no literal, comment or word and is no curly bracket. -/
theorem InCode.step_other (code : m.InCode depth) {x : Char} {rest : List Char}
    (notQuote : x ≠ '\x27' ∧ x ≠ '\x22' ∧ x ≠ '\x60') (notCurly : x ≠ '\x7b' ∧ x ≠ '\x7d')
    (notWord : isWordStart x = false)
    (divides : x = '/' → m.regexOk = false ∧ ¬ opensComment rest) :
    m.step x rest = ([x], m.allow (if isAsciiBlank x then m.regexOk else regexMayFollow x)) := by
  rw [code.step]
  by_cases slash : x = '/'
  · obtain ⟨flag, noComment⟩ := divides slash
    simp only [opensComment, not_or] at noComment
    subst slash
    simp [stepCode, noComment.1, noComment.2, flag, notWord]
    rfl
  · simp [stepCode, notQuote.1, notQuote.2.1, notQuote.2.2, notCurly.1, notCurly.2, slash, notWord]
    rfl

theorem isDigit_cases {x : Char} (digit : x.isDigit = true) :
    ∃ value : Fin 10, x = Char.ofNat (48 + value) := by
  simp only [Char.isDigit, Bool.and_eq_true, decide_eq_true_eq, ge_iff_le,
    UInt32.le_iff_toNat_le] at digit
  obtain ⟨low, high⟩ := digit
  change 48 ≤ x.toNat at low
  change x.toNat ≤ 57 at high
  refine ⟨⟨x.toNat - 48, by omega⟩, ?_⟩
  rw [Nat.add_sub_cancel' low, Char.ofNat_toNat]

theorem InCode.step_digit (code : m.InCode depth) {x : Char} (digit : x.isDigit = true)
    (rest : List Char) : m.step x rest = ([x], m.allow false) := by
  have plain : ∀ value : Fin 10, ∀ y, y = Char.ofNat (48 + value) →
      (y ≠ '\x27' ∧ y ≠ '\x22' ∧ y ≠ '\x60') ∧ (y ≠ '\x7b' ∧ y ≠ '\x7d') ∧
      isWordStart y = false ∧ y ≠ '/' ∧ isAsciiBlank y = false ∧ regexMayFollow y = false := by
    simp only [forall_eq]
    decide
  obtain ⟨value, same⟩ := isDigit_cases digit
  obtain ⟨notQuote, notCurly, notWord, notSlash, notBlank, noRegex⟩ := plain value x same
  rw [code.step_other notQuote notCurly notWord (fun slash => absurd slash notSlash), notBlank,
    noRegex]
  rfl

/-- Flags of a regular expression are code to the mask. They leave the flag down if they do not end
in a word after which an expression starts. -/
theorem flags_passes (code : m.InCode depth) {text rest : List Char}
    (inside : ∀ y ∈ text, isWordPart y = true) (ends : ∀ y ∈ rest.head?, isWordPart y = false)
    (noKeyword : regexMayFollowWord (text.dropWhile Char.isDigit) = false) :
    (m.allow false).Passes text rest (m.allow false) := by
  induction text with
  | nil => exact .stay rfl
  | cons x text ih =>
    have part := inside x List.mem_cons_self
    -- digits are single characters to the mask; the first other character starts a word
    by_cases digit : x.isDigit = true
    · refine .kept ((code.allow false).step_digit digit _) (isBracket_of_isWordPart part)
        (ih (fun y member => inside y (List.mem_cons_of_mem x member)) ?_)
      simpa [digit] using noKeyword
    · have starts : isWordStart x = true := by simpa [isWordPart, digit] using part
      have word := word_passes (code.allow false) starts
        (fun y member => inside y (List.mem_cons_of_mem x member)) ends
      rw [List.dropWhile_cons_of_neg digit] at noKeyword
      rw [noKeyword] at word
      exact word

end Masking

/-- Behind some `/` stands a word after which an expression starts, with only digits between the
two. The flags of a regular expression never read so. -/
def KeywordBehindSlash (text : List Char) : Prop :=
  ∃ before digits word after, text = before ++ '/' :: (digits ++ word ++ after) ∧
    (∀ x ∈ digits, x.isDigit = true) ∧ regexMayFollowWord word = true ∧
    ∀ x ∈ after.head?, isWordPart x = false

namespace KeywordBehindSlash

theorem append (front : List Char) {text : List Char} (found : KeywordBehindSlash text) :
    KeywordBehindSlash (front ++ text) := by
  obtain ⟨before, digits, word, after, rfl, rest⟩ := found
  exact ⟨front ++ before, digits, word, after, by simp, rest⟩

/-- A run of word characters behind a `/`, less the digits in front, is such a word. -/
theorem of_flags {flags rest : List Char} (ends : ∀ x ∈ rest.head?, isWordPart x = false)
    (keyword : regexMayFollowWord (flags.dropWhile Char.isDigit) = true) :
    KeywordBehindSlash ('/' :: (flags ++ rest)) := by
  refine ⟨[], flags.takeWhile Char.isDigit, flags.dropWhile Char.isDigit, rest, ?_, ?_, keyword,
    ends⟩
  · rw [List.takeWhile_append_dropWhile]
    rfl
  · intro x member
    exact List.mem_takeWhile_imp member

theorem keyword_chars {word : List Char} (keyword : regexMayFollowWord word = true) :
    (∀ x ∈ word, isWordPart x = true) ∧ ∀ x ∈ word.head?, x.isDigit = false := by
  simp only [regexMayFollowWord, List.any_eq_true, decide_eq_true_eq] at keyword
  obtain ⟨keyword, member, rfl⟩ := keyword
  have chars : (keyword.toList.all isWordPart && keyword.toList.head?.all (!·.isDigit)) = true := by
    revert keyword
    decide
  simpa [Option.all_eq_true] using chars

theorem iff_tails {text : List Char} :
    KeywordBehindSlash text ↔ ∃ tail ∈ text.tails, tail.head? = some '/' ∧
      regexMayFollowWord ((tail.tail.takeWhile isWordPart).dropWhile Char.isDigit) = true := by
  -- the word behind the slash is what is left of its word characters without the digits in front
  constructor
  · rintro ⟨before, digits, word, after, rfl, digit, keyword, ends⟩
    obtain ⟨inside, first⟩ := keyword_chars keyword
    have parts : ∀ x ∈ digits ++ word, isWordPart x = true := by
      intro x member
      rcases List.mem_append.mp member with member | member
      · simp [isWordPart, digit x member]
      · exact inside x member
    refine ⟨_, (List.mem_tails _ _).mpr (List.suffix_append before _), rfl, ?_⟩
    rw [List.tail_cons, (takeWhile_append_of parts ends).1, (takeWhile_append_of digit first).2]
    exact keyword
  · rintro ⟨tail, member, slash, keyword⟩
    obtain ⟨before, rfl⟩ := (List.mem_tails _ _).mp member
    obtain ⟨after, rfl⟩ := List.head?_eq_some_iff.mp slash
    have found := of_flags (head?_dropWhile_forall isWordPart after) keyword
    rw [List.tail_cons, List.takeWhile_append_dropWhile] at found
    exact found.append before

instance (text : List Char) : Decidable (KeywordBehindSlash text) :=
  decidable_of_iff _ iff_tails.symm

end KeywordBehindSlash

namespace Masking

variable {m : Masking} {depth : Nat}

theorem regex_passes (code : m.InCode depth) {inClass : Bool} {text rest : List Char}
    (closed : regexBody inClass (text ++ rest) = (text, rest))
    (clean : ¬ KeywordBehindSlash (text ++ rest)) :
    { m with mode := .regex inClass }.Passes text rest (m.allow false) := by
  generalize whole : text ++ rest = all at closed clean
  fun_induction regexBody inClass all generalizing text with
  | case1 =>
    obtain ⟨rfl, rfl⟩ := List.append_eq_nil_iff.mp whole
    exact .stay rfl
  | case2 inClass x after front back read ih =>
    obtain ⟨rfl, rfl⟩ := Prod.mk.inj closed
    simp only [List.cons_append, List.cons.injEq, true_and] at whole
    refine .escape ?_ (ih whole read fun found => clean (found.append ['\\', x]))
    simp [Masking.step]
  | case3 inClass after escapes =>
    obtain ⟨rfl, rfl⟩ := Prod.mk.inj closed
    refine .stay (run_newline code (Or.inr rfl) fun tail => ?_)
    simp only [Masking.step, decide_true, Bool.true_or, if_true]
    rw [← code.settle]
  | case4 inClass x after escapes newline closes =>
    obtain ⟨rfl, rfl⟩ := Prod.mk.inj closed
    simp only [Bool.and_eq_true, decide_eq_true_eq, Bool.not_eq_true'] at closes
    obtain ⟨rfl, rfl⟩ := closes
    have ends := head?_dropWhile_forall isWordPart after
    -- the mask reads the flags as code, so a keyword among them would raise its flag
    have noKeyword : regexMayFollowWord ((after.takeWhile isWordPart).dropWhile Char.isDigit) =
        false := by
      by_contra keyword
      have found := KeywordBehindSlash.of_flags ends (Bool.not_eq_false _ ▸ keyword)
      rw [List.takeWhile_append_dropWhile] at found
      exact clean found
    refine .kept ?_ (by decide)
      (flags_passes code (fun y member => List.mem_takeWhile_imp member) ends noKeyword)
    simp only [Masking.step, decide_true, Bool.not_false, Bool.and_true, Bool.or_true, if_true]
    rw [code.settle]
  | case5 inClass x after escapes newline slash inClass' front back read =>
    rename_i ih
    obtain ⟨rfl, rfl⟩ := Prod.mk.inj closed
    simp only [List.cons_append, List.cons.injEq, true_and] at whole
    have stays : ¬ (decide (x = '\n') || decide (x = '/') && !inClass) = true := by
      simp [newline, slash]
    by_cases escape : x = '\\'
    · have ended : after = [] := eq_nil_of_no_escape escapes escape
      rw [ended, List.append_eq_nil_iff] at whole
      obtain ⟨rfl, rfl⟩ := whole
      refine .last ?_
      simp only [Masking.step, if_neg stays, if_pos escape]
    · refine .hidden ?_ (ih whole read fun found => clean (found.append [x]))
      simp only [Masking.step, if_neg stays, if_neg escape]
      split
      next opens => simp [inClass', opens]
      · split
        next closes => simp [inClass', closes]
        next other => simp_all [inClass']

end Masking

theorem punctuation_quiet {x : Char} (quiet : (punctuation x).quiet = true) :
    x ≠ '\x60' ∧ isBracket x = false := by
  simp only [punctuation] at quiet
  split at quiet
  · simp [Lexeme.quiet] at quiet
  next noTick =>
    refine ⟨noTick, ?_⟩
    split at quiet
    · simp [Lexeme.quiet] at quiet
    · simp [Lexeme.quiet] at quiet
    next noOpener noCloser =>
      have opens : Bracket.ofOpener? x = none := Option.eq_none_iff_forall_ne_some.mpr noOpener
      have closes : Bracket.ofCloser? x = none := Option.eq_none_iff_forall_ne_some.mpr noCloser
      simp [isBracket, opens, closes]

namespace Masking

variable {m : Masking} {depth : Nat}

theorem InCode.blank_passes (code : m.InCode depth) {x : Char} (blank : isAsciiBlank x = true)
    (rest : List Char) : m.Passes [x] rest m := by
  simp only [isAsciiBlank, Bool.or_eq_true, decide_eq_true_eq] at blank
  have plain : (x ≠ '\x27' ∧ x ≠ '\x22' ∧ x ≠ '\x60') ∧ (x ≠ '\x7b' ∧ x ≠ '\x7d') ∧
      isWordStart x = false ∧ x ≠ '/' ∧ isAsciiBlank x = true ∧ isBracket x = false := by
    rcases blank with (((rfl | rfl) | rfl) | rfl) | rfl <;> decide
  obtain ⟨notQuote, notCurly, notWord, notSlash, blank, notBracket⟩ := plain
  refine .kept ?_ notBracket (.stay rfl)
  rw [code.step_other notQuote notCurly notWord (fun slash => absurd slash notSlash), if_pos blank]
  rfl

/-- Masking passes over a lexeme that is no bracket and opens no template, and its flag for a `/`
to come ends as the lexeme's. -/
theorem InCode.lexeme_passes (code : m.InCode depth) {kind : Lexeme} {text rest : List Char}
    {flag after : Bool} (same : m.regexOk = flag) (lexes : Lexes flag kind text rest after)
    (quiet : kind.quiet = true) (clean : ¬ KeywordBehindSlash (text ++ rest)) :
    m.Passes text rest (m.allow after) := by
  have unmoved : m.allow flag = m := by rw [← same]; rfl
  cases lexes with
  | blank blank =>
    rw [unmoved]
    exact code.blank_passes blank rest
  | @lineComment _ text _ inside ends =>
    rw [unmoved]
    have slash : { m with mode := .lineComment }.Passes ('/' :: text) rest m :=
      .hidden rfl (lineComment_passes code inside ends)
    refine .hidden ?_ slash
    rw [code.step]
    simp [stepCode]
  | @blockComment _ text _ closed =>
    rw [unmoved]
    -- the `*` is hidden before the comment is read on, so `/*/` does not close itself
    have star : { m with mode := .escaped .blockComment }.Passes ('*' :: text) rest m :=
      .hidden rfl (blockComment_passes code closed)
    refine .hidden ?_ star
    rw [code.step]
    simp [stepCode]
  | openComment => simp [Lexeme.quiet] at quiet
  | @quoted _ quote text _ quotes closed =>
    have plain : isBracket quote = false := by rcases quotes with rfl | rfl <;> decide
    refine .kept ?_ plain (quoted_passes code quotes closed)
    rw [code.step]
    rcases quotes with rfl | rfl <;> rfl
  | @regex text _ noComment closed =>
    refine .kept ?_ (by decide) (regex_passes code closed fun found => clean (found.append ['/']))
    rw [code.step]
    generalize text ++ rest = behind at noComment
    simp only [opensComment, not_or] at noComment
    simp [stepCode, noComment.1, noComment.2, same]
  | word starts inside ends => exact word_passes code starts inside ends
  | @mark _ x _ notBlank notQuote notWord divides =>
    obtain ⟨noTick, notBracket⟩ := punctuation_quiet quiet
    have notCurly : x ≠ '\x7b' ∧ x ≠ '\x7d' := by
      constructor <;> (rintro rfl; revert notBracket; decide)
    refine .kept ?_ notBracket (.stay rfl)
    rw [List.nil_append, code.step_other ⟨notQuote.1, notQuote.2, noTick⟩ notCurly notWord
      (same ▸ divides), notBlank]
    rfl

end Masking

end Concord.Scan
