import Concord.Scan.Lexeme
import Mathlib.Data.List.TakeWhile

/-!
Lexemes as a relation between a text and what follows it. `Lexes` says which text is a lexeme in
front of which rest, without a cursor; `Cursor.lexeme?` reads exactly these. What follows a lexeme
can be cut off at any place behind it.
-/
namespace Concord.Scan

open Concord.Text

/-- What a single character is that starts no longer lexeme. -/
def punctuation (x : Char) : Lexeme :=
  if x = '\x60' then .backquote
  else
    match Bracket.ofOpener? x, Bracket.ofCloser? x with
    | some b, _ => .opener b
    | _, some b => .closer b
    | _, _ => .mark

/-- A `/` in front of this rest opens a comment. -/
def opensComment (rest : List Char) : Prop :=
  rest.head? = some '/' ∨ rest.head? = some '*'

/-- `Lexes regexOk kind text rest after`: in front of `rest`, and where a `/` may open a regular
expression if `regexOk` says so, `text` is a lexeme. `after` is the flag behind it. -/
inductive Lexes : Bool → Lexeme → List Char → List Char → Bool → Prop
  | blank {flag : Bool} {x : Char} {rest : List Char} (blank : isAsciiBlank x = true) :
      Lexes flag .blank [x] rest flag
  | lineComment {flag : Bool} {text rest : List Char} (inside : ∀ x ∈ text, x ≠ '\n')
      (ends : ∀ x ∈ rest.head?, x = '\n') : Lexes flag .comment ('/' :: '/' :: text) rest flag
  | blockComment {flag : Bool} {text rest : List Char}
      (closed : blockComment (text ++ rest) = some (text, rest)) :
      Lexes flag .comment ('/' :: '*' :: text) rest flag
  | openComment {flag : Bool} {text : List Char} (unclosed : blockComment text = none) :
      Lexes flag .openComment ('/' :: '*' :: text) [] flag
  | quoted {flag : Bool} {quote : Char} {text rest : List Char}
      (quotes : quote = '\x27' ∨ quote = '\x22')
      (closed : quoted quote (text ++ rest) = (text, rest)) :
      Lexes flag .literal (quote :: text) rest false
  | regex {text rest : List Char} (code : ¬ opensComment (text ++ rest))
      (closed : regexBody false (text ++ rest) = (text, rest)) :
      Lexes true .literal ('/' :: text) rest false
  | word {flag : Bool} {x : Char} {text rest : List Char} (starts : isWordStart x = true)
      (inside : ∀ y ∈ text, isWordPart y = true) (ends : ∀ y ∈ rest.head?, isWordPart y = false) :
      Lexes flag .word (x :: text) rest (regexMayFollowWord (x :: text))
  | mark {flag : Bool} {x : Char} {rest : List Char} (notBlank : isAsciiBlank x = false)
      (notQuote : x ≠ '\x27' ∧ x ≠ '\x22') (notWord : isWordStart x = false)
      (divides : x = '/' → flag = false ∧ ¬ opensComment rest) :
      Lexes flag (punctuation x) [x] rest (regexMayFollow x)

theorem head?_dropWhile_forall (p : Char → Bool) (text : List Char) :
    ∀ x ∈ (text.dropWhile p).head?, p x = false := by
  intro x member
  have first := List.head?_dropWhile_not p text
  rw [Option.mem_def.mp member] at first
  simpa using first

/-- A run ends where the text says: behind it comes nothing, or a character outside the run. -/
theorem takeWhile_append_of {p : Char → Bool} {text rest : List Char}
    (inside : ∀ x ∈ text, p x = true) (ends : ∀ x ∈ rest.head?, p x = false) :
    (text ++ rest).takeWhile p = text ∧ (text ++ rest).dropWhile p = rest := by
  rw [List.takeWhile_append_of_pos inside, List.dropWhile_append_of_pos inside]
  cases rest with
  | nil => simp
  | cons x rest => simp [ends x (by simp)]

theorem isWordStart_not_special {x : Char} (starts : isWordStart x = true) :
    isAsciiBlank x = false ∧ x ≠ '\x27' ∧ x ≠ '\x22' ∧ x ≠ '/' := by
  refine ⟨?_, ?_, ?_, ?_⟩
  · by_contra blank
    simp only [Bool.not_eq_false, isAsciiBlank, Bool.or_eq_true, decide_eq_true_eq] at blank
    rcases blank with (((rfl | rfl) | rfl) | rfl) | rfl <;> simp [isWordStart] at starts
  all_goals
    rintro rfl
    revert starts
    decide

namespace Cursor

/-- Characters that start no comment are told apart one test after the other. -/
theorem lexeme?_of_code {c : Cursor} {x : Char} {rest : List Char} (text : c.rest = x :: rest)
    (code : x = '/' → ¬ opensComment rest) :
    c.lexeme? =
      if isAsciiBlank x then some (.blank, c.advance [x] rest c.regexOk)
      else if x = '\x27' || x = '\x22' then
        some (.literal, c.advance (x :: (quoted x rest).1) (quoted x rest).2 false)
      else if x = '/' && c.regexOk then
        some (.literal, c.advance (x :: (regexBody false rest).1) (regexBody false rest).2 false)
      else if isWordStart x then
        some (.word, c.advance (x :: rest.takeWhile isWordPart) (rest.dropWhile isWordPart)
          (regexMayFollowWord (x :: rest.takeWhile isWordPart)))
      else some (punctuation x, c.advance [x] rest (regexMayFollow x)) := by
  unfold lexeme?
  -- only the two patterns for comments look further than one character, and both are excluded
  split
  next none => simp [none] at text
  next comment =>
    obtain ⟨rfl, rfl⟩ := List.cons.inj (comment.symm.trans text)
    exact absurd (Or.inl rfl) (code rfl)
  next comment =>
    obtain ⟨rfl, rfl⟩ := List.cons.inj (comment.symm.trans text)
    exact absurd (Or.inr rfl) (code rfl)
  next same =>
    obtain ⟨rfl, rfl⟩ := List.cons.inj (same.symm.trans text)
    rfl

/-- Every lexeme that is read is one. -/
theorem lexeme?_lexes {c next : Cursor} {kind : Lexeme} (read : c.lexeme? = some (kind, next)) :
    ∃ text, c.rest = text ++ next.rest ∧ next = c.advance text next.rest next.regexOk ∧
      Lexes c.regexOk kind text next.rest next.regexOk := by
  -- comments are told by two characters, everything else by one
  by_cases comment : ∃ rest, c.rest = '/' :: rest ∧ opensComment rest
  · obtain ⟨rest, text, opens | opens⟩ := comment
    · obtain ⟨tail, rfl⟩ := List.head?_eq_some_iff.mp opens
      simp only [lexeme?, text, Option.some.injEq, Prod.mk.injEq] at read
      obtain ⟨rfl, rfl⟩ := read
      refine ⟨_, ?_, rfl, .lineComment ?_ ?_⟩
      · simp [advance, text, List.takeWhile_append_dropWhile]
      · intro x member
        simpa using List.mem_takeWhile_imp member
      · intro x member
        simpa using head?_dropWhile_forall _ _ x member
    · obtain ⟨tail, rfl⟩ := List.head?_eq_some_iff.mp opens
      simp only [lexeme?, text] at read
      split at read
      next unclosed =>
        simp only [Option.some.injEq, Prod.mk.injEq] at read
        obtain ⟨rfl, rfl⟩ := read
        exact ⟨_, by simp [advance, text], rfl, .openComment unclosed⟩
      next front behind closed =>
        simp only [Option.some.injEq, Prod.mk.injEq] at read
        obtain ⟨rfl, rfl⟩ := read
        have whole := blockComment_append closed
        refine ⟨_, by simp [advance, text, whole], rfl, .blockComment ?_⟩
        simp [advance, whole, closed]
  · cases text : c.rest with
    | nil => simp [lexeme?, text] at read
    | cons x rest =>
      have code : x = '/' → ¬ opensComment rest := by
        rintro rfl opens
        exact comment ⟨rest, text, opens⟩
      rw [lexeme?_of_code text code] at read
      split at read
      next blank =>
        simp only [Option.some.injEq, Prod.mk.injEq] at read
        obtain ⟨rfl, rfl⟩ := read
        exact ⟨[x], rfl, rfl, .blank blank⟩
      next notBlank =>
        split at read
        next quotes =>
          simp only [Option.some.injEq, Prod.mk.injEq] at read
          obtain ⟨rfl, rfl⟩ := read
          refine ⟨_, by simp [advance, quoted_append], rfl, .quoted (by simpa using quotes) ?_⟩
          simp [advance, quoted_append]
        next notQuote =>
          split at read
          next slash =>
            simp only [Bool.and_eq_true, decide_eq_true_eq] at slash
            obtain ⟨rfl, flag⟩ := slash
            simp only [Option.some.injEq, Prod.mk.injEq] at read
            obtain ⟨rfl, rfl⟩ := read
            rw [flag]
            refine ⟨_, by simp [advance, regexBody_append], rfl, .regex ?_ ?_⟩
            · simpa [advance, regexBody_append] using code rfl
            · simp [advance, regexBody_append]
          next division =>
            split at read
            next starts =>
              simp only [Option.some.injEq, Prod.mk.injEq] at read
              obtain ⟨rfl, rfl⟩ := read
              refine ⟨_, ?_, rfl, .word starts ?_ ?_⟩
              · simp [advance, List.takeWhile_append_dropWhile]
              · exact fun y member => List.mem_takeWhile_imp member
              · exact head?_dropWhile_forall _ _
            next notWord =>
              simp only [Option.some.injEq, Prod.mk.injEq] at read
              obtain ⟨rfl, rfl⟩ := read
              refine ⟨[x], rfl, rfl, .mark (by simpa using notBlank) (by simpa using notQuote)
                (by simpa using notWord) ?_⟩
              rintro rfl
              exact ⟨by simpa using division, code rfl⟩

/-- Every lexeme is read. -/
theorem lexeme?_of_lexes {c : Cursor} {kind : Lexeme} {text rest : List Char} {after : Bool}
    (lexes : Lexes c.regexOk kind text rest after) (split : c.rest = text ++ rest) :
    c.lexeme? = some (kind, c.advance text rest after) := by
  generalize flag : c.regexOk = regexOk at lexes
  -- each kind is found by the first test that its first character passes
  cases lexes with
  | @blank _ x _ blank =>
    have code : x ≠ '/' := by
      rintro rfl
      revert blank
      decide
    rw [lexeme?_of_code (by simpa using split) (fun slash => absurd slash code), if_pos blank, flag]
  | @lineComment _ text _ inside ends =>
    have run : (text ++ rest).takeWhile (· ≠ '\n') = text ∧
        (text ++ rest).dropWhile (· ≠ '\n') = rest :=
      takeWhile_append_of (by simpa using inside) (by simpa using ends)
    simp only [lexeme?, split, List.cons_append]
    rw [run.1, run.2, flag]
  | @blockComment _ text _ closed =>
    simp only [lexeme?, split, List.cons_append]
    rw [closed, flag]
  | @openComment _ text unclosed =>
    simp only [lexeme?, split, List.append_nil]
    rw [unclosed, flag]
  | @quoted _ quote text _ quotes closed =>
    have notSlash : quote ≠ '/' := by rcases quotes with rfl | rfl <;> decide
    have notBlank : isAsciiBlank quote = false := by rcases quotes with rfl | rfl <;> decide
    rw [lexeme?_of_code (by simpa using split) (fun slash => absurd slash notSlash),
      if_neg (by simp [notBlank]), if_pos (by simpa using quotes), closed]
  | @regex text _ code closed =>
    rw [lexeme?_of_code (by simpa using split) (fun _ => code), if_neg (by decide),
      if_neg (by decide), if_pos (by simp [flag]), closed]
  | @word _ x text _ starts inside ends =>
    obtain ⟨notBlank, notApostrophe, notQuote, notSlash⟩ := isWordStart_not_special starts
    obtain ⟨front, behind⟩ := takeWhile_append_of inside ends
    rw [lexeme?_of_code (by simpa using split) (fun slash => absurd slash notSlash),
      if_neg (by simp [notBlank]), if_neg (by simp [notApostrophe, notQuote]),
      if_neg (by simp [notSlash]), if_pos starts, front, behind]
  -- a mark is what all tests leave over; a slash is one where no expression may begin
  | @mark _ x _ notBlank notQuote notWord divides =>
    rw [lexeme?_of_code (by simpa using split) (fun slash => (divides slash).2),
      if_neg (by simp [notBlank]), if_neg (by simpa using notQuote), if_neg,
      if_neg (by simp [notWord])]
    simp only [Bool.and_eq_true, decide_eq_true_eq, not_and, Bool.not_eq_true]
    intro slash
    rw [flag]
    exact (divides slash).1

end Cursor

/-! What follows a lexeme can be cut -/

theorem opensComment_append {front back : List Char} (opens : opensComment front) :
    opensComment (front ++ back) := by
  cases front with
  | nil => simp [opensComment] at opens
  | cons x front => simpa [opensComment] using opens

theorem head?_of_append {p : Char → Prop} {front back : List Char}
    (all : ∀ x ∈ (front ++ back).head?, p x) : ∀ x ∈ front.head?, p x := by
  cases front with
  | nil => simp
  | cons x front => simpa using all

/-- A back slash that escapes nothing is the last character. -/
theorem eq_nil_of_no_escape {x : Char} {rest : List Char}
    (noEscape : ∀ y tail, x = '\\' → rest = y :: tail → False) (escape : x = '\\') : rest = [] := by
  cases rest with
  | nil => rfl
  | cons y tail => exact (noEscape y tail escape rfl).elim

/-- A character inside quotes that escapes nothing. -/
theorem quoted_cons {quote x : Char} {rest : List Char} (plain : x = '\\' → rest = []) :
    quoted quote (x :: rest) =
      if x = '\n' then ([], x :: rest)
      else if x = quote then ([x], rest)
      else (x :: (quoted quote rest).1, (quoted quote rest).2) := by
  rw [quoted]
  rintro y tail rfl rfl
  simp at plain

theorem quoted_cut {quote : Char} {text rest tail : List Char}
    (closed : quoted quote (text ++ (rest ++ tail)) = (text, rest ++ tail)) :
    quoted quote (text ++ rest) = (text, rest) := by
  generalize whole : text ++ (rest ++ tail) = all at closed
  fun_induction quoted quote all generalizing text with
  | case1 => simp_all [quoted]
  | case2 x after front back read ih =>
    obtain ⟨rfl, rfl⟩ := Prod.mk.inj closed
    simp only [List.cons_append, List.cons.injEq, true_and] at whole
    simp [quoted, ih whole read]
  | case3 after escapes =>
    -- the line break that ends the literal may itself be cut off
    obtain ⟨rfl, -⟩ := Prod.mk.inj closed
    cases rest with
    | nil => simp [quoted]
    | cons y rest =>
      simp only [List.nil_append, List.cons_append, List.cons.injEq] at whole
      rw [List.nil_append, quoted_cons (by simp [whole.1]), if_pos whole.1]
  | case4 after escapes newline =>
    obtain ⟨rfl, rfl⟩ := Prod.mk.inj closed
    rw [List.cons_append, List.nil_append, quoted_cons, if_neg newline, if_pos rfl]
    intro back
    exact (List.append_eq_nil_iff.mp (eq_nil_of_no_escape escapes back)).1
  | case5 x after escapes newline other front back read ih =>
    obtain ⟨rfl, rfl⟩ := Prod.mk.inj closed
    simp only [List.cons_append, List.cons.injEq, true_and] at whole
    rw [List.cons_append, quoted_cons, if_neg newline, if_neg other, ih whole read]
    intro back
    rw [eq_nil_of_no_escape escapes back, List.append_eq_nil_iff, List.append_eq_nil_iff] at whole
    rw [whole.1, whole.2.1, List.append_nil]

/-- A character of a regular expression that escapes nothing. -/
theorem regexBody_cons {inClass : Bool} {x : Char} {rest : List Char}
    (plain : x = '\\' → rest = []) :
    regexBody inClass (x :: rest) =
      if x = '\n' then ([], x :: rest)
      else if x = '/' && !inClass then
        (x :: rest.takeWhile isWordPart, rest.dropWhile isWordPart)
      else
        let body := regexBody (if x = '[' then true else if x = ']' then false else inClass) rest
        (x :: body.1, body.2) := by
  rw [regexBody]
  rintro y tail rfl rfl
  simp at plain

theorem regexBody_cut {inClass : Bool} {text rest tail : List Char}
    (closed : regexBody inClass (text ++ (rest ++ tail)) = (text, rest ++ tail)) :
    regexBody inClass (text ++ rest) = (text, rest) := by
  generalize whole : text ++ (rest ++ tail) = all at closed
  fun_induction regexBody inClass all generalizing text with
  | case1 => simp_all [regexBody]
  | case2 inClass x after front back read ih =>
    obtain ⟨rfl, rfl⟩ := Prod.mk.inj closed
    simp only [List.cons_append, List.cons.injEq, true_and] at whole
    simp [regexBody, ih whole read]
  | case3 inClass after escapes =>
    obtain ⟨rfl, -⟩ := Prod.mk.inj closed
    cases rest with
    | nil => simp [regexBody]
    | cons y rest =>
      simp only [List.nil_append, List.cons_append, List.cons.injEq] at whole
      rw [List.nil_append, regexBody_cons (by simp [whole.1]), if_pos whole.1]
  | case4 inClass x after escapes newline slash =>
    obtain ⟨rfl, flags⟩ := Prod.mk.inj closed
    -- the flags end in front of the cut, so they end there without it as well
    have ends : ∀ y ∈ (rest ++ tail).head?, isWordPart y = false := by
      rw [← flags]
      exact head?_dropWhile_forall isWordPart after
    obtain ⟨front, back⟩ := takeWhile_append_of
      (fun y (member : y ∈ after.takeWhile isWordPart) => List.mem_takeWhile_imp member)
      (head?_of_append ends)
    have notBack : x ≠ '\\' := by
      simp only [Bool.and_eq_true, decide_eq_true_eq] at slash
      rw [slash.1]
      decide
    rw [List.cons_append, regexBody_cons (fun back => absurd back notBack), if_neg newline,
      if_pos slash, front, back]
  | case5 inClass x after escapes newline slash inClass' front back read =>
    rename_i ih
    obtain ⟨rfl, rfl⟩ := Prod.mk.inj closed
    simp only [List.cons_append, List.cons.injEq, true_and] at whole
    rw [List.cons_append, regexBody_cons, if_neg newline, if_neg slash]
    · simp only
      rw [ih whole read]
    · intro back
      rw [eq_nil_of_no_escape escapes back, List.append_eq_nil_iff, List.append_eq_nil_iff] at whole
      rw [whole.1, whole.2.1, List.append_nil]

theorem blockComment_cons {x : Char} {rest : List Char}
    (inside : ¬ (x = '*' ∧ rest.head? = some '/')) :
    blockComment (x :: rest) =
      (blockComment rest).map fun (text, tail) => (x :: text, tail) := by
  rw [blockComment]
  rintro tail rfl rfl
  simp at inside

theorem blockComment_cut {text rest tail : List Char}
    (closed : blockComment (text ++ (rest ++ tail)) = some (text, rest ++ tail)) :
    blockComment (text ++ rest) = some (text, rest) := by
  generalize whole : text ++ (rest ++ tail) = all at closed
  -- by the recursion of the reader, with the text that is passed as what is left of the cut one
  fun_induction blockComment all generalizing text with
  | case1 => simp at closed
  | case2 after =>
    simp only [Option.some.injEq, Prod.mk.injEq] at closed
    obtain ⟨rfl, rfl⟩ := closed
    simp [blockComment]
  | case3 x after inside ih =>
    simp only [Option.map_eq_some_iff, Prod.mk.injEq, Prod.exists] at closed
    obtain ⟨front, back, found, rfl, rfl⟩ := closed
    simp only [List.cons_append, List.cons.injEq, true_and] at whole
    rw [List.cons_append, blockComment_cons, ih whole found]
    · rfl
    · -- a comment that the cut text closes here is closed here in the whole text
      rintro ⟨rfl, slash⟩
      obtain ⟨behind, slashed⟩ := List.head?_eq_some_iff.mp slash
      refine inside (behind ++ tail) rfl ?_
      rw [← whole, ← List.append_assoc, slashed, List.cons_append]

theorem Lexes.cut {flag after : Bool} {kind : Lexeme} {text rest tail : List Char}
    (lexes : Lexes flag kind text (rest ++ tail) after) : Lexes flag kind text rest after := by
  generalize whole : rest ++ tail = all at lexes
  -- what follows matters to a lexeme only by its first characters, which the cut keeps or takes
  -- away
  cases lexes with
  | blank blank => exact .blank blank
  | lineComment inside ends =>
    subst whole
    exact .lineComment inside (head?_of_append ends)
  | blockComment closed =>
    subst whole
    exact .blockComment (blockComment_cut closed)
  | openComment unclosed =>
    obtain ⟨rfl, rfl⟩ := List.append_eq_nil_iff.mp whole
    exact .openComment unclosed
  | quoted quotes closed =>
    subst whole
    exact .quoted quotes (quoted_cut closed)
  | regex code closed =>
    subst whole
    refine .regex (fun opens => code ?_) (regexBody_cut closed)
    rw [← List.append_assoc]
    exact opensComment_append opens
  | word starts inside ends =>
    subst whole
    exact .word starts inside (head?_of_append ends)
  | mark notBlank notQuote notWord divides =>
    subst whole
    refine .mark notBlank notQuote notWord fun slash => ⟨(divides slash).1, fun opens => ?_⟩
    exact (divides slash).2 (opensComment_append opens)

theorem Lexes.ne_nil {flag after : Bool} {kind : Lexeme} {text rest : List Char}
    (lexes : Lexes flag kind text rest after) : text ≠ [] := by
  cases lexes <;> simp

/-! Brackets and back quotes -/

/-- Lexemes that leave the nesting as it is. -/
def Lexeme.quiet : Lexeme → Bool
  | .openComment | .opener _ | .closer _ | .backquote => false
  | .blank | .comment | .literal | .word | .mark => true

theorem punctuation_eq_opener {x : Char} {bracket : Bracket}
    (opens : punctuation x = .opener bracket) : x = bracket.opener := by
  simp only [punctuation] at opens
  split at opens
  · cases opens
  · split at opens <;> cases opens
    next found => exact Bracket.eq_opener_of_ofOpener? found

theorem punctuation_eq_closer {x : Char} {bracket : Bracket}
    (closes : punctuation x = .closer bracket) : x = bracket.closer := by
  simp only [punctuation] at closes
  split at closes
  · cases closes
  · split at closes <;> cases closes
    next found => exact Bracket.eq_closer_of_ofCloser? found

theorem punctuation_eq_backquote {x : Char} (tick : punctuation x = .backquote) : x = '\x60' := by
  simp only [punctuation] at tick
  split at tick
  next same => exact same
  · split at tick <;> cases tick

/-- Lexemes that change the nesting are single characters. -/
theorem Lexes.loud {flag after : Bool} {kind : Lexeme} {text rest : List Char}
    (lexes : Lexes flag kind text rest after) (loud : kind.quiet = false)
    (closed : kind ≠ .openComment) :
    ∃ x, punctuation x = kind ∧ text = [x] ∧ isAsciiBlank x = false ∧ after = regexMayFollow x := by
  cases lexes with
  | openComment => exact absurd rfl closed
  | mark notBlank => exact ⟨_, rfl, rfl, notBlank, rfl⟩
  | _ => simp [Lexeme.quiet] at loud

section

variable {flag after : Bool} {bracket : Bracket} {text rest : List Char}

theorem Lexes.opener_text (lexes : Lexes flag (.opener bracket) text rest after) :
    text = [bracket.opener] ∧ after = true := by
  obtain ⟨x, named, rfl, -, rfl⟩ := lexes.loud rfl (by simp)
  obtain rfl := punctuation_eq_opener named
  refine ⟨rfl, ?_⟩
  cases bracket <;> rfl

theorem Lexes.closer_text (lexes : Lexes flag (.closer bracket) text rest after) :
    text = [bracket.closer] ∧ after = regexMayFollow bracket.closer := by
  obtain ⟨x, named, rfl, -, rfl⟩ := lexes.loud rfl (by simp)
  obtain rfl := punctuation_eq_closer named
  exact ⟨rfl, rfl⟩

theorem Lexes.backquote_text (lexes : Lexes flag .backquote text rest after) : text = ['\x60'] := by
  obtain ⟨x, named, rfl, -, rfl⟩ := lexes.loud rfl (by simp)
  rw [punctuation_eq_backquote named]

end

end Concord.Scan
