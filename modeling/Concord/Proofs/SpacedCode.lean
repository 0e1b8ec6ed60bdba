import Concord.Proofs.Comments
import Concord.Proofs.MaskStates

/-!
What masked code was. Where masking is in code, a comment is all that it hides before the next
quote, slash or curly bracket is shown. So blanks of the mask were blanks and comments of the text,
and the other characters of the mask were there before.
-/
namespace Concord.Scan

open Concord.Text

/-- Blanks and comments that are closed. -/
inductive Spacing : List Char → Prop where
  | nil : Spacing []
  | blank {c rest} (blank : isBlank c = true) (later : Spacing rest) : Spacing (c :: rest)
  | lineComment {body rest} (inLine : ∀ c ∈ body, c ≠ '\n') (later : Spacing ('\n' :: rest)) :
      Spacing ('/' :: '/' :: (body ++ '\n' :: rest))
  | blockComment {body rest} (closed : blockComment body = some (body, []))
      (later : Spacing rest) : Spacing ('/' :: '*' :: (body ++ rest))

theorem cleared_cons (c : Char) (rest : List Char) :
    cleared (c :: rest) = blanked c ++ cleared rest :=
  List.flatMap_cons

@[simp] theorem byteSize_cleared (text : List Char) : byteSize (cleared text) = byteSize text := by
  induction text with
  | nil => rfl
  | cons c rest ih =>
    rw [cleared_cons, byteSize_append, byteSize_blanked, byteSize, ih]

theorem isBlank_of_mem_cleared {text : List Char} {c : Char} (member : c ∈ cleared text) :
    isBlank c = true :=
  isBlank_of_isAsciiBlank (isAsciiBlank_of_mem_cleared member)

/-- The comment of a longer text is closed on its own. -/
theorem blockComment_alone {text body rest : List Char}
    (closed : blockComment text = some (body, rest)) : blockComment body = some (body, []) := by
  have whole := blockComment_append closed
  have own : blockComment (body ++ ([] ++ rest)) = some (body, [] ++ rest) := by
    simpa [whole] using closed
  have cut := blockComment_cut own
  rwa [List.append_nil] at cut

namespace Masking

variable {m : Masking} {depth : Nat}

/-! Runs through comments -/

theorem run_lineComment (code : m.InCode depth) {body rest : List Char}
    (inside : ∀ x ∈ body, x ≠ '\n') (ends : rest = [] ∨ rest.head? = some '\n') :
    { m with mode := .lineComment }.run (body ++ rest) = cleared body ++ m.run rest := by
  induction body with
  | nil =>
    have leaves : ∀ tail, { m with mode := .lineComment }.step '\n' tail =
        (['\n'], m.allow m.regexOk) := by
      intro tail
      simp only [Masking.step, if_true]
      rw [← code.settle]
    exact run_newline code ends leaves
  | cons x body ih =>
    rw [List.cons_append, run_cons, cleared_cons, List.append_assoc,
      ← ih fun y member => inside y (List.mem_cons_of_mem x member)]
    simp only [Masking.step, if_neg (inside x List.mem_cons_self)]

theorem not_closing {x : Char} {after : List Char}
    (inside : ∀ rest, x = '*' → after = '/' :: rest → False) :
    ¬ (x = '*' ∧ after.head? = some '/') := by
  rintro ⟨rfl, slash⟩
  obtain ⟨behind, slashed⟩ := List.head?_eq_some_iff.mp slash
  exact inside behind rfl slashed

theorem run_blockComment (code : m.InCode depth) {text body rest : List Char}
    (closed : blockComment text = some (body, rest)) :
    { m with mode := .blockComment }.run text = cleared body ++ m.run rest := by
  fun_induction blockComment text generalizing body with
  | case1 => cases closed
  | case2 after =>
    obtain ⟨rfl, rfl⟩ := Prod.mk.inj (Option.some.inj closed)
    have settled : { m with mode := .plain } = m := code.settle m.regexOk
    simp [run, Masking.step, cleared, settled]
  | case3 x after inside ih =>
    simp only [Option.map_eq_some_iff, Prod.mk.injEq, Prod.exists] at closed
    obtain ⟨front, back, found, rfl, rfl⟩ := closed
    rw [run_cons, cleared_cons, List.append_assoc, ← ih found]
    simp only [Masking.step]
    rw [if_neg (by simpa using not_closing inside)]

/-- A comment that is not closed hides the rest of the text. -/
theorem run_openComment {text : List Char} (unclosed : blockComment text = none) :
    { m with mode := .blockComment }.run text = cleared text := by
  fun_induction blockComment text with
  | case1 => rfl
  | case2 after => cases unclosed
  | case3 x after inside ih =>
    rw [run_cons, cleared_cons, ← ih (Option.map_eq_none_iff.mp unclosed)]
    simp only [Masking.step]
    rw [if_neg (by simpa using not_closing inside)]

/-! Code, between words or inside one -/

inductive Coding : Masking → Prop where
  | plain {base : Masking} {depth : Nat} (code : InCode base depth) : Coding base
  | word {base : Masking} {depth : Nat} {flag : Bool} (code : InCode base depth) :
      Coding { base with mode := .word flag }

/-- What opens or closes something, or may begin a comment. -/
def turnMarks : List Char :=
  ['\x27', '\x22', '\x60', '/', '\x7b', '\x7d']

def turns (c : Char) : Bool :=
  turnMarks.contains c

theorem turns_of_any {p : Char → Bool} {c : Char} (holds : p c = true)
    (never : turnMarks.any p = false) : turns c = false := by
  simpa [turns] using not_mem_of_any holds never

/-- Outside a word, a state inside a word is as good as one of code. -/
theorem Coding.leaves (coding : Coding m) {c : Char} (outside : isWordPart c = false) :
    ∃ base depth, InCode base depth ∧ ∀ rest, m.step c rest = base.stepCode depth c rest := by
  cases coding with
  | plain code => exact ⟨_, _, code, code.step c⟩
  | @word base depth flag code =>
    refine ⟨base.allow flag, depth, code.allow flag, fun rest => ?_⟩
    have step :
        { base with mode := .word flag }.step c rest = (base.allow flag).stepPlain c rest := by
      simp only [Masking.step]
      rw [if_neg (by simp [outside]), ← code.settle]
    rw [step, stepPlain, (code.allow flag).context]

/-- Code shows all its characters but those of comments. -/
theorem Coding.step_shown (coding : Coding m) {c : Char} {rest : List Char}
    (divides : ¬ (c = '/' ∧ opensComment rest)) : (m.step c rest).1 = [c] := by
  have shown (base : Masking) (depth : Nat) : (base.stepCode depth c rest).1 = [c] := by
    have noLine : ¬ (c = '/' ∧ rest.head? = some '/') :=
      fun opens => divides ⟨opens.1, Or.inl opens.2⟩
    have noBlock : ¬ (c = '/' ∧ rest.head? = some '*') :=
      fun opens => divides ⟨opens.1, Or.inr opens.2⟩
    fun_cases stepCode
    all_goals simp_all
  cases coding with
  | plain code =>
    rw [code.step]
    exact shown _ _
  | @word base depth flag code =>
    simp only [Masking.step]
    split
    · rfl
    · simp only [stepPlain, code.context]
      exact shown _ depth

/-- What opens and closes nothing leaves code as it is. -/
theorem Coding.step_coding (coding : Coding m) {c : Char} (straight : turns c = false)
    (rest : List Char) : Coding (m.step c rest).2 := by
  simp only [turns, turnMarks, List.contains_eq_mem, List.mem_cons, List.not_mem_nil, or_false,
    decide_eq_false_iff_not, not_or] at straight
  obtain ⟨notApostrophe, notQuote, notTick, notSlash, notOpen, notClose⟩ := straight
  have stays {base : Masking} {depth : Nat} (code : InCode base depth) :
      Coding (base.stepCode depth c rest).2 := by
    rcases Bool.eq_false_or_eq_true (isWordStart c) with starts | other
    · rw [← code.step, code.step_word starts]
      exact .word code
    · rw [← code.step, code.step_other ⟨notApostrophe, notQuote, notTick⟩ ⟨notOpen, notClose⟩ other
        fun slash => absurd slash notSlash]
      exact .plain (code.allow _)
  cases coding with
  | plain code =>
    rw [code.step]
    exact stays code
  | @word base depth flag code =>
    -- behind the word is the code it stands in
    rcases Bool.eq_false_or_eq_true (isWordPart c) with part | outside
    · simp only [Masking.step, part, if_true]
      exact .word code
    · have coding : Coding { base with mode := .word flag } := .word code
      obtain ⟨other, deeper, code', step⟩ := coding.leaves outside
      rw [step]
      exact stays code'

/-- A comment is hidden, and behind it is code. Spacing goes on behind it, in front of anything that
is shown. -/
theorem Coding.run_comment (coding : Coding m) {rest : List Char} (opens : opensComment rest) :
    ∃ comment behind base depth, '/' :: rest = comment ++ behind ∧ comment ≠ [] ∧
      InCode base depth ∧ m.run ('/' :: rest) = cleared comment ++ base.run behind ∧
      ∀ lead y tail, behind = lead ++ y :: tail → isBlank y = false → Spacing lead →
        Spacing (comment ++ lead) := by
  obtain ⟨base, depth, code, step⟩ := coding.leaves (c := '/') (by decide)
  rcases opens with slash | star
  · -- a line comment ends in front of a line break, or with the text
    obtain ⟨tail, rfl⟩ := List.head?_eq_some_iff.mp slash
    let body := tail.takeWhile (· ≠ '\n')
    let behind := tail.dropWhile (· ≠ '\n')
    have split : tail = body ++ behind := List.takeWhile_append_dropWhile.symm
    have inLine : ∀ x ∈ body, x ≠ '\n' := by
      intro x member
      simpa using List.mem_takeWhile_imp member
    have ends : behind = [] ∨ behind.head? = some '\n' := by
      cases first : behind.head? with
      | none => exact Or.inl (List.head?_eq_none_iff.mp first)
      | some x =>
        have newline := head?_dropWhile_forall (· ≠ '\n') tail x first
        exact Or.inr (by simpa using newline)
    refine ⟨'/' :: '/' :: body, behind, base, depth, by rw [split]; rfl, by simp, code, ?_, ?_⟩
    · have inside : ∀ x ∈ '/' :: body, x ≠ '\n' := by
        intro x member
        rcases List.mem_cons.mp member with rfl | member
        · decide
        · exact inLine x member
      have hidden := run_lineComment code inside ends
      have entered : base.stepCode depth '/' ('/' :: (body ++ behind)) =
          (blanked '/', { base with mode := .lineComment }) := rfl
      rw [run_cons, step, split, entered, cleared_cons, List.append_assoc, ← hidden]
      rfl
    · intro lead y tail' shown solid spacing
      -- what ends the comment is a line break, and that is no part of what is shown
      cases lead with
      | nil =>
        rcases ends with none | newline
        · rw [none] at shown
          cases shown
        · obtain rfl : y = '\n' := by simpa [shown] using newline
          cases solid
      | cons x lead =>
        obtain rfl : x = '\n' := by simpa [shown] using ends
        exact .lineComment inLine spacing
  · -- a block comment ends behind its `*/`, or it hides the rest of the text
    obtain ⟨tail, rfl⟩ := List.head?_eq_some_iff.mp star
    have entered : base.stepCode depth '/' ('*' :: tail) =
        (blanked '/', { base with mode := .escaped .blockComment }) := rfl
    have start : { base with mode := .escaped .blockComment }.run ('*' :: tail) =
        blanked '*' ++ { base with mode := .blockComment }.run tail := rfl
    cases closed : blockComment tail with
    | none =>
      refine ⟨'/' :: '*' :: tail, [], base, depth, by simp, by simp, code, ?_, by simp⟩
      rw [run_cons, step, entered, cleared_cons, cleared_cons, run, List.append_nil,
        ← run_openComment closed]
      rfl
    | some found =>
      obtain ⟨body, behind⟩ := found
      refine ⟨'/' :: '*' :: body, behind, base, depth, ?_, by simp, code, ?_, ?_⟩
      · rw [← blockComment_append closed]
        rfl
      · rw [run_cons, step, entered, cleared_cons, cleared_cons, List.append_assoc,
          List.append_assoc, ← run_blockComment code closed]
        rfl
      · intro lead y tail' shown solid spacing
        exact .blockComment (blockComment_alone closed) spacing

/-- Blanks of the mask were blanks and comments. -/
theorem Coding.run_spacing {text shown back : List Char} {y : Char} (coding : Coding m)
    (run : m.run text = shown ++ y :: back) (blank : ∀ c ∈ shown, isBlank c = true)
    (solid : isBlank y = false) :
    ∃ lead rest here, text = lead ++ y :: rest ∧ Spacing lead ∧ byteSize lead = byteSize shown ∧
      Coding here ∧ here.run (y :: rest) = y :: back := by
  -- the induction is on the length of the text, since a comment is passed at once
  induction length : text.length using Nat.strong_induction_on generalizing text shown m with
  | _ size ih =>
    cases text with
    | nil => simp [Masking.run] at run
    | cons c rest =>
      by_cases opens : c = '/' ∧ opensComment rest
      · obtain ⟨rfl, ahead⟩ := opens
        obtain ⟨comment, behind, base, depth, whole, nonempty, code, hidden, goesOn⟩ :=
          coding.run_comment ahead
        rw [hidden] at run
        have absent : y ∉ cleared comment := by
          intro member
          rw [isBlank_of_mem_cleared member] at solid
          cases solid
        obtain ⟨later, rfl, shownBehind⟩ := exists_of_append_eq run absent
        have shorter : behind.length < size := by
          have sizes := congrArg List.length whole
          have positive : 0 < comment.length := List.length_pos_iff.mpr nonempty
          rw [List.length_append] at sizes
          omega
        obtain ⟨lead, tail, here, split, spacing, same, codeHere, runHere⟩ :=
          ih behind.length shorter (.plain code) shownBehind
            (fun z member => blank z (List.mem_append_right _ member)) rfl
        refine ⟨comment ++ lead, tail, here, ?_, goesOn lead y tail split solid spacing, ?_,
          codeHere, runHere⟩
        · rw [whole, split, List.append_assoc]
        · rw [byteSize_append, byteSize_append, byteSize_cleared, same]
      · have out := coding.step_shown opens
        rw [run_cons, out] at run
        cases shown with
        | nil =>
          obtain ⟨rfl, behind⟩ := List.cons.inj run
          refine ⟨[], rest, m, rfl, .nil, rfl, coding, ?_⟩
          rw [run_cons, out]
          exact run
        | cons x shown =>
          obtain ⟨rfl, behind⟩ := List.cons.inj run
          have blankHere : isBlank c = true := blank c List.mem_cons_self
          have straight : turns c = false := turns_of_any blankHere (by decide)
          obtain ⟨lead, tail, here, rfl, spacing, same, code, later⟩ :=
            ih rest.length (by simp [← length]) (coding.step_coding straight rest) behind
              (fun z member => blank z (List.mem_cons_of_mem c member)) rfl
          exact ⟨c :: lead, tail, here, rfl, .blank blankHere spacing,
            by rw [byteSize, byteSize, same], code, later⟩

/-- Other characters of the mask stood in the text. -/
theorem Coding.run_verbatim {text word back : List Char} (coding : Coding m)
    (run : m.run text = word ++ back)
    (plain : ∀ c ∈ word, turns c = false ∧ c ≠ ' ' ∧ c ≠ '\n') :
    ∃ rest here, text = word ++ rest ∧ Coding here ∧ here.run rest = back := by
  -- by induction over the characters that are shown; none of them is a blank that could hide
  -- another
  induction word generalizing m text with
  | nil => exact ⟨text, m, rfl, coding, run⟩
  | cons x word ih =>
    obtain ⟨straight, solid⟩ := plain x List.mem_cons_self
    cases text with
    | nil => cases run
    | cons c rest =>
      rw [run_cons] at run
      rcases m.step_fst c rest with out | out
      · rw [out] at run
        obtain ⟨rfl, behind⟩ := List.cons.inj run
        obtain ⟨tail, here, rfl, code, later⟩ := ih (coding.step_coding straight rest) behind
          fun y member => plain y (List.mem_cons_of_mem c member)
        exact ⟨tail, here, rfl, code, later⟩
      · -- what is hidden would show a blank
        rw [out] at run
        exact ((eq_of_blanked_append run).elim solid.1 solid.2).elim

/-- Blanks and other characters of the mask: spacing and the same characters in the text. -/
theorem Coding.run_token {text shown word back : List Char} (coding : Coding m)
    (run : m.run text = shown ++ word ++ back) (blank : ∀ c ∈ shown, isBlank c = true)
    (starts : ∃ y ∈ word.head?, isBlank y = false)
    (plain : ∀ c ∈ word, turns c = false ∧ c ≠ ' ' ∧ c ≠ '\n') :
    ∃ lead rest here, text = lead ++ word ++ rest ∧ Spacing lead ∧
      byteSize lead = byteSize shown ∧ Coding here ∧ here.run rest = back := by
  obtain ⟨y, first, solid⟩ := starts
  obtain ⟨more, rfl⟩ := List.head?_eq_some_iff.mp first
  rw [List.append_assoc] at run
  obtain ⟨lead, tail, middle, rfl, spacing, size, coding, run⟩ := coding.run_spacing run blank solid
  obtain ⟨rest, here, split, coding, run⟩ := coding.run_verbatim run plain
  exact ⟨lead, rest, here, by rw [split, List.append_assoc], spacing, size, coding, run⟩

theorem shown_of_run {c : Char} {rest back : List Char} (solid : c ≠ ' ' ∧ c ≠ '\n')
    (run : m.run (c :: rest) = c :: back) :
    (m.step c rest).1 = [c] ∧ (m.step c rest).2.run rest = back := by
  rw [run_cons] at run
  rcases m.step_fst c rest with out | out
  · rw [out] at run
    exact ⟨out, (List.cons.inj run).2⟩
  · rw [out] at run
    exact ((eq_of_blanked_append run).elim solid.1 solid.2).elim

/-- The start of a name is shown in code, or it is the mark of a substitution. -/
theorem Arises.coding_of_shown {c : Char} {rest : List Char} (arises : Arises m (c :: rest))
    (starts : isPlainStart c = true) (shown : (m.step c rest).1 = [c]) :
    Coding m ∨ (m.step c rest).2.mode = .kept .plain ∧ rest.head? = some '\x7b' := by
  have other {x : Char} (never : isPlainStart x = false) : c ≠ x := by
    rintro rfl
    rw [starts] at never
    cases never
  have solid : c ≠ ' ' ∧ c ≠ '\n' := ⟨other (by decide), other (by decide)⟩
  have inert : isInert c = true := isInert_of_any starts (by decide)
  -- a state that hides shows no character that starts a name
  have hidden (hides : Hides m) : False := by
    rw [hides.step inert] at shown
    exact blanked_ne solid shown
  cases arises with
  | code => exact Or.inl (.plain ⟨rfl, rfl⟩)
  | @word depth outer flag regexOk =>
    have code : InCode ⟨.code depth, outer, .plain, regexOk⟩ depth := ⟨rfl, rfl⟩
    exact Or.inl (.word code)
  | quoted quotes => exact (hidden (.quoted quotes)).elim
  | regex => exact (hidden .regex).elim
  | lineComment => exact (hidden .lineComment).elim
  | blockComment => exact (hidden .blockComment).elim
  | quotedEscape quotes => exact (blanked_ne solid shown).elim
  | regexEscape => exact (blanked_ne solid shown).elim
  | templateEscape => exact (blanked_ne solid shown).elim
  | commentStart => exact (blanked_ne solid shown).elim
  | commentEnd => exact (blanked_ne solid shown).elim
  | substitution => exact absurd starts (by decide)
  | template =>
    -- in a template only the mark of a substitution is shown
    by_cases opens : c = '$' ∧ rest.head? = some '\x7b'
    · obtain ⟨rfl, bracket⟩ := opens
      exact Or.inr ⟨by simp [Masking.step, stepPlain, stepTemplate, bracket], bracket⟩
    · rw [step_template_text (other (by decide)) (other (by decide)) opens] at shown
      exact (blanked_ne solid shown).elim

end Masking

end Concord.Scan
