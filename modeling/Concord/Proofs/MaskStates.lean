import Concord.Proofs.MaskedLexemes

/-!
The states masking comes to. Most modes last only inside code, and what is escaped or kept without
looking at it is known in advance: the second character of a comment's mark, or the bracket that
opens a substitution.
-/
namespace Concord.Scan

open Concord.Text

@[simp] theorem byteSize_blanked (c : Char) : byteSize (blanked c) = c.utf8Size := by
  have spaces : ∀ count, byteSize (List.replicate count ' ') = count := by
    intro count
    induction count with
    | zero => rfl
    | succ count ih =>
      rw [List.replicate_succ, byteSize, ih, show ' '.utf8Size = 1 from rfl, Nat.add_comm]
  simp only [blanked]
  split
  next newline => simp [byteSize, newline]
  next => exact spaces c.utf8Size

theorem mem_blanked {c x : Char} (member : x ∈ blanked c) : x = ' ' ∨ x = '\n' := by
  simp only [blanked] at member
  split at member
  · exact Or.inr (List.mem_singleton.mp member)
  · exact Or.inl (List.eq_of_mem_replicate member)

/-- Where a character is blanked a blank comes first. -/
theorem eq_of_blanked_append {c x : Char} {more back : List Char}
    (same : blanked c ++ more = x :: back) : x = ' ' ∨ x = '\n' := by
  cases hidden : blanked c with
  | nil =>
    have positive := c.utf8Size_pos
    rw [← byteSize_blanked, hidden, byteSize] at positive
    cases positive
  | cons y later =>
    rw [hidden] at same
    obtain ⟨rfl, -⟩ := List.cons.inj same
    exact mem_blanked (c := c) (by simp [hidden])

/-- What does not stand in the front of a text stands behind it. -/
theorem exists_of_append_eq {front more before back : List Char} {y : Char}
    (same : front ++ more = before ++ y :: back) (absent : y ∉ front) :
    ∃ later, before = front ++ later ∧ more = later ++ y :: back := by
  rcases List.append_eq_append_iff.mp same with found | ⟨rest, split, behind⟩
  · exact found
  · cases rest with
    | nil => exact ⟨[], by simpa using split.symm, behind.symm⟩
    | cons x rest =>
      obtain ⟨rfl, -⟩ := List.cons.inj behind
      refine absurd ?_ absent
      rw [split]
      exact List.mem_append_right before List.mem_cons_self

namespace Masking

theorem run_cons (m : Masking) (c : Char) (rest : List Char) :
    m.run (c :: rest) = (m.step c rest).1 ++ (m.step c rest).2.run rest :=
  rfl

/-- The states masking can be in with `rest` to come. -/
inductive Arises : Masking → List Char → Prop where
  | code {depth outer regexOk rest} : Arises ⟨.code depth, outer, .plain, regexOk⟩ rest
  | word {depth outer flag regexOk rest} : Arises ⟨.code depth, outer, .word flag, regexOk⟩ rest
  | quoted {depth outer quote regexOk rest} (quotes : quote = '\x27' ∨ quote = '\x22') :
      Arises ⟨.code depth, outer, .quoted quote, regexOk⟩ rest
  | quotedEscape {depth outer quote regexOk rest} (quotes : quote = '\x27' ∨ quote = '\x22') :
      Arises ⟨.code depth, outer, .escaped (.quoted quote), regexOk⟩ rest
  | regex {depth outer inClass regexOk rest} :
      Arises ⟨.code depth, outer, .regex inClass, regexOk⟩ rest
  | regexEscape {depth outer inClass regexOk rest} :
      Arises ⟨.code depth, outer, .escaped (.regex inClass), regexOk⟩ rest
  | lineComment {depth outer regexOk rest} :
      Arises ⟨.code depth, outer, .lineComment, regexOk⟩ rest
  | commentStart {depth outer regexOk rest} :
      Arises ⟨.code depth, outer, .escaped .blockComment, regexOk⟩ ('*' :: rest)
  | blockComment {depth outer regexOk rest} :
      Arises ⟨.code depth, outer, .blockComment, regexOk⟩ rest
  | commentEnd {depth outer regexOk rest} :
      Arises ⟨.code depth, outer, .escaped .plain, regexOk⟩ ('/' :: rest)
  | template {outer regexOk rest} : Arises ⟨.template, outer, .plain, regexOk⟩ rest
  | templateEscape {outer regexOk rest} :
      Arises ⟨.template, outer, .escaped .plain, regexOk⟩ rest
  | substitution {outer regexOk rest} :
      Arises ⟨.code 0, .template :: outer, .kept .plain, regexOk⟩ ('\x7b' :: rest)

theorem arises_plain (context : Context) (outer : List Context) (regexOk : Bool)
    (rest : List Char) : Arises ⟨context, outer, .plain, regexOk⟩ rest := by
  cases context with
  | code depth => exact .code
  | template => exact .template

theorem arises_initial (text : List Char) : Arises initial text :=
  .code

theorem stepTemplate_arises {m : Masking} (context : m.context = .template)
    (mode : m.mode = .plain) (c : Char) (rest : List Char) :
    Arises (m.stepTemplate c rest).2 rest := by
  obtain ⟨inner, outer, m, regexOk⟩ := m
  obtain rfl : inner = .template := context
  obtain rfl : m = .plain := mode
  -- the tests of the step in their order: an escape, the closing mark, a substitution, else text
  simp only [stepTemplate]
  split
  next => exact .templateEscape
  split
  next =>
    split
    · exact .code
    · exact arises_plain ..
  split
  next opens =>
    simp only [Bool.and_eq_true, decide_eq_true_eq] at opens
    obtain ⟨tail, rfl⟩ := List.head?_eq_some_iff.mp opens.2
    exact .substitution
  next => exact .template

theorem stepCode_arises {m : Masking} {depth : Nat} (code : m.InCode depth) (c : Char)
    (rest : List Char) : Arises (m.stepCode depth c rest).2 rest := by
  obtain ⟨context, outer, mode, regexOk⟩ := m
  obtain ⟨rfl, rfl⟩ : context = .code depth ∧ mode = .plain := ⟨code.context, code.mode⟩
  -- a state that waits for its second character keeps that character in front, as in `/*` and `*/`
  simp only [stepCode]
  split
  next quotes =>
    simp only [Bool.or_eq_true, decide_eq_true_eq] at quotes
    exact .quoted quotes
  split
  next => exact .template
  split
  next => exact .lineComment
  split
  next opens =>
    simp only [Bool.and_eq_true, decide_eq_true_eq] at opens
    obtain ⟨tail, rfl⟩ := List.head?_eq_some_iff.mp opens.2
    exact .commentStart
  split
  next => exact .regex
  split
  next => exact .code
  split
  next =>
    split
    · exact arises_plain ..
    · exact .code
  split
  next => exact .word
  next => exact .code

theorem Arises.step {m : Masking} {c : Char} {rest : List Char} (arises : Arises m (c :: rest)) :
    Arises (m.step c rest).2 rest := by
  -- from each state that arises, every step leads to one that does
  cases arises with
  | code => exact stepCode_arises ⟨rfl, rfl⟩ c rest
  | word =>
    simp only [Masking.step]
    split
    · exact .word
    · exact stepCode_arises ⟨rfl, rfl⟩ c rest
  | quoted quotes =>
    simp only [Masking.step]
    split
    · exact .code
    split
    · exact .code
    split
    · exact .quotedEscape quotes
    · exact .quoted quotes
  | quotedEscape quotes => exact .quoted quotes
  | regex =>
    simp only [Masking.step]
    split
    · exact .code
    split
    · exact .regexEscape
    split
    · exact .regex
    split
    · exact .regex
    · exact .regex
  | regexEscape => exact .regex
  | lineComment =>
    simp only [Masking.step]
    split
    · exact .code
    · exact .lineComment
  | commentStart => exact .blockComment
  | blockComment =>
    simp only [Masking.step]
    split
    next closes =>
      simp only [Bool.and_eq_true, decide_eq_true_eq] at closes
      obtain ⟨tail, rfl⟩ := List.head?_eq_some_iff.mp closes.2
      exact .commentEnd
    next => exact .blockComment
  | commentEnd => exact .code
  | template => exact stepTemplate_arises rfl rfl c rest
  | templateEscape => exact .template
  | substitution => exact .code

theorem stepPlain_fst (m : Masking) (c : Char) (rest : List Char) :
    (m.stepPlain c rest).1 = [c] ∨ (m.stepPlain c rest).1 = blanked c := by
  simp only [stepPlain]
  split
  · fun_cases stepTemplate m c rest <;> simp
  · fun_cases stepCode <;> simp

/-- A character is shown or blanked. -/
theorem step_fst (m : Masking) (c : Char) (rest : List Char) :
    (m.step c rest).1 = [c] ∨ (m.step c rest).1 = blanked c := by
  fun_cases step m c rest
  all_goals first | exact Or.inl rfl | exact Or.inr rfl | exact stepPlain_fst ..

theorem byteSize_step_fst (m : Masking) (c : Char) (rest : List Char) :
    byteSize (m.step c rest).1 = c.utf8Size := by
  rcases m.step_fst c rest with out | out
  · simp [out, byteSize]
  · rw [out, byteSize_blanked]

/-- A shown character that is no blank is a character of the text, at the same byte position. -/
theorem Arises.run_split {m : Masking} {text front back : List Char} {y : Char}
    (arises : Arises m text) (shown : m.run text = front ++ y :: back)
    (solid : y ≠ ' ' ∧ y ≠ '\n') :
    ∃ (before rest : List Char) (here : Masking), text = before ++ y :: rest ∧
      byteSize before = byteSize front ∧ Arises here (y :: rest) ∧
      here.run (y :: rest) = y :: back := by
  induction text generalizing m front with
  | nil => simp [run] at shown
  | cons c rest ih =>
    have whole := (run_cons m c rest).symm.trans shown
    -- the character stands behind this step, unless the step shows nothing but it
    by_cases here : front = [] ∧ (m.step c rest).1 = [c]
    · obtain ⟨rfl, out⟩ := here
      obtain ⟨rfl, -⟩ : c = y ∧ _ := by simpa [out] using whole
      exact ⟨[], rest, m, rfl, rfl, arises, shown⟩
    · obtain ⟨later, rfl, behind⟩ : ∃ later, front = (m.step c rest).1 ++ later ∧
          (m.step c rest).2.run rest = later ++ y :: back := by
        rcases m.step_fst c rest with out | out
        · obtain ⟨x, later, rfl⟩ := List.exists_cons_of_ne_nil fun none => here ⟨none, out⟩
          obtain ⟨rfl, behind⟩ : c = x ∧ _ := by simpa [out] using whole
          exact ⟨later, by rw [out]; rfl, behind⟩
        · refine exists_of_append_eq whole fun inside => ?_
          rw [out] at inside
          exact (mem_blanked inside).elim solid.1 solid.2
      obtain ⟨before, tail, state, rfl, size, known, run⟩ := ih arises.step behind
      refine ⟨c :: before, tail, state, rfl, ?_, known, run⟩
      rw [byteSize_append, byteSize_step_fst, byteSize, size]

theorem blanked_ne {c : Char} (solid : c ≠ ' ' ∧ c ≠ '\n') : blanked c ≠ [c] := by
  intro same
  have member : c ∈ blanked c := by simp [same]
  exact (mem_blanked member).elim solid.1 solid.2

/-- The states inside a literal or a comment. -/
inductive Hides : Masking → Prop where
  | quoted {context outer quote regexOk} (quotes : quote = '\x27' ∨ quote = '\x22') :
      Hides ⟨context, outer, .quoted quote, regexOk⟩
  | regex {context outer inClass regexOk} : Hides ⟨context, outer, .regex inClass, regexOk⟩
  | lineComment {context outer regexOk} : Hides ⟨context, outer, .lineComment, regexOk⟩
  | blockComment {context outer regexOk} : Hides ⟨context, outer, .blockComment, regexOk⟩

/-- What ends a literal or a comment, or may keep it from ending. -/
def endMarks : List Char :=
  ['\n', '\\', '\x27', '\x22', '/', '[', ']', '*']

/-- A character that has no meaning in a literal or a comment. -/
def isInert (c : Char) : Bool :=
  !(endMarks.contains c)

/-- What has a property that no mark has is no mark. -/
theorem not_mem_of_any {marks : List Char} {p : Char → Bool} {c : Char} (holds : p c = true)
    (never : marks.any p = false) : c ∉ marks :=
  fun member => List.any_eq_false.mp never c member holds

theorem isInert_of_any {p : Char → Bool} {c : Char} (holds : p c = true)
    (never : endMarks.any p = false) : isInert c = true := by
  simpa [isInert] using not_mem_of_any holds never

theorem Hides.step {m : Masking} (hides : Hides m) {c : Char} (inert : isInert c = true)
    (rest : List Char) : m.step c rest = (blanked c, m) := by
  simp only [isInert, endMarks, List.contains_eq_mem, List.mem_cons, List.not_mem_nil, or_false,
    Bool.not_eq_true', decide_eq_false_iff_not, not_or] at inert
  obtain ⟨newline, escape, notApostrophe, notQuote, slash, opens, closes, star⟩ := inert
  cases hides with
  | quoted quotes =>
    rcases quotes with rfl | rfl
    · simp [Masking.step, newline, escape, notApostrophe]
    · simp [Masking.step, newline, escape, notQuote]
  | regex => simp [Masking.step, newline, escape, slash, opens, closes]
  | lineComment => simp [Masking.step, newline]
  | blockComment => simp [Masking.step, star]

/-- A character of template text that has no meaning there. -/
theorem step_template_text {outer : List Context} {regexOk : Bool} {c : Char}
    {rest : List Char} (escape : c ≠ '\\') (tick : c ≠ '\x60')
    (opens : ¬ (c = '$' ∧ rest.head? = some '\x7b')) :
    (⟨.template, outer, .plain, regexOk⟩ : Masking).step c rest =
      (blanked c, ⟨.template, outer, .plain, regexOk⟩) := by
  simp only [Masking.step, stepPlain, stepTemplate, if_neg escape, if_neg tick]
  rw [if_neg (by simpa using opens)]

end Masking

end Concord.Scan
