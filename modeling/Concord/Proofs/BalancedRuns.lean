import Concord.Proofs.BalancedText
import Concord.Text.Blank

/-!
What is left of a balanced text. A text that balances keeps balancing when it is read on, when it is
cut behind whole units, and when blanks are taken from its end; blanks in front may go if the
scanner takes them for blanks. What the readers of the scanner step over at depth 0 is a run of
moves.
-/
namespace Concord.Scan

open Concord.Text

/-! Balance as a verdict of the scanner -/

theorem Cursor.balances_of_imbalance? {frames : List Frame} {c : Cursor}
    (fine : c.imbalance? frames = none) :
    Balances (frames.map Frame.enclosure) c.regexOk c.rest := by
  fun_induction Cursor.imbalance? frames c with
  | case1 frames c ended =>
    obtain ⟨rfl, text⟩ := eq_nil_of_ended ended
    rw [text]
    exact .done
  | case2 => cases fine
  | case3 frames c later next moved ih =>
    obtain ⟨text, change, split, -, moves, rfl⟩ := moves_of_step moved
    rw [← List.head?_map] at moves
    rw [split]
    refine .step moves ?_
    rw [← Change.map_frames _ c.line]
    exact ih fine

theorem Enclosure.enclosure_frame (line : Nat) (enclosure : Enclosure) :
    (enclosure.frame line).enclosure = enclosure := by
  cases enclosure <;> rfl

theorem Balances.of_moves {around : List Enclosure} {flag after : Bool} {text rest : List Char}
    {change : Change} (balances : Balances around flag (text ++ rest))
    (moves : Moves around.head? flag text rest change after) :
    Balances (change.on around) after rest := by
  -- a step has one outcome, so it is enough to place the text under frames on some line
  let frames := around.map (Enclosure.frame 1)
  let c : Cursor := ⟨text ++ rest, 0, 1, flag⟩
  have enclosed : frames.map Frame.enclosure = around := by
    simp [frames, Function.comp_def, Enclosure.enclosure_frame]
  have whole : c.imbalance? frames = none := by
    apply Balances.imbalance?
    rwa [enclosed]
  have stepped : c.step frames = .moved (change.frames 1 frames) (c.advance text rest after) := by
    refine Cursor.step_of_moves ?_ rfl
    rwa [← List.head?_map, enclosed]
  rw [Cursor.imbalance?_of_moved stepped] at whole
  have behind := Cursor.balances_of_imbalance? whole
  rwa [Change.map_frames, enclosed] at behind

theorem Balances.eq_nil {around : List Enclosure} {flag : Bool}
    (balances : Balances around flag []) : around = [] := by
  generalize whole : ([] : List Char) = all at balances
  cases balances with
  | done => rfl
  | step moves =>
    obtain ⟨rfl, -⟩ := List.append_eq_nil_iff.mp whole.symm
    exact absurd rfl moves.ne_nil

/-! Blanks at the ends -/

/-- Blanks in front of a text do not belong to it. -/
theorem Balances.drop_blanks {flag : Bool} {blanks text : List Char}
    (ascii : ∀ x ∈ blanks, isAsciiBlank x = true) (balances : Balances [] flag (blanks ++ text)) :
    Balances [] flag text := by
  induction blanks with
  | nil => exact balances
  | cons x blanks ih =>
    have blank : Moves none flag [x] (blanks ++ text) .stay flag :=
      .quiet (by simp) (.blank (ascii x List.mem_cons_self)) rfl
    have whole : Balances [] flag ([x] ++ (blanks ++ text)) := balances
    exact ih (fun y member => ascii y (List.mem_cons_of_mem x member)) (whole.of_moves blank)

/-- The front of a literal that closes later is a literal that does not close. -/
theorem quoted_front {quote : Char} {front back rest : List Char} (goes : back ≠ [])
    (closed : quoted quote (front ++ (back ++ rest)) = (front ++ back, rest)) :
    quoted quote front = (front, []) := by
  -- by the recursion of the reader on the front; it ends inside the front only where it would have
  -- ended in the whole
  fun_induction quoted quote front with
  | case1 => rfl
  | case2 x front text tail read ih =>
    simp only [List.cons_append, quoted, Prod.mk.injEq, List.cons.injEq, true_and] at closed
    have inner := ih (Prod.ext closed.1 closed.2)
    rw [inner] at read
    obtain ⟨rfl, rfl⟩ := Prod.mk.inj read
    rfl
  | case3 front escapes =>
    rw [List.cons_append, quoted_cons (fun back => absurd back (by decide)), if_pos rfl] at closed
    simp at closed
  | case4 front escapes newline =>
    -- a quote inside the front would have closed the literal sooner, unless it stands behind an
    -- escape
    by_cases escape : quote = '\\'
    · rw [eq_nil_of_no_escape escapes escape]
    · rw [List.cons_append, quoted_cons (fun back => absurd back escape), if_neg newline,
        if_pos rfl] at closed
      simp [goes] at closed
  | case5 x front escapes newline other text tail read ih =>
    by_cases escape : x = '\\'
    · rw [eq_nil_of_no_escape escapes escape] at read ⊢
      cases read
      rfl
    · rw [List.cons_append, quoted_cons (fun back => absurd back escape), if_neg newline,
        if_neg other] at closed
      simp only [List.cons_append, Prod.mk.injEq, List.cons.injEq, true_and] at closed
      have inner := ih (Prod.ext closed.1 closed.2)
      rw [inner] at read
      obtain ⟨rfl, rfl⟩ := Prod.mk.inj read
      rfl

theorem regexBody_front {inClass : Bool} {front back rest : List Char}
    (closed : regexBody inClass (front ++ (back ++ rest)) = (front ++ back, rest)) :
    regexBody inClass front = (front, []) := by
  fun_induction regexBody inClass front with
  | case1 => rfl
  | case2 inClass x front text tail read ih =>
    simp only [List.cons_append, regexBody, Prod.mk.injEq, List.cons.injEq, true_and] at closed
    have inner := ih (Prod.ext closed.1 closed.2)
    rw [inner] at read
    obtain ⟨rfl, rfl⟩ := Prod.mk.inj read
    rfl
  | case3 inClass front escapes =>
    rw [List.cons_append, regexBody_cons (fun back => absurd back (by decide)), if_pos rfl]
      at closed
    simp at closed
  | case4 inClass x front escapes newline slash =>
    have notBack : x ≠ '\\' := by
      simp only [Bool.and_eq_true, decide_eq_true_eq] at slash
      rw [slash.1]
      decide
    rw [List.cons_append, regexBody_cons (fun back => absurd back notBack), if_neg newline,
      if_pos slash] at closed
    -- the flags reach beyond the front, so they are all of it
    simp only [List.cons_append, Prod.mk.injEq, List.cons.injEq, true_and] at closed
    have inside : ∀ y ∈ front, isWordPart y = true := by
      intro y member
      refine List.mem_takeWhile_imp (l := front ++ (back ++ rest)) ?_
      rw [closed.1]
      exact List.mem_append_left back member
    rw [List.takeWhile_eq_self_iff.mpr inside, List.dropWhile_eq_nil_iff.mpr inside]
  | case5 inClass x front escapes newline slash inClass' text tail read ih =>
    by_cases escape : x = '\\'
    · rw [eq_nil_of_no_escape escapes escape] at read ⊢
      cases read
      rfl
    · rw [List.cons_append, regexBody_cons (fun back => absurd back escape), if_neg newline,
        if_neg slash] at closed
      simp only [List.cons_append, Prod.mk.injEq, List.cons.injEq, true_and] at closed
      have inner := ih (Prod.ext closed.1 closed.2)
      rw [inner] at read
      obtain ⟨rfl, rfl⟩ := Prod.mk.inj read
      rfl

theorem blockComment_last {text rest : List Char}
    (closed : blockComment (text ++ rest) = some (text, rest)) : text.getLast? = some '/' := by
  generalize whole : text ++ rest = all at closed
  fun_induction blockComment all generalizing text with
  | case1 => cases closed
  | case2 after =>
    cases closed
    rfl
  | case3 x after inside ih =>
    simp only [Option.map_eq_some_iff, Prod.mk.injEq, Prod.exists] at closed
    obtain ⟨front, back, found, rfl, rfl⟩ := closed
    have last := ih (blockComment_append found) found
    rw [List.getLast?_cons, last]
    rfl

theorem slash_not_blank : isBlank '/' = false := by decide

/-- A lexeme that ends in blanks is one without them. -/
theorem Lexes.cut_blanks {flag after : Bool} {kind : Lexeme} {text blanks rest : List Char}
    (lexes : Lexes flag kind (text ++ blanks) rest after) (quiet : kind.quiet = true)
    (kept : text ≠ []) (goes : blanks ≠ []) (blank : ∀ x ∈ blanks, isBlank x = true) :
    ∃ kind after, kind.quiet = true ∧ Lexes flag kind text [] after := by
  generalize whole : text ++ blanks = all at lexes
  -- a single character leaves nothing for the blanks behind it
  have alone {x : Char} (single : text ++ blanks = [x]) : False := by
    rcases List.append_eq_singleton_iff.mp single with ⟨none, -⟩ | ⟨-, none⟩
    · exact kept none
    · exact goes none
  cases lexes with
  | blank => exact (alone whole).elim
  | mark => exact (alone whole).elim
  | openComment => cases quiet
  | @lineComment _ comment _ inside ends =>
    match text with
    | [x] =>
      obtain ⟨-, rfl⟩ := List.cons.inj whole
      have never := blank '/' List.mem_cons_self
      rw [slash_not_blank] at never
      cases never
    | x :: y :: text =>
      simp only [List.cons_append, List.cons.injEq] at whole
      obtain ⟨rfl, rfl, rfl⟩ := whole
      have within : ∀ z ∈ text, z ≠ '\n' := fun z member => inside z (by simp [member])
      exact ⟨.comment, flag, rfl, .lineComment within (by simp)⟩
  | @blockComment _ comment _ closed =>
    -- the comment ends in a character that is no blank
    have last : blanks.getLast? = some '/' := by
      have behind : (text ++ blanks).getLast? = some '/' := by
        rw [whole, List.getLast?_cons, List.getLast?_cons, blockComment_last closed]
        rfl
      rw [List.getLast?_append, List.getLast?_eq_some_getLast goes, Option.some_or] at behind
      rw [List.getLast?_eq_some_getLast goes, behind]
    have never := blank '/' (List.mem_of_getLast? last)
    rw [slash_not_blank] at never
    cases never
  | @quoted _ quote literal _ quotes closed =>
    obtain ⟨x, text, rfl⟩ := List.exists_cons_of_ne_nil kept
    simp only [List.cons_append, List.cons.injEq] at whole
    obtain ⟨rfl, rfl⟩ := whole
    rw [List.append_assoc] at closed
    refine ⟨.literal, false, rfl, .quoted quotes ?_⟩
    rw [List.append_nil]
    exact quoted_front goes closed
  | @regex literal _ code closed =>
    obtain ⟨x, text, rfl⟩ := List.exists_cons_of_ne_nil kept
    simp only [List.cons_append, List.cons.injEq] at whole
    obtain ⟨rfl, rfl⟩ := whole
    rw [List.append_assoc] at code closed
    refine ⟨.literal, false, rfl, .regex (fun opens => code ?_) ?_⟩
    · rw [List.append_nil] at opens
      exact opensComment_append opens
    · rw [List.append_nil]
      exact regexBody_front closed
  | @word _ x word _ starts inside ends =>
    obtain ⟨y, text, rfl⟩ := List.exists_cons_of_ne_nil kept
    simp only [List.cons_append, List.cons.injEq] at whole
    obtain ⟨rfl, rfl⟩ := whole
    exact ⟨.word, _, rfl, .word starts (fun z member => inside z (by simp [member])) (by simp)⟩

theorem Bracket.isBlank_closer (bracket : Bracket) : isBlank bracket.closer = false := by
  cases bracket <;> decide

/-- A unit that leads to depth 0 and ends in blanks can do without them. -/
theorem Moves.cut_blanks {around : List Enclosure} {flag after : Bool} {change : Change}
    {text blanks rest : List Char}
    (moves : Moves around.head? flag (text ++ blanks) rest change after)
    (outside : change.on around = []) (goes : blanks ≠ [])
    (blank : ∀ x ∈ blanks, isBlank x = true) : Balances around flag text := by
  -- a single character is no blank unless it is quiet
  have single {x : Char} (alone : text ++ blanks = [x]) (shown : isBlank x = false) : False := by
    rcases List.append_eq_singleton_iff.mp alone with ⟨-, rfl⟩ | ⟨-, none⟩
    · have := blank x List.mem_cons_self
      rw [shown] at this
      cases this
    · exact goes none
  generalize whole : text ++ blanks = all at moves
  generalize top : around.head? = inner at moves
  cases moves with
  | quiet code lexes quiet =>
    obtain rfl : around = [] := outside
    by_cases kept : text = []
    · rw [kept]
      exact .done
    · subst whole
      obtain ⟨kind, after, quiet, lexes⟩ := lexes.cut_blanks quiet kept goes blank
      have unit : Balances [] flag (text ++ []) := .step (.quiet (by simp) lexes quiet) .done
      rwa [List.append_nil] at unit
  | opener | backquote | substitution => cases outside
  | @closer _ _ bracket _ _ lexes =>
    rw [lexes.closer_text.1] at whole
    exact (single whole bracket.isBlank_closer).elim
  | templateEnd => exact (single whole (by decide)).elim
  | escape | templateText =>
    obtain rfl : around = [] := outside
    cases top

/-- Blanks at the end of a text close nothing and open nothing. -/
theorem Balances.cut_blanks {around : List Enclosure} {flag : Bool} {text blanks : List Char}
    (balances : Balances around flag (text ++ blanks)) (blank : ∀ x ∈ blanks, isBlank x = true) :
    Balances around flag text := by
  generalize whole : text ++ blanks = all at balances
  -- by induction over the moves; the cut falls into the last one that is left, or behind it
  induction balances generalizing text blanks with
  | done =>
    obtain ⟨rfl, -⟩ := List.append_eq_nil_iff.mp whole
    exact .done
  | @step around flag after front rest change moves later ih =>
    rcases List.append_eq_append_iff.mp whole with ⟨back, rfl, rfl⟩ | ⟨inner, rfl, rfl⟩
    · -- the cut falls behind or into this unit, which leads back to depth 0
      have outside : change.on around = [] :=
        (@ih [] rest (fun x member => blank x (List.mem_append_right back member)) rfl).eq_nil
      by_cases goes : back = []
      · subst goes
        rw [List.append_nil] at moves
        have unit : Balances around flag (text ++ []) := by
          refine .step (Moves.cut moves) ?_
          rw [outside]
          exact .done
        rwa [List.append_nil] at unit
      · exact moves.cut_blanks outside goes fun x member =>
          blank x (List.mem_append_left rest member)
    · exact .step moves.cut (ih blank rfl)

/-- Trimming takes blanks from the end. -/
theorem trimStart_split (text : List Char) :
    ∃ blanks, (∀ x ∈ blanks, isBlank x = true) ∧ trimStart text = trim text ++ blanks := by
  refine ⟨((trimStart text).reverse.takeWhile isBlank).reverse, fun x member => ?_, ?_⟩
  · exact List.mem_takeWhile_imp (List.mem_reverse.mp member)
  · rw [Text.trim, trimEnd, ← List.reverse_append, List.takeWhile_append_dropWhile,
      List.reverse_reverse]

/-- A text balances without the blanks around it, if the scanner takes those in front for blanks. -/
theorem Balances.trim {text : List Char} (balances : Balances [] true text)
    (ascii : ∀ x ∈ indent text, isAsciiBlank x = true) : Balances [] true (trim text) := by
  have front : Balances [] true (trimStart text) := by
    refine Balances.drop_blanks ascii ?_
    rwa [indent, trimStart, List.takeWhile_append_dropWhile]
  obtain ⟨blanks, blank, split⟩ := trimStart_split text
  rw [split] at front
  exact front.cut_blanks blank

/-! What the readers step over -/

/-- The scanner comes from `c` to `next` by whole units, from depth 0 to depth 0. -/
def Passes (c next : Cursor) : Prop :=
  ∃ text, c.rest = text ++ next.rest ∧ Runs [] c.regexOk text next.rest [] next.regexOk

namespace Passes

variable {a b c : Cursor}

theorem refl (c : Cursor) : Passes c c :=
  ⟨[], rfl, .done⟩

theorem trans (first : Passes a b) (second : Passes b c) : Passes a c := by
  obtain ⟨front, split, runs⟩ := first
  obtain ⟨back, behind, more⟩ := second
  rw [behind] at runs
  exact ⟨front ++ back, by rw [split, behind, List.append_assoc], runs.trans more⟩

theorem lexeme {kind : Lexeme} (read : a.lexeme? = some (kind, b)) (quiet : kind.quiet = true) :
    Passes a b := by
  obtain ⟨text, split, -, lexes⟩ := Cursor.lexeme?_lexes read
  exact ⟨text, split, .single (.quiet (by simp) lexes quiet)⟩

/-- What was passed balances by itself. -/
theorem balances (passes : Passes a b) {text : List Char} (split : a.rest = text ++ b.rest) :
    Balances [] a.regexOk text := by
  obtain ⟨passed, same, runs⟩ := passes
  obtain rfl : passed = text := List.append_cancel_right (same.symm.trans split)
  exact runs.alone

end Passes

namespace Cursor

theorem close_runs {frames : List Frame} {c next : Cursor} (closed : close frames c = .ok next) :
    ∃ text, c.rest = text ++ next.rest ∧
      Runs (frames.map Frame.enclosure) c.regexOk text next.rest [] next.regexOk := by
  cases frames with
  | nil =>
    rw [close] at closed
    cases closed
    exact ⟨[], rfl, .done⟩
  | cons top below =>
    rcases close_cons top below c with ⟨later, middle, moved, same⟩ | ⟨halt, -, failed⟩
    · have := step_length_lt moved
      obtain ⟨text, split, runs⟩ := close_runs (same.symm.trans closed)
      obtain ⟨front, change, begin, -, moves, rfl⟩ := moves_of_step moved
      rw [← List.head?_map, split] at moves
      rw [Change.map_frames] at runs
      exact ⟨front ++ text, by rw [begin, split, List.append_assoc], .step moves runs⟩
    · rw [failed] at closed
      cases closed
  termination_by c.rest.length

theorem skipTrivia_passes {c next : Cursor} (skipped : c.skipTrivia = .ok next) :
    Passes c next := by
  fun_induction skipTrivia c with
  | case1 c middle read ih | case2 c middle read ih =>
    exact (Passes.lexeme read rfl).trans (ih skipped)
  | case3 => cases skipped
  | case4 =>
    cases skipped
    exact .refl _

/-- What is opened at depth 0 and closed is passed as a whole. -/
theorem passes_of_close {c middle next : Cursor} {front : List Char} {frame : Frame}
    (split : c.rest = front ++ middle.rest)
    (moves : Moves none c.regexOk front middle.rest (.enter frame.enclosure) middle.regexOk)
    (closed : close [frame] middle = .ok next) : Passes c next := by
  obtain ⟨text, behind, runs⟩ := close_runs closed
  rw [behind] at moves
  exact ⟨front ++ text, by rw [split, behind, List.append_assoc], .step moves runs⟩

theorem skipToken_passes {c next : Cursor} (skipped : c.skipToken = .ok next) : Passes c next := by
  simp only [skipToken] at skipped
  split at skipped
  · cases skipped
    exact .refl c
  · exact skipTrivia_passes skipped
  · cases skipped
  next bracket middle read =>
    obtain ⟨text, split, -, lexes⟩ := lexeme?_lexes read
    exact passes_of_close split (.opener (by simp) lexes) skipped
  next middle read =>
    obtain ⟨text, split, -, lexes⟩ := lexeme?_lexes read
    exact passes_of_close split (.backquote (by simp) lexes) skipped
  · cases skipped
  next kind middle noComment openComment opener backquote closer read =>
    cases skipped
    refine .lexeme read ?_
    cases kind <;> simp_all [Lexeme.quiet]

end Cursor

end Concord.Scan
