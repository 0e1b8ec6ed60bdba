import Concord.Proofs.Comments
import Concord.Proofs.Positions

/-!
Scanning a text beside the one without its comments. Two cursors go through both texts in step:
trivia answer to trivia, tokens to tokens. The tokens of the two scans stand on the same lines, and
they have the same text unless they are brackets or templates with a comment inside.
-/
namespace Concord.Text

theorem trimEnd_split (text : List Char) :
    ∃ blanks, (∀ x ∈ blanks, isBlank x = true) ∧ text = trimEnd text ++ blanks := by
  refine ⟨(text.reverse.takeWhile isBlank).reverse, fun x member => ?_, ?_⟩
  · exact List.mem_takeWhile_imp (List.mem_reverse.mp member)
  · rw [trimEnd, ← List.reverse_append, List.takeWhile_append_dropWhile, List.reverse_reverse]

theorem trimEnd_of_shown {front : List Char} {last : Char} (shown : isBlank last = false) :
    trimEnd (front ++ [last]) = front ++ [last] := by
  rw [trimEnd, List.reverse_append, List.reverse_singleton, List.singleton_append,
    List.dropWhile_cons_of_neg (by simp [shown]), List.reverse_cons, List.reverse_reverse]

theorem trimEnd_ne_nil {text : List Char} (shown : isBlank (text.headD ' ') = false) :
    trimEnd text ≠ [] := by
  obtain ⟨blanks, blank, split⟩ := trimEnd_split text
  intro none
  rw [none, List.nil_append] at split
  cases text with
  | nil => cases shown
  | cons x text =>
    have := blank x (split ▸ List.mem_cons_self)
    rw [List.headD_cons, this] at shown
    cases shown

theorem trimEnd_append {front back : List Char} (kept : trimEnd back ≠ []) :
    trimEnd (front ++ back) = front ++ trimEnd back := by
  have left : (back.reverse.dropWhile isBlank).isEmpty = false := by
    simpa [trimEnd] using kept
  rw [trimEnd, List.reverse_append, List.dropWhile_append, left, if_neg (by decide),
    List.reverse_append, List.reverse_reverse, trimEnd]

theorem trim_of_shown {text : List Char} (shown : isBlank (text.headD ' ') = false) :
    trim text = trimEnd text := by
  cases text with
  | nil => rfl
  | cons x text =>
    rw [trim, trimStart, List.dropWhile_cons_of_neg (by simpa using shown)]

end Concord.Text

namespace Concord.Scan

open Concord.Text

namespace Clears

variable {around later : List Enclosure} {flag last : Bool} {text text' rest : List Char}

theorem lineBreaks_eq (clears : Clears around flag text text' rest later last) :
    lineBreaks text' = lineBreaks text := by
  induction clears with
  | done => rfl
  | kept _ _ _ ih | comment _ _ _ ih => simp [ih]

theorem eq_nil_iff (clears : Clears around flag text text' rest later last) :
    text' = [] ↔ text = [] := by
  cases clears with
  | done => rfl
  | kept moves => simp [moves.ne_nil]
  | comment _ lexes =>
    obtain ⟨-, unit, rfl, -⟩ := lexes.comment_text
    have shown : cleared ('/' :: unit) = ' ' :: cleared unit := rfl
    simp [shown]

end Clears

/-- The second cursor reads the text of the first without its comments, on the same line and under
the same frames. -/
structure Twin (frames : List Frame) (c c' : Cursor) : Prop where
  line : c'.line = c.line
  flag : c'.regexOk = c.regexOk
  clears : ∃ last, Clears (frames.map Frame.enclosure) c.regexOk c.rest c'.rest [] [] last

/-- What two cursors read next: the same unit, or a comment and blanks. -/
inductive Twin.Ahead (frames : List Frame) (c c' : Cursor) : Prop
  | unit {unit rest rest' : List Char} {change : Change} {after : Bool}
      (split : c.rest = unit ++ rest) (split' : c'.rest = unit ++ rest')
      (code : commentAhead (frames.head?.map Frame.enclosure) (unit ++ rest) = false)
      (moves : Moves (frames.head?.map Frame.enclosure) c.regexOk unit rest change after)
      (front : SameFront rest rest')
      (twin : Twin (change.frames c.line frames) (c.advance unit rest after)
        (c'.advance unit rest' after))
  | comment {unit rest rest' : List Char} (split : c.rest = unit ++ rest)
      (split' : c'.rest = cleared unit ++ rest')
      (outside : frames.head?.map Frame.enclosure ≠ some .template)
      (lexes : Lexes c.regexOk .comment unit rest c.regexOk)
      (twin : Twin frames (c.advance unit rest c.regexOk)
        (c'.advance (cleared unit) rest' c'.regexOk))

theorem Twin.ahead {frames : List Frame} {c c' : Cursor} (twin : Twin frames c c')
    (unread : c.rest ≠ []) : Twin.Ahead frames c c' := by
  obtain ⟨line, flag, last, clears⟩ := twin
  generalize text : c.rest = whole at clears
  generalize text' : c'.rest = whole' at clears
  generalize around : frames.map Frame.enclosure = enclosures at clears
  -- the clearing begins with a move of code that is kept or with a comment that is blanked
  cases clears with
  | done => exact absurd text unread
  | kept moves code more =>
    subst around
    rw [List.append_nil, List.head?_map] at moves code
    refine .unit text text' code moves more.sameFront ⟨?_, rfl, last, ?_⟩
    · simp only [Cursor.advance, line]
    · rw [Change.map_frames]
      exact more
  | comment outside lexes more =>
    subst around
    rw [List.append_nil] at lexes
    rw [List.head?_map] at outside
    refine .comment text text' outside lexes ⟨?_, flag, last, more⟩
    simp only [Cursor.advance, line, lineBreaks_cleared]

/-- Two cursors have come to the same place behind `text` and `text'`. -/
structure Twin.Passed (around : List Enclosure) (c c' next next' : Cursor)
    (text text' : List Char) : Prop where
  split : c.rest = text ++ next.rest
  split' : c'.rest = text' ++ next'.rest
  clears : Clears around c.regexOk text text' next.rest [] next.regexOk
  twin : Twin [] next next'

namespace Twin.Passed

variable {around : List Enclosure} {c c' next next' : Cursor}
  {text text' unit rest rest' : List Char}

theorem refl (twin : Twin [] c c') : Passed [] c c' c c' [] [] :=
  ⟨rfl, rfl, .done, twin⟩

theorem kept {change : Change} {after : Bool} (split : c.rest = unit ++ rest)
    (split' : c'.rest = unit ++ rest')
    (code : commentAhead around.head? (unit ++ rest) = false)
    (moves : Moves around.head? c.regexOk unit rest change after)
    (passed : Passed (change.on around) (c.advance unit rest after) (c'.advance unit rest' after)
      next next' text text') :
    Passed around c c' next next' (unit ++ text) (unit ++ text') := by
  obtain ⟨behind, behind', clears, twin⟩ := passed
  obtain rfl : rest = text ++ next.rest := behind
  obtain rfl : rest' = text' ++ next'.rest := behind'
  exact ⟨by rw [split, List.append_assoc], by rw [split', List.append_assoc],
    .kept moves code clears, twin⟩

theorem comment (split : c.rest = unit ++ rest) (split' : c'.rest = cleared unit ++ rest')
    (outside : around.head? ≠ some .template)
    (lexes : Lexes c.regexOk .comment unit rest c.regexOk)
    (passed : Passed around (c.advance unit rest c.regexOk)
      (c'.advance (cleared unit) rest' c'.regexOk) next next' text text') :
    Passed around c c' next next' (unit ++ text) (cleared unit ++ text') := by
  obtain ⟨behind, behind', clears, twin⟩ := passed
  obtain rfl : rest = text ++ next.rest := behind
  obtain rfl : rest' = text' ++ next'.rest := behind'
  exact ⟨by rw [split, List.append_assoc], by rw [split', List.append_assoc],
    .comment outside lexes clears, twin⟩

end Twin.Passed

namespace Cursor

theorem advance_append (c : Cursor) (first second middle rest : List Char) (flag after : Bool) :
    (c.advance first middle flag).advance second rest after =
      c.advance (first ++ second) rest after := by
  simp [advance, Nat.add_assoc]

theorem length_lt_of_split {c : Cursor} {unit rest : List Char} (split : c.rest = unit ++ rest)
    (read : unit ≠ []) : rest.length < c.rest.length := by
  have := List.length_pos_iff.mpr read
  rw [split, List.length_append]
  omega

theorem advance_nil {c : Cursor} {rest : List Char} (split : c.rest = rest) :
    c.advance [] rest c.regexOk = c := by
  subst split
  rfl

theorem skipTrivia_of_trivia {c next : Cursor} {kind : Lexeme}
    (read : c.lexeme? = some (kind, next)) (trivia : kind = .blank ∨ kind = .comment) :
    c.skipTrivia = next.skipTrivia := by
  rcases trivia with rfl | rfl <;> rw [skipTrivia, read]

theorem skipTrivia_of_token {c next : Cursor} {kind : Lexeme}
    (read : c.lexeme? = some (kind, next)) (blank : kind ≠ .blank) (comment : kind ≠ .comment)
    (closed : kind ≠ .openComment) : c.skipTrivia = .ok c := by
  rw [skipTrivia, read]
  cases kind <;> simp_all

/-- A cursor behind the trivia stands at no trivia. -/
theorem not_trivia {c next : Cursor} {kind : Lexeme} (read : c.lexeme? = some (kind, next))
    (stays : c.skipTrivia = .ok c) : ¬ (kind = .blank ∨ kind = .comment) := by
  intro trivia
  rw [skipTrivia_of_trivia read trivia] at stays
  have shorter := lexeme?_length_lt read
  have longer := (skipTrivia_reaches stays).length_le
  omega

theorem skipToken_of_quiet {c next : Cursor} {kind : Lexeme}
    (read : c.lexeme? = some (kind, next)) (quiet : kind.quiet = true) (code : kind ≠ .comment) :
    c.skipToken = .ok next := by
  rw [skipToken, read]
  cases kind with
  | comment => exact absurd rfl code
  | openComment | opener | closer | backquote => cases quiet
  | blank | literal | word | mark => rfl

/-- Blanks are stepped over one by one. -/
theorem skipTrivia_blanks {c : Cursor} {blanks rest : List Char} (split : c.rest = blanks ++ rest)
    (ascii : ∀ x ∈ blanks, isAsciiBlank x = true) :
    c.skipTrivia = (c.advance blanks rest c.regexOk).skipTrivia := by
  induction blanks generalizing c with
  | nil =>
    rw [List.nil_append] at split
    rw [advance_nil split]
  | cons x blanks ih =>
    have read := lexeme?_of_lexes (.blank (ascii x List.mem_cons_self)) split
    rw [skipTrivia_of_trivia read (Or.inl rfl),
      ih rfl fun y member => ascii y (List.mem_cons_of_mem x member)]
    rw [advance_append]
    rfl

theorem close_of_moved {top : Frame} {below later : List Frame} {c next : Cursor}
    (moved : c.step (top :: below) = .moved later next) :
    close (top :: below) c = close later next := by
  rcases close_cons top below c with ⟨frames, middle, same, closed⟩ | ⟨halt, failed, -⟩
  · cases moved.symm.trans same
    exact closed
  · cases moved.symm.trans failed

/-- Blanks inside brackets are stepped over one by one. -/
theorem close_blanks {top : Frame} {below : List Frame} {c : Cursor} {blanks rest : List Char}
    (code : top.enclosure ≠ .template) (split : c.rest = blanks ++ rest)
    (ascii : ∀ x ∈ blanks, isAsciiBlank x = true) :
    close (top :: below) c = close (top :: below) (c.advance blanks rest c.regexOk) := by
  induction blanks generalizing c with
  | nil =>
    rw [List.nil_append] at split
    rw [advance_nil split]
  | cons x blanks ih =>
    have moves : Moves (((top :: below).head?).map Frame.enclosure) c.regexOk [x] (blanks ++ rest)
        .stay c.regexOk :=
      .quiet (by simpa using code) (.blank (ascii x List.mem_cons_self)) rfl
    rw [close_of_moved (step_of_moves moves split), Change.frames,
      ih rfl fun y member => ascii y (List.mem_cons_of_mem x member), advance_append]
    rfl

end Cursor

/-! Tokens beside tokens -/

theorem Moves.leave_text {top : Option Enclosure} {flag after : Bool} {unit rest : List Char}
    (moves : Moves top flag unit rest .leave after) : ∃ x, unit = [x] ∧ isBlank x = false := by
  cases moves with
  | @closer _ _ bracket _ _ lexes =>
    exact ⟨bracket.closer, lexes.closer_text.1, bracket.isBlank_closer⟩
  | templateEnd => exact ⟨_, rfl, by decide⟩

/-- Both texts end in the same character, and not in a blank. -/
def SameEnd (text text' : List Char) : Prop :=
  ∃ front front' last, text = front ++ [last] ∧ text' = front' ++ [last] ∧ isBlank last = false

theorem SameEnd.behind {text text' : List Char} (same : SameEnd text text')
    (front front' : List Char) : SameEnd (front ++ text) (front' ++ text') := by
  obtain ⟨inner, inner', last, rfl, rfl, shown⟩ := same
  exact ⟨front ++ inner, front' ++ inner', last, by simp, by simp, shown⟩

/-- A token of one lexeme with the same text, or brackets or templates that start and end alike. -/
inductive SameToken (flag : Bool) (rest : List Char) : List Char → List Char → Prop
  | unit {kind : Lexeme} {text : List Char} {after : Bool} (lexes : Lexes flag kind text rest after)
      (quiet : kind.quiet = true) (code : kind ≠ .comment) : SameToken flag rest text text
  | closed {x : Char} {text text' : List Char} (opens : (Bracket.ofOpener? x).isSome ∨ x = '\x60')
      (ends : SameEnd text text') : SameToken flag rest (x :: text) (x :: text')

namespace Twin

variable {frames : List Frame} {c c' : Cursor}

theorem eq_nil_iff (twin : Twin frames c c') : c'.rest = [] ↔ c.rest = [] := by
  obtain ⟨-, -, last, clears⟩ := twin
  exact clears.eq_nil_iff

/-- What is open is closed in both texts. -/
theorem close {top : Frame} {below : List Frame} {c c' : Cursor}
    (twin : Twin (top :: below) c c') :
    ∃ next next' text text', Cursor.close (top :: below) c = .ok next ∧
      Cursor.close (top :: below) c' = .ok next' ∧
      Passed ((top :: below).map Frame.enclosure) c c' next next' text text' ∧
      SameEnd text text' := by
  have unread : c.rest ≠ [] := by
    obtain ⟨-, -, last, clears⟩ := twin
    exact clears.ne_nil (by simp)
  -- by the units of the first text: the second has the same unit, or blanks for a comment
  cases twin.ahead unread with
  | @unit unit rest rest' change after split split' code moves front ahead =>
    have moves' := moves.swap code front
    rw [← twin.flag] at moves'
    have here := Cursor.close_of_moved (Cursor.step_of_moves moves split)
    have here' := Cursor.close_of_moved (Cursor.step_of_moves moves' split')
    rw [twin.line] at here'
    have shorter := Cursor.length_lt_of_split split moves.ne_nil
    have around := Change.map_frames change c.line (top :: below)
    cases left : change.frames c.line (top :: below) with
    | nil =>
      -- the unit closes the last frame
      rw [left] at here here' ahead around
      obtain rfl : change = .leave := by
        cases change with
        | stay | enter => cases left
        | leave => rfl
      obtain ⟨x, rfl, shown⟩ := moves.leave_text
      rw [Cursor.close] at here here'
      refine ⟨_, _, [x] ++ [], [x] ++ [], here, here', ?_, [], [], x, rfl, rfl, shown⟩
      refine .kept split split' code moves ?_
      rw [← around]
      exact .refl ahead
    | cons inner others =>
      rw [left] at here here' ahead around
      obtain ⟨next, next', text, text', closed, closed', passed, same⟩ := close ahead
      refine ⟨next, next', unit ++ text, unit ++ text', here.trans closed, here'.trans closed',
        .kept split split' code moves ?_, same.behind _ _⟩
      rw [← around]
      exact passed
  | @comment unit rest rest' split split' outside lexes ahead =>
    have moves : Moves ((top :: below).head?.map Frame.enclosure) c.regexOk unit rest .stay
        c.regexOk := .quiet outside lexes rfl
    have here := Cursor.close_of_moved (Cursor.step_of_moves moves split)
    have here' : Cursor.close (top :: below) c' =
        Cursor.close (top :: below) (c'.advance (cleared unit) rest' c'.regexOk) :=
      Cursor.close_blanks (by simpa using outside) split' fun x => isAsciiBlank_of_mem_cleared
    have shorter := Cursor.length_lt_of_split split lexes.ne_nil
    obtain ⟨next, next', text, text', closed, closed', passed, same⟩ := close ahead
    exact ⟨next, next', unit ++ text, cleared unit ++ text', here.trans closed,
      here'.trans closed', .comment split split' outside lexes passed, same.behind _ _⟩
  termination_by c.rest.length

/-- Both cursors step over their trivia to the same place, where the text ends or a token stands. -/
def SkipsTrivia (c c' : Cursor) : Prop :=
  ∃ here here' lead lead', c.skipTrivia = .ok here ∧ c'.skipTrivia = .ok here' ∧
    Passed [] c c' here here' lead lead' ∧ here.regexOk = c.regexOk ∧
    (here.rest = [] ∨ here.skipTrivia = .ok here)

/-- Both cursors stay where a token stands. -/
theorem skipsTrivia_of_token {kind : Lexeme} {unit rest rest' : List Char} {after : Bool}
    (twin : Twin [] c c') (split : c.rest = unit ++ rest) (split' : c'.rest = unit ++ rest')
    (front : SameFront rest rest') (lexes : Lexes c.regexOk kind unit rest after)
    (blank : kind ≠ .blank) (comment : kind ≠ .comment) (closed : kind ≠ .openComment) :
    SkipsTrivia c c' := by
  have lexes' := lexes.swap comment front
  rw [← twin.flag] at lexes'
  have stays := Cursor.skipTrivia_of_token (Cursor.lexeme?_of_lexes lexes split) blank comment
    closed
  have stays' := Cursor.skipTrivia_of_token (Cursor.lexeme?_of_lexes lexes' split') blank comment
    closed
  exact ⟨c, c', [], [], stays, stays', .refl twin, rfl, Or.inr stays⟩

/-- Trivia are stepped over in both texts. -/
theorem skipTrivia {c c' : Cursor} (twin : Twin [] c c') : SkipsTrivia c c' := by
  by_cases unread : c.rest = []
  · have ended {c : Cursor} (text : c.rest = []) : c.skipTrivia = .ok c := by
      rw [Cursor.skipTrivia, Cursor.lexeme?_eq_none_iff.mpr text]
    exact ⟨c, c', [], [], ended unread, ended (twin.eq_nil_iff.mpr unread), .refl twin, rfl,
      Or.inl unread⟩
  · cases twin.ahead unread with
    | @comment unit rest rest' split split' outside lexes ahead =>
      -- one step over the comment here, one for each of its blanks there
      have shorter := Cursor.length_lt_of_split split lexes.ne_nil
      obtain ⟨here, here', lead, lead', read, read', passed, flag, token⟩ := skipTrivia ahead
      have first := Cursor.skipTrivia_of_trivia (Cursor.lexeme?_of_lexes lexes split) (Or.inr rfl)
      have first' : c'.skipTrivia = (c'.advance (cleared unit) rest' c'.regexOk).skipTrivia :=
        Cursor.skipTrivia_blanks split' fun x => isAsciiBlank_of_mem_cleared
      exact ⟨here, here', _, _, first.trans read, first'.trans read',
        .comment split split' outside lexes passed, flag, token⟩
    | @unit unit rest rest' change after split split' code moves front ahead =>
      generalize outside : (([] : List Frame).head?.map Frame.enclosure) = top at moves
      cases moves with
      | @quiet _ _ _ kind _ _ _ lexes quiet =>
        by_cases blank : kind = .blank
        · subst blank
          have shorter := Cursor.length_lt_of_split split lexes.ne_nil
          have lexes' := lexes.swap (by simp) front
          rw [← twin.flag] at lexes'
          have first := Cursor.skipTrivia_of_trivia (Cursor.lexeme?_of_lexes lexes split)
            (Or.inl rfl)
          have first' := Cursor.skipTrivia_of_trivia (Cursor.lexeme?_of_lexes lexes' split')
            (Or.inl rfl)
          obtain ⟨here, here', lead, lead', read, read', passed, flag, token⟩ := skipTrivia ahead
          exact ⟨here, here', _, _, first.trans read, first'.trans read',
            .kept split split' code (.quiet (by simp) lexes rfl) passed,
            flag.trans lexes.blank_flag, token⟩
        · have comment : kind ≠ .comment := by
            rintro rfl
            rw [commentAhead_of_lexes (by simp) lexes] at code
            cases code
          exact skipsTrivia_of_token twin split split' front lexes blank comment
            (by rintro rfl; cases quiet)
      | opener _ lexes | backquote _ lexes =>
        exact skipsTrivia_of_token twin split split' front lexes (by simp) (by simp) (by simp)
      | closer | escape | substitution | templateEnd | templateText => cases outside
  termination_by c.rest.length

/-- Both cursors step over a token to the same place. -/
def SkipsToken (c c' : Cursor) : Prop :=
  ∃ next next' text text', c.skipToken = .ok next ∧ c'.skipToken = .ok next' ∧
    Passed [] c c' next next' text text' ∧ SameToken c.regexOk next.rest text text'

/-- What `x` opens is closed in both texts, and both tokens end behind it. -/
theorem skipsToken_of_frame {x : Char} {frame : Frame} {rest rest' : List Char} {after : Bool}
    (split : c.rest = [x] ++ rest) (split' : c'.rest = [x] ++ rest')
    (code : commentAhead none ([x] ++ rest) = false)
    (moves : Moves none c.regexOk [x] rest (.enter frame.enclosure) after)
    (opens : (Bracket.ofOpener? x).isSome ∨ x = '\x60')
    (ahead : Twin [frame] (c.advance [x] rest after) (c'.advance [x] rest' after))
    (read : c.skipToken = Cursor.close [frame] (c.advance [x] rest after))
    (read' : c'.skipToken = Cursor.close [frame] (c'.advance [x] rest' after)) :
    SkipsToken c c' := by
  obtain ⟨next, next', text, text', closed, closed', passed, ends⟩ := ahead.close
  exact ⟨next, next', [x] ++ text, [x] ++ text', read.trans closed, read'.trans closed',
    .kept split split' code moves passed, .closed opens ends⟩

/-- Tokens are stepped over in both texts. -/
theorem skipToken (twin : Twin [] c c') (unread : c.rest ≠ []) (stays : c.skipTrivia = .ok c) :
    SkipsToken c c' := by
  -- no trivia stand here, so it begins with code; a plain lexeme is one step, an opener or a
  -- backquote starts frames
  cases twin.ahead unread with
  | comment split _ _ lexes =>
    exact absurd (Or.inr rfl) (Cursor.not_trivia (Cursor.lexeme?_of_lexes lexes split) stays)
  | @unit unit rest rest' change after split split' code moves front ahead =>
    generalize outside : (([] : List Frame).head?.map Frame.enclosure) = top at moves
    cases moves with
    | @quiet _ _ _ kind _ _ _ lexes quiet =>
      have read := Cursor.lexeme?_of_lexes lexes split
      have other : kind ≠ .comment := fun comment =>
        Cursor.not_trivia read stays (Or.inr comment)
      have lexes' := lexes.swap other front
      rw [← twin.flag] at lexes'
      have read' := Cursor.lexeme?_of_lexes lexes' split'
      refine ⟨_, _, unit ++ [], unit ++ [], Cursor.skipToken_of_quiet read quiet other,
        Cursor.skipToken_of_quiet read' quiet other,
        .kept split split' code (.quiet (by simp) lexes quiet) (.refl ahead), ?_⟩
      rw [List.append_nil]
      exact .unit lexes quiet other
    | @opener _ _ _ bracket _ _ _ lexes =>
      obtain ⟨rfl, -⟩ := lexes.opener_text
      have lexes' := lexes.swap (by simp) front
      rw [← twin.flag] at lexes'
      have group : (Bracket.ofOpener? bracket.opener).isSome = true := by cases bracket <;> rfl
      refine @skipsToken_of_frame _ _ _ (.group bracket c.line) _ _ _ split split' code
        (.opener (by simp) lexes) (Or.inl group) ahead ?_ ?_
      · rw [Cursor.skipToken, Cursor.lexeme?_of_lexes lexes split]
      · rw [Cursor.skipToken, Cursor.lexeme?_of_lexes lexes' split', twin.line]
    | backquote _ lexes =>
      obtain rfl := lexes.backquote_text
      have lexes' := lexes.swap (by simp) front
      rw [← twin.flag] at lexes'
      refine @skipsToken_of_frame _ _ _ (.template c.line) _ _ _ split split' code
        (.backquote (by simp) lexes) (Or.inr rfl) ahead ?_ ?_
      · rw [Cursor.skipToken, Cursor.lexeme?_of_lexes lexes split]
      · rw [Cursor.skipToken, Cursor.lexeme?_of_lexes lexes' split', twin.line]
    -- the other moves need a frame that is open
    | closer | escape | substitution | templateEnd | templateText => cases outside

end Twin

/-- The tokens of a text in front of `tail`, and those of the text without its comments. -/
inductive Matched : Bool → List Token → List Char → List Token → Prop
  | nil {flag : Bool} {tail : List Char} : Matched flag [] tail []
  | cons {flag after : Bool} {t t' : Token} {ts ts' : List Token} {tail : List Char}
      (line : t'.line = t.line)
      (lead : Clears [] flag t.lead t'.lead (t.text ++ (Token.source ts ++ tail)) [] flag)
      (text : Clears [] flag t.text t'.text (Token.source ts ++ tail) [] after)
      (same : SameToken flag (Token.source ts ++ tail) t.text t'.text)
      (later : Matched after ts tail ts') : Matched flag (t :: ts) tail (t' :: ts')

/-- Both texts are read to the end, token by token. -/
theorem Twin.scan {c c' : Cursor} (twin : Twin [] c c') :
    c.scan.stop = .finished ∧ c'.scan.stop = .finished ∧
      ∃ tail, c.rest = Token.source c.scan.tokens ++ tail ∧
        Matched c.regexOk c.scan.tokens tail c'.scan.tokens := by
  obtain ⟨here, here', lead, lead', trivia, trivia', passed, flag, stays⟩ := twin.skipTrivia
  -- by induction on what is left: the trivia in front, one token, and the scan of the rest
  by_cases ended : here.rest = []
  · rw [Cursor.scan_of_atEnd trivia ended,
      Cursor.scan_of_atEnd trivia' (passed.twin.eq_nil_iff.mpr ended)]
    exact ⟨rfl, rfl, c.rest, rfl, .nil⟩
  · have stays := stays.resolve_left ended
    obtain ⟨next, next', text, text', token, token', read, same⟩ :=
      passed.twin.skipToken ended stays
    have unread' : here'.rest ≠ [] := fun none => ended (passed.twin.eq_nil_iff.mp none)
    have shorter : next.rest.length < c.rest.length :=
      Nat.lt_of_lt_of_le (Cursor.skipToken_length_lt ended token)
        (Cursor.skipTrivia_reaches trivia).length_le
    obtain ⟨stop, stop', tail, whole, matched⟩ := Twin.scan read.twin
    obtain ⟨first, tokens⟩ := Cursor.scan_of_token trivia ended token
    obtain ⟨first', tokens'⟩ := Cursor.scan_of_token trivia' unread' token'
    rw [tokens, tokens', Cursor.upTo_eq passed.split, Cursor.upTo_eq passed.split',
      Cursor.upTo_eq read.split, Cursor.upTo_eq read.split']
    refine ⟨first.trans stop, first'.trans stop', tail, ?_, ?_⟩
    · rw [passed.split, read.split, whole]
      simp [Token.source]
    -- lead and text of the token are cleared each for itself, in front of what follows
    · have leads := passed.clears
      have texts := read.clears
      rw [flag] at leads texts same
      rw [read.split, whole] at leads
      rw [whole] at texts same
      exact .cons passed.twin.line leads texts same matched
  termination_by c.rest.length

/-! Parts of a scan -/

/-- A lexeme is told by the text. -/
theorem Lexes.unique {flag after after' : Bool} {kind kind' : Lexeme}
    {text text' rest rest' : List Char} (lexes : Lexes flag kind text rest after)
    (lexes' : Lexes flag kind' text' rest' after') (same : text ++ rest = text' ++ rest') :
    kind = kind' ∧ text = text' ∧ after = after' := by
  let c : Cursor := ⟨text ++ rest, 0, 1, flag⟩
  have read : c.lexeme? = _ := Cursor.lexeme?_of_lexes lexes rfl
  have read' : c.lexeme? = _ := Cursor.lexeme?_of_lexes lexes' same
  have both := Option.some.inj (read.symm.trans read')
  obtain ⟨rfl, next⟩ := Prod.mk.inj both
  obtain rfl : rest = rest' := congrArg Cursor.rest next
  exact ⟨rfl, List.append_cancel_right same, congrArg Cursor.regexOk next⟩

/-- A clearing starts with the lexeme that stands in front; its move does not hang on the flag. -/
theorem Clears.first {flag after last : Bool} {kind : Lexeme} {later : List Enclosure}
    {text text' rest unit behind : List Char} (clears : Clears [] flag text text' rest later last)
    (lexes : Lexes flag kind unit behind after) (same : text ++ rest = unit ++ behind)
    (code : kind ≠ .comment) (shown : text ≠ []) :
    ∃ change more more', text = unit ++ more ∧ text' = unit ++ more' ∧
      commentAhead none (unit ++ (more ++ rest)) = false ∧
      (∀ flag, Lexes flag kind unit (more ++ rest) after →
        Moves none flag unit (more ++ rest) change after) ∧
      Clears (change.on []) after more more' rest later last := by
  generalize around : ([] : List Enclosure) = enclosures at clears
  cases clears with
  | done => exact absurd rfl shown
  | @kept _ _ _ middle _ front more more' _ change moves ahead behind =>
    subst around
    rw [List.append_assoc] at same
    generalize top : ([] : List Enclosure).head? = outside at moves
    -- the move is one of the outermost level, and the lexeme it reads is the given one
    cases moves with
    | quiet _ found quiet =>
      obtain ⟨rfl, rfl, rfl⟩ := found.unique lexes same
      exact ⟨_, more, more', rfl, rfl, ahead, fun _ again => .quiet (by simp) again quiet, behind⟩
    | opener _ found =>
      obtain ⟨rfl, rfl, rfl⟩ := found.unique lexes same
      exact ⟨_, more, more', rfl, rfl, ahead, fun _ again => .opener (by simp) again, behind⟩
    | backquote _ found =>
      obtain ⟨rfl, rfl, rfl⟩ := found.unique lexes same
      exact ⟨_, more, more', rfl, rfl, ahead, fun _ again => .backquote (by simp) again, behind⟩
    | closer | escape | substitution | templateEnd | templateText => cases top
  | comment _ found =>
    rw [List.append_assoc] at same
    exact absurd (found.unique lexes same).1.symm code

/-- Behind a lone `=` a regular expression may follow. -/
theorem Clears.flag_of_equals {flag last : Bool} {text' rest : List Char} {later : List Enclosure}
    (clears : Clears [] flag ['='] text' rest later last) : last = true := by
  have lexes : Lexes flag (punctuation '=') ['='] rest (regexMayFollow '=') :=
    .mark (by decide) (by decide) (by decide) fun slash => absurd slash (by decide)
  obtain ⟨change, more, more', split, -, -, -, behind⟩ :=
    clears.first lexes rfl (by decide) (by simp)
  obtain rfl : more = [] := by simpa using split
  generalize none : ([] : List Char) = text at behind
  cases behind with
  | done => decide
  | kept moves => simp [moves.ne_nil] at none
  | comment _ found => simp [found.ne_nil] at none

/-- A group is cleared in the same way wherever it stands. -/
theorem Clears.eq_uncomment_group {flag last : Bool} {bracket : Bracket}
    {text text' rest : List Char}
    (clears : Clears [] flag (bracket.opener :: text) text' rest [] last) :
    text' = uncomment (bracket.opener :: text) := by
  have alone : Clears [] flag (bracket.opener :: text) text' [] [] last := Clears.cut clears
  have lexes (flag : Bool) := Lexes.openerMark flag bracket text
  obtain ⟨change, more, more', split, rfl, code, moves, behind⟩ :=
    alone.first (lexes flag) (by simp) (by simp) (by simp)
  obtain rfl : text = more := by simpa using split
  rw [List.append_nil] at moves code
  -- an opener is an opener whatever the flag says, and behind it the flag is the same
  have again : Clears [] true ([bracket.opener] ++ text) ([bracket.opener] ++ more') [] [] last :=
    .kept (by simpa using moves true (lexes true)) (by simpa using code) behind
  exact @Clears.eq_uncomment [] (Cursor.start (bracket.opener :: text)) _ _ again

theorem Lexes.noComment {flag after : Bool} {kind : Lexeme} {top : Option Enclosure}
    {text rest : List Char} (lexes : Lexes flag kind text rest after) (quiet : kind.quiet = true)
    (code : kind ≠ .comment) : commentAhead top (text ++ rest) = false := by
  rw [← Bool.not_eq_true]
  intro ahead
  obtain ⟨-, tail, same, opens⟩ := commentAhead_iff.mp ahead
  exact code (lexes.eq_comment (by rintro rfl; cases quiet) same opens)

theorem SameToken.head {flag : Bool} {rest text text' : List Char}
    (same : SameToken flag rest text text') : text'.headD ' ' = text.headD ' ' := by
  cases same with
  | unit | closed => rfl

/-- Blanks at the end of a token go from both texts. -/
theorem SameToken.trimEnd {flag last : Bool} {rest text text' : List Char}
    (same : SameToken flag rest text text') (clears : Clears [] flag text text' rest [] last)
    (shown : isBlank (text.headD ' ') = false) :
    ∃ last, Clears [] flag (trimEnd text) (trimEnd text') [] [] last := by
  have alone : Clears [] flag text text' [] [] last := Clears.cut clears
  cases same with
  | unit lexes quiet code =>
    obtain ⟨blanks, blank, split⟩ := trimEnd_split text
    -- a lexeme that ends with blanks is a literal that is never closed, and without the blanks it
    -- is one too
    by_cases goes : blanks = []
    · rw [goes, List.append_nil] at split
      rw [← split]
      exact ⟨last, alone⟩
    · have ahead : commentAhead none (text ++ rest) = false := lexes.noComment quiet code
      rw [split] at lexes ahead
      obtain ⟨kind, after, quiet, lexes⟩ :=
        lexes.cut_blanks quiet (trimEnd_ne_nil shown) goes blank
      have unit :
          Clears [] flag (Text.trimEnd text ++ []) (Text.trimEnd text ++ []) [] [] after := by
        refine .kept (.quiet (by simp) (by simpa using lexes) quiet) ?_ .done
        rw [List.append_assoc] at ahead
        simpa using commentAhead_cut ahead
      rw [List.append_nil] at unit
      exact ⟨after, unit⟩
  | @closed x inner inner' _ ends =>
    obtain ⟨front, front', final, rfl, rfl, visible⟩ := ends
    rw [← List.cons_append, ← List.cons_append] at alone ⊢
    rw [trimEnd_of_shown visible, trimEnd_of_shown visible]
    exact ⟨last, alone⟩

namespace Matched

variable {flag : Bool} {t t' : Token} {ts ts' : List Token} {tail : List Char}

theorem span_cons_cons (t u : Token) (us : List Token) :
    Token.span (t :: u :: us) = t.text ++ (u.lead ++ Token.span (u :: us)) := by
  simp [Token.span]

theorem head_span {t : Token} (shown : isBlank t.first = false) (ts : List Token) :
    isBlank ((Token.span (t :: ts)).headD ' ') = false := by
  rw [Token.first] at shown
  rw [Token.span]
  cases text : t.text with
  | nil =>
    rw [text] at shown
    cases shown
  | cons x rest =>
    rw [text] at shown
    exact shown

/-- What two expressions span is the same but for comments, also when it is trimmed. -/
theorem trimEnd_span (matched : Matched flag (t :: ts) tail (t' :: ts'))
    (shown : ∀ u ∈ t :: ts, isBlank u.first = false) :
    ∃ last, Clears [] flag (trimEnd (Token.span (t :: ts))) (trimEnd (Token.span (t' :: ts'))) []
      [] last := by
  induction ts generalizing flag t t' ts' with
  | nil =>
    cases matched with
    | cons _ _ text same later =>
      cases later
      have alone (t : Token) : Token.span [t] = t.text := by simp [Token.span]
      rw [alone, alone]
      exact same.trimEnd text (shown t List.mem_cons_self)
  | cons u us ih =>
    cases matched with
    | @cons _ after _ _ _ _ _ _ _ text _ later =>
      have laterShown : ∀ v ∈ u :: us, isBlank v.first = false :=
        fun v member => shown v (List.mem_cons_of_mem t member)
      have behind := later
      cases later with
      | @cons _ _ _ u' _ us' _ _ lead _ same _ =>
        obtain ⟨last, more⟩ := ih behind laterShown
        have first := laterShown u List.mem_cons_self
        have first' : isBlank u'.first = false := by
          rw [Token.first, same.head]
          exact first
        -- a token starts with no blank, so trimming stops inside what stands behind the first one
        have kept := trimEnd_ne_nil (head_span first us)
        have kept' := trimEnd_ne_nil (head_span first' us')
        obtain ⟨blanks, -, split⟩ := trimEnd_split (Token.span (u :: us))
        have inner : u.text ++ (Token.source us ++ tail) =
            (trimEnd (Token.span (u :: us)) ++ []) ++ (blanks ++ tail) := by
          rw [List.append_nil, ← List.append_assoc (trimEnd _), ← split]
          simp [Token.span, Token.source]
        have outer : Token.source (u :: us) ++ tail =
            ((u.lead ++ trimEnd (Token.span (u :: us))) ++ []) ++ (blanks ++ tail) := by
          rw [List.append_nil, List.append_assoc, ← List.append_assoc (trimEnd _), ← split]
          simp [Token.span, Token.source]
        rw [inner] at lead
        rw [outer] at text
        refine ⟨last, ?_⟩
        rw [span_cons_cons, span_cons_cons, trimEnd_append, trimEnd_append kept, trimEnd_append,
          trimEnd_append kept']
        · exact (Clears.cut text).trans ((Clears.cut lead).trans more)
        · simp [trimEnd_append kept', kept']
        · simp [trimEnd_append kept, kept]

end Matched

end Concord.Scan
