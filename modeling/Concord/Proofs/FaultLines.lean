import Concord.Proofs.Clauses
import Concord.Proofs.ExportPositions

/-!
Where a fault is reported. The scanner opens frames on lines that it has passed, so whatever it
finds wrong with a text lies on a line of that text. Extraction reads parts of its text on their own
(the entries of lists and patterns, at any depth), and counts the lines of such a part from one: the
line may be off, but it never leaves the file.
-/
namespace Concord.Text

/-- The text has a line of this number. -/
def HasLine (text : List Char) (line : Nat) : Prop :=
  1 ≤ line ∧ line ≤ lineBreaks text + 1

instance (text : List Char) (line : Nat) : Decidable (HasLine text line) :=
  inferInstanceAs (Decidable (_ ∧ _))

theorem hasLine_one (text : List Char) : HasLine text 1 :=
  ⟨Nat.le_refl 1, by omega⟩

/-- A text has the lines of its parts. -/
theorem HasLine.mono {part text : List Char} {line : Nat} (has : HasLine part line)
    (within : part <:+: text) : HasLine text line := by
  obtain ⟨low, high⟩ := has
  have fewer : lineBreaks part ≤ lineBreaks text := within.sublist.count_le '\n'
  exact ⟨low, by omega⟩

theorem breaksBefore_le_lineBreaks (text : List Char) (offset : Nat) :
    breaksBefore text offset ≤ lineBreaks text := by
  induction text generalizing offset with
  | nil => simp [breaksBefore]
  | cons c rest ih =>
    have later := ih (offset - c.utf8Size)
    rw [breaksBefore, lineBreaks, List.count_cons]
    rw [lineBreaks] at later
    split
    · exact Nat.zero_le _
    · -- the first character counts on both sides, and the rest by induction
      by_cases newline : c = '\n'
      · simp only [newline, if_true, beq_self_eq_true] at later ⊢
        omega
      · simp only [newline, if_false, beq_iff_eq]
        omega

/-- Every position, inside the text or behind it, lies on a line of the text. -/
theorem hasLine_lineAt (text : List Char) (offset : Nat) : HasLine text (lineAt text offset) := by
  have bound := breaksBefore_le_lineBreaks text offset
  rw [lineAt]
  exact ⟨by omega, by omega⟩

theorem trim_isInfix (text : List Char) : trim text <:+: text := by
  obtain ⟨blanks, trimmed⟩ := eq_indent_append_trim text
  exact ⟨indent text, blanks, by simpa using trimmed.symm⟩

end Concord.Text

namespace Concord.Scan

open Concord.Text

/-! Lines of the scanner -/

/-- The line on which a frame was opened. -/
def Frame.line : Frame → Nat
  | group _ line => line
  | template line => line

/-- All frames were opened between the first line and this one. -/
def OpenedBy (line : Nat) (frames : List Frame) : Prop :=
  ∀ frame ∈ frames, 1 ≤ frame.line ∧ frame.line ≤ line

theorem OpenedBy.change {line later : Nat} {frames : List Frame} (opened : OpenedBy line frames)
    (start : 1 ≤ line) (onward : line ≤ later) (change : Change) :
    OpenedBy later (change.frames line frames) := by
  -- moving on only widens the range for the frames that stay open
  have kept : OpenedBy later frames := by
    intro frame member
    have := opened frame member
    omega
  cases change with
  | stay => exact kept
  | leave => exact fun frame member => kept frame (List.mem_of_mem_tail member)
  | enter inner =>
    intro frame member
    rcases List.mem_cons.mp member with rfl | member
    · cases inner <;> exact ⟨start, onward⟩
    · exact kept frame member

/-- A step fails on the line of the cursor or on that of the innermost frame. -/
theorem Fails.line {frames : List Frame} {c : Cursor} {imbalance : Imbalance}
    (fails : Fails frames c imbalance) (opened : OpenedBy c.line frames) (start : 1 ≤ c.line) :
    1 ≤ imbalance.line ∧ imbalance.line ≤ c.line := by
  cases fails with
  | openComment | unmatched | wrongCloser => exact ⟨start, Nat.le_refl _⟩
  | openTemplate | neverClosed => exact opened _ List.mem_cons_self

/-- Whatever is wrong lies between the first line and the last one of what is left to read. -/
theorem Cursor.imbalance?_line {frames : List Frame} {c : Cursor} {imbalance : Imbalance}
    (opened : OpenedBy c.line frames) (start : 1 ≤ c.line)
    (failed : c.imbalance? frames = some imbalance) :
    1 ≤ imbalance.line ∧ imbalance.line ≤ c.line + lineBreaks c.rest := by
  -- the induction is on the steps; that the frames were opened by the line of the cursor carries it
  fun_induction Cursor.imbalance? frames c with
  | case1 => cases failed
  | case2 frames c found fails =>
    cases failed
    have bounds := (fails_of_step fails).line opened start
    omega
  | case3 frames c later next moved ih =>
    -- the line of the next cursor counts the breaks of the unit that was stepped over
    obtain ⟨text, change, split, advanced, -, rfl⟩ := moves_of_step moved
    have line : next.line = c.line + lineBreaks text := by
      rw [advanced]
      rfl
    have bounds := ih (opened.change start (by omega) change) (by omega) failed
    rw [split, lineBreaks_append]
    omega

/-- What is wrong with some part of the text, when the part is read by itself. -/
def FaultIn (text : List Char) (imbalance : Imbalance) : Prop :=
  ∃ part, part <:+: text ∧ (Cursor.start part).imbalance? [] = some imbalance

namespace FaultIn

variable {part text : List Char} {imbalance : Imbalance}

theorem whole (failed : (Cursor.start text).imbalance? [] = some imbalance) :
    FaultIn text imbalance :=
  ⟨text, List.infix_rfl, failed⟩

theorem mono (fault : FaultIn part imbalance) (within : part <:+: text) :
    FaultIn text imbalance := by
  obtain ⟨inner, inside, failed⟩ := fault
  exact ⟨inner, inside.trans within, failed⟩

theorem hasLine (fault : FaultIn text imbalance) : HasLine text imbalance.line := by
  obtain ⟨part, within, failed⟩ := fault
  have outside : OpenedBy (Cursor.start part).line [] := by simp [OpenedBy]
  have bounds := Cursor.imbalance?_line outside (Nat.le_refl 1) failed
  have has : HasLine part imbalance.line := by
    simp only [Cursor.start] at bounds
    exact ⟨bounds.1, by omega⟩
  exact has.mono within

end FaultIn

/-- The tokens of a text are parts of it. -/
theorem Stands.isInfix {text front : List Char} {tokens : List Token}
    (stands : Stands text front tokens) : ∀ t ∈ tokens, t.text <:+: text := by
  induction stands with
  | nil => simp
  | cons within _ _ _ ih =>
    intro t member
    rcases List.mem_cons.mp member with rfl | member
    · obtain ⟨back, whole⟩ := within
      exact ⟨_, back, whole⟩
    · exact ih t member

theorem split_error {sep : Char} (separates : isSeparator sep = true) {text : List Char}
    {imbalance : Imbalance} (failed : split sep text = .error imbalance) :
    FaultIn text imbalance :=
  .whole ((Cursor.split_eq_error_iff separates).mp failed)

theorem findAssign_error {text : List Char} {imbalance : Imbalance}
    (failed : findAssign text = .error imbalance) : FaultIn text imbalance :=
  .whole (Cursor.findAssign_error failed)

end Concord.Scan

namespace Concord.Export

open Concord.Scan Concord.Text

/-! Faults of patterns -/

/-- A traversal that fails does so at an element. -/
theorem exists_of_mapM_eq_error {α β ε : Type} {f : α → Except ε β} {xs : List α} {e : ε}
    (failed : xs.mapM f = .error e) : ∃ x ∈ xs, f x = .error e := by
  induction xs with
  | nil => cases failed
  | cons x xs ih =>
    rw [List.mapM_cons] at failed
    rcases bind_eq_error.mp failed with first | ⟨y, -, behind⟩
    · exact ⟨x, List.mem_cons_self, first⟩
    · rcases bind_eq_error.mp behind with later | ⟨_, -, never⟩
      · obtain ⟨z, member, raised⟩ := ih later
        exact ⟨z, List.mem_cons_of_mem x member, raised⟩
      · cases never

section

variable {imbalance : Imbalance}

theorem bindingTarget_error {isObject : Bool} {entry : List Char}
    (failed : bindingTarget isObject entry = .error imbalance) : FaultIn entry imbalance := by
  rw [bindingTarget_eq] at failed
  rcases bind_eq_error.mp failed with failed | ⟨bound, before, failed⟩
  · -- the default cannot be found
    rcases bind_eq_error.mp failed with raised | ⟨position, -, never⟩
    · exact findAssign_error raised
    · cases position <;> cases never
  · -- what stands before it cannot be cut at its colons
    obtain ⟨back, split, -⟩ := boundPart_eq_ok before
    split at failed
    · rcases bind_eq_error.mp failed with raised | ⟨pieces, -, never⟩
      · exact (split_error (by decide) raised).mono ⟨[], back, by rw [List.nil_append, split]⟩
      · split at never <;> cases never
    · cases failed

/-- Reading an entry fails inside it, if this holds of the patterns that it nests. -/
theorem entryBindings_error {isObject : Bool} {line : Nat} {pattern : List Char} {piece : Piece}
    (failed : entryBindings isObject line pattern piece = .error imbalance)
    (deeper : ∀ {innerIsObject innerLine inner}, inner.length < piece.text.length →
      bindings innerIsObject innerLine inner = .error imbalance → FaultIn inner imbalance) :
    FaultIn piece.text imbalance := by
  apply FaultIn.mono _ (trim_isInfix piece.text)
  simp only [entryBindings] at failed
  -- an empty entry and a rest never fail
  split at failed
  · cases failed
  split at failed
  · cases failed
  split at failed
  next raised bound =>
    cases failed
    exact bindingTarget_error bound
  next target bound =>
    split at failed
    next innerIsObject inner nested =>
      have shorter : inner.length < piece.text.length := by
        have first := trim_length_le piece.text
        have second := bindingTarget_length_le bound
        have third := trim_length_le target.text
        have fourth := nestedPattern?_length_lt nested
        omega
      obtain ⟨ahead, behind, entry, -, -⟩ := bindingTarget_eq_ok bound
      obtain ⟨bracket, back, body⟩ := nestedPattern?_stands nested
      -- the nested pattern stands in the target, and the target in the trimmed piece
      have inside : inner <:+: target.text :=
        ⟨indent target.text ++ [bracket.opener], back, by simpa using body.symm⟩
      have within : target.text <:+: trim piece.text := ⟨ahead, behind, by simpa using entry.symm⟩
      exact (deeper shorter failed).mono (inside.trans within)
    · cases failed

/-- A pattern that cannot be read has a part that does not balance. -/
theorem bindings_error {isObject : Bool} {line : Nat} {pattern : List Char}
    (failed : bindings isObject line pattern = .error imbalance) : FaultIn pattern imbalance := by
  rw [bindings_eq] at failed
  -- the body cannot be cut at its commas, or one of its entries cannot be read
  rcases bind_eq_error.mp failed with raised | ⟨pieces, cut, failed⟩
  · exact split_error (by decide) raised
  rcases bind_eq_error.mp failed with raised | ⟨_, -, never⟩
  · obtain ⟨piece, member, raised⟩ := exists_of_mapM_eq_error raised
    have length := split_length_le cut piece member
    obtain ⟨ahead, behind, split, -⟩ := (split_cuts (by decide) cut).stands piece member
    have within : piece.text <:+: pattern := ⟨ahead, behind, by simpa using split.symm⟩
    refine (entryBindings_error raised ?_).mono within
    intro _ _ inner shorter deeper
    exact bindings_error deeper
  · cases never
  termination_by pattern.length

/-! Faults of clauses -/

/-- Reading came to where the scan stopped, or to a token with a part that does not balance. -/
def FaultAt (stop : Stop) (tokens : List Token) (imbalance : Imbalance) : Prop :=
  stop.imbalance? = some imbalance ∨ ∃ t ∈ tokens, FaultIn t.text imbalance

variable {stop : Stop} {tokens rest : List Token}

theorem FaultAt.mono {later : List Token} (fault : FaultAt stop later imbalance)
    (remains : Remains later tokens) : FaultAt stop tokens imbalance := by
  rcases fault with stopped | ⟨t, member, fault⟩
  · exact Or.inl stopped
  · obtain ⟨u, member, text⟩ := remains.exists_text member
    exact Or.inr ⟨u, member, text ▸ fault⟩

/-- The interior of a group is a part of its text. -/
theorem FaultAt.interior {t : Token} {bracket : Bracket} (group : t.group? = some bracket)
    (fault : FaultIn t.interior imbalance) : FaultAt stop (t :: rest) imbalance := by
  obtain ⟨back, text⟩ := Token.group_text group
  have within : t.interior <:+: t.text := ⟨[bracket.opener], back, by simpa using text.symm⟩
  exact Or.inr ⟨t, List.mem_cons_self, fault.mono within⟩

theorem patternExports_faultAt {t : Token} {bracket : Bracket} (group : t.group? = some bracket)
    (failed : patternExports stop t rest = .error imbalance) :
    FaultAt stop (t :: rest) imbalance := by
  rcases bind_eq_error.mp failed with raised | ⟨_, -, failed⟩
  · exact Or.inl (typeClause_error raised)
  rcases bind_eq_error.mp failed with raised | ⟨_, -, failed⟩
  · exact Or.inl (initializer_error raised)
  rcases bind_eq_error.mp failed with raised | ⟨_, -, never⟩
  · exact .interior group (bindings_error raised)
  · cases never

theorem declarator_faultAt {t : Token} (failed : declarator stop t rest = .error imbalance) :
    FaultAt stop (t :: rest) imbalance := by
  cases pattern : startsPattern t with
  | false => exact Or.inl (declarator_error pattern failed)
  | true =>
    simp only [startsPattern] at pattern
    rw [declarator, if_pos pattern] at failed
    rcases bind_eq_error.mp failed with raised | ⟨_, -, never⟩
    · simp only [Bool.or_eq_true, decide_eq_true_eq] at pattern
      rcases pattern with curly | square
      · exact patternExports_faultAt curly raised
      · exact patternExports_faultAt square raised
    · cases never

theorem declarators_faultAt (failed : declarators stop tokens = .error imbalance) :
    FaultAt stop tokens imbalance := by
  fun_induction declarators stop tokens with
  | case1 | case3 | case4 | case6 => cases failed
  | case2 t rest raised read =>
    cases failed
    exact declarator_faultAt read
  | case5 t rest found u later read comma ih =>
    rcases bind_eq_error.mp failed with raised | ⟨_, -, never⟩
    · -- a later declarator failed, and its tokens are among these
      have behind : Remains later (t :: rest) :=
        (((Remains.refl later).drop u).trans (declarator_remains read)).drop t
      exact (ih raised).mono behind
    · cases never

theorem listExports_faultAt {t : Token} {line : Nat} {origin : Option (List Char)}
    (group : t.group? = some .curly)
    (failed : listExports line t.interior origin = .error imbalance) :
    FaultAt stop (t :: rest) imbalance := by
  rcases bind_eq_error.mp failed with raised | ⟨_, -, never⟩
  · exact .interior group (split_error (by decide) raised)
  · cases never

theorem exportClause_faultAt (failed : exportClause stop tokens = .error imbalance) :
    FaultAt stop tokens imbalance := by
  cases tokens with
  | nil => cases failed
  | cons t rest =>
    simp only [exportClause] at failed
    split at failed
    next group =>
      split at failed
      · rcases bind_eq_error.mp failed with raised | ⟨_, -, never⟩
        · exact listExports_faultAt group raised
        · cases never
      · rcases bind_eq_error.mp failed with raised | ⟨_, -, never⟩
        · exact listExports_faultAt group raised
        · cases never
    · split at failed
      · exact (declarators_faultAt failed).mono ((Remains.refl rest).drop t)
      · -- functions and what is not understood never fail
        repeat' split at failed
        all_goals cases failed

/-- Reading fails where the scan stopped or in a clause. -/
theorem exportsFrom_faultAt {previous : Char}
    (failed : exportsFrom stop previous tokens = .error imbalance) :
    FaultAt stop tokens imbalance := by
  rw [exportsFrom_eq] at failed
  -- either a clause fails, or all are read and the scan had stopped
  rcases bind_eq_error.mp failed with raised | ⟨_, -, ended⟩
  · obtain ⟨clause, member, raised⟩ := exists_of_mapM_eq_error raised
    have read : exportClause stop clause = .error imbalance := by
      rw [clauseExports] at raised
      cases outcome : exportClause stop clause with
      | ok read =>
        rw [outcome] at raised
        cases raised
      | error other =>
        rw [outcome] at raised
        cases raised
        rfl
    exact (exportClause_faultAt read).mono (clausesFrom_remains member)
  · rw [atStop] at ended
    split at ended
    · cases ended
    next found =>
      cases ended
      exact Or.inl found

end

/-- An extraction that fails tells what is wrong with a part of the text. -/
theorem extract_error {text : List Char} {imbalance : Imbalance}
    (failed : extract text = .error imbalance) : FaultIn text imbalance := by
  rcases exportsFrom_faultAt (extract_eq text ▸ failed) with stopped | ⟨t, member, fault⟩
  · rw [scan_imbalance?] at stopped
    exact .whole stopped
  · exact fault.mono ((scan_stands text).isInfix t member)

/-- Every export stands on a line of the text. -/
theorem extract_hasLine {text : List Char} {exports : List Export}
    (read : extract text = .ok exports) : ∀ e ∈ exports, HasLine text e.line := by
  obtain ⟨low, high, -, -, ⟨places, each, -⟩, -⟩ :=
    exportsFrom_inOrder (scan_stands text) (extract_eq text ▸ read)
  intro e member
  obtain ⟨place, -, stands⟩ := exists_mem_of_forall₂ each member
  rw [stands.1]
  exact hasLine_lineAt text place

end Concord.Export
