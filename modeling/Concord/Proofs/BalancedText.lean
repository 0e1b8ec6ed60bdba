import Concord.Proofs.ScanSteps
import Concord.Scan.Split

/-!
Balance as a property of the text alone: a text balances when its moves open and close around
nothing. The interior of a group balances by itself, and a text that balances can be cut at its
separators.
-/
namespace Concord.Scan

open Concord.Text

/-- Read from inside `around`, the text closes everything that is open and nothing more. -/
inductive Balances : List Enclosure → Bool → List Char → Prop
  | done {flag : Bool} : Balances [] flag []
  | step {around : List Enclosure} {flag after : Bool} {text rest : List Char} {change : Change}
      (moves : Moves around.head? flag text rest change after)
      (later : Balances (change.on around) after rest) : Balances around flag (text ++ rest)

/-- A text that balances has nothing wrong with it, wherever it starts. -/
theorem Balances.imbalance? {frames : List Frame} {c : Cursor}
    (balances : Balances (frames.map Frame.enclosure) c.regexOk c.rest) :
    c.imbalance? frames = none := by
  -- lines differ from place to place, so the frames are fixed only up to their enclosures
  generalize enclosed : frames.map Frame.enclosure = around at balances
  generalize flagged : c.regexOk = flag at balances
  generalize left : c.rest = text at balances
  induction balances generalizing frames c with
  | done =>
    obtain rfl := List.map_eq_nil_iff.mp enclosed
    exact Cursor.imbalance?_of_atEnd left
  | step moves _ ih =>
    subst enclosed flagged
    rw [List.head?_map] at moves
    rw [Cursor.imbalance?_of_moved (Cursor.step_of_moves moves left)]
    exact ih (Change.map_frames _ _ _) rfl rfl

theorem Balances.imbalance?_start {text : List Char} (balances : Balances [] true text) :
    (Cursor.start text).imbalance? [] = none := by
  have outside : Balances (([] : List Frame).map Frame.enclosure) true text := balances
  exact outside.imbalance?

/-- Read in front of `rest`, the units of the text lead from the enclosures `around` to `later`. -/
inductive Runs : List Enclosure → Bool → List Char → List Char → List Enclosure → Bool → Prop
  | done {around : List Enclosure} {flag : Bool} {rest : List Char} :
      Runs around flag [] rest around flag
  | step {around later : List Enclosure} {flag after last : Bool} {front text rest : List Char}
      {change : Change} (moves : Moves around.head? flag front (text ++ rest) change after)
      (more : Runs (change.on around) after text rest later last) :
      Runs around flag (front ++ text) rest later last

namespace Runs

variable {around middle later : List Enclosure} {flag after last : Bool}
  {front text rest tail : List Char}

theorem single {change : Change} (moves : Moves around.head? flag text rest change after) :
    Runs around flag text rest (change.on around) after := by
  have one : Runs around flag (text ++ []) rest (change.on around) after := .step moves .done
  rwa [List.append_nil] at one

theorem trans (first : Runs around flag front (text ++ rest) middle after)
    (second : Runs middle after text rest later last) :
    Runs around flag (front ++ text) rest later last := by
  generalize whole : text ++ rest = all at first
  induction first with
  | done => exact second
  | step moves _ ih =>
    subst whole
    rw [List.append_assoc]
    refine .step ?_ (ih second rfl)
    rwa [List.append_assoc]

theorem cut (runs : Runs around flag text (rest ++ tail) later last) :
    Runs around flag text rest later last := by
  generalize whole : rest ++ tail = all at runs
  induction runs with
  | done => exact .done
  | step moves _ ih =>
    subst whole
    rw [← List.append_assoc] at moves
    exact .step moves.cut (ih rfl)

theorem balances (runs : Runs around flag text rest later last) (after : Balances later last rest) :
    Balances around flag (text ++ rest) := by
  induction runs with
  | done => exact after
  | step moves _ ih =>
    rw [List.append_assoc]
    exact .step moves (ih after)

/-- A run that closes everything balances without what follows it. -/
theorem alone (runs : Runs around flag text rest [] last) : Balances around flag text := by
  have cut : Runs around flag text [] [] last := Runs.cut runs
  have whole : Balances around flag (text ++ []) := cut.balances .done
  rwa [List.append_nil] at whole

end Runs

/-- Read in front of `rest`, the text leaves everything that is open, and stops there. -/
inductive Closes : List Enclosure → Bool → List Char → List Char → Prop
  | done {flag : Bool} {rest : List Char} : Closes [] flag [] rest
  | step {top : Enclosure} {below : List Enclosure} {flag after : Bool}
      {front text rest : List Char} {change : Change}
      (moves : Moves (some top) flag front (text ++ rest) change after)
      (later : Closes (change.on (top :: below)) after text rest) :
      Closes (top :: below) flag (front ++ text) rest

theorem Cursor.close_closes {frames : List Frame} {c next : Cursor}
    (closed : close frames c = .ok next) :
    ∃ text, c.rest = text ++ next.rest ∧
      Closes (frames.map Frame.enclosure) c.regexOk text next.rest := by
  cases frames with
  | nil =>
    rw [close] at closed
    cases closed
    exact ⟨[], rfl, .done⟩
  | cons top below =>
    -- the first step is a move, and what remains is shorter
    rcases close_cons top below c with ⟨later, middle, moved, same⟩ | ⟨halt, -, failed⟩
    · have := step_length_lt moved
      obtain ⟨text, split, closes⟩ := close_closes (same.symm.trans closed)
      obtain ⟨front, change, begin, -, moves, rfl⟩ := moves_of_step moved
      refine ⟨front ++ text, by rw [begin, split, List.append_assoc], .step (split ▸ moves) ?_⟩
      rw [Change.map_frames] at closes
      exact closes
    · rw [failed] at closed
      cases closed
  termination_by c.rest.length

theorem Change.on_append {change : Change} {front : List Enclosure} (base : List Enclosure)
    (inside : front ≠ [] ∨ change ≠ .leave) :
    change.on (front ++ base) = change.on front ++ base := by
  cases change with
  | stay | enter => rfl
  | leave =>
    cases front with
    | nil => simp at inside
    | cons top front => rfl

/-- What stands in front of the closer of a group is a run of its own. -/
theorem Closes.interior {front : List Enclosure} {bracket : Bracket} {flag : Bool}
    {text rest : List Char} (closes : Closes (front ++ [.group bracket]) flag text rest) :
    ∃ inner last, text = inner ++ [bracket.closer] ∧
      Runs front flag inner (bracket.closer :: rest) [] last := by
  -- `front` is what is open inside the group; the group itself stays at the bottom until its closer
  generalize whole : front ++ [.group bracket] = around at closes
  induction closes generalizing front with
  | done => simp at whole
  | @step top below flag after first text rest change moves later ih =>
    by_cases ends : front = [] ∧ change = .leave
    · obtain ⟨rfl, rfl⟩ := ends
      obtain ⟨rfl, rfl⟩ := List.cons.inj whole
      cases later
      exact ⟨[], flag, by simp [moves.closer_text], .done⟩
    · have inside : front ≠ [] ∨ change ≠ .leave := by
        rw [← not_and_or]
        exact ends
      rw [← whole, Change.on_append _ inside] at later ih
      obtain ⟨inner, last, rfl, runs⟩ := ih rfl
      refine ⟨first ++ inner, last, by simp, .step ?_ runs⟩
      rw [List.append_assoc] at moves
      cases front with
      | nil =>
        -- directly inside the group, a move that does not close it is a move at depth 0
        obtain ⟨rfl, rfl⟩ := List.cons.inj whole
        exact moves.outside (by simpa using inside)
      | cons top front =>
        obtain ⟨rfl, -⟩ := List.cons.inj whole
        exact moves

/-! Groups among the tokens of a scan -/

theorem punctuation_opener (bracket : Bracket) : punctuation bracket.opener = .opener bracket := by
  cases bracket <;> rfl

theorem Lexes.openerMark (flag : Bool) (bracket : Bracket) (rest : List Char) :
    Lexes flag (.opener bracket) [bracket.opener] rest true := by
  rw [← punctuation_opener]
  have follows : regexMayFollow bracket.opener = true := by cases bracket <;> rfl
  rw [← follows]
  refine .mark ?_ ?_ ?_ ?_
  all_goals cases bracket <;> first | decide | exact fun slash => absurd slash (by decide)

theorem Lexes.closerMark (flag : Bool) (bracket : Bracket) (rest : List Char) :
    Lexes flag (.closer bracket) [bracket.closer] rest (regexMayFollow bracket.closer) := by
  have mark : Lexes flag (punctuation bracket.closer) [bracket.closer] rest
      (regexMayFollow bracket.closer) := by
    refine .mark ?_ ?_ ?_ ?_
    all_goals cases bracket <;> first | decide | exact fun slash => absurd slash (by decide)
  cases bracket <;> exact mark

namespace Cursor

/-- The token at an opener is a whole group. -/
theorem skipToken_group {c next : Cursor} {bracket : Bracket} {rest : List Char}
    (text : c.rest = bracket.opener :: rest) (skipped : c.skipToken = .ok next) :
    ∃ inner last, rest = inner ++ bracket.closer :: next.rest ∧
      Runs [] true inner (bracket.closer :: next.rest) [] last := by
  -- behind an opener a `/` may open a regular expression, as at the start of a text
  have read := lexeme?_of_lexes (.openerMark c.regexOk bracket rest) text
  rw [skipToken, read] at skipped
  obtain ⟨front, split, closes⟩ := close_closes skipped
  have inside : Closes ([] ++ [.group bracket]) true front next.rest := closes
  obtain ⟨inner, last, rfl, runs⟩ := inside.interior
  exact ⟨inner, last, by simpa [advance] using split, runs⟩

/-- Every token of a scan was stepped over at some place. -/
theorem exists_skipToken {c : Cursor} {t : Token} (member : t ∈ c.scan.tokens) :
    ∃ here next : Cursor, here.skipToken = .ok next ∧ here.rest = t.text ++ next.rest := by
  fun_induction scan c with
  | case1 | case2 | case3 => cases member
  | case4 c here trivia unread next token later ih =>
    rcases List.mem_cons.mp member with rfl | member
    · obtain ⟨text, split, -⟩ := skipToken_reaches token
      exact ⟨here, next, token, by rw [split, upTo_eq split]⟩
    · exact ih member

end Cursor

/-- The interior of a group at depth 0 balances. -/
theorem interior_balances {text : List Char} {t : Token} {bracket : Bracket}
    (member : t ∈ (scan text).tokens) (group : t.group? = some bracket) :
    Balances [] true t.interior := by
  obtain ⟨here, next, skipped, split⟩ := Cursor.exists_skipToken member
  have first := Bracket.eq_opener_of_ofOpener? group
  cases whole : t.text with
  | nil =>
    rw [Token.first, whole] at first
    exact absurd first (by cases bracket <;> decide)
  | cons x rest =>
    obtain rfl : x = bracket.opener := by simpa [Token.first, whole] using first
    rw [whole] at split
    obtain ⟨inner, last, closed, runs⟩ := Cursor.skipToken_group split skipped
    have joined : rest ++ next.rest = (inner ++ [bracket.closer]) ++ next.rest := by
      simpa using closed
    rw [List.append_cancel_right joined] at whole
    have interior : t.interior = inner := by simp [Token.interior, whole]
    rw [interior]
    exact runs.alone

/-! Cutting at a separator -/

/-- A character that is a lexeme of its own wherever it starts one. -/
def isSeparator (x : Char) : Bool :=
  punctuation x = .mark && !isAsciiBlank x && !isWordStart x && x ≠ '\x27' && x ≠ '\x22' && x ≠ '/'

theorem Cursor.imbalance?_of_eat {c next : Cursor} {sep : Char} (separates : isSeparator sep = true)
    (eaten : c.eat? sep = some next) : c.imbalance? [] = next.imbalance? [] := by
  simp only [isSeparator, Bool.and_eq_true, decide_eq_true_eq, Bool.not_eq_true'] at separates
  obtain ⟨⟨⟨⟨⟨mark, notBlank⟩, notWord⟩, notApostrophe⟩, notQuote⟩, notSlash⟩ := separates
  simp only [eat?] at eaten
  split at eaten
  · cases eaten
  next x rest text =>
    split at eaten
    next same =>
      subst same
      rw [notBlank, if_neg Bool.false_ne_true] at eaten
      cases eaten
      have lexes : Lexes c.regexOk .mark [x] rest (regexMayFollow x) := by
        rw [← mark]
        exact .mark notBlank ⟨notApostrophe, notQuote⟩ notWord fun slash => absurd slash notSlash
      refine imbalance?_of_moved ?_
      simp [step, stepCode, lexeme?_of_lexes lexes text]
    · cases eaten

/-- Cutting fails exactly where the scan of the text fails. -/
theorem Cursor.split_eq_error_iff {sep : Char} (separates : isSeparator sep = true)
    {start c : Cursor} {imbalance : Imbalance} :
    Cursor.split sep start c = .error imbalance ↔ c.imbalance? [] = some imbalance := by
  fun_induction Cursor.split sep start c with
  | case1 start c halt trivia =>
    rw [imbalance?_skipTrivia, trivia, verdict]
    simp
  | case2 start c here trivia read =>
    rw [imbalance?_skipTrivia, trivia, verdict, imbalance?_of_atEnd read]
    simp
  | case3 start c here trivia unread next eaten ih =>
    -- a separator is one lexeme, and eating it raises the same flag as reading it
    rw [imbalance?_skipTrivia, trivia, verdict, imbalance?_of_eat separates eaten, ← ih]
    cases Cursor.split sep next next <;> simp [bind, Except.bind, pure, Except.pure]
  | case4 start c here trivia unread uncut halt token =>
    rw [imbalance?_skipTrivia, trivia, verdict, imbalance?_skipToken, token, verdict]
    simp
  | case5 start c here trivia unread uncut next token ih =>
    rw [imbalance?_skipTrivia, trivia, verdict, imbalance?_skipToken, token, verdict]
    exact ih

/-- A text that balances can be cut. -/
theorem Balances.exists_split {text : List Char} {sep : Char} (separates : isSeparator sep = true)
    (balances : Balances [] true text) : ∃ pieces, split sep text = .ok pieces := by
  have whole := balances.imbalance?_start
  cases cut : split sep text with
  | ok pieces => exact ⟨pieces, rfl⟩
  | error imbalance =>
    rw [(Cursor.split_eq_error_iff separates).mp cut] at whole
    cases whole

end Concord.Scan
