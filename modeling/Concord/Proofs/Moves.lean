import Concord.Proofs.Lexemes
import Concord.Scan.Group

/-!
What one step of the scanner can do. `Cursor.step` reads one lexeme of code, or one piece of
template text, under the frames that are open; at depth 0 no frame is open. `Moves` says what a step
does to the text alone, with no cursor and no lines in it, and `Fails` lists the ways it can go
wrong. Every step is one of these and every move is stepped, so a run is argued about move by move.
-/
namespace Concord.Scan

open Concord.Text

/-- What one step comes to: the end of the text, a fault, or the next place. -/
inductive Step where
  | ended
  | failed (imbalance : Imbalance)
  | moved (frames : List Frame) (next : Cursor)
  deriving DecidableEq, Repr

namespace Cursor

/-- A piece of template text. -/
def stepTemplate (line : Nat) (frames : List Frame) (c : Cursor) : Step :=
  match c.rest with
  | [] => .failed ⟨line, .openTemplate⟩
  | '\\' :: x :: rest => .moved (.template line :: frames) (c.advance ['\\', x] rest false)
  | '$' :: '\x7b' :: rest =>
    .moved (.group .curly c.line :: .template line :: frames) (c.advance ['$', '\x7b'] rest true)
  | x :: rest =>
    .moved (if x = '\x60' then frames else .template line :: frames) (c.advance [x] rest false)

/-- A closing bracket in front of `next`. -/
def stepCloser (frames : List Frame) (c : Cursor) (closer : Bracket) (next : Cursor) : Step :=
  match frames with
  | .group bracket line :: below =>
    if closer = bracket then .moved below next
    else .failed ⟨c.line, .wrongCloser closer bracket line⟩
  | _ => .failed ⟨c.line, .unmatched closer⟩

/-- The end of the text. -/
def stepEnd : List Frame → Step
  | .group bracket line :: _ => .failed ⟨line, .neverClosed bracket⟩
  | _ => .ended

/-- A lexeme of code. -/
def stepCode (frames : List Frame) (c : Cursor) : Step :=
  match c.lexeme? with
  | none => stepEnd frames
  | some (.openComment, _) => .failed ⟨c.line, .openComment⟩
  | some (.opener bracket, next) => .moved (.group bracket c.line :: frames) next
  | some (.closer bracket, next) => c.stepCloser frames bracket next
  | some (.backquote, next) => .moved (.template c.line :: frames) next
  | some (_, next) => .moved frames next

/-- Reads one unit under the frames that are open. -/
def step (frames : List Frame) (c : Cursor) : Step :=
  match frames with
  | .template line :: below => c.stepTemplate line below
  | frames => c.stepCode frames

end Cursor

/-- What a frame waits for, without its line. -/
inductive Enclosure where
  | group (bracket : Bracket)
  | template
  deriving DecidableEq, Repr

def Frame.enclosure : Frame → Enclosure
  | group bracket _ => .group bracket
  | template _ => .template

/-- What one unit does to the enclosures around it. -/
inductive Change where
  | stay
  | enter (inner : Enclosure)
  | leave
  deriving DecidableEq, Repr

def Change.on : Change → List Enclosure → List Enclosure
  | stay, around => around
  | enter inner, around => inner :: around
  | leave, around => around.tail

/-- `Moves top regexOk text rest change after`: inside `top`, and in front of `rest`, `text` is one
unit. It makes `change`, and `after` is the flag for a `/` behind it. -/
inductive Moves : Option Enclosure → Bool → List Char → List Char → Change → Bool → Prop
  | quiet {top : Option Enclosure} {flag after : Bool} {kind : Lexeme} {text rest : List Char}
      (code : top ≠ some .template) (lexes : Lexes flag kind text rest after)
      (quiet : kind.quiet = true) : Moves top flag text rest .stay after
  | opener {top : Option Enclosure} {flag after : Bool} {bracket : Bracket} {text rest : List Char}
      (code : top ≠ some .template) (lexes : Lexes flag (.opener bracket) text rest after) :
      Moves top flag text rest (.enter (.group bracket)) after
  | closer {flag after : Bool} {bracket : Bracket} {text rest : List Char}
      (lexes : Lexes flag (.closer bracket) text rest after) :
      Moves (some (.group bracket)) flag text rest .leave after
  | backquote {top : Option Enclosure} {flag after : Bool} {text rest : List Char}
      (code : top ≠ some .template) (lexes : Lexes flag .backquote text rest after) :
      Moves top flag text rest (.enter .template) after
  | escape {flag : Bool} (x : Char) {rest : List Char} :
      Moves (some .template) flag ['\\', x] rest .stay false
  | substitution {flag : Bool} {rest : List Char} :
      Moves (some .template) flag ['$', '\x7b'] rest (.enter (.group .curly)) true
  | templateEnd {flag : Bool} {rest : List Char} :
      Moves (some .template) flag ['\x60'] rest .leave false
  | templateText {flag : Bool} {x : Char} {rest : List Char} (notTick : x ≠ '\x60')
      (noEscape : x = '\\' → rest = []) (noOpen : x = '$' → rest.head? ≠ some '\x7b') :
      Moves (some .template) flag [x] rest .stay false

namespace Moves

variable {top : Option Enclosure} {flag after : Bool} {text rest tail : List Char} {change : Change}

/-- What follows a unit can be cut. -/
theorem cut (moves : Moves top flag text (rest ++ tail) change after) :
    Moves top flag text rest change after := by
  generalize whole : rest ++ tail = all at moves
  cases moves with
  | quiet code lexes quiet =>
    subst whole
    exact .quiet code lexes.cut quiet
  | opener code lexes =>
    subst whole
    exact .opener code lexes.cut
  | closer lexes =>
    subst whole
    exact .closer lexes.cut
  | backquote code lexes =>
    subst whole
    exact .backquote code lexes.cut
  | escape x => exact .escape x
  | substitution => exact .substitution
  | templateEnd => exact .templateEnd
  | templateText notTick noEscape noOpen =>
    subst whole
    -- a cut takes characters away, so it makes neither an escape nor a substitution
    refine .templateText notTick (fun escape => ?_) (fun dollar opens => ?_)
    · exact (List.append_eq_nil_iff.mp (noEscape escape)).1
    · obtain ⟨behind, rfl⟩ := List.head?_eq_some_iff.mp opens
      exact noOpen dollar rfl

/-- Inside a group only its closer tells that it is there. -/
theorem outside {bracket : Bracket}
    (moves : Moves (some (.group bracket)) flag text rest change after) (inside : change ≠ .leave) :
    Moves none flag text rest change after := by
  cases moves with
  | quiet code lexes quiet => exact .quiet (by simp) lexes quiet
  | opener code lexes => exact .opener (by simp) lexes
  | closer lexes => exact absurd rfl inside
  | backquote code lexes => exact .backquote (by simp) lexes

theorem ne_nil (moves : Moves top flag text rest change after) : text ≠ [] := by
  cases moves with
  | quiet _ lexes | opener _ lexes | closer lexes | backquote _ lexes => exact lexes.ne_nil
  | escape | substitution | templateEnd | templateText => simp

theorem closer_text {bracket : Bracket}
    (moves : Moves (some (.group bracket)) flag text rest .leave after) :
    text = [bracket.closer] := by
  cases moves with
  | closer lexes => exact lexes.closer_text.1

end Moves

/-- The frame that a unit on this line opens. -/
def Enclosure.frame (line : Nat) : Enclosure → Frame
  | group bracket => .group bracket line
  | template => .template line

/-- The frames that are open behind a unit on this line. -/
def Change.frames (line : Nat) : Change → List Frame → List Frame
  | stay, frames => frames
  | enter inner, frames => inner.frame line :: frames
  | leave, frames => frames.tail

theorem Change.map_frames (change : Change) (line : Nat) (frames : List Frame) :
    (change.frames line frames).map Frame.enclosure = change.on (frames.map Frame.enclosure) := by
  cases change with
  | stay => rfl
  | enter inner => cases inner <;> rfl
  | leave => cases frames <;> rfl

/-- The ways a step goes wrong. -/
inductive Fails : List Frame → Cursor → Imbalance → Prop
  | openTemplate {line : Nat} {below : List Frame} {c : Cursor} :
      Fails (.template line :: below) c ⟨line, .openTemplate⟩
  | openComment {frames : List Frame} {c : Cursor} : Fails frames c ⟨c.line, .openComment⟩
  | neverClosed {bracket : Bracket} {line : Nat} {below : List Frame} {c : Cursor}
      (ended : c.rest = []) :
      Fails (.group bracket line :: below) c ⟨line, .neverClosed bracket⟩
  | unmatched {closer : Bracket} {c : Cursor} {rest : List Char}
      (text : c.rest = closer.closer :: rest) : Fails [] c ⟨c.line, .unmatched closer⟩
  | wrongCloser {closer bracket : Bracket} {line : Nat} {below : List Frame} {c : Cursor}
      {rest : List Char} (text : c.rest = closer.closer :: rest) (differ : closer ≠ bracket) :
      Fails (.group bracket line :: below) c ⟨c.line, .wrongCloser closer bracket line⟩

namespace Cursor

variable {frames later : List Frame} {c next : Cursor} {imbalance : Imbalance}

theorem step_eq_stepCode (code : frames.head?.map Frame.enclosure ≠ some .template) :
    c.step frames = c.stepCode frames := by
  cases frames with
  | nil => rfl
  | cons top below =>
    cases top with
    | template line => exact absurd rfl code
    | group bracket line => rfl

theorem cons_template (template : frames.head?.map Frame.enclosure = some .template) :
    ∃ line below, frames = .template line :: below := by
  cases frames with
  | nil => cases template
  | cons top below =>
    cases top with
    | template line => exact ⟨line, below, rfl⟩
    | group bracket line => cases template

theorem cons_group {bracket : Bracket}
    (group : frames.head?.map Frame.enclosure = some (.group bracket)) :
    ∃ line below, frames = .group bracket line :: below := by
  cases frames with
  | nil => cases group
  | cons top below =>
    cases top with
    | template line => cases group
    | group opened line =>
      cases group
      exact ⟨line, below, rfl⟩

/-! Steps are moves -/

theorem moves_of_stepTemplate {line : Nat} {below : List Frame}
    (moved : c.stepTemplate line below = .moved later next) :
    ∃ text change, c.rest = text ++ next.rest ∧ next = c.advance text next.rest next.regexOk ∧
      Moves (some .template) c.regexOk text next.rest change next.regexOk ∧
      later = change.frames c.line (.template line :: below) := by
  -- inside a template one step reads an escape, a substitution or a single character
  simp only [stepTemplate] at moved
  split at moved
  · cases moved
  next x rest text =>
    cases moved
    exact ⟨_, _, text, rfl, .escape x, rfl⟩
  next rest text =>
    cases moved
    exact ⟨_, _, text, rfl, .substitution, rfl⟩
  next x rest noEscape noOpen text =>
    cases moved
    by_cases tick : x = '\x60'
    · subst tick
      exact ⟨_, _, text, rfl, .templateEnd, rfl⟩
    · refine ⟨[x], .stay, text, rfl, .templateText tick ?_ ?_, by rw [if_neg tick]; rfl⟩
      · exact eq_nil_of_no_escape noEscape
      · intro dollar opens
        obtain ⟨after, rfl⟩ := List.head?_eq_some_iff.mp opens
        exact noOpen after dollar rfl

theorem moves_of_stepCode (code : frames.head?.map Frame.enclosure ≠ some .template)
    (moved : c.stepCode frames = .moved later next) :
    ∃ text change, c.rest = text ++ next.rest ∧ next = c.advance text next.rest next.regexOk ∧
      Moves (frames.head?.map Frame.enclosure) c.regexOk text next.rest change next.regexOk ∧
      later = change.frames c.line frames := by
  simp only [stepCode] at moved
  split at moved
  · simp only [stepEnd] at moved
    split at moved <;> cases moved
  · cases moved
  next bracket after read =>
    cases moved
    obtain ⟨text, split, advanced, lexes⟩ := lexeme?_lexes read
    exact ⟨text, _, split, advanced, .opener code lexes, rfl⟩
  next bracket after read =>
    obtain ⟨text, split, advanced, lexes⟩ := lexeme?_lexes read
    -- a closer moves on only if it closes the frame on top
    simp only [stepCloser] at moved
    split at moved
    · split at moved <;> cases moved
      next same =>
        subst same
        exact ⟨text, .leave, split, advanced, .closer lexes, rfl⟩
    · cases moved
  next after read =>
    cases moved
    obtain ⟨text, split, advanced, lexes⟩ := lexeme?_lexes read
    exact ⟨text, _, split, advanced, .backquote code lexes, rfl⟩
  next kind after noComment noOpener noCloser noTick read =>
    cases moved
    have quiet : kind.quiet = true := by
      cases kind <;> simp_all [Lexeme.quiet]
    obtain ⟨text, split, advanced, lexes⟩ := lexeme?_lexes read
    exact ⟨text, .stay, split, advanced, .quiet code lexes quiet, rfl⟩

/-- Every step over a text is one of its moves. -/
theorem moves_of_step (moved : c.step frames = .moved later next) :
    ∃ text change, c.rest = text ++ next.rest ∧ next = c.advance text next.rest next.regexOk ∧
      Moves (frames.head?.map Frame.enclosure) c.regexOk text next.rest change next.regexOk ∧
      later = change.frames c.line frames := by
  by_cases template : frames.head?.map Frame.enclosure = some .template
  · obtain ⟨line, below, rfl⟩ := cons_template template
    exact moves_of_stepTemplate moved
  · rw [step_eq_stepCode template] at moved
    exact moves_of_stepCode template moved

/-- Every move is stepped. -/
theorem step_of_moves {text rest : List Char} {change : Change} {after : Bool}
    (moves : Moves (frames.head?.map Frame.enclosure) c.regexOk text rest change after)
    (split : c.rest = text ++ rest) :
    c.step frames = .moved (change.frames c.line frames) (c.advance text rest after) := by
  generalize around : frames.head?.map Frame.enclosure = top at moves
  generalize flag : c.regexOk = regexOk at moves
  cases moves with
  | @quiet _ _ _ kind _ _ code lexes quiet =>
    rw [step_eq_stepCode (around ▸ code), stepCode, lexeme?_of_lexes (flag ▸ lexes) split]
    cases kind <;> first | rfl | cases quiet
  | opener code lexes =>
    rw [step_eq_stepCode (around ▸ code), stepCode, lexeme?_of_lexes (flag ▸ lexes) split]
    rfl
  | @closer _ _ bracket _ _ lexes =>
    obtain ⟨line, below, rfl⟩ := cons_group around
    rw [step_eq_stepCode (by simp [Frame.enclosure]), stepCode,
      lexeme?_of_lexes (flag ▸ lexes) split]
    simp [stepCloser, Change.frames]
  | backquote code lexes =>
    rw [step_eq_stepCode (around ▸ code), stepCode, lexeme?_of_lexes (flag ▸ lexes) split]
    rfl
  | escape x =>
    obtain ⟨line, below, rfl⟩ := cons_template around
    simp [step, stepTemplate, split, Change.frames]
  | substitution =>
    obtain ⟨line, below, rfl⟩ := cons_template around
    simp [step, stepTemplate, split, Change.frames, Enclosure.frame]
  | templateEnd =>
    obtain ⟨line, below, rfl⟩ := cons_template around
    simp [step, stepTemplate, split, Change.frames]
  | @templateText _ x _ notTick noEscape noOpen =>
    obtain ⟨line, below, rfl⟩ := cons_template around
    simp only [step, stepTemplate, split, List.singleton_append]
    -- the patterns for an escape and a substitution come first, and neither fits
    split
    next none => cases none
    next y behind same =>
      obtain ⟨rfl, rfl⟩ := List.cons.inj same
      cases noEscape rfl
    next behind same =>
      obtain ⟨rfl, rfl⟩ := List.cons.inj same
      exact absurd rfl (noOpen rfl)
    next y behind _ _ same =>
      obtain ⟨rfl, rfl⟩ := List.cons.inj same
      rw [if_neg notTick]
      rfl

/-- A step takes at least one character. -/
theorem step_length_lt (moved : c.step frames = .moved later next) :
    next.rest.length < c.rest.length := by
  obtain ⟨text, change, split, -, moves, -⟩ := moves_of_step moved
  have := List.length_pos_iff.mpr moves.ne_nil
  rw [split, List.length_append]
  omega

/-! Steps that go no further -/

theorem lexeme?_eq_none_iff {c : Cursor} : c.lexeme? = none ↔ c.rest = [] := by
  constructor
  · intro unread
    simp only [lexeme?] at unread
    split at unread
    next text => exact text
    · simp at unread
    · split at unread <;> simp at unread
    · repeat' split at unread
      all_goals simp at unread
  · intro text
    simp [lexeme?, text]

theorem eq_nil_of_ended (ended : c.step frames = .ended) : frames = [] ∧ c.rest = [] := by
  cases frames with
  | nil =>
    refine ⟨rfl, lexeme?_eq_none_iff.mp ?_⟩
    simp only [step, stepCode] at ended
    split at ended <;> first | assumption | cases ended
  | cons top below =>
    -- with a frame open the end of the text is a fault
    cases top with
    | template line =>
      simp only [step, stepTemplate] at ended
      split at ended <;> cases ended
    | group bracket line =>
      simp only [step, stepCode, stepEnd, stepCloser] at ended
      split at ended <;> try cases ended
      split at ended <;> cases ended

theorem fails_of_step (failed : c.step frames = .failed imbalance) : Fails frames c imbalance := by
  -- inside a template only the end of the text fails; elsewhere also a lexeme that nothing matches
  by_cases template : frames.head?.map Frame.enclosure = some .template
  · obtain ⟨line, below, rfl⟩ := cons_template template
    simp only [step, stepTemplate] at failed
    split at failed <;> cases failed
    exact .openTemplate
  · rw [step_eq_stepCode template] at failed
    simp only [stepCode] at failed
    split at failed
    next unread =>
      have ended := lexeme?_eq_none_iff.mp unread
      simp only [stepEnd] at failed
      split at failed <;> cases failed
      exact .neverClosed ended
    · cases failed
      exact .openComment
    · cases failed
    next closer next read =>
      obtain ⟨text, split, -, lexes⟩ := lexeme?_lexes read
      obtain ⟨rfl, -⟩ := lexes.closer_text
      simp only [stepCloser] at failed
      split at failed
      · split at failed <;> cases failed
        next differ => exact .wrongCloser split differ
      next noGroup =>
        cases failed
        cases frames with
        | nil => exact .unmatched split
        | cons top below =>
          cases top with
          | template line => exact absurd rfl template
          | group bracket line => exact (noGroup bracket line below rfl).elim
    · cases failed
    · cases failed

end Cursor

end Concord.Scan
