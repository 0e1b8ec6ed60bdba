import Concord.Scan.Lexeme

/-!
Bracket groups and template literals. Both nest in each other, so one stack of frames follows them:
a group frame waits for its closer, a template frame for its back quote, and a substitution is a
curly group on top of its template. The stack empties exactly when what was opened is closed.
-/
namespace Concord.Scan

open Concord.Text

inductive Frame where
  | group (bracket : Bracket) (line : Nat)
  | template (line : Nat)
  deriving DecidableEq, Repr

/-- Why scanning stopped, and where. -/
structure Halt where
  imbalance : Imbalance
  cursor : Cursor
  deriving DecidableEq, Repr

namespace Cursor

/-- Reads on until every frame is closed. -/
def close : List Frame → Cursor → Except Halt Cursor
  | [], c => .ok c
  | .group bracket line :: frames, c =>
    match _read : c.lexeme? with
    | none => .error ⟨⟨line, .neverClosed bracket⟩, c⟩
    | some (.openComment, next) => .error ⟨⟨c.line, .openComment⟩, next⟩
    | some (.opener inner, next) =>
      close (.group inner c.line :: .group bracket line :: frames) next
    | some (.closer other, next) =>
      if other = bracket then close frames next
      else .error ⟨⟨c.line, .wrongCloser other bracket line⟩, c⟩
    | some (.backquote, next) => close (.template c.line :: .group bracket line :: frames) next
    | some (_, next) => close (.group bracket line :: frames) next
  | .template line :: frames, c =>
    match _text : c.rest with
    | [] => .error ⟨⟨line, .openTemplate⟩, c⟩
    | '\\' :: x :: rest => close (.template line :: frames) (c.advance ['\\', x] rest false)
    | '$' :: '\x7b' :: rest =>
      close (.group .curly c.line :: .template line :: frames) (c.advance ['$', '\x7b'] rest true)
    | x :: rest =>
      if x = '\x60' then close frames (c.advance [x] rest false)
      else close (.template line :: frames) (c.advance [x] rest false)
  termination_by _ c => c.rest.length
  decreasing_by
    all_goals first
      | exact lexeme?_length_lt _read
      | (simp only [advance, _text, List.length_cons]; omega)

/-- Steps over blanks and comments. -/
def skipTrivia (c : Cursor) : Except Halt Cursor :=
  match _read : c.lexeme? with
  | some (.blank, next) => skipTrivia next
  | some (.comment, next) => skipTrivia next
  | some (.openComment, next) => .error ⟨⟨c.line, .openComment⟩, next⟩
  | _ => .ok c
  termination_by c.rest.length
  decreasing_by all_goals exact lexeme?_length_lt _read

/-- Steps over the bracket group at the cursor. -/
def skipGroup (c : Cursor) : Except Halt Cursor :=
  match c.lexeme? with
  | some (.opener bracket, next) => close [.group bracket c.line] next
  | _ =>
    let found := ((byteAt? c.rest 0).map fun byte => Char.ofNat byte.toNat).getD ' '
    .error ⟨⟨c.line, .notAnOpener found⟩, c⟩

/-- Steps over one unit: a literal, a run of trivia, a bracket group, a word or a character. -/
def skipToken (c : Cursor) : Except Halt Cursor :=
  match c.lexeme? with
  | none => .ok c
  | some (.comment, _) => c.skipTrivia
  | some (.openComment, next) => .error ⟨⟨c.line, .openComment⟩, next⟩
  | some (.opener bracket, next) => close [.group bracket c.line] next
  | some (.backquote, next) => close [.template c.line] next
  | some (.closer bracket, _) => .error ⟨⟨c.line, .unmatched bracket⟩, c⟩
  | some (_, next) => .ok next

/-- The word at the cursor and the cursor behind it. -/
def word? (c : Cursor) : Option (List Char × Cursor) :=
  match c.lexeme? with
  | some (.word, next) => some (c.upTo next, next)
  | _ => none

/-- Steps over `mark` if it is next. -/
def eat? (c : Cursor) (mark : Char) : Option Cursor :=
  match c.rest with
  | [] => none
  | x :: rest =>
    if x = mark then
      some (c.advance [x] rest (if isAsciiBlank x then c.regexOk else regexMayFollow x))
    else none

end Cursor

/-- A cursor `later` is reached from `c` by reading some text. -/
def Reaches (c later : Cursor) : Prop :=
  ∃ text, c.rest = text ++ later.rest ∧ later = c.advance text later.rest later.regexOk

namespace Reaches

theorem refl (c : Cursor) : Reaches c c :=
  ⟨[], by simp, by simp [Cursor.advance, byteSize, lineBreaks]⟩

theorem trans {a b c : Cursor} (first : Reaches a b) (second : Reaches b c) : Reaches a c := by
  obtain ⟨front, split, moved⟩ := first
  obtain ⟨back, split', moved'⟩ := second
  refine ⟨front ++ back, by rw [split, split', List.append_assoc], ?_⟩
  rw [moved', moved]
  simp [Cursor.advance, Nat.add_assoc]

theorem advance {c : Cursor} {text rest : List Char} (split : c.rest = text ++ rest)
    (regexOk : Bool) : Reaches c (c.advance text rest regexOk) :=
  ⟨text, split, rfl⟩

theorem lexeme {c next : Cursor} {kind : Lexeme} (read : c.lexeme? = some (kind, next)) :
    Reaches c next := by
  obtain ⟨text, -, split, moved⟩ := Cursor.lexeme?_eq_some read
  exact ⟨text, split, moved⟩

theorem length_le {c later : Cursor} (reached : Reaches c later) :
    later.rest.length ≤ c.rest.length := by
  obtain ⟨text, split, -⟩ := reached
  simp [split]

end Reaches

namespace Cursor

theorem close_reaches {frames : List Frame} {c later : Cursor}
    (closed : close frames c = .ok later) : Reaches c later := by
  fun_induction close frames c with
  | case1 =>
    cases closed
    exact .refl _
  | case2 | case3 | case6 | case9 => cases closed
  | case4 bracket line frames c inner next read ih => exact (Reaches.lexeme read).trans (ih closed)
  | case5 line frames c other next read ih => exact (Reaches.lexeme read).trans (ih closed)
  | case7 bracket line frames c next read ih => exact (Reaches.lexeme read).trans (ih closed)
  | case8 bracket line frames c kind next _ _ _ _ read ih =>
    exact (Reaches.lexeme read).trans (ih closed)
  | case10 line frames c x rest text ih =>
    exact (Reaches.advance (by simp [text]) _).trans (ih closed)
  | case11 line frames c rest text ih =>
    exact (Reaches.advance (by simp [text]) _).trans (ih closed)
  | case12 line frames c rest _ _ text ih =>
    exact (Reaches.advance (by simp [text]) _).trans (ih closed)
  | case13 line frames c x rest _ _ text _ ih =>
    exact (Reaches.advance (by simp [text]) _).trans (ih closed)

theorem skipTrivia_reaches {c later : Cursor} (skipped : c.skipTrivia = .ok later) :
    Reaches c later := by
  fun_induction skipTrivia c with
  | case1 c next read ih | case2 c next read ih =>
    exact (Reaches.lexeme read).trans (ih skipped)
  | case3 => cases skipped
  | case4 =>
    cases skipped
    exact .refl _

theorem skipToken_reaches {c later : Cursor} (skipped : c.skipToken = .ok later) :
    Reaches c later := by
  simp only [skipToken] at skipped
  split at skipped
  · cases skipped
    exact .refl c
  · exact skipTrivia_reaches skipped
  · cases skipped
  next bracket next read => exact (Reaches.lexeme read).trans (close_reaches skipped)
  next next read => exact (Reaches.lexeme read).trans (close_reaches skipped)
  · cases skipped
  next kind next _ _ _ _ _ read =>
    cases skipped
    exact .lexeme read

/-- A token that is read takes at least one character. -/
theorem skipToken_length_lt {c later : Cursor} (unread : c.rest ≠ [])
    (skipped : c.skipToken = .ok later) : later.rest.length < c.rest.length := by
  simp only [skipToken] at skipped
  split at skipped
  next h =>
    simp only [lexeme?] at h
    split at h
    · contradiction
    · simp at h
    · split at h <;> simp at h
    · repeat' split at h
      all_goals simp at h
  next next read =>
    rw [skipTrivia, read] at skipped
    exact Nat.lt_of_le_of_lt (skipTrivia_reaches skipped).length_le (lexeme?_length_lt read)
  · cases skipped
  next read => exact Nat.lt_of_le_of_lt (close_reaches skipped).length_le (lexeme?_length_lt read)
  next read => exact Nat.lt_of_le_of_lt (close_reaches skipped).length_le (lexeme?_length_lt read)
  · cases skipped
  next read =>
    cases skipped
    exact lexeme?_length_lt read

end Cursor

end Concord.Scan
