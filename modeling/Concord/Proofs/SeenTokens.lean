import Concord.Proofs.Items
import Concord.Scan.Reading

/-!
Cursors beside lists of tokens. A reader that moves a cursor has some of the tokens of the scan in
front of it, and a reader that matches tokens has a list of what is left. They are at the same place
if the cursor stands right behind the tokens that the list lacks, or has passed the trivia there. At
such a place every step of the one is a step of the other: a mark, a word or a group is met by both,
and where the list is used up the cursor comes to what stopped the scan.
-/
namespace Concord.Scan

open Concord.Export Concord.Text

/-! One token -/

/-- The next token from `here` on is `t`, and `next` is the place behind it. -/
structure Cursor.IsAt (here : Cursor) (t : Token) (next : Cursor) : Prop where
  split : here.rest = t.text ++ next.rest
  token : IsToken here.regexOk t.text next.rest next.regexOk
  line : t.line = here.line
  moved : next = here.advance t.text next.rest next.regexOk

namespace Cursor.IsAt

variable {here next : Cursor} {t : Token}

theorem skipToken (one : here.IsAt t next) : here.skipToken = .ok next := by
  rw [(one.token.skips one.split).2, ← one.moved]

theorem pastToken (one : here.IsAt t next) : here.pastToken = .ok next := by
  rw [Cursor.pastToken, one.skipToken]
  rfl

theorem upTo (one : here.IsAt t next) : here.upTo next = t.text :=
  upTo_eq one.split

theorem peek? (one : here.IsAt t next) : here.peek? = some t.first := by
  obtain ⟨x, rest, text⟩ := List.exists_cons_of_ne_nil one.token.ne_nil
  rw [Cursor.peek?, one.split, Token.first, text]
  rfl

theorem atEnd (one : here.IsAt t next) : here.atEnd = false :=
  atEnd_of_peek? one.peek?

/-- A token that starts with a separator is the separator. -/
theorem is_iff (one : here.IsAt t next) {mark : Char} (separates : isSeparator mark = true) :
    t.is mark = true ↔ t.first = mark := by
  rw [Token.is, decide_eq_true_eq]
  constructor
  · intro text
    rw [Token.first, text]
    rfl
  · intro first
    obtain ⟨x, rest, text⟩ := List.exists_cons_of_ne_nil one.token.ne_nil
    have token := one.token
    rw [Token.first, text] at first
    obtain rfl : x = mark := first
    rw [text] at token ⊢
    rw [(token.eq_separator separates).1]

theorem eat? (one : here.IsAt t next) {mark : Char} (separates : isSeparator mark = true) :
    here.eat? mark = if t.is mark then some next else none := by
  have first : here.rest.head? = some t.first := one.peek?
  split
  next is =>
    -- the cursor behind a separator is the same whether it is eaten or read as a token
    have text : t.text = [mark] := by simpa [Token.is] using is
    have token := one.token
    rw [text] at token
    have flag := (token.eq_separator separates).2
    have notBlank : isAsciiBlank mark = false := by
      simp only [isSeparator, Bool.and_eq_true, Bool.not_eq_true'] at separates
      exact separates.1.1.1.1.2
    rw [Cursor.eat?, one.split, text]
    simp only [List.cons_append, List.nil_append, if_true, notBlank, Bool.false_eq_true, if_false]
    rw [← flag, ← text, ← one.moved]
  next other =>
    cases eaten : here.eat? mark with
    | none => rfl
    | some after =>
      obtain ⟨rest, flag, text, -⟩ := eat?_cons eaten
      rw [text, List.head?_cons] at first
      exact absurd ((one.is_iff separates).mpr (Option.some.inj first).symm) other

theorem word? (one : here.IsAt t next) : here.word? = t.word?.map fun word => (word, next) := by
  obtain ⟨x, rest, text⟩ := List.exists_cons_of_ne_nil one.token.ne_nil
  rw [one.token.word? one.split, ← one.moved, Token.word?, Token.first, text]
  simp only [List.head?_cons, Option.any_some, List.headD_cons]
  by_cases starts : isWordStart x = true <;> simp [starts]

/-- A token that starts with an opening bracket is a whole group. -/
theorem pastGroup (one : here.IsAt t next) {bracket : Bracket} (group : t.group? = some bracket) :
    here.pastGroup = .ok next := by
  have first : t.first = bracket.opener := Bracket.eq_opener_of_ofOpener? group
  have shown := one.peek?
  rw [first] at shown
  obtain ⟨rest, text⟩ : ∃ rest, here.rest = bracket.opener :: rest :=
    List.head?_eq_some_iff.mp shown
  have read := lexeme?_of_lexes (.openerMark here.regexOk bracket rest) text
  have token := one.skipToken
  rw [Cursor.skipToken, read] at token
  rw [Cursor.pastGroup, skipGroup, read]
  simp only [token]
  rfl

/-- No token starts with a closing bracket. -/
theorem ofCloser? (one : here.IsAt t next) : Bracket.ofCloser? t.first = none := by
  cases closes : Bracket.ofCloser? t.first with
  | none => rfl
  | some bracket =>
    have shown := one.peek?
    rw [Bracket.eq_closer_of_ofCloser? closes] at shown
    obtain ⟨rest, text⟩ : ∃ rest, here.rest = bracket.closer :: rest :=
      List.head?_eq_some_iff.mp shown
    -- a closer at depth 0 is a lexeme that no token can begin with
    have read := lexeme?_of_lexes (.closerMark here.regexOk bracket rest) text
    have token := one.skipToken
    rw [Cursor.skipToken, read] at token
    cases token

end Cursor.IsAt

/-! No token -/

/-- No token can be read at `here`, and this is why. -/
structure Cursor.IsBlocked (here : Cursor) (imbalance : Imbalance) : Prop where
  stays : here.skipTrivia = .ok here
  unread : here.rest ≠ []
  failed : here.pastToken = .error imbalance

/-- What no token may start with: a bracket or back quote that is not closed, or a closer. -/
def isBarrier (x : Char) : Bool :=
  x = '\x60' || (Bracket.ofOpener? x).isSome || (Bracket.ofCloser? x).isSome

theorem isBarrier_of_isSeparator {mark : Char} (separates : isSeparator mark = true) :
    isBarrier mark = false := by
  cases barrier : isBarrier mark with
  | false => rfl
  | true =>
    simp only [isBarrier, Bool.or_eq_true, decide_eq_true_eq, Option.isSome_iff_exists] at barrier
    rcases barrier with (rfl | ⟨bracket, opens⟩) | ⟨bracket, closes⟩
    · cases separates
    · rw [Bracket.eq_opener_of_ofOpener? opens] at separates
      cases bracket <;> cases separates
    · rw [Bracket.eq_closer_of_ofCloser? closes] at separates
      cases bracket <;> cases separates

namespace Cursor.IsBlocked

variable {here : Cursor} {imbalance : Imbalance}

theorem peek? (blocked : here.IsBlocked imbalance) :
    ∃ first, here.peek? = some first ∧ isBarrier first = true := by
  have failed := blocked.failed
  -- by the kind of lexeme at the place: trivia have been skipped, plain tokens do not block, so it
  -- opens or closes something
  cases read : here.lexeme? with
  | none => exact absurd (lexeme?_eq_none_iff.mp read) blocked.unread
  | some found =>
    obtain ⟨kind, next⟩ := found
    obtain ⟨text, split, -, lexes⟩ := lexeme?_lexes read
    have solid := not_trivia read blocked.stays
    rw [Cursor.pastToken, skipToken, read] at failed
    cases kind with
    | blank => exact absurd (Or.inl rfl) solid
    | comment => exact absurd (Or.inr rfl) solid
    | openComment =>
      have stays := blocked.stays
      rw [skipTrivia, read] at stays
      cases stays
    | opener bracket =>
      obtain ⟨rfl, -⟩ := lexes.opener_text
      exact ⟨bracket.opener, by rw [Cursor.peek?, split]; rfl, by simp [isBarrier]⟩
    | closer bracket =>
      obtain ⟨rfl, -⟩ := lexes.closer_text
      exact ⟨bracket.closer, by rw [Cursor.peek?, split]; rfl, by simp [isBarrier]⟩
    | backquote =>
      obtain rfl := lexes.backquote_text
      exact ⟨'\x60', by rw [Cursor.peek?, split]; rfl, by simp [isBarrier]⟩
    | literal | word | mark => cases failed

theorem eat? (blocked : here.IsBlocked imbalance) {mark : Char} (plain : isBarrier mark = false) :
    here.eat? mark = none := by
  obtain ⟨first, shown, barrier⟩ := blocked.peek?
  cases eaten : here.eat? mark with
  | none => rfl
  | some next =>
    obtain ⟨rest, flag, text, -⟩ := eat?_cons eaten
    rw [Cursor.peek?, text, List.head?_cons] at shown
    cases shown
    cases plain.symm.trans barrier

theorem headD (blocked : here.IsBlocked imbalance) : here.peek? = some (here.rest.headD ' ') := by
  obtain ⟨first, shown, -⟩ := blocked.peek?
  rw [List.headD_eq_head?_getD, shown, ← Cursor.peek?, shown]
  rfl

theorem word? (blocked : here.IsBlocked imbalance) : here.word? = none := by
  have failed := blocked.failed
  cases read : here.word? with
  | none => rfl
  | some found =>
    rw [Cursor.pastToken, skipToken_of_word? read] at failed
    cases failed

theorem pastGroup (blocked : here.IsBlocked imbalance) {bracket : Bracket}
    (opens : here.peek? = some bracket.opener) : here.pastGroup = .error imbalance := by
  obtain ⟨rest, text⟩ : ∃ rest, here.rest = bracket.opener :: rest :=
    List.head?_eq_some_iff.mp opens
  have read := lexeme?_of_lexes (.openerMark here.regexOk bracket rest) text
  have failed := blocked.failed
  rw [Cursor.pastToken, skipToken, read] at failed
  rw [Cursor.pastGroup, skipGroup, read]
  exact failed

end Cursor.IsBlocked

/-! What a scan comes to first -/

/-- What a scan from `c` comes to first, when `here` is the place behind the trivia. -/
inductive Cursor.Opens (c here : Cursor) : Prop
  | finished (ended : here.rest = []) (tokens : c.scan.tokens = [])
      (stop : c.scan.stop = .finished) :
      Opens c here
  | blocked {imbalance : Imbalance} (blocked : here.IsBlocked imbalance)
      (tokens : c.scan.tokens = []) (stop : c.scan.stop =
        .blocked (here.rest.headD ' ') (here.line ≠ c.line) imbalance) : Opens c here
  | token {next : Cursor} {t : Token} (one : here.IsAt t next) (lead : c.rest = t.lead ++ here.rest)
      (tokens : c.scan.tokens = t :: next.scan.tokens) (stop : c.scan.stop = next.scan.stop) :
      Opens c here

namespace Cursor

variable {c here next : Cursor}

theorem skipTrivia_of_passed (trivia : c.skipTrivia = .ok here) : here.skipTrivia = .ok here :=
  (reads_of_skipTrivia trivia).1

theorem opens (trivia : c.skipTrivia = .ok here) : c.Opens here := by
  have stays := skipTrivia_of_passed trivia
  -- behind the trivia the text ends, or a token can be read, or none can
  by_cases unread : here.rest = []
  · have scanned := scan_of_atEnd trivia unread
    exact .finished unread (by rw [scanned]) (by rw [scanned])
  · cases token : here.skipToken with
    | error halt =>
      have scanned := scan_of_blocked trivia unread token
      exact .blocked ⟨stays, unread, by rw [pastToken, token]; rfl⟩ (by rw [scanned])
        (by rw [scanned])
    | ok next =>
      obtain ⟨stop, tokens⟩ := scan_of_token trivia unread token
      obtain ⟨text, split, one⟩ := isToken_of_skipToken stays unread token
      obtain ⟨lead, before, -⟩ := skipTrivia_reaches trivia
      rw [upTo_eq split, upTo_eq before] at tokens
      have moved : next = here.advance text next.rest next.regexOk :=
        Except.ok.inj (token.symm.trans (one.skips split).2)
      exact .token ⟨split, one, rfl, moved⟩ before tokens stop

end Cursor

/-! Places in a scan -/

/-- `later` stands right behind the tokens `passed`, as a scan from `c` reads them. -/
structure Cursor.Passes (c : Cursor) (passed : List Token) (later : Cursor) : Prop where
  tokens : c.scan.tokens = passed ++ later.scan.tokens
  stop : c.scan.stop = later.scan.stop
  text : c.rest = Token.source passed ++ later.rest

/-- What is left to a reader at `c` of the scan from `origin`, but for the trivia in front of the
first token. The reader may have passed those. -/
def Cursor.Sees (origin c : Cursor) (ahead : List Token) : Prop :=
  ∃ behind passed, origin.Passes passed behind ∧ (c = behind ∨ behind.skipTrivia = .ok c) ∧
    SameButLead behind.scan.tokens ahead

/-- As `Sees`, when the reader has passed the trivia. -/
def Cursor.Faces (origin here : Cursor) (ahead : List Token) : Prop :=
  origin.Sees here ahead ∧ here.skipTrivia = .ok here

/-- What a reader that has passed the trivia comes to. -/
inductive Cursor.Meets (origin here : Cursor) : List Token → Prop
  | finished (ended : here.rest = []) (stop : origin.scan.stop = .finished) : Meets origin here []
  | blocked {freshLine : Bool} {imbalance : Imbalance} (blocked : here.IsBlocked imbalance)
      (stop : origin.scan.stop = .blocked (here.rest.headD ' ') freshLine imbalance) :
      Meets origin here []
  | token {next : Cursor} {t : Token} (one : here.IsAt t next)
      (later : origin.Sees next next.scan.tokens)
      (behind : ∃ passed, origin.Passes passed next) : Meets origin here (t :: next.scan.tokens)

namespace Cursor

variable {origin c here next : Cursor} {ahead rest : List Token} {t : Token}

theorem Passes.refl (c : Cursor) : c.Passes [] c :=
  ⟨rfl, rfl, rfl⟩

theorem Passes.token {passed : List Token} {behind : Cursor} (passes : origin.Passes passed behind)
    (lead : behind.rest = t.lead ++ here.rest) (one : here.IsAt t next)
    (tokens : behind.scan.tokens = t :: next.scan.tokens)
    (stop : behind.scan.stop = next.scan.stop) : origin.Passes (passed ++ [t]) next := by
  refine ⟨?_, passes.stop.trans stop, ?_⟩
  · rw [passes.tokens, tokens]
    simp
  · rw [passes.text, lead, one.split]
    simp [Token.source]

theorem Passes.sees {passed : List Token} (passes : origin.Passes passed c) :
    origin.Sees c c.scan.tokens :=
  ⟨c, passed, passes, Or.inl rfl, .same _⟩

theorem Sees.start (origin : Cursor) : origin.Sees origin origin.scan.tokens :=
  (Passes.refl origin).sees

theorem Faces.sees (faces : origin.Faces here ahead) : origin.Sees here ahead :=
  faces.1

theorem Faces.pastTrivia (faces : origin.Faces here ahead) : here.pastTrivia = .ok here := by
  rw [Cursor.pastTrivia, faces.2]
  rfl

/-- Only an open comment keeps a reader from passing the trivia. -/
theorem Sees.pastTrivia (sees : origin.Sees c ahead) :
    (∃ here, c.pastTrivia = .ok here ∧ origin.Faces here ahead) ∨
      ∃ imbalance, c.pastTrivia = .error imbalance ∧ ahead = [] ∧
        origin.scan.stop = .openComment imbalance := by
  obtain ⟨behind, passed, passes, reached, same⟩ := sees
  -- the trivia may still be ahead or behind already
  rcases reached with rfl | trivia
  · cases skipped : c.skipTrivia with
    | ok here =>
      exact Or.inl ⟨here, by rw [Cursor.pastTrivia, skipped]; rfl,
        ⟨c, passed, passes, Or.inr skipped, same⟩, skipTrivia_of_passed skipped⟩
    | error halt =>
      have scanned := scan_of_openComment skipped
      rw [scanned] at same
      cases same
      exact Or.inr ⟨halt.imbalance, by rw [Cursor.pastTrivia, skipped]; rfl, rfl,
        by rw [passes.stop, scanned]⟩
  · have stays := skipTrivia_of_passed trivia
    exact Or.inl ⟨c, by rw [Cursor.pastTrivia, stays]; rfl,
      ⟨behind, passed, passes, Or.inr trivia, same⟩, stays⟩

theorem Sees.faces (sees : origin.Sees c ahead) (passed : c.pastTrivia = .ok here) :
    origin.Faces here ahead := by
  rcases sees.pastTrivia with ⟨place, same, faces⟩ | ⟨imbalance, failed, -⟩
  · cases passed.symm.trans same
    exact faces
  · cases passed.symm.trans failed

theorem Sees.openComment {imbalance : Imbalance} (sees : origin.Sees c ahead)
    (failed : c.pastTrivia = .error imbalance) :
    ahead = [] ∧ origin.scan.stop = .openComment imbalance := by
  rcases sees.pastTrivia with ⟨here, passed, -⟩ | ⟨raised, same, none, stop⟩
  · cases failed.symm.trans passed
  · cases failed.symm.trans same
    exact ⟨none, stop⟩

theorem Faces.meets (faces : origin.Faces here ahead) : origin.Meets here ahead := by
  obtain ⟨⟨behind, passed, passes, reached, same⟩, stays⟩ := faces
  have trivia : behind.skipTrivia = .ok here := by
    rcases reached with rfl | trivia
    · exact stays
    · exact trivia
  cases opens trivia with
  | finished ended tokens stop =>
    rw [tokens] at same
    cases same
    exact .finished ended (passes.stop.trans stop)
  | blocked blocked tokens stop =>
    rw [tokens] at same
    cases same
    exact .blocked blocked (passes.stop.trans stop)
  | token one lead tokens stop =>
    have later := passes.token lead one tokens stop
    rw [tokens] at same
    cases same with
    | same => exact .token one later.sees ⟨_, later⟩
    | bare =>
      -- a token is met as the same one, whatever trivia are kept with it
      exact .token ⟨one.split, one.token, one.line, one.moved⟩ later.sees ⟨_, later⟩

/-- The place behind the token that a reader comes to. -/
theorem Faces.behind (faces : origin.Faces here ahead) (one : here.IsAt t next) :
    origin.Sees next next.scan.tokens := by
  cases faces.meets with
  | finished ended => exact absurd ended (by simp [one.split, one.token.ne_nil])
  | blocked blocked => cases blocked.failed.symm.trans one.pastToken
  | token one' later =>
    cases one.skipToken.symm.trans one'.skipToken
    exact later

/-- A scan that starts behind the trivia finds the same tokens, and none in front of the first. -/
theorem Faces.scan_tokens (faces : origin.Faces here ahead) :
    here.scan.tokens = ahead.modifyHead fun t => { t with lead := [] } := by
  cases faces.meets with
  | finished ended => rw [scan_of_atEnd faces.2 ended]; rfl
  | blocked blocked =>
    cases opens faces.2 with
    | finished _ tokens | blocked _ tokens => rw [tokens]; rfl
    | token one => cases blocked.failed.symm.trans one.pastToken
  | @token next t one =>
    obtain ⟨-, tokens⟩ :=
      scan_of_token faces.2 (by simp [one.split, one.token.ne_nil]) one.skipToken
    have bare : here.upTo here = [] := upTo_eq rfl
    rw [tokens, bare, one.upTo, List.modifyHead_cons, one.line]

theorem Faces.sees_scan (faces : origin.Faces here ahead) : origin.Sees here here.scan.tokens := by
  obtain ⟨⟨behind, passed, passes, reached, -⟩, stays⟩ := faces
  have exact : origin.Faces here behind.scan.tokens :=
    ⟨⟨behind, passed, passes, reached, .same _⟩, stays⟩
  refine ⟨behind, passed, passes, reached, ?_⟩
  rw [exact.scan_tokens]
  cases behind.scan.tokens with
  | nil => exact .same []
  | cons t rest => exact .bare t rest

/-- How it stops differs only where no token is left, in whether the line is fresh. -/
theorem Faces.scan_stop (faces : origin.Faces here ahead) :
    here.scan.stop = origin.scan.stop ∨ ahead = [] ∧ ∃ first freshLine freshLine' imbalance,
      here.scan.stop = .blocked first freshLine imbalance ∧
        origin.scan.stop = .blocked first freshLine' imbalance := by
  cases faces.meets with
  | finished ended stop => exact Or.inl (by rw [scan_of_atEnd faces.2 ended, stop])
  | blocked blocked stop =>
    cases opens faces.2 with
    | finished ended => exact absurd ended blocked.unread
    | blocked blocked' _ stop' =>
      cases blocked.failed.symm.trans blocked'.failed
      -- the later scan begins on the line of the place, so its line is not fresh
      exact Or.inr ⟨rfl, _, _, _, _, stop', stop⟩
    | token one => cases blocked.failed.symm.trans one.pastToken
  | token one _ behind =>
    obtain ⟨passed, passes⟩ := behind
    obtain ⟨stop, -⟩ := scan_of_token faces.2 (by simp [one.split, one.token.ne_nil]) one.skipToken
    exact Or.inl (stop.trans passes.stop.symm)

end Cursor

end Concord.Scan
