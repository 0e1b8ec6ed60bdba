import Concord.Scan.Group

/-!
The plain scan: a text as the list of its depth-0 tokens, each with the trivia in front of it. The
scan keeps the tokens it read when it fails, together with what it stopped at, so a reader of the
list can tell a text that ended from one that cannot be read on.
-/
namespace Concord.Scan

open Concord.Text

structure Token where
  lead : List Char
  text : List Char
  line : Nat
  deriving DecidableEq, Repr

namespace Token

def first (t : Token) : Char :=
  t.text.headD ' '

/-- The token is this one character. -/
def is (t : Token) (mark : Char) : Bool :=
  t.text = [mark]

def isWord (t : Token) (word : String) : Bool :=
  t.text = word.toList

theorem isWord_iff {t : Token} {word : String} : t.isWord word = true ↔ t.text = word.toList :=
  decide_eq_true_iff

/-- The word this token is, if it is one. -/
def word? (t : Token) : Option (List Char) :=
  if isWordStart t.first then some t.text else none

/-- The bracket of the group this token is, if it is one. -/
def group? (t : Token) : Option Bracket :=
  Bracket.ofOpener? t.first

/-- The text between the brackets of a group. -/
def interior (t : Token) : List Char :=
  t.text.tail.dropLast

def isQuoted (t : Token) : Bool :=
  t.first = '\x27' || t.first = '\x22'

/-- The token starts on a later line than the one before it ends. -/
def freshLine (t : Token) : Bool :=
  t.lead.contains '\n'

/-- The token is `mark` and nothing stands before it. -/
def isGlued (t : Token) (mark : Char) : Bool :=
  t.lead.isEmpty && t.is mark

/-- The text that the tokens cover, from the first one's own start. -/
def span : List Token → List Char
  | [] => []
  | t :: rest => t.text ++ rest.flatMap fun u => u.lead ++ u.text

/-- The tokens of `all` in front of its remainder `rest`. -/
def before (all rest : List Token) : List Token :=
  all.take (all.length - rest.length)

end Token

/-- How a scan ended: at the end of the text, inside a comment, or in front of a token that cannot
be read. -/
inductive Stop where
  | finished
  | openComment (imbalance : Imbalance)
  | blocked (first : Char) (freshLine : Bool) (imbalance : Imbalance)
  deriving DecidableEq, Repr

def Stop.imbalance? : Stop → Option Imbalance
  | finished => none
  | openComment imbalance => some imbalance
  | blocked _ _ imbalance => some imbalance

/-- What a scan read and the cursor it stopped at. -/
structure Scanned where
  tokens : List Token
  stop : Stop
  cursor : Cursor
  deriving DecidableEq, Repr

/-- Reads tokens until the text ends or one cannot be read. -/
def Cursor.scan (c : Cursor) : Scanned :=
  match _trivia : c.skipTrivia with
  | .error halt => ⟨[], .openComment halt.imbalance, halt.cursor⟩
  | .ok here =>
    if _unread : here.rest = [] then ⟨[], .finished, here⟩
    else
      match _token : here.skipToken with
      | .error halt =>
        ⟨[], .blocked (here.rest.headD ' ') (here.line ≠ c.line) halt.imbalance, halt.cursor⟩
      | .ok next =>
        let later := scan next
        { later with tokens := ⟨c.upTo here, here.upTo next, here.line⟩ :: later.tokens }
  termination_by c.rest.length
  decreasing_by
    exact Nat.lt_of_lt_of_le (skipToken_length_lt _unread _token)
      (skipTrivia_reaches _trivia).length_le

def scan (text : List Char) : Scanned :=
  (Cursor.start text).scan

namespace Cursor

variable {c here : Cursor} {halt : Halt}

theorem scan_of_openComment (trivia : c.skipTrivia = .error halt) :
    c.scan = ⟨[], .openComment halt.imbalance, halt.cursor⟩ := by
  rw [scan]
  split
  next failed =>
    cases trivia.symm.trans failed
    rfl
  next same => cases trivia.symm.trans same

theorem scan_of_atEnd (trivia : c.skipTrivia = .ok here) (ended : here.rest = []) :
    c.scan = ⟨[], .finished, here⟩ := by
  rw [scan]
  split
  next failed => cases trivia.symm.trans failed
  next same =>
    cases trivia.symm.trans same
    rw [dif_pos ended]

theorem scan_of_blocked (trivia : c.skipTrivia = .ok here) (unread : here.rest ≠ [])
    (failed : here.skipToken = .error halt) :
    c.scan =
      ⟨[], .blocked (here.rest.headD ' ') (here.line ≠ c.line) halt.imbalance, halt.cursor⟩ := by
  rw [scan]
  split
  next same => cases trivia.symm.trans same
  next same =>
    cases trivia.symm.trans same
    rw [dif_neg unread]
    split
    next same =>
      cases failed.symm.trans same
      rfl
    next same => cases failed.symm.trans same

theorem scan_of_token {next : Cursor} (trivia : c.skipTrivia = .ok here)
    (unread : here.rest ≠ []) (token : here.skipToken = .ok next) :
    c.scan.stop = next.scan.stop ∧
      c.scan.tokens = ⟨c.upTo here, here.upTo next, here.line⟩ :: next.scan.tokens := by
  rw [scan]
  split
  next failed => cases trivia.symm.trans failed
  next same =>
    cases trivia.symm.trans same
    rw [dif_neg unread]
    split
    next failed => cases token.symm.trans failed
    next same =>
      cases token.symm.trans same
      exact ⟨rfl, rfl⟩

end Cursor

end Concord.Scan
