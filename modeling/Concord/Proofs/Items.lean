import Concord.Proofs.ClearedTokens

/-!
A text at depth 0 as the list of its items. An item is a gap, which is one blank or one comment, or
a token, which is one lexeme or a whole group or template. `Reads` says which items a text in front
of a rest is made of, with no cursor and no lines in it. A text that can be scanned is made of
items, and its tokens are read off them. What follows the items may be exchanged as long as it keeps
away from the last one.
-/
namespace Concord.Scan

open Concord.Text

/-! What follows a lexeme may be exchanged -/

/-- Behind `text`, `rest'` may stand for `rest`. It ends the line or the text if `rest` does, it
continues no word, opens no comment and no substitution unless `rest` does, and it leaves nothing to
escape. -/
structure Exchanges (text rest rest' : List Char) : Prop where
  line : (∀ x ∈ rest.head?, x = '\n') → ∀ x ∈ rest'.head?, x = '\n'
  word : (∀ x ∈ rest.head?, isWordPart x = false) → ∀ x ∈ rest'.head?, isWordPart x = false
  comment : opensComment rest' → opensComment rest
  brace : rest'.head? = some '\x7b' → rest.head? = some '\x7b'
  escape : rest = [] → rest' = [] ∨ text.getLast? ≠ some '\\'

namespace Exchanges

variable {front text rest rest' tail : List Char}

/-- In front of more text only what that text starts with counts. -/
theorem inner (exchanges : Exchanges (front ++ text) rest rest') :
    Exchanges front (text ++ rest) (text ++ rest') := by
  cases text with
  | nil => simpa using exchanges
  | cons x text => exact ⟨id, id, id, id, fun none => by cases none⟩

/-- Only the last character of the text counts. -/
theorem behind (exchanges : Exchanges (front ++ text) rest rest') : Exchanges text rest rest' := by
  refine ⟨exchanges.line, exchanges.word, exchanges.comment, exchanges.brace, fun none => ?_⟩
  rcases exchanges.escape none with ended | plain
  · exact Or.inl ended
  · cases text with
    | nil => exact Or.inr (by simp)
    | cons x text => exact Or.inr (by rwa [List.getLast?_append_of_ne_nil _ (by simp)] at plain)

/-- A line break may follow a text that nothing followed, if it escapes nothing. -/
theorem newline (plain : text.getLast? ≠ some '\\') : Exchanges text [] ('\n' :: tail) where
  line := by simp
  word := by simp [show isWordPart '\n' = false by decide]
  comment := by simp [opensComment]
  brace := by simp
  escape := fun _ => Or.inr plain

end Exchanges

theorem quoted_exchange {quote : Char} {text rest rest' : List Char} (notBack : quote ≠ '\\')
    (closed : quoted quote (text ++ rest) = (text, rest)) (exchanges : Exchanges text rest rest') :
    quoted quote (text ++ rest') = (text, rest') := by
  -- where the literal stops in front of `rest`, the line or the text ends there
  have stops {rest : List Char} (ends : ∀ x ∈ rest.head?, x = '\n') :
      quoted quote ([] ++ rest) = ([], rest) := by
    cases rest with
    | nil => rfl
    | cons x rest =>
      obtain rfl : x = '\n' := ends x rfl
      rw [List.nil_append, quoted_cons (fun back => absurd back (by decide)), if_pos rfl]
  generalize whole : text ++ rest = all at closed
  fun_induction quoted quote all generalizing text with
  | case1 =>
    obtain ⟨rfl, rfl⟩ := List.append_eq_nil_iff.mp whole
    exact stops (exchanges.line (by simp))
  | case2 x after front back read ih =>
    obtain ⟨rfl, rfl⟩ := Prod.mk.inj closed
    simp only [List.cons_append, List.cons.injEq, true_and] at whole
    have more : Exchanges ([_, x] ++ front) back rest' := exchanges
    simp [quoted, ih more.behind whole read]
  | case3 after escapes =>
    obtain ⟨rfl, rfl⟩ := Prod.mk.inj closed
    exact stops (exchanges.line (by simp))
  | case4 after escapes newline =>
    obtain ⟨rfl, rfl⟩ := Prod.mk.inj closed
    rw [List.cons_append, List.nil_append, quoted_cons (fun back => absurd back notBack),
      if_neg newline, if_pos rfl]
  | case5 x after escapes newline other front back read ih =>
    obtain ⟨rfl, rfl⟩ := Prod.mk.inj closed
    simp only [List.cons_append, List.cons.injEq, true_and] at whole
    have more : Exchanges ([x] ++ front) back rest' := exchanges
    rw [List.cons_append, quoted_cons, if_neg newline, if_neg other, ih more.behind whole read]
    -- a backslash that escapes nothing ends the text, and nothing may follow it
    rintro rfl
    rw [eq_nil_of_no_escape escapes rfl, List.append_eq_nil_iff] at whole
    obtain ⟨rfl, rfl⟩ := whole
    rcases exchanges.escape rfl with rfl | plain
    · rfl
    · exact absurd rfl plain

theorem regexBody_exchange {inClass : Bool} {text rest rest' : List Char}
    (closed : regexBody inClass (text ++ rest) = (text, rest))
    (exchanges : Exchanges text rest rest') :
    regexBody inClass (text ++ rest') = (text, rest') := by
  -- the body may end in front of a line break, or at the end of the text
  have stops {inClass : Bool} {rest : List Char} (ends : ∀ x ∈ rest.head?, x = '\n') :
      regexBody inClass ([] ++ rest) = ([], rest) := by
    cases rest with
    | nil => rfl
    | cons x rest =>
      obtain rfl : x = '\n' := ends x rfl
      rw [List.nil_append, regexBody_cons (fun back => absurd back (by decide)), if_pos rfl]
  generalize whole : text ++ rest = all at closed
  -- by the recursion of the reader, with what is left of the text; what follows is looked at only
  -- at the end of the body
  fun_induction regexBody inClass all generalizing text with
  | case1 =>
    obtain ⟨rfl, rfl⟩ := List.append_eq_nil_iff.mp whole
    exact stops (exchanges.line (by simp))
  | case2 inClass x after front back read ih =>
    obtain ⟨rfl, rfl⟩ := Prod.mk.inj closed
    simp only [List.cons_append, List.cons.injEq, true_and] at whole
    have more : Exchanges ([_, x] ++ front) back rest' := exchanges
    simp [regexBody, ih more.behind whole read]
  | case3 inClass after escapes =>
    obtain ⟨rfl, rfl⟩ := Prod.mk.inj closed
    exact stops (exchanges.line (by simp))
  | case4 inClass x after escapes newline slash =>
    obtain ⟨rfl, rfl⟩ := Prod.mk.inj closed
    have ends : ∀ y ∈ rest'.head?, isWordPart y = false :=
      exchanges.word (head?_dropWhile_forall isWordPart after)
    obtain ⟨front, back⟩ := takeWhile_append_of
      (fun y (member : y ∈ after.takeWhile isWordPart) => List.mem_takeWhile_imp member) ends
    have notBack : x ≠ '\\' := by
      simp only [Bool.and_eq_true, decide_eq_true_eq] at slash
      rw [slash.1]
      decide
    rw [List.cons_append, regexBody_cons (fun back => absurd back notBack), if_neg newline,
      if_pos slash, front, back]
  -- a plain character; only an escape at the very end would look at what follows
  | case5 inClass x after escapes newline slash inClass' front back read =>
    rename_i ih
    obtain ⟨rfl, rfl⟩ := Prod.mk.inj closed
    simp only [List.cons_append, List.cons.injEq, true_and] at whole
    have more : Exchanges ([x] ++ front) back rest' := exchanges
    rw [List.cons_append, regexBody_cons, if_neg newline, if_neg slash]
    · simp only
      rw [ih more.behind whole read]
    · rintro rfl
      rw [eq_nil_of_no_escape escapes rfl, List.append_eq_nil_iff] at whole
      obtain ⟨rfl, rfl⟩ := whole
      rcases exchanges.escape rfl with rfl | plain
      · rfl
      · exact absurd rfl plain

/-- A comment that is closed does not see what follows it. -/
theorem blockComment_exchange {text rest : List Char}
    (closed : blockComment (text ++ rest) = some (text, rest)) (rest' : List Char) :
    blockComment (text ++ rest') = some (text, rest') := by
  generalize whole : text ++ rest = all at closed
  fun_induction blockComment all generalizing text with
  | case1 => simp at closed
  | case2 after =>
    simp only [Option.some.injEq, Prod.mk.injEq] at closed
    obtain ⟨rfl, rfl⟩ := closed
    simp [blockComment]
  | case3 x after inside ih =>
    simp only [Option.map_eq_some_iff, Prod.mk.injEq, Prod.exists] at closed
    obtain ⟨front, back, found, rfl, rfl⟩ := closed
    simp only [List.cons_append, List.cons.injEq, true_and] at whole
    rw [List.cons_append, blockComment_cons, ih whole found]
    · rfl
    · rintro ⟨rfl, slash⟩
      -- the comment goes on, so its first character decides
      cases front with
      | nil =>
        rw [← whole] at found
        cases blockComment_last found
      | cons y front =>
        obtain rfl : y = '/' := by simpa using slash
        exact inside _ rfl whole.symm

theorem Lexes.exchange {flag after : Bool} {kind : Lexeme} {text rest rest' : List Char}
    (lexes : Lexes flag kind text rest after) (closed : kind ≠ .openComment)
    (exchanges : Exchanges text rest rest') : Lexes flag kind text rest' after := by
  -- each kind of lexeme looks at what follows in its own way, and `Exchanges` has one condition for
  -- each
  cases lexes with
  | blank blank => exact .blank blank
  | lineComment inside ends => exact .lineComment inside (exchanges.line ends)
  | blockComment closed => exact .blockComment (blockComment_exchange closed rest')
  | openComment => exact absurd rfl closed
  | @quoted _ quote text _ quotes closed =>
    have notBack : quote ≠ '\\' := by rcases quotes with rfl | rfl <;> decide
    have more : Exchanges ([quote] ++ text) rest rest' := exchanges
    exact .quoted quotes (quoted_exchange notBack closed more.behind)
  | @regex text _ code closed =>
    have more : Exchanges (['/'] ++ text) rest rest' := exchanges
    exact .regex (fun opens => code (more.inner.comment opens))
      (regexBody_exchange closed more.behind)
  | word starts inside ends => exact .word starts inside (exchanges.word ends)
  | mark notBlank notQuote notWord divides =>
    refine .mark notBlank notQuote notWord fun slash => ⟨(divides slash).1, fun opens => ?_⟩
    exact (divides slash).2 (exchanges.comment opens)

theorem Moves.exchange {top : Option Enclosure} {flag after : Bool} {text rest rest' : List Char}
    {change : Change} (moves : Moves top flag text rest change after)
    (exchanges : Exchanges text rest rest') : Moves top flag text rest' change after := by
  cases moves with
  | quiet code lexes quiet =>
    exact .quiet code (lexes.exchange (by rintro rfl; cases quiet) exchanges) quiet
  | opener code lexes => exact .opener code (lexes.exchange (by simp) exchanges)
  | closer lexes => exact .closer (lexes.exchange (by simp) exchanges)
  | backquote code lexes => exact .backquote code (lexes.exchange (by simp) exchanges)
  | escape x => exact .escape x
  | substitution => exact .substitution
  | templateEnd => exact .templateEnd
  | templateText notTick noEscape noOpen =>
    refine .templateText notTick ?_ fun dollar opens => noOpen dollar (exchanges.brace opens)
    rintro rfl
    exact (exchanges.escape (noEscape rfl)).resolve_right fun plain => plain rfl

/-! Tokens -/

/-- Read in front of `rest`, the text leaves everything that is open, and stops there with the flag
`last`. -/
inductive Shuts : List Enclosure → Bool → List Char → List Char → Bool → Prop
  | done {flag : Bool} {rest : List Char} : Shuts [] flag [] rest flag
  | step {top : Enclosure} {below : List Enclosure} {flag after last : Bool}
      {front text rest : List Char} {change : Change}
      (moves : Moves (some top) flag front (text ++ rest) change after)
      (later : Shuts (change.on (top :: below)) after text rest last) :
      Shuts (top :: below) flag (front ++ text) rest last

theorem Shuts.exchange {around : List Enclosure} {flag last : Bool} {text rest rest' : List Char}
    (shuts : Shuts around flag text rest last) (exchanges : Exchanges text rest rest') :
    Shuts around flag text rest' last := by
  induction shuts with
  | done => exact .done
  | step moves _ ih => exact .step (moves.exchange exchanges.inner) (ih exchanges.behind)

/-- What shuts a list of frames is what closing them reads. -/
theorem Shuts.close {frames : List Frame} {c : Cursor} {text rest : List Char} {last : Bool}
    (shuts : Shuts (frames.map Frame.enclosure) c.regexOk text rest last)
    (split : c.rest = text ++ rest) : Cursor.close frames c = .ok (c.advance text rest last) := by
  generalize enclosed : frames.map Frame.enclosure = around at shuts
  generalize flagged : c.regexOk = flag at shuts
  -- by induction over the moves, with the frames that are open as the list that shrinks and grows
  induction shuts generalizing frames c with
  | done =>
    obtain rfl := List.map_eq_nil_iff.mp enclosed
    subst flagged
    rw [Cursor.close, Cursor.advance_nil (by simpa using split)]
  | @step top below flag after last front text rest change moves _ ih =>
    cases frames with
    | nil => cases enclosed
    | cons frame frames =>
      subst flagged
      have inside : (frame :: frames).head?.map Frame.enclosure = some top := by
        rw [← List.head?_map, enclosed]
        rfl
      -- what a move does depends on the innermost frame, and the frames agree on that
      rw [← inside] at moves
      rw [List.append_assoc] at split
      rw [Cursor.close_of_moved (Cursor.step_of_moves moves split), ih rfl, Cursor.advance_append]
      · rw [Change.map_frames, enclosed]
      · rfl

theorem Cursor.close_shuts {frames : List Frame} {c next : Cursor}
    (closed : close frames c = .ok next) :
    ∃ text, c.rest = text ++ next.rest ∧
      Shuts (frames.map Frame.enclosure) c.regexOk text next.rest next.regexOk := by
  cases frames with
  | nil =>
    rw [close] at closed
    cases closed
    exact ⟨[], rfl, .done⟩
  | cons top below =>
    -- the first step of the closing is a move, and what remains is shorter
    rcases close_cons top below c with ⟨later, middle, moved, same⟩ | ⟨halt, -, failed⟩
    · have := step_length_lt moved
      obtain ⟨text, split, shuts⟩ := close_shuts (same.symm.trans closed)
      obtain ⟨front, change, begin, -, moves, rfl⟩ := moves_of_step moved
      refine ⟨front ++ text, by rw [begin, split, List.append_assoc], .step (split ▸ moves) ?_⟩
      rw [Change.map_frames] at shuts
      exact shuts
    · rw [failed] at closed
      cases closed
  termination_by c.rest.length

/-- `IsToken flag text rest last`: in front of `rest`, `text` is one token, and `last` is the flag
behind it. It is a unit that is no trivia, with what it opens up to where that is closed. -/
inductive IsToken (flag : Bool) : List Char → List Char → Bool → Prop
  | lexeme {last : Bool} {kind : Lexeme} {text rest : List Char}
      (lexes : Lexes flag kind text rest last) (quiet : kind.quiet = true)
      (solid : ¬ (kind = .blank ∨ kind = .comment)) : IsToken flag text rest last
  | group {last : Bool} (bracket : Bracket) {text rest : List Char}
      (shuts : Shuts [.group bracket] true text rest last) :
      IsToken flag (bracket.opener :: text) rest last
  | template {last : Bool} {text rest : List Char}
      (shuts : Shuts [.template] false text rest last) : IsToken flag ('\x60' :: text) rest last

theorem Lexes.tick (flag : Bool) (rest : List Char) :
    Lexes flag .backquote ['\x60'] rest false := by
  have mark : Lexes flag (punctuation '\x60') ['\x60'] rest (regexMayFollow '\x60') :=
    .mark (by decide) (by decide) (by decide) fun slash => absurd slash (by decide)
  exact mark

/-- A separator is a lexeme of its own wherever it stands. -/
theorem Lexes.separator {x : Char} (separates : isSeparator x = true) (flag : Bool)
    (rest : List Char) : Lexes flag .mark [x] rest (regexMayFollow x) := by
  simp only [isSeparator, Bool.and_eq_true, decide_eq_true_eq, Bool.not_eq_true'] at separates
  obtain ⟨⟨⟨⟨⟨mark, notBlank⟩, notWord⟩, notApostrophe⟩, notQuote⟩, notSlash⟩ := separates
  rw [← mark]
  exact .mark notBlank ⟨notApostrophe, notQuote⟩ notWord fun slash => absurd slash notSlash

namespace IsToken

variable {flag last : Bool} {text rest rest' : List Char}

theorem separator {x : Char} (separates : isSeparator x = true) (flag : Bool) (rest : List Char) :
    IsToken flag [x] rest (regexMayFollow x) :=
  .lexeme (.separator separates flag rest) rfl (by simp)

/-- A token that starts with a separator is the separator. -/
theorem eq_separator {x : Char} (token : IsToken flag (x :: text) rest last)
    (separates : isSeparator x = true) : text = [] ∧ last = regexMayFollow x := by
  generalize whole : x :: text = shown at token
  cases token with
  | lexeme lexes =>
    subst whole
    obtain ⟨-, single, flag⟩ := lexes.unique (.separator separates _ (text ++ rest)) rfl
    exact ⟨(List.cons.inj single).2, flag⟩
  | group bracket =>
    obtain ⟨rfl, -⟩ := List.cons.inj whole
    cases bracket <;> cases separates
  | template =>
    obtain ⟨rfl, -⟩ := List.cons.inj whole
    cases separates

theorem ne_nil (token : IsToken flag text rest last) : text ≠ [] := by
  cases token with
  | lexeme lexes => exact lexes.ne_nil
  | group | template => simp

theorem exchange (token : IsToken flag text rest last) (exchanges : Exchanges text rest rest') :
    IsToken flag text rest' last := by
  cases token with
  | lexeme lexes quiet solid =>
    exact .lexeme (lexes.exchange (by rintro rfl; cases quiet) exchanges) quiet solid
  | @group _ bracket text _ shuts =>
    have more : Exchanges ([bracket.opener] ++ text) rest rest' := exchanges
    exact .group bracket (shuts.exchange more.behind)
  | @template _ text _ shuts =>
    have more : Exchanges (['\x60'] ++ text) rest rest' := exchanges
    exact .template (shuts.exchange more.behind)

/-- No trivia stand at a token, and it is stepped over as a whole. -/
theorem skips {c : Cursor} (token : IsToken c.regexOk text rest last)
    (split : c.rest = text ++ rest) :
    c.skipTrivia = .ok c ∧ c.skipToken = .ok (c.advance text rest last) := by
  generalize flagged : c.regexOk = flag at token
  -- a group or a template begins with its opening mark, and from there on closing reads the rest
  cases token with
  | @lexeme _ kind _ _ lexes quiet solid =>
    subst flagged
    have read := Cursor.lexeme?_of_lexes lexes split
    rw [not_or] at solid
    exact ⟨Cursor.skipTrivia_of_token read solid.1 solid.2 (by rintro rfl; cases quiet),
      Cursor.skipToken_of_quiet read quiet solid.2⟩
  | @group _ bracket text _ shuts =>
    have read := Cursor.lexeme?_of_lexes (.openerMark c.regexOk bracket (text ++ rest)) split
    refine ⟨Cursor.skipTrivia_of_token read (by simp) (by simp) (by simp), ?_⟩
    rw [Cursor.skipToken, read]
    have closed := @Shuts.close [.group bracket c.line]
      (c.advance [bracket.opener] (text ++ rest) true) text rest last shuts rfl
    rwa [Cursor.advance_append] at closed
  | @template _ text _ shuts =>
    have read := Cursor.lexeme?_of_lexes (.tick c.regexOk (text ++ rest)) split
    refine ⟨Cursor.skipTrivia_of_token read (by simp) (by simp) (by simp), ?_⟩
    rw [Cursor.skipToken, read]
    have closed := @Shuts.close [.template c.line] (c.advance ['\x60'] (text ++ rest) false)
      text rest last shuts rfl
    rwa [Cursor.advance_append] at closed

end IsToken

/-- What starts a word is a word. -/
theorem Lexes.eq_word {flag after : Bool} {kind : Lexeme} {x : Char} {text rest : List Char}
    (lexes : Lexes flag kind (x :: text) rest after) (starts : isWordStart x = true) :
    kind = .word := by
  obtain ⟨notBlank, notApostrophe, notQuote, notSlash⟩ := isWordStart_not_special starts
  -- every other kind of lexeme begins with a character that starts no word
  generalize whole : x :: text = all at lexes
  cases lexes with
  | word => rfl
  | blank blank =>
    obtain ⟨rfl, -⟩ := List.cons.inj whole
    rw [blank] at notBlank
    cases notBlank
  | lineComment | blockComment | openComment | regex =>
    exact absurd (List.cons.inj whole).1 notSlash
  | quoted quotes =>
    obtain ⟨rfl, -⟩ := List.cons.inj whole
    exact (quotes.elim notApostrophe notQuote).elim
  | mark _ _ notWord =>
    obtain ⟨rfl, -⟩ := List.cons.inj whole
    rw [starts] at notWord
    cases notWord

theorem Lexes.word_starts {flag after : Bool} {x : Char} {text rest : List Char}
    (lexes : Lexes flag .word (x :: text) rest after) : isWordStart x = true := by
  generalize whole : x :: text = all at lexes
  generalize kind : Lexeme.word = found at lexes
  cases lexes with
  | word starts =>
    obtain ⟨rfl, -⟩ := List.cons.inj whole
    exact starts
  | @mark _ y => exact absurd kind.symm (punctuation_ne rfl (by simp) y)
  | blank | lineComment | blockComment | openComment | quoted | regex => cases kind

/-- At a token, the word that is read is the whole token, if it starts as a word does. -/
theorem IsToken.word? {c : Cursor} {text rest : List Char} {last : Bool}
    (token : IsToken c.regexOk text rest last) (split : c.rest = text ++ rest) :
    c.word? =
      if text.head?.any isWordStart then some (text, c.advance text rest last) else none := by
  generalize flagged : c.regexOk = flag at token
  -- only a plain lexeme can be a word; a group and a template begin with their marks
  cases token with
  | @lexeme _ kind _ _ lexes quiet solid =>
    subst flagged
    have read := Cursor.lexeme?_of_lexes lexes split
    obtain ⟨x, tail, rfl⟩ := List.exists_cons_of_ne_nil lexes.ne_nil
    rw [List.head?_cons, Option.any_some]
    split
    next starts =>
      rw [lexes.eq_word starts] at read
      rw [Cursor.word?, read]
      simp only [@Cursor.upTo_eq c (c.advance (x :: tail) rest last) _ split]
    next other =>
      have noWord : kind ≠ .word := by
        rintro rfl
        exact other lexes.word_starts
      rw [Cursor.word?, read]
      cases kind <;> first | rfl | exact absurd rfl noWord
  | @group _ bracket text _ shuts =>
    have read := Cursor.lexeme?_of_lexes (.openerMark c.regexOk bracket (text ++ rest)) split
    rw [Cursor.word?, read]
    cases bracket <;> rfl
  | @template _ text _ shuts =>
    have read := Cursor.lexeme?_of_lexes (.tick c.regexOk (text ++ rest)) split
    rw [Cursor.word?, read]
    rfl

theorem Cursor.isToken_of_skipToken {c next : Cursor} (stays : c.skipTrivia = .ok c)
    (unread : c.rest ≠ []) (skipped : c.skipToken = .ok next) :
    ∃ text, c.rest = text ++ next.rest ∧ IsToken c.regexOk text next.rest next.regexOk := by
  -- by what the lexeme at the place makes of the token: one that fails, a group, a template, or
  -- itself
  simp only [skipToken] at skipped
  split at skipped
  next none => exact absurd (lexeme?_eq_none_iff.mp none) unread
  next read => exact absurd (Or.inr rfl) (not_trivia read stays)
  · cases skipped
  next bracket middle read =>
    obtain ⟨front, split, -, lexes⟩ := lexeme?_lexes read
    obtain ⟨text, behind, shuts⟩ := close_shuts skipped
    obtain ⟨rfl, flag⟩ := lexes.opener_text
    rw [flag] at shuts
    exact ⟨bracket.opener :: text, by rw [split, behind]; rfl, .group bracket shuts⟩
  next middle read =>
    obtain ⟨front, split, -, lexes⟩ := lexeme?_lexes read
    obtain ⟨text, behind, shuts⟩ := close_shuts skipped
    obtain rfl := lexes.backquote_text
    have flag := (lexes.unique (.tick c.regexOk middle.rest) rfl).2.2
    rw [flag] at shuts
    exact ⟨'\x60' :: text, by rw [split, behind]; rfl, .template shuts⟩
  · cases skipped
  next kind middle noComment openComment opener backquote closer read =>
    cases skipped
    obtain ⟨text, split, -, lexes⟩ := lexeme?_lexes read
    refine ⟨text, split, .lexeme lexes ?_ (not_trivia read stays)⟩
    cases kind <;> simp_all [Lexeme.quiet]

/-! Items -/

/-- A piece of a text at depth 0. -/
inductive Item where
  | gap (text : List Char)
  | token (text : List Char)
  deriving DecidableEq, Repr

namespace Item

def text : Item → List Char
  | gap text => text
  | token text => text

/-- The text that is made of the items. -/
def source (items : List Item) : List Char :=
  items.flatMap text

/-- The tokens among the items, of which the first starts on `line` and has `lead` in front. -/
def tokens (lead : List Char) (line : Nat) : List Item → List Token
  | [] => []
  | gap text :: items => tokens (lead ++ text) (line + lineBreaks text) items
  | token text :: items => ⟨lead, text, line⟩ :: tokens [] (line + lineBreaks text) items

/-- What stands behind the last token. -/
def trail (lead : List Char) : List Item → List Char
  | [] => lead
  | gap text :: items => trail (lead ++ text) items
  | token _ :: items => trail [] items

@[simp] theorem source_nil : source [] = [] := rfl

@[simp] theorem source_cons (item : Item) (items : List Item) :
    source (item :: items) = item.text ++ source items := rfl

@[simp] theorem source_append (items more : List Item) :
    source (items ++ more) = source items ++ source more :=
  List.flatMap_append

theorem tokens_append (lead : List Char) (line : Nat) (items more : List Item) :
    tokens lead line (items ++ more) =
      tokens lead line items ++
        tokens (trail lead items) (line + lineBreaks (source items)) more := by
  induction items generalizing lead line with
  | nil => rfl
  | cons item items ih => cases item <;> simp [tokens, trail, ih, text, Nat.add_assoc]

end Item

/-- `Reads flag items rest last`: in front of `rest` the items are read one by one, and `last` is
the flag behind them. -/
inductive Reads : Bool → List Item → List Char → Bool → Prop
  | done {flag : Bool} {rest : List Char} : Reads flag [] rest flag
  | gap {flag last : Bool} {kind : Lexeme} {text rest : List Char} {items : List Item}
      (lexes : Lexes flag kind text (Item.source items ++ rest) flag)
      (trivia : kind = .blank ∨ kind = .comment) (more : Reads flag items rest last) :
      Reads flag (.gap text :: items) rest last
  | token {flag after last : Bool} {text rest : List Char} {items : List Item}
      (one : IsToken flag text (Item.source items ++ rest) after)
      (more : Reads after items rest last) : Reads flag (.token text :: items) rest last

namespace Reads

variable {flag middle last : Bool} {items more : List Item} {rest rest' : List Char}

theorem trans (first : Reads flag items (Item.source more ++ rest) middle)
    (second : Reads middle more rest last) : Reads flag (items ++ more) rest last := by
  generalize whole : Item.source more ++ rest = all at first
  induction first with
  | done => exact second
  | gap lexes trivia _ ih =>
    subst whole
    rw [← List.append_assoc, ← Item.source_append] at lexes
    exact .gap lexes trivia (ih second rfl)
  | token one _ ih =>
    subst whole
    rw [← List.append_assoc, ← Item.source_append] at one
    exact .token one (ih second rfl)

/-- Items are read up to any place among them. -/
theorem split (reads : Reads flag (items ++ more) rest last) :
    ∃ middle, Reads flag items (Item.source more ++ rest) middle ∧ Reads middle more rest last := by
  induction items generalizing flag with
  | nil => exact ⟨flag, .done, reads⟩
  | cons item items ih =>
    cases reads with
    | gap lexes trivia behind =>
      obtain ⟨middle, front, back⟩ := ih behind
      exact ⟨middle, .gap (by simpa using lexes) trivia front, back⟩
    | token one behind =>
      obtain ⟨middle, front, back⟩ := ih behind
      exact ⟨middle, .token (by simpa using one) front, back⟩

/-- What follows the items may be exchanged. -/
theorem exchange (reads : Reads flag items rest last)
    (exchanges : Exchanges (Item.source items) rest rest') : Reads flag items rest' last := by
  induction reads with
  | done => exact .done
  | @gap _ _ kind _ _ _ lexes trivia _ ih =>
    have closed : kind ≠ .openComment := by rcases trivia with rfl | rfl <;> simp
    exact .gap (lexes.exchange closed exchanges.inner) trivia (ih exchanges.behind)
  | token one _ ih => exact .token (one.exchange exchanges.inner) (ih exchanges.behind)

/-- The scan finds the tokens among the items. The cursor `c` stands `lead` before the items, and
what is between are trivia. -/
theorem scan_eq {c here : Cursor} {lead : List Char} (reads : Reads here.regexOk items [] last)
    (whole : here.rest = Item.source items) (split : c.rest = lead ++ here.rest)
    (trivia : c.skipTrivia = here.skipTrivia) :
    c.scan.stop = .finished ∧ c.scan.tokens = Item.tokens lead here.line items := by
  generalize flagged : here.regexOk = flag at reads
  generalize ended : ([] : List Char) = rest at reads
  -- by induction over the items: a gap is added to the lead, a token takes the lead and begins a
  -- new one
  induction reads generalizing c here lead with
  | done =>
    have stays : here.skipTrivia = .ok here := by
      rw [Cursor.skipTrivia, Cursor.lexeme?_eq_none_iff.mpr whole]
    rw [stays] at trivia
    rw [Cursor.scan_of_atEnd trivia whole]
    exact ⟨rfl, rfl⟩
  | @gap _ _ kind text _ items lexes blank _ ih =>
    subst flagged ended
    rw [List.append_nil] at lexes
    have read := Cursor.lexeme?_of_lexes lexes whole
    rw [Cursor.skipTrivia_of_trivia read blank] at trivia
    refine ih rfl ?_ trivia rfl rfl
    rw [split, whole, List.append_assoc]
    rfl
  | @token _ after _ text _ items one _ ih =>
    subst flagged ended
    rw [List.append_nil] at one
    obtain ⟨stays, skipped⟩ := one.skips whole
    have unread : here.rest ≠ [] := by simp [whole, Item.text, one.ne_nil]
    rw [stays] at trivia
    obtain ⟨stop, tokens⟩ := Cursor.scan_of_token trivia unread skipped
    obtain ⟨stopped, later⟩ := @ih (here.advance text (Item.source items) after)
      (here.advance text (Item.source items) after) [] rfl rfl rfl rfl rfl
    rw [stop, tokens, Cursor.upTo_eq split, Cursor.upTo_eq whole, later]
    exact ⟨stopped, rfl⟩

/-- The scan of a text finds the tokens among its items. -/
theorem scan (reads : Reads true items [] last) :
    (Scan.scan (Item.source items)).stop = .finished ∧
      (Scan.scan (Item.source items)).tokens = Item.tokens [] 1 items :=
  @scan_eq _ _ (Cursor.start (Item.source items)) (Cursor.start (Item.source items)) [] reads rfl
    rfl rfl

end Reads

namespace Cursor

theorem reads_of_skipTrivia {c here : Cursor} (skipped : c.skipTrivia = .ok here) :
    here.skipTrivia = .ok here ∧ ∃ gaps, c.rest = Item.source gaps ++ here.rest ∧
      Reads c.regexOk gaps here.rest here.regexOk := by
  have step {c next : Cursor} {kind : Lexeme} (read : c.lexeme? = some (kind, next))
      (trivia : kind = .blank ∨ kind = .comment)
      (later : here.skipTrivia = .ok here ∧ ∃ gaps, next.rest = Item.source gaps ++ here.rest ∧
        Reads next.regexOk gaps here.rest here.regexOk) :
      here.skipTrivia = .ok here ∧ ∃ gaps, c.rest = Item.source gaps ++ here.rest ∧
        Reads c.regexOk gaps here.rest here.regexOk := by
    obtain ⟨stays, gaps, behind, reads⟩ := later
    obtain ⟨text, split, -, lexes⟩ := lexeme?_lexes read
    -- trivia leave the flag alone
    have flag : next.regexOk = c.regexOk := by
      rcases trivia with rfl | rfl
      · exact lexes.blank_flag
      · exact lexes.comment_text.1
    rw [flag, behind] at lexes
    rw [flag] at reads
    refine ⟨stays, .gap text :: gaps, ?_, .gap lexes trivia reads⟩
    rw [split, behind]
    simp [Item.text]
  fun_induction skipTrivia c with
  | case1 c next read ih => exact step read (Or.inl rfl) (ih skipped)
  | case2 c next read ih => exact step read (Or.inr rfl) (ih skipped)
  | case3 => cases skipped
  | case4 c noBlank noComment noOpen =>
    cases skipped
    refine ⟨?_, [], rfl, .done⟩
    rw [skipTrivia]
    split <;> simp_all

/-- A text that is scanned to its end is made of items. -/
theorem reads_of_scan {c : Cursor} (finished : c.scan.stop = .finished) :
    ∃ items last, c.rest = Item.source items ∧ Reads c.regexOk items [] last := by
  -- by the recursion of the scan: the trivia in front of a token are gaps, then the token, then the
  -- rest
  fun_induction scan c with
  | case1 | case3 => cases finished
  | case2 c here trivia ended =>
    obtain ⟨-, gaps, split, reads⟩ := reads_of_skipTrivia trivia
    rw [ended] at split reads
    exact ⟨gaps, _, by simpa using split, reads⟩
  | case4 c here trivia unread next token later ih =>
    obtain ⟨stays, gaps, split, reads⟩ := reads_of_skipTrivia trivia
    obtain ⟨text, behind, one⟩ := isToken_of_skipToken stays unread token
    obtain ⟨items, last, rest, more⟩ := ih finished
    rw [rest] at one behind
    rw [behind] at reads split
    rw [← List.append_nil (Item.source items)] at one reads
    have behind : Reads here.regexOk (.token text :: items) [] last := .token one more
    refine ⟨gaps ++ .token text :: items, last, ?_, .trans ?_ behind⟩
    · rw [split, Item.source_append]
      rfl
    · simpa [Item.text] using reads

end Cursor

theorem reads_of_scan {text : List Char} (finished : (scan text).stop = .finished) :
    ∃ items last, text = Item.source items ∧ Reads true items [] last :=
  Cursor.reads_of_scan finished

end Concord.Scan
