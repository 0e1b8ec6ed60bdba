import Concord.Access.Projection
import Concord.Proofs.WordsAndGroups

/-!
The first `return` of a body. What stands behind it is told from the tokens of the body: they are
the words and groups at its depth, so a `return` inside a group, a literal or a comment is none of
them.
A text that a `return` can follow is read as it is alone in front of anything that ends a token.
-/
namespace Concord.Scan

open Concord.Text

/-! What a space in front of a word is -/

theorem quoted_last {quote x : Char} {text rest : List Char} (notBreak : x ≠ '\n')
    (closed : quoted quote (text ++ x :: rest) = (text, x :: rest)) :
    text.getLast? = some quote := by
  generalize whole : text ++ x :: rest = all at closed
  -- by the recursion of the reader; what it stops at is the quote or a line break, and no break
  -- follows
  fun_induction quoted quote all generalizing text with
  | case1 => cases closed
  | case2 y after front back read ih =>
    obtain ⟨rfl, rfl⟩ := Prod.mk.inj closed
    simp only [List.cons_append, List.cons.injEq, true_and] at whole
    rw [List.getLast?_cons, List.getLast?_cons, ih whole read]
    rfl
  | case3 after escapes =>
    obtain ⟨-, rest⟩ := Prod.mk.inj closed
    exact absurd (List.cons.inj rest).1.symm notBreak
  | case4 after escapes newline =>
    obtain ⟨rfl, -⟩ := Prod.mk.inj closed
    rfl
  | case5 y after escapes newline other front back read ih =>
    obtain ⟨rfl, rfl⟩ := Prod.mk.inj closed
    simp only [List.cons_append, List.cons.injEq, true_and] at whole
    rw [List.getLast?_cons, ih whole read]
    rfl

theorem regexBody_last {inClass : Bool} {x : Char} {text rest : List Char} (notBreak : x ≠ '\n')
    (closed : regexBody inClass (text ++ x :: rest) = (text, x :: rest)) :
    ∃ c, text.getLast? = some c ∧ (c = '/' ∨ isWordPart c = true) := by
  generalize whole : text ++ x :: rest = all at closed
  fun_induction regexBody inClass all generalizing text with
  | case1 => cases closed
  | case2 inClass y after front back read ih =>
    obtain ⟨rfl, rfl⟩ := Prod.mk.inj closed
    simp only [List.cons_append, List.cons.injEq, true_and] at whole
    obtain ⟨c, last, shown⟩ := ih whole read
    exact ⟨c, by rw [List.getLast?_cons, List.getLast?_cons, last]; rfl, shown⟩
  | case3 inClass after escapes =>
    obtain ⟨-, rest⟩ := Prod.mk.inj closed
    exact absurd (List.cons.inj rest).1.symm notBreak
  | case4 inClass y after escapes newline slash =>
    obtain ⟨rfl, -⟩ := Prod.mk.inj closed
    have slashed : y = '/' := by
      simp only [Bool.and_eq_true, decide_eq_true_eq] at slash
      exact slash.1
    rw [List.getLast?_cons]
    -- flags behind the slash are word characters; without them the slash is the last
    cases last : (after.takeWhile isWordPart).getLast? with
    | none => exact ⟨y, rfl, Or.inl slashed⟩
    | some c => exact ⟨c, rfl, Or.inr (List.mem_takeWhile_imp (List.mem_of_getLast? last))⟩
  | case5 inClass y after escapes newline slash inClass' front back read =>
    rename_i ih
    obtain ⟨rfl, rfl⟩ := Prod.mk.inj closed
    simp only [List.cons_append, List.cons.injEq, true_and] at whole
    obtain ⟨c, last, shown⟩ := ih whole read
    exact ⟨c, by rw [List.getLast?_cons, last]; rfl, shown⟩

/-- On a line that goes on, nothing but a blank ends in a space. -/
theorem Lexes.eq_space {flag after : Bool} {kind : Lexeme} {x : Char} {text rest : List Char}
    (lexes : Lexes flag kind (text ++ [' ']) (x :: rest) after) (notBreak : x ≠ '\n')
    (closed : kind ≠ .openComment) : text = [] ∧ kind = .blank := by
  generalize whole : text ++ [' '] = all at lexes
  have last : all.getLast? = some ' ' := by rw [← whole, List.getLast?_concat]
  -- each kind of lexeme has its own last character, and only that of a blank is a space
  cases lexes with
  | blank =>
    exact ⟨(List.append_eq_singleton_iff.mp whole).elim (·.1) fun both => by simp at both, rfl⟩
  | lineComment inside ends => exact absurd (ends x rfl) notBreak
  | blockComment ended =>
    rw [List.getLast?_cons, List.getLast?_cons, blockComment_last ended] at last
    exact absurd last (by decide)
  | quoted quotes ended =>
    rw [List.getLast?_cons, quoted_last notBreak ended] at last
    rcases quotes with rfl | rfl
    · exact absurd last (by decide)
    · exact absurd last (by decide)
  | regex code ended =>
    obtain ⟨c, found, shown⟩ := regexBody_last notBreak ended
    rw [List.getLast?_cons, found] at last
    obtain rfl : c = ' ' := by simpa using last
    exact absurd shown (by decide)
  | word starts inside ends =>
    rcases List.mem_cons.mp (List.mem_of_getLast? last) with rfl | member
    · exact absurd starts (by decide)
    · exact absurd (inside ' ' member) (by decide)
  | mark notBlank =>
    obtain rfl : _ = ' ' := by simpa using last
    cases notBlank

theorem isToken_not_space {flag last : Bool} {x : Char} {text rest : List Char}
    (token : IsToken flag (text ++ [' ']) (x :: rest) last) (notBreak : x ≠ '\n') : False := by
  generalize whole : text ++ [' '] = all at token
  have ends : all.getLast? = some ' ' := by rw [← whole, List.getLast?_concat]
  -- a group and a template end with what closes them
  have shuts_dark {around : List Enclosure} {flag : Bool} {first : Char} {inner : List Char}
      (shuts : Shuts around flag inner (x :: rest) last) (opened : around ≠ [])
      (ends : (first :: inner).getLast? = some ' ') : False := by
    obtain ⟨front, y, rfl, dark⟩ := shuts.exists_last opened
    rw [← List.cons_append, List.getLast?_concat] at ends
    obtain rfl := Option.some.inj ends
    cases dark
  cases token with
  | @lexeme _ kind _ _ lexes quiet solid =>
    subst whole
    have blank := lexes.eq_space notBreak (by rintro rfl; cases quiet)
    exact solid (Or.inl blank.2)
  | group bracket shuts => exact shuts_dark shuts (by simp) ends
  | template shuts => exact shuts_dark shuts (by simp) ends

/-- Items that end in a space, on a line that goes on, end with the space as an item. -/
theorem Reads.ends_in_space {flag last : Bool} {items : List Item} {x : Char}
    {text rest : List Char}
    (reads : Reads flag items (x :: rest) last) (notBreak : x ≠ '\n')
    (whole : Item.source items = text ++ [' ']) :
    ∃ front, items = front ++ [.gap [' ']] ∧ Item.source front = text := by
  -- only the last item can end in the space
  rcases List.eq_nil_or_concat items with rfl | ⟨front, item, rfl⟩
  · simp at whole
  rw [List.concat_eq_append] at *
  obtain ⟨middle, -, back⟩ := reads.split
  have split : Item.source front ++ item.text = text ++ [' '] := by
    simpa using whole
  have inside {shown : List Char} (nonempty : shown ≠ [])
      (split : Item.source front ++ shown = text ++ [' ']) : ∃ start, shown = start ++ [' '] := by
    have ends := congrArg List.getLast? split
    rw [List.getLast?_append_of_ne_nil _ nonempty, List.getLast?_concat] at ends
    exact List.getLast?_eq_some_iff.mp ends
  cases back with
  | @gap _ _ kind shown _ _ lexes trivia =>
    obtain ⟨start, rfl⟩ := inside lexes.ne_nil split
    obtain ⟨rfl, -⟩ := lexes.eq_space notBreak (by rcases trivia with rfl | rfl <;> simp)
    exact ⟨front, rfl, List.append_cancel_right split⟩
  | @token _ _ _ shown _ _ one =>
    obtain ⟨start, rfl⟩ := inside one.ne_nil split
    exact (isToken_not_space one notBreak).elim

/-! What a return can follow -/

/-- The text balances, no `return` is among its tokens, and it does not run into one behind it:
scanned with ` return` behind it, it is its tokens and the `return` is the last one. -/
def isPrelude (text : List Char) : Bool :=
  let scanned := scan (text ++ " return".toList)
  scanned.stop = .finished && Token.source scanned.tokens = text ++ " return".toList
    && scanned.tokens.getLast?.any (·.isWord "return")
    && (scan text).tokens.all fun t => !t.isWord "return"

/-- A prelude is made of items that are read in front of any stopper, and no `return` is among
them. -/
theorem reads_of_isPrelude {text : List Char} (prelude : isPrelude text = true) :
    ∃ items, text = Item.source items ∧ .token "return".toList ∉ items ∧
      ∀ {rest : List Char}, (∀ x ∈ rest.head?, isStopper x = true) →
        ∃ last, Reads true items rest last := by
  simp only [isPrelude, Bool.and_eq_true, decide_eq_true_eq] at prelude
  obtain ⟨⟨⟨stop, whole⟩, ends⟩, never⟩ := prelude
  obtain ⟨spaced, middle, split, reads⟩ := reads_of_last stop whole ends
  -- the space in front of the `return` is an item of its own
  have joined : Item.source spaced ++ "return".toList = text ++ [' '] ++ "return".toList := by
    rw [← split, List.append_assoc]
    rfl
  have space : Item.source spaced = text ++ [' '] := List.append_cancel_right joined
  obtain ⟨items, rfl, rfl⟩ := reads.ends_in_space (by decide) space
  obtain ⟨last, front, -⟩ := reads.split
  have exchanged {rest : List Char} (stops : ∀ x ∈ rest.head?, isStopper x = true) :
      Reads true items rest last :=
    front.exchange (.stopper (by decide) stops)
  have alone : Reads true items [] last := exchanged (by simp)
  refine ⟨items, rfl, fun returns => ?_, fun stops => ⟨last, exchanged stops⟩⟩
  rw [alone.scan.2, List.all_eq_true] at never
  obtain ⟨t, listed, shown⟩ := Item.exists_mem_tokens [] 1 returns
  have other := never t listed
  rw [Token.isWord, shown] at other
  simp at other

end Concord.Scan

namespace Concord.Access

open Concord.Scan Concord.Text

variable {c here next : Cursor}

/-! Steps of the search -/

theorem afterReturn?_of_halted {halt : Halt} (failed : c.skipTrivia = .error halt) :
    afterReturn? c = none := by
  rw [afterReturn?]
  split
  next => rfl
  next same => cases failed.symm.trans same

theorem afterReturn?_of_atEnd (trivia : c.skipTrivia = .ok here) (ended : here.rest = []) :
    afterReturn? c = none := by
  rw [afterReturn?]
  split
  next => rfl
  next same =>
    cases trivia.symm.trans same
    rw [dif_pos ended]

theorem afterReturn?_of_return (trivia : c.skipTrivia = .ok here) (unread : here.rest ≠ [])
    (word : here.word? = some ("return".toList, next)) : afterReturn? c = some next.rest := by
  rw [afterReturn?]
  split
  next failed => cases trivia.symm.trans failed
  next same =>
    cases trivia.symm.trans same
    rw [dif_neg unread, word]
    exact if_pos rfl

/-- Where no `return` stands, the search goes on behind the token there. -/
theorem afterReturn?_of_passed (trivia : c.skipTrivia = .ok here) (unread : here.rest ≠ [])
    (other : ∀ found ∈ here.word?, found.1 ≠ "return".toList) :
    afterReturn? c = here.skipToken.toOption.bind afterReturn? := by
  rw [afterReturn?]
  split
  next failed => cases trivia.symm.trans failed
  next same =>
    cases trivia.symm.trans same
    rw [dif_neg unread]
    split
    next word behind found =>
      rw [if_neg (other (word, behind) found)]
      split
      next token => rw [token]; rfl
      next token => rw [token]; rfl
    next =>
      split
      next token => rw [token]; rfl
      next token => rw [token]; rfl

theorem afterReturn?_of_other (trivia : c.skipTrivia = .ok here) (unread : here.rest ≠ [])
    (other : ∀ found ∈ here.word?, found.1 ≠ "return".toList) (token : here.skipToken = .ok next) :
    afterReturn? c = afterReturn? next := by
  rw [afterReturn?_of_passed trivia unread other, token]
  rfl

theorem afterReturn?_of_blocked {halt : Halt} (trivia : c.skipTrivia = .ok here)
    (unread : here.rest ≠ []) (failed : here.skipToken = .error halt) : afterReturn? c = none := by
  have noWord : ∀ found ∈ here.word?, found.1 ≠ "return".toList := by
    rintro ⟨word, next⟩ found
    cases failed.symm.trans (Cursor.skipToken_of_word? found)
  rw [afterReturn?_of_passed trivia unread noWord, failed]
  rfl

/-! The search among the tokens -/

/-- The token at a cursor, and whether it is the `return` that is searched. -/
theorem exists_token (trivia : c.skipTrivia = .ok here) (unread : here.rest ≠ [])
    (token : here.skipToken = .ok next) :
    c.rest = c.upTo here ++ here.upTo next ++ next.rest ∧
      afterReturn? c =
        if here.upTo next = "return".toList then some next.rest else afterReturn? next := by
  obtain ⟨stays, -⟩ := Cursor.reads_of_skipTrivia trivia
  obtain ⟨text, split, one⟩ := Cursor.isToken_of_skipToken stays unread token
  obtain ⟨lead, ahead, -⟩ := Cursor.skipTrivia_reaches trivia
  have word := one.word? split
  rw [Cursor.upTo_eq ahead, Cursor.upTo_eq split]
  refine ⟨by rw [ahead, split, List.append_assoc], ?_⟩
  -- the token is the word itself, or the search goes on behind it
  split
  next returns =>
    rw [returns, if_pos (by decide)] at word
    have found := afterReturn?_of_return trivia unread word
    exact found
  next other =>
    refine afterReturn?_of_other trivia unread ?_ token
    intro found shown
    rw [word] at shown
    split at shown
    · obtain rfl := Option.some.inj shown
      exact other
    · cases shown

/-- What stands behind the first token that is a `return` is found. -/
theorem afterReturn?_eq_some {front later : List Token} {t : Token} {behind : List Char}
    (tokens : c.scan.tokens = front ++ t :: later)
    (first : ∀ u ∈ front, u.isWord "return" = false) (returns : t.isWord "return" = true)
    (whole : c.rest = Token.source (front ++ [t]) ++ behind) : afterReturn? c = some behind := by
  -- the search passes the tokens that the scan reads
  fun_induction Cursor.scan c generalizing front with
  | case1 | case2 | case3 => simp at tokens
  | case4 c here trivia unread next token scanned =>
    rename_i ih
    obtain ⟨split, search⟩ := exists_token trivia unread token
    rw [search]
    cases front with
    | nil =>
      obtain ⟨rfl, -⟩ := List.cons.inj tokens
      rw [if_pos (of_decide_eq_true returns)]
      have same : c.upTo here ++ here.upTo next ++ next.rest =
          c.upTo here ++ here.upTo next ++ behind := by
        rw [← split, whole]
        simp [Token.source]
      rw [List.append_cancel_left same]
    | cons u front =>
      obtain ⟨rfl, later⟩ := List.cons.inj tokens
      have other := first _ List.mem_cons_self
      rw [if_neg (of_decide_eq_false other)]
      refine ih later (fun v member => first v (List.mem_cons_of_mem _ member)) ?_
      have same : c.upTo here ++ here.upTo next ++ next.rest =
          c.upTo here ++ here.upTo next ++ (Token.source (front ++ [t]) ++ behind) := by
        rw [← split, whole]
        simp [Token.source]
      exact List.append_cancel_left same

/-- Where no token is a `return`, none is found. -/
theorem afterReturn?_eq_none (never : ∀ t ∈ c.scan.tokens, t.isWord "return" = false) :
    afterReturn? c = none := by
  fun_induction Cursor.scan c with
  | case1 c halt failed => exact afterReturn?_of_halted failed
  | case2 c here trivia ended => exact afterReturn?_of_atEnd trivia ended
  | case3 c here trivia unread halt failed => exact afterReturn?_of_blocked trivia unread failed
  | case4 c here trivia unread next token scanned ih =>
    have other := never _ List.mem_cons_self
    rw [(exists_token trivia unread token).2, if_neg (of_decide_eq_false other)]
    exact ih fun t member => never t (List.mem_cons_of_mem _ member)

/-- What stands behind the first `return` among the items is found. -/
theorem afterReturn?_of_reads {front later : List Item} {last : Bool}
    (reads : Reads true (front ++ .token "return".toList :: later) [] last)
    (first : .token "return".toList ∉ front) :
    afterReturn? (Cursor.start (Item.source (front ++ .token "return".toList :: later))) =
      some (Item.source later) := by
  obtain ⟨-, tokens⟩ := reads.scan
  rw [Item.tokens_append, Item.tokens] at tokens
  refine afterReturn?_eq_some tokens (fun u member => ?_) (decide_eq_true rfl) ?_
  · refine decide_eq_false fun shown => first ?_
    rw [← shown]
    exact Item.token_mem_of_mem_tokens member
  · -- the tokens in front, and what stands behind the last of them, are the items in front
    have covers := Item.source_tokens [] 1 front
    rw [List.nil_append] at covers
    rw [Cursor.start, Item.source_append, ← covers]
    simp only [Token.source, List.flatMap_append, List.flatMap_cons, List.flatMap_nil,
      Item.source_cons, Item.text, List.append_nil, List.append_assoc]

end Concord.Access
