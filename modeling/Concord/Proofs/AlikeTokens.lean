import Concord.Proofs.ClearedTokens
import Concord.Proofs.ReadExpressions

/-!
Tokens of a text and of the text without its comments. The readers look at a token for its line, its
first and last character, its word or its mark, and for what stands in front of it; in these, tokens
that answer to each other are alike. So a type, a list of type parameters and an expression end at
the same place in both, and an expression is a function in both or in none.
-/
namespace Concord.Export

open Concord.Scan Concord.Text

/-! What the readers see of a token -/

/-- Two tokens that no reader tells apart, unless it looks into a group. -/
structure Like (t t' : Token) : Prop where
  line : t'.line = t.line
  first : t'.first = t.first
  is : ∀ mark, t'.is mark = t.is mark
  word : t'.word? = t.word?
  last : lastMark t' = lastMark t
  fresh : t'.freshLine = t.freshLine
  bare : t'.lead.isEmpty = t.lead.isEmpty
  quoted : t.isQuoted = true → t'.text = t.text
  group : ∀ bracket, t.group? = some bracket → t'.text = uncomment t.text

namespace Like

variable {t t' : Token}

theorem isGlued (like : Like t t') (mark : Char) : t'.isGlued mark = t.isGlued mark := by
  rw [Token.isGlued, Token.isGlued, like.bare, like.is]

theorem group? (like : Like t t') : t'.group? = t.group? := by
  rw [Token.group?, Token.group?, like.first]

theorem isQuoted (like : Like t t') : t'.isQuoted = t.isQuoted := by
  rw [Token.isQuoted, Token.isQuoted, like.first]

theorem isWord_eq {word : String} (starts : isWordStart (word.toList.headD ' ') = true)
    (t : Token) : t.isWord word = decide (t.word? = some word.toList) := by
  rw [Token.isWord]
  congr 1
  refine propext ⟨fun text => ?_, text_of_word?⟩
  rw [Token.word?, Token.first, text, if_pos starts]

theorem isWord (like : Like t t') (word : String)
    (starts : isWordStart (word.toList.headD ' ') = true) : t'.isWord word = t.isWord word := by
  rw [isWord_eq starts, isWord_eq starts, like.word]

/-- Tokens that answer to each other in both scans are alike. -/
theorem of_matched {flag : Bool} {ts ts' : List Token} {tail : List Char}
    (matched : Matched flag (t :: ts) tail (t' :: ts')) : Like t t' := by
  cases matched with
  | cons line lead text same later =>
    have fresh : t'.freshLine = t.freshLine := by
      rw [Token.freshLine, Token.freshLine, Bool.eq_iff_iff, List.contains_iff_mem,
        List.contains_iff_mem, ← List.count_pos_iff, ← List.count_pos_iff]
      rw [show t'.lead.count '\n' = t.lead.count '\n' from lead.lineBreaks_eq]
    have bare : t'.lead.isEmpty = t.lead.isEmpty := by
      rw [Bool.eq_iff_iff, List.isEmpty_iff, List.isEmpty_iff, lead.eq_nil_iff]
    have group (bracket : Bracket) (opens : t.group? = some bracket) :
        t'.text = uncomment t.text := by
      obtain ⟨back, split⟩ := Token.group_text opens
      rw [split] at text ⊢
      exact text.eq_uncomment_group
    generalize first : t.text = shown at same
    generalize second : t'.text = shown' at same
    cases same with
    | unit lexes quiet code =>
      have whole : t'.text = t.text := second.trans first.symm
      have head : t'.first = t.first := by rw [Token.first, Token.first, whole]
      refine ⟨line, head, fun mark => ?_, ?_, ?_, fresh, bare, fun _ => whole, group⟩
      · rw [Token.is, Token.is, whole]
      · rw [Token.word?, Token.word?, head, whole]
      · rw [lastMark, lastMark, whole]
    | @closed x inner inner' opens ends =>
      -- a group or template is no word, no quote and no mark, and it ends in its closer
      obtain ⟨front, front', last, rfl, rfl, -⟩ := ends
      obtain ⟨noWord, noApostrophe, noQuote⟩ :
          isWordStart x = false ∧ x ≠ '\x27' ∧ x ≠ '\x22' := by
        rcases opens with opens | rfl
        · obtain ⟨bracket, found⟩ := Option.isSome_iff_exists.mp opens
          rw [Bracket.eq_opener_of_ofOpener? found]
          cases bracket <;> decide
        · decide
      have head : t'.first = t.first := by rw [Token.first, Token.first, first, second]; rfl
      refine ⟨line, head, fun mark => ?_, ?_, ?_, fresh, bare, fun quoted => ?_, group⟩
      · simp [Token.is, first, second]
      · rw [Token.word?, Token.word?, head, Token.first, first, List.headD_cons, noWord]
        rfl
      · rw [lastMark, lastMark, ending, ending, first, second, ← List.cons_append,
          ← List.cons_append]
        simp only [List.getLastD_concat]
      · simp [Token.isQuoted, Token.first, first, noApostrophe, noQuote] at quoted

end Like

/-- Tokens of two scans that answer to each other one by one. -/
def Alike (tokens tokens' : List Token) : Prop :=
  ∃ flag tail, Matched flag tokens tail tokens'

namespace Alike

theorem nil : Alike [] [] :=
  ⟨true, [], .nil⟩

theorem eq_nil {tokens' : List Token} (alike : Alike [] tokens') : tokens' = [] := by
  obtain ⟨_, _, matched⟩ := alike
  cases matched
  rfl

theorem cons {t : Token} {ts tokens' : List Token} (alike : Alike (t :: ts) tokens') :
    ∃ t' ts', tokens' = t' :: ts' ∧ Like t t' ∧ Alike ts ts' := by
  obtain ⟨_, _, matched⟩ := alike
  have like := matched
  cases matched with
  | cons _ _ _ _ later => exact ⟨_, _, rfl, .of_matched like, _, _, later⟩

end Alike

section

variable {tokens tokens' : List Token}

theorem skipMark_alike (alike : Alike tokens tokens') (mark : Char) :
    Alike (skipMark mark tokens) (skipMark mark tokens') := by
  cases tokens with
  | nil =>
    rw [alike.eq_nil]
    exact .nil
  | cons t ts =>
    obtain ⟨t', ts', rfl, like, rest⟩ := alike.cons
    simp only [skipMark, like.is]
    split
    · exact rest
    · exact alike

end

theorem skipType_alike {tokens tokens' : List Token} (alike : Alike tokens tokens') (angle : Nat) :
    (skipType angle tokens').1 = (skipType angle tokens).1 ∧
      Alike (skipType angle tokens).2 (skipType angle tokens').2 := by
  cases tokens with
  | nil =>
    rw [alike.eq_nil]
    exact ⟨rfl, .nil⟩
  | cons t ts =>
    obtain ⟨t', ts', rfl, like, rest⟩ := alike.cons
    rw [skipType.eq_def angle (t' :: ts'), skipType.eq_def angle (t :: ts)]
    simp only [like.is]
    split
    · exact skipType_alike rest _
    split
    · exact skipType_alike rest _
    -- an `=` ends a type unless it is the first half of an arrow
    split
    · cases ts with
      | nil =>
        obtain rfl := rest.eq_nil
        simp only
        split
        · exact ⟨rfl, alike⟩
        · exact ⟨rfl, .nil⟩
      | cons u us =>
        obtain ⟨u', us', rfl, like', rest'⟩ := rest.cons
        simp only [like'.isGlued]
        split
        · exact skipType_alike rest' _
        split
        · exact ⟨rfl, alike⟩
        · exact skipType_alike rest _
    split
    · exact ⟨rfl, alike⟩
    · exact skipType_alike rest _
  termination_by tokens.length

theorem skipTypeParameters_alike {tokens tokens' : List Token} (alike : Alike tokens tokens')
    (angle : Nat) :
    Alike (skipTypeParameters angle tokens) (skipTypeParameters angle tokens') := by
  cases tokens with
  | nil =>
    rw [alike.eq_nil]
    exact .nil
  | cons t ts =>
    obtain ⟨t', ts', rfl, like, rest⟩ := alike.cons
    rw [skipTypeParameters.eq_def angle (t' :: ts'), skipTypeParameters.eq_def angle (t :: ts)]
    -- alike tokens are the same marks, so the same branch is taken
    simp only [like.is]
    split
    · exact skipTypeParameters_alike rest _
    split
    · split
      · exact rest
      · exact skipTypeParameters_alike rest _
    split
    · cases ts with
      | nil =>
        obtain rfl := rest.eq_nil
        exact .nil
      | cons u us =>
        obtain ⟨u', us', rfl, like', rest'⟩ := rest.cons
        simp only [like'.isGlued]
        split
        · exact skipTypeParameters_alike rest' _
        · exact skipTypeParameters_alike rest _
    · exact skipTypeParameters_alike rest _
  termination_by tokens.length

theorem takeExpression_split (last : Char) (tokens : List Token) :
    (takeExpression last tokens).1 ++ (takeExpression last tokens).2 = tokens := by
  fun_induction takeExpression last tokens with
  | case1 | case2 | case3 => rfl
  | case4 last t rest goes inLine taken later found ih =>
    rw [found] at ih
    simp [← ih]

/-- An expression takes tokens that answer to each other. -/
theorem takeExpression_matched {flag : Bool} {tokens tokens' : List Token} {tail : List Char}
    (matched : Matched flag tokens tail tokens') (last : Char) :
    Matched flag (takeExpression last tokens).1
        (Token.source (takeExpression last tokens).2 ++ tail) (takeExpression last tokens').1 ∧
      Alike (takeExpression last tokens).2 (takeExpression last tokens').2 := by
  induction matched generalizing last with
  | nil => exact ⟨.nil, .nil⟩
  | @cons flag after t t' ts ts' tail line lead text same later ih =>
    have whole : Matched flag (t :: ts) tail (t' :: ts') := .cons line lead text same later
    have like := Like.of_matched whole
    simp only [takeExpression, like.is, like.fresh, like.first, like.word, like.last]
    split
    · exact ⟨.nil, _, _, whole⟩
    split
    · exact ⟨.nil, _, _, whole⟩
    · obtain ⟨front, back⟩ := ih (lastMark t)
      refine ⟨?_, back⟩
      -- the tokens that are left now count as text behind those that are taken
      have split : Token.source ts = Token.source (takeExpression (lastMark t) ts).1 ++
          Token.source (takeExpression (lastMark t) ts).2 := by
        rw [Token.source, Token.source, Token.source, ← List.flatMap_append, takeExpression_split]
      rw [split, List.append_assoc] at lead text same
      exact .cons line lead text same front

/-! Functions -/

section

variable {tokens tokens' : List Token}

theorem startsArrow_alike (alike : Alike tokens tokens') :
    isFunctionOf.startsArrow tokens' = isFunctionOf.startsArrow tokens := by
  match tokens with
  | [] => rw [alike.eq_nil]
  | [t] =>
    obtain ⟨t', ts', rfl, -, rest⟩ := alike.cons
    rw [rest.eq_nil]
    rfl
  | t :: u :: ts =>
    obtain ⟨t', ts', rfl, like, rest⟩ := alike.cons
    obtain ⟨u', us', rfl, like', -⟩ := rest.cons
    rw [isFunctionOf.startsArrow, isFunctionOf.startsArrow, like.is, like'.isGlued]

theorem returnsArrow_alike (alike : Alike tokens tokens') :
    isFunctionOf.returnsArrow tokens' = isFunctionOf.returnsArrow tokens := by
  induction tokens generalizing tokens' with
  | nil => rw [alike.eq_nil]
  | cons t ts ih =>
    obtain ⟨t', ts', rfl, -, rest⟩ := alike.cons
    rw [isFunctionOf.returnsArrow, isFunctionOf.returnsArrow, startsArrow_alike alike, ih rest]

theorem parametersArrow_alike (alike : Alike tokens tokens') :
    isFunctionOf.parametersArrow tokens' = isFunctionOf.parametersArrow tokens := by
  cases tokens with
  | nil => rw [alike.eq_nil]
  | cons t ts =>
    obtain ⟨t', ts', rfl, like, rest⟩ := alike.cons
    simp only [isFunctionOf.parametersArrow, like.group?]
    split
    · cases ts with
      | nil =>
        obtain rfl := rest.eq_nil
        rfl
      | cons u us =>
        obtain ⟨u', us', rfl, like', rest'⟩ := rest.cons
        simp only [like'.is, startsArrow_alike rest, returnsArrow_alike rest']
    · rfl

theorem opensFunction_alike (alike : Alike tokens tokens') :
    isFunctionOf.opensFunction tokens' = isFunctionOf.opensFunction tokens := by
  cases tokens with
  | nil => rw [alike.eq_nil]
  | cons t ts =>
    obtain ⟨t', ts', rfl, like, rest⟩ := alike.cons
    simp only [isFunctionOf.opensFunction, like.isWord "function" (by decide),
      like.word, like.is, startsArrow_alike rest, parametersArrow_alike alike,
      parametersArrow_alike (skipTypeParameters_alike alike 0)]

/-- Whether an expression is a function does not hang on its comments. -/
theorem isFunction_clears {text text' : List Char} {last : Bool}
    (clears : Clears [] true text text' [] [] last) : isFunction text' = isFunction text := by
  -- a clearing makes twins of the two texts, and their scans find alike tokens
  have twin : Twin [] (Cursor.start text) (Cursor.start text') := ⟨rfl, rfl, last, clears⟩
  obtain ⟨-, -, tail, -, matched⟩ := twin.scan
  have alike : Alike (scan text).tokens (scan text').tokens := ⟨_, _, matched⟩
  simp only [isFunction_eq, isFunctionOf]
  cases read : (scan text).tokens with
  | nil =>
    rw [read] at alike
    rw [alike.eq_nil]
  | cons t ts =>
    rw [read] at alike
    obtain ⟨t', ts', read', like, rest⟩ := alike.cons
    rw [read'] at alike ⊢
    cases ts with
    | nil =>
      obtain rfl := rest.eq_nil
      exact opensFunction_alike alike
    | cons u us =>
      obtain ⟨u', us', rfl, like', -⟩ := rest.cons
      simp only [like.isWord "async" (by decide), like'.first]
      split
      · exact opensFunction_alike rest
      · exact opensFunction_alike alike

end

end Concord.Export
