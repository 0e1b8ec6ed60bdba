import Concord.Proofs.AlikeTokens
import Concord.Proofs.OpenClauses

/-!
Comments aside, the exports of a text are those of the text without its comments, if the lists and
patterns it exports hold none. Each reader of a clause fails on both texts alike, or gives the same
exports and leaves tokens that answer to each other. An initializer is scanned once more by itself,
and again its tokens answer to each other.
-/
namespace Concord.Export

open Concord.Scan Concord.Text

/-! Declarators -/

/-- No token starts with a blank, which only characters outside ASCII do. -/
def Shown (tokens : List Token) : Prop :=
  ∀ t ∈ tokens, isBlank t.first = false

instance (tokens : List Token) : Decidable (Shown tokens) :=
  inferInstanceAs (Decidable (∀ t ∈ tokens, isBlank t.first = false))

theorem Shown.remains {tokens later : List Token} (shown : Shown tokens)
    (left : Remains later tokens) : Shown later := by
  intro t member
  obtain ⟨u, inside, same⟩ := left.exists_text member
  rw [Token.first, ← same]
  exact shown u inside

theorem matched_bare {flag : Bool} {t t' : Token} {ts ts' : List Token} {tail : List Char}
    (matched : Matched flag (t :: ts) tail (t' :: ts')) :
    Matched flag ({ t with lead := [] } :: ts) tail ({ t' with lead := [] } :: ts') := by
  cases matched with
  | cons line _ text same later => exact .cons line .done text same later

section

variable {tokens tokens' : List Token}

theorem typeClause_alike (alike : Alike tokens tokens') :
    ∃ typed later later', typeClause .finished tokens = .ok (typed, later) ∧
      typeClause .finished tokens' = .ok (typed, later') ∧ Alike later later' := by
  cases tokens with
  | nil =>
    rw [alike.eq_nil]
    exact ⟨false, [], [], rfl, rfl, .nil⟩
  | cons t ts =>
    obtain ⟨t', ts', rfl, like, rest⟩ := alike.cons
    simp only [typeClause, like.is, checkStop_finished]
    split
    · exact ⟨true, _, _, rfl, rfl, (skipType_alike rest 0).2⟩
    · exact ⟨false, _, _, rfl, rfl, alike⟩

/-- What two initializers span is a function or none, both alike. -/
theorem isFunction_span {taken taken' : List Token} {tail : List Char}
    (matched : Matched true taken tail taken') (shown : Shown taken) :
    isFunction (trim (Token.span taken')) = isFunction (trim (Token.span taken)) := by
  cases taken with
  | nil =>
    cases matched
    rfl
  | cons t ts =>
    have whole := matched
    cases matched with
    | @cons _ _ _ t' _ ts' _ _ _ _ same _ =>
      have first := shown t List.mem_cons_self
      have first' : isBlank t'.first = false := by
        rw [Token.first, same.head]
        exact first
      -- both spans start with a token and not with blanks, so only their ends are trimmed
      obtain ⟨last, clears⟩ := whole.trimEnd_span shown
      rw [trim_of_shown (Matched.head_span first ts), trim_of_shown (Matched.head_span first' ts')]
      exact isFunction_clears clears

theorem takeInitializer_matched {tail : List Char} (matched : Matched true tokens tail tokens')
    (shown : Shown tokens) :
    isFunction (trim (Token.span (takeInitializer tokens').1)) =
        isFunction (trim (Token.span (takeInitializer tokens).1)) ∧
      Alike (takeInitializer tokens).2 (takeInitializer tokens').2 := by
  cases tokens with
  | nil =>
    cases matched
    exact ⟨rfl, .nil⟩
  | cons t ts =>
    have whole := matched
    cases matched with
    | @cons _ _ _ t' _ ts' _ _ _ _ _ _ =>
      obtain ⟨taken, left⟩ := takeExpression_matched (matched_bare whole) '='
      refine ⟨isFunction_span taken fun u member => ?_, left⟩
      have inside : u ∈ { t with lead := [] } :: ts := by
        rw [← takeExpression_split '=' ({ t with lead := [] } :: ts)]
        exact List.mem_append_left _ member
      exact (shown.remains (.bare t ts)) u inside

theorem initializer_alike (alike : Alike tokens tokens') (shown : Shown tokens) :
    ∃ source source' later later', initializer .finished tokens = .ok (source, later) ∧
      initializer .finished tokens' = .ok (source', later') ∧
      source'.any isFunction = source.any isFunction ∧ Alike later later' := by
  cases tokens with
  | nil =>
    rw [alike.eq_nil]
    exact ⟨none, none, [], [], rfl, rfl, rfl, .nil⟩
  | cons t ts =>
    obtain ⟨t', ts', rfl, like, -⟩ := alike.cons
    simp only [initializer, like.is, checkStop_finished]
    split
    next equals =>
      obtain ⟨flag, tail, matched⟩ := alike
      cases matched with
      | cons _ _ text _ later =>
        -- behind an `=` the flag is that of a fresh scan, with which the initializer is read again
        rw [show t.text = ['='] from of_decide_eq_true equals] at text
        obtain rfl := text.flag_of_equals
        obtain ⟨same, left⟩ := takeInitializer_matched later
          fun u member => shown u (List.mem_cons_of_mem t member)
        exact ⟨_, _, _, _, rfl, rfl, same, left⟩
    · exact ⟨none, none, _, _, rfl, rfl, rfl, alike⟩

end

/-- What is compared of an export: all but the text of its declaration. -/
def facts (e : Export) : Export :=
  { e with source := none }

/-- Two readers fail alike, or give related results. -/
inductive Both {α : Type} (related : α → α → Prop) : Except Imbalance α → Except Imbalance α → Prop
  | error (imbalance : Imbalance) : Both related (.error imbalance) (.error imbalance)
  | ok {a a' : α} (same : related a a') : Both related (.ok a) (.ok a')

theorem Both.bind {α β : Type} {related : α → α → Prop} {behind : β → β → Prop}
    {x x' : Except Imbalance α} {f f' : α → Except Imbalance β} (both : Both related x x')
    (next : ∀ a a', x = .ok a → related a a' → Both behind (f a) (f' a')) :
    Both behind (x >>= f) (x' >>= f') := by
  cases both with
  | error imbalance => exact .error imbalance
  | ok same => exact next _ _ rfl same

theorem Both.map_eq {α β : Type} {related : α → α → Prop} {f : α → β} {x x' : Except Imbalance α}
    (both : Both related x x') (equal : ∀ a a', related a a' → f a' = f a) :
    x'.map f = x.map f := by
  cases both with
  | error imbalance => rfl
  | ok same => rw [Except.map, Except.map, equal _ _ same]

/-- Equal exports, and tokens that answer to each other behind them. -/
def SameRead (read read' : List Export × List Token) : Prop :=
  read'.1.map facts = read.1.map facts ∧ Alike read.2 read'.2

section

variable {t t' : Token} {rest rest' : List Token}

theorem patternExports_alike {bracket : Bracket} (like : Like t t')
    (group : t.group? = some bracket) (bare : uncomment t.text = t.text) (alike : Alike rest rest')
    (shown : Shown rest) :
    Both SameRead (patternExports .finished t rest) (patternExports .finished t' rest') := by
  have text : t'.text = t.text := (like.group bracket group).trans bare
  obtain ⟨typed, middle, middle', clause, clause', alike⟩ := typeClause_alike alike
  obtain ⟨source, source', later, later', value, value', -, left⟩ :=
    initializer_alike alike (shown.remains (typeClause_remains clause))
  simp only [patternExports, clause, clause', value, value', like.group?, like.line, Token.interior,
    text, bind, Except.bind]
  cases bindings (t.group? = some .curly) t.line t.text.tail.dropLast with
  | error imbalance => exact .error imbalance
  | ok found => exact .ok ⟨by simp [facts], left⟩

theorem startsInitializer_alike (alike : Alike rest rest') :
    startsInitializer rest' = startsInitializer rest := by
  match rest with
  | [] => rw [alike.eq_nil]
  | [u] =>
    obtain ⟨u', us', rfl, like, behind⟩ := alike.cons
    rw [behind.eq_nil, startsInitializer, startsInitializer, like.is]
  | u :: v :: us =>
    obtain ⟨u', us', rfl, like, behind⟩ := alike.cons
    obtain ⟨v', vs', rfl, like', -⟩ := behind.cons
    rw [startsInitializer, startsInitializer, like.is, like'.isGlued]

theorem Like.text_of_word (like : Like t t') (named : t.word?.isSome = true) :
    t'.text = t.text := by
  obtain ⟨word, found⟩ := Option.isSome_iff_exists.mp named
  rw [text_of_word? found, text_of_word? (like.word.trans found)]

theorem nameExport_alike (like : Like t t') (named : t.word?.isSome = true)
    (alike : Alike rest rest') (shown : Shown rest) :
    Both (fun read read' => facts read'.1 = facts read.1 ∧ Alike read.2 read'.2)
      (nameExport .finished t rest) (nameExport .finished t' rest') := by
  obtain ⟨typed, middle, middle', clause, clause', alike⟩ :=
    typeClause_alike (skipMark_alike alike '!')
  have left := (typeClause_remains clause).trans (skipMark_remains '!' rest)
  obtain ⟨source, source', later, later', value, value', same, behind⟩ :=
    initializer_alike alike (shown.remains left)
  simp only [nameExport, clause, clause', startsInitializer_alike alike, bind, Except.bind]
  split
  · simp only [value, value', same]
    exact .ok ⟨by simp [facts, like.text_of_word named, like.line], behind⟩
  · exact .ok ⟨by simp [facts, like.text_of_word named, like.line], alike⟩

theorem declarator_alike (like : Like t t') (alike : Alike rest rest') (shown : Shown rest)
    (bare : startsPattern t = true → uncomment t.text = t.text) :
    Both (Option.Rel SameRead) (declarator .finished t rest) (declarator .finished t' rest') := by
  simp only [declarator, like.group?, like.word]
  split
  next pattern =>
    have bare := bare pattern
    have exports : Both SameRead (patternExports .finished t rest)
        (patternExports .finished t' rest') := by
      simp only [Bool.or_eq_true, decide_eq_true_eq] at pattern
      rcases pattern with curly | square
      · exact patternExports_alike like curly bare alike shown
      · exact patternExports_alike like square bare alike shown
    exact exports.bind fun _ _ _ same => .ok (.some same)
  · split
    next named =>
      refine (nameExport_alike like named alike shown).bind fun read read' _ same => .ok (.some ?_)
      exact ⟨by simp [same.1], same.2⟩
    · exact .ok .none

end

theorem declarators_alike {tokens tokens' : List Token} (alike : Alike tokens tokens')
    (shown : Shown tokens)
    (bare : ∀ p ∈ declaredPatterns .finished tokens, uncomment p.text = p.text) :
    Both SameRead (declarators .finished tokens) (declarators .finished tokens') := by
  -- along the declarators of the first text; those of the second end at the same commas
  fun_induction declaredPatterns .finished tokens generalizing tokens' with
  | case1 =>
    rw [alike.eq_nil, declarators]
    exact .ok ⟨rfl, .nil⟩
  | case2 t ts ih =>
    obtain ⟨t', ts', rfl, like, rest⟩ := alike.cons
    rw [List.forall_mem_append] at bare
    have restShown : Shown ts := shown.remains ((Remains.refl ts).drop t)
    have one := declarator_alike like rest restShown fun pattern =>
      bare.1 t (by rw [if_pos pattern]; exact List.mem_cons_self)
    rw [declarators_cons, declarators_cons]
    refine one.bind fun read read' outcome same => ?_
    cases same with
    | none => exact .ok ⟨rfl, alike⟩
    | @some read read' same =>
      obtain ⟨exports, left⟩ := read
      obtain ⟨exports', left'⟩ := read'
      obtain ⟨equal, behind⟩ := same
      cases left with
      | nil =>
        obtain rfl := behind.eq_nil
        exact .ok ⟨equal, .nil⟩
      | cons u later =>
        obtain ⟨u', later', rfl, likeComma, after⟩ := behind.cons
        simp only [moreDeclarators, likeComma.is]
        split
        next comma =>
          have next : laterDeclarators .finished t ts = later := by
            simp [laterDeclarators, outcome, comma]
          rw [next] at ih bare
          have laterShown := restShown.remains <|
            ((Remains.refl later).drop u).trans (declarator_remains outcome)
          refine (ih after laterShown bare.2).bind fun _ _ _ same => .ok ⟨?_, same.2⟩
          rw [List.map_append, List.map_append, equal, same.1]
        · exact .ok ⟨equal, behind⟩

/-! Functions -/

section

variable {tokens tokens' : List Token}

theorem skipReturnType_seek_alike (alike : Alike tokens tokens') :
    Alike (skipReturnType.seek tokens) (skipReturnType.seek tokens') := by
  induction tokens generalizing tokens' with
  | nil =>
    rw [alike.eq_nil]
    exact .nil
  | cons t ts ih =>
    obtain ⟨t', ts', rfl, like, rest⟩ := alike.cons
    simp only [skipReturnType.seek, like.group?, like.is]
    split
    · exact alike
    · exact ih rest

theorem skipReturnType_alike (alike : Alike tokens tokens') :
    Alike (skipReturnType tokens) (skipReturnType tokens') := by
  -- alike tokens take the same branch, since a token is asked only what both answer alike
  cases tokens with
  | nil =>
    rw [alike.eq_nil]
    exact .nil
  | cons t ts =>
    obtain ⟨t', ts', rfl, like, rest⟩ := alike.cons
    simp only [skipReturnType, like.is]
    split
    · cases ts with
      | nil =>
        obtain rfl := rest.eq_nil
        exact .nil
      | cons u us =>
        obtain ⟨u', us', rfl, like', rest'⟩ := rest.cons
        simp only [like'.group?]
        split
        · exact skipReturnType_seek_alike rest'
        · exact skipReturnType_seek_alike rest
    · exact alike

theorem afterTypeParameters_alike (alike : Alike tokens tokens') :
    Alike (afterTypeParameters tokens) (afterTypeParameters tokens') := by
  cases tokens with
  | nil =>
    rw [alike.eq_nil]
    exact .nil
  | cons t ts =>
    obtain ⟨t', ts', rfl, like, -⟩ := alike.cons
    simp only [afterTypeParameters, like.is]
    split
    · exact skipTypeParameters_alike alike 0
    · exact alike

theorem signatureExport_alike {name name' : Token} (like : Like name name')
    (named : name.word?.isSome = true) (alike : Alike tokens tokens') (all all' : List Token) :
    SameRead (signatureExport all name tokens) (signatureExport all' name' tokens') := by
  cases tokens with
  | nil =>
    rw [alike.eq_nil]
    exact ⟨rfl, .nil⟩
  | cons t ts =>
    obtain ⟨t', ts', rfl, parameters, rest⟩ := alike.cons
    simp only [signatureExport, parameters.group?]
    split
    -- behind the parameters comes the return type, and then a body or none
    · have behind := skipReturnType_alike rest
      cases body : skipReturnType ts with
      | nil =>
        rw [body] at behind
        rw [behind.eq_nil]
        exact ⟨rfl, .nil⟩
      | cons u us =>
        rw [body] at behind
        obtain ⟨u', us', body', like', after⟩ := behind.cons
        rw [body'] at behind ⊢
        simp only [like'.group?]
        split
        -- the text of the function differs by its comments, but only name, kind and line are
        -- compared
        · exact ⟨by simp [facts, like.text_of_word named, like.line], after⟩
        · exact ⟨rfl, behind⟩
    · exact ⟨rfl, alike⟩

theorem functionExport_alike (alike : Alike tokens tokens') (all all' : List Token) :
    SameRead (functionExport all tokens) (functionExport all' tokens') := by
  have starred := skipMark_alike alike '*'
  rw [functionExport_eq, functionExport_eq]
  cases first : skipMark '*' tokens with
  | nil =>
    rw [first] at starred
    rw [starred.eq_nil]
    exact ⟨rfl, .nil⟩
  | cons name rest =>
    rw [first] at starred
    obtain ⟨name', rest', first', like, after⟩ := starred.cons
    rw [first'] at starred ⊢
    simp only [like.word]
    split
    next named => exact signatureExport_alike like named (afterTypeParameters_alike after) all all'
    · exact ⟨rfl, starred⟩

/-! Re-export lists -/

theorem originClause?_alike (alike : Alike tokens tokens') :
    Option.Rel (fun read read' => read'.1 = read.1 ∧ Alike read.2 read'.2)
      (originClause? tokens) (originClause? tokens') := by
  match tokens with
  | [] =>
    rw [alike.eq_nil]
    exact .none
  | [t] =>
    obtain ⟨t', ts', rfl, -, rest⟩ := alike.cons
    rw [rest.eq_nil]
    exact .none
  | t :: u :: ts =>
    obtain ⟨t', ts', rfl, like, rest⟩ := alike.cons
    obtain ⟨u', us', rfl, like', rest'⟩ := rest.cons
    -- the word and the quoted text are the same in both, and a quoted text holds no comment
    simp only [originClause?, like.isWord "from" (by decide), like'.isQuoted, like'.first]
    split
    next named =>
      rw [like'.quoted (Bool.and_eq_true_iff.mp named).2]
      exact .some ⟨rfl, rest'⟩
    · exact .none

end

/-- The re-export list of a clause. -/
def clauseList : List Token → List Token
  | [] => []
  | t :: _ => if t.group? = some .curly then [t] else []

/-- The re-export lists that extraction reads in a text. -/
def lists (text : List Char) : List Token :=
  (clauses text).flatMap clauseList

theorem listExports_like {t t' : Token} (like : Like t t') (group : t.group? = some .curly)
    (bare : uncomment t.text = t.text) (origin : Option (List Char)) :
    listExports t'.line t'.interior origin = listExports t.line t.interior origin := by
  rw [Token.interior, Token.interior, like.line, (like.group .curly group).trans bare]

/-- A clause without comments in its list or its patterns. -/
def Uncommented (clause : List Token) : Prop :=
  ∀ t ∈ clauseList clause ++ clausePatterns .finished clause, uncomment t.text = t.text

theorem exportClause_alike {tokens tokens' : List Token} (alike : Alike tokens tokens')
    (shown : Shown tokens) (bare : Uncommented tokens) :
    Both SameRead (exportClause .finished tokens) (exportClause .finished tokens') := by
  cases tokens with
  | nil =>
    rw [alike.eq_nil]
    exact .ok ⟨rfl, .nil⟩
  | cons t ts =>
    obtain ⟨t', ts', rfl, like, rest⟩ := alike.cons
    rw [Uncommented, List.forall_mem_append] at bare
    simp only [exportClause, like.group?, like.isWord "const" (by decide),
      like.isWord "let" (by decide), like.isWord "var" (by decide),
      like.isWord "function" (by decide), like.isWord "async" (by decide)]
    split
    next curly =>
      have bare := bare.1 t (by rw [clauseList, if_pos curly]; exact List.mem_singleton_self t)
      -- the list is uncommented by hypothesis, so both read the same entries; what follows it may
      -- differ
      have same (origin : Option (List Char)) {later later' : List Token}
          (behind : Alike later later') :
          Both SameRead
            (do return (← listExports t.line t.interior origin, later))
            (do return (← listExports t'.line t'.interior origin, later')) := by
        rw [listExports_like like curly bare]
        cases listExports t.line t.interior origin with
        | error imbalance => exact .error imbalance
        | ok found => exact .ok ⟨rfl, behind⟩
      have named := originClause?_alike rest
      generalize originClause? ts = origin at named
      generalize originClause? ts' = origin' at named
      cases named with
      | none => exact same none rest
      | @some read read' equal =>
        obtain ⟨origin, later⟩ := read
        obtain ⟨_, later'⟩ := read'
        obtain ⟨rfl, behind⟩ := equal
        exact same (some _) behind
    split
    -- declarators hold patterns, which are uncommented too
    next declares =>
      rw [clausePatterns, if_pos declares] at bare
      exact declarators_alike rest (shown.remains ((Remains.refl ts).drop t)) bare.2
    split
    · exact .ok (functionExport_alike rest _ _)
    split
    · cases ts with
      | nil =>
        obtain rfl := rest.eq_nil
        exact .ok ⟨rfl, alike⟩
      | cons u us =>
        obtain ⟨u', us', rfl, like', rest'⟩ := rest.cons
        simp only [like'.isWord "function" (by decide)]
        split
        · exact .ok (functionExport_alike rest' _ _)
        · exact .ok ⟨rfl, alike⟩
    · exact .ok ⟨rfl, alike⟩

/-! Statements -/

theorem exportsFrom_alike {previous : Char} {tokens tokens' : List Token}
    (alike : Alike tokens tokens') (shown : Shown tokens)
    (bare : ∀ clause ∈ clausesFrom .finished previous tokens, Uncommented clause) :
    Both (fun found found' => found'.map facts = found.map facts)
      (exportsFrom .finished previous tokens) (exportsFrom .finished previous tokens') := by
  -- by the recursion over the tokens; behind a clause it goes on where the clause left both texts
  fun_induction clausesFrom .finished previous tokens generalizing tokens' with
  | case1 previous =>
    rw [alike.eq_nil, exportsFrom]
    exact .ok rfl
  | case2 previous t ts exported ih =>
    obtain ⟨t', ts', rfl, like, rest⟩ := alike.cons
    have restShown : Shown ts := shown.remains ((Remains.refl ts).drop t)
    rw [List.forall_mem_cons] at bare
    rw [exportsFrom_cons, exportsFrom_cons, like.isWord "export" (by decide), if_pos exported,
      if_pos exported]
    refine (exportClause_alike rest restShown bare.1).bind fun read read' outcome same => ?_
    have left : afterClause .finished ts = read.2 := by rw [afterClause, outcome]
    rw [left] at ih bare
    have laterShown := restShown.remains (exportClause_remains outcome)
    refine (ih same.2 laterShown bare.2).bind fun more more' _ equal => .ok ?_
    rw [List.map_append, List.map_append, same.1, equal]
  | case3 previous t ts other ih =>
    obtain ⟨t', ts', rfl, like, rest⟩ := alike.cons
    rw [exportsFrom_cons, exportsFrom_cons, like.isWord "export" (by decide), if_neg other,
      if_neg other, like.first]
    exact ih rest (shown.remains ((Remains.refl ts).drop t)) bare

/-- Clearing the comments of a text changes none of its exports, if its lists and patterns hold no
comment. -/
theorem extract_uncomment {text : List Char} (balanced : (scan text).stop.imbalance? = none)
    (shown : Shown (scan text).tokens)
    (bare : ∀ t ∈ lists text ++ patterns text, uncomment t.text = t.text) :
    (extract (uncomment text)).map (List.map facts) = (extract text).map (List.map facts) := by
  rw [scan_imbalance?] at balanced
  -- the scans of the text and of the cleared text pass twin places, so their tokens are alike
  obtain ⟨last, clears⟩ := Cursor.clears_uncomment balanced
  have twin : Twin [] (Cursor.start text) (Cursor.start (uncomment text)) :=
    ⟨rfl, rfl, last, clears⟩
  obtain ⟨stop, stop', tail, -, matched⟩ := twin.scan
  have bare : ∀ clause ∈ clausesFrom .finished ';' (scan text).tokens, Uncommented clause := by
    intro clause member t inside
    rw [lists, patterns, clauses, show (scan text).stop = .finished from stop,
      List.forall_mem_append] at bare
    rcases List.mem_append.mp inside with inside | inside
    · exact bare.1 t (List.mem_flatMap.mpr ⟨clause, member, inside⟩)
    · exact bare.2 t (List.mem_flatMap.mpr ⟨clause, member, inside⟩)
  have alike : Alike (scan text).tokens (scan (uncomment text)).tokens := ⟨_, _, matched⟩
  rw [extract_eq, extract_eq, show (scan text).stop = .finished from stop,
    show (scan (uncomment text)).stop = .finished from stop']
  exact (exportsFrom_alike alike shown bare).map_eq fun _ _ same => same

/-- Comments in a declarator, an initializer and a function, and behind a list. -/
def annotated : List Char :=
  "export const a /* x */ = // y\n async (b /* z */) => b, [c] = d\n".toList ++
    "export function /* f */ g() \x7b\x7d\nexport \x7b a as e \x7d /* from */".toList

theorem extract_uncomment_annotated :
    (extract (uncomment annotated)).map (List.map facts) = .ok
      [{ name := "a", kind := .function, line := 1 }, { name := "c", kind := .value, line := 2 },
        { name := "g", kind := .function, line := 3 },
        { name := "e", kind := .reExport, line := 4, target := some "a" }] := by
  rw [extract_uncomment (by decide +kernel) (by decide +kernel) (by decide +kernel)]
  decide +kernel

/-- A comment behind a name of a list. -/
def annotatedList : List Char :=
  "export \x7b a /* c */ \x7d".toList

theorem extract_misses_annotatedList :
    (scan annotatedList).stop.imbalance? = none ∧
      uncomment annotatedList = "export \x7b a         \x7d".toList ∧
      extract (uncomment annotatedList) = .ok
        [{ name := "a", kind := .reExport, line := 1, target := some "a" }] ∧
      extract annotatedList = .ok [] := by
  decide +kernel

end Concord.Export
