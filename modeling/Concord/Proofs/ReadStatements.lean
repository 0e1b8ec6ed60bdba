import Concord.Proofs.ReadClauses

/-!
Reading the exports of a text is matching them among the tokens of its plain scan. A reader that
gives up does so with the imbalance that stopped the scan, sooner than the matcher, which goes on
until the tokens are used up and then finds the same imbalance. So the two may part inside a clause,
but not in the answer.
-/
namespace Concord.Export

open Concord.Scan Concord.Text

section

variable {origin start c here next after : Cursor} {ahead rest : List Token} {t : Token}

/-- Reader and matcher agree, or the reader has given up with what stopped the scan and the matcher
goes on to tokens that are no `export`, after which it comes to that as well. -/
inductive Concurs (origin : Cursor) : Except Imbalance (List Export × Cursor) →
    Except Imbalance (List Export × List Token) → Prop
  | agrees {read : Except Imbalance (List Export × Cursor)}
      {matched : Except Imbalance (List Export × List Token)}
      (agrees : Agrees origin.Sees read matched) : Concurs origin read matched
  | late {imbalance : Imbalance} {found : List Export} {later : List Token}
      (stopped : origin.scan.stop.imbalance? = some imbalance)
      (silent : ∀ t ∈ later, t.isWord "export" = false) :
      Concurs origin (.error imbalance) (.ok (found, later))

theorem Concurs.ok {found : List Export} (sees : origin.Sees c ahead) :
    Concurs origin (.ok (found, c)) (.ok (found, ahead)) :=
  .agrees (.ok sees)

theorem Concurs.error {imbalance : Imbalance} :
    Concurs origin (.error imbalance) (.error imbalance) :=
  .agrees .error

theorem Concurs.lost {imbalance : Imbalance} {found : List Export}
    (stopped : origin.scan.stop.imbalance? = some imbalance) :
    Concurs origin (.error imbalance) (.ok (found, [])) :=
  .late stopped (by simp)

/-- A reader that is stopped on the way to where a clause goes on has used up the tokens, and the
matcher exports nothing then. -/
theorem Arrives.concurs {place : Cursor → List Token → Prop} {outcome : Except Imbalance Cursor}
    {later : List Token} {f : Cursor → Except Imbalance (List Export × Cursor)}
    {g : List Token → List Export × List Token}
    (arrives : Arrives origin.scan.stop place outcome later)
    (goes : ∀ c, place c later → Concurs origin (f c) (.ok (g later))) (used : g [] = ([], [])) :
    Concurs origin (outcome >>= f) (.ok (g later)) := by
  cases arrives with
  | there there => exact goes _ there
  | lost left =>
    rw [used]
    exact .lost left

theorem Concurs.append {read : Except Imbalance (List Export × Cursor)}
    {matched : Except Imbalance (List Export × List Token)} (concurs : Concurs origin read matched)
    (found : List Export) :
    Concurs origin (do let (others, last) ← read; return (found ++ others, last))
      (do let (others, last) ← matched; return (found ++ others, last)) := by
  -- what was found before is put in front on both sides, and a reader that gave up stays late
  cases concurs with
  | agrees agrees =>
    cases agrees with
    | ok sees => exact .ok sees
    | error => exact .error
  | late stopped silent => exact .late stopped silent

/-! Lists of declarators -/

theorem exists_opener (group : (here.peek? = some '\x7b' || here.peek? = some '[') = true) :
    ∃ bracket : Bracket, here.peek? = some bracket.opener := by
  rcases (by simpa using group : _ ∨ _) with curly | square
  · exact ⟨.curly, curly⟩
  · exact ⟨.square, square⟩

/-- What is matched where a reader comes to no declarator. -/
theorem declarators_none (faces : origin.Faces here ahead)
    (none : Reader.declarator here = .ok none) :
    declarators origin.scan.stop ahead = .ok ([], ahead) := by
  cases faces.meets with
  | finished | blocked => rw [declarators]
  | @token next t one later =>
    have agrees := declarator_agrees one later
    rw [none] at agrees
    rw [declarators_cons]
    generalize declarator origin.scan.stop t next.scan.tokens = matched at agrees
    cases agrees
    rfl

theorem declarators_some {found : List Export} (faces : origin.Faces here ahead)
    (one : Reader.declarator here = .ok (some (found, after))) :
    ∃ later, origin.Sees after later ∧
      declarators origin.scan.stop ahead = moreDeclarators origin.scan.stop (found, later) := by
  cases faces.meets with
  -- a declarator was read, so neither the end nor a place that blocks the reader is there
  | finished ended =>
    rw [Reader.declarator, peek?_finished ended, word?_finished ended] at one
    cases one
  | blocked blocked =>
    rw [Reader.declarator, blocked.word?] at one
    split at one
    next group =>
      -- an opener that blocks is one of a group that is never closed, so no pattern was read
      obtain ⟨bracket, opens⟩ := exists_opener group
      rw [Reader.patternExports, blocked.pastGroup opens] at one
      cases one
    · cases one
  | @token next t token later =>
    have agrees := declarator_agrees token later
    rw [one] at agrees
    rw [declarators_cons]
    generalize declarator origin.scan.stop t next.scan.tokens = matched at agrees
    cases agrees with
    | found sees => exact ⟨_, sees, rfl⟩

/-- To the matcher an open group is no token. -/
theorem declarators_stopped {imbalance : Imbalance} (faces : origin.Faces here ahead)
    (failed : Reader.declarator here = .error imbalance) :
    Concurs origin (.error imbalance) (declarators origin.scan.stop ahead) := by
  cases faces.meets with
  | finished ended =>
    rw [Reader.declarator, peek?_finished ended, word?_finished ended] at failed
    cases failed
  -- the matcher sees no token here and ends without a declarator, while the reader has tried the
  -- group; both have what stopped the scan
  | blocked blocked stop =>
    rw [declarators]
    rw [Reader.declarator, blocked.word?] at failed
    split at failed
    next group =>
      obtain ⟨bracket, opens⟩ := exists_opener group
      rw [Reader.patternExports, blocked.pastGroup opens] at failed
      cases failed
      exact .lost (by rw [stop]; rfl)
    · cases failed
  | @token next t one later =>
    have agrees := declarator_agrees one later
    rw [failed] at agrees
    rw [declarators_cons]
    generalize declarator origin.scan.stop t next.scan.tokens = matched at agrees
    cases agrees
    exact .error

/-- By induction over the declarators that are read, each with the comma in front of it. -/
theorem declarators_concurs (sees : origin.Sees c ahead) :
    Concurs origin (Reader.declarators c) (declarators origin.scan.stop ahead) := by
  fun_induction Reader.declarators c generalizing ahead with
  -- a comment that is never closed: the scan has stopped in front of it and there are no tokens
  | case1 c imbalance trivia =>
    obtain ⟨rfl, stop⟩ := sees.openComment trivia
    rw [declarators]
    exact .lost (by rw [stop]; rfl)
  | case2 c here trivia imbalance failed => exact declarators_stopped (sees.faces trivia) failed
  | case3 c here trivia none =>
    rw [declarators_none (sees.faces trivia) none]
    exact .ok (sees.faces trivia).sees
  -- the declarator is read, but a comment behind it is open
  | case4 c here trivia found next one imbalance space =>
    obtain ⟨later, behind, same⟩ := declarators_some (sees.faces trivia) one
    obtain ⟨rfl, stop⟩ := behind.openComment space
    rw [same]
    exact .lost (by rw [stop]; rfl)
  -- no comma behind the declarator ends the list
  | case5 c here trivia found next one behind space noComma =>
    obtain ⟨later, sees, same⟩ := declarators_some (sees.faces trivia) one
    have faces := sees.faces space
    rw [same]
    cases faces.meets with
    | finished | blocked => exact .ok faces.sees
    | token comma =>
      rw [comma.eat? (by decide)] at noComma
      split at noComma
      · cases noComma
      next other =>
        simp only [moreDeclarators, if_neg other]
        exact .ok faces.sees
  -- behind a comma the list goes on, with the exports of this declarator in front
  | case6 c here trivia found next one behind space more comma ih =>
    obtain ⟨later, sees, same⟩ := declarators_some (sees.faces trivia) one
    rw [same]
    cases (sees.faces space).meets with
    | finished ended =>
      rw [eat?_finished ended] at comma
      cases comma
    | blocked blocked =>
      rw [blocked.eat? (by decide)] at comma
      cases comma
    | @token after t token further =>
      rw [token.eat? (by decide)] at comma
      split at comma
      next is =>
        cases comma
        simp only [moreDeclarators, if_pos is]
        exact (ih further).append found
      · cases comma

/-! Functions -/

/-- The body of a function or the end of its signature. -/
def opensBodyAt : List Token → Bool
  | [] => false
  | t :: _ => t.group? = some .curly || t.is ';'

theorem seek_eq (tokens : List Token) : skipReturnType.seek tokens = dropTo opensBodyAt tokens := by
  induction tokens with
  | nil => rfl
  | cons t rest ih => rw [skipReturnType.seek, dropTo, opensBodyAt, ih]

theorem opensBody_isAt (one : here.IsAt t next) (_later : origin.Sees next next.scan.tokens) :
    Reader.opensBody here = opensBodyAt (t :: next.scan.tokens) := by
  have curly : here.peek? = some '\x7b' ↔ t.group? = some .curly := peek?_eq_opener one .curly
  have semicolon : here.peek? = some ';' ↔ t.is ';' = true := by
    rw [one.peek?, one.is_iff (by decide), Option.some.injEq]
  rw [Reader.opensBody, opensBodyAt, Bool.eq_iff_iff]
  simp [curly, semicolon]

theorem skipToBody_arrives (sees : origin.Sees c ahead) :
    Arrives origin.scan.stop origin.Faces (c.skipTo Reader.opensBody)
      (skipReturnType.seek ahead) := by
  rw [seek_eq]
  exact skipTo_arrives opensBody_isAt sees

theorem skipReturnType_cons (t : Token) (rest : List Token) :
    skipReturnType (t :: rest) =
      if t.is ':' then
        match rest with
        | [] => []
        | u :: later =>
          if u.group? = some .curly then skipReturnType.seek later
          else skipReturnType.seek (u :: later)
      else t :: rest := by
  cases rest <;> rw [skipReturnType.eq_def]

theorem pastReturnType_arrives (sees : origin.Sees c ahead) :
    Arrives origin.scan.stop origin.Faces (Reader.pastReturnType c) (skipReturnType ahead) := by
  -- the type itself is not read; behind the colon only a group in braces is told from a body
  refine (pastTrivia_arrives sees).bind (fun here faces => ?_) (by rintro rfl; rfl)
  cases faces.meets with
  | finished ended =>
    rw [eat?_finished ended]
    exact .there faces
  | blocked blocked =>
    rw [blocked.eat? (by decide)]
    exact .there faces
  | @token next t one later =>
    rw [one.eat? (by decide), skipReturnType_cons]
    by_cases typed : t.is ':' = true
    · rw [if_pos typed, if_pos typed]
      generalize next.scan.tokens = rest at later ⊢
      refine (pastTrivia_arrives later).bind (fun type faces => ?_) (by rintro rfl; rfl)
      cases faces.meets with
      | finished ended =>
        rw [peek?_finished ended, if_neg (by simp)]
        exact skipToBody_arrives faces.sees
      | blocked blocked stop =>
        -- an opened type that is never closed is where the scan has stopped
        split
        next opens =>
          rw [blocked.pastGroup (show type.peek? = some Bracket.curly.opener from opens)]
          exact .lost (by rw [stop]; rfl)
        · exact skipToBody_arrives faces.sees
      | @token next u one behind =>
        have curly : type.peek? = some '\x7b' ↔ u.group? = some .curly :=
          peek?_eq_opener one .curly
        simp only [curly]
        split
        next group =>
          rw [one.pastGroup group]
          exact skipToBody_arrives behind
        · exact skipToBody_arrives faces.sees
    · rw [if_neg typed, if_neg typed]
      exact .there faces

/-- The text between two places is that of the tokens between them. -/
theorem upTo_passes {passed further : List Token} (one : here.IsAt t next)
    (first : origin.Passes passed next) (last : origin.Passes further after)
    (shorter : after.scan.tokens.length ≤ next.scan.tokens.length) :
    here.upTo after =
      Token.span (Token.before (t :: next.scan.tokens) after.scan.tokens) := by
  -- both runs of tokens begin where `origin` does, so the one up to `after` goes on where the one
  -- up to `next` ends
  have tokens : passed ++ next.scan.tokens = further ++ after.scan.tokens := by
    rw [← first.tokens, last.tokens]
  have lengths := congrArg List.length tokens
  rw [List.length_append, List.length_append] at lengths
  obtain ⟨between, rfl, left⟩ : ∃ between, further = passed ++ between ∧
      next.scan.tokens = between ++ after.scan.tokens := by
    -- of the two runs the longer one is that up to `after`, which has fewer tokens behind it
    rcases List.append_eq_append_iff.mp tokens with ⟨more, rfl, left⟩ | ⟨more, rfl, left⟩
    · exact ⟨more, rfl, left⟩
    · have none : more.length = 0 := by
        rw [left, List.length_append] at shorter
        omega
      obtain rfl := List.length_eq_zero_iff.mp none
      exact ⟨[], by simp, by simpa using left.symm⟩
  -- the same for the texts, where equal fronts can be cancelled
  have text : next.rest = Token.source between ++ after.rest := by
    have same := first.text.symm.trans last.text
    have joined :
        Token.source (passed ++ between) = Token.source passed ++ Token.source between := by
      simp [Token.source]
    rw [joined, List.append_assoc] at same
    exact List.append_cancel_left same
  have read : here.rest = t.text ++ Token.source between ++ after.rest := by
    rw [one.split, text, List.append_assoc]
  have count : (t :: (between ++ after.scan.tokens)).length - after.scan.tokens.length =
      (t :: between).length := by
    simp only [List.length_cons, List.length_append]
    omega
  rw [Cursor.upTo_eq read, left, Token.before, count, ← List.cons_append, List.take_left]
  rfl

theorem afterTypeParameters_length_le (tokens : List Token) :
    (afterTypeParameters tokens).length ≤ tokens.length := by
  cases tokens with
  | nil => exact Nat.le_refl _
  | cons t rest =>
    rw [afterTypeParameters]
    split
    · exact skipTypeParameters_length_le 0 _
    · exact Nat.le_refl _

/-- What a function exports from its name on. -/
def namedExport (all : List Token) : List Token → List Export × List Token
  | [] => ([], [])
  | name :: rest =>
    if name.word?.isSome then signatureExport all name (afterTypeParameters rest)
    else ([], name :: rest)

theorem functionExport_eq_namedExport (all tokens : List Token) :
    functionExport all tokens = namedExport all (skipMark '*' tokens) := by
  rw [functionExport_eq]
  cases skipMark '*' tokens <;> rfl

/-- What a function exports from its body on. -/
def bodyExport (all : List Token) (name : Token) : List Token → List Export × List Token
  | [] => ([], [])
  | body :: after =>
    if body.group? = some .curly then
      ([{ name := String.ofList name.text, kind := .function, line := name.line
          source := some (String.ofList (Token.span (Token.before all after))) }], after)
    else ([], body :: after)

theorem signatureExport_cons (all : List Token) (name t : Token) (later : List Token) :
    signatureExport all name (t :: later) =
      if t.group? = some .round then bodyExport all name (skipReturnType later)
      else ([], t :: later) := by
  rw [signatureExport]
  cases skipReturnType later <;> rfl

section

variable {begun : Cursor} {passed : List Token} (starts : start.IsAt t begun)
  (passes : origin.Passes passed begun)

include starts passes

theorem bodyExport_concurs (name : Token) (faces : origin.Faces here ahead)
    (shorter : ahead.length ≤ begun.scan.tokens.length) :
    Concurs origin
      (if here.peek? = some '\x7b' then do
        let behind ← here.pastGroup
        return ([{ name := String.ofList name.text, kind := .function, line := name.line
                   source := some (String.ofList (start.upTo behind)) }], behind)
      else return ([], here))
      (.ok (bodyExport (t :: begun.scan.tokens) name ahead)) := by
  cases faces.meets with
  | finished ended =>
    rw [peek?_finished ended, if_neg (by simp)]
    exact .ok faces.sees
  | blocked blocked stop =>
    split
    -- an open body stops the reader, and the scan before it
    next opens =>
      rw [blocked.pastGroup (show here.peek? = some Bracket.curly.opener from opens)]
      exact .lost (by rw [stop]; rfl)
    · exact .ok faces.sees
  | @token next body one later behind =>
    have curly : here.peek? = some '\x7b' ↔ body.group? = some .curly := peek?_eq_opener one .curly
    rw [bodyExport]
    simp only [curly]
    split
    next group =>
      obtain ⟨further, last⟩ := behind
      -- the source is the text from the first token of the function to behind its body
      have text := upTo_passes starts passes last (by
        rw [List.length_cons] at shorter
        omega)
      rw [one.pastGroup group, ← text]
      exact .ok later
    · exact .ok faces.sees

theorem signatureExport_concurs (name : Token) (faces : origin.Faces here ahead)
    (shorter : ahead.length ≤ begun.scan.tokens.length) :
    Concurs origin
      (if here.peek? = some '(' then do
        let body ← Reader.pastReturnType (← here.pastGroup)
        if body.peek? = some '\x7b' then
          let behind ← body.pastGroup
          return ([{ name := String.ofList name.text, kind := .function, line := name.line
                     source := some (String.ofList (start.upTo behind)) }], behind)
        else return ([], body)
      else return ([], here))
      (.ok (signatureExport (t :: begun.scan.tokens) name ahead)) := by
  cases faces.meets with
  | finished ended =>
    rw [peek?_finished ended, if_neg (by simp)]
    exact .ok faces.sees
  | blocked blocked stop =>
    -- parameters that are never closed stop the reader, as they have stopped the scan
    split
    next opens =>
      rw [blocked.pastGroup (show here.peek? = some Bracket.round.opener from opens)]
      exact .lost (by rw [stop]; rfl)
    · exact .ok faces.sees
  | @token next u one later =>
    have round : here.peek? = some '(' ↔ u.group? = some .round := peek?_eq_opener one .round
    rw [signatureExport_cons]
    simp only [round]
    split
    next group =>
      rw [one.pastGroup group]
      refine (pastReturnType_arrives later).concurs (fun body faces => ?_) rfl
      refine bodyExport_concurs starts passes name faces ?_
      -- what is skipped for the return type only shortens the tokens
      have returned := skipReturnType_length_le next.scan.tokens
      rw [List.length_cons] at shorter
      omega
    · exact .ok faces.sees

/-- The text of a function is that of its tokens, from the one that the cursor `start` is at. -/
theorem functionExport_concurs (sees : origin.Sees c ahead)
    (shorter : ahead.length ≤ begun.scan.tokens.length) :
    Concurs origin (Reader.functionExport start c)
      (.ok (functionExport (t :: begun.scan.tokens) ahead)) := by
  have marked := skipMark_length_le '*' ahead
  rw [functionExport_eq_namedExport]
  -- the reader goes past trivia, the asterisk, trivia again and the type parameters; in each of
  -- these steps it arrives where the matcher does or is lost
  refine (pastTrivia_arrives sees).concurs
    (g := fun ahead => namedExport (t :: begun.scan.tokens) (skipMark '*' ahead))
    (fun here faces => ?_) rfl
  refine (pastTrivia_arrives (dropMark_sees (by decide) faces)).concurs (fun named faces => ?_) rfl
  generalize skipMark '*' ahead = tokens at marked faces ⊢
  cases faces.meets with
  | finished ended =>
    rw [word?_finished ended]
    exact .ok faces.sees
  | blocked blocked =>
    rw [blocked.word?]
    exact .ok faces.sees
  | @token next name one later =>
    rw [one.word?, namedExport]
    cases word : name.word? with
    | none => exact .ok faces.sees
    | some text =>
      obtain rfl := text_of_word? word
      rw [List.length_cons] at marked
      have parameters := afterTypeParameters_length_le next.scan.tokens
      simp only [Option.map_some, Option.isSome_some, if_true, ← one.line]
      refine (pastTrivia_arrives later).concurs
        (g := fun rest => signatureExport _ name (afterTypeParameters rest)) (fun c faces => ?_) rfl
      refine (pastTypeParameters_arrives faces).concurs (fun c faces => ?_) rfl
      exact signatureExport_concurs starts passes name faces (by omega)

end

/-! Re-export lists -/

theorem listExports_origin (line : Nat) (body : List Char) (module : Option (List Char)) :
    listExports line body module =
      (listExports line body none).map
        (List.map fun e => { e with origin := module.map String.ofList }) := by
  rw [listExports, listExports]
  cases split ',' body with
  | error imbalance => rfl
  | ok pieces =>
    refine congrArg Except.ok ?_
    rw [List.map_filterMap]
    refine List.filterMap_congr fun piece _ => ?_
    rw [Option.map_map]
    rfl

/-- The module that a list names, and the tokens behind the clause that names it. -/
def afterOrigin (tokens : List Token) : Option (List Char) × List Token :=
  match originClause? tokens with
  | some (module, later) => (some module, later)
  | none => (none, tokens)

theorem exportClause_braces {stop : Stop} (group : t.group? = some .curly) (rest : List Token) :
    exportClause stop (t :: rest) =
      (listExports t.line t.interior none).map fun found =>
        (found.map fun e => { e with origin := (afterOrigin rest).1.map String.ofList },
          (afterOrigin rest).2) := by
  have same (module : Option (List Char)) := listExports_origin t.line t.interior module
  simp only [exportClause, group, if_true, afterOrigin]
  cases originClause? rest with
  | none =>
    conv_lhs => rw [same none]
    cases listExports t.line t.interior none <;> rfl
  | some found =>
    simp only [same (some found.1)]
    cases listExports t.line t.interior none <;> rfl

theorem originClause?_other (other : t.isWord "from" = false) (rest : List Token) :
    originClause? (t :: rest) = none := by
  cases rest <;> simp [originClause?, other]

theorem isQuoted_iff (one : here.IsAt t next) {quote : Char} (shown : here.peek? = some quote) :
    t.isQuoted = (quote = '\x27' || quote = '\x22') := by
  cases shown.symm.trans one.peek?
  rfl

/-- Behind the word `from`. -/
theorem quoted_agrees (sees : origin.Sees c (t :: rest)) (named : t.isWord "from" = true)
    (faces : origin.Faces here rest) :
    ∃ next, (match here.peek? with
        | none => (.ok (none, c) : Except Imbalance (Option (List Char) × Cursor))
        | some quote =>
          if quote = '\x27' || quote = '\x22' then do
            let behind ← here.pastToken
            let literal := (here.upTo behind).tail
            return (some ((dropLastMark? quote literal).getD literal), behind)
          else return (none, c)) = .ok ((afterOrigin (t :: rest)).1, next) ∧
      origin.Sees next (afterOrigin (t :: rest)).2 := by
  cases faces.meets with
  | finished ended =>
    rw [peek?_finished ended]
    exact ⟨c, rfl, sees⟩
  | blocked blocked =>
    obtain ⟨first, shown, barrier⟩ := blocked.peek?
    -- what blocks a reader is a bracket, a backquote or a comment, so it does not begin a quoted
    -- text
    have notApostrophe : first ≠ '\x27' := by
      rintro rfl
      cases barrier
    have notQuote : first ≠ '\x22' := by
      rintro rfl
      cases barrier
    simp only [shown, notApostrophe, notQuote, decide_false, Bool.or_self, Bool.false_eq_true,
      if_false]
    exact ⟨c, rfl, sees⟩
  | @token next u one later =>
    have shown := one.peek?
    rw [shown, afterOrigin, originClause?, named, Bool.true_and]
    simp only [← isQuoted_iff one shown]
    split
    · simp only [one.pastToken, bind, Except.bind, one.upTo]
      exact ⟨next, rfl, later⟩
    · exact ⟨c, rfl, sees⟩

/-- A module is named by a word and a quoted text. A reader that is stopped before it has come to
the text has only that word behind it. -/
theorem originClause_agrees (sees : origin.Sees c ahead) :
    (∃ next, Reader.originClause c = .ok ((afterOrigin ahead).1, next) ∧
        origin.Sees next (afterOrigin ahead).2) ∨
      ∃ imbalance, Reader.originClause c = .error imbalance ∧
        origin.scan.stop.imbalance? = some imbalance ∧
        ∀ t ∈ (afterOrigin ahead).2, t.isWord "export" = false := by
  rw [Reader.originClause]
  -- in front of the clause there may be an open comment, and then no tokens
  rcases sees.pastTrivia with ⟨here, passed, faces⟩ | ⟨imbalance, failed, rfl, stop⟩
  · simp only [passed, bind, Except.bind]
    cases faces.meets with
    | finished ended =>
      rw [word?_finished ended]
      exact Or.inl ⟨c, rfl, sees⟩
    | blocked blocked =>
      rw [blocked.word?]
      exact Or.inl ⟨c, rfl, sees⟩
    | @token next t one later =>
      -- without the word `from` the clause is absent and nothing is taken
      by_cases named : t.isWord "from" = true
      · rw [(isWord_iff one (by decide)).mp named]
        generalize next.scan.tokens = rest at sees later ⊢
        rcases later.pastTrivia with ⟨quoted, space, behind⟩ | ⟨imbalance, failed, rfl, stop⟩
        · simp only [if_true, space]
          exact Or.inl (quoted_agrees sees named behind)
        · simp only [if_true, failed]
          -- the word `from` was read and the reader is stopped behind it; to the matcher the word
          -- is left over, and it is no `export`
          have other : t.isWord "export" = false := by
            have text : t.text = "from".toList := by simpa [Token.isWord] using named
            simp [Token.isWord, text]
          exact Or.inr ⟨imbalance, rfl, by rw [stop]; rfl, List.forall_mem_singleton.mpr other⟩
      · have none : afterOrigin (t :: next.scan.tokens) = (none, t :: next.scan.tokens) := by
          rw [afterOrigin, originClause?_other (by simpa using named)]
        rw [one.word?, none]
        refine Or.inl ⟨c, ?_, sees⟩
        cases word : t.word? with
        | none => rfl
        | some text =>
          obtain rfl := text_of_word? word
          have other : t.text ≠ "from".toList := Token.isWord_iff.not.mp named
          simp only [Option.map_some, if_neg other]
          rfl
  · rw [failed]
    exact Or.inr ⟨imbalance, rfl, by rw [stop]; rfl, List.forall_mem_nil _⟩

theorem reexports_concurs (one : here.IsAt t next) (later : origin.Sees next rest)
    (group : t.group? = some .curly) :
    Concurs origin (Reader.reexports here) (exportClause origin.scan.stop (t :: rest)) := by
  rw [Reader.reexports, one.pastGroup group, exportClause_braces group, ← one.line]
  change Concurs _ (listExports t.line (here.upTo next).tail.dropLast none >>= _) _
  rw [one.upTo, ← Token.interior]
  cases listExports t.line t.interior none with
  | error imbalance => exact .error
  | ok found =>
    rcases originClause_agrees later with ⟨behind, read, sees⟩ |
      ⟨imbalance, failed, stopped, silent⟩
    · change Concurs _ (Reader.originClause next >>= _) _
      rw [read]
      exact .ok sees
    · change Concurs _ (Reader.originClause next >>= _) _
      rw [failed]
      exact .late stopped silent

/-! Statements -/

theorem exportClause_other {stop : Stop} (noList : t.group? ≠ some .curly) (rest : List Token) :
    exportClause stop (t :: rest) =
      if t.isWord "const" || t.isWord "let" || t.isWord "var" then declarators stop rest
      else if t.isWord "function" then .ok (functionExport (t :: rest) rest)
      else if t.isWord "async" then
        match rest with
        | u :: later =>
          if u.isWord "function" then .ok (functionExport (t :: rest) later) else .ok ([], t :: rest)
        | [] => .ok ([], t :: rest)
      else .ok ([], t :: rest) := by
  cases rest <;> rw [exportClause.eq_def] <;> simp only [if_neg noList]

/-- An `async` without a function behind it is left. -/
theorem asyncClause_concurs (faces : origin.Faces here (t :: next.scan.tokens))
    (one : here.IsAt t next) (later : origin.Sees next next.scan.tokens)
    (behind : ∃ passed, origin.Passes passed next) (other : t.isWord "export" = false) :
    Concurs origin
      (do
        match (← next.pastTrivia).word? with
        | none => return ([], here)
        | some (word, later) =>
          if word = "function".toList then Reader.functionExport here later else return ([], here))
      (match next.scan.tokens with
      | u :: later =>
        if u.isWord "function" then .ok (functionExport (t :: next.scan.tokens) later)
        else .ok ([], t :: next.scan.tokens)
      | [] => .ok ([], t :: next.scan.tokens)) := by
  -- the place behind `async` may have an open comment, then the word itself is all that is left
  obtain ⟨passed, passes⟩ := behind
  rcases later.pastTrivia with ⟨place, space, ahead⟩ | ⟨imbalance, failed, none, stop⟩
  · have begun {c ahead} := @functionExport_concurs origin here c ahead t next passed one passes
    generalize next.scan.tokens = rest at ahead faces begun ⊢
    simp only [space, bind, Except.bind]
    cases ahead.meets with
    | finished ended =>
      rw [word?_finished ended]
      exact .ok faces.sees
    | blocked blocked =>
      rw [blocked.word?]
      exact .ok faces.sees
    | @token after u two further =>
      -- only the word `function` makes it a clause; the text of the function begins with `async`
      by_cases function : u.isWord "function" = true
      · rw [(isWord_iff two (by decide)).mp function]
        simp only [if_true, if_pos function]
        exact begun further (by simp)
      · rw [two.word?]
        simp only [if_neg function]
        cases word : u.word? with
        | none => exact .ok faces.sees
        | some text =>
          obtain rfl := text_of_word? word
          have other : u.text ≠ "function".toList := Token.isWord_iff.not.mp function
          simp only [Option.map_some, if_neg other]
          exact .ok faces.sees
  -- so the word `async` is left over as the last token, and it is no `export`
  · rw [failed, none]
    exact .late (by rw [stop]; rfl) (List.forall_mem_singleton.mpr other)

theorem exportClause_concurs (sees : origin.Sees c ahead) :
    Concurs origin (Reader.exportClause c) (exportClause origin.scan.stop ahead) := by
  rw [Reader.exportClause]
  rcases sees.pastTrivia with ⟨here, passed, faces⟩ | ⟨imbalance, failed, rfl, stop⟩
  -- what the clause begins with decides which one it is: a list, a declaring keyword, `function`,
  -- `async` or none of them
  · simp only [passed, bind, Except.bind]
    cases faces.meets with
    | finished ended =>
      rw [peek?_finished ended, word?_finished ended, if_neg (by simp), exportClause]
      exact .ok faces.sees
    | blocked blocked stop =>
      rw [blocked.word?, exportClause]
      split
      next opens =>
        -- a list that is never closed
        rw [Reader.reexports,
          blocked.pastGroup (show here.peek? = some Bracket.curly.opener from opens)]
        exact .lost (by rw [stop]; rfl)
      · exact .ok faces.sees
    | @token next t one later behind =>
      have curly : here.peek? = some '\x7b' ↔ t.group? = some .curly := peek?_eq_opener one .curly
      simp only [curly]
      split
      next group => exact reexports_concurs one later group
      next noList =>
        rw [exportClause_other noList, one.word?]
        cases word : t.word? with
        | none =>
          -- a token that is no word is none of the keywords
          have no {keyword : String} (starts : isWordStart (keyword.toList.headD ' ') = true) :
              t.isWord keyword = false := by
            rw [← Bool.not_eq_true, isWord_iff one starts, one.word?, word]
            simp
          simp only [Option.map_none,
            no (show isWordStart ("const".toList.headD ' ') = true by decide),
            no (show isWordStart ("let".toList.headD ' ') = true by decide),
            no (show isWordStart ("var".toList.headD ' ') = true by decide),
            no (show isWordStart ("function".toList.headD ' ') = true by decide),
            no (show isWordStart ("async".toList.headD ' ') = true by decide), Bool.or_self,
            Bool.false_eq_true, if_false]
          exact .ok faces.sees
        | some text =>
          obtain rfl := text_of_word? word
          simp only [Option.map_some]
          by_cases declares : (t.text = "const".toList || t.text = "let".toList
              || t.text = "var".toList) = true
          · rw [if_pos declares,
              if_pos (show (t.isWord _ || t.isWord _ || t.isWord _) = true from declares)]
            -- behind the keyword declarators are read
            exact declarators_concurs later
          rw [if_neg declares,
            if_neg (show ¬(t.isWord _ || t.isWord _ || t.isWord _) = true from declares)]
          by_cases function : t.text = "function".toList
          · rw [if_pos function, if_pos (Token.isWord_iff.mpr function)]
            obtain ⟨passed, passes⟩ := behind
            exact functionExport_concurs one passes later (Nat.le_refl _)
          rw [if_neg function, if_neg (Token.isWord_iff.not.mpr function)]
          by_cases async : t.text = "async".toList
          · rw [if_pos async, if_pos (Token.isWord_iff.mpr async)]
            refine asyncClause_concurs faces one later behind ?_
            rw [Token.isWord, async]
            decide
          · rw [if_neg async, if_neg (Token.isWord_iff.not.mpr async)]
            exact .ok faces.sees
  · rw [failed, exportClause]
    exact .lost (by rw [stop]; rfl)

/-- What exports nothing is passed. -/
theorem exportsFrom_silent {stop : Stop} {tokens : List Token}
    (silent : ∀ t ∈ tokens, t.isWord "export" = false) (previous : Char) :
    exportsFrom stop previous tokens = exportsFrom stop ';' [] := by
  induction tokens generalizing previous with
  | nil => rw [exportsFrom, exportsFrom]
  | cons t tokens ih =>
    obtain ⟨first, others⟩ := List.forall_mem_cons.mp silent
    rw [exportsFrom_cons, first, Bool.false_and, if_neg Bool.false_ne_true]
    exact ih others t.first

theorem exportsFrom_nil {stop : Stop} {imbalance : Imbalance}
    (stopped : stop.imbalance? = some imbalance) (previous : Char) :
    exportsFrom stop previous [] = .error imbalance := by
  rw [exportsFrom, stopped]

/-- An `export` is met as a word. -/
theorem keyword_isAt (one : here.IsAt t next) (previous : Char) :
    (here.word?.filter fun found => found.1 = "export".toList && previous ≠ '.') =
      if t.isWord "export" && previous ≠ '.' then some (t.text, next) else none := by
  by_cases keyword : t.isWord "export" = true
  · have text : t.text = "export".toList := by simpa [Token.isWord] using keyword
    rw [(isWord_iff one (by decide)).mp keyword, keyword, text, Option.filter_some]
    simp
  · rw [one.word?, Bool.not_eq_true _ |>.mp keyword, Bool.false_and, if_neg Bool.false_ne_true]
    cases word : t.word? with
    | none => rfl
    | some text =>
      obtain rfl := text_of_word? word
      have other : t.text ≠ "export".toList := Token.isWord_iff.not.mp keyword
      rw [Option.map_some, Option.filter_some, decide_eq_false other, Bool.false_and,
        if_neg Bool.false_ne_true]

theorem exported_of_keyword {previous : Char} {word : List Char} (faces : origin.Faces here ahead)
    (keyword : (here.word?.filter fun found => found.1 = "export".toList && previous ≠ '.') =
      some (word, next)) :
    ∃ t, ahead = t :: next.scan.tokens ∧ (t.isWord "export" && previous ≠ '.') = true ∧
      origin.Sees next next.scan.tokens := by
  cases faces.meets with
  | finished ended =>
    rw [word?_finished ended] at keyword
    cases keyword
  | blocked blocked =>
    rw [blocked.word?] at keyword
    cases keyword
  | @token after t one later =>
    rw [keyword_isAt one] at keyword
    split at keyword
    next exported =>
      cases keyword
      exact ⟨t, rfl, exported, later⟩
    · cases keyword

/-- By induction over the tokens that are passed, where a clause is passed as a whole. -/
theorem exportsFrom_sees {previous : Char} (sees : origin.Sees c ahead) :
    Reader.exportsFrom previous c = exportsFrom origin.scan.stop previous ahead := by
  fun_induction Reader.exportsFrom previous c generalizing ahead with
  | case1 previous c imbalance trivia =>
    -- an open comment ends the text for both
    obtain ⟨rfl, stop⟩ := sees.openComment trivia
    exact (exportsFrom_nil (by rw [stop]; rfl) previous).symm
  | case2 previous c here trivia none =>
    cases (sees.faces trivia).meets with
    | finished ended stop => rw [exportsFrom, stop]; rfl
    | blocked blocked => cases none.symm.trans blocked.headD
    | token one => cases none.symm.trans one.peek?
  | case3 previous c here trivia first shown word next keyword imbalance failed =>
    -- the clause fails: the matcher fails with it, or it goes on to tokens without `export` and
    -- then comes to the stop of the scan
    obtain ⟨t, rfl, exported, later⟩ := exported_of_keyword (sees.faces trivia) keyword
    have concurs := exportClause_concurs later
    rw [failed] at concurs
    rw [exportsFrom_cons, if_pos exported]
    generalize exportClause origin.scan.stop next.scan.tokens = matched at concurs
    cases concurs with
    | agrees agrees => cases agrees; rfl
    | late stopped silent =>
      simp only [bind, Except.bind, exportsFrom_silent silent, exportsFrom_nil stopped]
  | case4 previous c here trivia first shown word next keyword found later read ih =>
    obtain ⟨t, rfl, exported, behind⟩ := exported_of_keyword (sees.faces trivia) keyword
    have concurs := exportClause_concurs behind
    rw [read] at concurs
    rw [exportsFrom_cons, if_pos exported]
    generalize exportClause origin.scan.stop next.scan.tokens = matched at concurs
    cases concurs with
    | agrees agrees =>
      cases agrees with
      | ok sees =>
        -- a clause is read by both and leaves both at the same place, where the induction goes on
        rw [ih sees]
        rfl
  | case5 previous c here trivia first shown noKeyword imbalance failed =>
    cases (sees.faces trivia).meets with
    | finished ended => cases shown.symm.trans (peek?_finished ended)
    -- without a keyword one token is passed; where none can be, the scan has stopped too
    | blocked blocked stop =>
      cases failed.symm.trans blocked.failed
      exact (exportsFrom_nil (by rw [stop]; rfl) previous).symm
    | token one => cases failed.symm.trans one.pastToken
  | case6 previous c here trivia first shown noKeyword next token ih =>
    cases (sees.faces trivia).meets with
    | finished ended => cases shown.symm.trans (peek?_finished ended)
    | blocked blocked => cases token.symm.trans blocked.failed
    | @token after t one later =>
      cases token.symm.trans one.pastToken
      cases shown.symm.trans one.peek?
      -- the token is passed by both, and it is no `export` to either
      rw [keyword_isAt one] at noKeyword
      split at noKeyword
      · cases noKeyword
      next other =>
        rw [exportsFrom_cons, if_neg other]
        exact ih later

/-- Reading a script is matching the tokens of its plain scan. -/
theorem extract_eq (text : List Char) :
    extract text = exportsFrom (Scan.scan text).stop ';' (Scan.scan text).tokens :=
  exportsFrom_sees (Cursor.Sees.start (Cursor.start text))

end

end Concord.Export
