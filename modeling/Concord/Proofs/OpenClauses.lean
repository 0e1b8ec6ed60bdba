import Concord.Proofs.Clauses

/-!
Where a clause ends. Most clauses are read in the same way whatever follows them, and an `export` on
a fresh line then starts the next one. A clause is open if it would go on: a type that nothing ends,
an initializer whose last character asks for more, a declarator or a function name still to come, or
a function whose body is still sought. An exported name is found if no clause in front of it is
open.
-/
namespace Concord.Export

open Concord.Scan Concord.Text

/-! Open clauses -/

/-- The tokens behind the type, if there is one. -/
def afterType : List Token → List Token
  | [] => []
  | t :: rest => if t.is ':' then (skipType 0 rest).2 else t :: rest

/-- A type that no `=`, `,` or `;` ends. -/
def opensType : List Token → Bool
  | [] => false
  | t :: rest => t.is ':' && (skipType 0 rest).2.isEmpty

/-- An initializer that takes all tokens and ends in a mark that keeps it open. -/
def opensInitializer : List Token → Bool
  | [] => false
  | t :: rest =>
    t.is '=' && (takeInitializer rest).2.isEmpty && trailing.contains (lastMark (rest.getLastD t))

/-- A declarator, behind its first token, that goes on at the end. -/
def opensDeclarator (t : Token) (rest : List Token) : Bool :=
  if startsPattern t then opensType rest || opensInitializer (afterType rest)
  else
    let rest := skipMark '!' rest
    t.word?.isSome &&
      (opensType rest || startsInitializer (afterType rest) && opensInitializer (afterType rest))

/-- A list of declarators of which one is still to come or goes on. -/
def opensDeclarators (tokens : List Token) : Bool :=
  match tokens with
  | [] => true
  | t :: rest =>
    opensDeclarator t rest ||
      match _read : declarator .finished t rest with
      | .ok (some (_, u :: later)) => u.is ',' && opensDeclarators later
      | _ => false
  termination_by tokens.length
  decreasing_by
    have := declarator_length_le _read
    simp only [List.length_cons] at this ⊢
    omega

/-- A function, from its parameters on, whose return type no body and no `;` ends. -/
def opensReturnType : List Token → Bool
  | [] => true
  | t :: rest => t.group? = some .round && !rest.isEmpty && (skipReturnType rest).isEmpty

/-- A function, behind its keyword, whose name, type parameters or return type go on. -/
def opensFunction (tokens : List Token) : Bool :=
  match skipMark '*' tokens with
  | [] => true
  | name :: rest =>
    name.word?.isSome && !rest.isEmpty && opensReturnType (afterTypeParameters rest)

/-- A clause that goes on at the end of its tokens. -/
def opensClause : List Token → Bool
  | [] => false
  | t :: rest =>
    if t.isWord "const" || t.isWord "let" || t.isWord "var" then opensDeclarators rest
    else if t.isWord "function" then opensFunction rest
    else
      t.isWord "async" && (rest.head?.any fun u => u.isWord "function") && opensFunction rest.tail

/-! A clause that is not open ends in front of an `export` on a fresh line -/

/-- More tokens behind those that a reader leaves. -/
def extend {α : Type} (tail : List Token) (read : α × List Token) : α × List Token :=
  (read.1, read.2 ++ tail)

section

variable {t : Token} {rest : List Token}

theorem is_export (word : t.isWord "export" = true) (mark : Char) : t.is mark = false := by
  have text : t.text = "export".toList := of_decide_eq_true word
  simp [Token.is, text]

theorem isWord_export (word : t.isWord "export" = true) {other : String}
    (differs : "export".toList ≠ other.toList) : t.isWord other = false := by
  have text : t.text = "export".toList := of_decide_eq_true word
  rw [Token.isWord, text]
  exact decide_eq_false differs

theorem first_export (word : t.isWord "export" = true) : t.first = 'e' := by
  have text : t.text = "export".toList := of_decide_eq_true word
  rw [Token.first, text]
  rfl

theorem group?_export (word : t.isWord "export" = true) : t.group? = none := by
  rw [Token.group?, first_export word]
  rfl

theorem skipMark_append (word : t.isWord "export" = true) (mark : Char) (tokens : List Token) :
    skipMark mark (tokens ++ t :: rest) = skipMark mark tokens ++ t :: rest := by
  cases tokens with
  | nil => simp [skipMark, is_export word]
  | cons u tokens =>
    simp only [List.cons_append, skipMark]
    split <;> rfl

theorem skipType_append (word : t.isWord "export" = true) {angle : Nat} {tokens : List Token}
    (ends : (skipType angle tokens).2 ≠ []) :
    skipType angle (tokens ++ t :: rest) = extend (t :: rest) (skipType angle tokens) := by
  -- only an arrow looks at the token behind, and `export` is no half of one
  have unglued : t.isGlued '>' = false := by rw [Token.isGlued, is_export word, Bool.and_false]
  fun_induction skipType angle tokens with
  | case1 | case5 => exact absurd rfl ends
  | case2 angle u tokens opens ih =>
    rw [List.cons_append, skipType.eq_def]
    simp [opens, ih ends]
  | case3 angle u tokens opens closes ih =>
    rw [List.cons_append, skipType.eq_def]
    simp [opens, closes, ih ends]
  | case4 | case7 => simp_all [skipType, extend]
  | case6 angle u opens closes equals v later arrow ih =>
    simp [skipType, opens, closes, equals, arrow, ih ends]
  | case8 angle u opens closes equals v later noArrow inside ih =>
    have next := ih ends
    rw [List.cons_append] at next
    simp [skipType, opens, closes, equals, noArrow, inside, next]
  | case9 angle u tokens opens closes equals stops =>
    rw [List.cons_append, skipType.eq_def]
    simp_all [extend]
  | case10 angle u tokens opens closes equals other ih =>
    rw [List.cons_append, skipType.eq_def]
    simp [opens, closes, equals, other, ih ends]

theorem skipTypeParameters_append {angle : Nat} {tokens tail : List Token}
    (ends : skipTypeParameters angle tokens ≠ []) :
    skipTypeParameters angle (tokens ++ tail) = skipTypeParameters angle tokens ++ tail := by
  -- the last angle is closed inside the list, so what is appended is never looked at
  fun_induction skipTypeParameters angle tokens with
  | case1 | case5 => exact absurd rfl ends
  | case2 angle u tokens opens ih =>
    rw [List.cons_append, skipTypeParameters.eq_def]
    simp [opens, ih ends]
  | case3 angle u tokens opens closes last =>
    rw [List.cons_append, skipTypeParameters.eq_def]
    simp [opens, closes, last]
  | case4 angle u tokens opens closes inside ih =>
    rw [List.cons_append, skipTypeParameters.eq_def]
    simp [opens, closes, inside, ih ends]
  | case6 angle u opens closes equals v later arrow ih =>
    simp [skipTypeParameters, opens, closes, equals, arrow, ih ends]
  | case7 angle u opens closes equals v later noArrow ih =>
    have next := ih ends
    rw [List.cons_append] at next
    simp [skipTypeParameters, opens, closes, equals, noArrow, next]
  | case8 angle u tokens opens closes equals ih =>
    rw [List.cons_append, skipTypeParameters.eq_def]
    simp [opens, closes, equals, ih ends]

/-- An expression does not go on to an `export` on a fresh line, unless its last mark asks for
it. -/
theorem takeExpression_append (word : t.isWord "export" = true) (fresh : t.freshLine = true)
    {last : Char} {tokens : List Token}
    (closed : (takeExpression last tokens).2 = [] →
      trailing.contains ((tokens.getLast?.map lastMark).getD last) = false) :
    takeExpression last (tokens ++ t :: rest) =
      extend (t :: rest) (takeExpression last tokens) := by
  fun_induction takeExpression last tokens with
  | case1 last =>
    have text : t.text = "export".toList := of_decide_eq_true word
    -- no operator and no `as` stands at the start of the line, so the mark in front decides
    have ends : continues last t.first t.word? = false := by
      have shut : trailing.contains last = false := closed rfl
      have isWord : t.word? = some "export".toList := by
        rw [Token.word?, first_export word, text]
        rfl
      rw [continues, shut, first_export word, isWord]
      decide
    simp [takeExpression, is_export word, fresh, ends, extend]
  | case2 last u tokens ends => simp [takeExpression, ends, extend]
  | case3 last u tokens goes ends => simp [takeExpression, goes, ends, extend]
  | case4 last u tokens goes inLine taken later found ih =>
    have next : takeExpression (lastMark u) (tokens ++ t :: rest) =
        extend (t :: rest) (takeExpression (lastMark u) tokens) := by
      refine ih fun none => ?_
      rw [found] at none
      have shut := closed none
      rw [List.getLast?_cons] at shut
      cases final : tokens.getLast? <;> simpa [final] using shut
    rw [found] at next
    simp [takeExpression, goes, inLine, next, extend]

theorem takeInitializer_append (word : t.isWord "export" = true) (fresh : t.freshLine = true)
    {equals : Token} {tokens : List Token} (assigns : equals.is '=' = true)
    (closed : opensInitializer (equals :: tokens) = false) :
    takeInitializer (tokens ++ t :: rest) = extend (t :: rest) (takeInitializer tokens) := by
  -- behind `=` an expression goes on over a line break, so an empty initializer would be open
  have mark : trailing.contains (lastMark equals) = true := by
    have text : equals.text = ['='] := of_decide_eq_true assigns
    rw [lastMark, text]
    decide
  rw [opensInitializer, assigns, Bool.true_and] at closed
  cases tokens with
  | nil =>
    rw [takeInitializer, List.isEmpty_nil, Bool.true_and, List.getLastD_nil, mark] at closed
    cases closed
  | cons u tokens =>
    change takeExpression '=' (({ u with lead := [] } :: tokens) ++ t :: rest) = _
    -- the expression ends inside the list, or at the fresh line that begins with `export`
    refine takeExpression_append word fresh fun none => ?_
    have whole : (takeInitializer (u :: tokens)).2.isEmpty = true := by
      rw [List.isEmpty_iff]
      exact none
    rw [whole, Bool.true_and] at closed
    have bare : lastMark { u with lead := [] } = lastMark u := rfl
    rw [← closed, List.getLast?_cons, List.getLastD_cons]
    cases final : tokens.getLast? <;> simp [final, bare, List.getLastD_eq_getLast?]

@[simp] theorem checkStop_finished (tokens : List Token) (ends : Char → Bool → Bool) :
    checkStop .finished tokens ends = .ok () := by
  cases tokens <;> rfl

theorem typeClause_append (word : t.isWord "export" = true) {tokens : List Token}
    (closed : opensType tokens = false) :
    ∃ typed, typeClause .finished tokens = .ok (typed, afterType tokens) ∧
      typeClause .finished (tokens ++ t :: rest) = .ok (typed, afterType tokens ++ t :: rest) := by
  cases tokens with
  | nil => exact ⟨false, rfl, by simp [typeClause, is_export word, afterType]⟩
  | cons u tokens =>
    by_cases colon : u.is ':' = true
    · have ends : (skipType 0 tokens).2 ≠ [] := by
        simpa [opensType, colon] using closed
      refine ⟨true, ?_, ?_⟩
      · simp [typeClause, afterType, colon, bind, Except.bind, pure, Except.pure]
      · simp [typeClause, afterType, colon, bind, Except.bind, pure, Except.pure,
          skipType_append word ends, extend]
    · exact ⟨false, by simp [typeClause, afterType, colon], by simp [typeClause, afterType, colon]⟩

theorem initializer_append (word : t.isWord "export" = true) (fresh : t.freshLine = true)
    {tokens : List Token} (closed : opensInitializer tokens = false) :
    initializer .finished (tokens ++ t :: rest) =
      (initializer .finished tokens).map (extend (t :: rest)) := by
  cases tokens with
  | nil => simp [initializer, is_export word, Except.map, extend]
  | cons u tokens =>
    by_cases equals : u.is '=' = true
    · simp [initializer, equals, takeInitializer_append word fresh equals closed, bind, Except.bind,
        pure, Except.pure, extend, Except.map]
    · simp [initializer, equals, extend, Except.map]

theorem patternExports_append (word : t.isWord "export" = true) (fresh : t.freshLine = true)
    (pattern : Token) {tokens : List Token} (type : opensType tokens = false)
    (value : opensInitializer (afterType tokens) = false) :
    patternExports .finished pattern (tokens ++ t :: rest) =
      (patternExports .finished pattern tokens).map (extend (t :: rest)) := by
  obtain ⟨typed, alone, followed⟩ : ∃ typed, _ ∧
      typeClause .finished (tokens ++ t :: rest) = .ok (typed, afterType tokens ++ t :: rest) :=
    typeClause_append word type
  simp only [patternExports, alone, followed, initializer_append word fresh value, bind,
    Except.bind]
  cases initializer .finished (afterType tokens) with
  | error => rfl
  | ok read =>
    simp only [Except.map, extend]
    cases bindings (decide (pattern.group? = some .curly)) pattern.line pattern.interior <;> rfl

theorem startsInitializer_append (word : t.isWord "export" = true) (tokens : List Token) :
    startsInitializer (tokens ++ t :: rest) = startsInitializer tokens := by
  match tokens with
  | [] => cases rest <;> simp [startsInitializer, is_export word]
  | [u] => simp [startsInitializer, Token.isGlued, is_export word]
  | u :: v :: tokens => rfl

theorem nameExport_append (word : t.isWord "export" = true) (fresh : t.freshLine = true)
    (name : Token) {tokens : List Token} (type : opensType (skipMark '!' tokens) = false)
    (value : (startsInitializer (afterType (skipMark '!' tokens)) &&
      opensInitializer (afterType (skipMark '!' tokens))) = false) :
    nameExport .finished name (tokens ++ t :: rest) =
      (nameExport .finished name tokens).map (extend (t :: rest)) := by
  obtain ⟨typed, alone, followed⟩ : ∃ typed, _ ∧
      typeClause .finished (skipMark '!' tokens ++ t :: rest) =
        .ok (typed, afterType (skipMark '!' tokens) ++ t :: rest) :=
    typeClause_append word type
  simp only [nameExport, skipMark_append word, alone, followed, startsInitializer_append word, bind,
    Except.bind]
  by_cases starts : startsInitializer (afterType (skipMark '!' tokens)) = true
  · rw [starts, Bool.true_and] at value
    simp only [starts, if_true, initializer_append word fresh value]
    cases initializer .finished (afterType (skipMark '!' tokens)) <;> rfl
  · simp only [if_neg starts]
    rfl

theorem declarator_append (word : t.isWord "export" = true) (fresh : t.freshLine = true)
    {first : Token} {tokens : List Token} (closed : opensDeclarator first tokens = false) :
    declarator .finished first (tokens ++ t :: rest) =
      (declarator .finished first tokens).map (Option.map (extend (t :: rest))) := by
  rw [opensDeclarator] at closed
  rw [declarator, declarator]
  -- a pattern, a name or neither; in each case the reader of that case leaves what is appended
  by_cases pattern : startsPattern first = true
  · rw [if_pos pattern, Bool.or_eq_false_iff] at closed
    rw [startsPattern] at pattern
    rw [if_pos pattern, if_pos pattern, patternExports_append word fresh first closed.1 closed.2]
    cases patternExports .finished first tokens <;> rfl
  · rw [if_neg pattern] at closed
    rw [startsPattern] at pattern
    rw [if_neg pattern, if_neg pattern]
    by_cases name : first.word?.isSome = true
    · simp only [name, Bool.true_and, Bool.or_eq_false_iff] at closed
      rw [if_pos name, if_pos name, nameExport_append word fresh first closed.1 closed.2]
      cases nameExport .finished first tokens <;> rfl
    · rw [if_neg name, if_neg name]
      rfl

theorem declarators_append (word : t.isWord "export" = true) (fresh : t.freshLine = true)
    {tokens : List Token} (closed : opensDeclarators tokens = false) :
    declarators .finished (tokens ++ t :: rest) =
      (declarators .finished tokens).map (extend (t :: rest)) := by
  -- by induction over the declarators; with a comma the list goes on, and its rest is closed too
  fun_induction opensDeclarators tokens with
  | case1 => cases closed
  | case2 first tokens ih =>
    obtain ⟨one, more⟩ := Bool.or_eq_false_iff.mp closed
    rw [List.cons_append, declarators_cons, declarators_cons, declarator_append word fresh one]
    cases read : declarator .finished first tokens with
    | error => rfl
    | ok found =>
      cases found with
      | none => rfl
      | some found =>
        obtain ⟨exports, left⟩ := found
        cases left with
        -- the declarator has taken everything, and the appended `export` is no comma
        | nil => simp [Except.map, extend, bind, Except.bind, moreDeclarators, is_export word]
        | cons u later =>
          by_cases comma : u.is ',' = true
          · have next : declarators .finished (later ++ t :: rest) =
                (declarators .finished later).map (extend (t :: rest)) := by
              refine ih exports u later read ?_
              split at more
              next same =>
                cases read.symm.trans same
                rwa [comma, Bool.true_and] at more
              next other => exact absurd read (other exports u later)
            simp only [Except.map, Option.map_some, extend, bind, Except.bind, moreDeclarators,
              List.cons_append, comma, if_true, next]
            cases declarators .finished later <;> rfl
          · simp [Except.map, extend, bind, Except.bind, moreDeclarators, comma]

/-! Functions -/

theorem skipReturnType_seek_append {tokens tail : List Token}
    (ends : skipReturnType.seek tokens ≠ []) :
    skipReturnType.seek (tokens ++ tail) = skipReturnType.seek tokens ++ tail := by
  fun_induction skipReturnType.seek tokens with
  | case1 => exact absurd rfl ends
  | case2 u tokens stops => simp [skipReturnType.seek, stops]
  | case3 u tokens goes ih => simp [skipReturnType.seek, goes, ih ends]

theorem skipReturnType_append (word : t.isWord "export" = true) {tokens : List Token}
    (ends : tokens ≠ [] → skipReturnType tokens ≠ []) :
    skipReturnType (tokens ++ t :: rest) = skipReturnType tokens ++ t :: rest := by
  fun_cases skipReturnType tokens with
  | case1 => simp [skipReturnType, is_export word]
  | case2 u colon =>
    rw [skipReturnType, if_pos colon] at ends
    -- behind a colon there must be a type, else the return type is open
    exact absurd rfl (ends (by simp))
  | case3 u colon v later curly =>
    rw [skipReturnType, if_pos colon] at ends
    simp only [curly, if_true] at ends
    simp [skipReturnType, colon, curly, skipReturnType_seek_append (ends (by simp))]
  | case4 u colon v later other =>
    rw [skipReturnType, if_pos colon] at ends
    simp only [other, if_false] at ends
    -- a body or a semicolon was found inside the list, so the search stops there again
    have next : skipReturnType.seek (v :: later ++ t :: rest) =
        skipReturnType.seek (v :: later) ++ t :: rest :=
      skipReturnType_seek_append (ends (by simp))
    rw [List.cons_append] at next
    simp [skipReturnType, colon, other, next]
  | case5 u later other => simp [skipReturnType, other]

theorem before_append (all after tail : List Token) :
    Token.before (all ++ tail) (after ++ tail) = Token.before all after := by
  have length : (all ++ tail).length - (after ++ tail).length = all.length - after.length := by
    simp only [List.length_append]
    omega
  rw [Token.before, Token.before, length, List.take_append_of_le_length (Nat.sub_le _ _)]

theorem signatureExport_append (word : t.isWord "export" = true) {all tokens : List Token}
    {name : Token} (closed : opensReturnType tokens = false) :
    signatureExport (all ++ t :: rest) name (tokens ++ t :: rest) =
      extend (t :: rest) (signatureExport all name tokens) := by
  cases tokens with
  | nil => cases closed
  | cons u later =>
    simp only [List.cons_append, signatureExport]
    by_cases round : u.group? = some .round
    · have returns : skipReturnType (later ++ t :: rest) = skipReturnType later ++ t :: rest := by
        refine skipReturnType_append word fun some none => ?_
        simp [opensReturnType, round, some, none] at closed
      simp only [if_pos round, returns]
      cases skipReturnType later with
      | nil => simp [group?_export word, extend]
      | cons body after =>
        simp only [List.cons_append, before_append]
        split <;> rfl
    · simp [if_neg round, extend]

theorem functionExport_append (word : t.isWord "export" = true) {all tokens : List Token}
    (closed : opensFunction tokens = false) :
    functionExport (all ++ t :: rest) (tokens ++ t :: rest) =
      extend (t :: rest) (functionExport all tokens) := by
  rw [opensFunction] at closed
  rw [functionExport_eq, functionExport_eq, skipMark_append word]
  cases starred : skipMark '*' tokens with
  -- without a name behind it the keyword is open
  | nil =>
    rw [starred] at closed
    cases closed
  | cons name later =>
    simp only [starred, List.cons_append] at closed ⊢
    by_cases named : name.word?.isSome = true
    · simp only [named, Bool.true_and, if_true] at closed ⊢
      cases later with
      | nil =>
        simp [afterTypeParameters, is_export word, signatureExport, group?_export word, extend]
      | cons u more =>
        rw [List.isEmpty_cons, Bool.not_false, Bool.true_and] at closed
        -- type parameters that are closed are left at the same place
        have parameters : afterTypeParameters (u :: more ++ t :: rest) =
            afterTypeParameters (u :: more) ++ t :: rest := by
          simp only [List.cons_append, afterTypeParameters] at closed ⊢
          split
          next angle =>
            have ends : skipTypeParameters 0 (u :: more) ≠ [] := fun none => ?_
            · exact skipTypeParameters_append ends
            rw [if_pos angle, none] at closed
            cases closed
          · rfl
        rw [parameters, signatureExport_append word closed]
    · simp [named, extend]

/-! Clauses -/

theorem originClause?_append (word : t.isWord "export" = true) (tokens : List Token) :
    originClause? (tokens ++ t :: rest) = (originClause? tokens).map (extend (t :: rest)) := by
  match tokens with
  | [] => cases rest <;> simp [originClause?, isWord_export word (show _ ≠ "from".toList by decide)]
  | [u] => simp [originClause?, Token.isQuoted, first_export word]
  | u :: v :: tokens =>
    simp only [List.cons_append, originClause?]
    split <;> rfl

theorem exportClause_append (word : t.isWord "export" = true) (fresh : t.freshLine = true)
    {tokens : List Token} (closed : opensClause tokens = false) :
    exportClause .finished (tokens ++ t :: rest) =
      (exportClause .finished tokens).map (extend (t :: rest)) := by
  cases tokens with
  -- an `export` alone: the appended one is no keyword that could continue it
  | nil =>
    have no (other : String) (differs : "export".toList ≠ other.toList) : t.isWord other = false :=
      isWord_export word differs
    simp only [List.nil_append, exportClause]
    rw [if_neg (by rw [group?_export word]; decide), no "const" (by decide), no "let" (by decide),
      no "var" (by decide), no "function" (by decide), no "async" (by decide)]
    rfl
  | cons first tokens =>
    simp only [List.cons_append, exportClause]
    rw [opensClause] at closed
    split
    -- a list of names, whose clause `from` ends before the appended tokens
    · rw [originClause?_append word]
      cases originClause? tokens with
      | none =>
        simp only [Option.map_none]
        cases listExports first.line first.interior none <;> rfl
      | some clause =>
        simp only [Option.map_some, extend]
        cases listExports first.line first.interior (some clause.1) <;> rfl
    -- a declaring keyword, `function`, `async function`, or nothing that is read
    · split
      next declares =>
        rw [if_pos declares] at closed
        exact declarators_append word fresh closed
      next declares =>
        rw [if_neg declares] at closed
        split
        next function =>
          rw [if_pos function] at closed
          have read : functionExport (first :: tokens ++ t :: rest) (tokens ++ t :: rest) =
              extend (t :: rest) (functionExport (first :: tokens) tokens) :=
            functionExport_append word closed
          rw [List.cons_append] at read
          rw [read]
          rfl
        next function =>
          rw [if_neg function] at closed
          split
          next async =>
            cases tokens with
            | nil =>
              simp only [List.nil_append]
              rw [isWord_export word (show _ ≠ "function".toList by decide)]
              rfl
            | cons u later =>
              simp only [List.cons_append]
              split
              next function =>
                rw [async, List.head?_cons, Option.any_some, function, Bool.true_and,
                  Bool.true_and, List.tail_cons] at closed
                have read : functionExport (first :: u :: later ++ t :: rest) (later ++ t :: rest) =
                    extend (t :: rest) (functionExport (first :: u :: later) later) :=
                  functionExport_append word closed
                rw [List.cons_append, List.cons_append] at read
                rw [read]
                rfl
              · rfl
          · rfl

theorem afterClause_append (word : t.isWord "export" = true) (fresh : t.freshLine = true)
    {clause : List Token} (closed : opensClause clause = false)
    (read : ∃ found, exportClause .finished (clause ++ t :: rest) = .ok found) :
    afterClause .finished (clause ++ t :: rest) = afterClause .finished clause ++ t :: rest := by
  rw [exportClause_append word fresh closed] at read
  rw [afterClause, afterClause, exportClause_append word fresh closed]
  cases outcome : exportClause .finished clause with
  | error imbalance =>
    rw [outcome] at read
    obtain ⟨_, failed⟩ := read
    cases failed
  | ok found => rfl

/-- What remains ends as the tokens do. -/
theorem Remains.getLast?_first {later tokens : List Token} (remains : Remains later tokens)
    (some : later ≠ []) : later.getLast?.map Token.first = tokens.getLast?.map Token.first := by
  obtain ⟨front, kept, rfl, same⟩ := remains
  cases same with
  | same => rw [List.getLast?_append_of_ne_nil front some]
  | bare u others =>
    rw [List.getLast?_append_of_ne_nil front (List.cons_ne_nil u others)]
    simp only [List.getLast?_cons, Option.map_some]
    cases others.getLast? <;> rfl

/-- The clause behind an `export` on a fresh line is read if no clause in front of it is open. -/
theorem mem_clausesFrom {previous : Char} {before : List Token} (word : t.isWord "export" = true)
    (fresh : t.freshLine = true)
    (free : (before.getLast?.map Token.first).getD previous ≠ '.')
    (closed : ∀ clause ∈ clausesFrom .finished previous before, opensClause clause = false)
    (read : ∀ clause ∈ clausesFrom .finished previous (before ++ t :: rest),
      ∃ found, exportClause .finished clause = .ok found) :
    rest ∈ clausesFrom .finished previous (before ++ t :: rest) := by
  fun_induction clausesFrom .finished previous before with
  | case1 previous =>
    rw [List.nil_append, clausesFrom, if_pos (by simpa [word] using free)]
    exact List.mem_cons_self
  | case2 previous u before exported ih =>
    rw [List.cons_append, clausesFrom, if_pos exported] at read ⊢
    obtain ⟨first, later⟩ := List.forall_mem_cons.mp closed
    obtain ⟨one, more⟩ := List.forall_mem_cons.mp read
    rw [afterClause_append word fresh first one] at more ⊢
    refine List.mem_cons_of_mem _ (ih ?_ later more)
    -- a dot in front of the `export` is left by the clause too, unless it leaves nothing
    by_cases left : afterClause .finished before = []
    · rw [left]
      decide
    · have same := (afterClause_remains .finished before).getLast?_first left
      rw [List.getLast?_eq_some_getLast left] at same
      rw [List.getLast?_eq_some_getLast left, same]
      cases last : before.getLast? with
      | none => simp [last] at same
      | some p => simpa [List.getLast?_cons, last] using free
  | case3 previous u before other ih =>
    rw [List.cons_append, clausesFrom, if_neg other] at read ⊢
    refine ih ?_ closed read
    cases last : before.getLast? <;> simpa [List.getLast?_cons, last] using free

end

/-! What extraction finds -/

/-- A token that starts with a dot is a dot. -/
theorem is_dot_of_first {text : List Char} {t : Token} (member : t ∈ (scan text).tokens)
    (dot : t.first = '.') : t.is '.' = true := by
  obtain ⟨here, next, skipped, split⟩ := Cursor.exists_skipToken member
  cases shown : t.text with
  | nil =>
    rw [Token.first, shown] at dot
    cases dot
  | cons c rest =>
    rw [Token.first, shown] at dot
    obtain rfl : c = '.' := dot
    have lexes :
        Lexes here.regexOk (punctuation '.') ['.'] (rest ++ next.rest) (regexMayFollow '.') :=
      .mark (by decide) (by decide) (by decide) fun slash => absurd slash (by decide)
    rw [shown] at split
    rw [Cursor.skipToken, Cursor.lexeme?_of_lexes lexes split] at skipped
    have left := congrArg Cursor.rest (Except.ok.inj skipped)
    have none : rest = [] := List.append_left_eq_self.mp left
    rw [Token.is, shown, none]
    rfl

/-- What a clause exports is found. -/
theorem mem_of_extract {text : List Char} {exports : List Export}
    (read : extract text = .ok exports) {clause : List Token} (member : clause ∈ clauses text) :
    ∃ found, clauseExports (scan text).stop clause = .ok found ∧ ∀ e ∈ found, e ∈ exports := by
  rw [extract_eq, exportsFrom_eq] at read
  obtain ⟨lists, each, ended⟩ := bind_eq_ok.mp read
  obtain ⟨found, listed, one⟩ := exists_mem_of_forall₂ (mapM_eq_ok_iff.mp each) member
  refine ⟨found, one, fun e inside => ?_⟩
  rw [atStop] at ended
  split at ended
  · cases ended
    exact List.mem_flatten.mpr ⟨found, listed, inside⟩
  · cases ended

theorem startsPattern_of_word {t : Token} (named : t.word?.isSome = true) :
    startsPattern t = false := by
  have starts : isWordStart t.first = true := by
    simpa [Token.word?] using named
  have none (bracket : Bracket) : t.group? ≠ some bracket := by
    intro group
    rw [Bracket.eq_opener_of_ofOpener? group] at starts
    cases bracket <;> cases starts
  simp [startsPattern, none]

theorem nameExport_name {stop : Stop} {name : Token} {rest later : List Token} {e : Export}
    (read : nameExport stop name rest = .ok (e, later)) :
    e.name = String.ofList name.text ∧ e.line = name.line := by
  obtain ⟨⟨typed, middle⟩, -, read⟩ := bind_eq_ok.mp read
  simp only at read
  split at read
  · obtain ⟨_, -, same⟩ := bind_eq_ok.mp read
    cases same
    exact ⟨rfl, rfl⟩
  · cases read
    exact ⟨rfl, rfl⟩

theorem moreDeclarators_keeps {stop : Stop} {first read : List Export × List Token}
    (done : moreDeclarators stop first = .ok read) : ∀ e ∈ first.1, e ∈ read.1 := by
  intro e member
  rw [moreDeclarators] at done
  split at done
  · cases done
    exact member
  · split at done
    · obtain ⟨more, -, same⟩ := bind_eq_ok.mp done
      cases same
      exact List.mem_append_left _ member
    · cases done
      exact member

/-- The first name of a declaration is exported. -/
theorem clauseExports_declared {stop : Stop} {keyword name : Token} {after : List Token}
    {found : List Export}
    (declares : (keyword.isWord "const" || keyword.isWord "let" || keyword.isWord "var") = true)
    (named : name.word?.isSome = true)
    (read : clauseExports stop (keyword :: name :: after) = .ok found) :
    ∃ e ∈ found, e.name = String.ofList name.text ∧ e.line = name.line := by
  have noPattern := startsPattern_of_word named
  rw [startsPattern] at noPattern
  rw [clauseExports, exportClause_declares declares, declarators_cons, declarator, noPattern,
    if_neg (by decide), if_pos named] at read
  cases one : nameExport stop name after with
  | error => simp [one, bind, Except.bind, Except.map] at read
  | ok first =>
    obtain ⟨e, later⟩ := first
    rw [one] at read
    -- the exports of the first declarator are among those of the whole list
    change (moreDeclarators stop ([e], later)).map Prod.fst = .ok found at read
    cases done : moreDeclarators stop ([e], later) with
    | error =>
      rw [done] at read
      cases read
    | ok all =>
      rw [done] at read
      cases read
      exact ⟨e, moreDeclarators_keeps done e List.mem_cons_self, nameExport_name one⟩

/-- An exported declaration that starts a line is found, if no clause in front of it is open. -/
theorem extract_keeps_export {text : List Char} {exports : List Export} {before after : List Token}
    {t keyword name : Token} (read : extract text = .ok exports)
    (tokens : (scan text).tokens = before ++ t :: keyword :: name :: after)
    (word : t.isWord "export" = true) (fresh : before = [] ∨ t.freshLine = true)
    (free : ∀ p ∈ before.getLast?, p.is '.' = false)
    (declares : (keyword.isWord "const" || keyword.isWord "let" || keyword.isWord "var") = true)
    (named : name.word?.isSome = true)
    (closed : ∀ clause ∈ clausesFrom .finished ';' before, opensClause clause = false) :
    ∃ e ∈ exports, e.name = String.ofList name.text ∧ e.line = name.line := by
  obtain ⟨balanced, fine⟩ := exists_extract_eq_ok_iff.mp ⟨exports, read⟩
  have stop : (scan text).stop = .finished := by
    cases outcome : (scan text).stop <;> rw [outcome] at balanced <;> first | rfl | cases balanced
  -- the clause behind the `export` is one of those that are read: no clause before it swallows it
  have member : keyword :: name :: after ∈ clauses text := by
    rw [clauses, stop, tokens] at fine ⊢
    rcases fresh with rfl | fresh
    · rw [List.nil_append, clausesFrom, if_pos (by simp [word])]
      exact List.mem_cons_self
    · refine mem_clausesFrom word fresh ?_ closed fun clause inside => ?_
      -- in front of the word there is no dot, so it is not a member's name
      · cases last : before.getLast? with
        | none => decide
        | some p =>
          intro dot
          have shown : p ∈ (scan text).tokens := by
            rw [tokens]
            exact List.mem_append_left _ (List.mem_of_getLast? last)
          have isDot := is_dot_of_first shown dot
          rw [free p last] at isDot
          cases isDot
      · obtain ⟨found, one⟩ := fine clause inside
        rw [clauseExports] at one
        cases outcome : exportClause .finished clause with
        | error =>
          rw [outcome] at one
          cases one
        | ok read => exact ⟨read, rfl⟩
  obtain ⟨found, one, inside⟩ := mem_of_extract read member
  obtain ⟨e, listed, same⟩ := clauseExports_declared declares named one
  exact ⟨e, inside e listed, same⟩

/-- A call ends the line in front of an `export`. -/
def unended : List Char :=
  "export const a = f()\nexport const b = 1".toList

theorem extract_keeps_export_unended :
    ∃ exports, extract unended = .ok exports ∧ ∃ e ∈ exports, e.name = "b" ∧ e.line = 2 := by
  have read : extract unended = .ok
      [{ name := "a", kind := .value, line := 1, source := some "f()" },
        { name := "b", kind := .value, line := 2, source := some "1" }] := by
    decide +kernel
  have tokens : (scan unended).tokens =
      [⟨[], "export".toList, 1⟩, ⟨[' '], "const".toList, 1⟩, ⟨[' '], ['a'], 1⟩, ⟨[' '], ['='], 1⟩,
        ⟨[' '], ['f'], 1⟩, ⟨[], ['(', ')'], 1⟩] ++
      ⟨['\n'], "export".toList, 2⟩ :: ⟨[' '], "const".toList, 2⟩ :: ⟨[' '], ['b'], 2⟩ ::
        [⟨[' '], ['='], 2⟩, ⟨[' '], ['1'], 2⟩] := by
    decide +kernel
  exact ⟨_, read, extract_keeps_export read tokens (by decide) (Or.inr (by decide)) (by decide)
    (by decide) (by decide) (by decide +kernel)⟩

/-- A `!` ends the line in front of an `export`. -/
def openEnded : List Char :=
  "export const a = b!\nexport const c = 1".toList

theorem extract_loses_export_openEnded :
    (∃ before t keyword name after,
      (scan openEnded).tokens = before ++ t :: keyword :: name :: after ∧
      t.isWord "export" = true ∧ t.freshLine = true ∧ (∀ p ∈ before.getLast?, p.is '.' = false) ∧
      keyword.isWord "const" = true ∧ name.is 'c' = true ∧ name.line = 2) ∧
    extract openEnded = .ok
      [{ name := "a", kind := .value, line := 1, source := some "b!\nexport const c = 1" }] := by
  have tokens : (scan openEnded).tokens =
      [⟨[], "export".toList, 1⟩, ⟨[' '], "const".toList, 1⟩, ⟨[' '], ['a'], 1⟩, ⟨[' '], ['='], 1⟩,
        ⟨[' '], ['b'], 1⟩, ⟨[], ['!'], 1⟩] ++
      ⟨['\n'], "export".toList, 2⟩ :: ⟨[' '], "const".toList, 2⟩ :: ⟨[' '], ['c'], 2⟩ ::
        [⟨[' '], ['='], 2⟩, ⟨[' '], ['1'], 2⟩] := by
    decide +kernel
  exact ⟨⟨_, _, _, _, _, tokens, by decide, by decide, by decide, by decide, by decide, rfl⟩,
    by decide +kernel⟩

end Concord.Export
