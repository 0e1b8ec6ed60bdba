import Concord.Export.Extract
import Concord.Export.TokenList.Initializer

/-!
The exports of a script as a function of its depth-0 tokens and of how their scan stopped. The
tokens that stand behind an `export` are matched against the clauses, one after the other; what a
clause leaves is matched on. There is no cursor here, so a failure of the scan shows where the
tokens are used up.
-/
namespace Concord.Export

open Concord.Scan Concord.Text

/-- The tokens after an optional `mark`. -/
def skipMark (mark : Char) : List Token → List Token
  | [] => []
  | t :: rest => if t.is mark then rest else t :: rest

/-! Re-export lists -/

/-- The module named behind a list by `from`, and the tokens after it. -/
def originClause? : List Token → Option (List Char × List Token)
  | t :: u :: rest =>
    if t.isWord "from" && u.isQuoted then
      let literal := u.text.tail
      some ((dropLastMark? u.first literal).getD literal, rest)
    else none
  | _ => none

/-! Functions -/

/-- The tokens from the body of a function, after its parameters. A return type that is an object
type is itself a curly group. -/
def skipReturnType : List Token → List Token
  | [] => []
  | t :: rest =>
    if t.is ':' then
      match rest with
      | [] => []
      | u :: later => if u.group? = some .curly then seek later else seek (u :: later)
    else t :: rest
where
  seek : List Token → List Token
    | [] => []
    | t :: rest => if t.group? = some .curly || t.is ';' then t :: rest else seek rest

/-- A function declaration after its `function` keyword; `all` starts where its text starts. A
signature without a body exports nothing. -/
def functionExport (all tokens : List Token) : List Export × List Token :=
  match skipMark '*' tokens with
  | [] => ([], [])
  | name :: rest =>
    match name.word? with
    | none => ([], name :: rest)
    | some word =>
      let parameters :=
        match rest with
        | [] => []
        | t :: later => if t.is '<' then skipTypeParameters 0 (t :: later) else t :: later
      match parameters with
      | [] => ([], [])
      | t :: later =>
        if t.group? = some .round then
          match skipReturnType later with
          | [] => ([], [])
          | body :: after =>
            if body.group? = some .curly then
              let text := Token.span (Token.before all after)
              ([{ name := String.ofList word, kind := .function, line := name.line
                  source := some (String.ofList text) }], after)
            else ([], body :: after)
        else ([], t :: later)

/-! Declarators -/

/-- Raises the failure of the scan when reading came to it, unless `ends` says that reading ends in
front of a token that starts so. -/
def checkStop (stop : Stop) (rest : List Token) (ends : Char → Bool → Bool) :
    Except Imbalance Unit :=
  match rest, stop with
  | [], .openComment imbalance => .error imbalance
  | [], .blocked first freshLine imbalance =>
    if ends first freshLine then .ok () else .error imbalance
  | _, _ => .ok ()

/-- The type behind a `:`, if there is one: whether it is there, and the tokens after it. -/
def typeClause (stop : Stop) : List Token → Except Imbalance (Bool × List Token)
  | [] => do
    checkStop stop [] fun _ _ => true
    return (false, [])
  | t :: rest =>
    if t.is ':' then do
      let (angle, later) := skipType 0 rest
      checkStop stop later fun first _ => angle = 0 && (Bracket.ofCloser? first).isSome
      return (true, later)
    else .ok (false, t :: rest)

/-- The initializer behind an `=`, if there is one, and the tokens after it. -/
def initializer (stop : Stop) : List Token → Except Imbalance (Option (List Char) × List Token)
  | [] => .ok (none, [])
  | t :: rest =>
    if t.is '=' then do
      let (taken, later) := takeInitializer rest
      checkStop stop later fun first freshLine =>
        (Bracket.ofCloser? first).isSome
          || freshLine && taken.getLast?.any fun last => !continues (lastMark last) first none
      return (some (trim (Token.span taken)), later)
    else .ok (none, t :: rest)

/-- A pattern declarator, whose pattern is the group `pattern`. -/
def patternExports (stop : Stop) (pattern : Token) (rest : List Token) :
    Except Imbalance (List Export × List Token) := do
  let (typed, rest) ← typeClause stop rest
  let (source, rest) ← initializer stop rest
  let found ← bindings (pattern.group? = some .curly) pattern.line pattern.interior
  let kind := if typed then Kind.destructuredTyped else .value
  return (found.map fun binding =>
    { name := String.ofList binding.name, kind := kind, line := binding.line
      source := source.map String.ofList }, rest)

/-- An `=` that is not doubled. -/
def startsInitializer : List Token → Bool
  | [] => false
  | [t] => t.is '='
  | t :: u :: _ => t.is '=' && !u.isGlued '='

/-- A declarator of one name. -/
def nameExport (stop : Stop) (name : Token) (rest : List Token) :
    Except Imbalance (Export × List Token) := do
  let (_, rest) ← typeClause stop (skipMark '!' rest)
  if startsInitializer rest then
    let (source, rest) ← initializer stop rest
    let kind := if source.any isFunction then Kind.function else .value
    return ({ name := String.ofList name.text, kind := kind, line := name.line
              source := source.map String.ofList }, rest)
  else return ({ name := String.ofList name.text, kind := .value, line := name.line }, rest)

/-- One declarator, if there is one. -/
def declarator (stop : Stop) (t : Token) (rest : List Token) :
    Except Imbalance (Option (List Export × List Token)) :=
  if t.group? = some .curly || t.group? = some .square then do
    return some (← patternExports stop t rest)
  else if t.word?.isSome then do
    let (found, later) ← nameExport stop t rest
    return some ([found], later)
  else .ok none

theorem skipMark_length_le (mark : Char) (tokens : List Token) :
    (skipMark mark tokens).length ≤ tokens.length := by
  cases tokens with
  | nil => simp [skipMark]
  | cons t rest =>
    simp only [skipMark]
    split <;> simp

theorem typeClause_length_le {stop : Stop} {tokens later : List Token} {typed : Bool}
    (read : typeClause stop tokens = .ok (typed, later)) : later.length ≤ tokens.length := by
  cases tokens with
  | nil =>
    obtain ⟨_, -, read⟩ := bind_eq_ok.mp read
    cases read
    exact Nat.le_refl _
  | cons t rest =>
    simp only [typeClause] at read
    split at read
    · cases raised : checkStop stop (skipType 0 rest).2 fun first _ =>
          (skipType 0 rest).1 = 0 && (Bracket.ofCloser? first).isSome with
      | error => simp [raised, bind, Except.bind] at read
      | ok =>
        simp only [raised, bind, Except.bind, pure, Except.pure, Except.ok.injEq,
          Prod.mk.injEq] at read
        have := skipType_length_le 0 rest
        simp only [← read.2, List.length_cons]
        omega
    · simp only [Except.ok.injEq, Prod.mk.injEq] at read
      simp [← read.2]

theorem initializer_length_le {stop : Stop} {tokens later : List Token}
    {source : Option (List Char)} (read : initializer stop tokens = .ok (source, later)) :
    later.length ≤ tokens.length := by
  cases tokens with
  | nil =>
    simp only [initializer, Except.ok.injEq, Prod.mk.injEq] at read
    simp [← read.2]
  | cons t rest =>
    simp only [initializer] at read
    split at read
    · simp only [bind, Except.bind] at read
      split at read
      · simp at read
      · simp only [pure, Except.pure, Except.ok.injEq, Prod.mk.injEq] at read
        have := takeInitializer_length_le rest
        simp only [← read.2, List.length_cons]
        omega
    · simp only [Except.ok.injEq, Prod.mk.injEq] at read
      simp [← read.2]

theorem declarator_length_le {stop : Stop} {t : Token} {rest later : List Token}
    {found : List Export} (read : declarator stop t rest = .ok (some (found, later))) :
    later.length ≤ rest.length := by
  simp only [declarator] at read
  split at read
  · simp only [patternExports, bind, Except.bind, pure, Except.pure] at read
    cases clause : typeClause stop rest with
    | error => simp [clause] at read
    | ok typed =>
      cases value : initializer stop typed.2 with
      | error => simp [clause, value] at read
      | ok source =>
        simp only [clause, value] at read
        split at read
        · simp at read
        next outcome =>
          split at outcome
          · simp at outcome
          · simp only [Except.ok.injEq, Option.some.injEq] at read outcome
            simp only [← outcome, Prod.mk.injEq] at read
            have first := typeClause_length_le clause
            have second := initializer_length_le value
            rw [← read.2]
            omega
  · split at read
    · simp only [nameExport, bind, Except.bind, pure, Except.pure] at read
      have marked := skipMark_length_le '!' rest
      cases clause : typeClause stop (skipMark '!' rest) with
      | error => simp [clause] at read
      | ok typed =>
        have first := typeClause_length_le clause
        simp only [clause] at read
        split at read
        · simp at read
        next outcome =>
          simp only [Except.ok.injEq, Option.some.injEq, Prod.mk.injEq] at read
          split at outcome
          · cases value : initializer stop typed.2 with
            | error => simp [value] at outcome
            | ok source =>
              simp only [value, Except.ok.injEq] at outcome
              have second := initializer_length_le value
              rw [← read.2, ← outcome]
              simp only
              omega
          · simp only [Except.ok.injEq] at outcome
            rw [← read.2, ← outcome]
            simp only
            omega
    · simp at read

/-- A list of declarators, up to one that is not followed by a comma. -/
def declarators (stop : Stop) (tokens : List Token) :
    Except Imbalance (List Export × List Token) :=
  match tokens with
  | [] => .ok ([], [])
  | t :: rest =>
    match _read : declarator stop t rest with
    | .error imbalance => .error imbalance
    | .ok none => .ok ([], t :: rest)
    | .ok (some (found, [])) => .ok (found, [])
    | .ok (some (found, u :: later)) =>
      if u.is ',' then do
        let (more, last) ← declarators stop later
        return (found ++ more, last)
      else .ok (found, u :: later)
  termination_by tokens.length
  decreasing_by
    have := declarator_length_le _read
    simp only [List.length_cons] at this ⊢
    omega

/-- What follows a declarator. -/
def moreDeclarators (stop : Stop) (read : List Export × List Token) :
    Except Imbalance (List Export × List Token) :=
  match read.2 with
  | [] => .ok read
  | u :: later =>
    if u.is ',' then do
      let (more, last) ← declarators stop later
      return (read.1 ++ more, last)
    else .ok read

theorem declarators_cons (stop : Stop) (first : Token) (tokens : List Token) :
    declarators stop (first :: tokens) =
      (do
        match ← declarator stop first tokens with
        | none => return ([], first :: tokens)
        | some read => moreDeclarators stop read) := by
  rw [declarators]
  split
  next read => simp [read, bind, Except.bind]
  next read => simp [read, bind, Except.bind, pure, Except.pure]
  next read => simp [read, bind, Except.bind, moreDeclarators]
  next read => simp [read, bind, Except.bind, moreDeclarators]

/-! Statements -/

/-- What stands after an `export` keyword, and the tokens from where reading goes on. -/
def exportClause (stop : Stop) (tokens : List Token) :
    Except Imbalance (List Export × List Token) :=
  match tokens with
  | [] => .ok ([], [])
  | t :: rest =>
    if t.group? = some .curly then
      match originClause? rest with
      | some (origin, later) => do return (← listExports t.line t.interior (some origin), later)
      | none => do return (← listExports t.line t.interior none, rest)
    else if t.isWord "const" || t.isWord "let" || t.isWord "var" then declarators stop rest
    else if t.isWord "function" then .ok (functionExport tokens rest)
    else if t.isWord "async" then
      match rest with
      | u :: later =>
        if u.isWord "function" then .ok (functionExport tokens later) else .ok ([], tokens)
      | [] => .ok ([], tokens)
    else .ok ([], tokens)

theorem skipReturnType_seek_length_le (tokens : List Token) :
    (skipReturnType.seek tokens).length ≤ tokens.length := by
  fun_induction skipReturnType.seek tokens <;> simp_all
  omega

theorem skipReturnType_length_le (tokens : List Token) :
    (skipReturnType tokens).length ≤ tokens.length := by
  fun_cases skipReturnType tokens with
  | case1 => simp
  | case2 => simp
  | case3 t _ u later =>
    have := skipReturnType_seek_length_le later
    simp only [List.length_cons]
    omega
  | case4 t _ u later =>
    have := skipReturnType_seek_length_le (u :: later)
    simp only [List.length_cons] at this ⊢
    omega
  | case5 => simp

theorem functionExport_length_le (all tokens : List Token) :
    (functionExport all tokens).2.length ≤ tokens.length := by
  have marked := skipMark_length_le '*' tokens
  simp only [functionExport]
  split
  · simp
  next name rest starred =>
    rw [starred] at marked
    split
    · exact marked
    next word _ =>
      have parameters : (match rest with
          | [] => []
          | t :: later => if t.is '<' then skipTypeParameters 0 (t :: later) else t :: later).length
          ≤ rest.length := by
        split
        · simp
        · split
          · exact skipTypeParameters_length_le 0 _
          · exact Nat.le_refl _
      simp only [List.length_cons] at marked
      split
      · simp
      next t later found =>
        rw [found] at parameters
        simp only [List.length_cons] at parameters
        split
        · have returned := skipReturnType_length_le later
          split
          · simp
          next body after seen =>
            rw [seen] at returned
            simp only [List.length_cons] at returned
            split <;> simp only [List.length_cons] <;> omega
        · simp only [List.length_cons]
          omega

theorem declarators_length_le {stop : Stop} {tokens later : List Token} {found : List Export}
    (read : declarators stop tokens = .ok (found, later)) : later.length ≤ tokens.length := by
  fun_induction declarators stop tokens generalizing found with
  | case1 =>
    cases read
    simp
  | case2 => cases read
  | case3 =>
    cases read
    simp
  | case4 =>
    cases read
    simp
  | case5 t rest first u more one _ ih =>
    have shorter := declarator_length_le one
    cases h : declarators stop more with
    | error => simp [h, bind, Except.bind] at read
    | ok outcome =>
      obtain ⟨others, last⟩ := outcome
      simp only [h, bind, Except.bind, pure, Except.pure, Except.ok.injEq, Prod.mk.injEq] at read
      rw [read.2] at h
      have := ih h
      simp only [List.length_cons] at shorter ⊢
      omega
  | case6 t rest first u more one =>
    cases read
    have shorter := declarator_length_le one
    simp only [List.length_cons] at shorter ⊢
    omega

theorem originClause?_length_lt {tokens later : List Token} {origin : List Char}
    (read : originClause? tokens = some (origin, later)) : later.length < tokens.length := by
  simp only [originClause?] at read
  split at read
  · split at read
    · simp only [Option.some.injEq, Prod.mk.injEq] at read
      simp only [← read.2, List.length_cons]
      omega
    · simp at read
  · simp at read

theorem exportClause_length_le {stop : Stop} {tokens later : List Token} {found : List Export}
    (read : exportClause stop tokens = .ok (found, later)) : later.length ≤ tokens.length := by
  simp only [exportClause] at read
  split at read
  · cases read
    simp
  next t rest =>
    split at read
    · split at read
      next origin after clause =>
        have := originClause?_length_lt clause
        simp only [bind, Except.bind, pure, Except.pure] at read
        split at read
        · simp at read
        · simp only [Except.ok.injEq, Prod.mk.injEq] at read
          simp only [← read.2, List.length_cons]
          omega
      · simp only [bind, Except.bind, pure, Except.pure] at read
        split at read
        · simp at read
        · simp only [Except.ok.injEq, Prod.mk.injEq] at read
          simp [← read.2]
    · split at read
      · have := declarators_length_le read
        simp only [List.length_cons]
        omega
      · split at read
        · have := functionExport_length_le (t :: rest) rest
          simp only [Except.ok.injEq] at read
          simp only [read, List.length_cons] at this ⊢
          omega
        · split at read
          · split at read
            next u after =>
              split at read
              · have := functionExport_length_le (t :: u :: after) after
                simp only [Except.ok.injEq] at read
                simp only [read, List.length_cons] at this ⊢
                omega
              · cases read
                simp
            · cases read
              simp
          · cases read
            simp

/-- The exports from a statement on; `previous` is the first character of the token in front. An
`export` behind a dot is a member name. -/
def exportsFrom (stop : Stop) (previous : Char) (tokens : List Token) :
    Except Imbalance (List Export) :=
  match tokens with
  | [] =>
    match stop.imbalance? with
    | none => .ok []
    | some imbalance => .error imbalance
  | t :: rest =>
    if t.isWord "export" && previous ≠ '.' then
      match _read : exportClause stop rest with
      | .error imbalance => .error imbalance
      | .ok (found, later) => do return found ++ (← exportsFrom stop ';' later)
    else exportsFrom stop t.first rest
  termination_by tokens.length
  decreasing_by
    · have := exportClause_length_le _read
      simp only [List.length_cons]
      omega
    · simp

theorem exportsFrom_cons (stop : Stop) (previous : Char) (t : Token) (tokens : List Token) :
    exportsFrom stop previous (t :: tokens) =
      if t.isWord "export" && previous ≠ '.' then do
        let (found, later) ← exportClause stop tokens
        return found ++ (← exportsFrom stop ';' later)
      else exportsFrom stop t.first tokens := by
  rw [exportsFrom]
  split
  · split
    next read => rw [read]; rfl
    next read => rw [read]; rfl
  · rfl

end Concord.Export
