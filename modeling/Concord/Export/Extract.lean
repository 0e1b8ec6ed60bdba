import Concord.Export.Basic
import Concord.Export.Binding
import Concord.Export.Expression

/-!
The exports of a script, read with a cursor and without a grammar: declarators, destructuring
patterns, function declarations and re-export lists. Any other statement is stepped over token by
token. Reading gives up at the first imbalance it comes to.
-/
namespace Concord.Export

open Concord.Scan Concord.Text

/-! Re-export lists -/

/-- Local and exported name of a list entry. Type-only entries and anything else export nothing. -/
def listItem? (entry : List Char) : Option (List Char × List Char) :=
  match words entry with
  | [name] => if name = "type".toList then none else some (name, name)
  | [name, keyword, given] =>
    if name ≠ "type".toList && keyword = "as".toList then some (name, given) else none
  | _ => none

/-- The exports of a list group that opens on `line`. -/
def listExports (line : Nat) (body : List Char) (origin : Option (List Char)) :
    Except Imbalance (List Export) := do
  let pieces ← split ',' body
  return pieces.filterMap fun piece =>
    (listItem? piece.text).map fun (target, name) =>
      { name := String.ofList name
        kind := .reExport
        line := line + breaksBefore body (piece.offset + byteSize (indent piece.text))
        target := some (String.ofList target)
        origin := origin.map String.ofList }

namespace Reader

/-- The module named by `from` at the cursor, and the cursor behind it. What is no such clause is
not stepped over. -/
def originClause (c : Cursor) : Except Imbalance (Option (List Char) × Cursor) := do
  match (← c.pastTrivia).word? with
  | none => return (none, c)
  | some (word, next) =>
    if word = "from".toList then
      let quoted ← next.pastTrivia
      match quoted.peek? with
      | none => return (none, c)
      | some quote =>
        if quote = '\x27' || quote = '\x22' then
          let behind ← quoted.pastToken
          let literal := (quoted.upTo behind).tail
          return (some ((dropLastMark? quote literal).getD literal), behind)
        else return (none, c)
    else return (none, c)

/-- A list of names in braces, and the module they come from if one is named. -/
def reexports (c : Cursor) : Except Imbalance (List Export × Cursor) := do
  let behind ← c.pastGroup
  let found ← listExports c.line (c.upTo behind).tail.dropLast none
  let (origin, next) ← originClause behind
  return (found.map fun e => { e with origin := origin.map String.ofList }, next)

/-! Functions -/

/-- The body of a function or the end of its signature. -/
def opensBody (c : Cursor) : Bool :=
  c.peek? = some '\x7b' || c.peek? = some ';'

/-- Steps over a return type, if there is one. One that is an object type is itself a curly
group. -/
def pastReturnType (c : Cursor) : Except Imbalance Cursor := do
  let here ← c.pastTrivia
  match here.eat? ':' with
  | none => return here
  | some typed =>
    let type ← typed.pastTrivia
    if type.peek? = some '\x7b' then (← type.pastGroup).skipTo opensBody else type.skipTo opensBody

/-- A function declaration behind its `function` keyword; its text starts at `start`. A signature
without a body exports nothing. -/
def functionExport (start c : Cursor) : Except Imbalance (List Export × Cursor) := do
  let named ← ((← c.pastTrivia).dropMark '*').pastTrivia
  match named.word? with
  | none => return ([], named)
  | some (name, next) =>
    let parameters ← pastTypeParameters (← next.pastTrivia)
    if parameters.peek? = some '(' then
      let body ← pastReturnType (← parameters.pastGroup)
      if body.peek? = some '\x7b' then
        let behind ← body.pastGroup
        return ([{ name := String.ofList name, kind := .function, line := named.line
                   source := some (String.ofList (start.upTo behind)) }], behind)
      else return ([], body)
    else return ([], parameters)

/-! Declarators -/

/-- Steps over the type behind a `:`, if there is one, and tells whether there is. -/
def typeClause (c : Cursor) : Except Imbalance (Bool × Cursor) := do
  let here ← c.pastTrivia
  match here.eat? ':' with
  | none => return (false, here)
  | some typed => return (true, ← (← skipType 0 typed).pastTrivia)

/-- The initializer behind an `=`, if there is one. -/
def initializer? (c : Cursor) : Except Imbalance (Option (List Char) × Cursor) :=
  match c.eat? '=' with
  | none => .ok (none, c)
  | some next => (initializer next).map fun (source, behind) => (some source, behind)

/-- A pattern declarator, whose pattern is the group at the cursor. -/
def patternExports (c : Cursor) : Except Imbalance (List Export × Cursor) := do
  let behind ← c.pastGroup
  let (typed, clause) ← typeClause behind
  let (source, next) ← initializer? clause
  let found ← bindings (c.peek? = some '\x7b') c.line (c.upTo behind).tail.dropLast
  let kind := if typed then Kind.destructuredTyped else .value
  return (found.map fun binding =>
    { name := String.ofList binding.name, kind := kind, line := binding.line
      source := source.map String.ofList }, next)

/-- A declarator of one name, which stands on `line`, behind the name. An `=` that is doubled
starts no initializer. -/
def nameExport (name : List Char) (line : Nat) (c : Cursor) :
    Except Imbalance (Export × Cursor) := do
  let (_, clause) ← typeClause ((← c.pastTrivia).dropMark '!')
  if (clause.eat? '=').any fun next => next.peek? = some '=' then
    return ({ name := String.ofList name, kind := .value, line := line }, clause)
  else
    let (source, next) ← initializer? clause
    let kind := if source.any isFunction then Kind.function else .value
    return ({ name := String.ofList name, kind := kind, line := line
              source := source.map String.ofList }, next)

/-- One declarator, if there is one. -/
def declarator (c : Cursor) : Except Imbalance (Option (List Export × Cursor)) :=
  if c.peek? = some '\x7b' || c.peek? = some '[' then (patternExports c).map some
  else
    match c.word? with
    | none => .ok none
    | some (name, next) =>
      (nameExport name c.line next).map fun (found, behind) => some ([found], behind)

/-! What is read is what was in front of the cursor -/

theorem pastTypeParameters_reaches {c later : Cursor} (passed : pastTypeParameters c = .ok later) :
    Reaches c later := by
  rw [pastTypeParameters] at passed
  split at passed
  · obtain ⟨closed, skipped, trivia⟩ := bind_eq_ok.mp passed
    exact (skipTypeParameters_reaches skipped).trans (Cursor.pastTrivia_reaches trivia)
  · cases passed
    exact .refl _

theorem originClause_reaches {c later : Cursor} {origin : Option (List Char)}
    (read : originClause c = .ok (origin, later)) : Reaches c later := by
  obtain ⟨here, trivia, read⟩ := bind_eq_ok.mp read
  split at read
  · cases read
    exact .refl c
  next word next named =>
    split at read
    · obtain ⟨quoted, space, read⟩ := bind_eq_ok.mp read
      split at read
      · cases read
        exact .refl c
      · split at read
        · obtain ⟨behind, token, read⟩ := bind_eq_ok.mp read
          cases read
          exact (((Cursor.pastTrivia_reaches trivia).trans (Cursor.word?_reaches named)).trans
            (Cursor.pastTrivia_reaches space)).trans (Cursor.pastToken_reaches token)
        · cases read
          exact .refl c
    · cases read
      exact .refl c

theorem reexports_reaches {c later : Cursor} {found : List Export}
    (read : reexports c = .ok (found, later)) : Reaches c later := by
  obtain ⟨behind, group, read⟩ := bind_eq_ok.mp read
  obtain ⟨listed, -, read⟩ := bind_eq_ok.mp read
  obtain ⟨⟨origin, next⟩, clause, read⟩ := bind_eq_ok.mp read
  cases read
  exact (Cursor.pastGroup_reaches group).trans (originClause_reaches clause)

theorem pastReturnType_reaches {c later : Cursor} (passed : pastReturnType c = .ok later) :
    Reaches c later := by
  obtain ⟨here, trivia, passed⟩ := bind_eq_ok.mp passed
  have first := Cursor.pastTrivia_reaches trivia
  split at passed
  · cases passed
    exact first
  next typed colon =>
    obtain ⟨type, space, passed⟩ := bind_eq_ok.mp passed
    have second := (first.trans (Cursor.eat?_reaches colon)).trans (Cursor.pastTrivia_reaches space)
    split at passed
    · obtain ⟨behind, group, passed⟩ := bind_eq_ok.mp passed
      exact (second.trans (Cursor.pastGroup_reaches group)).trans (Cursor.skipTo_reaches passed)
    · exact second.trans (Cursor.skipTo_reaches passed)

theorem functionExport_reaches {start c later : Cursor} {found : List Export}
    (read : functionExport start c = .ok (found, later)) : Reaches c later := by
  obtain ⟨here, trivia, read⟩ := bind_eq_ok.mp read
  obtain ⟨named, space, read⟩ := bind_eq_ok.mp read
  have first := ((Cursor.pastTrivia_reaches trivia).trans (Cursor.dropMark_reaches here '*')).trans
    (Cursor.pastTrivia_reaches space)
  split at read
  · cases read
    exact first
  next name next word =>
    obtain ⟨behind, lead, read⟩ := bind_eq_ok.mp read
    obtain ⟨parameters, angles, read⟩ := bind_eq_ok.mp read
    have second := ((first.trans (Cursor.word?_reaches word)).trans
      (Cursor.pastTrivia_reaches lead)).trans (pastTypeParameters_reaches angles)
    split at read
    · obtain ⟨closed, group, read⟩ := bind_eq_ok.mp read
      obtain ⟨body, returned, read⟩ := bind_eq_ok.mp read
      have third := (second.trans (Cursor.pastGroup_reaches group)).trans
        (pastReturnType_reaches returned)
      split at read
      · obtain ⟨last, curly, read⟩ := bind_eq_ok.mp read
        cases read
        exact third.trans (Cursor.pastGroup_reaches curly)
      · cases read
        exact third
    · cases read
      exact second

theorem typeClause_reaches {c later : Cursor} {typed : Bool}
    (read : typeClause c = .ok (typed, later)) : Reaches c later := by
  obtain ⟨here, trivia, read⟩ := bind_eq_ok.mp read
  have first := Cursor.pastTrivia_reaches trivia
  split at read
  · cases read
    exact first
  next behind colon =>
    obtain ⟨ended, skipped, read⟩ := bind_eq_ok.mp read
    obtain ⟨last, space, read⟩ := bind_eq_ok.mp read
    cases read
    exact ((first.trans (Cursor.eat?_reaches colon)).trans (skipType_reaches skipped)).trans
      (Cursor.pastTrivia_reaches space)

theorem initializer?_reaches {c later : Cursor} {source : Option (List Char)}
    (read : initializer? c = .ok (source, later)) : Reaches c later := by
  rw [initializer?] at read
  split at read
  · cases read
    exact .refl c
  next next equals =>
    obtain ⟨⟨text, behind⟩, value, same⟩ := map_eq_ok.mp read
    cases same
    obtain ⟨start, trivia, value⟩ := bind_eq_ok.mp value
    exact ((Cursor.eat?_reaches equals).trans (Cursor.pastTrivia_reaches trivia)).trans
      (expressionFrom_reaches value)

theorem declarator_reaches {c later : Cursor} {found : List Export}
    (read : declarator c = .ok (some (found, later))) : Reaches c later := by
  rw [declarator] at read
  split at read
  · obtain ⟨⟨exports, next⟩, pattern, same⟩ := map_eq_ok.mp read
    cases same
    obtain ⟨behind, group, pattern⟩ := bind_eq_ok.mp pattern
    obtain ⟨⟨typed, clause⟩, type, pattern⟩ := bind_eq_ok.mp pattern
    obtain ⟨⟨source, next⟩, value, pattern⟩ := bind_eq_ok.mp pattern
    obtain ⟨_, -, pattern⟩ := bind_eq_ok.mp pattern
    cases pattern
    exact ((Cursor.pastGroup_reaches group).trans (typeClause_reaches type)).trans
      (initializer?_reaches value)
  · split at read
    · cases read
    next name next word =>
      obtain ⟨⟨one, behind⟩, named, same⟩ := map_eq_ok.mp read
      cases same
      obtain ⟨here, trivia, named⟩ := bind_eq_ok.mp named
      obtain ⟨⟨typed, clause⟩, type, named⟩ := bind_eq_ok.mp named
      have first := (((Cursor.word?_reaches word).trans (Cursor.pastTrivia_reaches trivia)).trans
        (Cursor.dropMark_reaches here '!')).trans (typeClause_reaches type)
      simp only at named
      split at named
      · cases named
        exact first
      · obtain ⟨⟨source, next⟩, value, named⟩ := bind_eq_ok.mp named
        cases named
        exact first.trans (initializer?_reaches value)

/-- A list of declarators, up to one that is not followed by a comma. -/
def declarators (c : Cursor) : Except Imbalance (List Export × Cursor) :=
  match _trivia : c.pastTrivia with
  | .error imbalance => .error imbalance
  | .ok here =>
    match _read : declarator here with
    | .error imbalance => .error imbalance
    | .ok none => .ok ([], here)
    | .ok (some (found, next)) =>
      match _space : next.pastTrivia with
      | .error imbalance => .error imbalance
      | .ok behind =>
        match _comma : behind.eat? ',' with
        | none => .ok (found, behind)
        | some more => do
          let (others, last) ← declarators more
          return (found ++ others, last)
  termination_by c.rest.length
  decreasing_by
    exact Nat.lt_of_lt_of_le (Cursor.eat?_length_lt _comma)
      (((Cursor.pastTrivia_reaches _trivia).trans (declarator_reaches _read)).trans
        (Cursor.pastTrivia_reaches _space)).length_le

theorem declarators_reaches {c later : Cursor} {found : List Export}
    (read : declarators c = .ok (found, later)) : Reaches c later := by
  fun_induction declarators c generalizing found with
  | case1 | case2 | case4 => cases read
  | case3 c here trivia =>
    cases read
    exact Cursor.pastTrivia_reaches trivia
  | case5 c here trivia first next one behind space =>
    cases read
    exact ((Cursor.pastTrivia_reaches trivia).trans (declarator_reaches one)).trans
      (Cursor.pastTrivia_reaches space)
  | case6 c here trivia first next one behind space more comma ih =>
    obtain ⟨⟨others, last⟩, rest, read⟩ := bind_eq_ok.mp read
    cases read
    exact ((((Cursor.pastTrivia_reaches trivia).trans (declarator_reaches one)).trans
      (Cursor.pastTrivia_reaches space)).trans (Cursor.eat?_reaches comma)).trans (ih rest)

/-! Statements -/

/-- What stands behind an `export` keyword. -/
def exportClause (c : Cursor) : Except Imbalance (List Export × Cursor) := do
  let here ← c.pastTrivia
  if here.peek? = some '\x7b' then reexports here
  else
    match here.word? with
    | none => return ([], here)
    | some (word, next) =>
      if word = "const".toList || word = "let".toList || word = "var".toList then declarators next
      else if word = "function".toList then functionExport here next
      else if word = "async".toList then
        match (← next.pastTrivia).word? with
        | none => return ([], here)
        | some (word, later) =>
          if word = "function".toList then functionExport here later else return ([], here)
      else return ([], here)

theorem exportClause_reaches {c later : Cursor} {found : List Export}
    (read : exportClause c = .ok (found, later)) : Reaches c later := by
  obtain ⟨here, trivia, read⟩ := bind_eq_ok.mp read
  have first := Cursor.pastTrivia_reaches trivia
  split at read
  · exact first.trans (reexports_reaches read)
  · split at read
    · cases read
      exact first
    next word next keyword =>
      have second := first.trans (Cursor.word?_reaches keyword)
      split at read
      · exact second.trans (declarators_reaches read)
      · split at read
        · exact second.trans (functionExport_reaches read)
        · split at read
          · obtain ⟨behind, space, read⟩ := bind_eq_ok.mp read
            split at read
            · cases read
              exact first
            next word later found =>
              split at read
              · exact ((second.trans (Cursor.pastTrivia_reaches space)).trans
                  (Cursor.word?_reaches found)).trans (functionExport_reaches read)
              · cases read
                exact first
          · cases read
            exact first

/-- The exports from a statement on; `previous` is the first character of the token in front. An
`export` behind a dot is a member name. -/
def exportsFrom (previous : Char) (c : Cursor) : Except Imbalance (List Export) :=
  match _trivia : c.pastTrivia with
  | .error imbalance => .error imbalance
  | .ok here =>
    match _first : here.peek? with
    | none => .ok []
    | some first =>
      match _keyword : here.word?.filter fun found =>
          found.1 = "export".toList && previous ≠ '.' with
      | some (_, next) =>
        match _clause : exportClause next with
        | .error imbalance => .error imbalance
        | .ok (found, later) => do return found ++ (← exportsFrom ';' later)
      | none =>
        match _token : here.pastToken with
        | .error imbalance => .error imbalance
        | .ok next => exportsFrom first next
  termination_by c.rest.length
  decreasing_by
    · have named := (Option.filter_eq_some_iff.mp _keyword).1
      exact Nat.lt_of_le_of_lt (exportClause_reaches _clause).length_le
        (Nat.lt_of_lt_of_le (Cursor.word?_length_lt named)
          (Cursor.pastTrivia_reaches _trivia).length_le)
    · exact Nat.lt_of_lt_of_le (Cursor.pastToken_length_lt (Cursor.atEnd_of_peek? _first) _token)
        (Cursor.pastTrivia_reaches _trivia).length_le

end Reader

/-- The exports of a script in source order. -/
def extract (text : List Char) : Except Imbalance (List Export) :=
  Reader.exportsFrom ';' (Cursor.start text)

end Concord.Export
