import Concord.Proofs.ReadExpressions

/-!
The exports that are read with a cursor are those that are matched among the tokens of the plain
scan, and reading fails as matching does. A reader raises an imbalance as soon as it comes to it; a
matcher that has used up the tokens goes on, and finds the same imbalance when it looks for the next
statement.
-/
namespace Concord.Export

open Concord.Scan Concord.Text

section

variable {origin start c here next : Cursor} {ahead rest : List Token} {t : Token}

theorem Agrees.bind {α β : Type} {place place' : Cursor → List Token → Prop}
    {read : Except Imbalance (α × Cursor)} {matched : Except Imbalance (α × List Token)}
    {f : α × Cursor → Except Imbalance (β × Cursor)}
    {g : α × List Token → Except Imbalance (β × List Token)} (agrees : Agrees place read matched)
    (further : ∀ a c later, place c later → Agrees place' (f (a, c)) (g (a, later))) :
    Agrees place' (read >>= f) (matched >>= g) := by
  cases agrees with
  | ok there => exact further _ _ _ there
  | error => exact .error

theorem Agrees.map {α β : Type} {place : Cursor → List Token → Prop}
    {read : Except Imbalance (α × Cursor)} {matched : Except Imbalance (α × List Token)}
    (agrees : Agrees place read matched) (f : α → β) :
    Agrees place (read.map (Prod.map f id)) (matched.map (Prod.map f id)) := by
  cases agrees with
  | ok there => exact .ok there
  | error => exact .error

theorem peek?_finished (ended : here.rest = []) : here.peek? = none := by
  rw [Cursor.peek?, ended]
  rfl

theorem eat?_finished (ended : here.rest = []) (mark : Char) : here.eat? mark = none := by
  rw [Cursor.eat?, ended]

theorem word?_finished (ended : here.rest = []) : here.word? = none := by
  rw [Cursor.word?, Cursor.lexeme?_eq_none_iff.mpr ended]

/-! Declarators -/

theorem dropMark_sees {mark : Char} (separates : isSeparator mark = true)
    (faces : origin.Faces here ahead) : origin.Sees (here.dropMark mark) (skipMark mark ahead) := by
  rw [Cursor.dropMark]
  cases faces.meets with
  | finished ended =>
    rw [eat?_finished ended]
    exact faces.sees
  | blocked blocked =>
    rw [blocked.eat? (isBarrier_of_isSeparator separates)]
    exact faces.sees
  | @token next t one later =>
    rw [one.eat? separates, skipMark]
    split
    · exact later
    · exact faces.sees

theorem skipTypeClause_agrees (sees : origin.Sees c ahead) :
    Agrees origin.Faces (do return (true, ← (← Reader.skipType 0 c).pastTrivia)) (do
      checkStop origin.scan.stop (skipType 0 ahead).2 (typeEnds (skipType 0 ahead).1)
      return (true, (skipType 0 ahead).2)) := by
  rcases @skipType_agrees origin c ahead 0 sees with ⟨here, read, faces, ends⟩ |
    ⟨imbalance, failed, raised⟩
  · simp only [read, ends, bind, Except.bind, faces.pastTrivia]
    exact .ok faces
  · simp only [failed, raised, bind, Except.bind]
    exact .error

theorem typeClause_agrees (sees : origin.Sees c ahead) :
    Agrees origin.Faces (Reader.typeClause c) (typeClause origin.scan.stop ahead) := by
  rw [Reader.typeClause]
  rcases sees.pastTrivia with ⟨here, passed, faces⟩ | ⟨imbalance, failed, rfl, stop⟩
  · simp only [passed, bind, Except.bind]
    cases faces.meets with
    -- at the end and where the reader is blocked there is no colon, and no token for the matcher
    | finished ended stop =>
      rw [eat?_finished ended, stop]
      exact .ok faces
    | blocked blocked stop =>
      rw [blocked.eat? (by decide), stop]
      exact .ok faces
    | @token next t one later =>
      rw [one.eat? (by decide), typeClause]
      -- without a colon nothing is taken, so the place stays
      by_cases typed : t.is ':' = true
      · rw [if_pos typed, if_pos typed]
        exact skipTypeClause_agrees later
      · rw [if_neg typed, if_neg typed]
        exact .ok faces
  · rw [failed, stop]
    exact .error

theorem initializer_cons (stop : Stop) (t : Token) (rest : List Token) :
    initializer stop (t :: rest) =
      if t.is '=' then
        (do
          checkStop stop (takeInitializer rest).2 (expressionEnds '=' (takeInitializer rest).1)
          return (trim (Token.span (takeInitializer rest).1), (takeInitializer rest).2)).map
          (Prod.map some id)
      else .ok (none, t :: rest) := by
  rw [initializer, expressionEnds_equals]
  split
  · simp only [bind, Except.bind]
    split <;> rfl
  · rfl

theorem initializer?_agrees (faces : origin.Faces here ahead) :
    Agrees origin.Sees (Reader.initializer? here) (initializer origin.scan.stop ahead) := by
  rw [Reader.initializer?]
  cases faces.meets with
  | finished ended =>
    rw [eat?_finished ended]
    exact .ok faces.sees
  | blocked blocked =>
    rw [blocked.eat? (by decide)]
    exact .ok faces.sees
  | @token next t one later =>
    rw [one.eat? (by decide), initializer_cons]
    by_cases equals : t.is '=' = true
    · rw [if_pos equals, if_pos equals]
      exact (initializer_agrees later).map some
    · rw [if_neg equals, if_neg equals]
      exact .ok faces.sees

theorem patternExports_agrees (one : here.IsAt t next) (later : origin.Sees next rest)
    {bracket : Bracket} (group : t.group? = some bracket) :
    Agrees origin.Sees (Reader.patternExports here) (patternExports origin.scan.stop t rest) := by
  have curly : here.peek? = some '\x7b' ↔ t.group? = some .curly := peek?_eq_opener one .curly
  have same : decide (here.peek? = some '\x7b') = decide (t.group? = some .curly) := by
    simp only [curly]
  rw [Reader.patternExports, one.pastGroup group, same, ← one.line]
  change Agrees origin.Sees (Reader.typeClause next >>= _) _
  rw [one.upTo, ← Token.interior]
  refine (typeClause_agrees later).bind fun typed clause left faces => ?_
  refine (initializer?_agrees faces).bind fun source behind left sees => ?_
  cases bindings (t.group? = some .curly) t.line t.interior with
  | error imbalance => exact .error
  | ok found => exact .ok sees

theorem startsInitializer_faces (faces : origin.Faces here ahead) :
    ((here.eat? '=').isSome &&
      !(here.eat? '=').any fun next => next.peek? = some '=') = startsInitializer ahead := by
  cases faces.meets with
  | finished ended =>
    rw [eat?_finished ended]
    rfl
  | blocked blocked =>
    rw [blocked.eat? (by decide)]
    rfl
  | @token next t one later =>
    rw [one.eat? (by decide)]
    -- the reader looks at the next character, the matcher at the glued token; for a mark these
    -- agree
    have doubled : decide (next.peek? = some '=') = (next.eat? '=').isSome := by
      rw [Cursor.peek?, Cursor.eat?]
      cases next.rest with
      | nil => rfl
      | cons x rest => by_cases equals : x = '=' <;> simp [equals]
    by_cases equals : t.is '=' = true
    · rw [if_pos equals, Option.any_some, doubled]
      -- a second `=` that touches the first one makes it `==`, which starts no initializer
      rcases Cursor.eat?_glued (show isSeparator '=' = true by decide) later with
        ⟨after, u, eaten, tokens, glued, -⟩ | ⟨uneaten, apart⟩
      · rw [eaten, tokens, startsInitializer, equals, glued]
        rfl
      · rw [uneaten]
        cases tokens : next.scan.tokens with
        | nil => simp [startsInitializer, equals]
        | cons u rest =>
          rw [tokens] at apart
          simp_all [startsInitializer]
    · rw [if_neg equals]
      cases next.scan.tokens <;> simp [startsInitializer, equals]

theorem nameExport_agrees (sees : origin.Sees c rest) (name : Token) :
    Agrees origin.Sees (Reader.nameExport name.text name.line c)
      (nameExport origin.scan.stop name rest) := by
  rw [Reader.nameExport, nameExport]
  rcases sees.pastTrivia with ⟨here, passed, faces⟩ | ⟨imbalance, failed, rfl, stop⟩
  · rw [passed]
    -- behind the name come an optional `!`, a type and an initializer
    refine (typeClause_agrees (dropMark_sees (by decide) faces)).bind
      fun typed clause left faces => ?_
    have starts := startsInitializer_faces faces
    -- the reader asks twice, for `=` and against `==`; the matcher asks once
    by_cases doubled : ((clause.eat? '=').any fun next => next.peek? = some '=') = true
    · rw [doubled, Bool.not_true, Bool.and_false] at starts
      simp only [doubled, ← starts, if_true, Bool.false_eq_true, if_false]
      exact .ok faces.sees
    · have agrees := initializer?_agrees faces
      rw [Bool.not_eq_true _ |>.mp doubled, Bool.not_false, Bool.and_true] at starts
      simp only [doubled, ← starts, Bool.false_eq_true, if_false]
      split
      · exact agrees.bind fun source behind left sees => .ok sees
      next unassigned =>
        have none : clause.eat? '=' = none := by simpa using unassigned
        rw [Reader.initializer?, none]
        exact .ok faces.sees
  · rw [failed, stop]
    exact .error

/-- What a reader finds at one declarator and what is matched there. -/
inductive AgreeOn (origin : Cursor) : Except Imbalance (Option (List Export × Cursor)) →
    Except Imbalance (Option (List Export × List Token)) → Prop
  | found {found : List Export} {next : Cursor} {later : List Token}
      (sees : origin.Sees next later) :
      AgreeOn origin (.ok (some (found, next))) (.ok (some (found, later)))
  | none : AgreeOn origin (.ok none) (.ok none)
  | error {imbalance : Imbalance} : AgreeOn origin (.error imbalance) (.error imbalance)

theorem declarator_agrees (one : here.IsAt t next) (later : origin.Sees next rest) :
    AgreeOn origin (Reader.declarator here) (declarator origin.scan.stop t rest) := by
  have curly : here.peek? = some '\x7b' ↔ t.group? = some .curly := peek?_eq_opener one .curly
  have square : here.peek? = some '[' ↔ t.group? = some .square := peek?_eq_opener one .square
  have opens : (here.peek? = some '\x7b' || here.peek? = some '[') =
      (t.group? = some .curly || t.group? = some .square) := by
    simp only [curly, square]
  -- an opener is the first character of its group's token, so both sides take a pattern or both a
  -- name
  rw [Reader.declarator, declarator, opens]
  split
  next group =>
    have pattern : ∃ bracket, t.group? = some bracket := by
      rcases (by simpa using group : _ ∨ _) with group | group <;> exact ⟨_, group⟩
    have agrees := patternExports_agrees one later pattern.choose_spec
    generalize Reader.patternExports here = read,
      patternExports origin.scan.stop t rest = matched at agrees ⊢
    cases agrees with
    | ok sees => exact .found sees
    | error => exact .error
  · rw [one.word?]
    cases named : t.word? with
    | none => exact .none
    | some word =>
      obtain rfl := text_of_word? named
      rw [← one.line]
      have agrees := nameExport_agrees later t
      simp only [Option.map_some, Option.isSome_some, if_true]
      generalize Reader.nameExport t.text t.line next = read,
        nameExport origin.scan.stop t rest = matched at agrees ⊢
      cases agrees with
      | ok sees => exact .found sees
      | error => exact .error

end

end Concord.Export
