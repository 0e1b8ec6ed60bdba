import Concord.Export.TokenList.Clauses

/-!
Reading exports only moves forward. Every reader leaves a tail of the tokens it was given, up to the
trivia in front of its first token, so what is known of the texts of all tokens is known of those
that remain.
-/
namespace Concord.Export

open Concord.Scan Concord.Text

/-- Equal but for the trivia in front of the first token. -/
inductive SameButLead : List Token → List Token → Prop
  | same (tokens : List Token) : SameButLead tokens tokens
  | bare (t : Token) (rest : List Token) : SameButLead (t :: rest) ({ t with lead := [] } :: rest)

/-- `later` is what is left of `tokens`, but for the trivia in front of its first token. -/
def Remains (later tokens : List Token) : Prop :=
  ∃ front kept, tokens = front ++ kept ∧ SameButLead kept later

namespace Remains

variable {first second later tokens : List Token}

@[simp] theorem refl (tokens : List Token) : Remains tokens tokens :=
  ⟨[], tokens, rfl, .same tokens⟩

@[simp] theorem nil (tokens : List Token) : Remains [] tokens :=
  ⟨tokens, [], by simp, .same []⟩

theorem bare (t : Token) (rest : List Token) :
    Remains ({ t with lead := [] } :: rest) (t :: rest) :=
  ⟨[], t :: rest, rfl, .bare t rest⟩

theorem drop (remains : Remains later tokens) (t : Token) : Remains later (t :: tokens) := by
  obtain ⟨front, kept, rfl, same⟩ := remains
  exact ⟨t :: front, kept, rfl, same⟩

theorem trans (front : Remains later first) (back : Remains first tokens) :
    Remains later tokens := by
  obtain ⟨read, kept, rfl, same⟩ := front
  obtain ⟨before, left, rfl, bare⟩ := back
  generalize whole : read ++ kept = all at bare
  -- only the first of what is left can have lost its lead, and it may lose it twice
  cases bare with
  | same =>
    subst whole
    exact ⟨before ++ read, kept, by rw [List.append_assoc], same⟩
  | bare t rest =>
    cases read with
    | nil =>
      obtain rfl : kept = { t with lead := [] } :: rest := whole
      refine ⟨before, t :: rest, rfl, ?_⟩
      cases same with
      | same => exact .bare t rest
      | bare => exact .bare t rest
    | cons u read =>
      obtain ⟨-, rfl⟩ := List.cons.inj whole
      exact ⟨before ++ t :: read, kept, by simp, same⟩

theorem exists_text (remains : Remains later tokens) {t : Token} (member : t ∈ later) :
    ∃ u ∈ tokens, u.text = t.text := by
  obtain ⟨front, kept, rfl, same⟩ := remains
  cases same with
  | same => exact ⟨t, List.mem_append_right front member, rfl⟩
  | bare u rest =>
    rcases List.mem_cons.mp member with rfl | member
    · exact ⟨u, by simp, rfl⟩
    · exact ⟨t, by simp [member], rfl⟩

end Remains

theorem skipMark_remains (mark : Char) (tokens : List Token) :
    Remains (skipMark mark tokens) tokens := by
  cases tokens with
  | nil => exact .refl []
  | cons t rest =>
    simp only [skipMark]
    split
    · exact (Remains.refl rest).drop t
    · exact .refl _

theorem skipType_remains (angle : Nat) (tokens : List Token) :
    Remains (skipType angle tokens).2 tokens := by
  fun_induction skipType angle tokens with
  | case1 => exact .refl []
  | case2 angle t rest opens ih => exact ih.drop t
  | case3 angle t rest _ closes ih => exact ih.drop t
  | case4 => exact .refl _
  | case5 => exact .nil _
  | case6 angle t _ _ equals u later arrow ih => exact (ih.drop u).drop t
  | case7 => exact .refl _
  | case8 angle t _ _ equals u later noArrow inside ih => exact ih.drop t
  | case9 => exact .refl _
  | case10 angle t rest _ _ _ _ ih => exact ih.drop t

theorem skipTypeParameters_remains (angle : Nat) (tokens : List Token) :
    Remains (skipTypeParameters angle tokens) tokens := by
  fun_induction skipTypeParameters angle tokens with
  | case1 => exact .refl []
  | case2 angle t rest opens ih => exact ih.drop t
  | case3 angle t rest => exact (Remains.refl rest).drop t
  | case4 angle t rest _ closes _ ih => exact ih.drop t
  | case5 => exact .nil _
  | case6 angle t _ _ equals u later arrow ih => exact (ih.drop u).drop t
  | case7 angle t _ _ equals u later noArrow ih => exact ih.drop t
  | case8 angle t rest _ _ _ ih => exact ih.drop t

theorem takeExpression_remains (last : Char) (tokens : List Token) :
    Remains (takeExpression last tokens).2 tokens := by
  fun_induction takeExpression last tokens with
  | case1 => exact .refl []
  | case2 => exact .refl _
  | case3 => exact .refl _
  | case4 last t rest goes inLine taken later found ih =>
    rw [found] at ih
    exact ih.drop t

theorem takeInitializer_remains (tokens : List Token) :
    Remains (takeInitializer tokens).2 tokens := by
  cases tokens with
  | nil => exact .refl []
  | cons t rest => exact (takeExpression_remains '=' _).trans (.bare t rest)

/-! Functions -/

theorem skipReturnType_seek_remains (tokens : List Token) :
    Remains (skipReturnType.seek tokens) tokens := by
  fun_induction skipReturnType.seek tokens with
  | case1 => exact .refl []
  | case2 => exact .refl _
  | case3 t rest _ ih => exact ih.drop t

theorem skipReturnType_remains (tokens : List Token) : Remains (skipReturnType tokens) tokens := by
  fun_cases skipReturnType tokens with
  | case1 => exact .refl []
  | case2 => exact .nil _
  | case3 t _ u later => exact ((skipReturnType_seek_remains later).drop u).drop t
  | case4 t _ u later => exact (skipReturnType_seek_remains (u :: later)).drop t
  | case5 => exact .refl _

/-- The tokens from the parameters of a function on, behind its name. -/
def afterTypeParameters : List Token → List Token
  | [] => []
  | t :: rest => if t.is '<' then skipTypeParameters 0 (t :: rest) else t :: rest

/-- What a function named `name` exports, from its parameters on. -/
def signatureExport (all : List Token) (name : Token) : List Token → List Export × List Token
  | [] => ([], [])
  | t :: later =>
    if t.group? = some .round then
      match skipReturnType later with
      | [] => ([], [])
      | body :: after =>
        if body.group? = some .curly then
          ([{ name := String.ofList name.text, kind := .function, line := name.line
              source := some (String.ofList (Token.span (Token.before all after))) }], after)
        else ([], body :: after)
    else ([], t :: later)

theorem text_of_word? {t : Token} {word : List Char} (found : t.word? = some word) :
    t.text = word := by
  rw [Token.word?] at found
  split at found
  · exact Option.some.inj found
  · cases found

theorem functionExport_eq (all tokens : List Token) :
    functionExport all tokens =
      match skipMark '*' tokens with
      | [] => ([], [])
      | name :: rest =>
        if name.word?.isSome then signatureExport all name (afterTypeParameters rest)
        else ([], name :: rest) := by
  rw [functionExport]
  cases skipMark '*' tokens with
  | nil => rfl
  | cons name rest =>
    cases named : name.word? with
    | none => simp only [named, Option.isSome_none, Bool.false_eq_true, if_false]
    | some word =>
      obtain rfl := text_of_word? named
      simp only [named, Option.isSome_some, if_true]
      cases rest <;> rfl

theorem afterTypeParameters_remains (tokens : List Token) :
    Remains (afterTypeParameters tokens) tokens := by
  cases tokens with
  | nil => exact .refl []
  | cons t rest =>
    simp only [afterTypeParameters]
    split
    · exact skipTypeParameters_remains 0 _
    · exact .refl _

theorem signatureExport_remains (all : List Token) (name : Token) (tokens : List Token) :
    Remains (signatureExport all name tokens).2 tokens := by
  cases tokens with
  | nil => exact .refl []
  | cons t later =>
    have returned := (skipReturnType_remains later).drop t
    simp only [signatureExport]
    split
    · cases seen : skipReturnType later with
      | nil => exact .nil _
      | cons body after =>
        rw [seen] at returned
        simp only
        split
        · exact ((Remains.refl after).drop body).trans returned
        · exact returned
    · exact .refl _

theorem functionExport_remains (all tokens : List Token) :
    Remains (functionExport all tokens).2 tokens := by
  have marked := skipMark_remains '*' tokens
  rw [functionExport_eq]
  cases starred : skipMark '*' tokens with
  | nil => exact .nil _
  | cons name rest =>
    rw [starred] at marked
    simp only
    split
    · have signed := (signatureExport_remains all name _).trans (afterTypeParameters_remains rest)
      exact (signed.drop name).trans marked
    · exact marked

/-! Declarators -/

theorem typeClause_remains {stop : Stop} {tokens later : List Token} {typed : Bool}
    (read : typeClause stop tokens = .ok (typed, later)) : Remains later tokens := by
  cases tokens with
  | nil =>
    obtain ⟨_, -, read⟩ := bind_eq_ok.mp read
    cases read
    exact .refl []
  | cons t rest =>
    simp only [typeClause] at read
    split at read
    · obtain ⟨_, -, read⟩ := bind_eq_ok.mp read
      cases read
      exact (skipType_remains 0 rest).drop t
    · cases read
      exact .refl _

theorem initializer_remains {stop : Stop} {tokens later : List Token} {source : Option (List Char)}
    (read : initializer stop tokens = .ok (source, later)) : Remains later tokens := by
  cases tokens with
  | nil =>
    cases read
    exact .refl []
  | cons t rest =>
    simp only [initializer] at read
    split at read
    · obtain ⟨_, -, read⟩ := bind_eq_ok.mp read
      cases read
      exact (takeInitializer_remains rest).drop t
    · cases read
      exact .refl _

theorem patternExports_remains {stop : Stop} {pattern : Token} {rest later : List Token}
    {found : List Export} (read : patternExports stop pattern rest = .ok (found, later)) :
    Remains later rest := by
  obtain ⟨⟨typed, middle⟩, clause, read⟩ := bind_eq_ok.mp read
  obtain ⟨⟨source, after⟩, value, read⟩ := bind_eq_ok.mp read
  obtain ⟨_, -, read⟩ := bind_eq_ok.mp read
  cases read
  exact (initializer_remains value).trans (typeClause_remains clause)

theorem nameExport_remains {stop : Stop} {name : Token} {rest later : List Token} {found : Export}
    (read : nameExport stop name rest = .ok (found, later)) : Remains later rest := by
  obtain ⟨⟨typed, middle⟩, clause, read⟩ := bind_eq_ok.mp read
  have named := (typeClause_remains clause).trans (skipMark_remains '!' rest)
  simp only at read
  split at read
  · obtain ⟨⟨source, after⟩, value, read⟩ := bind_eq_ok.mp read
    cases read
    exact (initializer_remains value).trans named
  · cases read
    exact named

theorem declarator_remains {stop : Stop} {t : Token} {rest later : List Token}
    {found : List Export} (read : declarator stop t rest = .ok (some (found, later))) :
    Remains later rest := by
  simp only [declarator] at read
  split at read
  · obtain ⟨⟨exports, after⟩, pattern, read⟩ := bind_eq_ok.mp read
    cases read
    exact patternExports_remains pattern
  · split at read
    · obtain ⟨⟨exports, after⟩, name, read⟩ := bind_eq_ok.mp read
      cases read
      exact nameExport_remains name
    · cases read

theorem declarators_remains {stop : Stop} {tokens later : List Token} {found : List Export}
    (read : declarators stop tokens = .ok (found, later)) : Remains later tokens := by
  -- by the recursion over the declarators, each of which leaves the end of the tokens
  fun_induction declarators stop tokens generalizing found with
  | case1 =>
    cases read
    exact .refl []
  | case2 => cases read
  | case3 =>
    cases read
    exact .refl _
  | case4 =>
    cases read
    exact .nil _
  | case5 t rest first u more one _ ih =>
    obtain ⟨⟨others, last⟩, behind, read⟩ := bind_eq_ok.mp read
    cases read
    exact (((ih behind).drop u).trans (declarator_remains one)).drop t
  | case6 t rest first u more one =>
    cases read
    exact (declarator_remains one).drop t

/-! Statements -/

theorem originClause?_remains {tokens later : List Token} {origin : List Char}
    (read : originClause? tokens = some (origin, later)) : Remains later tokens := by
  simp only [originClause?] at read
  split at read
  next t u rest =>
    split at read
    · cases read
      exact ((Remains.refl _).drop u).drop t
    · cases read
  · cases read

theorem exportClause_remains {stop : Stop} {tokens later : List Token} {found : List Export}
    (read : exportClause stop tokens = .ok (found, later)) : Remains later tokens := by
  -- whichever clause is read, what it leaves is the end of the tokens
  simp only [exportClause] at read
  split at read
  · cases read
    exact .refl []
  next t rest =>
    split at read
    · split at read
      next origin after clause =>
        obtain ⟨_, -, read⟩ := bind_eq_ok.mp read
        cases read
        exact (originClause?_remains clause).drop t
      · obtain ⟨_, -, read⟩ := bind_eq_ok.mp read
        cases read
        exact (Remains.refl _).drop t
    · split at read
      · exact (declarators_remains read).drop t
      · split at read
        · have remains := functionExport_remains (t :: rest) rest
          simp only [Except.ok.injEq] at read
          rw [read] at remains
          exact remains.drop t
        · split at read
          · split at read
            next u after =>
              split at read
              · have remains := functionExport_remains (t :: u :: after) after
                simp only [Except.ok.injEq] at read
                rw [read] at remains
                exact (remains.drop u).drop t
              · cases read
                exact .refl _
            · cases read
              exact .refl _
          · cases read
            exact .refl _

end Concord.Export
