import Concord.Proofs.SeenTokens

/-!
Types, initializers and function expressions are read with a cursor as they are matched among
tokens. The reader and the matcher start at one place of a scan and end at one place, or the reader
gives up with the imbalance that the matcher finds in how the scan stopped.
-/
namespace Concord.Scan.Cursor

open Concord.Export Concord.Text

variable {origin c here next : Cursor} {t : Token}

/-- A separator is eaten behind a token if it is the next token and glued to that one. -/
theorem eat?_glued {mark : Char} (separates : isSeparator mark = true)
    (sees : origin.Sees c c.scan.tokens) :
    (∃ after u, c.eat? mark = some after ∧ c.scan.tokens = u :: after.scan.tokens ∧
        u.isGlued mark = true ∧ origin.Sees after after.scan.tokens) ∨
      c.eat? mark = none ∧ c.scan.tokens.head?.any (·.isGlued mark) = false := by
  cases eaten : c.eat? mark with
  | some after =>
    obtain ⟨rest, flag, text, rfl⟩ := eat?_cons eaten
    -- no trivia begins with a separator, so the next token begins here, without a lead
    have stays := ((IsToken.separator separates c.regexOk rest).skips text).1
    cases opens stays with
    | finished ended =>
      rw [text] at ended
      cases ended
    | blocked blocked =>
      rw [blocked.eat? (isBarrier_of_isSeparator separates)] at eaten
      cases eaten
    | @token next t one lead tokens =>
      have bare : t.lead = [] := by simpa using lead
      rw [one.eat? separates] at eaten
      split at eaten
      next is =>
        cases eaten
        have faces : origin.Faces c c.scan.tokens := ⟨sees, stays⟩
        exact Or.inl ⟨_, t, rfl, tokens, by simp [Token.isGlued, bare, is], faces.behind one⟩
      · cases eaten
  | none =>
    refine Or.inr ⟨rfl, ?_⟩
    -- otherwise the next token, if there is one, begins with another character or stands behind
    -- trivia
    cases trivia : c.skipTrivia with
    | error halt =>
      rw [scan_of_openComment trivia]
      rfl
    | ok here =>
      cases opens trivia with
      | finished _ tokens | blocked _ tokens =>
        rw [tokens]
        rfl
      | @token next t one lead tokens =>
        rw [tokens, List.head?_cons, Option.any_some]
        cases glued : t.isGlued mark with
        | false => rfl
        | true =>
          simp only [Token.isGlued, Bool.and_eq_true, List.isEmpty_iff] at glued
          -- a glued token that is the separator would have been eaten
          have text : c.rest = mark :: next.rest := by
            have shown : t.text = [mark] := by simpa [Token.is] using glued.2
            rw [lead, glued.1, one.split, shown]
            rfl
          rw [eat?, text] at eaten
          simp at eaten

end Concord.Scan.Cursor

namespace Concord.Export

open Concord.Scan Concord.Text

/-! Types -/

/-- A token inside a type and the tokens behind it. -/
def stepType : List Token → Reader.TypeToken × List Token
  | [] => (.other, [])
  | t :: rest =>
    if t.is '<' then (.opened, rest)
    else if t.is '>' then (.closed, rest)
    else if t.is '=' && rest.head?.any (·.isGlued '>') then (.other, rest.tail)
    else (.other, rest)

/-- A type outside angle brackets ends in front of these tokens. -/
def endsTypeAt : List Token → Bool
  | [] => true
  | t :: rest => t.is ';' || t.is ',' || t.is '=' && !rest.head?.any (·.isGlued '>')

theorem is_other {t : Token} {mark other : Char} (is : t.is mark = true) (differs : mark ≠ other) :
    t.is other = false := by
  simp only [Token.is, decide_eq_true_eq, decide_eq_false_iff_not] at is ⊢
  rw [is]
  exact fun same => differs (List.cons.inj same).1

theorem skipType_cons (angle : Nat) (t : Token) (rest : List Token) :
    skipType angle (t :: rest) =
      if angle = 0 && endsTypeAt (t :: rest) then (angle, t :: rest)
      else
        match stepType (t :: rest) with
        | (.opened, later) => skipType (angle + 1) later
        | (.closed, later) => skipType (angle - 1) later
        | (.other, later) => skipType angle later := by
  rw [endsTypeAt, stepType]
  rw [skipType.eq_def]
  -- one token at a time: the marks that count angles, then `=`, which may begin an arrow
  by_cases opens : t.is '<' = true
  · simp [opens, is_other opens (show '<' ≠ ';' by decide),
      is_other opens (show '<' ≠ ',' by decide), is_other opens (show '<' ≠ '=' by decide)]
  by_cases closes : t.is '>' = true
  · simp [closes, is_other closes (show '>' ≠ ';' by decide),
      is_other closes (show '>' ≠ ',' by decide), is_other closes (show '>' ≠ '=' by decide),
      is_other closes (show '>' ≠ '<' by decide)]
  by_cases equals : t.is '=' = true
  · have noSemicolon := is_other equals (show '=' ≠ ';' by decide)
    have noComma := is_other equals (show '=' ≠ ',' by decide)
    cases rest with
    | nil => by_cases outside : angle = 0 <;> simp [skipType, *]
    | cons u later =>
      -- an arrow is passed as one token, and any other `=` at the outside ends the type
      by_cases arrow : u.isGlued '>' = true <;> by_cases outside : angle = 0 <;>
        simp [*]
  · simp [*]

theorem skipTypeParameters_cons (angle : Nat) (t : Token) (rest : List Token) :
    skipTypeParameters angle (t :: rest) =
      match stepType (t :: rest) with
      | (.opened, later) => skipTypeParameters (angle + 1) later
      | (.closed, later) => if angle ≤ 1 then later else skipTypeParameters (angle - 1) later
      | (.other, later) => skipTypeParameters angle later := by
  rw [stepType, skipTypeParameters.eq_def]
  by_cases opens : t.is '<' = true
  · simp [opens]
  by_cases closes : t.is '>' = true
  · simp [closes, is_other closes (show '>' ≠ '<' by decide)]
  by_cases equals : t.is '=' = true
  · cases rest with
    | nil => simp [skipTypeParameters, *]
    | cons u later => by_cases arrow : u.isGlued '>' = true <;> simp [*]
  · simp [*]

section

variable {origin c here next : Cursor} {ahead : List Token} {t : Token}

theorem eatArrow?_isAt (one : here.IsAt t next) :
    here.eatArrow? = if t.is '=' then next.eat? '>' else none := by
  rw [Cursor.eatArrow?, one.eat? (by decide)]
  split <;> rfl

/-- Reader and matcher take the same token of a type. -/
theorem typeToken_isAt (one : here.IsAt t next) (later : origin.Sees next next.scan.tokens) :
    ∃ after, Reader.typeToken here = .ok ((stepType (t :: next.scan.tokens)).1, after) ∧
      (stepType (t :: next.scan.tokens)).2 = after.scan.tokens ∧
      origin.Sees after after.scan.tokens := by
  rw [Reader.typeToken, one.eat? (by decide), one.eat? (by decide), eatArrow?_isAt one,
    one.pastToken, stepType]
  by_cases opens : t.is '<' = true
  · exact ⟨next, by simp [opens], by simp [opens], later⟩
  by_cases closes : t.is '>' = true
  · exact ⟨next, by simp [opens, closes], by simp [opens, closes], later⟩
  by_cases equals : t.is '=' = true
  -- behind `=` a glued `>` belongs to the same arrow, so two tokens are taken
  · rcases Cursor.eat?_glued (show isSeparator '>' = true by decide) later with
      ⟨after, u, eaten, tokens, glued, behind⟩ | ⟨uneaten, apart⟩
    · rw [eaten, tokens]
      exact ⟨after, by simp [opens, closes, equals, glued], by simp [opens, closes, equals, glued],
        behind⟩
    · rw [uneaten, apart]
      exact ⟨next, by simp [opens, closes, equals, Except.map], by simp [opens, closes], later⟩
  · exact ⟨next, by simp [opens, closes, equals, Except.map],
      by simp [opens, closes, equals], later⟩

theorem endsType_isAt (one : here.IsAt t next) (later : origin.Sees next next.scan.tokens) :
    Reader.endsType here = endsTypeAt (t :: next.scan.tokens) := by
  have arrow : here.eatArrow?.isNone =
      !(t.is '=' && next.scan.tokens.head?.any (·.isGlued '>')) := by
    rw [eatArrow?_isAt one]
    by_cases equals : t.is '=' = true
    · rcases Cursor.eat?_glued (show isSeparator '>' = true by decide) later with
        ⟨after, u, eaten, tokens, glued, -⟩ | ⟨uneaten, apart⟩
      · simp [equals, eaten, tokens, glued]
      · simp [equals, uneaten, apart]
    · simp [equals]
  have is (mark : Char) (separates : isSeparator mark = true) :
      decide (t.first = mark) = t.is mark :=
    Bool.eq_iff_iff.mpr (by rw [decide_eq_true_eq, one.is_iff separates])
  simp only [Reader.endsType, one.peek?, one.ofCloser?, is ';' (by decide), is ',' (by decide),
    is '=' (by decide), arrow, endsTypeAt]
  cases t.is '=' <;> simp

/-- A blocked reader is at no token of a type. -/
theorem typeToken_isBlocked {imbalance : Imbalance} (blocked : here.IsBlocked imbalance) :
    Reader.typeToken here = .error imbalance := by
  rw [Reader.typeToken, blocked.eat? (by decide), blocked.eat? (by decide), Cursor.eatArrow?,
    blocked.eat? (by decide), blocked.failed]
  rfl

theorem endsType_isBlocked {imbalance : Imbalance} (blocked : here.IsBlocked imbalance) :
    Reader.endsType here = (Bracket.ofCloser? (here.rest.headD ' ')).isSome := by
  obtain ⟨first, shown, barrier⟩ := blocked.peek?
  have head : here.rest.headD ' ' = first := by
    rw [List.headD_eq_head?_getD, ← Cursor.peek?, shown]
    rfl
  have differs (mark : Char) (separates : isSeparator mark = true) : first ≠ mark := by
    rintro rfl
    cases barrier.symm.trans (isBarrier_of_isSeparator separates)
  rw [Reader.endsType, shown, head]
  simp [differs ';' (by decide), differs ',' (by decide), differs '=' (by decide)]

theorem typeToken_ok {kind : Reader.TypeToken} (faces : origin.Faces here ahead)
    (unread : here.atEnd = false) (read : Reader.typeToken here = .ok (kind, next)) :
    ∃ t rest, ahead = t :: rest ∧ stepType ahead = (kind, next.scan.tokens) ∧
      Reader.endsType here = endsTypeAt ahead ∧ origin.Sees next next.scan.tokens := by
  cases faces.meets with
  | finished ended => simp [Cursor.atEnd, ended] at unread
  | blocked blocked => cases read.symm.trans (typeToken_isBlocked blocked)
  | token one later =>
    obtain ⟨after, token, behind, further⟩ := typeToken_isAt one later
    obtain ⟨rfl, rfl⟩ := Prod.mk.inj (Except.ok.inj (read.symm.trans token))
    exact ⟨_, _, rfl, by rw [← behind], endsType_isAt one later, further⟩

theorem typeToken_error {imbalance : Imbalance} (faces : origin.Faces here ahead)
    (unread : here.atEnd = false) (failed : Reader.typeToken here = .error imbalance) :
    ahead = [] ∧ ∃ freshLine, origin.scan.stop =
        .blocked (here.rest.headD ' ') freshLine imbalance ∧
      Reader.endsType here = (Bracket.ofCloser? (here.rest.headD ' ')).isSome := by
  cases faces.meets with
  | finished ended => simp [Cursor.atEnd, ended] at unread
  | blocked blocked stop =>
    cases failed.symm.trans (typeToken_isBlocked blocked)
    exact ⟨rfl, _, stop, endsType_isBlocked blocked⟩
  | token one later =>
    obtain ⟨after, read, -⟩ := typeToken_isAt one later
    cases failed.symm.trans read

/-- Where a type outside angle brackets may end without a token. -/
def typeEnds (angle : Nat) (first : Char) (_freshLine : Bool) : Bool :=
  angle = 0 && (Bracket.ofCloser? first).isSome

/-- By induction over the tokens that the reader takes. Where it stops is where the type ends, or
where the matcher finds no token and looks at how the scan stopped. -/
theorem skipType_agrees {angle : Nat} (sees : origin.Sees c ahead) :
    (∃ here, Reader.skipType angle c = .ok here ∧ origin.Faces here (skipType angle ahead).2 ∧
        checkStop origin.scan.stop (skipType angle ahead).2 (typeEnds (skipType angle ahead).1) =
          .ok ()) ∨
      ∃ imbalance, Reader.skipType angle c = .error imbalance ∧
        checkStop origin.scan.stop (skipType angle ahead).2 (typeEnds (skipType angle ahead).1) =
          .error imbalance := by
  fun_induction Reader.skipType angle c generalizing ahead with
  | case1 angle c imbalance trivia =>
    obtain ⟨rfl, stop⟩ := sees.openComment trivia
    exact Or.inr ⟨imbalance, rfl, by rw [stop]; rfl⟩
  | case2 angle c here trivia ended =>
    have faces := sees.faces trivia
    refine Or.inl ⟨here, rfl, ?_⟩
    -- the type ends here for the reader; for the matcher it ends at the token, or with the tokens
    -- if the scan was stopped at a place that ends a type
    cases faces.meets with
    | finished _ stop => exact ⟨faces, by rw [stop]; rfl⟩
    | blocked blocked stop =>
      have unread : here.atEnd = false := by simpa [Cursor.atEnd] using blocked.unread
      rw [unread, Bool.false_or, endsType_isBlocked blocked] at ended
      exact ⟨faces, by rw [stop, skipType, checkStop, typeEnds, if_pos ended]⟩
    | token one later =>
      rw [one.atEnd, Bool.false_or, endsType_isAt one later] at ended
      rw [skipType_cons, if_pos ended]
      exact ⟨faces, by simp [checkStop]⟩
  | case3 angle c here trivia inside imbalance failed =>
    -- no token can be taken though the type goes on: the scan was stopped by the same imbalance
    simp only [Bool.or_eq_true, not_or, Bool.not_eq_true] at inside
    obtain ⟨rfl, freshLine, stop, closes⟩ := typeToken_error (sees.faces trivia) inside.1 failed
    refine Or.inr ⟨imbalance, rfl, ?_⟩
    rw [closes] at inside
    rw [stop, skipType, checkStop, typeEnds, inside.2, if_neg Bool.false_ne_true]
  | case4 angle c here trivia inside next read ih | case5 angle c here trivia inside next read ih
  | case6 angle c here trivia inside next read ih =>
    -- a token of the type is taken: opened, closed or other, the induction goes on with its count
    simp only [Bool.or_eq_true, not_or, Bool.not_eq_true] at inside
    obtain ⟨t, rest, rfl, step, ends, later⟩ := typeToken_ok (sees.faces trivia) inside.1 read
    rw [ends] at inside
    rw [skipType_cons, inside.2, if_neg Bool.false_ne_true, step]
    exact ih later

/-! Places after a step -/

/-- The reader comes to what the matcher leaves, or gives up with the imbalance that stopped the
scan when the matcher has used up the tokens. -/
inductive Arrives (stop : Stop) (place : Cursor → List Token → Prop) :
    Except Imbalance Cursor → List Token → Prop
  | there {c : Cursor} {later : List Token} (there : place c later) :
      Arrives stop place (.ok c) later
  | lost {imbalance : Imbalance} (left : stop.imbalance? = some imbalance) :
      Arrives stop place (.error imbalance) []

theorem Arrives.bind {stop : Stop} {place place' : Cursor → List Token → Prop}
    {outcome : Except Imbalance Cursor} {f : Cursor → Except Imbalance Cursor}
    {later last : List Token} (arrives : Arrives stop place outcome later)
    (goes : ∀ c, place c later → Arrives stop place' (f c) last) (used : later = [] → last = []) :
    Arrives stop place' (outcome >>= f) last := by
  cases arrives with
  | there there => exact goes _ there
  | lost left =>
    rw [used rfl]
    exact .lost left

theorem pastTrivia_arrives (sees : origin.Sees c ahead) :
    Arrives origin.scan.stop origin.Faces c.pastTrivia ahead := by
  rcases sees.pastTrivia with ⟨here, passed, faces⟩ | ⟨imbalance, failed, rfl, stop⟩
  · rw [passed]
    exact .there faces
  · rw [failed]
    exact .lost (by rw [stop]; rfl)

theorem skipTypeParameters_arrives {angle : Nat} (sees : origin.Sees c ahead) :
    Arrives origin.scan.stop origin.Sees (Reader.skipTypeParameters angle c)
      (skipTypeParameters angle ahead) := by
  fun_induction Reader.skipTypeParameters angle c generalizing ahead with
  | case1 angle c imbalance trivia =>
    obtain ⟨rfl, stop⟩ := sees.openComment trivia
    exact .lost (by rw [stop]; rfl)
  -- parameters that are never closed reach to the end of the text
  | case2 angle c here trivia ended =>
    have faces := sees.faces trivia
    cases faces.meets with
    | finished => exact .there faces.sees
    | blocked blocked => simp [Cursor.atEnd, blocked.unread] at ended
    | token one =>
      rw [one.atEnd] at ended
      cases ended
  | case3 angle c here trivia inside imbalance failed =>
    obtain ⟨rfl, freshLine, stop, -⟩ :=
      typeToken_error (sees.faces trivia) (by simpa using inside) failed
    exact .lost (by rw [stop]; rfl)
  | case4 angle c here trivia inside next read ih | case7 angle c here trivia inside next read ih =>
    obtain ⟨t, rest, rfl, step, -, later⟩ :=
      typeToken_ok (sees.faces trivia) (by simpa using inside) read
    rw [skipTypeParameters_cons, step]
    exact ih later
  -- the `>` of the first `<` is passed, and the reader is behind the parameters
  | case5 angle c here trivia inside next read last =>
    obtain ⟨t, rest, rfl, step, -, later⟩ :=
      typeToken_ok (sees.faces trivia) (by simpa using inside) read
    simp only [skipTypeParameters_cons, step, if_pos last]
    exact .there later
  | case6 angle c here trivia inside next read more ih =>
    obtain ⟨t, rest, rfl, step, -, later⟩ :=
      typeToken_ok (sees.faces trivia) (by simpa using inside) read
    simp only [skipTypeParameters_cons, step, if_neg more]
    exact ih later

theorem pastTypeParameters_arrives (faces : origin.Faces here ahead) :
    Arrives origin.scan.stop origin.Faces (Reader.pastTypeParameters here)
      (afterTypeParameters ahead) := by
  rw [Reader.pastTypeParameters]
  cases faces.meets with
  | finished ended =>
    rw [if_neg (by simp [Cursor.peek?, ended])]
    exact .there faces
  | blocked blocked =>
    -- a place that blocks begins with a bracket, backquote or comment, never with `<`
    obtain ⟨first, shown, barrier⟩ := blocked.peek?
    rw [if_neg (by rw [shown]; rintro ⟨⟩; cases barrier)]
    exact .there faces
  | @token next t one later =>
    have angle : here.peek? = some '<' ↔ t.is '<' = true := by
      rw [one.peek?, one.is_iff (by decide), Option.some.injEq]
    rw [afterTypeParameters]
    by_cases opens : t.is '<' = true
    · rw [if_pos (angle.mpr opens), if_pos opens]
      exact (skipTypeParameters_arrives faces.sees).bind (fun _ => pastTrivia_arrives) id
    · rw [if_neg (angle.not.mpr opens), if_neg opens]
      exact .there faces

/-- The tokens from the first place on that `ends` is true of. -/
def dropTo (ends : List Token → Bool) : List Token → List Token
  | [] => []
  | t :: rest => if ends (t :: rest) then t :: rest else dropTo ends rest

theorem skipTo_arrives {ends : Cursor → Bool} {ends' : List Token → Bool}
    (same : ∀ {here t next}, Cursor.IsAt here t next → origin.Sees next next.scan.tokens →
      ends here = ends' (t :: next.scan.tokens)) (sees : origin.Sees c ahead) :
    Arrives origin.scan.stop origin.Faces (c.skipTo ends) (dropTo ends' ahead) := by
  fun_induction Cursor.skipTo ends c generalizing ahead with
  | case1 c imbalance trivia =>
    obtain ⟨rfl, stop⟩ := sees.openComment trivia
    exact .lost (by rw [stop]; rfl)
  | case2 c here trivia ended =>
    have faces := sees.faces trivia
    cases faces.meets with
    -- without a token the reader has come to the end or to a place where it stops, and so has the
    -- matcher
    | finished | blocked => exact .there faces
    | token one later =>
      rw [one.atEnd, Bool.false_or, same one later] at ended
      rw [dropTo, if_pos ended]
      exact .there faces
  | case3 c here trivia unended imbalance failed =>
    have faces := sees.faces trivia
    cases faces.meets with
    | finished ended => simp [Cursor.atEnd, ended] at unended
    | blocked blocked stop =>
      cases failed.symm.trans blocked.failed
      -- the token that the reader misses is the one the scan was stopped at
      exact .lost (by rw [stop]; rfl)
    | token one => cases failed.symm.trans one.pastToken
  | case4 c here trivia unended next read ih =>
    have faces := sees.faces trivia
    cases faces.meets with
    | finished ended => simp [Cursor.atEnd, ended] at unended
    | blocked blocked => cases read.symm.trans blocked.failed
    | token one later =>
      cases read.symm.trans one.pastToken
      rw [one.atEnd, Bool.false_or, same one later] at unended
      rw [dropTo, if_neg unended]
      exact ih later

/-! Function expressions -/

theorem startsArrow_isAt (one : here.IsAt t next) (later : origin.Sees next next.scan.tokens) :
    here.eatArrow?.isSome = isFunctionOf.startsArrow (t :: next.scan.tokens) := by
  rw [eatArrow?_isAt one]
  rcases Cursor.eat?_glued (show isSeparator '>' = true by decide) later with
    ⟨after, u, eaten, tokens, glued, -⟩ | ⟨uneaten, apart⟩
  · rw [eaten, tokens, isFunctionOf.startsArrow, glued]
    cases t.is '=' <;> rfl
  · rw [uneaten]
    cases tokens : next.scan.tokens with
    | nil => simp [isFunctionOf.startsArrow]
    | cons u rest =>
      rw [tokens] at apart
      simp_all [isFunctionOf.startsArrow]

theorem startsArrow_faces (faces : origin.Faces here ahead) :
    here.eatArrow?.isSome = isFunctionOf.startsArrow ahead := by
  cases faces.meets with
  | finished ended => simp [Cursor.eatArrow?, Cursor.eat?, ended, isFunctionOf.startsArrow]
  | blocked blocked =>
    rw [Cursor.eatArrow?, blocked.eat? (by decide)]
    rfl
  | token one later => exact startsArrow_isAt one later

theorem returnsArrow_eq (tokens : List Token) :
    isFunctionOf.returnsArrow tokens =
      isFunctionOf.startsArrow (dropTo isFunctionOf.startsArrow tokens) := by
  induction tokens with
  | nil => rfl
  | cons t rest ih =>
    rw [isFunctionOf.returnsArrow, dropTo, ih]
    split
    next starts => rw [starts, Bool.true_or]
    next other => rw [Bool.not_eq_true _ |>.mp other, Bool.false_or]

/-- What is found by a reader that may give up. -/
def holds (outcome : Except Imbalance Bool) : Bool :=
  match outcome with
  | .ok yes => yes
  | .error _ => false

/-- What holds where the reader comes to holds of the tokens there; none are left to a reader that
gives up, and of those it does not hold. -/
theorem Arrives.holds_bind {stop : Stop} {place : Cursor → List Token → Prop}
    {outcome : Except Imbalance Cursor} {f : Cursor → Except Imbalance Bool}
    {later : List Token} {g : List Token → Bool} (arrives : Arrives stop place outcome later)
    (same : ∀ c, place c later → holds (f c) = g later) (none : g [] = false) :
    holds (outcome >>= f) = g later := by
  cases arrives with
  | there there => exact same _ there
  | lost => exact none.symm

/-- Behind the parameters of an arrow: a return type, or the arrow. -/
def closesParameters : List Token → Bool
  | [] => false
  | u :: later =>
    if u.is ':' then isFunctionOf.returnsArrow later else isFunctionOf.startsArrow (u :: later)

theorem parametersArrow_cons (t : Token) (rest : List Token) :
    isFunctionOf.parametersArrow (t :: rest) =
      if t.group? = some .round then closesParameters rest else false := by
  rw [isFunctionOf.parametersArrow.eq_def]
  cases rest <;> rfl

theorem peek?_eq_opener (one : here.IsAt t next) (bracket : Bracket) :
    here.peek? = some bracket.opener ↔ t.group? = some bracket := by
  rw [one.peek?, Token.group?, Option.some.injEq]
  exact ⟨fun first => by rw [first, Bracket.ofOpener?_opener], Bracket.eq_opener_of_ofOpener?⟩

theorem closesParameters_faces (faces : origin.Faces here ahead) :
    holds (match here.eat? ':' with
      | some typed => do
        return (← typed.skipTo fun c => c.eatArrow?.isSome).eatArrow?.isSome
      | none => return here.eatArrow?.isSome) = closesParameters ahead := by
  cases faces.meets with
  | finished ended =>
    simp [Cursor.eatArrow?, Cursor.eat?, ended, closesParameters, holds, pure, Except.pure]
  | blocked blocked =>
    rw [blocked.eat? (by decide), Cursor.eatArrow?, blocked.eat? (by decide)]
    rfl
  | @token next t one later =>
    rw [one.eat? (by decide), closesParameters]
    by_cases typed : t.is ':' = true
    · rw [if_pos typed, if_pos typed, returnsArrow_eq]
      refine (skipTo_arrives startsArrow_isAt later).holds_bind (fun c faces => ?_) rfl
      exact startsArrow_faces faces
    · rw [if_neg typed, if_neg typed]
      exact startsArrow_isAt one later

theorem parametersArrow_faces (faces : origin.Faces here ahead) :
    holds (Reader.parametersArrow here) =
      isFunctionOf.parametersArrow (afterTypeParameters ahead) := by
  have arrives := pastTypeParameters_arrives faces
  -- a function is looked for, and a reader that fails on the way has found none
  generalize afterTypeParameters ahead = parameters at arrives ⊢
  refine arrives.holds_bind (fun c faces => ?_) rfl
  cases faces.meets with
  | finished ended =>
    simp [Cursor.peek?, ended, holds, isFunctionOf.parametersArrow, pure, Except.pure]
  | blocked blocked =>
    -- a group of parameters that is never closed is no arrow function
    by_cases opens : c.peek? = some '('
    · rw [if_pos opens, blocked.pastGroup (show c.peek? = some Bracket.round.opener from opens)]
      rfl
    · rw [if_neg opens]
      rfl
  | @token next t one later =>
    have round : c.peek? = some '(' ↔ t.group? = some .round := peek?_eq_opener one .round
    rw [parametersArrow_cons]
    by_cases opens : t.group? = some .round
    · rw [if_pos (round.mpr opens), if_pos opens, one.pastGroup opens]
      exact (pastTrivia_arrives later).holds_bind (fun c faces => closesParameters_faces faces) rfl
    · rw [if_neg (round.not.mpr opens), if_neg opens]
      rfl

theorem isWord_iff (one : here.IsAt t next) {word : String}
    (starts : isWordStart (word.toList.headD ' ') = true) :
    t.isWord word = true ↔ here.word? = some (word.toList, next) := by
  rw [one.word?, Token.isWord, decide_eq_true_eq, Token.word?]
  constructor
  · intro text
    rw [Token.first, text, if_pos starts]
    rfl
  · intro read
    split at read
    · exact (Prod.mk.inj (Option.some.inj read)).1
    · cases read

theorem opensFunction_faces (faces : origin.Faces here ahead) :
    (if here.word?.any fun found => found.1 = "function".toList then true
      else holds (Reader.startsArrow here)) = isFunctionOf.opensFunction ahead := by
  cases faces.meets with
  | finished ended =>
    have noWord : here.word? = none := by
      rw [Cursor.word?, Cursor.lexeme?_eq_none_iff.mpr ended]
    rw [Reader.startsArrow, noWord, parametersArrow_faces faces]
    rfl
  | blocked blocked =>
    rw [Reader.startsArrow, blocked.word?, parametersArrow_faces faces]
    rfl
  | @token next t one later =>
    have arrow := parametersArrow_faces faces
    rw [afterTypeParameters] at arrow
    rw [isFunctionOf.opensFunction, Reader.startsArrow]
    cases named : t.word? with
    -- a word is the keyword or the one parameter of an arrow function
    | some word =>
      have text : t.text = word := text_of_word? named
      rw [one.word?, named, Token.isWord, text]
      simp only [Option.map_some, Option.any_some, Option.isSome_some, if_true]
      split
      · rfl
      · exact (pastTrivia_arrives later).holds_bind (fun c faces => startsArrow_faces faces) rfl
    -- without a word only parameters in parentheses are left
    | none =>
      have noFunction : t.isWord "function" = false := by
        cases is : t.isWord "function" with
        | false => rfl
        | true =>
          have word := one.word?
          rw [(isWord_iff one (by decide)).mp is, named] at word
          cases word
      rw [one.word?, named, noFunction]
      simp only [Option.map_none, Option.any_none, Bool.false_eq_true, if_false,
        Option.isSome_none, arrow]
      split <;> rfl

/-- The tokens of an expression behind an `async` that belongs to it. -/
def afterAsync : List Token → List Token
  | t :: u :: later => if t.isWord "async" && u.first ≠ '=' then u :: later else t :: u :: later
  | tokens => tokens

theorem isFunctionOf_eq (tokens : List Token) :
    isFunctionOf tokens = isFunctionOf.opensFunction (afterAsync tokens) := by
  match tokens with
  | [] | [t] => rfl
  | t :: u :: later => rfl

/-- A reader that is blocked behind `async` is at no token, and a matcher that has used up the
tokens stays in front of the `async`. Neither finds a function there. -/
theorem pastAsync_faces (faces : origin.Faces here ahead) :
    ∃ later, origin.Faces (Reader.pastAsync here) later ∧
      isFunctionOf.opensFunction later = isFunctionOf.opensFunction (afterAsync ahead) := by
  cases faces.meets with
  | finished ended =>
    have noWord : here.word? = none := by
      rw [Cursor.word?, Cursor.lexeme?_eq_none_iff.mpr ended]
    exact ⟨[], by rwa [Reader.pastAsync, noWord], rfl⟩
  | blocked blocked => exact ⟨[], by rwa [Reader.pastAsync, blocked.word?], rfl⟩
  | @token next t one later =>
    by_cases async : t.isWord "async" = true
    · have word := (isWord_iff one (by decide)).mp async
      -- `async` alone, with no token behind it, opens no function
      have alone : isFunctionOf.opensFunction [] = isFunctionOf.opensFunction [t] := by
        have text : t.text = "async".toList := by simpa [Token.isWord] using async
        have noFunction : t.isWord "function" = false := by simp [Token.isWord, text]
        have named : t.word?.isSome = true := by simp [Token.word?, Token.first, text, isWordStart]
        simp [isFunctionOf.opensFunction, noFunction, named, isFunctionOf.startsArrow]
      rw [Reader.pastAsync, word]
      simp only [if_true]
      -- behind `async` the text may end, block the reader or go on with a token
      rcases later.pastTrivia with ⟨place, passed, behind⟩ | ⟨imbalance, failed, none, -⟩
      · rw [passed]
        simp only
        generalize next.scan.tokens = rest at behind faces
        cases behind.meets with
        | finished ended =>
          rw [if_pos (by simp [Cursor.atEnd, ended])]
          exact ⟨[t], faces, rfl⟩
        | blocked blocked =>
          obtain ⟨first, shown, barrier⟩ := blocked.peek?
          rw [if_neg (by
            simp only [Cursor.atEnd, blocked.unread, shown, Bool.or_eq_true, List.isEmpty_iff,
              decide_eq_true_eq, Option.some.injEq, false_or]
            rintro rfl
            cases barrier)]
          exact ⟨[], behind, alone⟩
        | @token _ u two more =>
          rw [afterAsync, async, two.atEnd, two.peek?]
          -- `async = ..` is an assignment to a variable of that name, so the word is kept
          by_cases equals : u.first = '='
          · exact ⟨_, by simpa [equals] using faces, by simp [equals]⟩
          · exact ⟨_, by simpa [equals] using behind, by simp [equals]⟩
      · rw [failed]
        rw [none] at faces ⊢
        exact ⟨[t], faces, rfl⟩
    -- any other token is not passed
    · have other : Reader.pastAsync here = here := by
        rw [Reader.pastAsync]
        cases named : here.word? with
        | none => rfl
        | some found =>
          obtain ⟨word, behind⟩ := found
          have same : word ≠ "async".toList := by
            rintro rfl
            rw [one.word?] at named
            obtain ⟨text, found, moved⟩ := Option.map_eq_some_iff.mp named
            obtain ⟨rfl, rfl⟩ := Prod.mk.inj moved
            exact async (by rw [Token.isWord, text_of_word? found]; rfl)
          simp only [if_neg same]
      refine ⟨_, by rwa [other], ?_⟩
      cases next.scan.tokens with
      | nil => rfl
      | cons u rest => simp [afterAsync, async]

/-- Whether an expression is a function is told from its tokens. -/
theorem isFunction_eq (expression : List Char) :
    isFunction expression = isFunctionOf (scan expression).tokens := by
  have start := Cursor.Sees.start (Cursor.start expression)
  rw [isFunction, isFunctionOf_eq]
  rcases start.pastTrivia with ⟨here, passed, faces⟩ | ⟨imbalance, failed, none, -⟩
  · obtain ⟨later, behind, same⟩ := pastAsync_faces faces
    rw [passed, scan, ← same, ← opensFunction_faces behind]
    rfl
  · rw [failed, scan, none]
    rfl

/-! Initializers -/

theorem ending_append {text : List Char} (shown : text ≠ []) (front : List Char) :
    ending (front ++ text) = ending text := by
  obtain ⟨back, last, rfl⟩ := List.eq_nil_or_concat text |>.resolve_left shown
  simp [ending, ← List.append_assoc]

theorem freshLine_eq (trivia : c.skipTrivia = .ok here) (lead : c.rest = t.lead ++ here.rest) :
    t.freshLine = decide (here.line ≠ c.line) := by
  obtain ⟨passed, split, moved⟩ := Cursor.skipTrivia_reaches trivia
  obtain rfl : passed = t.lead := List.append_cancel_right (split.symm.trans lead)
  have line : here.line = c.line + lineBreaks t.lead := by rw [moved]; rfl
  rw [Token.freshLine, line, lineBreaks, Bool.eq_iff_iff, List.contains_iff_mem,
    ← List.count_pos_iff, decide_eq_true_eq]
  omega

/-- Where an expression of these tokens may end without a token, when `last` is in front of them. -/
def expressionEnds (last : Char) (taken : List Token) (first : Char) (freshLine : Bool) : Bool :=
  (Bracket.ofCloser? first).isSome ||
    freshLine && !continues ((taken.getLast?.map lastMark).getD last) first none

theorem expressionEnds_cons (last : Char) (t : Token) (taken : List Token) :
    expressionEnds last (t :: taken) = expressionEnds (lastMark t) taken := by
  funext first freshLine
  rw [expressionEnds, expressionEnds, List.getLast?_cons]
  cases taken.getLast? <;> rfl

theorem takeExpression_cons (last : Char) (t : Token) (rest : List Token) :
    takeExpression last (t :: rest) =
      if t.is ',' || t.is ';' || t.freshLine && !continues last t.first t.word? then ([], t :: rest)
      else (t :: (takeExpression (lastMark t) rest).1, (takeExpression (lastMark t) rest).2) := by
  rw [takeExpression]
  by_cases separator : (t.is ',' || t.is ';') = true
  · rw [if_pos separator, separator, Bool.true_or, if_pos rfl]
  · rw [if_neg separator, Bool.not_eq_true _ |>.mp separator, Bool.false_or]

/-- A reader behind `last` ends an expression at `c`, in front of what is at `here`. -/
def endsReading (last : Char) (c here : Cursor) (first : Char) : Bool :=
  (first = ',' || first = ';' || (Bracket.ofCloser? first).isSome) ||
    here.line ≠ c.line && !continues last first (here.word?.map Prod.fst)

theorem expressionFrom_of_peek {start : Cursor} {last first : Char}
    (trivia : c.pastTrivia = .ok here) (shown : here.peek? = some first) :
    Reader.expressionFrom start last c =
      if endsReading last c here first then .ok (trim (start.upTo c), c)
      else
        match here.pastToken with
        | .error imbalance => .error imbalance
        | .ok after => Reader.expressionFrom start (ending (start.upTo after)) after := by
  rw [Reader.expressionFrom]
  -- the branches of the definition that the two hypotheses rule out are closed one by one
  split
  next failed => cases trivia.symm.trans failed
  next place same =>
    cases trivia.symm.trans same
    split
    next none => cases shown.symm.trans none
    next x same =>
      cases shown.symm.trans same
      rw [endsReading]
      split
      next ends => rw [ends, Bool.true_or, if_pos rfl]
      next goes =>
        rw [Bool.not_eq_true _ |>.mp goes, Bool.false_or]
        split
        · rfl
        · split
          next failed => rw [failed]
          next token => rw [token]

theorem takeExpression_isAt {last : Char} (one : here.IsAt t next)
    (lead : t.freshLine = decide (here.line ≠ c.line)) (rest : List Token) :
    takeExpression last (t :: rest) =
      if endsReading last c here t.first then ([], t :: rest)
      else (t :: (takeExpression (lastMark t) rest).1, (takeExpression (lastMark t) rest).2) := by
  have is (mark : Char) (separates : isSeparator mark = true) :
      decide (t.first = mark) = t.is mark :=
    Bool.eq_iff_iff.mpr (by rw [decide_eq_true_eq, one.is_iff separates])
  have word : here.word?.map Prod.fst = t.word? := by
    rw [one.word?]
    cases t.word? <;> rfl
  rw [takeExpression_cons, endsReading, is ',' (by decide), is ';' (by decide), one.ofCloser?,
    word, lead, Option.isSome_none, Bool.or_false]

/-- Where a blocked reader ends an expression, the matcher may end it without a token. -/
theorem endsReading_isBlocked {imbalance : Imbalance} (last : Char) (c : Cursor)
    (blocked : here.IsBlocked imbalance) :
    endsReading last c here (here.rest.headD ' ') =
      expressionEnds last [] (here.rest.headD ' ') (here.line ≠ c.line) := by
  obtain ⟨first, shown, barrier⟩ := blocked.peek?
  cases shown.symm.trans blocked.headD
  generalize here.rest.headD ' ' = first at barrier
  have differs (mark : Char) (separates : isSeparator mark = true) :
      decide (first = mark) = false := by
    rw [decide_eq_false_iff_not]
    rintro rfl
    cases barrier.symm.trans (isBarrier_of_isSeparator separates)
  rw [endsReading, differs ',' (by decide), differs ';' (by decide), blocked.word?]
  rfl

/-- By induction over the tokens that the reader takes; `passed` is what it has read. -/
theorem expressionFrom_agrees {c start : Cursor} {last : Char} {passed : List Char}
    (read : start.rest = passed ++ c.rest) (sees : origin.Sees c c.scan.tokens) :
    (∃ after, Reader.expressionFrom start last c =
          .ok (trim (passed ++ Token.source (takeExpression last c.scan.tokens).1), after) ∧
        origin.Sees after (takeExpression last c.scan.tokens).2 ∧
        checkStop c.scan.stop (takeExpression last c.scan.tokens).2
          (expressionEnds last (takeExpression last c.scan.tokens).1) = .ok ()) ∨
      ∃ imbalance, Reader.expressionFrom start last c = .error imbalance ∧
        checkStop c.scan.stop (takeExpression last c.scan.tokens).2
          (expressionEnds last (takeExpression last c.scan.tokens).1) = .error imbalance := by
  have text := Cursor.upTo_eq read
  -- by what stands behind the trivia: an open comment, the end, a place that blocks, or a token
  cases trivia : c.pastTrivia with
  | error imbalance =>
    obtain ⟨tokens, stop⟩ := (Cursor.Sees.start c).openComment trivia
    refine Or.inr ⟨imbalance, ?_, by rw [tokens, stop]; rfl⟩
    rw [Reader.expressionFrom]
    split
    next same =>
      cases trivia.symm.trans same
      rfl
    next same => cases trivia.symm.trans same
  | ok here =>
    have faces := sees.faces trivia
    cases Cursor.opens (mapError_eq_ok.mp trivia) with
    | finished ended tokens stop =>
      rw [tokens] at faces ⊢
      refine Or.inl ⟨here, ?_, faces.sees, by rw [stop]; rfl⟩
      -- the end of the text ends the expression, whatever was read last
      have none : here.peek? = none := by simp [Cursor.peek?, ended]
      rw [Reader.expressionFrom]
      split
      next same => cases trivia.symm.trans same
      next same =>
        cases trivia.symm.trans same
        split
        · rw [text, takeExpression, Token.source, List.flatMap_nil, List.append_nil]
        next shown => cases none.symm.trans shown
    | @blocked imbalance blocked tokens stop =>
      rw [expressionFrom_of_peek trivia blocked.headD, endsReading_isBlocked last c blocked,
        tokens, stop, takeExpression, checkStop]
      rw [tokens] at sees
      -- the matcher has no token here and looks at what stopped the scan: the expression ends in
      -- front of it, or fails as the reader does
      by_cases ends : expressionEnds last [] (here.rest.headD ' ') (here.line ≠ c.line) = true
      · rw [if_pos ends, if_pos ends]
        exact Or.inl ⟨c, by rw [text, Token.source, List.flatMap_nil, List.append_nil], sees, rfl⟩
      · rw [if_neg ends, if_neg ends, blocked.failed]
        exact Or.inr ⟨imbalance, rfl, rfl⟩
    | @token next t one lead tokens stop =>
      have fresh := freshLine_eq (mapError_eq_ok.mp trivia) lead
      rw [expressionFrom_of_peek trivia one.peek?, tokens, takeExpression_isAt one fresh]
      rw [tokens] at sees faces
      split
      next ends =>
        -- the token does not belong to the expression any more
        exact Or.inl ⟨c, by rw [text, Token.source, List.flatMap_nil, List.append_nil], sees,
          by simp [checkStop]⟩
      next goes =>
        -- the token is taken; what is read grows by its lead and its text, and the last character
        -- of that decides where a line break ends the expression
        have shorter : next.rest.length < c.rest.length := by
          have shown := List.length_pos_iff.mpr one.token.ne_nil
          rw [lead, one.split, List.length_append, List.length_append]
          omega
        have further : start.rest = passed ++ (t.lead ++ t.text) ++ next.rest := by
          rw [read, lead, one.split]
          simp
        have mark : ending (start.upTo next) = lastMark t := by
          rw [Cursor.upTo_eq further, ← List.append_assoc, ending_append one.token.ne_nil, lastMark]
        have outcome := @expressionFrom_agrees next start (lastMark t) _ further (faces.behind one)
        rw [stop, expressionEnds_cons, one.pastToken]
        rcases outcome with ⟨after, value, sees, ends⟩ | ⟨imbalance, failed, raised⟩
        · refine Or.inl ⟨after, ?_, sees, ends⟩
          simp only [mark, value]
          simp [Token.source]
        · exact Or.inr ⟨imbalance, by simp only [mark, failed], raised⟩
  termination_by c.rest.length

/-- Reader and matcher give the same and come to the same place, or fail with the same imbalance. -/
inductive Agrees {α : Type} (place : Cursor → List Token → Prop) :
    Except Imbalance (α × Cursor) → Except Imbalance (α × List Token) → Prop
  | ok {a : α} {c : Cursor} {later : List Token} (there : place c later) :
      Agrees place (.ok (a, c)) (.ok (a, later))
  | error {imbalance : Imbalance} : Agrees place (.error imbalance) (.error imbalance)

/-- The first token that is taken at the start has no trivia in front of it. -/
theorem source_takeExpression (last : Char) (tokens : List Token) :
    Token.source (takeExpression last (tokens.modifyHead fun t => { t with lead := [] })).1 =
      Token.span (takeExpression last (tokens.modifyHead fun t => { t with lead := [] })).1 := by
  cases tokens with
  | nil => rfl
  | cons t rest =>
    rw [List.modifyHead_cons, takeExpression_cons]
    split
    · rfl
    · simp [Token.source, Token.span]

theorem takeInitializer_eq (tokens : List Token) :
    takeInitializer tokens =
      takeExpression '=' (tokens.modifyHead fun t => { t with lead := [] }) := by
  cases tokens <;> rfl

/-- An expression goes on behind the `=` in front of it. -/
theorem expressionEnds_equals (taken : List Token) :
    expressionEnds '=' taken = fun first freshLine =>
      (Bracket.ofCloser? first).isSome ||
        freshLine && taken.getLast?.any fun last => !continues (lastMark last) first none := by
  funext first freshLine
  rw [expressionEnds]
  cases taken.getLast? with
  | none =>
    have goesOn : trailing.contains '=' = true := by decide
    simp only [Option.map_none, Option.getD_none, Option.any_none, continues, goesOn, Bool.true_or,
      Bool.not_true]
  | some last => rfl

theorem initializer_agrees (sees : origin.Sees c ahead) :
    Agrees origin.Sees (Reader.initializer c) (do
      checkStop origin.scan.stop (takeInitializer ahead).2
        (expressionEnds '=' (takeInitializer ahead).1)
      return (trim (Token.span (takeInitializer ahead).1), (takeInitializer ahead).2)) := by
  rw [Reader.initializer]
  rcases sees.pastTrivia with ⟨start, passed, faces⟩ | ⟨imbalance, failed, rfl, stop⟩
  · have bare := faces.scan_tokens
    have outcome := @expressionFrom_agrees origin start start '=' [] rfl faces.sees_scan
    rw [bare, source_takeExpression, ← takeInitializer_eq, List.nil_append] at outcome
    -- without a token the expression cannot end at a line break, so the line does not matter
    have same : checkStop start.scan.stop (takeInitializer ahead).2
          (expressionEnds '=' (takeInitializer ahead).1) =
        checkStop origin.scan.stop (takeInitializer ahead).2
          (expressionEnds '=' (takeInitializer ahead).1) := by
      rcases faces.scan_stop with stop | ⟨rfl, first, fresh, fresh', imbalance, stop, stop'⟩
      · rw [stop]
      · rw [stop, stop', expressionEnds_equals]
        simp [takeInitializer, checkStop]
    rw [same] at outcome
    rw [passed]
    rcases outcome with ⟨after, value, later, ends⟩ | ⟨imbalance, failed, raised⟩
    · rw [ends]
      change Agrees _ (Reader.expressionFrom start '=' start) _
      rw [value]
      exact .ok later
    · rw [raised]
      change Agrees _ (Reader.expressionFrom start '=' start) _
      rw [failed]
      exact .error
  · rw [failed, stop]
    exact .error

end

end Concord.Export
