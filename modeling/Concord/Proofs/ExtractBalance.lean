import Concord.Proofs.BalancedText
import Concord.Proofs.ReadStatements

/-!
When extraction fails. Its readers jump over nothing: an extraction that succeeds has come to the
end of the text, so the text balances. Where no destructuring pattern is read it also fails with
nothing but the imbalance of the text, since the entries of a list between braces can always be cut.
-/
namespace Concord.Export

open Concord.Scan Concord.Text

/-- A group that stands where a declared name could stand. One that is never closed is no token of
the scan, and so it starts nothing here. -/
def startsPattern (t : Token) : Bool :=
  t.group? = some .curly || t.group? = some .square

/-- Reading this list of declarators comes to a pattern. -/
def declaresPattern (stop : Stop) (tokens : List Token) : Bool :=
  match tokens with
  | [] => false
  | t :: rest =>
    startsPattern t ||
      match _read : declarator stop t rest with
      | .ok (some (_, u :: later)) => u.is ',' && declaresPattern stop later
      | _ => false
  termination_by tokens.length
  decreasing_by
    have := declarator_length_le _read
    simp only [List.length_cons] at this ⊢
    omega

/-- What stands after an `export` keyword declares with a pattern. -/
def exportsPattern (stop : Stop) : List Token → Bool
  | [] => false
  | t :: rest =>
    (t.isWord "const" || t.isWord "let" || t.isWord "var") && declaresPattern stop rest

/-- Reading exports from a statement on comes to a pattern. -/
def readsPatternFrom (stop : Stop) (previous : Char) (tokens : List Token) : Bool :=
  match tokens with
  | [] => false
  | t :: rest =>
    if t.isWord "export" && previous ≠ '.' then
      exportsPattern stop rest ||
        match _read : exportClause stop rest with
        | .ok (_, later) => readsPatternFrom stop ';' later
        | .error _ => false
    else readsPatternFrom stop t.first rest
  termination_by tokens.length
  decreasing_by
    · have := exportClause_length_le _read
      simp only [List.length_cons]
      omega
    · simp

/-! The same of a reader, to which an open group is a pattern that it cannot read -/

namespace Reader

/-- Reading a list of declarators comes to a pattern. -/
def declaresPattern (c : Cursor) : Bool :=
  match _trivia : c.pastTrivia with
  | .error _ => false
  | .ok here =>
    if here.peek? = some '\x7b' || here.peek? = some '[' then true
    else
      match _read : declarator here with
      | .error _ => false
      | .ok none => false
      | .ok (some (_, next)) =>
        match _space : next.pastTrivia with
        | .error _ => false
        | .ok behind =>
          match _comma : behind.eat? ',' with
          | none => false
          | some more => declaresPattern more
  termination_by c.rest.length
  decreasing_by
    exact Nat.lt_of_lt_of_le (Cursor.eat?_length_lt _comma)
      (((Cursor.pastTrivia_reaches _trivia).trans (declarator_reaches _read)).trans
        (Cursor.pastTrivia_reaches _space)).length_le

/-- What stands behind an `export` keyword declares with a pattern. -/
def exportsPattern (c : Cursor) : Bool :=
  match c.pastTrivia with
  | .error _ => false
  | .ok here =>
    match here.word? with
    | none => false
    | some (word, next) =>
      (word = "const".toList || word = "let".toList || word = "var".toList) && declaresPattern next

/-- Reading exports from a statement on comes to a pattern. -/
def readsPatternFrom (previous : Char) (c : Cursor) : Bool :=
  match _trivia : c.pastTrivia with
  | .error _ => false
  | .ok here =>
    match _first : here.peek? with
    | none => false
    | some first =>
      match _keyword : here.word?.filter fun found =>
          found.1 = "export".toList && previous ≠ '.' with
      | some (_, next) =>
        if exportsPattern next then true
        else
          match _clause : exportClause next with
          | .error _ => false
          | .ok (_, later) => readsPatternFrom ';' later
      | none =>
        match _token : here.pastToken with
        | .error _ => false
        | .ok next => readsPatternFrom first next
  termination_by c.rest.length
  decreasing_by
    · have named := (Option.filter_eq_some_iff.mp _keyword).1
      exact Nat.lt_of_le_of_lt (exportClause_reaches _clause).length_le
        (Nat.lt_of_lt_of_le (Cursor.word?_length_lt named)
          (Cursor.pastTrivia_reaches _trivia).length_le)
    · exact Nat.lt_of_lt_of_le (Cursor.pastToken_length_lt (Cursor.atEnd_of_peek? _first) _token)
        (Cursor.pastTrivia_reaches _trivia).length_le

end Reader

/-- Extraction comes to a destructuring pattern. -/
def readsPattern (text : List Char) : Bool :=
  Reader.readsPatternFrom ';' (Cursor.start text)

section

variable {origin c here : Cursor} {ahead : List Token}

/-- A later pattern stands behind a declarator and a comma. -/
theorem exists_of_declaresPattern (faces : origin.Faces here ahead)
    (other : ¬(here.peek? = some '\x7b' || here.peek? = some '[') = true)
    (declares : declaresPattern origin.scan.stop ahead = true) :
    ∃ found next u later, Reader.declarator here = .ok (some (found, next)) ∧
      origin.Sees next (u :: later) ∧ u.is ',' = true ∧
      declaresPattern origin.scan.stop later = true := by
  -- the matcher finds a later pattern only behind a token, so there is one
  cases faces.meets with
  | finished | blocked =>
    rw [declaresPattern] at declares
    cases declares
  | @token next t one later =>
    have curly : here.peek? = some '\x7b' ↔ t.group? = some .curly := peek?_eq_opener one .curly
    have square : here.peek? = some '[' ↔ t.group? = some .square := peek?_eq_opener one .square
    have agrees := declarator_agrees one later
    simp only [curly, square] at other
    rw [declaresPattern, startsPattern, Bool.not_eq_true _ |>.mp other, Bool.false_or] at declares
    split at declares
    next found u more read =>
      rw [read] at agrees
      rw [Bool.and_eq_true] at declares
      generalize Reader.declarator here = outcome at agrees
      cases agrees with
      | found sees => exact ⟨found, _, u, more, rfl, sees, declares⟩
    · cases declares

/-- The reader comes to a pattern that is matched. By induction over the declarators in front of
it. -/
theorem declaresPattern_sees (sees : origin.Sees c ahead)
    (declares : declaresPattern origin.scan.stop ahead = true) :
    Reader.declaresPattern c = true := by
  fun_induction Reader.declaresPattern c generalizing ahead with
  | case1 c imbalance trivia =>
    obtain ⟨rfl, -⟩ := sees.openComment trivia
    rw [declaresPattern] at declares
    cases declares
  | case2 => rfl
  -- the reader has come to no pattern and stops: then the matcher has found none behind it either
  | case3 c here trivia other imbalance failed | case4 c here trivia other failed =>
    obtain ⟨found, next, u, later, read, -⟩ :=
      exists_of_declaresPattern (sees.faces trivia) other declares
    cases failed.symm.trans read
  | case5 c here trivia other found next read imbalance space =>
    obtain ⟨found', next', u, later, read', behind, -⟩ :=
      exists_of_declaresPattern (sees.faces trivia) other declares
    cases read.symm.trans read'
    obtain ⟨none, -⟩ := behind.openComment space
    cases none
  | case6 c here trivia other found next read behind space noComma =>
    obtain ⟨found', next', u, later, read', sees, comma, -⟩ :=
      exists_of_declaresPattern (sees.faces trivia) other declares
    cases read.symm.trans read'
    cases (sees.faces space).meets with
    | token one =>
      rw [one.eat? (by decide), comma] at noComma
      cases noComma
  -- behind the comma the induction goes on, with the pattern that is found later
  | case7 c here trivia other found next read behind space more eaten ih =>
    obtain ⟨found', next', u, later, read', sees, comma, declares⟩ :=
      exists_of_declaresPattern (sees.faces trivia) other declares
    cases read.symm.trans read'
    cases (sees.faces space).meets with
    | token one further =>
      rw [one.eat? (by decide), comma, if_pos rfl] at eaten
      cases eaten
      exact ih further declares

theorem exportsPattern_sees (sees : origin.Sees c ahead)
    (declares : exportsPattern origin.scan.stop ahead = true) : Reader.exportsPattern c = true := by
  rw [Reader.exportsPattern]
  rcases sees.pastTrivia with ⟨here, passed, faces⟩ | ⟨imbalance, failed, rfl, -⟩
  · rw [passed]
    cases faces.meets with
    | finished | blocked => cases declares
    | @token next t one later =>
      rw [exportsPattern, Bool.and_eq_true] at declares
      obtain ⟨keyword, declares⟩ := declares
      have word : here.word? = some (t.text, next) := by
        simp only [Bool.or_eq_true] at keyword
        rcases keyword with (keyword | keyword) | keyword <;>
          rw [(isWord_iff one (by decide)).mp keyword, Token.isWord_iff.mp keyword]
      simp only [word]
      rw [Bool.and_eq_true]
      exact ⟨keyword, declaresPattern_sees later declares⟩
  · cases declares

/-- Tokens without an `export` export no pattern. -/
theorem readsPatternFrom_silent {stop : Stop} {tokens : List Token}
    (silent : ∀ t ∈ tokens, t.isWord "export" = false) (previous : Char) :
    readsPatternFrom stop previous tokens = false := by
  induction tokens generalizing previous with
  | nil => rw [readsPatternFrom]
  | cons t tokens ih =>
    obtain ⟨first, others⟩ := List.forall_mem_cons.mp silent
    rw [readsPatternFrom, first, Bool.false_and, if_neg Bool.false_ne_true]
    exact ih others t.first

/-- By induction over the tokens that are passed, where a clause is passed as a whole. -/
theorem readsPatternFrom_sees {previous : Char} (sees : origin.Sees c ahead)
    (reads : readsPatternFrom origin.scan.stop previous ahead = true) :
    Reader.readsPatternFrom previous c = true := by
  fun_induction Reader.readsPatternFrom previous c generalizing ahead with
  | case1 previous c imbalance trivia =>
    obtain ⟨rfl, -⟩ := sees.openComment trivia
    rw [readsPatternFrom] at reads
    cases reads
  | case2 previous c here trivia none =>
    cases (sees.faces trivia).meets with
    | finished | blocked =>
      rw [readsPatternFrom] at reads
      cases reads
    | token one => cases none.symm.trans one.peek?
  | case3 => rfl
  | case4 previous c here trivia first shown word next keyword noPattern imbalance failed =>
    obtain ⟨t, rfl, exported, later⟩ := exported_of_keyword (sees.faces trivia) keyword
    have concurs := exportClause_concurs later
    rw [readsPatternFrom, if_pos exported, Bool.or_eq_true] at reads
    -- the pattern stands in this clause, or behind it
    rcases reads with pattern | reads
    · exact absurd (exportsPattern_sees later pattern) noPattern
    · rw [failed] at concurs
      split at reads
      next read =>
        rw [read] at concurs
        cases concurs with
        | agrees agrees => cases agrees
        -- what the matcher goes on to holds no `export`, so it finds no pattern there
        | late stopped silent =>
          rw [readsPatternFrom_silent silent] at reads
          cases reads
      · cases reads
  | case5 previous c here trivia first shown word next keyword noPattern found later clause ih =>
    obtain ⟨t, rfl, exported, behind⟩ := exported_of_keyword (sees.faces trivia) keyword
    have concurs := exportClause_concurs behind
    rw [readsPatternFrom, if_pos exported, Bool.or_eq_true] at reads
    rcases reads with pattern | reads
    · exact absurd (exportsPattern_sees behind pattern) noPattern
    · rw [clause] at concurs
      split at reads
      next read =>
        rw [read] at concurs
        cases concurs with
        | agrees agrees =>
          cases agrees with
          | ok sees => exact ih sees reads
      · cases reads
  | case6 previous c here trivia first shown noKeyword imbalance failed =>
    cases (sees.faces trivia).meets with
    | finished | blocked =>
      rw [readsPatternFrom] at reads
      cases reads
    | token one => cases failed.symm.trans one.pastToken
  | case7 previous c here trivia first shown noKeyword next token ih =>
    cases (sees.faces trivia).meets with
    | finished | blocked =>
      rw [readsPatternFrom] at reads
      cases reads
    | @token after t one later =>
      cases token.symm.trans one.pastToken
      cases shown.symm.trans one.peek?
      rw [keyword_isAt one] at noKeyword
      split at noKeyword
      · cases noKeyword
      next other =>
        rw [readsPatternFrom, if_neg other] at reads
        exact ih later reads

theorem readsPatternFrom_scan {text : List Char} (noPattern : readsPattern text = false) :
    readsPatternFrom (scan text).stop ';' (scan text).tokens = false := by
  rw [← Bool.not_eq_true]
  intro reads
  have read := readsPatternFrom_sees (Cursor.Sees.start (Cursor.start text)) reads
  rw [readsPattern, read] at noPattern
  cases noPattern

end

section

variable {stop : Stop} {tokens rest : List Token} {imbalance : Imbalance}

theorem checkStop_error {ends : Char → Bool → Bool}
    (failed : checkStop stop rest ends = .error imbalance) : stop.imbalance? = some imbalance := by
  simp only [checkStop] at failed
  split at failed
  · cases failed
    rfl
  · split at failed <;> cases failed
    rfl
  · cases failed

theorem typeClause_error (failed : typeClause stop tokens = .error imbalance) :
    stop.imbalance? = some imbalance := by
  cases tokens with
  | nil =>
    rcases bind_eq_error.mp failed with raised | ⟨_, -, never⟩
    · exact checkStop_error raised
    · cases never
  | cons t rest =>
    simp only [typeClause] at failed
    split at failed
    · rcases bind_eq_error.mp failed with raised | ⟨_, -, never⟩
      · exact checkStop_error raised
      · cases never
    · cases failed

theorem initializer_error (failed : initializer stop tokens = .error imbalance) :
    stop.imbalance? = some imbalance := by
  cases tokens with
  | nil => cases failed
  | cons t rest =>
    simp only [initializer] at failed
    split at failed
    · rcases bind_eq_error.mp failed with raised | ⟨_, -, never⟩
      · exact checkStop_error raised
      · cases never
    · cases failed

theorem nameExport_error {name : Token} (failed : nameExport stop name rest = .error imbalance) :
    stop.imbalance? = some imbalance := by
  rcases bind_eq_error.mp failed with raised | ⟨⟨typed, later⟩, -, failed⟩
  · exact typeClause_error raised
  · simp only at failed
    split at failed
    · rcases bind_eq_error.mp failed with raised | ⟨_, -, never⟩
      · exact initializer_error raised
      · cases never
    · cases failed

theorem declarator_error {t : Token} (noPattern : startsPattern t = false)
    (failed : declarator stop t rest = .error imbalance) : stop.imbalance? = some imbalance := by
  simp only [declarator] at failed
  split at failed
  next pattern =>
    rw [startsPattern, pattern] at noPattern
    cases noPattern
  · split at failed
    · rcases bind_eq_error.mp failed with raised | ⟨_, -, never⟩
      · exact nameExport_error raised
      · cases never
    · cases failed

theorem declarators_error (noPattern : declaresPattern stop tokens = false)
    (failed : declarators stop tokens = .error imbalance) : stop.imbalance? = some imbalance := by
  fun_induction declarators stop tokens with
  | case1 | case3 | case4 | case6 => cases failed
  | case2 t rest raised read =>
    cases failed
    rw [declaresPattern, Bool.or_eq_false_iff] at noPattern
    exact declarator_error noPattern.1 read
  | case5 t rest found u later read comma ih =>
    rw [declaresPattern, Bool.or_eq_false_iff] at noPattern
    obtain ⟨-, behind⟩ := noPattern
    rcases bind_eq_error.mp failed with raised | ⟨_, -, never⟩
    · refine ih ?_ raised
      -- the pattern test goes on behind the comma, where the declarators go on
      split at behind
      next same => simp_all
      next none => exact absurd read (none _ _ _)
    · cases never

/-- Every group between braces can be cut at its commas. -/
def ListsCut (tokens : List Token) : Prop :=
  ∀ t ∈ tokens, t.group? = some .curly → ∃ pieces, split ',' t.interior = .ok pieces

theorem ListsCut.remains {later : List Token} (lists : ListsCut tokens)
    (remains : Remains later tokens) : ListsCut later := by
  intro t member group
  obtain ⟨u, member, text⟩ := remains.exists_text member
  have cut := lists u member (by rwa [Token.group?, Token.first, text])
  rwa [Token.interior, text] at cut

theorem listsCut_scan (text : List Char) : ListsCut (scan text).tokens := by
  intro t member group
  exact (interior_balances member group).exists_split (by decide)

theorem exportClause_error (noPattern : exportsPattern stop tokens = false)
    (lists : ListsCut tokens) (failed : exportClause stop tokens = .error imbalance) :
    stop.imbalance? = some imbalance := by
  cases tokens with
  | nil => cases failed
  | cons t rest =>
    -- a list fails only if it cannot be cut
    have cut (line : Nat) (origin : Option (List Char)) (group : t.group? = some .curly) :
        listExports line t.interior origin ≠ .error imbalance := by
      intro failed
      obtain ⟨pieces, cut⟩ := lists t List.mem_cons_self group
      rcases bind_eq_error.mp failed with raised | ⟨_, -, never⟩
      · rw [cut] at raised
        cases raised
      · cases never
    simp only [exportClause] at failed
    split at failed
    next group =>
      split at failed
      · rcases bind_eq_error.mp failed with raised | ⟨_, -, never⟩
        · exact absurd raised (cut _ _ group)
        · cases never
      · rcases bind_eq_error.mp failed with raised | ⟨_, -, never⟩
        · exact absurd raised (cut _ _ group)
        · cases never
    · split at failed
      next declares =>
        rw [exportsPattern, declares, Bool.true_and] at noPattern
        exact declarators_error noPattern failed
      · repeat' split at failed
        all_goals cases failed

/-- Reading fails with the imbalance it came to. -/
theorem exportsFrom_error {previous : Char}
    (noPattern : readsPatternFrom stop previous tokens = false) (lists : ListsCut tokens)
    (failed : exportsFrom stop previous tokens = .error imbalance) :
    stop.imbalance? = some imbalance := by
  fun_induction exportsFrom stop previous tokens with
  | case1 previous balanced => cases failed
  -- at the end of the tokens reading fails with what stopped the scan
  | case2 previous raised found =>
    cases failed
    exact found
  | case3 previous t rest exported raised read =>
    cases failed
    rw [readsPatternFrom, if_pos exported, Bool.or_eq_false_iff] at noPattern
    exact exportClause_error noPattern.1 (lists.remains ((Remains.refl rest).drop t)) read
  | case4 previous t rest exported found later read ih =>
    rw [readsPatternFrom, if_pos exported, Bool.or_eq_false_iff] at noPattern
    obtain ⟨-, behind⟩ := noPattern
    rcases bind_eq_error.mp failed with raised | ⟨_, -, never⟩
    · refine ih ?_ (lists.remains ((exportClause_remains read).drop t)) raised
      split at behind
      next same => simp_all
      next other => simp_all
    · cases never
  | case5 previous t rest other ih =>
    rw [readsPatternFrom, if_neg other] at noPattern
    exact ih noPattern (lists.remains ((Remains.refl rest).drop t)) failed

/-- Reading succeeds only at the end of a text that balances. -/
theorem exportsFrom_ok {previous : Char} {exports : List Export}
    (read : exportsFrom stop previous tokens = .ok exports) : stop.imbalance? = none := by
  fun_induction exportsFrom stop previous tokens generalizing exports with
  | case1 previous balanced => exact balanced
  | case2 | case3 => cases read
  | case4 previous t rest exported found later clause ih =>
    obtain ⟨more, read, -⟩ := bind_eq_ok.mp read
    exact ih read
  | case5 previous t rest other ih => exact ih read

end

/-- Extraction accepts no text that does not balance, and unless it reads a pattern it fails exactly
with the imbalance of the scan. -/
theorem extract_balance (text : List Char) :
    (∀ exports, extract text = .ok exports → (scan text).stop.imbalance? = none) ∧
      (readsPattern text = false → ∀ imbalance,
        extract text = .error imbalance ↔ (scan text).stop.imbalance? = some imbalance) := by
  rw [extract_eq]
  refine ⟨fun exports read => exportsFrom_ok read, fun noPattern imbalance => ⟨?_, ?_⟩⟩
  · exact exportsFrom_error (readsPatternFrom_scan noPattern) (listsCut_scan text)
  · intro found
    -- a text that does not balance is not accepted, and its failure can only be this one
    cases outcome : exportsFrom (scan text).stop ';' (scan text).tokens with
    | ok exports =>
      rw [exportsFrom_ok outcome] at found
      cases found
    | error other =>
      have same := exportsFrom_error (readsPatternFrom_scan noPattern) (listsCut_scan text) outcome
      rw [found] at same
      rw [Option.some.inj same]

/-- A list with a comment in it, a substitution, and a call that is closed by the wrong bracket. -/
def openCall : List Char :=
  "export \x7b a as b, /* , ( */ c \x7d\nexport const x: T<U> = f(`$\x7b \x7b\x7d\x7d`)\ng(]".toList

/-- A list and a substitution, all closed. -/
def closedCall : List Char :=
  "export \x7b a as b \x7d; f(`$\x7b(0)\x7d`)".toList

theorem extract_balance_calls :
    (extract closedCall =
        .ok [{ name := "b", kind := .reExport, line := 1, target := some "a" }] ∧
      (scan closedCall).stop.imbalance? = none) ∧
    readsPattern openCall = false ∧
      (scan openCall).stop.imbalance? = some ⟨3, .wrongCloser .square .round 3⟩ ∧
      extract openCall = .error ⟨3, .wrongCloser .square .round 3⟩ := by
  have closed : extract closedCall =
      .ok [{ name := "b", kind := .reExport, line := 1, target := some "a" }] := by decide +kernel
  have noPattern : readsPattern openCall = false := by decide +kernel
  have crossed : (scan openCall).stop.imbalance? = some ⟨3, .wrongCloser .square .round 3⟩ := by
    decide +kernel
  refine ⟨⟨closed, (extract_balance closedCall).1 _ closed⟩, noPattern, crossed, ?_⟩
  exact ((extract_balance openCall).2 noPattern _).mpr crossed

end Concord.Export
