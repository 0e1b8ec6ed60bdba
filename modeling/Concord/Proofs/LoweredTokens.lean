import Concord.Proofs.Items
import Concord.Proofs.UncommentedExports

/-!
Tokens that move as a whole. Reading looks at the line of a token only to copy it, so tokens further
down export the same further down. And a `;` behind the tokens ends whatever they leave open, just
as the end of the text does; only inside angle brackets it does not. Both are one relation here:
the second tokens are the first, some lines further down, with nothing or a `;` behind them.
-/
namespace Concord.Scan

/-- The token on a line further down. -/
def Token.lower (down : Nat) (t : Token) : Token :=
  { t with line := t.line + down }

namespace Token

variable (down : Nat) (t : Token)

@[simp] theorem lower_line : (t.lower down).line = t.line + down := rfl

@[simp] theorem lower_text : (t.lower down).text = t.text := rfl

@[simp] theorem lower_lead : (t.lower down).lead = t.lead := rfl

@[simp] theorem lower_first : (t.lower down).first = t.first := by
  cases t
  rfl

@[simp] theorem lower_is (mark : Char) : (t.lower down).is mark = t.is mark := by
  cases t
  rfl

@[simp] theorem lower_isWord (word : String) : (t.lower down).isWord word = t.isWord word := by
  cases t
  rfl

@[simp] theorem lower_word? : (t.lower down).word? = t.word? := by
  cases t
  rfl

@[simp] theorem lower_group? : (t.lower down).group? = t.group? := by
  cases t
  rfl

@[simp] theorem lower_interior : (t.lower down).interior = t.interior := rfl

@[simp] theorem lower_isQuoted : (t.lower down).isQuoted = t.isQuoted := by
  cases t
  rfl

@[simp] theorem lower_isGlued (mark : Char) : (t.lower down).isGlued mark = t.isGlued mark := by
  cases t
  rfl

@[simp] theorem lower_freshLine : (t.lower down).freshLine = t.freshLine := by
  cases t
  rfl

@[simp] theorem span_lower (tokens : List Token) :
    span (tokens.map (lower down)) = span tokens := by
  cases tokens with
  | nil => rfl
  | cons t rest => simp [span, List.flatMap_map]

end Token

end Concord.Scan

namespace Concord.Export

open Concord.Scan Concord.Text

/-- The export on a line further down. -/
def lower (down : Nat) (e : Export) : Export :=
  { e with line := e.line + down }

/-- The second tokens are the first, `down` lines further down. Behind them stands nothing or, if
there is a `tail`, a `;` and the tail; then no angle bracket opens among them. -/
inductive Placed (down : Nat) (tail : Option (List Token)) : List Token → List Token → Prop
  | bare (last : tail = none) : Placed down tail [] []
  | ended {semi : Token} {rest : List Token} (behind : tail = some rest)
      (ends : semi.text = [';']) : Placed down tail [] (semi :: rest)
  | cons {t : Token} {ts ts' : List Token} (plain : tail.isSome = true → t.is '<' = false)
      (later : Placed down tail ts ts') : Placed down tail (t :: ts) (t.lower down :: ts')

theorem is_of_semi {semi : Token} (ends : semi.text = [';']) (mark : Char) :
    semi.is mark = decide (mark = ';') := by
  simp [Token.is, ends, eq_comm]

section

variable {down : Nat} {tail : Option (List Token)} {tokens tokens' : List Token}

theorem Placed.length (placed : Placed down tail tokens tokens') :
    tokens'.length = tokens.length + tail.elim 0 fun rest => rest.length + 1 := by
  induction placed with
  | bare last => simp [last]
  | ended behind => simp [behind]
  | cons _ _ ih =>
    simp only [List.length_cons, ih]
    omega

theorem Placed.take (placed : Placed down tail tokens tokens') {count : Nat}
    (within : count ≤ tokens.length) :
    tokens'.take count = (tokens.take count).map (Token.lower down) := by
  induction placed generalizing count with
  | bare | ended => simp [show count = 0 by simpa using within]
  | cons _ _ ih =>
    cases count with
    | zero => rfl
    | succ count => simp [ih (Nat.le_of_succ_le_succ within)]

/-- What stands in front of a remainder is the same, further down. -/
theorem Placed.before {after after' : List Token} (placed : Placed down tail tokens tokens')
    (left : Placed down tail after after') :
    Token.before tokens' after' = (Token.before tokens after).map (Token.lower down) := by
  have count : tokens'.length - after'.length = tokens.length - after.length := by
    rw [placed.length, left.length]
    omega
  rw [Token.before, Token.before, count, placed.take (Nat.sub_le _ _)]

/-! Types and expressions -/

theorem skipMark_placed (placed : Placed down tail tokens tokens') {mark : Char}
    (other : mark ≠ ';') : Placed down tail (skipMark mark tokens) (skipMark mark tokens') := by
  cases placed with
  | bare last => exact .bare last
  | ended behind ends =>
    simp only [skipMark, is_of_semi ends, other, decide_false]
    exact .ended behind ends
  | cons plain later =>
    simp only [skipMark, Token.lower_is]
    split
    · exact later
    · exact .cons plain later

end

/-- A type ends at the same token. In front of a `;` no angle bracket is open. -/
theorem skipType_placed {down : Nat} {tail : Option (List Token)} {tokens tokens' : List Token}
    (placed : Placed down tail tokens tokens') (angle : Nat)
    (outside : tail.isSome = true → angle = 0) :
    Placed down tail (skipType angle tokens).2 (skipType angle tokens').2 := by
  cases placed with
  | bare last => exact .bare last
  | @ended semi rest behind ends =>
    obtain rfl := outside (by simp [behind])
    rw [show skipType 0 (semi :: rest) = (0, semi :: rest) by
      rw [skipType.eq_def]
      simp [is_of_semi ends]]
    exact .ended behind ends
  | @cons t ts ts' plain later =>
    rw [skipType.eq_def angle (t.lower down :: ts'), skipType.eq_def angle (t :: ts)]
    simp only [Token.lower_is]
    split
    next opens =>
      refine skipType_placed later _ fun some => ?_
      rw [plain some] at opens
      cases opens
    split
    · exact skipType_placed later _ fun some => by rw [outside some]
    -- an `=` ends a type unless it is the first half of an arrow, and a `;` is no half of one
    split
    · cases later with
      | bare last =>
        simp only
        split
        · exact .cons plain (.bare last)
        · exact .bare last
      | ended behind ends =>
        obtain rfl := outside (by simp [behind])
        simp only [Token.isGlued, is_of_semi ends, Char.reduceEq, decide_false, Bool.and_false,
          Bool.false_eq_true, if_true, if_false]
        exact .cons plain (.ended behind ends)
      | @cons u us us' plain' later' =>
        simp only [Token.lower_isGlued]
        split
        · exact skipType_placed later' _ outside
        split
        · exact .cons plain (.cons plain' later')
        · exact skipType_placed (.cons plain' later') _ outside
    split
    · exact .cons plain later
    · exact skipType_placed later _ outside
  termination_by tokens.length

/-- Type parameters end at the same token, if nothing stands behind. -/
theorem skipTypeParameters_placed {down : Nat} {tokens tokens' : List Token}
    (placed : Placed down none tokens tokens') (angle : Nat) :
    Placed down none (skipTypeParameters angle tokens) (skipTypeParameters angle tokens') := by
  cases placed with
  | bare last => exact .bare last
  | ended behind => cases behind
  | @cons t ts ts' plain later =>
    rw [skipTypeParameters.eq_def angle (t.lower down :: ts'),
      skipTypeParameters.eq_def angle (t :: ts)]
    -- the same marks further down, so the same branch is taken; an arrow is two tokens
    simp only [Token.lower_is]
    split
    · exact skipTypeParameters_placed later _
    split
    · split
      · exact later
      · exact skipTypeParameters_placed later _
    split
    · cases later with
      | bare last => exact .bare last
      | ended behind => cases behind
      | @cons u us us' plain' later' =>
        simp only [Token.lower_isGlued]
        split
        · exact skipTypeParameters_placed later' _
        · exact skipTypeParameters_placed (.cons plain' later') _
    · exact skipTypeParameters_placed later _
  termination_by tokens.length

section

variable {down : Nat} {tail : Option (List Token)} {tokens tokens' : List Token}

theorem takeExpression_placed (placed : Placed down tail tokens tokens') (last : Char) :
    (takeExpression last tokens').1 = (takeExpression last tokens).1.map (Token.lower down) ∧
      Placed down tail (takeExpression last tokens).2 (takeExpression last tokens').2 := by
  induction placed generalizing last with
  | bare ended => exact ⟨rfl, .bare ended⟩
  | ended behind ends =>
    simp only [takeExpression, is_of_semi ends, decide_true, Bool.or_true, if_true]
    exact ⟨rfl, .ended behind ends⟩
  | @cons t ts ts' plain later ih =>
    have mark : lastMark (t.lower down) = lastMark t := rfl
    simp only [takeExpression, Token.lower_is, Token.lower_freshLine, Token.lower_first,
      Token.lower_word?, mark]
    split
    · exact ⟨rfl, .cons plain later⟩
    split
    · exact ⟨rfl, .cons plain later⟩
    · obtain ⟨taken, left⟩ := ih (lastMark t)
      exact ⟨by rw [taken, List.map_cons], left⟩

theorem takeInitializer_placed (placed : Placed down tail tokens tokens') :
    (takeInitializer tokens').1 = (takeInitializer tokens).1.map (Token.lower down) ∧
      Placed down tail (takeInitializer tokens).2 (takeInitializer tokens').2 := by
  cases placed with
  | bare last => exact ⟨rfl, .bare last⟩
  | @ended semi rest behind ends =>
    have bare : Placed down tail [] ({ semi with lead := [] } :: rest) := .ended behind ends
    exact takeExpression_placed bare '='
  | @cons t ts ts' plain later =>
    have bare : Placed down tail ({ t with lead := [] } :: ts)
        ({ t with lead := [] }.lower down :: ts') := .cons plain later
    exact takeExpression_placed bare '='

/-! Declarators -/

theorem typeClause_placed (placed : Placed down tail tokens tokens') :
    ∃ typed later later', typeClause .finished tokens = .ok (typed, later) ∧
      typeClause .finished tokens' = .ok (typed, later') ∧ Placed down tail later later' := by
  cases placed with
  | bare last => exact ⟨false, [], [], rfl, rfl, .bare last⟩
  | ended behind ends =>
    refine ⟨false, [], _, rfl, ?_, .ended behind ends⟩
    simp [typeClause, is_of_semi ends]
  | cons plain later =>
    simp only [typeClause, Token.lower_is, checkStop_finished]
    split
    · exact ⟨true, _, _, rfl, rfl, skipType_placed later 0 fun _ => rfl⟩
    · exact ⟨false, _, _, rfl, rfl, .cons plain later⟩

theorem initializer_placed (placed : Placed down tail tokens tokens') :
    ∃ source later later', initializer .finished tokens = .ok (source, later) ∧
      initializer .finished tokens' = .ok (source, later') ∧ Placed down tail later later' := by
  cases placed with
  | bare last => exact ⟨none, [], [], rfl, rfl, .bare last⟩
  | ended behind ends =>
    refine ⟨none, [], _, rfl, ?_, .ended behind ends⟩
    simp [initializer, is_of_semi ends]
  | cons plain later =>
    obtain ⟨taken, left⟩ := takeInitializer_placed later
    simp only [initializer, Token.lower_is, checkStop_finished, taken, Token.span_lower]
    split
    · exact ⟨_, _, _, rfl, rfl, left⟩
    · exact ⟨none, _, _, rfl, rfl, .cons plain later⟩

theorem startsInitializer_placed (placed : Placed down tail tokens tokens') :
    startsInitializer tokens' = startsInitializer tokens := by
  cases placed with
  | bare => rfl
  | @ended semi rest behind ends => cases rest <;> simp [startsInitializer, is_of_semi ends]
  | cons _ later =>
    cases later with
    | bare => rfl
    | ended _ ends => simp [startsInitializer, Token.isGlued, is_of_semi ends]
    | cons => rfl

end

/-! Patterns -/

/-- The binding on a line further down. -/
def Binding.lower (down : Nat) (binding : Binding) : Binding :=
  { binding with line := binding.line + down }

theorem Binding.ofName_lower (name : List Char) (line down : Nat) :
    Binding.ofName name (line + down) = (Binding.ofName name line).map (Binding.lower down) := by
  simp only [Binding.ofName]
  split <;> rfl

/-- A traversal whose steps are followed by a function. -/
theorem mapM_map {α β γ : Type} {f : α → Except Imbalance β} {f' : α → Except Imbalance γ}
    {g : β → γ} {xs : List α} (each : ∀ x ∈ xs, f' x = (f x).map g) :
    xs.mapM f' = (xs.mapM f).map (List.map g) := by
  induction xs with
  | nil => rfl
  | cons x xs ih =>
    obtain ⟨first, others⟩ := List.forall_mem_cons.mp each
    rw [List.mapM_cons, List.mapM_cons, first, ih others]
    cases f x with
    | error => rfl
    | ok y => cases xs.mapM f <;> rfl

theorem entryBindings_lower {isObject : Bool} {line down : Nat} {pattern : List Char}
    {piece : Piece}
    (deeper : ∀ {innerIsObject innerLine inner}, inner.length < piece.text.length →
      bindings innerIsObject (innerLine + down) inner =
        (bindings innerIsObject innerLine inner).map (List.map (Binding.lower down))) :
    entryBindings isObject (line + down) pattern piece =
      (entryBindings isObject line pattern piece).map (List.map (Binding.lower down)) := by
  -- every line of the entry is counted from the given one, so the shift goes through the sums
  have below (n : Nat) : line + down + n = line + n + down := by omega
  simp only [entryBindings]
  split
  · rfl
  split
  · rw [below, Binding.ofName_lower]
    rfl
  split
  · rfl
  next target bound =>
    have below' (n m : Nat) : line + down + n + m = line + n + m + down := by omega
    split
    next innerIsObject inner nested =>
      -- a nested pattern is shorter than the piece it stands in, which is what the hypothesis asks
      -- for
      have first := trim_length_le piece.text
      have second := bindingTarget_length_le bound
      have third := trim_length_le target.text
      have fourth := nestedPattern?_length_lt nested
      rw [below', deeper (by omega)]
    · rw [below', Binding.ofName_lower]
      rfl

/-- A pattern further down binds the same, further down. -/
theorem bindings_lower (isObject : Bool) (line down : Nat) (pattern : List Char) :
    bindings isObject (line + down) pattern =
      (bindings isObject line pattern).map (List.map (Binding.lower down)) := by
  rw [bindings_eq, bindings_eq]
  cases cut : split ',' pattern with
  | error => rfl
  | ok pieces =>
    have each : ∀ piece ∈ pieces, entryBindings isObject (line + down) pattern piece =
        (entryBindings isObject line pattern piece).map (List.map (Binding.lower down)) := by
      intro piece member
      have length := split_length_le cut piece member
      refine entryBindings_lower ?_
      intro innerIsObject innerLine inner shorter
      exact bindings_lower innerIsObject innerLine down inner
    simp only [bind, Except.bind, mapM_map each]
    cases pieces.mapM (entryBindings isObject line pattern) with
    | error => rfl
    | ok found => simp [Except.map, pure, Except.pure, List.map_flatten]
  termination_by pattern.length

/-- The same exports further down, and the tokens behind them further down. -/
def Lowered (down : Nat) (tail : Option (List Token)) (read read' : List Export × List Token) :
    Prop :=
  read'.1 = read.1.map (lower down) ∧ Placed down tail read.2 read'.2

section

variable {down : Nat} {tail : Option (List Token)} {t : Token} {rest rest' : List Token}

theorem patternExports_placed (placed : Placed down tail rest rest') :
    Both (Lowered down tail) (patternExports .finished t rest)
      (patternExports .finished (t.lower down) rest') := by
  obtain ⟨typed, middle, middle', clause, clause', placed⟩ := typeClause_placed placed
  obtain ⟨source, later, later', value, value', placed⟩ := initializer_placed placed
  simp only [patternExports, clause, clause', value, value', Token.lower_group?, Token.lower_line,
    Token.lower_interior, bindings_lower, bind, Except.bind]
  cases bindings (t.group? = some .curly) t.line t.interior with
  | error imbalance => exact .error imbalance
  | ok found => exact .ok ⟨by simp [lower, Binding.lower], placed⟩

theorem nameExport_placed (placed : Placed down tail rest rest') :
    Both (fun read read' => read'.1 = lower down read.1 ∧ Placed down tail read.2 read'.2)
      (nameExport .finished t rest) (nameExport .finished (t.lower down) rest') := by
  obtain ⟨typed, middle, middle', clause, clause', placed⟩ :=
    typeClause_placed (skipMark_placed placed (show '!' ≠ ';' by decide))
  obtain ⟨source, later, later', value, value', left⟩ := initializer_placed placed
  simp only [nameExport, clause, clause', startsInitializer_placed placed, bind, Except.bind]
  split
  · simp only [value, value']
    exact .ok ⟨rfl, left⟩
  · exact .ok ⟨rfl, placed⟩

theorem declarator_placed (placed : Placed down tail rest rest') :
    Both (Option.Rel (Lowered down tail)) (declarator .finished t rest)
      (declarator .finished (t.lower down) rest') := by
  simp only [declarator, Token.lower_group?, Token.lower_word?]
  split
  · exact (patternExports_placed placed).bind fun _ _ _ same => .ok (.some same)
  · split
    · refine (nameExport_placed placed).bind fun read read' _ same => .ok (.some ?_)
      exact ⟨by simp [same.1], same.2⟩
    · exact .ok .none

end

theorem declarators_placed {down : Nat} {tail : Option (List Token)} {tokens tokens' : List Token}
    (placed : Placed down tail tokens tokens') :
    Both (Lowered down tail) (declarators .finished tokens) (declarators .finished tokens') := by
  cases placed with
  | bare last =>
    rw [declarators]
    exact .ok ⟨rfl, .bare last⟩
  -- a `;` is neither a pattern nor a name, so both stop in front of it
  | @ended semi rest behind ends =>
    have noName : declarator .finished semi rest = .ok none := by
      rw [declarator, Token.group?, Token.word?, Token.first, ends]
      rfl
    rw [declarators, declarators_cons, noName]
    exact .ok ⟨rfl, .ended behind ends⟩
  | @cons t ts ts' plain later =>
    rw [declarators_cons, declarators_cons]
    refine (declarator_placed later).bind fun read read' outcome same => ?_
    cases same with
    | none => exact .ok ⟨rfl, .cons plain later⟩
    | @some read read' same =>
      obtain ⟨exports, left⟩ := read
      obtain ⟨exports', left'⟩ := read'
      obtain ⟨equal, behind⟩ := same
      have shorter : left.length ≤ ts.length := declarator_length_le outcome
      -- behind a declarator only a comma leads to another one, and a `;` is none
      cases behind with
      | bare last => exact .ok ⟨equal, .bare last⟩
      | ended behind ends =>
        simp only [moreDeclarators, is_of_semi ends]
        exact .ok ⟨equal, .ended behind ends⟩
      | @cons u us us' plain' later' =>
        simp only [moreDeclarators, Token.lower_is]
        split
        · refine (declarators_placed later').bind fun _ _ _ same => .ok ⟨?_, same.2⟩
          rw [List.map_append, ← equal, same.1]
        · exact .ok ⟨equal, .cons plain' later'⟩
  termination_by tokens.length
  decreasing_by
    simp only [List.length_cons] at shorter ⊢
    omega

end Concord.Export
