import Concord.Proofs.ExtractBalance
import Mathlib.Data.List.Forall2

/-!
Extraction clause by clause. A clause is what stands behind an `export` keyword; extraction reads
one after the other, each from where the one before it stopped, and its result is what the clauses
export, in their order.
-/
namespace Concord.Export

open Concord.Scan Concord.Text

/-- The tokens that reading a clause leaves. -/
def afterClause (stop : Stop) (clause : List Token) : List Token :=
  match exportClause stop clause with
  | .ok (_, later) => later
  | .error _ => []

theorem afterClause_length_le (stop : Stop) (clause : List Token) :
    (afterClause stop clause).length ≤ clause.length := by
  rw [afterClause]
  split
  next read => exact exportClause_length_le read
  · exact Nat.zero_le _

/-- The tokens from the start of each clause that is read from a statement on. -/
def clausesFrom (stop : Stop) (previous : Char) : List Token → List (List Token)
  | [] => []
  | t :: rest =>
    if t.isWord "export" && previous ≠ '.' then
      rest :: clausesFrom stop ';' (afterClause stop rest)
    else clausesFrom stop t.first rest
  termination_by tokens => tokens.length
  decreasing_by
    · have := afterClause_length_le stop rest
      simp only [List.length_cons]
      omega
    · simp

/-- The clauses that extraction reads in a text. -/
def clauses (text : List Char) : List (List Token) :=
  clausesFrom (scan text).stop ';' (scan text).tokens

/-- What a clause exports. -/
def clauseExports (stop : Stop) (clause : List Token) : Except Imbalance (List Export) :=
  (exportClause stop clause).map Prod.fst

/-- The answer of a reading that came to the end of the tokens. -/
def atStop (stop : Stop) (exports : List Export) : Except Imbalance (List Export) :=
  match stop.imbalance? with
  | none => .ok exports
  | some imbalance => .error imbalance

theorem exportsFrom_eq (stop : Stop) (previous : Char) (tokens : List Token) :
    exportsFrom stop previous tokens =
      (clausesFrom stop previous tokens).mapM (clauseExports stop) >>= fun found =>
        atStop stop found.flatten := by
  -- by the recursion over the tokens: a clause that fails ends both, and one that is read leaves
  -- both at the same place
  fun_induction exportsFrom stop previous tokens with
  | case1 previous balanced =>
    rw [clausesFrom, List.mapM_nil, pure_bind, atStop, balanced]
    rfl
  | case2 previous imbalance found =>
    rw [clausesFrom, List.mapM_nil, pure_bind, atStop, found]
  | case3 previous t rest exported imbalance read =>
    rw [clausesFrom, if_pos exported, List.mapM_cons, clauseExports, read]
    rfl
  | case4 previous t rest exported found later read ih =>
    have behind : afterClause stop rest = later := by rw [afterClause, read]
    have first : clauseExports stop rest = .ok found := by
      rw [clauseExports, read]
      rfl
    rw [clausesFrom, if_pos exported, behind, List.mapM_cons, first, ih]
    cases (clausesFrom stop ';' later).mapM (clauseExports stop) with
    | error => rfl
    | ok more =>
      simp only [bind, Except.bind, pure, Except.pure, atStop, List.flatten_cons]
      cases stop.imbalance? <;> rfl
  | case5 previous t rest other ih => rw [clausesFrom, if_neg other, ih]

/-- A traversal that succeeds gives one result for each element. -/
theorem mapM_eq_ok_iff {α β ε : Type} {f : α → Except ε β} {xs : List α} {ys : List β} :
    xs.mapM f = .ok ys ↔ List.Forall₂ (fun x y => f x = .ok y) xs ys := by
  induction xs generalizing ys with
  | nil => cases ys <;> simp [pure, Except.pure]
  | cons x xs ih =>
    rw [List.mapM_cons, bind_eq_ok]
    constructor
    · rintro ⟨y, first, rest⟩
      obtain ⟨more, behind, same⟩ := bind_eq_ok.mp rest
      cases same
      exact .cons first (ih.mp behind)
    · rintro (_ | ⟨first, behind⟩)
      exact ⟨_, first, bind_eq_ok.mpr ⟨_, ih.mpr behind, rfl⟩⟩

theorem exists_mapM_eq_ok_iff {α β ε : Type} {f : α → Except ε β} {xs : List α} :
    (∃ ys, xs.mapM f = .ok ys) ↔ ∀ x ∈ xs, ∃ y, f x = .ok y := by
  induction xs with
  | nil => simp [pure, Except.pure]
  | cons x xs ih =>
    rw [List.forall_mem_cons, ← ih]
    constructor
    · rintro ⟨ys, read⟩
      rw [List.mapM_cons] at read
      obtain ⟨y, first, rest⟩ := bind_eq_ok.mp read
      obtain ⟨more, behind, -⟩ := bind_eq_ok.mp rest
      exact ⟨⟨y, first⟩, more, behind⟩
    · rintro ⟨⟨y, first⟩, more, behind⟩
      refine ⟨y :: more, ?_⟩
      rw [List.mapM_cons, first, behind]
      rfl

theorem exists_mem_of_forall₂ {α β : Type} {related : α → β → Prop} {xs : List α} {ys : List β}
    (each : List.Forall₂ related xs ys) {x : α} (member : x ∈ xs) : ∃ y ∈ ys, related x y := by
  induction each with
  | nil => cases member
  | cons first _ ih =>
    rcases List.mem_cons.mp member with rfl | member
    · exact ⟨_, List.mem_cons_self, first⟩
    · obtain ⟨y, inside, related⟩ := ih member
      exact ⟨y, List.mem_cons_of_mem _ inside, related⟩

/-- Extraction succeeds on the texts that balance and whose clauses can all be read. -/
theorem exists_extract_eq_ok_iff {text : List Char} :
    (∃ exports, extract text = .ok exports) ↔ (scan text).stop.imbalance? = none ∧
      ∀ clause ∈ clauses text, ∃ found, clauseExports (scan text).stop clause = .ok found := by
  rw [← exists_mapM_eq_ok_iff, extract_eq, exportsFrom_eq]
  constructor
  · rintro ⟨exports, read⟩
    obtain ⟨found, each, ended⟩ := bind_eq_ok.mp read
    refine ⟨?_, found, each⟩
    cases balanced : (scan text).stop.imbalance? with
    | none => rfl
    | some imbalance =>
      rw [atStop, balanced] at ended
      cases ended
  · rintro ⟨balanced, found, each⟩
    exact ⟨found.flatten, bind_eq_ok.mpr ⟨found, each, by rw [atStop, balanced]⟩⟩

/-! Patterns -/

/-- The keywords of a declaration. -/
theorem exportClause_declares {stop : Stop} {t : Token} {rest : List Token}
    (declares : (t.isWord "const" || t.isWord "let" || t.isWord "var") = true) :
    exportClause stop (t :: rest) = declarators stop rest := by
  have noGroup : t.group? ≠ some .curly := by
    simp only [Token.isWord, Bool.or_eq_true, decide_eq_true_eq] at declares
    rcases declares with (text | text) | text <;>
      (rw [Token.group?, Token.first, text]; decide)
  simp only [exportClause]
  rw [if_neg noGroup, if_pos declares]

/-- The tokens of the declarators behind the first one. -/
def laterDeclarators (stop : Stop) (t : Token) (rest : List Token) : List Token :=
  match declarator stop t rest with
  | .ok (some (_, u :: later)) => if u.is ',' then later else []
  | _ => []

theorem laterDeclarators_length_le (stop : Stop) (t : Token) (rest : List Token) :
    (laterDeclarators stop t rest).length ≤ rest.length := by
  simp only [laterDeclarators]
  split
  next read =>
    have := declarator_length_le read
    simp only [List.length_cons] at this
    split
    · omega
    · exact Nat.zero_le _
  · exact Nat.zero_le _

/-- The patterns that reading a list of declarators comes to. -/
def declaredPatterns (stop : Stop) : List Token → List Token
  | [] => []
  | t :: rest =>
    (if startsPattern t then [t] else []) ++ declaredPatterns stop (laterDeclarators stop t rest)
  termination_by tokens => tokens.length
  decreasing_by
    have := laterDeclarators_length_le stop t rest
    simp only [List.length_cons]
    omega

/-- The patterns of a clause. -/
def clausePatterns (stop : Stop) : List Token → List Token
  | [] => []
  | t :: rest =>
    if t.isWord "const" || t.isWord "let" || t.isWord "var" then declaredPatterns stop rest else []

/-- The destructuring patterns that extraction reads in a text. -/
def patterns (text : List Char) : List Token :=
  (clauses text).flatMap (clausePatterns (scan text).stop)

/-- The bindings of a pattern. -/
def patternBindings (pattern : Token) : Except Imbalance (List Binding) :=
  bindings (pattern.group? = some .curly) pattern.line pattern.interior

section

variable {stop : Stop} {tokens rest : List Token}

theorem exists_typeClause (balanced : stop.imbalance? = none) (tokens : List Token) :
    ∃ read, typeClause stop tokens = .ok read := by
  cases outcome : typeClause stop tokens with
  | ok read => exact ⟨read, rfl⟩
  | error imbalance =>
    rw [typeClause_error outcome] at balanced
    cases balanced

theorem exists_initializer (balanced : stop.imbalance? = none) (tokens : List Token) :
    ∃ read, initializer stop tokens = .ok read := by
  cases outcome : initializer stop tokens with
  | ok read => exact ⟨read, rfl⟩
  | error imbalance =>
    rw [initializer_error outcome] at balanced
    cases balanced

theorem exists_patternExports_iff (balanced : stop.imbalance? = none) {pattern : Token} :
    (∃ read, patternExports stop pattern rest = .ok read) ↔
      ∃ found, patternBindings pattern = .ok found := by
  obtain ⟨⟨typed, middle⟩, clause⟩ := exists_typeClause balanced rest
  obtain ⟨⟨source, after⟩, value⟩ := exists_initializer balanced middle
  rw [patternExports, clause]
  constructor
  · rintro ⟨read, done⟩
    obtain ⟨_, -, behind⟩ := bind_eq_ok.mp done
    obtain ⟨_, -, last⟩ := bind_eq_ok.mp behind
    obtain ⟨found, bound, -⟩ := bind_eq_ok.mp last
    exact ⟨found, bound⟩
  · rintro ⟨found, bound⟩
    exact ⟨_, bind_eq_ok.mpr ⟨_, rfl, bind_eq_ok.mpr ⟨_, value, bind_eq_ok.mpr ⟨_, bound, rfl⟩⟩⟩⟩

theorem exists_declarator_iff (balanced : stop.imbalance? = none) {t : Token} :
    (∃ read, declarator stop t rest = .ok read) ↔
      (startsPattern t = true → ∃ found, patternBindings t = .ok found) := by
  -- only a pattern is scanned again, so nothing else fails in a text that balances
  by_cases pattern : startsPattern t = true
  · have reads : (∃ read, patternExports stop t rest = .ok read) ↔ _ :=
      exists_patternExports_iff balanced
    rw [declarator, if_pos (by simpa [startsPattern] using pattern), forall_prop_of_true pattern,
      ← reads]
    constructor
    · rintro ⟨read, done⟩
      obtain ⟨read, done, -⟩ := bind_eq_ok.mp done
      exact ⟨read, done⟩
    · rintro ⟨read, done⟩
      exact ⟨some read, bind_eq_ok.mpr ⟨read, done, rfl⟩⟩
  · constructor
    · exact fun _ starts => absurd starts pattern
    · intro _
      cases outcome : declarator stop t rest with
      | ok read => exact ⟨read, rfl⟩
      | error imbalance =>
        rw [declarator_error (by simpa using pattern) outcome] at balanced
        cases balanced

/-- In a text that balances, declarators fail only with a pattern of theirs. -/
theorem exists_declarators_iff (balanced : stop.imbalance? = none) :
    (∃ read, declarators stop tokens = .ok read) ↔
      ∀ t ∈ declaredPatterns stop tokens, ∃ found, patternBindings t = .ok found := by
  -- reading ends at a declarator that fails, that is none, or that no comma follows
  have ends {t : Token} {rest : List Token} (last : laterDeclarators stop t rest = []) :
      (∀ p ∈ declaredPatterns stop (t :: rest), ∃ found, patternBindings p = .ok found) ↔
        ∃ read, declarator stop t rest = .ok read := by
    rw [exists_declarator_iff balanced, declaredPatterns, last, declaredPatterns]
    by_cases pattern : startsPattern t = true <;> simp [pattern]
  fun_induction declarators stop tokens with
  | case1 => simp [declaredPatterns]
  | case2 t rest imbalance read => simp [ends, laterDeclarators, read]
  | case3 t rest read => simp [ends, laterDeclarators, read]
  | case4 t rest found read => simp [ends, laterDeclarators, read]
  | case5 t rest found u later read comma ih =>
    have first := (exists_declarator_iff balanced).mp ⟨_, read⟩
    have behind : laterDeclarators stop t rest = later := by simp [laterDeclarators, read, comma]
    rw [declaredPatterns, behind, List.forall_mem_append]
    constructor
    · rintro ⟨_, done⟩
      obtain ⟨more, done, -⟩ := bind_eq_ok.mp done
      refine ⟨?_, ih.mp ⟨more, done⟩⟩
      by_cases pattern : startsPattern t = true <;> simp_all
    · rintro ⟨-, fine⟩
      obtain ⟨more, done⟩ := ih.mpr fine
      exact ⟨_, bind_eq_ok.mpr ⟨more, done, rfl⟩⟩
  | case6 t rest found u later read other => simp [ends, laterDeclarators, read, other]

theorem exists_clauseExports_iff (balanced : stop.imbalance? = none) (lists : ListsCut tokens) :
    (∃ found, clauseExports stop tokens = .ok found) ↔
      ∀ t ∈ clausePatterns stop tokens, ∃ found, patternBindings t = .ok found := by
  have exports : (∃ found, clauseExports stop tokens = .ok found) ↔
      ∃ read, exportClause stop tokens = .ok read := by
    rw [clauseExports]
    cases exportClause stop tokens <;> simp [Except.map]
  rw [exports]
  cases tokens with
  | nil => simp [exportClause, clausePatterns]
  | cons t rest =>
    by_cases declares : (t.isWord "const" || t.isWord "let" || t.isWord "var") = true
    · rw [exportClause_declares declares, clausePatterns, if_pos declares]
      exact exists_declarators_iff balanced
    · -- every other clause fails only where the scan fails
      rw [clausePatterns, if_neg declares]
      refine ⟨fun _ => by simp, fun _ => ?_⟩
      cases outcome : exportClause stop (t :: rest) with
      | ok read => exact ⟨read, rfl⟩
      | error imbalance =>
        have noPattern : exportsPattern stop (t :: rest) = false := by
          rw [exportsPattern, eq_false_of_ne_true declares, Bool.false_and]
        rw [exportClause_error noPattern lists outcome] at balanced
        cases balanced

end

/-! Clauses and patterns are part of the text -/

theorem afterClause_remains (stop : Stop) (clause : List Token) :
    Remains (afterClause stop clause) clause := by
  rw [afterClause]
  split
  next read => exact exportClause_remains read
  · exact .nil _

theorem clausesFrom_remains {stop : Stop} {previous : Char} {tokens clause : List Token}
    (member : clause ∈ clausesFrom stop previous tokens) : Remains clause tokens := by
  fun_induction clausesFrom stop previous tokens with
  | case1 => cases member
  | case2 previous t rest exported ih =>
    rcases List.mem_cons.mp member with rfl | member
    · exact (Remains.refl _).drop t
    · exact ((ih member).trans (afterClause_remains stop rest)).drop t
  | case3 previous t rest other ih => exact (ih member).drop t

theorem laterDeclarators_remains (stop : Stop) (t : Token) (rest : List Token) :
    Remains (laterDeclarators stop t rest) rest := by
  simp only [laterDeclarators]
  split
  next found u later read =>
    split
    · exact ((Remains.refl later).drop u).trans (declarator_remains read)
    · exact .nil _
  · exact .nil _

theorem mem_declaredPatterns {stop : Stop} {tokens : List Token} {p : Token}
    (member : p ∈ declaredPatterns stop tokens) :
    startsPattern p = true ∧ ∃ u ∈ tokens, u.text = p.text := by
  fun_induction declaredPatterns stop tokens with
  | case1 => cases member
  | case2 t rest ih =>
    rcases List.mem_append.mp member with first | member
    · split at first
      next pattern =>
        obtain rfl := List.mem_singleton.mp first
        exact ⟨pattern, p, List.mem_cons_self, rfl⟩
      · cases first
    · obtain ⟨pattern, u, inside, text⟩ := ih member
      have remains := (laterDeclarators_remains stop t rest).drop t
      obtain ⟨v, inside, same⟩ := remains.exists_text inside
      exact ⟨pattern, v, inside, same.trans text⟩

theorem mem_clausePatterns {stop : Stop} {tokens : List Token} {p : Token}
    (member : p ∈ clausePatterns stop tokens) :
    startsPattern p = true ∧ ∃ u ∈ tokens, u.text = p.text := by
  cases tokens with
  | nil => cases member
  | cons t rest =>
    simp only [clausePatterns] at member
    split at member
    · obtain ⟨pattern, u, inside, text⟩ := mem_declaredPatterns member
      exact ⟨pattern, u, List.mem_cons_of_mem t inside, text⟩
    · cases member

/-- A pattern is a group of the text, so its interior balances. -/
theorem balances_of_mem_patterns {text : List Char} {p : Token} (member : p ∈ patterns text) :
    Balances [] true p.interior := by
  obtain ⟨clause, read, member⟩ := List.mem_flatMap.mp member
  obtain ⟨pattern, u, inside, same⟩ := mem_clausePatterns member
  obtain ⟨v, inside, text⟩ := (clausesFrom_remains read).exists_text inside
  rw [same] at text
  have group : ∃ bracket, v.group? = some bracket := by
    simp only [startsPattern, Token.group?, Token.first, ← text, Bool.or_eq_true,
      decide_eq_true_eq] at pattern ⊢
    exact pattern.elim (fun curly => ⟨_, curly⟩) fun square => ⟨_, square⟩
  obtain ⟨bracket, group⟩ := group
  rw [Token.interior, ← text]
  exact interior_balances inside group

end Concord.Export
