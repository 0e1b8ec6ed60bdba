import Mathlib.Data.List.Induction
import Mathlib.Data.List.Nodup

/-!
First come, first kept. A list is divided by a key: an element comes first if no element before it
has its key, and repeats if one has. Positions decide this, so an element that is given twice comes
first once and repeats once.
-/
namespace Concord

variable {α κ : Type} [DecidableEq κ]

/-- What stands at a position has the key of something before it. -/
def recurs (key : α → κ) (xs : List α) (place : α × Nat) : Bool :=
  (xs.take place.2).any fun earlier => key earlier = key place.1

/-- The elements that come first, in order. -/
def firsts (key : α → κ) (xs : List α) : List α :=
  (xs.zipIdx.filter fun place => !recurs key xs place).map Prod.fst

/-- The elements that repeat an earlier key, in order. -/
def repeats (key : α → κ) (xs : List α) : List α :=
  (xs.zipIdx.filter (recurs key xs)).map Prod.fst

variable (key : α → κ) (xs : List α)

/-- Every element comes first or repeats. -/
theorem firsts_append_repeats_perm : (firsts key xs ++ repeats key xs).Perm xs := by
  have divided := List.filter_append_perm (recurs key xs) xs.zipIdx
  have swapped := (List.perm_append_comm.trans divided).map Prod.fst
  rwa [List.map_append, List.zipIdx_map_fst] at swapped

theorem length_firsts_add_length_repeats :
    (firsts key xs).length + (repeats key xs).length = xs.length := by
  have whole := (firsts_append_repeats_perm key xs).length_eq
  rwa [List.length_append] at whole

variable {key xs}

/-! One more element -/

/-- What comes later does not change whether an element repeats. -/
theorem recurs_append {place : α × Nat} (within : place ∈ xs.zipIdx) (more : List α) :
    recurs key (xs ++ more) place = recurs key xs place := by
  have before : place.2 < xs.length := by
    simpa using List.snd_lt_of_mem_zipIdx within
  rw [recurs, recurs, List.take_append_of_le_length (Nat.le_of_lt before)]

theorem recurs_last (x : α) :
    recurs key (xs ++ [x]) (x, xs.length) = decide (key x ∈ xs.map key) := by
  rw [recurs, List.take_left, Bool.eq_iff_iff]
  simp only [List.any_eq_true, decide_eq_true_eq, List.mem_map]

/-- One more element is selected, or not, by what stands before it; the others stay as they were. -/
theorem select_concat (key : α → κ) (xs : List α) (keep : Bool → Bool) (x : α) :
    ((xs ++ [x]).zipIdx.filter fun place => keep (recurs key (xs ++ [x]) place)).map Prod.fst =
      (xs.zipIdx.filter fun place => keep (recurs key xs place)).map Prod.fst ++
        if keep (decide (key x ∈ xs.map key)) then [x] else [] := by
  have old : xs.zipIdx.filter (fun place => keep (recurs key (xs ++ [x]) place)) =
      xs.zipIdx.filter fun place => keep (recurs key xs place) := by
    apply List.filter_congr
    intro place within
    rw [recurs_append within]
  rw [List.zipIdx_append, List.filter_append, old, List.map_append, Nat.zero_add,
    List.zipIdx_singleton, List.filter_singleton, recurs_last]
  cases keep (decide (key x ∈ xs.map key)) <;> rfl

theorem firsts_concat (x : α) :
    firsts key (xs ++ [x]) =
      if key x ∈ xs.map key then firsts key xs else firsts key xs ++ [x] := by
  rw [firsts, select_concat key xs not x, ← firsts]
  by_cases known : key x ∈ xs.map key <;> simp [known]

theorem repeats_concat (x : α) :
    repeats key (xs ++ [x]) =
      if key x ∈ xs.map key then repeats key xs ++ [x] else repeats key xs := by
  have selected : repeats key (xs ++ [x]) =
      repeats key xs ++ if key x ∈ xs.map key then [x] else [] := by
    simpa [repeats] using select_concat key xs id x
  rw [selected]
  by_cases known : key x ∈ xs.map key <;> simp [known]

/-! What comes first -/

/-- Every key has an element that comes first. -/
theorem mem_map_firsts {k : κ} : k ∈ (firsts key xs).map key ↔ k ∈ xs.map key := by
  induction xs using List.reverseRecOn with
  | nil => rfl
  | append_singleton xs x ih =>
    rw [firsts_concat]
    split
    next known =>
      rw [ih, List.map_append, List.mem_append]
      constructor
      · exact Or.inl
      · rintro (old | new)
        · exact old
        · rw [List.map_singleton, List.mem_singleton] at new
          exact new ▸ known
    next => rw [List.map_append, List.map_append, List.mem_append, List.mem_append, ih]

/-- No two elements that come first share a key. -/
theorem nodup_map_firsts : ((firsts key xs).map key).Nodup := by
  induction xs using List.reverseRecOn with
  | nil => exact List.nodup_nil
  | append_singleton xs x ih =>
    rw [firsts_concat]
    split
    next => exact ih
    next new =>
      rw [List.map_append, List.map_singleton, ← List.concat_eq_append]
      exact ih.concat (fun known => new (mem_map_firsts.mp known))

theorem mem_of_mem_firsts {x : α} (first : x ∈ firsts key xs) : x ∈ xs :=
  (firsts_append_repeats_perm key xs).mem_iff.mp (List.mem_append_left _ first)

/-- In a list that is ordered, what comes first stands before all that share its key. -/
theorem rel_of_mem_firsts {r : α → α → Prop} (refl : ∀ x, r x x) (ordered : xs.Pairwise r) {x y : α}
    (first : x ∈ firsts key xs) (other : y ∈ xs) (same : key y = key x) : r x y := by
  -- from the end of the list, where the last element is kept only if its key is new
  induction xs using List.reverseRecOn with
  | nil => cases other
  | append_singleton xs z ih =>
    obtain ⟨front, -, behind⟩ := List.pairwise_append.mp ordered
    rw [firsts_concat] at first
    rcases List.mem_append.mp other with here | last
    · -- an earlier element with the key of `x`, so `x` is not the last one
      split at first
      next => exact ih front first here
      next new =>
        rcases List.mem_append.mp first with first | last
        · exact ih front first here
        · rw [List.mem_singleton.mp last] at same
          exact absurd (List.mem_map.mpr ⟨y, here, same⟩) new
    · rw [List.mem_singleton.mp last]
      -- a first one is an earlier element or the last one itself
      have kept : x ∈ xs ∨ x = z := by
        split at first
        next => exact Or.inl (mem_of_mem_firsts first)
        next =>
          rcases List.mem_append.mp first with first | last
          · exact Or.inl (mem_of_mem_firsts first)
          · exact Or.inr (List.mem_singleton.mp last)
      rcases kept with member | rfl
      · exact behind x member z (List.mem_singleton_self z)
      · exact refl x

/-- What repeats has the key of an element that comes first. -/
theorem exists_first_of_mem_repeats {x : α} (again : x ∈ repeats key xs) :
    ∃ first ∈ firsts key xs, key first = key x := by
  have member : x ∈ xs :=
    (firsts_append_repeats_perm key xs).mem_iff.mp (List.mem_append_right _ again)
  exact List.mem_map.mp (mem_map_firsts.mpr (List.mem_map_of_mem member))

end Concord
