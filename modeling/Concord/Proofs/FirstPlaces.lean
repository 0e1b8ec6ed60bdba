import Concord.Proofs.MembersInCode
import Mathlib.Order.Bounds.Basic

/-!
Where each member is hit first. Hits may come in any order and may repeat a member: each member is
listed once, at the least of its offsets and on the line of that offset, and the listing goes down
the text. Hits that stand at different offsets give one listing, in whatever order they come.
-/
namespace Concord.Text

theorem breaksBefore_mono (text : List Char) {first second : Nat} (before : first ≤ second) :
    breaksBefore text first ≤ breaksBefore text second := by
  induction text generalizing first second with
  | nil => exact Nat.le_refl _
  | cons c rest ih =>
    simp only [breaksBefore]
    by_cases start : first = 0
    · rw [if_pos start]
      exact Nat.zero_le _
    · have shown : second ≠ 0 := by omega
      have later := @ih (first - c.utf8Size) (second - c.utf8Size) (by omega)
      rw [if_neg start, if_neg shown]
      omega

/-- Lines do not decrease along a text. -/
theorem lineAt_mono (text : List Char) {first second : Nat} (before : first ≤ second) :
    lineAt text first ≤ lineAt text second :=
  Nat.succ_le_succ (breaksBefore_mono text before)

end Concord.Text

namespace Concord.Access

open Concord.Text

/-- The offsets at which a member is hit. -/
def offsetsOf (hits : List (Nat × List Char)) (name : String) : Set Nat :=
  {offset | (offset, name.toList) ∈ hits}

/-- The members that are hit are listed once each, in the order of their least offsets and on the
lines of these. -/
structure ListsFirst (text : List Char) (hits : List (Nat × List Char)) (listed : List Member) :
    Prop where
  distinct : (listed.map Member.name).Nodup
  complete : ∀ name, name ∈ listed.map Member.name ↔ (offsetsOf hits name).Nonempty
  placed : ∀ member ∈ listed, ∃ offset, IsLeast (offsetsOf hits member.name) offset ∧
    member.line = lineAt text offset
  ordered : listed.Pairwise fun a b => ∀ first second, IsLeast (offsetsOf hits a.name) first →
    IsLeast (offsetsOf hits b.name) second → first ≤ second
  descends : (listed.map Member.line).Pairwise (· ≤ ·)

/-! The first hit of each member -/

theorem firstReads_sublist (seen : List (List Char)) (hits : List (Nat × List Char)) :
    (firstReads seen hits).Sublist hits := by
  induction hits generalizing seen with
  | nil => exact .slnil
  | cons hit rest ih =>
    rw [firstReads]
    split
    · exact (ih seen).cons hit
    · exact (ih (hit.2 :: seen)).cons_cons hit

/-- A member that was not seen before is taken if it is hit. -/
theorem mem_map_firstReads {seen : List (List Char)} {hits : List (Nat × List Char)}
    {member : List Char} (fresh : member ∉ seen) (hit : member ∈ hits.map Prod.snd) :
    member ∈ (firstReads seen hits).map Prod.snd := by
  -- by induction over the hits, with what was seen as an argument
  induction hits generalizing seen with
  | nil => cases hit
  | cons first rest ih =>
    rw [firstReads]
    split
    next known =>
      have old : first.2 ∈ seen := by simpa using known
      rcases List.mem_cons.mp hit with rfl | hit
      · exact absurd old fresh
      · exact ih fresh hit
    next new =>
      by_cases same : member = first.2
      · rw [same]
        exact List.mem_cons_self
      · rcases List.mem_cons.mp hit with here | hit
        · exact absurd here same
        · exact List.mem_cons_of_mem _ (ih (List.not_mem_cons_of_ne_of_not_mem same fresh) hit)

/-- The hits in the order of their offsets. -/
def sortedHits (hits : List (Nat × List Char)) : List (Nat × List Char) :=
  hits.mergeSort fun a b => a.1 ≤ b.1

theorem members_eq (text : List Char) (hits : List (Nat × List Char)) :
    members text hits = (firstReads [] (sortedHits hits)).map fun hit =>
      ⟨String.ofList hit.2, lineAt text hit.1⟩ :=
  rfl

theorem sortedHits_perm (hits : List (Nat × List Char)) : (sortedHits hits).Perm hits :=
  List.mergeSort_perm hits _

theorem sortedHits_pairwise (hits : List (Nat × List Char)) :
    (sortedHits hits).Pairwise fun a b => a.1 ≤ b.1 := by
  refine (List.pairwise_mergeSort ?_ ?_ hits).imp fun before => by simpa using before
  · intro a b c first second
    simp only [decide_eq_true_eq] at first second ⊢
    exact Nat.le_trans first second
  · intro a b
    simpa using Nat.le_total a.1 b.1

/-- Hits at different offsets have one order. -/
theorem sortedHits_eq_of_perm {hits other : List (Nat × List Char)}
    (apart : (hits.map Prod.fst).Nodup) (perm : other.Perm hits) :
    sortedHits other = sortedHits hits := by
  have rearranged : (sortedHits other).Perm (sortedHits hits) :=
    (sortedHits_perm other).trans (perm.trans (sortedHits_perm hits).symm)
  refine List.Perm.eq_of_pairwise ?_ (sortedHits_pairwise other) (sortedHits_pairwise hits)
    rearranged
  -- two hits in both orders share their offset, so they are one hit
  intro a b here there before after
  have inHits : a ∈ hits := perm.mem_iff.mp ((sortedHits_perm other).mem_iff.mp here)
  have alsoInHits : b ∈ hits := (sortedHits_perm hits).mem_iff.mp there
  exact List.inj_on_of_nodup_map apart inHits alsoInHits (Nat.le_antisymm before after)

theorem isLeast_of_mem_firstReads {hits : List (Nat × List Char)} {hit : Nat × List Char}
    (taken : hit ∈ firstReads [] (sortedHits hits)) :
    IsLeast (offsetsOf hits (String.ofList hit.2)) hit.1 := by
  obtain ⟨member, least⟩ := firstReads_least (sortedHits_pairwise hits) taken
  constructor
  · simpa [offsetsOf] using (sortedHits_perm hits).mem_iff.mp member
  · intro offset there
    have found : (offset, hit.2) ∈ hits := by simpa [offsetsOf] using there
    exact least (offset, hit.2) ((sortedHits_perm hits).mem_iff.mpr found) rfl

/-! The listing -/

theorem nodup_names_members (text : List Char) (hits : List (Nat × List Char)) :
    ((members text hits).map Member.name).Nodup := by
  have injective : Function.Injective String.ofList := fun _ _ => String.ofList_injective
  have names : (members text hits).map Member.name =
      ((firstReads [] (sortedHits hits)).map Prod.snd).map String.ofList := by
    simp [members_eq]
  rw [names]
  exact (nodup_firstReads [] (sortedHits hits)).1.map injective

theorem mem_names_members_iff {text : List Char} {hits : List (Nat × List Char)} {name : String} :
    name ∈ (members text hits).map Member.name ↔ (offsetsOf hits name).Nonempty := by
  constructor
  · intro listed
    obtain ⟨member, known, rfl⟩ := List.mem_map.mp listed
    obtain ⟨hit, taken, rfl⟩ := List.mem_map.mp (members_eq text hits ▸ known)
    exact ⟨hit.1, (isLeast_of_mem_firstReads taken).1⟩
  · rintro ⟨offset, hit⟩
    have sorted : (offset, name.toList) ∈ sortedHits hits :=
      (sortedHits_perm hits).mem_iff.mpr hit
    have taken : name.toList ∈ (firstReads [] (sortedHits hits)).map Prod.snd :=
      mem_map_firstReads List.not_mem_nil (List.mem_map.mpr ⟨_, sorted, rfl⟩)
    obtain ⟨first, member, same⟩ := List.mem_map.mp taken
    refine List.mem_map.mpr ⟨_, List.mem_map.mpr ⟨first, member, rfl⟩, ?_⟩
    show String.ofList first.2 = name
    rw [same, String.ofList_toList]

theorem listsFirst_members (text : List Char) (hits : List (Nat × List Char)) :
    ListsFirst text hits (members text hits) := by
  have ordered : (firstReads [] (sortedHits hits)).Pairwise fun a b => a.1 ≤ b.1 :=
    (sortedHits_pairwise hits).sublist (firstReads_sublist [] (sortedHits hits))
  refine ⟨nodup_names_members text hits, fun name => mem_names_members_iff, ?_, ?_, ?_⟩
  · intro member listed
    obtain ⟨hit, taken, rfl⟩ := List.mem_map.mp (members_eq text hits ▸ listed)
    exact ⟨hit.1, isLeast_of_mem_firstReads taken, rfl⟩
  · rw [members_eq, List.pairwise_map]
    refine ordered.imp_of_mem ?_
    -- the least offset of a member is the one of its first hit
    intro a b takenA takenB before first second leastA leastB
    rw [leastA.unique (isLeast_of_mem_firstReads takenA),
      leastB.unique (isLeast_of_mem_firstReads takenB)]
    exact before
  · rw [members_eq, List.map_map, List.pairwise_map]
    exact ordered.imp fun before => lineAt_mono text before

/-- Hits in any order list every member once, by its least offset and on the line of that offset,
and hits at different offsets list the same in every order. -/
theorem members_first_hits (text : List Char) (hits : List (Nat × List Char)) :
    ListsFirst text hits (members text hits) ∧
      ((hits.map Prod.fst).Nodup →
        ∀ other : List (Nat × List Char), other.Perm hits →
          members text other = members text hits) := by
  refine ⟨listsFirst_members text hits, fun apart other perm => ?_⟩
  rw [members_eq, members_eq, sortedHits_eq_of_perm apart perm]

/-- A member that is hit on two lines, the later one first. -/
def scatteredHits : List (Nat × List Char) :=
  [(10, ['b']), (6, ['a']), (2, ['b'])]

theorem members_first_hits_scattered :
    (scatteredHits.map Prod.fst).Nodup ∧ scatteredHits.reverse.Perm scatteredHits ∧
      members "x.b\nx.a\nx.b".toList scatteredHits = [⟨"b", 1⟩, ⟨"a", 2⟩] ∧
      ListsFirst "x.b\nx.a\nx.b".toList scatteredHits [⟨"b", 1⟩, ⟨"a", 2⟩] ∧
      members "x.b\nx.a\nx.b".toList scatteredHits.reverse = [⟨"b", 1⟩, ⟨"a", 2⟩] := by
  have apart : (scatteredHits.map Prod.fst).Nodup := by decide
  have perm : scatteredHits.reverse.Perm scatteredHits := List.reverse_perm scatteredHits
  -- backwards the hits are in order, so that is how they are sorted
  have sorted : sortedHits scatteredHits = scatteredHits.reverse := by
    rw [← sortedHits_eq_of_perm apart perm]
    apply List.mergeSort_of_pairwise
    decide
  have listed : members "x.b\nx.a\nx.b".toList scatteredHits = [⟨"b", 1⟩, ⟨"a", 2⟩] := by
    rw [members_eq, sorted]
    decide +kernel
  obtain ⟨first, same⟩ := members_first_hits "x.b\nx.a\nx.b".toList scatteredHits
  exact ⟨apart, perm, listed, listed ▸ first, (same apart _ perm).trans listed⟩

end Concord.Access
