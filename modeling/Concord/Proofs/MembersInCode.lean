import Concord.Access.Collect
import Concord.Proofs.DistinctFindings
import Concord.Proofs.MemberSearch
import Concord.Proofs.SpacedCode

/-!
Reads of the tolerant search are code. Its matches are taken from the mask, and there the object,
the dot and the member of a match are shown: they stand in the text at the same places, with nothing
but blanks and comments in between.
-/
namespace Concord.Access

open Concord.Scan Concord.Text

/-- A read in a text, between `before` and `after` and with `lead` and `trail` around its dot, and
what the mask shows of all this. -/
structure Read.SeenIn (read : Read) (text before lead trail after shownBefore : List Char)
    (dot : Dot) (shownAfter : List Char) : Prop where
  split : text = before ++ read.object ++ lead ++ dot.mark ++ '.' :: trail ++ read.member ++ after
  spacingLead : Spacing lead
  spacingTrail : Spacing trail
  place : read.offset = byteSize (before ++ read.object ++ lead ++ dot.mark ++ '.' :: trail)
  shown : mask text = shownBefore ++ read.object ++ dot.lead ++ dot.mark ++ '.' :: dot.trail ++
    read.member ++ shownAfter
  beforeSize : byteSize before = byteSize shownBefore
  leadSize : byteSize lead = byteSize dot.lead
  trailSize : byteSize trail = byteSize dot.trail
  precedes : ∀ c ∈ shownBefore.getLast?, mayPrecede c = true

/-- The characters of a name leave code as it is and are shown there. -/
theorem plain_of_isName {name : List Char} (named : isName name = true) :
    ∀ c ∈ name, Masking.turns c = false ∧ c ≠ ' ' ∧ c ≠ '\n' := by
  intro c member
  have part := isNamePart_of_mem named member
  have other {x : Char} (meant : isNamePart x = false) : c ≠ x := by
    rintro rfl
    rw [part] at meant
    cases meant
  exact ⟨Masking.turns_of_any part (by decide +kernel), other (by decide), other (by decide)⟩

theorem starts_of_isName {name : List Char} (named : isName name = true) :
    ∃ c ∈ name.head?, isBlank c = false := by
  obtain ⟨c, rest, rfl, starts, -⟩ := exists_cons_of_isName named
  exact ⟨c, rfl, isBlank_of_isPlainStart starts⟩

theorem Dot.starts (dot : Dot) : ∃ c ∈ (dot.mark ++ ['.']).head?, isBlank c = false := by
  rw [Dot.mark]
  split
  · exact ⟨'?', rfl, by decide⟩
  · exact ⟨'.', rfl, by decide⟩

theorem Dot.plain (dot : Dot) :
    ∀ c ∈ dot.mark ++ ['.'], Masking.turns c = false ∧ c ≠ ' ' ∧ c ≠ '\n' := by
  intro c member
  rw [Dot.mark] at member
  split at member
  · rcases List.mem_pair.mp member with rfl | rfl <;> decide
  · obtain rfl := List.mem_singleton.mp member
    decide

/-- Where the mask shows a name in front of a dot, masking is in code. -/
theorem coding_of_name {m : Masking} {name rest back : List Char} {dot : Dot} {c : Char}
    (arises : m.Arises (c :: rest)) (named : isName (c :: name) = true)
    (run : m.run (c :: rest) = c :: name ++ (dot.text ++ back)) : m.Coding := by
  obtain ⟨-, solid⟩ := plain_of_isName named c List.mem_cons_self
  obtain ⟨starts, parts⟩ := isName_cons named
  have ahead : m.run (c :: rest) = c :: (name ++ dot.text ++ back) := by simpa using run
  obtain ⟨shown, behind⟩ := Masking.shown_of_run solid ahead
  rcases arises.coding_of_shown starts shown with coding | ⟨kept, bracket⟩
  · exact coding
  · -- the bracket of a substitution would come next, and that is neither in a name nor in a dot
    exfalso
    obtain ⟨tail, rfl⟩ := List.head?_eq_some_iff.mp bracket
    have step : ((m.step c ('\x7b' :: tail)).2.step '\x7b' tail).1 = ['\x7b'] := by
      rw [Masking.step, kept]
    rw [Masking.run_cons, step] at behind
    have inside : '\x7b' ∈ (name ++ dot.text).head? := by
      have nonempty : name ++ dot.text ≠ [] := by simp [dot.text_ne_nil]
      rw [← List.head?_append_of_ne_nil _ nonempty, ← behind]
      rfl
    rcases List.mem_append.mp (List.mem_of_mem_head? inside) with inName | inDot
    · have plain := plain_of_isName named '\x7b' (List.mem_cons_of_mem c inName)
      exact absurd plain.1 (by decide)
    · rcases Dot.mem_text inDot with blank | mark | mark
      · exact absurd blank (by decide)
      · exact absurd mark (by decide)
      · exact absurd mark (by decide)

theorem exists_seenIn {text : List Char} {read : Read} (found : read ∈ tolerantReads text) :
    ∃ before lead trail after shownBefore dot shownAfter,
      read.SeenIn text before lead trail after shownBefore dot shownAfter := by
  obtain ⟨shownBefore, dot, shownAfter, stands, may⟩ := exists_stands_of_mem_readsFrom found
  obtain ⟨c, name, object, starts, -⟩ := exists_cons_of_isName stands.object
  have whole : mask text =
      shownBefore ++ c :: (name ++ (dot.text ++ (read.member ++ shownAfter))) := by
    simp [stands.text, object]
  obtain ⟨-, solid⟩ := plain_of_isName stands.object c (by simp [object])
  obtain ⟨before, rest, here, rfl, beforeSize, arises, run⟩ :=
    (Masking.arises_initial text).run_split whole solid
  -- from the object on masking is in code, and each piece of the read is found behind the last
  rw [← List.cons_append, ← object] at run
  have coding : here.Coding :=
    coding_of_name arises (object ▸ stands.object) (object ▸ run)
  obtain ⟨afterObject, inObject, split, coding, run⟩ :=
    coding.run_verbatim run (plain_of_isName stands.object)
  have dotted : inObject.run afterObject =
      dot.lead ++ (dot.mark ++ ['.']) ++ (dot.trail ++ read.member ++ shownAfter) := by
    simp [run, Dot.text]
  obtain ⟨lead, afterDot, inDot, rfl, spacingLead, leadSize, coding, run⟩ :=
    coding.run_token dotted dot.blankLead dot.starts dot.plain
  obtain ⟨trail, after, -, rfl, spacingTrail, trailSize, -, -⟩ :=
    coding.run_token run dot.blankTrail (starts_of_isName stands.member)
      (plain_of_isName stands.member)
  refine ⟨before, lead, trail, after, shownBefore, dot, shownAfter, ?_, spacingLead, spacingTrail,
    ?_, ?_, beforeSize, leadSize, trailSize, may.2⟩
  · simp [split]
  · simp [stands.offset, Dot.text, byteSize, beforeSize, leadSize, trailSize]
  · simp [stands.text, Dot.text]

/-! The line of a member -/

/-- In hits that are ordered, the first hit of each member is the one that is taken. -/
theorem firstReads_least {seen : List (List Char)} {hits : List (Nat × List Char)}
    {hit : Nat × List Char} (ordered : hits.Pairwise fun a b => a.1 ≤ b.1)
    (taken : hit ∈ firstReads seen hits) :
    hit ∈ hits ∧ ∀ other ∈ hits, other.2 = hit.2 → hit.1 ≤ other.1 := by
  induction hits generalizing seen with
  | nil => cases taken
  | cons first rest ih =>
    obtain ⟨least, later⟩ := List.pairwise_cons.mp ordered
    have fresh := (nodup_firstReads seen (first :: rest)).2 hit.2 (List.mem_map_of_mem taken)
    rw [firstReads] at taken
    split at taken
    next known =>
      obtain ⟨member, before⟩ := ih later taken
      refine ⟨List.mem_cons_of_mem first member, ?_⟩
      intro other found same
      rcases List.mem_cons.mp found with rfl | found
      · rw [← same] at fresh
        exact absurd (by simpa using known) fresh
      · exact before other found same
    next new =>
      -- the hits behind the first one are no earlier, and repeat no member that was taken
      rcases List.mem_cons.mp taken with rfl | taken
      · refine ⟨List.mem_cons_self, ?_⟩
        intro other found same
        rcases List.mem_cons.mp found with rfl | found
        · exact le_rfl
        · exact least other found
      · obtain ⟨member, before⟩ := ih later taken
        have freshHere := (nodup_firstReads (first.2 :: seen) rest).2 hit.2
          (List.mem_map_of_mem taken)
        refine ⟨List.mem_cons_of_mem first member, ?_⟩
        intro other found same
        rcases List.mem_cons.mp found with rfl | found
        · rw [← same] at freshHere
          exact absurd List.mem_cons_self freshHere
        · exact before other found same

theorem members_least {text : List Char} {hits : List (Nat × List Char)} {found : Member}
    (listed : found ∈ members text hits) :
    ∃ hit ∈ hits, found = ⟨String.ofList hit.2, lineAt text hit.1⟩ ∧
      ∀ other ∈ hits, other.2 = hit.2 → hit.1 ≤ other.1 := by
  obtain ⟨hit, taken, rfl⟩ := List.mem_map.mp listed
  have ordered : (hits.mergeSort fun a b => a.1 ≤ b.1).Pairwise fun a b => a.1 ≤ b.1 := by
    refine (List.pairwise_mergeSort ?_ ?_ hits).imp fun first => by simpa using first
    · intro a b c first second
      simp only [decide_eq_true_eq] at first second ⊢
      exact Nat.le_trans first second
    · intro a b
      simpa using Nat.le_total a.1 b.1
  obtain ⟨member, least⟩ := firstReads_least ordered taken
  refine ⟨hit, (List.mergeSort_perm hits _).mem_iff.mp member, rfl, ?_⟩
  intro other found same
  exact least other ((List.mergeSort_perm hits _).mem_iff.mpr found) same

/-- Every read of the tolerant search is code: its object, its dot and its member stand in the text
and are shown by the mask, with blanks and comments between them, and what the mask shows in front
may precede a read. A file that does not parse lists a member on the line of its first read. -/
theorem tolerantReads_inCode [ScriptParser] (root : String) (text : List Char) :
    (∀ read ∈ tolerantReads text, ∃ before lead trail after shownBefore dot shownAfter,
      read.SeenIn text before lead trail after shownBefore dot shownAfter) ∧
    (ScriptParser.memberReads? text = none → ∀ found ∈ membersOf root text,
      ∃ read ∈ tolerantReads text, read.object = root.toList ∧
        found = ⟨String.ofList read.member, lineAt text read.offset⟩ ∧
        ∀ other ∈ tolerantReads text, other.object = root.toList → other.member = read.member →
          read.offset ≤ other.offset) := by
  refine ⟨fun read found => exists_seenIn found, ?_⟩
  intro broken found listed
  rw [membersOf, reads, broken, Option.getD_none] at listed
  obtain ⟨hit, taken, rfl, least⟩ := members_least listed
  obtain ⟨read, member, rfl⟩ := List.mem_map.mp taken
  obtain ⟨member, object⟩ := List.mem_filter.mp member
  refine ⟨read, member, by simpa using object, rfl, ?_⟩
  intro other found named same
  refine least (other.offset, other.member) ?_ same
  exact List.mem_map.mpr ⟨other, List.mem_filter.mpr ⟨found, by simpa using named⟩, rfl⟩

/-- A script that does not parse: a read with a comment behind its dot, and one in a string. -/
def commentedRead : List Char :=
  "@@ store?. /* the id */ id + 'store.name'".toList

theorem tolerantReads_inCode_commented :
    tolerantReads commentedRead = [⟨"store".toList, "id".toList, 24⟩] ∧
    (∃ before lead trail after shownBefore dot shownAfter,
      Read.SeenIn ⟨"store".toList, "id".toList, 24⟩ commentedRead before lead trail after
        shownBefore dot shownAfter) ∧
    ScriptParser.memberReads? commentedRead = none ∧ membersOf "store" commentedRead = [⟨"id", 1⟩] ∧
    ∃ read ∈ tolerantReads commentedRead, read.object = "store".toList ∧
      (⟨"id", 1⟩ : Member) = ⟨String.ofList read.member, lineAt commentedRead read.offset⟩ ∧
      ∀ other ∈ tolerantReads commentedRead, other.object = "store".toList →
        other.member = read.member → read.offset ≤ other.offset := by
  have found : tolerantReads commentedRead = [⟨"store".toList, "id".toList, 24⟩] := by
    decide +kernel
  have broken : ScriptParser.memberReads? commentedRead = none := by decide +kernel
  have listed : membersOf "store" commentedRead = [⟨"id", 1⟩] := by decide +kernel
  have claimed := tolerantReads_inCode "store" commentedRead
  refine ⟨found, claimed.1 _ (by simp [found]), broken, listed, ?_⟩
  exact claimed.2 broken _ (by simp [listed])

end Concord.Access
