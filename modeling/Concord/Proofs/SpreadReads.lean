import Concord.Proofs.MembersInCode

/-!
Which reads of a mask the tolerant search finds. One that no other read in front takes for its
member is found unless a dot stands directly in front of it. Such a dot need not be one of a read:
behind the three dots of a spread, the read is missed.
-/
namespace Concord.Access

open Concord.Scan Concord.Text

/-- Fronts of one text that have the same size are the same. -/
theorem front_unique {front front' back back' : List Char} (same : front ++ back = front' ++ back')
    (size : byteSize front = byteSize front') : front = front' := by
  have none {first more : List Char} (size : byteSize first = byteSize (first ++ more)) :
      more = [] := by
    by_contra nonempty
    have positive := byteSize_pos nonempty
    rw [byteSize_append] at size
    omega
  rcases List.append_eq_append_iff.mp same with ⟨more, rfl, -⟩ | ⟨more, rfl, -⟩
  · rw [none size, List.append_nil]
  · rw [none size.symm, List.append_nil]

/-- A text is cut in one way only behind the last character that is not of `rest`. -/
theorem cut_unique {p : Char → Bool} {front front' rest rest' : List Char}
    (same : front ++ rest = front' ++ rest')
    (ends : ∃ c ∈ front.getLast?, p c = true) (ends' : ∃ c ∈ front'.getLast?, p c = true)
    (other : ∀ c ∈ rest, p c = false) (other' : ∀ c ∈ rest', p c = false) : front = front' := by
  -- a longer front would end in a character of the shorter one's rest
  have longer {first second more tail : List Char} (split : second = first ++ more)
      (ends : ∃ c ∈ second.getLast?, p c = true) (other : ∀ c ∈ more ++ tail, p c = false) :
      first = second := by
    cases more with
    | nil => rw [split, List.append_nil]
    | cons x more =>
      obtain ⟨c, last, holds⟩ := ends
      rw [split, List.getLast?_append_of_ne_nil _ (by simp)] at last
      have fails := other c (List.mem_append_left _ (List.mem_of_getLast? last))
      rw [holds] at fails
      cases fails
  rcases List.append_eq_append_iff.mp same with ⟨more, split, rfl⟩ | ⟨more, split, rfl⟩
  · exact longer split ends' other
  · exact (longer split ends other').symm

theorem endsPlain_of_isIdentifier {name front : List Char} (plain : isIdentifier name = true) :
    ∃ c ∈ (front ++ name).getLast?, isPlainPart c = true := by
  have nonempty : name ≠ [] := by
    rintro rfl
    cases plain
  rw [List.getLast?_append_of_ne_nil _ nonempty, List.getLast?_eq_some_getLast nonempty]
  refine ⟨_, rfl, ?_⟩
  have parts : ∀ c ∈ name, isPlainPart c = true := by
    cases name with
    | nil => simp
    | cons c rest =>
      simp only [isIdentifier, Bool.and_eq_true, List.all_eq_true] at plain
      intro x member
      rcases List.mem_cons.mp member with rfl | later
      · exact isPlainPart_of_isPlainStart plain.1
      · exact plain.2 x later
  exact parts _ (List.getLast_mem nonempty)

/-- A dot directly in front of a read's object keeps it from being found. -/
theorem getLast?_ne_dot {text before root member after : List Char} {dot : Dot}
    (plain : isIdentifier root = true)
    (shown : mask text = before ++ root ++ dot.text ++ member ++ after)
    (found : ⟨root, member, byteSize (before ++ root ++ dot.text)⟩ ∈ tolerantReads text) :
    before.getLast? ≠ some '.' := by
  intro behindDot
  obtain ⟨front, dot', back, stands, may⟩ := exists_stands_of_mem_readsFrom found
  have texts : front ++ root ++ dot'.text ++ (member ++ back) =
      before ++ root ++ dot.text ++ (member ++ after) := by
    simpa using stands.text.symm.trans shown
  have sizes : byteSize (front ++ root ++ dot'.text) = byteSize (before ++ root ++ dot.text) := by
    simpa using stands.offset.symm
  -- the object ends where it does because no plain character is part of a dot
  have upToRoot : front ++ root = before ++ root :=
    cut_unique (front_unique texts sizes) (endsPlain_of_isIdentifier plain)
      (endsPlain_of_isIdentifier plain) (fun _ => Dot.isPlainPart_of_mem_text)
      (fun _ => Dot.isPlainPart_of_mem_text)
  obtain rfl : front = before := List.append_cancel_right upToRoot
  exact absurd (may.2 '.' behindDot) (by simp [mayPrecede])

/-- A dot with nothing around it. -/
def Dot.bare : Dot :=
  ⟨[], false, [], by simp, by simp⟩

theorem dot_mem_of_endsInDot {front : Bool} {before : List Char} (ends : EndsInDot front before) :
    '.' ∈ before := by
  obtain ⟨earlier, object, dot, rfl, -, -⟩ := ends
  exact List.mem_append_right _ (by simp [Dot.text])

/-- A read that stands in the mask with plain names, both of them whole, and whose object is not
itself behind the dot of a read, is found just if no dot at all stands directly in front of it. -/
theorem mem_tolerantReads_iff {text before root member after : List Char} {dot : Dot}
    (rootPlain : isIdentifier root = true) (memberPlain : isIdentifier member = true)
    (shown : mask text = before ++ root ++ dot.text ++ member ++ after)
    (rootStarts : ∀ c ∈ before.getLast?, isNamePart c = false)
    (rootEnds : ∀ c ∈ dot.text.head?, isNamePart c = false)
    (memberEnds : ∀ c ∈ after.head?, isNamePart c = false) (free : ¬ EndsInDot true before) :
    ⟨root, member, byteSize (before ++ root ++ dot.text)⟩ ∈ tolerantReads text ↔
      before.getLast? ≠ some '.' := by
  constructor
  · exact getLast?_ne_dot rootPlain shown
  · intro noDot
    have stands : Read.Stands ⟨root, member, byteSize (before ++ root ++ dot.text)⟩ 0 (mask text)
        before dot after :=
      ⟨shown, isName_of_isIdentifier rootPlain, isName_of_isIdentifier memberPlain, rootEnds,
        memberEnds, (Nat.zero_add _).symm⟩
    refine stands.mem_readsFrom ⟨fun _ => rfl, ?_⟩ free
    intro c last
    -- what stands in front is neither a part of a name nor a dot, so a read may begin here
    have other : c ≠ '.' := by
      rintro rfl
      exact noDot last
    simp [mayPrecede, rootStarts c last, other]

theorem mem_tolerantReads_iff_argument :
    isIdentifier "store".toList = true ∧ isIdentifier "x".toList = true ∧
    mask "@@ f(store.x)".toList =
      "@@ f(".toList ++ "store".toList ++ Dot.bare.text ++ "x".toList ++ ")".toList ∧
    ¬ EndsInDot true "@@ f(".toList ∧
    (⟨"store".toList, "x".toList, 11⟩ ∈ tolerantReads "@@ f(store.x)".toList ↔
      "@@ f(".toList.getLast? ≠ some '.') := by
  have rootPlain : isIdentifier "store".toList = true := by decide
  have memberPlain : isIdentifier "x".toList = true := by decide
  have shown : mask "@@ f(store.x)".toList =
      "@@ f(".toList ++ "store".toList ++ Dot.bare.text ++ "x".toList ++ ")".toList := by
    decide +kernel
  have free : ¬ EndsInDot true "@@ f(".toList := by
    intro ends
    exact absurd (dot_mem_of_endsInDot ends) (by decide)
  have apart {found : Option Char} (plain : found.any isNamePart = false) :
      ∀ c ∈ found, isNamePart c = false := by
    rintro c rfl
    exact plain
  refine ⟨rootPlain, memberPlain, shown, free, ?_⟩
  exact mem_tolerantReads_iff rootPlain memberPlain shown (apart (by decide +kernel))
    (apart (by decide +kernel)) (apart (by decide +kernel)) free

/-- Two dots in a row are not the dot of a read. -/
theorem not_endsInDot_of_dots (front : Bool) (text : List Char) :
    ¬ EndsInDot front (text ++ ['.', '.']) := by
  rintro ⟨earlier, object, dot, split, named, -⟩
  have nonempty : object ≠ [] := by
    rintro rfl
    cases named
  have trail : dot.trail = [] := by
    by_contra some
    have whole : text ++ ['.', '.'] =
        earlier ++ object ++ dot.lead ++ dot.mark ++ ['.'] ++ dot.trail := by
      simpa [Dot.text] using split
    have last := congrArg List.getLast? whole
    rw [List.getLast?_append_of_ne_nil _ (by simp), List.getLast?_append_of_ne_nil _ some] at last
    have blank := dot.blankTrail '.' (List.mem_of_getLast? last.symm)
    exact absurd blank (by decide)
  have inner : text ++ ['.'] = earlier ++ (object ++ dot.lead ++ dot.mark) := by
    have whole : text ++ ['.'] ++ ['.'] = earlier ++ (object ++ dot.lead ++ dot.mark) ++ ['.'] := by
      simpa [Dot.text, trail] using split
    exact List.append_cancel_right whole
  -- the first of the two dots would be in the object or in front of the dot behind it
  have first : '.' ∈ object ++ dot.lead ++ dot.mark := by
    have last := congrArg List.getLast? inner
    rw [List.getLast?_append_of_ne_nil _ (by simp),
      List.getLast?_append_of_ne_nil _ (by simp [nonempty])]
      at last
    exact List.mem_of_getLast? last.symm
  rcases List.mem_append.mp first with inFront | inMark
  · rcases List.mem_append.mp inFront with inObject | inLead
    · exact absurd (isNamePart_of_mem named inObject) (by decide +kernel)
    · exact absurd (dot.blankLead '.' inLead) (by decide)
  · rw [Dot.mark] at inMark
    split at inMark
    · exact absurd inMark (by decide)
    · cases inMark

/-- A read that is spread is missed where the dots of the spread touch it, and such dots are no dot
of a read. -/
theorem spread_not_found {text before root member after : List Char} {dot : Dot}
    (plain : isIdentifier root = true)
    (shown : mask text = before ++ ['.', '.', '.'] ++ root ++ dot.text ++ member ++ after) :
    ¬ EndsInDot true (before ++ ['.', '.', '.']) ∧
      ⟨root, member, byteSize (before ++ ['.', '.', '.'] ++ root ++ dot.text)⟩ ∉
        tolerantReads text := by
  constructor
  · have dots := not_endsInDot_of_dots true (before ++ ['.'])
    rwa [List.append_assoc] at dots
  · intro found
    exact getLast?_ne_dot plain shown found (by simp)

theorem membersOf_misses_spread :
    mask "@@ f(...store.x)".toList =
      "@@ f(...".toList ++ "store".toList ++ Dot.bare.text ++ "x".toList ++ ")".toList ∧
    ¬ EndsInDot true "@@ f(...".toList ∧
    membersOf "store" "@@ f(...store.x)".toList = [] ∧
    membersOf "store" "f(...store.x)".toList = [⟨"x", 1⟩] := by
  refine ⟨by decide +kernel, not_endsInDot_of_dots true "@@ f(.".toList, by decide +kernel, ?_⟩
  decide +kernel

end Concord.Access
