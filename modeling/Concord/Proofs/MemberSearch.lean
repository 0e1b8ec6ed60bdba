import Concord.Access.Tolerant
import Concord.Proofs.Lexemes
import Concord.Proofs.PatternSyntax

/-!
What the tolerant search finds. A read stands in a text with what is before and behind it, and the
search finds nothing else. It finds every read that stands behind a character that may precede one,
unless a read in front of it has taken its object for a member.
-/
namespace Concord.Access

open Concord.Scan Concord.Text

/-- A name as the search takes it. -/
def isName : List Char → Bool
  | [] => false
  | c :: rest => isPlainStart c && rest.all isNamePart

/-- The dot of a read, with the blanks around it and the mark of an optional read. -/
structure Dot where
  lead : List Char
  optional : Bool
  trail : List Char
  blankLead : ∀ c ∈ lead, isBlank c = true
  blankTrail : ∀ c ∈ trail, isBlank c = true

def Dot.mark (dot : Dot) : List Char :=
  if dot.optional then ['?'] else []

def Dot.text (dot : Dot) : List Char :=
  dot.lead ++ dot.mark ++ '.' :: dot.trail

theorem Dot.text_ne_nil (dot : Dot) : dot.text ≠ [] := by
  simp [Dot.text]

/-- `read` stands in `text` between `before` and `after`, and `offset` bytes precede the text. Both
of its names are whole. -/
structure Read.Stands (read : Read) (offset : Nat) (text before : List Char) (dot : Dot)
    (after : List Char) : Prop where
  text : text = before ++ read.object ++ dot.text ++ read.member ++ after
  object : isName read.object = true
  member : isName read.member = true
  objectEnds : ∀ c ∈ dot.text.head?, isNamePart c = false
  memberEnds : ∀ c ∈ after.head?, isNamePart c = false
  offset : read.offset = offset + byteSize (before ++ read.object ++ dot.text)

/-- A read may stand behind `before`; at the very start only if the whole text starts there. -/
def MayStand (front : Bool) (before : List Char) : Prop :=
  (before = [] → front = true) ∧ ∀ c ∈ before.getLast?, mayPrecede c = true

/-! Names -/

theorem isNamePart_ascii {c : Char} (ascii : c.toNat < 128) : isNamePart c = isPlainPart c := by
  have table : ∀ n : Fin 128, isNamePart (Char.ofNat n) = isPlainPart (Char.ofNat n) := by
    decide +kernel
  simpa using table ⟨c.toNat, ascii⟩

theorem isNamePart_of_isPlainPart {c : Char} (plain : isPlainPart c = true) :
    isNamePart c = true := by
  rw [isNamePart_ascii, plain]
  have := Export.isPlainPart_range plain
  omega

theorem isName_cons {c : Char} {rest : List Char} (name : isName (c :: rest) = true) :
    isPlainStart c = true ∧ ∀ x ∈ rest, isNamePart x = true := by
  simpa [isName] using name

theorem exists_cons_of_isName {name : List Char} (named : isName name = true) :
    ∃ c rest, name = c :: rest ∧ isPlainStart c = true ∧ ∀ x ∈ rest, isNamePart x = true := by
  cases name with
  | nil => cases named
  | cons c rest => exact ⟨c, rest, rfl, isName_cons named⟩

theorem isPlainPart_of_isPlainStart {c : Char} (starts : isPlainStart c = true) :
    isPlainPart c = true := by
  simp [isPlainPart, starts]

theorem isBlank_of_isPlainStart {c : Char} (starts : isPlainStart c = true) : isBlank c = false :=
  Export.isBlank_of_isPlainPart (isPlainPart_of_isPlainStart starts)

theorem isName_of_isIdentifier {name : List Char} (plain : isIdentifier name = true) :
    isName name = true := by
  cases name with
  | nil => cases plain
  | cons c rest =>
    simp only [isIdentifier, Bool.and_eq_true, List.all_eq_true] at plain
    simp only [isName, Bool.and_eq_true, List.all_eq_true]
    exact ⟨plain.1, fun x member => isNamePart_of_isPlainPart (plain.2 x member)⟩

/-! What stands at the front of a text -/

theorem name?_eq_some_iff {text name rest : List Char} :
    name? text = some (name, rest) ↔
      text = name ++ rest ∧ isName name = true ∧ ∀ c ∈ rest.head?, isNamePart c = false := by
  constructor
  · intro found
    cases text with
    | nil => cases found
    | cons c tail =>
      simp only [name?, Option.ite_none_right_eq_some, Option.some.injEq, Prod.mk.injEq] at found
      obtain ⟨starts, rfl, rfl⟩ := found
      refine ⟨?_, ?_, head?_dropWhile_forall isNamePart tail⟩
      · rw [List.cons_append, List.takeWhile_append_dropWhile]
      · simp only [isName, starts, Bool.true_and, List.all_eq_true]
        exact fun x member => List.mem_takeWhile_imp member
  · rintro ⟨rfl, named, ends⟩
    obtain ⟨c, tail, rfl, starts, parts⟩ := exists_cons_of_isName named
    obtain ⟨taken, left⟩ := takeWhile_append_of parts ends
    rw [List.cons_append, name?, if_pos starts, taken, left]

theorem dropWhile_blanks {lead rest : List Char} (blank : ∀ c ∈ lead, isBlank c = true)
    (ends : ∀ c ∈ rest.head?, isBlank c = false) : (lead ++ rest).dropWhile isBlank = rest :=
  (takeWhile_append_of blank ends).2

theorem dot?_text {dot : Dot} {rest : List Char} (ends : ∀ c ∈ rest.head?, isBlank c = false) :
    dot? (dot.text ++ rest) = some (dot.text, rest) := by
  let behind := '.' :: (dot.trail ++ rest)
  have split : dot.text ++ rest = dot.lead ++ (dot.mark ++ behind) := by
    simp [Dot.text, behind]
  -- the mark of the dot is no blank, so the blanks in front of it are dropped and no more
  have lead : (dot.text ++ rest).dropWhile isBlank = dot.mark ++ behind := by
    rw [split]
    refine dropWhile_blanks dot.blankLead ?_
    intro c first
    rw [Dot.mark] at first
    split at first
    · obtain rfl : '?' = c := by simpa using first
      rfl
    · obtain rfl : '.' = c := by simpa [behind] using first
      rfl
  have unmarked : (dropMark? '?' (dot.mark ++ behind)).getD (dot.mark ++ behind) = behind := by
    rw [Dot.mark]
    split
    · rfl
    · rfl
  simp only [dot?, lead, unmarked]
  simp [behind, dropMark?, dropWhile_blanks dot.blankTrail ends]

theorem dropMark?_eq_some {mark : Char} {text rest : List Char}
    (dropped : dropMark? mark text = some rest) : text = mark :: rest := by
  cases text with
  | nil => cases dropped
  | cons c tail =>
    simp only [dropMark?, Option.ite_none_right_eq_some, Option.some.injEq] at dropped
    rw [dropped.1, dropped.2]

theorem dot?_eq_some {text found rest : List Char} (found? : dot? text = some (found, rest)) :
    ∃ dot : Dot, dot.text = found ∧ text = found ++ rest := by
  simp only [dot?, Option.map_eq_some_iff, Prod.mk.injEq] at found?
  obtain ⟨behind, dropped, taken, rfl⟩ := found?
  have blank (more : List Char) : ∀ c ∈ more.takeWhile isBlank, isBlank c = true :=
    fun c member => List.mem_takeWhile_imp member
  -- a `?` may stand in front of the dot
  obtain ⟨optional, marked⟩ : ∃ optional : Bool, text.dropWhile isBlank =
      (if optional then ['?'] else []) ++ '.' :: behind := by
    cases mark : dropMark? '?' (text.dropWhile isBlank) with
    | none =>
      rw [mark, Option.getD_none] at dropped
      exact ⟨false, dropMark?_eq_some dropped⟩
    | some tail =>
      rw [mark, Option.getD_some] at dropped
      exact ⟨true, by rw [dropMark?_eq_some mark, dropMark?_eq_some dropped]; rfl⟩
  let dot : Dot := ⟨text.takeWhile isBlank, optional, behind.takeWhile isBlank, blank _, blank _⟩
  have split : text = dot.text ++ behind.dropWhile isBlank := by
    calc text = text.takeWhile isBlank ++ text.dropWhile isBlank :=
          List.takeWhile_append_dropWhile.symm
      _ = dot.lead ++ (dot.mark ++
            '.' :: (behind.takeWhile isBlank ++ behind.dropWhile isBlank)) := by
          rw [marked, List.takeWhile_append_dropWhile]
          rfl
      _ = dot.text ++ behind.dropWhile isBlank := by simp [Dot.text, dot]
  have size : text.length - (behind.dropWhile isBlank).length = dot.text.length := by
    rw [congrArg List.length split, List.length_append, Nat.add_sub_cancel]
  have front : text.take dot.text.length = dot.text := by
    rw [congrArg (List.take dot.text.length) split, List.take_left]
  rw [size, front] at taken
  exact ⟨dot, taken, taken ▸ split⟩

/-- The object of a read is followed by the dot at once. -/
theorem readAt?_eq_some_iff {offset : Nat} {text after : List Char} {read : Read} :
    readAt? offset text = some (read, after) ↔ ∃ dot, read.Stands offset text [] dot after := by
  constructor
  -- name, dot and name are read one after the other, and each ends where the next begins
  · intro found
    simp only [readAt?, Option.bind_eq_bind, Option.bind_eq_some_iff, Prod.exists, Option.pure_def,
      Option.some.injEq, Prod.mk.injEq] at found
    obtain ⟨object, afterObject, first, gap, afterDot, second, member, afterMember, third, rfl,
      rfl⟩ := found
    obtain ⟨rfl, object, objectEnds⟩ := name?_eq_some_iff.mp first
    obtain ⟨dot, rfl, rfl⟩ := dot?_eq_some second
    obtain ⟨rfl, member, memberEnds⟩ := name?_eq_some_iff.mp third
    refine ⟨dot, by simp, object, member, ?_, memberEnds, by simp [Nat.add_assoc]⟩
    intro c first
    refine objectEnds c ?_
    rw [Option.mem_def] at first ⊢
    rw [List.head?_append, first, Option.some_or]
  · rintro ⟨dot, stands⟩
    have blankEnds : ∀ c ∈ (read.member ++ after).head?, isBlank c = false := by
      obtain ⟨c, rest, whole, starts, -⟩ := exists_cons_of_isName stands.member
      intro x first
      obtain rfl : c = x := by simpa [whole] using first
      exact isBlank_of_isPlainStart starts
    have partEnds : ∀ c ∈ (dot.text ++ (read.member ++ after)).head?, isNamePart c = false := by
      rw [List.head?_append_of_ne_nil _ dot.text_ne_nil]
      exact stands.objectEnds
    have first : name? text = some (read.object, dot.text ++ (read.member ++ after)) :=
      name?_eq_some_iff.mpr ⟨by simp [stands.text], stands.object, partEnds⟩
    have second : dot? (dot.text ++ (read.member ++ after)) =
        some (dot.text, read.member ++ after) := dot?_text blankEnds
    have third : name? (read.member ++ after) = some (read.member, after) :=
      name?_eq_some_iff.mpr ⟨rfl, stands.member, stands.memberEnds⟩
    have place : read.offset = offset + byteSize read.object + byteSize dot.text := by
      rw [stands.offset]
      simp [Nat.add_assoc]
    simp only [readAt?, first, second, third, Option.bind_eq_bind, Option.bind_some,
      Option.pure_def, ← place]

/-- More text in front moves a read along. -/
theorem Read.stands_append {offset : Nat} {front text before after : List Char} {read : Read}
    {dot : Dot} : read.Stands offset (front ++ text) (front ++ before) dot after ↔
      read.Stands (offset + byteSize front) text before dot after := by
  constructor
  · rintro ⟨split, object, member, objectEnds, memberEnds, place⟩
    refine ⟨?_, object, member, objectEnds, memberEnds, ?_⟩
    · simpa using split
    · simpa [Nat.add_assoc] using place
  · rintro ⟨split, object, member, objectEnds, memberEnds, place⟩
    refine ⟨?_, object, member, objectEnds, memberEnds, ?_⟩
    · simp [split]
    · simp [place, Nat.add_assoc]

/-- The next read stands at the start or behind one character. -/
theorem nextRead?_eq_some {front : Bool} {offset : Nat} {text after : List Char} {read : Read}
    (found : nextRead? front offset text = some (read, after)) :
    ∃ before dot, read.Stands offset text before dot after ∧ MayStand front before ∧
      before.length ≤ 1 := by
  rcases Option.or_eq_some_iff.mp found with here | ⟨-, behind⟩
  · simp only [Option.ite_none_right_eq_some] at here
    obtain ⟨dot, stands⟩ := readAt?_eq_some_iff.mp here.2
    exact ⟨[], dot, stands, ⟨fun _ => here.1, by simp⟩, Nat.zero_le 1⟩
  · cases text with
    | nil => cases behind
    | cons c tail =>
      simp only [Option.ite_none_right_eq_some] at behind
      obtain ⟨dot, stands⟩ := readAt?_eq_some_iff.mp behind.2
      have shifted : read.Stands offset ([c] ++ tail) ([c] ++ []) dot after :=
        Read.stands_append.mpr (by simpa [byteSize] using stands)
      exact ⟨[c], dot, shifted, ⟨by simp, by simpa using behind.1⟩, le_rfl⟩

/-! Every read that is found stands in the text -/

theorem MayStand.append {front : Bool} {before : List Char} (may : MayStand false before)
    (more : List Char) : MayStand front (more ++ before) := by
  have nonempty : before ≠ [] := fun none => absurd (may.1 none) (by simp)
  refine ⟨fun none => absurd (List.append_eq_nil_iff.mp none).2 nonempty, ?_⟩
  rw [List.getLast?_append_of_ne_nil _ nonempty]
  exact may.2

/-- What the search steps over with a read. -/
theorem Read.Stands.take {offset : Nat} {text before after : List Char} {read : Read} {dot : Dot}
    (stands : read.Stands offset text before dot after) :
    text.take (text.length - after.length) = before ++ read.object ++ dot.text ++ read.member := by
  rw [stands.text, List.length_append, Nat.add_sub_cancel, List.take_left]

theorem Read.Stands.take_append {offset : Nat} {text before after : List Char} {read : Read}
    {dot : Dot} (stands : read.Stands offset text before dot after) :
    text.take (text.length - after.length) ++ after = text := by
  rw [stands.take, ← stands.text]

theorem exists_stands_of_mem_readsFrom {front : Bool} {offset : Nat} {text : List Char}
    {read : Read} (found : read ∈ readsFrom front offset text) :
    ∃ before dot after, read.Stands offset text before dot after ∧ MayStand front before := by
  fun_induction readsFrom front offset text with
  | case1 front offset text first rest next ih =>
    obtain ⟨before, dot, stands, may, -⟩ := nextRead?_eq_some next
    rcases List.mem_cons.mp found with rfl | found
    · exact ⟨before, dot, rest, stands, may⟩
    · obtain ⟨later, dot', after, stands', may'⟩ := ih found
      have shifted := Read.stands_append.mpr stands'
      rw [stands.take_append] at shifted
      exact ⟨_, dot', after, shifted, may'.append _⟩
  | case2 => cases found
  | case3 front offset c tail next ih =>
    obtain ⟨later, dot, after, stands, may⟩ := ih found
    have shifted : read.Stands offset ([c] ++ tail) ([c] ++ later) dot after :=
      Read.stands_append.mpr (by simpa [byteSize] using stands)
    exact ⟨[c] ++ later, dot, after, shifted, may.append [c]⟩

/-! The search steps over no read -/

/-- In front of a name stands the dot of another read, which takes the name for its member. -/
def EndsInDot (front : Bool) (before : List Char) : Prop :=
  ∃ earlier object dot, before = earlier ++ object ++ Dot.text dot ∧ isName object = true ∧
    MayStand front earlier

theorem Dot.mem_text {dot : Dot} {c : Char} (member : c ∈ dot.text) :
    isBlank c = true ∨ c = '?' ∨ c = '.' := by
  simp only [Dot.text, List.mem_append, List.mem_cons] at member
  rcases member with (lead | mark) | rfl | trail
  · exact Or.inl (dot.blankLead c lead)
  · rw [Dot.mark] at mark
    split at mark
    · exact Or.inr (Or.inl (List.mem_singleton.mp mark))
    · cases mark
  · exact Or.inr (Or.inr rfl)
  · exact Or.inl (dot.blankTrail c trail)

theorem Dot.isPlainPart_of_mem_text {dot : Dot} {c : Char} (member : c ∈ dot.text) :
    isPlainPart c = false := by
  rw [← Bool.not_eq_true]
  intro plain
  rcases Dot.mem_text member with blank | rfl | rfl
  · rw [Export.isBlank_of_isPlainPart plain] at blank
    cases blank
  · exact absurd plain (by decide)
  · exact absurd plain (by decide)

theorem isNamePart_of_mem {name : List Char} (named : isName name = true) {c : Char}
    (member : c ∈ name) : isNamePart c = true := by
  obtain ⟨first, rest, rfl, starts, parts⟩ := exists_cons_of_isName named
  rcases List.mem_cons.mp member with rfl | later
  · exact isNamePart_of_isPlainPart (isPlainPart_of_isPlainStart starts)
  · exact parts c later

theorem not_isNamePart_of_mayPrecede {c : Char} (may : mayPrecede c = true) :
    isNamePart c = false ∧ c ≠ '.' := by
  simpa [mayPrecede] using may

/-- A name that begins inside a read, behind a character that may precede it, is the member. -/
theorem Read.Stands.eq_of_inside {read : Read} {dot : Dot} {covered more : List Char}
    (object : isName read.object = true) (member : isName read.member = true)
    (whole : read.object ++ dot.text ++ read.member = covered ++ more) (nonempty : covered ≠ [])
    (may : ∀ c ∈ covered.getLast?, mayPrecede c = true)
    (starts : ∀ c ∈ more.head?, isPlainStart c = true) : covered = read.object ++ dot.text := by
  -- the last character covered is part of no name
  have last {front name : List Char} (split : covered = front ++ name) (nonempty : name ≠ [])
      (parts : ∀ c ∈ name, isNamePart c = true) : False := by
    obtain ⟨c, ends⟩ := Option.isSome_iff_exists.mp (List.getLast?_isSome.mpr nonempty)
    have precedes : mayPrecede c = true := by
      refine may c ?_
      rw [split, List.getLast?_append_of_ne_nil _ nonempty]
      exact ends
    have plain := (not_isNamePart_of_mayPrecede precedes).1
    rw [parts c (List.mem_of_getLast? ends)] at plain
    cases plain
  rcases List.append_eq_append_iff.mp whole with ⟨tail, split, rest⟩ | ⟨rest, split, rfl⟩
  · -- the whole read up to the dot is covered
    by_cases none : tail = []
    · rw [split, none, List.append_nil]
    · refine (last split none fun c inside => isNamePart_of_mem member ?_).elim
      rw [rest]
      exact List.mem_append_left _ inside
  · -- otherwise the covered text ends in the dot or in the object
    rcases List.append_eq_append_iff.mp split with ⟨tail, inDot, dotText⟩ | ⟨tail, inObject, -⟩
    · cases rest with
      | nil =>
        rw [List.append_nil] at split
        exact split.symm
      | cons c rest =>
        -- the name would begin inside the dot
        have plain : isPlainStart c = true := starts c rfl
        have inside : c ∈ dot.text := by
          rw [dotText]
          simp
        have other := Dot.isPlainPart_of_mem_text inside
        rw [isPlainPart_of_isPlainStart plain] at other
        cases other
    · refine (last (List.nil_append covered).symm nonempty fun c inside =>
        isNamePart_of_mem object ?_).elim
      rw [inObject]
      exact List.mem_append_left _ inside

theorem nextRead?_start {offset : Nat} {text after : List Char} {read : Read} {dot : Dot}
    (stands : read.Stands offset text [] dot after) :
    nextRead? true offset text = some (read, after) := by
  simp only [nextRead?, if_true, readAt?_eq_some_iff.mpr ⟨dot, stands⟩, Option.some_or]

/-- Behind the character in front, a read is found unless one stands at the start itself. -/
theorem nextRead?_behind {front : Bool} {offset : Nat} {c : Char} {tail after : List Char}
    {read : Read} {dot : Dot} (stands : read.Stands offset (c :: tail) [c] dot after)
    (may : mayPrecede c = true) : nextRead? front offset (c :: tail) ≠ none := by
  have behind : readAt? (offset + c.utf8Size) tail = some (read, after) := by
    refine readAt?_eq_some_iff.mpr ⟨dot, ?_⟩
    have shifted : read.Stands (offset + byteSize [c]) tail [] dot after :=
      Read.stands_append.mp stands
    simpa [byteSize] using shifted
  simp [nextRead?, may, behind]

theorem MayStand.of_append {front : Bool} {more before : List Char} (nonempty : before ≠ [])
    (may : MayStand front (more ++ before)) : MayStand false before := by
  refine ⟨fun none => absurd none nonempty, ?_⟩
  rw [← List.getLast?_append_of_ne_nil more nonempty]
  exact may.2

theorem EndsInDot.append {front : Bool} {before : List Char} (ends : EndsInDot false before)
    (more : List Char) : EndsInDot front (more ++ before) := by
  obtain ⟨earlier, object, dot, rfl, named, may⟩ := ends
  exact ⟨more ++ earlier, object, dot, by simp, named, may.append more⟩

theorem Read.Stands.behind {offset : Nat} {text before after : List Char} {read : Read} {dot : Dot}
    (stands : read.Stands offset text before dot after) :
    read.Stands (offset + byteSize before) (text.drop before.length) [] dot after := by
  refine ⟨?_, stands.object, stands.member, stands.objectEnds, stands.memberEnds, ?_⟩
  · simp [stands.text]
  · simp [stands.offset, Nat.add_assoc]

/-- Two reads at one place are one. -/
theorem Read.Stands.unique {offset : Nat} {text before after after' : List Char} {read read' : Read}
    {dot dot' : Dot} (stands : read.Stands offset text before dot after)
    (stands' : read'.Stands offset text before dot' after') : read = read' := by
  have found := readAt?_eq_some_iff.mpr ⟨dot, stands.behind⟩
  have found' := readAt?_eq_some_iff.mpr ⟨dot', stands'.behind⟩
  exact congrArg Prod.fst (Option.some.inj (found.symm.trans found'))

/-- Of a read that begins within another one, or at its start, the text in front ends in the other's
start or in its dot. -/
theorem Read.Stands.eq_or_endsInDot {front : Bool} {offset : Nat}
    {text passed before more : List Char} {first : Read} {dot : Dot} {rest : List Char}
    (stands : first.Stands offset text passed dot rest)
    (short : passed.length ≤ 1) (mayPass : MayStand front passed)
    (taken : passed ++ first.object ++ dot.text ++ first.member = before ++ more)
    (nonempty : before ≠ []) (may : MayStand front before)
    (starts : ∀ c ∈ more.head?, isPlainStart c = true) :
    before = passed ∨ EndsInDot front before := by
  rw [List.append_assoc, List.append_assoc] at taken
  -- either the front goes beyond what was passed, into the read, or it does not
  rcases List.append_eq_append_iff.mp taken with ⟨covered, split, inside⟩ | ⟨ahead, split, -⟩
  · by_cases same : covered = []
    · exact Or.inl (by rw [split, same, List.append_nil])
    · right
      have lastMay : ∀ c ∈ covered.getLast?, mayPrecede c = true := by
        rw [← List.getLast?_append_of_ne_nil passed same, ← split]
        exact may.2
      rw [← List.append_assoc] at inside
      have upToDot :=
        Read.Stands.eq_of_inside stands.object stands.member inside same lastMay starts
      exact ⟨passed, first.object, dot, by simp [split, upToDot], stands.object, mayPass⟩
  · -- one character is passed at most, so there is nothing between
    left
    have sizes : passed.length = before.length + ahead.length := by
      rw [split, List.length_append]
    have positive : 0 < before.length := List.length_pos_iff.mpr nonempty
    have none : ahead = [] := List.length_eq_zero_iff.mp (by omega)
    rw [split, none, List.append_nil]

/-- A read that stands in the text is found, unless its object is taken for a member. -/
theorem Read.Stands.mem_readsFrom {front : Bool} {offset : Nat} {text before after : List Char}
    {read : Read} {dot : Dot} (stands : read.Stands offset text before dot after)
    (may : MayStand front before) (free : ¬ EndsInDot front before) :
    read ∈ readsFrom front offset text := by
  obtain ⟨c, name, named, starts, -⟩ := exists_cons_of_isName stands.object
  fun_induction readsFrom front offset text generalizing before with
  | case1 front offset text first rest next ih =>
    obtain ⟨passed, dot', stands', may', short⟩ := nextRead?_eq_some next
    by_cases start : before = []
    · -- at the start of the text no other read comes first
      subst start
      obtain rfl : front = true := may.1 rfl
      obtain ⟨rfl, rfl⟩ : read = first ∧ after = rest := by
        simpa using (nextRead?_start stands).symm.trans next
      exact List.mem_cons_self
    have whole : before ++ (read.object ++ dot.text ++ read.member ++ after) =
        text.take (text.length - rest.length) ++ rest := by
      rw [stands'.take_append, stands.text]
      simp
    rcases List.append_eq_append_iff.mp whole with ⟨more, taken, behind⟩ | ⟨later, split, left⟩
    · -- the object begins within what the search steps over
      have moreStarts : ∀ x ∈ more.head?, isPlainStart x = true := by
        intro x first
        obtain ⟨more, rfl⟩ := List.head?_eq_some_iff.mp first
        obtain ⟨rfl, -⟩ : c = x ∧ _ := by simpa [named] using behind
        exact starts
      rw [stands'.take] at taken
      rcases stands'.eq_or_endsInDot short may' taken start may moreStarts with rfl | ends
      · rw [stands.unique stands']
        exact List.mem_cons_self
      · exact absurd ends free
    · -- the object stands behind it, and not at once, for there the member ends
      have nonempty : later ≠ [] := by
        rintro rfl
        have ends := stands'.memberEnds c (by simp [left, named])
        rw [isNamePart_of_isPlainPart (isPlainPart_of_isPlainStart starts)] at ends
        cases ends
      have shifted := stands
      rw [← stands'.take_append, split, Read.stands_append] at shifted
      rw [split] at may free
      exact List.mem_cons_of_mem _
        (ih shifted (may.of_append nonempty) fun ends => free (ends.append _))
  | case2 front offset next =>
    have empty := stands.text
    simp [named] at empty
  | case3 front offset x tail next ih =>
    cases before with
    | nil =>
      obtain rfl : front = true := may.1 rfl
      rw [nextRead?_start stands] at next
      cases next
    | cons y later =>
      -- the search passes one character, and the object does not stand right behind it
      obtain ⟨rfl, -⟩ : x = y ∧ _ := by simpa using stands.text
      by_cases nonempty : later = []
      · subst nonempty
        exact absurd next (nextRead?_behind stands (may.2 x rfl))
      · have shifted : read.Stands (offset + byteSize [x]) tail later dot after :=
          Read.stands_append.mp stands
        rw [byteSize, byteSize, Nat.add_zero] at shifted
        have mayLater : MayStand front ([x] ++ later) := may
        exact ih shifted (mayLater.of_append nonempty) fun ends => free (ends.append [x])

end Concord.Access
