import Concord.Role.Classify
import Mathlib.Data.List.TakeWhile

/-!
Paths and dotted names. A path is a directory and a file name, and a name is its parts with dots
between them; the last slash and the dots say where to cut. So a name and its parts give each other
back. The stem of a path is what is left without a known extension, if anything stands in front of
that in the name. Only what stands behind the last dot of a name is ever taken off, so an extension
that holds a dot itself stays; a path has one stem if such extensions are left aside.
-/
namespace Concord

open Concord.Text

/-- A text is cut in one way at its last mark. -/
theorem eq_of_append_mark {mark : Char} {front back front' back' : List Char}
    (same : front ++ mark :: back = front' ++ mark :: back') (last : mark ∉ back)
    (last' : mark ∉ back') : front = front' ∧ back = back' := by
  -- if one front were longer, the mark behind the shorter one would stand in the other's back
  rcases List.append_eq_append_iff.mp same with ⟨more, rfl, rest⟩ | ⟨more, rfl, rest⟩
  · cases more with
    | nil => simpa using rest
    | cons c more =>
      rw [List.cons_append, List.cons.injEq] at rest
      exact absurd (rest.2 ▸ List.mem_append_right more List.mem_cons_self) last
  · cases more with
    | nil => simpa using rest.symm
    | cons c more =>
      rw [List.cons_append, List.cons.injEq] at rest
      exact absurd (rest.2 ▸ List.mem_append_right more List.mem_cons_self) last'

/-! Dots -/

/-- Parts with a dot in front of each. -/
def dotted (parts : List (List Char)) : List Char :=
  parts.flatMap ('.' :: ·)

@[simp] theorem dotted_nil : dotted [] = [] :=
  rfl

@[simp] theorem dotted_cons (part : List Char) (parts : List (List Char)) :
    dotted (part :: parts) = '.' :: (part ++ dotted parts) := by
  simp [dotted]

theorem joinDots_cons (part : List Char) (parts : List (List Char)) :
    joinDots (part :: parts) = part ++ dotted parts := by
  induction parts generalizing part with
  | nil => simp [joinDots]
  | cons next rest ih => rw [joinDots, ih, dotted_cons]; simp

theorem joinDots_append {front : List (List Char)} (some : front ≠ [])
    (back : List (List Char)) : joinDots (front ++ back) = joinDots front ++ dotted back := by
  cases front with
  | nil => exact absurd rfl some
  | cons part rest =>
    rw [List.cons_append, joinDots_cons, joinDots_cons]
    simp [dotted]

theorem mem_joinDots {parts : List (List Char)} {part : List Char} {c : Char}
    (member : part ∈ parts) (inside : c ∈ part) : c ∈ joinDots parts := by
  cases parts with
  | nil => cases member
  | cons first rest =>
    rw [joinDots_cons, List.mem_append]
    rcases List.mem_cons.mp member with rfl | later
    · exact Or.inl inside
    · exact Or.inr (List.mem_flatMap.mpr ⟨part, later, List.mem_cons_of_mem '.' inside⟩)

theorem exists_mem_of_mem_joinDots {parts : List (List Char)} {c : Char}
    (member : c ∈ joinDots parts) (other : c ≠ '.') : ∃ part ∈ parts, c ∈ part := by
  cases parts with
  | nil => cases member
  | cons first rest =>
    rw [joinDots_cons, List.mem_append] at member
    rcases member with here | later
    · exact ⟨first, List.mem_cons_self, here⟩
    · obtain ⟨part, listed, inside⟩ := List.mem_flatMap.mp later
      exact ⟨part, List.mem_cons_of_mem first listed, (List.mem_cons.mp inside).resolve_left other⟩

theorem splitAt_ne_nil (mark : Char) (text : List Char) : splitAt mark text ≠ [] := by
  cases text with
  | nil => simp [splitAt]
  | cons c rest =>
    rw [splitAt]
    split
    · simp
    · split <;> simp

theorem not_mem_of_mem_splitAt {mark : Char} {text part : List Char}
    (member : part ∈ splitAt mark text) : mark ∉ part := by
  -- by induction over the text; a part begins behind a mark and grows by characters that are none
  induction text generalizing part with
  | nil => simp_all [splitAt]
  | cons c rest ih =>
    rw [splitAt] at member
    split at member
    · rcases List.mem_cons.mp member with rfl | later
      · simp
      · exact ih later
    next other =>
      split at member
      next none => exact absurd none (splitAt_ne_nil mark rest)
      next piece pieces cut =>
        rw [cut] at ih
        rcases List.mem_cons.mp member with rfl | later
        · simp [Ne.symm other, ih List.mem_cons_self]
        · exact ih (List.mem_cons_of_mem piece later)

@[simp] theorem joinDots_splitAt (text : List Char) : joinDots (splitAt '.' text) = text := by
  induction text with
  | nil => rfl
  | cons c rest ih =>
    rw [splitAt]
    split
    next dot =>
      obtain ⟨part, parts, cut⟩ := List.exists_cons_of_ne_nil (splitAt_ne_nil '.' rest)
      rw [cut, joinDots_cons] at ih
      rw [joinDots_cons, cut, dotted_cons, ih, dot, List.nil_append]
    next =>
      split
      next none => exact absurd none (splitAt_ne_nil '.' rest)
      next part parts cut =>
        rw [cut, joinDots_cons] at ih
        rw [joinDots_cons, List.cons_append, ih]

theorem dotted_splitAt (text : List Char) : dotted (splitAt '.' text) = '.' :: text := by
  obtain ⟨part, parts, cut⟩ := List.exists_cons_of_ne_nil (splitAt_ne_nil '.' text)
  have joined := joinDots_splitAt text
  rw [cut, joinDots_cons] at joined
  rw [cut, dotted_cons, joined]

theorem splitAt_of_notMem {mark : Char} {text : List Char} (absent : mark ∉ text) :
    splitAt mark text = [text] := by
  induction text with
  | nil => rfl
  | cons c rest ih =>
    rw [List.mem_cons, not_or] at absent
    rw [splitAt, if_neg (Ne.symm absent.1), ih absent.2]

theorem splitAt_append (mark : Char) (front back : List Char) :
    splitAt mark (front ++ mark :: back) = splitAt mark front ++ splitAt mark back := by
  induction front with
  | nil => simp [splitAt]
  | cons c rest ih =>
    rw [List.cons_append, splitAt, splitAt, ih]
    obtain ⟨part, parts, cut⟩ := List.exists_cons_of_ne_nil (splitAt_ne_nil mark rest)
    split
    · rfl
    · rw [cut]
      rfl

/-- Parts behind a text are parts of the whole. -/
theorem splitAt_append_dotted {parts : List (List Char)} (plain : ∀ part ∈ parts, '.' ∉ part)
    (front : List Char) : splitAt '.' (front ++ dotted parts) = splitAt '.' front ++ parts := by
  induction parts generalizing front with
  | nil => simp
  | cons part rest ih =>
    have later : ∀ part ∈ rest, '.' ∉ part := fun other member =>
      plain other (List.mem_cons_of_mem part member)
    rw [dotted_cons, splitAt_append, ih later, splitAt_of_notMem (plain part List.mem_cons_self)]
    rfl

/-! Directories -/

/-- The directory of a path with its last slash, if it has one, and its file name. -/
structure Divides (path directory name : List Char) : Prop where
  path : path = directory ++ name
  directory : directory = [] ∨ directory.getLast? = some '/'
  name : '/' ∉ name

theorem Divides.unique {path directory name directory' name' : List Char}
    (first : Divides path directory name) (second : Divides path directory' name') :
    directory = directory' ∧ name = name' := by
  -- a directory that goes further would hold a slash of the other name
  have within {more rest : List Char} (slash : more = [] ∨ more.getLast? = some '/')
      (free : '/' ∉ more ++ rest) : more = [] := by
    rcases slash with none | last
    · exact none
    · exact absurd (List.mem_append_left rest (List.mem_of_getLast? last)) free
  have tail {front more : List Char} (slash : front ++ more = [] ∨
      (front ++ more).getLast? = some '/') : more = [] ∨ more.getLast? = some '/' := by
    cases more with
    | nil => exact Or.inl rfl
    | cons c more => right; simpa using slash
  have same := first.path.symm.trans second.path
  rcases List.append_eq_append_iff.mp same with ⟨more, longer, rest⟩ | ⟨more, longer, rest⟩
  · have none := within (tail (longer ▸ second.directory)) (rest ▸ first.name)
    subst none
    simp_all
  · have none := within (tail (longer ▸ first.directory)) (rest ▸ second.name)
    subst none
    simp_all

theorem splitDirectory_eq (path : List Char) :
    splitDirectory path = ((path.reverse.dropWhile (· ≠ '/')).reverse,
      (path.reverse.takeWhile (· ≠ '/')).reverse) := by
  have whole : path = (path.reverse.dropWhile (· ≠ '/')).reverse ++
      (path.reverse.takeWhile (· ≠ '/')).reverse := by
    rw [← List.reverse_append, List.takeWhile_append_dropWhile, List.reverse_reverse]
  have length := congrArg List.length whole
  rw [List.length_append] at length
  -- the length of the directory is what is left of the path without its name
  have short : path.length - (path.reverse.takeWhile (· ≠ '/')).reverse.length =
      (path.reverse.dropWhile (· ≠ '/')).reverse.length := by omega
  rw [splitDirectory, short, Prod.mk.injEq]
  exact ⟨(congrArg (List.take _) whole).trans List.take_left, rfl⟩

theorem splitDirectory_divides (path : List Char) :
    Divides path (splitDirectory path).1 (splitDirectory path).2 := by
  rw [splitDirectory_eq]
  refine ⟨?_, ?_, ?_⟩
  · rw [← List.reverse_append, List.takeWhile_append_dropWhile, List.reverse_reverse]
  · rw [List.reverse_eq_nil_iff, List.getLast?_reverse]
    cases behind : path.reverse.dropWhile (· ≠ '/') with
    | nil => exact Or.inl rfl
    | cons c rest =>
      have stops := List.head?_dropWhile_not (· ≠ '/') path.reverse
      rw [behind] at stops
      right
      simpa using stops
  · rw [List.mem_reverse]
    intro slash
    simpa using List.mem_takeWhile_imp slash

/-! Stems -/

/-- `stem` is the path without this extension and its dot. A name that is nothing but a dot and the
extension has no base and keeps both. -/
def Strips (extension : String) (path stem : List Char) : Prop :=
  ∃ directory base, base ≠ [] ∧
    Divides path directory (base ++ '.' :: extension.toList) ∧ stem = directory ++ base

/-- The path without one of the extensions, or the path itself if it has none of them. -/
def IsStem (extensions : List String) (path stem : List Char) : Prop :=
  (∃ extension ∈ extensions, Strips extension path stem) ∨
    stem = path ∧ ∀ shorter, ¬∃ extension ∈ extensions, Strips extension path shorter

/-- The extensions that can stand behind the last dot of a name. -/
def undotted (extensions : List String) : List String :=
  extensions.filter fun extension => '.' ∉ extension.toList

theorem mem_undotted {extensions : List String} {extension : String} :
    extension ∈ undotted extensions ↔ extension ∈ extensions ∧ '.' ∉ extension.toList := by
  rw [undotted, List.mem_filter, decide_eq_true_eq]

/-- Two extensions without a dot leave the same stem, since each stands behind the last dot. -/
theorem Strips.unique {extension extension' : String} {path stem stem' : List Char}
    (plain : '.' ∉ extension.toList) (plain' : '.' ∉ extension'.toList)
    (first : Strips extension path stem) (second : Strips extension' path stem') :
    stem = stem' := by
  obtain ⟨directory, base, -, divides, rfl⟩ := first
  obtain ⟨directory', base', -, divides', rfl⟩ := second
  obtain ⟨rfl, name⟩ := divides.unique divides'
  rw [(eq_of_append_mark name plain plain').1]

theorem IsStem.unique {extensions : List String} {path stem stem' : List Char}
    (first : IsStem (undotted extensions) path stem)
    (second : IsStem (undotted extensions) path stem') : stem = stem' := by
  rcases first with ⟨extension, listed, strips⟩ | ⟨rfl, whole⟩
  · rcases second with ⟨extension', listed', strips'⟩ | ⟨-, whole'⟩
    · exact strips.unique (mem_undotted.mp listed).2 (mem_undotted.mp listed').2 strips'
    · exact absurd ⟨extension, listed, strips⟩ (whole' stem)
  · rcases second with strips' | ⟨rfl, -⟩
    · exact absurd strips' (whole stem')
    · rfl

/-- Extensions with a dot make no difference to a path that ends in none of them. -/
theorem isStem_undotted {extensions : List String} {path : List Char}
    (none : ∀ extension ∈ extensions, '.' ∈ extension.toList → ∀ shorter,
      ¬Strips extension path shorter) (stem : List Char) :
    IsStem extensions path stem ↔ IsStem (undotted extensions) path stem := by
  -- the extensions that are left out strip nothing off this path
  have strips (stem : List Char) : (∃ extension ∈ extensions, Strips extension path stem) ↔
      ∃ extension ∈ undotted extensions, Strips extension path stem := by
    constructor
    · rintro ⟨extension, listed, strips⟩
      have plain : '.' ∉ extension.toList := fun dot => none extension listed dot stem strips
      exact ⟨extension, mem_undotted.mpr ⟨listed, plain⟩, strips⟩
    · rintro ⟨extension, listed, strips⟩
      exact ⟨extension, (mem_undotted.mp listed).1, strips⟩
  simp only [IsStem, strips]

theorem stripExtension_isPrefix (extensions : List String) (name : List Char) :
    stripExtension extensions name <+: name := by
  rw [stripExtension]
  split
  next known =>
    have some : (splitAt '.' name).dropLast ≠ [] := by
      intro none
      simp [none, joinDots] at known
    have joined := joinDots_splitAt name
    rw [← List.dropLast_concat_getLast (splitAt_ne_nil '.' name), joinDots_append some] at joined
    exact ⟨_, joined⟩
  · exact List.prefix_refl name

/-- Stripping an extension takes nothing of the directory. -/
theorem Divides.stripExtension {path directory name : List Char}
    (divides : Divides path directory name) (extensions : List String) :
    Divides (directory ++ Concord.stripExtension extensions name) directory
      (Concord.stripExtension extensions name) :=
  ⟨rfl, divides.directory, fun slash =>
    divides.name ((stripExtension_isPrefix extensions name).mem slash)⟩

/-- Stripping the extension of the file name gives the stem. -/
theorem stripExtension_isStem (extensions : List String) {path directory name : List Char}
    (divides : Divides path directory name) :
    IsStem (undotted extensions) path (directory ++ stripExtension extensions name) := by
  obtain ⟨front, last, cut⟩ : ∃ front last, splitAt '.' name = front ++ [last] :=
    ⟨_, _, (List.dropLast_concat_getLast (splitAt_ne_nil '.' name)).symm⟩
  have plain : '.' ∉ last := not_mem_of_mem_splitAt (cut ▸ List.mem_append_right front (by simp))
  have joined : joinDots (front ++ [last]) = name := by rw [← cut, joinDots_splitAt]
  -- behind some parts the last one is what stands behind the last dot
  have ends (some : front ≠ []) : name = joinDots front ++ '.' :: last := by
    rw [← joined, joinDots_append some, dotted_cons, dotted_nil, List.append_nil]
  simp only [stripExtension, cut, List.dropLast_concat, List.getLast?_concat, Option.some.injEq]
  split
  next known =>
    simp only [Bool.and_eq_true, Bool.not_eq_true', List.isEmpty_eq_false_iff, List.any_eq_true,
      decide_eq_true_eq] at known
    obtain ⟨base, extension, listed, rfl⟩ := known
    have some : front ≠ [] := by
      rintro rfl
      exact base rfl
    exact Or.inl ⟨extension, mem_undotted.mpr ⟨listed, plain⟩, directory, _, base,
      ends some ▸ divides, rfl⟩
  next unknown =>
    refine Or.inr ⟨divides.path.symm, ?_⟩
    rintro shorter ⟨extension, listed, directory', base, named, divides', rfl⟩
    obtain ⟨listed, dotless⟩ := mem_undotted.mp listed
    obtain ⟨rfl, same⟩ := divides.unique divides'
    have some : front ≠ [] := by
      -- a name of one part has no dot
      rintro rfl
      have whole : name = last := joined.symm
      exact plain (whole ▸ same ▸ List.mem_append_right base List.mem_cons_self)
    obtain ⟨rfl, rfl⟩ := eq_of_append_mark ((ends some).symm.trans same) plain dotless
    apply unknown
    simp only [Bool.and_eq_true, Bool.not_eq_true', List.isEmpty_eq_false_iff, List.any_eq_true,
      decide_eq_true_eq]
    exact ⟨named, extension, listed, rfl⟩

/-- The normalised path without what is taken off it. -/
def stemOf (extensions : List String) (path : String) : List Char :=
  let parts := splitDirectory (normalizePath path).toList
  parts.1 ++ stripExtension extensions parts.2

theorem isStem_iff (extensions : List String) (path : String) (stem : List Char) :
    IsStem (undotted extensions) (normalizePath path).toList stem ↔
      stem = stemOf extensions path := by
  have divides := splitDirectory_divides (normalizePath path).toList
  have isStem := stripExtension_isStem extensions divides
  rw [stemOf]
  constructor
  · intro other
    exact other.unique isStem
  · intro same
    rw [same]
    exact isStem

/-- Stores, and an extension that holds a dot. -/
def Settings.declarations : Settings :=
  { roleSuffixes := { store := some [".store"] }, namingConventions := {}, extensions := ["d.ts"] }

/-- The conventions of these settings. -/
def Conventions.declarations : Conventions :=
  { suffixes := [(.store, ⟨".store", [.literal "store".toList]⟩)], naming := {}
    treatWarningsAsErrors := false, flagStrayFiles := false, extensions := ["d.ts"]
    storeHandle := "store", viewRoot := "data", projectionSymbol := "viewData" }

theorem Settings.compile_declarations [PatternEngine] :
    Settings.declarations.compile = .ok .declarations :=
  rfl

end Concord
