import Concord.Proofs.Clauses
import Concord.Proofs.StoreAndView
import Concord.Proofs.SuffixMatches
import Mathlib.Data.List.Induction

/-!
What the patterns of the settings say of a path. The path without its extension ends with a pattern
or with none; of the patterns that match, the one that takes most bytes decides, then the one of the
first role, then the one that is listed first. The match is found by one pass over the patterns that
keeps the best so far.
-/
namespace Concord

open Concord.Text

/-! The best match -/

/-- The match that prevails: that of a listed suffix, of which no listed one takes more bytes, none
of an earlier role as many, and none of its own role that is listed in front of it. -/
structure RoleMatch.Prevails (best : RoleMatch) (suffixes : List (Role × Suffix))
    (parts : List (List Char)) (earlier later : List (Role × Suffix)) (suffix : Suffix) : Prop where
  listed : suffixes = earlier ++ (best.role, suffix) :: later
  matched : suffix.match? parts = some best.found
  longest : ∀ role other found, (role, other) ∈ suffixes → other.match? parts = some found →
    found.size ≤ best.found.size
  ranked : ∀ role other found, (role, other) ∈ suffixes → other.match? parts = some found →
    found.size = best.found.size → best.role.priority ≤ role.priority
  first : ∀ other found, (best.role, other) ∈ earlier → other.match? parts = some found →
    found.size ≠ best.found.size

theorem RoleMatch.beats_iff {next best : RoleMatch} :
    next.beats best = true ↔ best.found.size < next.found.size ∨
      best.found.size = next.found.size ∧ next.role.priority < best.role.priority := by
  simp [beats]

namespace RoleMatch.Prevails

variable {best : RoleMatch} {suffixes earlier later : List (Role × Suffix)}
  {parts : List (List Char)} {suffix next : Suffix} {role : Role}

/-- A suffix that does not beat the best match changes nothing. -/
theorem concat (prevails : best.Prevails suffixes parts earlier later suffix)
    (weaker : ∀ found, next.match? parts = some found → beats ⟨role, found⟩ best = false) :
    best.Prevails (suffixes ++ [(role, next)]) parts earlier (later ++ [(role, next)]) suffix := by
  have below {found : Suffix.Match} (matched : next.match? parts = some found) :
      ¬(best.found.size < found.size ∨
        best.found.size = found.size ∧ role.priority < best.role.priority) := by
    have unbeaten := weaker found matched
    rw [← Bool.not_eq_true, beats_iff] at unbeaten
    exact unbeaten
  -- the listed place stays, and the two bounds hold of the new suffix as well
  constructor
  · rw [prevails.listed, List.append_assoc, List.cons_append]
  · exact prevails.matched
  · intro role' other found member matched
    rcases List.mem_append.mp member with old | new
    · exact prevails.longest role' other found old matched
    · cases List.mem_singleton.mp new
      have := below matched
      omega
  · intro role' other found member matched same
    rcases List.mem_append.mp member with old | new
    · exact prevails.ranked role' other found old matched same
    · cases List.mem_singleton.mp new
      have := below matched
      omega
  · exact prevails.first

/-- A match that beats whatever else matches prevails. -/
theorem last {found : Suffix.Match} (matched : next.match? parts = some found)
    (stronger : ∀ role' other found', (role', other) ∈ suffixes →
      other.match? parts = some found' → beats ⟨role, found⟩ ⟨role', found'⟩ = true) :
    RoleMatch.Prevails ⟨role, found⟩ (suffixes ++ [(role, next)]) parts suffixes [] next := by
  have above {role' : Role} {other : Suffix} {found' : Suffix.Match}
      (member : (role', other) ∈ suffixes) (there : other.match? parts = some found') :
      found'.size < found.size ∨
        found'.size = found.size ∧ role.priority < role'.priority :=
    beats_iff.mp (stronger role' other found' member there)
  -- the new suffix is the last one, and each bound compares it with those in front
  constructor
  · rfl
  · exact matched
  · intro role' other found' member there
    rcases List.mem_append.mp member with old | new
    · have := above old there
      dsimp only
      omega
    · cases List.mem_singleton.mp new
      rw [matched] at there
      cases there
      exact le_refl _
  · intro role' other found' member there same
    rcases List.mem_append.mp member with old | new
    · have := above old there
      dsimp only at same ⊢
      omega
    · cases List.mem_singleton.mp new
      exact le_refl _
  · intro other found' member there same
    have := above member there
    dsimp only at same this
    omega

/-- What beats the best match beats all others. -/
theorem beats_of_beats (prevails : best.Prevails suffixes parts earlier later suffix)
    {found : Suffix.Match} (stronger : beats ⟨role, found⟩ best = true) {role' : Role}
    {other : Suffix} {found' : Suffix.Match} (member : (role', other) ∈ suffixes)
    (matched : other.match? parts = some found') :
    beats ⟨role, found⟩ ⟨role', found'⟩ = true := by
  have above := beats_iff.mp stronger
  have longest := prevails.longest role' other found' member matched
  have ranked := prevails.ranked role' other found' member matched
  rw [beats_iff]
  dsimp only at above ⊢
  omega

end RoleMatch.Prevails

theorem bestMatch_concat (suffixes : List (Role × Suffix)) (role : Role) (suffix : Suffix)
    (parts : List (List Char)) :
    bestMatch (suffixes ++ [(role, suffix)]) parts =
      match suffix.match? parts, bestMatch suffixes parts with
      | none, best => best
      | some found, none => some ⟨role, found⟩
      | some found, some best =>
        if RoleMatch.beats ⟨role, found⟩ best then some ⟨role, found⟩ else some best := by
  rw [bestMatch, List.foldl_append]
  rfl

/-- The pass finds no match, or the one that prevails. -/
theorem bestMatch_spec (suffixes : List (Role × Suffix)) (parts : List (List Char)) :
    (bestMatch suffixes parts = none ∧
        ∀ role suffix, (role, suffix) ∈ suffixes → suffix.match? parts = none) ∨
      ∃ best earlier later suffix, bestMatch suffixes parts = some best ∧
        best.Prevails suffixes parts earlier later suffix := by
  -- the pass goes from the left, so its last step is about the suffix behind all others
  induction suffixes using List.reverseRecOn with
  | nil => exact Or.inl ⟨rfl, by simp⟩
  | append_singleton suffixes next ih =>
    obtain ⟨role, suffix⟩ := next
    rw [bestMatch_concat]
    rcases ih with ⟨none, unmatched⟩ | ⟨best, earlier, later, chosen, old, prevails⟩
    · cases matched : suffix.match? parts with
      | none =>
        refine Or.inl ⟨none, ?_⟩
        intro role' other member
        rcases List.mem_append.mp member with old | new
        · exact unmatched role' other old
        · cases List.mem_singleton.mp new
          exact matched
      | some found =>
        -- the first match beats all before it, since there are none
        rw [none]
        refine Or.inr ⟨_, _, _, _, rfl, .last matched ?_⟩
        intro role' other found' member there
        rw [unmatched role' other member] at there
        cases there
    · rw [old]
      cases matched : suffix.match? parts with
      | none =>
        refine Or.inr ⟨best, _, _, chosen, rfl, prevails.concat ?_⟩
        intro found there
        rw [matched] at there
        cases there
      | some found =>
        dsimp only
        split
        next stronger =>
          refine Or.inr ⟨_, _, _, _, rfl, .last matched ?_⟩
          intro role' other found' member there
          exact prevails.beats_of_beats stronger member there
        next weaker =>
          refine Or.inr ⟨best, _, _, chosen, rfl, prevails.concat ?_⟩
          intro found' there
          rw [matched] at there
          cases there
          exact Bool.eq_false_iff.mpr weaker

/-! Patterns of the settings -/

/-- The patterns of the roles, in the order of the roles and as they are listed for each. -/
def Settings.patterns (settings : Settings) : List (Role × String) :=
  settings.roleSuffixes.toList.flatMap fun (role, patterns) =>
    patterns.map fun pattern => (role, pattern)

/-- The suffix of a role was read from this pattern of the role. -/
def ReadsAs (pattern : Role × String) (suffix : Role × Suffix) : Prop :=
  suffix.1 = pattern.1 ∧ Suffix.parse? pattern.2 = some suffix.2

theorem Settings.roleSuffixRules_eq_ok {role : Role} {patterns : List String}
    {suffixes : List (Role × Suffix)} (read : roleSuffixRules role patterns = .ok suffixes) :
    role ≠ .unknown ∧
      List.Forall₂ ReadsAs (patterns.map fun pattern => (role, pattern)) suffixes := by
  rw [roleSuffixRules] at read
  split at read
  · cases read
  next claimed =>
    refine ⟨claimed, ?_⟩
    rw [List.forall₂_map_left_iff]
    refine (Export.mapM_eq_ok_iff.mp read).imp ?_
    intro pattern suffix made
    split at made
    next found =>
      cases made
      exact ⟨rfl, found⟩
    · cases made

/-- The suffixes of conventions are those of the settings, in their order. -/
theorem Settings.forall₂_suffixes [PatternEngine] {settings : Settings} {conventions : Conventions}
    (compiled : settings.compile = .ok conventions) :
    List.Forall₂ ReadsAs settings.patterns conventions.suffixes ∧
      ∀ pattern ∈ settings.patterns, pattern.1 ≠ .unknown := by
  simp only [compile, bind_eq_ok] at compiled
  obtain ⟨suffixes, read, naming, -, -, -, -, -, -, -, made⟩ := compiled
  cases made
  rw [patterns]
  dsimp only
  have each := Export.mapM_eq_ok_iff.mp read
  clear read
  generalize settings.roleSuffixes.toList = table at each ⊢
  -- by induction over the roles of the settings, each with its own patterns
  induction each with
  | nil => exact ⟨.nil, by simp⟩
  | cons first _ ih =>
    obtain ⟨claimed, readsAs⟩ := roleSuffixRules_eq_ok first
    obtain ⟨others, claimedOthers⟩ := ih
    rw [List.flatMap_cons, List.flatten_cons]
    refine ⟨List.rel_append readsAs others, ?_⟩
    intro pattern member
    rcases List.mem_append.mp member with here | later
    · obtain ⟨raw, -, rfl⟩ := List.mem_map.mp here
      exact claimed
    · exact claimedOthers pattern later

/-- A list that is related to one with a marked element is cut at the same place. -/
theorem exists_cut_of_forall₂ {α β : Type} {related : α → β → Prop} {xs : List α}
    {front back : List β} {y : β} (each : List.Forall₂ related xs (front ++ y :: back)) :
    ∃ earlier x later, xs = earlier ++ x :: later ∧ List.Forall₂ related earlier front ∧
      related x y := by
  have behind := List.forall₂_drop_append _ _ _ each
  obtain ⟨x, later, here, -, cut⟩ := List.forall₂_cons_right_iff.mp behind
  refine ⟨xs.take front.length, x, later, ?_, List.forall₂_take_append _ _ _ each, here⟩
  rw [← cut, List.take_append_drop]

/-! Classifications -/

/-- The bytes that a match of the pattern takes. -/
def filledSize (pattern : String) (variant : Option (List Char)) : Nat :=
  byteSize (fill pattern.toList variant)

/-- The classification is what the patterns say of the stem. Without a match it is unknown and keeps
the stem. With one it is that of a pattern that fits, of which no pattern that fits is longer, none
of an earlier role is as long, and none of its role that is as long is listed in front of it. -/
structure Classification.Follows (c : Classification) (patterns : List (Role × String))
    (stem : List Char) : Prop where
  unknown : c.role = .unknown ↔
    ∀ role pattern id variant, (role, pattern) ∈ patterns → ¬Fits pattern stem id variant
  stray : c.role = .unknown → c.component.toList = stem ∧ c.variant = none
  claimed : c.role ≠ .unknown → ∃ earlier pattern later,
    patterns = earlier ++ (c.role, pattern) :: later ∧
    Fits pattern stem c.component.toList (c.variant.map String.toList) ∧
    (∀ role other id variant, (role, other) ∈ patterns → Fits other stem id variant →
      filledSize other variant ≤ filledSize pattern (c.variant.map String.toList) ∧
        (filledSize other variant = filledSize pattern (c.variant.map String.toList) →
          c.role.priority ≤ role.priority)) ∧
    ∀ other id variant, (c.role, other) ∈ earlier → Fits other stem id variant →
      filledSize other variant ≠ filledSize pattern (c.variant.map String.toList)

section

variable {patterns : List (Role × String)} {suffixes : List (Role × Suffix)}
  (read : List.Forall₂ ReadsAs patterns suffixes) {stem directory name : List Char}
  (divides : Divides stem directory name)

include read divides

/-- A pattern that fits is matched by the suffix that was read from it. -/
theorem exists_match?_of_fits {role : Role} {pattern : String} {id : List Char}
    {variant : Option (List Char)} (listed : (role, pattern) ∈ patterns)
    (fits : Fits pattern stem id variant) :
    ∃ suffix found, (role, suffix) ∈ suffixes ∧
      suffix.match? (splitAt '.' name) = some found ∧
      found.size = filledSize pattern variant := by
  obtain ⟨⟨role', suffix⟩, member, same, parsed⟩ := Export.exists_mem_of_forall₂ read listed
  cases same
  obtain ⟨raw, spells⟩ := Suffix.parse?_eq_some parsed
  dsimp only at raw
  subst raw
  obtain ⟨found, matched, -, rfl⟩ := Suffix.match?_of_fits spells divides fits
  exact ⟨suffix, found, member, matched, (Suffix.fits_of_match? spells divides matched).2⟩

/-- Without a match no pattern fits, so the stem itself is the component. -/
theorem follows_of_none
    (unmatched : ∀ role suffix, (role, suffix) ∈ suffixes →
      suffix.match? (splitAt '.' name) = none) :
    Classification.Follows { component := String.ofList stem, role := .unknown } patterns stem := by
  constructor
  · refine ⟨fun _ => ?_, fun _ => rfl⟩
    intro role pattern id variant listed fits
    obtain ⟨suffix, found, member, matched, -⟩ := exists_match?_of_fits read divides listed fits
    rw [unmatched role suffix member] at matched
    cases matched
  · intro _
    exact ⟨String.toList_ofList, rfl⟩
  · intro claimed
    exact absurd rfl claimed

/-- The match that prevails says what the patterns say. -/
theorem RoleMatch.Prevails.follows {best : RoleMatch} {earlier later : List (Role × Suffix)}
    {suffix : Suffix} (prevails : best.Prevails suffixes (splitAt '.' name) earlier later suffix)
    (claimed : ∀ pattern ∈ patterns, pattern.1 ≠ .unknown) :
    Classification.Follows
      { component := String.ofList (directory ++ joinDots best.found.base), role := best.role
        variant := best.found.variant.map String.ofList } patterns stem := by
  -- the pattern of the suffix stands at the same place among the patterns
  obtain ⟨before, ⟨role, pattern⟩, behind, cut, front, same, parsed⟩ :=
    exists_cut_of_forall₂ (prevails.listed ▸ read)
  dsimp only at same parsed
  subst same
  have listed : (best.role, pattern) ∈ patterns := cut ▸ List.mem_append_right before (by simp)
  obtain ⟨raw, spells⟩ := Suffix.parse?_eq_some parsed
  obtain ⟨fits, size⟩ := Suffix.fits_of_match? spells divides prevails.matched
  rw [raw] at fits size
  rw [← filledSize] at size
  have variant : (best.found.variant.map String.ofList).map String.toList = best.found.variant := by
    rw [Option.map_map]
    cases best.found.variant <;> simp
  constructor
  · refine ⟨fun unknown => absurd unknown (claimed _ listed), fun unfit => ?_⟩
    exact absurd fits (unfit _ _ _ _ listed)
  · intro unknown
    exact absurd unknown (claimed _ listed)
  · intro _
    dsimp only
    rw [variant, String.toList_ofList]
    refine ⟨before, pattern, behind, cut, fits, ?_, ?_⟩
    · intro role other id variant member there
      obtain ⟨suffix, found, known, matched, taken⟩ :=
        exists_match?_of_fits read divides member there
      rw [← size, ← taken]
      exact ⟨prevails.longest role suffix found known matched,
        prevails.ranked role suffix found known matched⟩
    · -- what is listed in front of the pattern was read as what stands in front of the suffix
      intro other id variant member there
      obtain ⟨suffix, found, known, matched, taken⟩ :=
        exists_match?_of_fits front divides member there
      rw [← size, ← taken]
      exact prevails.first suffix found known matched

end

/-- A path is classified as the patterns say of its stem. -/
theorem follows_stemOf [PatternEngine] {settings : Settings} {conventions : Conventions}
    (compiled : settings.compile = .ok conventions) (path : String) :
    (classify conventions path).Follows settings.patterns
      (stemOf conventions.extensions path) := by
  obtain ⟨read, claimed⟩ := Settings.forall₂_suffixes compiled
  have divides := (splitDirectory_divides (normalizePath path).toList).stripExtension
    conventions.extensions
  rw [classify, stemOf]
  dsimp only
  rcases bestMatch_spec conventions.suffixes (splitAt '.' (stripExtension conventions.extensions
    (splitDirectory (normalizePath path).toList).2)) with
    ⟨none, unmatched⟩ | ⟨best, earlier, later, suffix, found, prevails⟩
  · rw [none]
    exact follows_of_none read divides unmatched
  · rw [found]
    exact prevails.follows read divides claimed

/-- A path is classified as the patterns say of its stem. An extension that holds a dot is never
taken off; where the path ends in none of these, it has one stem for the extensions that are
configured, and that is the one. -/
theorem classify_follows [PatternEngine] {settings : Settings} {conventions : Conventions}
    (compiled : settings.compile = .ok conventions) (path : String) :
    ∃ stem, (∀ other, IsStem (undotted conventions.extensions) (normalizePath path).toList other ↔
        other = stem) ∧
      ((∀ extension ∈ conventions.extensions, '.' ∈ extension.toList → ∀ shorter,
          ¬Strips extension (normalizePath path).toList shorter) →
        ∀ other, IsStem conventions.extensions (normalizePath path).toList other ↔
          other = stem) ∧
      (classify conventions path).Follows settings.patterns stem := by
  refine ⟨_, isStem_iff conventions.extensions path, ?_, follows_stemOf compiled path⟩
  intro none other
  rw [isStem_undotted none, isStem_iff]

/-- A name with a dot in front, a variant and a known extension, of which both patterns of the role
fit the stem. -/
theorem classify_follows_dotted :
    ∃ stem, (∀ other, IsStem Conventions.anyNames.extensions
        (normalizePath "b\\.x.web.impl.ts").toList other ↔ other = stem) ∧
      (classify .anyNames "b\\.x.web.impl.ts").Follows Settings.anyNames.patterns stem ∧
      stem = "b/.x.web.impl".toList ∧
      classify .anyNames "b\\.x.web.impl.ts" = ⟨"b/.x", .impl, some "web"⟩ := by
  obtain ⟨stem, -, unique, follows⟩ :=
    classify_follows Settings.compile_anyNames "b\\.x.web.impl.ts"
  have plain : ∀ extension ∈ Conventions.anyNames.extensions, '.' ∉ extension.toList := by decide
  have unique := unique fun extension listed dot => absurd dot (plain extension listed)
  refine ⟨stem, unique, follows, ((unique _).mp ?_).symm, by decide⟩
  refine Or.inl ⟨"ts", by decide, "b/".toList, ".x.web.impl".toList, by decide, ?_, by decide⟩
  exact ⟨by decide, Or.inr (by decide), by decide⟩

/-- An extension with a dot is not taken off, so a path whose one stem is that of a store is
unknown. -/
theorem classify_keeps_dotted :
    Settings.declarations.compile = .ok .declarations ∧
      (∀ other, IsStem Conventions.declarations.extensions
        (normalizePath "src/a.store.d.ts").toList other ↔ other = "src/a.store".toList) ∧
      (.store, ".store") ∈ Settings.declarations.patterns ∧
      Fits ".store" "src/a.store".toList "src/a".toList none ∧
      classify .declarations "src/a.store.d.ts" = ⟨"src/a.store.d.ts", .unknown, none⟩ ∧
      ¬(classify .declarations "src/a.store.d.ts").Follows Settings.declarations.patterns
        "src/a.store".toList := by
  have path : (normalizePath "src/a.store.d.ts").toList = "src/a.store.d.ts".toList := by decide
  have divides : Divides "src/a.store.d.ts".toList "src/".toList
      ("a.store".toList ++ '.' :: "d.ts".toList) :=
    ⟨by decide, Or.inr (by decide), by decide⟩
  -- only the file name with its extension can be divided so, and that in one way
  have strips (stem : List Char) : (∃ extension ∈ Conventions.declarations.extensions,
      Strips extension "src/a.store.d.ts".toList stem) ↔ stem = "src/a.store".toList := by
    constructor
    · rintro ⟨extension, listed, directory, base, -, divides', rfl⟩
      obtain rfl := List.mem_singleton.mp listed
      obtain ⟨rfl, name⟩ := divides.unique divides'
      rw [← List.append_cancel_right name]
      decide
    · rintro rfl
      exact ⟨"d.ts", by decide, _, _, by decide, divides, by decide⟩
  have fits : Fits ".store" "src/a.store".toList "src/a".toList none :=
    ⟨by decide, by decide, nofun, "src/".toList, "a".toList,
      ⟨by decide, Or.inr (by decide), by decide⟩, 'a', by decide, by decide⟩
  have unknown : classify .declarations "src/a.store.d.ts" = ⟨"src/a.store.d.ts", .unknown, none⟩ :=
    by decide +kernel
  refine ⟨Settings.compile_declarations, ?_, by decide, fits, unknown, ?_⟩
  -- the one stem is the file name without the whole extension
  · intro other
    rw [path, IsStem, strips]
    simp only [strips]
    constructor
    · rintro (same | ⟨-, whole⟩)
      · exact same
      · exact absurd rfl (whole "src/a.store".toList)
    · exact Or.inl
  -- a file of unknown role would have to fit no pattern, but the stem fits that of a store
  · intro follows
    rw [unknown] at follows
    exact follows.unknown.mp rfl .store ".store" _ _ (by decide) fits

end Concord
