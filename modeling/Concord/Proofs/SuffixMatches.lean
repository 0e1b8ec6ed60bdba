import Concord.Proofs.FileNames
import Mathlib.Data.List.Forall2

/-!
Suffix patterns as texts. A pattern is a text in which `*` may stand for a part of a file name, so
it matches a stem if the stem ends with the pattern and something in place of the `*`. Cutting the
file name at its dots and comparing part by part finds these matches and no others.
-/
namespace Concord

open Concord.Text

/-- A pattern with what its `*` stands for. -/
def fill (pattern : List Char) (variant : Option (List Char)) : List Char :=
  pattern.flatMap fun c => if c = '*' then variant.getD [] else [c]

/-- The stem ends with the pattern: `id` stands in front of it, and `variant`, a part of the file
name, in place of its `*`. The file name keeps something other than dots. -/
structure Fits (pattern : String) (stem id : List Char) (variant : Option (List Char)) : Prop where
  text : stem = id ++ fill pattern.toList variant
  bound : variant.isSome = true ↔ '*' ∈ pattern.toList
  part : ∀ part ∈ variant, part ≠ [] ∧ '.' ∉ part ∧ '/' ∉ part
  named : ∃ directory name, Divides id directory name ∧ ∃ c ∈ name, c ≠ '.'

theorem fill_append (front back : List Char) (variant : Option (List Char)) :
    fill (front ++ back) variant = fill front variant ++ fill back variant :=
  List.flatMap_append

theorem fill_cons (c : Char) (rest : List Char) (variant : Option (List Char)) :
    fill (c :: rest) variant =
      (if c = '*' then variant.getD [] else [c]) ++ fill rest variant :=
  List.flatMap_cons

theorem fill_of_notMem {text : List Char} (plain : '*' ∉ text) (variant : Option (List Char)) :
    fill text variant = text := by
  induction text with
  | nil => rfl
  | cons c rest ih =>
    rw [List.mem_cons, not_or] at plain
    rw [fill_cons, if_neg (Ne.symm plain.1), ih plain.2]
    rfl

/-! Reading a pattern -/

theorem eq_cons_of_dropMark? {mark : Char} {text rest : List Char}
    (dropped : dropMark? mark text = some rest) : text = mark :: rest := by
  cases text with
  | nil => cases dropped
  | cons c tail =>
    rw [dropMark?] at dropped
    split at dropped
    next same =>
      cases dropped
      rw [same]
    · cases dropped

theorem forall₂_of_mapM_eq_some {α β : Type} {f : α → Option β} {xs : List α} {ys : List β}
    (read : xs.mapM f = some ys) : List.Forall₂ (fun x y => f x = some y) xs ys := by
  induction xs generalizing ys with
  | nil =>
    cases read
    exact .nil
  | cons x xs ih =>
    simp only [List.mapM_cons, Option.bind_eq_bind, Option.bind_eq_some_iff, Option.pure_def,
      Option.some.injEq] at read
    obtain ⟨y, first, rest, others, rfl⟩ := read
    exact .cons first (ih others)

namespace Suffix

/-- The text of a segment in a match. -/
def Segment.text (variant : Option (List Char)) : Segment → List Char
  | .literal text => text
  | .variant => variant.getD []

theorem segment?_eq_some {part : List Char} {segment : Segment}
    (read : segment? part = some segment) :
    segment = .variant ∧ part = ['*'] ∨
      segment = .literal part ∧ '*' ∉ part ∧ '/' ∉ part := by
  rw [segment?] at read
  split at read
  · cases read
  · split at read
    next star =>
      cases read
      exact Or.inl ⟨rfl, star⟩
    · split at read
      · cases read
      next plain =>
        cases read
        simp only [Bool.or_eq_true, List.contains_eq_mem, decide_eq_true_eq, not_or] at plain
        exact Or.inr ⟨rfl, plain⟩

/-- The segments of a pattern say what its text is, whatever its variant. -/
structure Spells (suffix : Suffix) : Prop where
  fill : ∀ variant, fill suffix.raw.toList variant =
    dotted (suffix.segments.map (Segment.text variant))
  star : '*' ∈ suffix.raw.toList ↔ .variant ∈ suffix.segments
  once : suffix.segments.count .variant ≤ 1
  plain : ∀ text, .literal text ∈ suffix.segments → '.' ∉ text ∧ '/' ∉ text

theorem spells_segments {parts : List (List Char)} {segments : List Segment}
    (read : List.Forall₂ (fun part segment => segment? part = some segment) parts segments) :
    (∀ variant, Concord.fill (dotted parts) variant =
        dotted (segments.map (Segment.text variant))) ∧
      ('*' ∈ dotted parts ↔ .variant ∈ segments) ∧
      ∀ text, .literal text ∈ segments → text ∈ parts ∧ '/' ∉ text := by
  -- by induction over the parts: a `*` is filled with the variant, any other part is itself
  induction read with
  | nil => exact ⟨fun _ => rfl, by simp, by simp⟩
  | @cons part segment parts segments first _ ih =>
    obtain ⟨filled, star, plain⟩ := ih
    have dot (variant : Option (List Char)) : Concord.fill (dotted (part :: parts)) variant =
        '.' :: (Concord.fill part variant ++ dotted (segments.map (Segment.text variant))) := by
      rw [dotted_cons, fill_cons, fill_append, filled]
      rfl
    rcases segment?_eq_some first with ⟨rfl, rfl⟩ | ⟨rfl, noStar, noSlash⟩
    · refine ⟨?_, ?_, ?_⟩
      · intro variant
        rw [dot]
        simp [Segment.text, Concord.fill]
      · simp
      · intro text member
        obtain ⟨listed, free⟩ := plain text (by simpa using member)
        exact ⟨List.mem_cons_of_mem _ listed, free⟩
    · refine ⟨?_, ?_, ?_⟩
      · intro variant
        rw [dot, fill_of_notMem noStar]
        simp [Segment.text]
      · simp [noStar, star]
      · intro text member
        rcases List.mem_cons.mp member with same | later
        · cases same
          exact ⟨List.mem_cons_self, noSlash⟩
        · obtain ⟨listed, free⟩ := plain text later
          exact ⟨List.mem_cons_of_mem _ listed, free⟩

theorem parse?_eq_some {raw : String} {suffix : Suffix} (read : parse? raw = some suffix) :
    suffix.raw = raw ∧ suffix.Spells := by
  simp only [parse?, Option.bind_eq_bind, Option.bind_eq_some_iff] at read
  obtain ⟨body, dropped, segments, read, made⟩ := read
  split at made
  next once =>
    cases made
    refine ⟨rfl, ?_⟩
    obtain ⟨filled, star, plain⟩ := spells_segments (forall₂_of_mapM_eq_some read)
    -- the pattern is its parts with dots in front, as it was cut at its dots
    have text : raw.toList = dotted (splitAt '.' body) := by
      rw [dotted_splitAt]
      exact eq_cons_of_dropMark? dropped
    constructor
    · intro variant
      rw [text]
      exact filled variant
    · rw [text]
      exact star
    · exact once
    · intro literal member
      obtain ⟨listed, noSlash⟩ := plain literal member
      exact ⟨not_mem_of_mem_splitAt listed, noSlash⟩
  · cases made

/-! Matching part by part -/

theorem map_text_congr {segments : List Segment} (none : .variant ∉ segments)
    (variant other : Option (List Char)) :
    segments.map (Segment.text variant) = segments.map (Segment.text other) := by
  apply List.map_congr_left
  intro segment member
  cases segment with
  | literal => rfl
  | variant => exact absurd member none

/-- Parts that are accepted spell the segments, with the variant that was found. -/
theorem eq_map_text_of_accepts {segments : List Segment} {parts : List (List Char)}
    (accepted : List.Forall₂ (fun segment part => Segment.accepts segment part = true)
      segments parts) (once : segments.count .variant ≤ 1) :
    parts = segments.map (Segment.text (variantOf segments parts)) ∧
      ((variantOf segments parts).isSome = true ↔ .variant ∈ segments) ∧
      ∀ part ∈ variantOf segments parts, part ≠ [] ∧ part ∈ parts := by
  induction accepted with
  | nil => simp [variantOf]
  | @cons segment part segments parts first _ ih =>
    cases segment with
    | literal text =>
      have same : text = part := by simpa [Segment.accepts] using first
      obtain ⟨spelled, found, inside⟩ := ih (by simpa using once)
      refine ⟨?_, by simpa [variantOf] using found, ?_⟩
      · rw [variantOf, List.map_cons, ← spelled, Segment.text, same]
        simp
      · intro variant bound
        obtain ⟨full, listed⟩ := inside variant (by simpa [variantOf] using bound)
        exact ⟨full, List.mem_cons_of_mem part listed⟩
    | variant =>
      -- the other segments are literals, so they are spelled alike with any variant
      have others : .variant ∉ segments := by
        rw [← List.count_eq_zero]
        rw [List.count_cons_self] at once
        omega
      obtain ⟨spelled, -, -⟩ := ih (by rw [List.count_eq_zero.mpr others]; omega)
      rw [map_text_congr others _ (some part)] at spelled
      refine ⟨?_, by simp [variantOf], ?_⟩
      · rw [variantOf, List.map_cons, ← spelled]
        rfl
      · intro variant bound
        cases bound
        exact ⟨by simpa [Segment.accepts] using first, List.mem_cons_self⟩

/-- What the segments spell is accepted, and the variant is found in it. -/
theorem accepts_map_text {segments : List Segment} {variant : Option (List Char)}
    (bound : variant.isSome = true ↔ .variant ∈ segments) (full : ∀ part ∈ variant, part ≠ []) :
    List.Forall₂ (fun segment part => Segment.accepts segment part = true) segments
        (segments.map (Segment.text variant)) ∧
      variantOf segments (segments.map (Segment.text variant)) = variant := by
  -- a part that is filled is accepted by its own segment, and the first `*` gives the variant back
  constructor
  · rw [List.forall₂_map_right_iff, List.forall₂_same]
    intro segment member
    cases segment with
    | literal text => simp [Segment.accepts, Segment.text]
    | variant =>
      obtain ⟨part, rfl⟩ := Option.isSome_iff_exists.mp (bound.mpr member)
      simpa [Segment.accepts, Segment.text] using full part rfl
  · induction segments with
    | nil =>
      cases variant with
      | none => rfl
      | some part => simp at bound
    | cons segment rest ih =>
      cases segment with
      | literal text => simpa [variantOf] using ih (by simpa using bound)
      | variant =>
        obtain ⟨part, rfl⟩ := Option.isSome_iff_exists.mp (bound.mpr List.mem_cons_self)
        rfl

theorem foldl_size (parts : List (List Char)) (size : Nat) :
    parts.foldl (fun size part => size + byteSize part + 1) size =
      size + byteSize (dotted parts) := by
  induction parts generalizing size with
  | nil => rfl
  | cons part rest ih =>
    have dot : '.'.utf8Size = 1 := rfl
    rw [List.foldl_cons, ih, dotted_cons, byteSize, byteSize_append, dot]
    omega

/-- A match takes the last parts, and leaves some part in front that is not empty. -/
theorem match?_eq_some_iff {suffix : Suffix} {parts : List (List Char)} {found : Match} :
    suffix.match? parts = some found ↔
      ∃ tail, parts = found.base ++ tail ∧ (∃ part ∈ found.base, part ≠ []) ∧
        List.Forall₂ (fun segment part => Segment.accepts segment part = true)
          suffix.segments tail ∧
        found.size = byteSize (dotted tail) ∧
        found.variant = variantOf suffix.segments tail := by
  constructor
  · intro matched
    rw [match?] at matched
    split at matched
    next taken =>
      cases matched
      simp only [Bool.and_eq_true, decide_eq_true_eq, List.any_eq_true, List.all_eq_true,
        Bool.not_eq_true', List.isEmpty_eq_false_iff] at taken
      obtain ⟨⟨long, named⟩, accepted⟩ := taken
      refine ⟨_, (List.take_append_drop _ _).symm, named, ?_, ?_, rfl⟩
      · rw [List.forall₂_iff_zip]
        refine ⟨by rw [List.length_drop]; omega, ?_⟩
        intro segment part member
        exact accepted (segment, part) member
      · rw [foldl_size, Nat.zero_add]
    · cases matched
  · rintro ⟨tail, rfl, named, accepted, size, bound⟩
    obtain ⟨base, found, variant⟩ := found
    dsimp only at named size bound
    subst size bound
    have length := accepted.length_eq
    -- some part stays in front, so there are more parts than segments
    have front : 0 < base.length := by
      obtain ⟨part, member, -⟩ := named
      exact List.length_pos_of_mem member
    have kept : (base ++ tail).length - suffix.segments.length = base.length := by
      rw [List.length_append]
      omega
    rw [match?]
    simp only [kept, List.take_left, List.drop_left]
    rw [if_pos, foldl_size, Nat.zero_add]
    simp only [Bool.and_eq_true, decide_eq_true_eq, List.any_eq_true, List.all_eq_true,
      Bool.not_eq_true', List.isEmpty_eq_false_iff]
    refine ⟨⟨by rw [List.length_append]; omega, named⟩, ?_⟩
    rintro ⟨segment, part⟩ member
    exact (List.forall₂_iff_zip.mp accepted).2 member

/-! Matching as a text -/

section

variable {suffix : Suffix} {stem directory name : List Char} (spells : suffix.Spells)
  (divides : Divides stem directory name)

include spells divides

/-- A match of the parts of a file name is a match of the stem. -/
theorem fits_of_match? {found : Match} (matched : suffix.match? (splitAt '.' name) = some found) :
    Fits suffix.raw stem (directory ++ joinDots found.base) found.variant ∧
      found.size = byteSize (fill suffix.raw.toList found.variant) := by
  obtain ⟨tail, parts, named, accepted, size, bound⟩ := match?_eq_some_iff.mp matched
  obtain ⟨spelled, variant, inside⟩ := eq_map_text_of_accepts accepted spells.once
  rw [← bound] at spelled variant inside
  -- the segments that were accepted spell the filled pattern
  have filled : fill suffix.raw.toList found.variant = dotted tail := by
    rw [spells.fill, ← spelled]
  have base : found.base ≠ [] := by
    obtain ⟨part, member, -⟩ := named
    exact List.ne_nil_of_mem member
  have whole : name = joinDots found.base ++ dotted tail := by
    rw [← joinDots_append base, ← parts, joinDots_splitAt]
  refine ⟨⟨?_, ?_, ?_, ?_⟩, ?_⟩
  · rw [filled, List.append_assoc, ← whole]
    exact divides.path
  · exact variant.trans spells.star.symm
  · intro part taken
    obtain ⟨full, listed⟩ := inside part taken
    have cut : part ∈ splitAt '.' name := parts ▸ List.mem_append_right found.base listed
    -- a part of the file name has neither a dot, which it was cut at, nor a slash
    refine ⟨full, not_mem_of_mem_splitAt cut, ?_⟩
    intro slash
    exact divides.name (joinDots_splitAt name ▸ mem_joinDots cut slash)
  · refine ⟨directory, joinDots found.base, ⟨rfl, divides.directory, ?_⟩, ?_⟩
    · intro slash
      exact divides.name (whole ▸ List.mem_append_left _ slash)
    · obtain ⟨part, member, full⟩ := named
      obtain ⟨c, rest, rfl⟩ := List.exists_cons_of_ne_nil full
      have cut : c :: rest ∈ splitAt '.' name := parts ▸ List.mem_append_left tail member
      refine ⟨c, mem_joinDots member List.mem_cons_self, ?_⟩
      rintro rfl
      exact not_mem_of_mem_splitAt cut List.mem_cons_self
  · rw [filled, size]

/-- A match of the stem is found in the parts of its file name. -/
theorem match?_of_fits {id : List Char} {variant : Option (List Char)}
    (fits : Fits suffix.raw stem id variant) :
    ∃ found, suffix.match? (splitAt '.' name) = some found ∧
      directory ++ joinDots found.base = id ∧ found.variant = variant := by
  have bound : variant.isSome = true ↔ .variant ∈ suffix.segments :=
    fits.bound.trans spells.star
  obtain ⟨accepted, found⟩ := accepts_map_text bound fun part taken => (fits.part part taken).1
  -- neither a dot nor a slash stands in what a segment is spelled with
  have plain : ∀ part ∈ suffix.segments.map (Segment.text variant), '.' ∉ part ∧ '/' ∉ part := by
    intro part member
    obtain ⟨segment, listed, rfl⟩ := List.mem_map.mp member
    cases segment with
    | literal text => exact spells.plain text listed
    | variant =>
      obtain ⟨part, rfl⟩ := Option.isSome_iff_exists.mp (bound.mpr listed)
      exact (fits.part part rfl).2
  obtain ⟨front, base, split, c, member, other⟩ := fits.named
  -- so the slash that divides the component divides the stem, and its parts are those of the
  -- pattern
  have whole : Divides stem front
      (base ++ dotted (suffix.segments.map (Segment.text variant))) := by
    refine ⟨?_, split.directory, ?_⟩
    · rw [fits.text, split.path, spells.fill, List.append_assoc]
    · rw [List.mem_append, not_or]
      refine ⟨split.name, ?_⟩
      intro slash
      obtain ⟨part, listed, inside⟩ := List.mem_flatMap.mp slash
      rcases List.mem_cons.mp inside with dot | inside
      · cases dot
      · exact (plain part listed).2 inside
  obtain ⟨rfl, rfl⟩ := divides.unique whole
  refine ⟨⟨splitAt '.' base, _, variant⟩, match?_eq_some_iff.mpr ⟨_, ?_, ?_, accepted, rfl,
    found.symm⟩, ?_, rfl⟩
  · exact splitAt_append_dotted (fun part listed => (plain part listed).1) base
  · obtain ⟨part, cut, inside⟩ := exists_mem_of_mem_joinDots (joinDots_splitAt base ▸ member) other
    exact ⟨part, cut, List.ne_nil_of_mem inside⟩
  · rw [joinDots_splitAt, split.path]

end

end Suffix

end Concord
