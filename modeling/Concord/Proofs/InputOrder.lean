import Concord.Check.Basic
import Concord.Pattern.Engine
import Concord.Script.Reads
import Mathlib.Data.List.Forall2
import Mathlib.Data.List.TakeWhile
import Mathlib.Data.String.Basic

/-!
Sources may be given in any order and their paths with any mix of slashes. A file is decided by its
normalised path and its text, and these two are what files are sorted by: files of equal rank are
the same file, so the sorted list is the same for every order of the sources.
-/
namespace Concord

namespace Index

theorem inOrder_iff {a b : SourceFile} :
    inOrder a b = true ↔ a.path < b.path ∨ a.path = b.path ∧ a.text ≤ b.text := by
  unfold inOrder
  split
  next same => simp [same]
  next differ => simp [differ]

theorem inOrder_trans (a b c : SourceFile) (first : inOrder a b = true)
    (second : inOrder b c = true) : inOrder a c = true := by
  rw [inOrder_iff] at first second ⊢
  rcases first with before | ⟨same, text⟩
  · rcases second with later | ⟨same', -⟩
    · exact Or.inl (lt_trans before later)
    · exact Or.inl (same' ▸ before)
  · rcases second with later | ⟨same', text'⟩
    · exact Or.inl (same ▸ later)
    · exact Or.inr ⟨same.trans same', le_trans text text'⟩

theorem inOrder_total (a b : SourceFile) : (inOrder a b || inOrder b a) = true := by
  rw [Bool.or_eq_true, inOrder_iff, inOrder_iff]
  rcases lt_trichotomy a.path b.path with before | same | after
  · exact Or.inl (Or.inl before)
  · rcases le_total a.text b.text with text | text
    · exact Or.inl (Or.inr ⟨same, text⟩)
    · exact Or.inr (Or.inr ⟨same.symm, text⟩)
  · exact Or.inr (Or.inl after)

/-- Files that stand in both orders share path and text. -/
theorem inOrder_antisymm {a b : SourceFile} (first : inOrder a b = true)
    (second : inOrder b a = true) : a.path = b.path ∧ a.text = b.text := by
  rw [inOrder_iff] at first second
  rcases first with before | ⟨same, text⟩
  · rcases second with after | ⟨same, -⟩
    · exact absurd after (lt_asymm before)
    · exact absurd (same ▸ before) (lt_irrefl _)
  · rcases second with after | ⟨-, text'⟩
    · exact absurd (same ▸ after) (lt_irrefl _)
    · exact ⟨same, le_antisymm text text'⟩

/-- Files in the order in which they are taken in. -/
def Sorted (files : List SourceFile) : Prop :=
  files.Pairwise fun a b => inOrder a b = true

theorem sorted_mergeSort (files : List SourceFile) : Sorted (files.mergeSort inOrder) :=
  List.pairwise_mergeSort inOrder_trans inOrder_total files

end Index

/-- A file as the conventions classify it. -/
def SourceFile.Classified (conventions : Conventions) (file : SourceFile) : Prop :=
  ∃ source, SourceFile.ofSource conventions source = file

namespace SourceFile

variable {conventions : Conventions}

/-- Normalised path and text decide a file. -/
theorem ofSource_congr {a b : Source} (path : normalizePath a.path = normalizePath b.path)
    (text : a.text = b.text) : ofSource conventions a = ofSource conventions b := by
  simp only [ofSource, path, text]

theorem Classified.eq {a b : SourceFile} (first : a.Classified conventions)
    (second : b.Classified conventions) (path : a.path = b.path) (text : a.text = b.text) :
    a = b := by
  obtain ⟨source, rfl⟩ := first
  obtain ⟨source', rfl⟩ := second
  exact ofSource_congr path text

theorem classified_of_mem_map {sources : List Source} {file : SourceFile}
    (member : file ∈ sources.map (ofSource conventions)) : file.Classified conventions := by
  obtain ⟨source, -, made⟩ := List.mem_map.mp member
  exact ⟨source, made⟩

end SourceFile

namespace Index

/-- Sorted lists of the same classified files are equal. -/
theorem Sorted.eq_of_perm (conventions : Conventions) {files files' : List SourceFile}
    (classified : ∀ file ∈ files, file.Classified conventions) (first : Sorted files)
    (second : Sorted files') (perm : files.Perm files') : files = files' := by
  -- two files of equal rank have one path and one text, and these decide a file
  refine List.Perm.eq_of_pairwise ?_ first second perm
  intro a b here there before after
  obtain ⟨path, text⟩ := inOrder_antisymm before after
  exact (classified a here).eq (classified b (perm.mem_iff.mpr there)) path text

theorem ofFiles_perm (conventions : Conventions) {files files' : List SourceFile}
    (classified : ∀ file ∈ files, file.Classified conventions) (perm : files.Perm files') :
    ofFiles files = ofFiles files' := by
  have sorted : files.mergeSort inOrder = files'.mergeSort inOrder := by
    refine Sorted.eq_of_perm conventions ?_ (sorted_mergeSort files) (sorted_mergeSort files') ?_
    · intro file member
      exact classified file (List.mem_mergeSort.mp member)
    · exact (List.mergeSort_perm files inOrder).trans
        (perm.trans (List.mergeSort_perm files' inOrder).symm)
  rw [ofFiles, sorted, ← ofFiles]

end Index

/-- Trimming leaves nothing exactly of a text that is blank throughout. -/
theorem Text.trim_isEmpty_iff (text : List Char) :
    (Text.trim text).isEmpty = true ↔ ∀ c ∈ text, Text.isBlank c = true := by
  rw [List.isEmpty_iff, Text.trim, Text.trimEnd, List.reverse_eq_nil_iff, Text.trimStart,
    List.dropWhile_eq_nil_iff]
  constructor
  · intro blank
    rw [← List.dropWhile_eq_nil_iff]
    by_contra left
    -- a text cut at its front starts with no blank, yet all of it is blank
    have cut := List.head_dropWhile_not Text.isBlank left
    have first := blank _ (List.mem_reverse.mpr (List.head_mem left))
    simp [first] at cut
  · intro blank c member
    exact blank c ((List.dropWhile_suffix _).mem (List.mem_reverse.mp member))

/-- The same text under a path that may mix `/` and `\` in another way. -/
structure Source.Respelled (a b : Source) : Prop where
  path : normalizePath a.path = normalizePath b.path
  text : a.text = b.text

/-- The same sources in some order, each path respelled or not. -/
def Source.Rearranged (sources given : List Source) : Prop :=
  ∃ ordered, sources.Perm ordered ∧ List.Forall₂ Source.Respelled ordered given

namespace Source

theorem isBlank_iff_normalized (source : Source) :
    source.isBlank = true ↔ ∀ c ∈ (normalizePath source.path).toList, Text.isBlank c = true := by
  -- neither slash is blank, so normalising a path keeps its blanks where they are
  have slash (c : Char) : Text.isBlank (if c = '\\' then '/' else c) = Text.isBlank c := by
    split
    next back =>
      rw [back]
      rfl
    · rfl
  simp only [isBlank, Text.trim_isEmpty_iff, normalizePath, String.toList_ofList, List.mem_map,
    forall_exists_index, and_imp, forall_apply_eq_imp_iff₂, slash]

theorem Respelled.isBlank_eq {a b : Source} (respelled : Respelled a b) :
    a.isBlank = b.isBlank := by
  rw [Bool.eq_iff_iff, isBlank_iff_normalized, isBlank_iff_normalized, respelled.path]

theorem Rearranged.exists_blank_iff {sources given : List Source}
    (rearranged : Rearranged sources given) :
    (∃ source ∈ sources, source.isBlank = true) ↔ ∃ source ∈ given, source.isBlank = true := by
  obtain ⟨ordered, perm, respelled⟩ := rearranged
  simp only [perm.mem_iff]
  clear perm
  induction respelled with
  | nil => simp
  | cons first _ ih => simp [first.isBlank_eq, ih]

/-- Rearranging sources rearranges their files. -/
theorem Rearranged.files_perm {sources given : List Source} (conventions : Conventions)
    (rearranged : Rearranged sources given) :
    (sources.map (SourceFile.ofSource conventions)).Perm
      (given.map (SourceFile.ofSource conventions)) := by
  obtain ⟨ordered, perm, respelled⟩ := rearranged
  have same : ordered.map (SourceFile.ofSource conventions) =
      given.map (SourceFile.ofSource conventions) := by
    clear perm
    induction respelled with
    | nil => rfl
    | cons first _ ih =>
      rw [List.map_cons, List.map_cons, ih, SourceFile.ofSource_congr first.path first.text]
  exact same ▸ perm.map _

end Source

theorem ofSources_of_no_blank (conventions : Conventions) {sources : List Source}
    (named : ∀ source ∈ sources, source.isBlank = false) :
    Index.ofSources conventions sources =
      .ok (Index.ofFiles (sources.map (SourceFile.ofSource conventions))) := by
  have none : sources.findIdx? Source.isBlank = none := by
    rw [List.findIdx?_eq_none_iff]
    exact named
  rw [Index.ofSources, none]

/-- Sources that come in order are taken in as they are given. -/
theorem Index.ofSources_of_inOrder {conventions : Conventions} {sources : List Source}
    (named : ∀ source ∈ sources, source.isBlank = false)
    (ordered : (sources.map (SourceFile.ofSource conventions)).Pairwise
      fun a b => Index.inOrder a b = true) :
    Index.ofSources conventions sources =
      .ok (Index.ofOrdered (sources.map (SourceFile.ofSource conventions))) := by
  rw [ofSources_of_no_blank conventions named, Index.ofFiles, List.mergeSort_of_pairwise ordered]

/-! Reports -/

section

variable [Access.ScriptParser]

theorem check_of_no_blank (conventions : Conventions) {sources : List Source}
    (named : ∀ source ∈ sources, source.isBlank = false) :
    check conventions sources = .ok (Report.ofDiagnostics
      ((Index.ofFiles (sources.map (SourceFile.ofSource conventions))).diagnostics
        conventions)) := by
  rw [check, ofSources_of_no_blank conventions named]
  rfl

theorem check_of_inOrder {conventions : Conventions} {sources : List Source}
    (named : ∀ source ∈ sources, source.isBlank = false)
    (ordered : (sources.map (SourceFile.ofSource conventions)).Pairwise
      fun a b => Index.inOrder a b = true) :
    check conventions sources = .ok (Report.ofDiagnostics
      ((Index.ofOrdered (sources.map (SourceFile.ofSource conventions))).diagnostics
        conventions)) := by
  rw [check, Index.ofSources_of_inOrder named ordered]
  rfl

theorem check_of_blank (conventions : Conventions) {sources : List Source}
    (blank : ∃ source ∈ sources, source.isBlank = true) :
    ∃ position, check conventions sources = .error ⟨position⟩ := by
  cases found : sources.findIdx? Source.isBlank with
  | none =>
    rw [List.findIdx?_eq_none_iff] at found
    obtain ⟨source, member, empty⟩ := blank
    simp [found source member] at empty
  | some position =>
    exact ⟨position, by simp [check, Index.ofSources, found, bind, Except.bind]⟩

/-- The report does not depend on the order of the sources or on how their paths are spelled, and
neither does the refusal of sources with a blank path. -/
theorem check_rearranged (conventions : Conventions) {sources given : List Source}
    (rearranged : Source.Rearranged sources given) :
    ((∀ source ∈ sources, source.isBlank = false) →
      ∃ report, check conventions sources = .ok report ∧ check conventions given = .ok report) ∧
    ((∃ source ∈ sources, source.isBlank = true) →
      ∃ first second, check conventions sources = .error ⟨first⟩ ∧
        check conventions given = .error ⟨second⟩) := by
  constructor
  · intro named
    have named' : ∀ source ∈ given, source.isBlank = false := by
      intro source member
      cases blank : source.isBlank with
      | false => rfl
      | true =>
        obtain ⟨other, here, empty⟩ := rearranged.exists_blank_iff.mpr ⟨source, member, blank⟩
        simp [named other here] at empty
    refine ⟨_, check_of_no_blank conventions named, ?_⟩
    -- the index sees the files of both lists sorted, and sorted they are equal
    rw [check_of_no_blank conventions named',
      Index.ofFiles_perm conventions (fun _ => SourceFile.classified_of_mem_map)
        (rearranged.files_perm conventions)]
  · intro blank
    obtain ⟨first, refused⟩ := check_of_blank conventions blank
    obtain ⟨second, refused'⟩ :=
      check_of_blank conventions (rearranged.exists_blank_iff.mp blank)
    exact ⟨first, second, refused, refused'⟩

end

/-- Conventions with one suffix, for stores, and no patterns for names. -/
def Conventions.storesOnly : Conventions :=
  { suffixes := [(.store, ⟨".store", [.literal "store".toList]⟩)], naming := {}
    treatWarningsAsErrors := false, flagStrayFiles := true, extensions := ["ts"]
    storeHandle := "store", viewRoot := "data", projectionSymbol := "viewData" }

/-- Two texts under one path, spelled in two ways, and a stray file. -/
theorem check_rearranged_repeated_path :
    Source.Rearranged
      [⟨"b\\x.store.ts", "a ("⟩, ⟨"b/x.store.ts", "a"⟩, ⟨"b/y.ts", ""⟩]
      [⟨"b\\y.ts", ""⟩, ⟨"b/x.store.ts", "a ("⟩, ⟨"b/x.store.ts", "a"⟩] ∧
    ∃ report,
      check .storesOnly [⟨"b\\x.store.ts", "a ("⟩, ⟨"b/x.store.ts", "a"⟩, ⟨"b/y.ts", ""⟩] =
        .ok report ∧
      check .storesOnly [⟨"b\\y.ts", ""⟩, ⟨"b/x.store.ts", "a ("⟩, ⟨"b/x.store.ts", "a"⟩] =
        .ok report := by
  have rearranged : Source.Rearranged
      [⟨"b\\x.store.ts", "a ("⟩, ⟨"b/x.store.ts", "a"⟩, ⟨"b/y.ts", ""⟩]
      [⟨"b\\y.ts", ""⟩, ⟨"b/x.store.ts", "a ("⟩, ⟨"b/x.store.ts", "a"⟩] :=
    ⟨[⟨"b/y.ts", ""⟩, ⟨"b\\x.store.ts", "a ("⟩, ⟨"b/x.store.ts", "a"⟩], by decide,
      .cons ⟨by decide, rfl⟩ (.cons ⟨by decide, rfl⟩ (.cons ⟨rfl, rfl⟩ .nil))⟩
  exact ⟨rearranged, (check_rearranged .storesOnly rearranged).1 (by decide)⟩

end Concord
