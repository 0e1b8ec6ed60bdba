import Concord.Component.Tree
import Concord.Proofs.FileNames
import Concord.Proofs.InputOrder
import Mathlib.Data.List.Nodup
import Mathlib.Data.List.Perm.Basic

/-!
Sources collected from a directory tree. A file below the root is collected if its name has a known
extension behind its last dot and its bytes are text, and every such file once. A path that is
collected holds a dot, so it is never blank and the sources can be checked. The order in which the
tree is walked shows only among files whose paths become equal, and checking does not see it.
-/
namespace Concord.Tree

open Concord.Text

/-- A walk lists every path of a tree once. No file or directory is called `..`. -/
structure IsWalk (nodes : List Node) : Prop where
  once : (nodes.map Node.path).Nodup
  proper : ∀ node ∈ nodes, ['.', '.'] ∉ node.path

/-- The tree has something at the root, and that is no file. -/
structure IsDirectory (nodes : List Node) (root : List (List Char)) : Prop where
  exists_path : hasPath nodes root = true
  noFile : ∀ node ∈ nodes, node.path = root → node.content = .directory

/-- The name ends in a dot and one of the extensions, with something in front. -/
def HasExtension (extensions : List String) (name : List Char) : Prop :=
  ∃ stem, ∃ extension ∈ extensions, stem ≠ [] ∧ name = stem ++ '.' :: extension.toList

/-- A file with one of the extensions and the source it gives: its text, under its path from the
root with `/` for every `\`. -/
structure Gives (extensions : List String) (root : List (List Char)) (node : Node)
    (source : Source) : Prop where
  below : ∃ names, names ≠ [] ∧ node.path = root ++ names ∧
    source.path = normalizePath (String.ofList (joinNames names))
  extension : ∃ name ∈ node.path.getLast?, HasExtension extensions name
  content : node.content = .file source.text.toUTF8.data.toList

theorem HasExtension.of_undotted {extensions : List String} {name : List Char}
    (has : HasExtension (undotted extensions) name) : HasExtension extensions name := by
  obtain ⟨stem, extension, listed, nonempty, split⟩ := has
  exact ⟨stem, extension, (mem_undotted.mp listed).1, nonempty, split⟩

/-! Extensions -/

/-- The extension of a name stands behind its last dot. -/
theorem extension?_eq_some_iff {name extension : List Char} (proper : name ≠ ['.', '.']) :
    extension? name = some extension ↔
      ∃ stem, stem ≠ [] ∧ '.' ∉ extension ∧ name = stem ++ '.' :: extension := by
  obtain ⟨front, last, cut⟩ : ∃ front last, splitAt '.' name = front ++ [last] :=
    ⟨_, _, (List.dropLast_concat_getLast (splitAt_ne_nil '.' name)).symm⟩
  have plain : '.' ∉ last := not_mem_of_mem_splitAt (cut ▸ List.mem_append_right front (by simp))
  have joined : joinDots (front ++ [last]) = name := by rw [← cut, joinDots_splitAt]
  rcases List.eq_nil_or_concat front with rfl | ⟨earlier, before, rfl⟩
  · -- a name of one part has no dot
    have whole : name = last := joined.symm
    constructor
    · intro found
      simp [extension?, cut] at found
    · rintro ⟨stem, -, -, split⟩
      exact absurd (whole ▸ split ▸ List.mem_append_right stem List.mem_cons_self) plain
  · rw [List.concat_eq_append] at cut joined
    -- of several parts the last one is behind the last dot, and the stem is what stands in front
    have split : name = joinDots (earlier ++ [before]) ++ '.' :: last := by
      rw [← joined, joinDots_append (by simp), dotted_cons, dotted_nil, List.append_nil]
    have bare : joinDots (earlier ++ [before]) = [] ↔ before = [] ∧ earlier = [] := by
      cases earlier with
      | nil => simp [joinDots]
      | cons part rest => simp [joinDots_cons, dotted]
    have read : extension? name =
        if before = [] ∧ earlier = [] then none else some last := by
      simp [extension?, cut, proper, List.isEmpty_iff]
    rw [read]
    constructor
    · intro found
      split at found
      · cases found
      next stem =>
        obtain rfl := Option.some.inj found
        exact ⟨_, fun none => stem (bare.mp none), plain, split⟩
    · rintro ⟨stem, nonempty, plain', split'⟩
      obtain ⟨rfl, rfl⟩ := eq_of_append_mark (split.symm.trans split') plain plain'
      rw [if_neg fun none => nonempty (bare.mpr none)]

theorem isSource_iff {conventions : Conventions} {path : List (List Char)}
    (proper : ['.', '.'] ∉ path) :
    isSource conventions path = true ↔
      ∃ name ∈ path.getLast?, HasExtension (undotted conventions.extensions) name := by
  simp only [isSource, Option.any_eq_true, Option.bind_eq_some_iff, List.any_eq_true,
    decide_eq_true_eq, Option.mem_def]
  constructor
  -- the search finds an extension that is listed; that it has no dot is what is left of the
  -- condition
  · rintro ⟨_, ⟨name, last, found⟩, extension, known, rfl⟩
    have named : name ≠ ['.', '.'] := by
      rintro rfl
      exact proper (List.mem_of_getLast? last)
    obtain ⟨stem, nonempty, plain, split⟩ := (extension?_eq_some_iff named).mp found
    exact ⟨name, last, stem, extension, mem_undotted.mpr ⟨known, plain⟩, nonempty, split⟩
  · rintro ⟨name, last, stem, extension, known, nonempty, split⟩
    obtain ⟨known, plain⟩ := mem_undotted.mp known
    have named : name ≠ ['.', '.'] := by
      rintro rfl
      exact proper (List.mem_of_getLast? last)
    exact ⟨_, ⟨name, last, (extension?_eq_some_iff named).mpr ⟨stem, nonempty, plain, split⟩⟩,
      extension, known, rfl⟩

/-! Files -/

/-- Bytes are text if they are the UTF-8 form of it. -/
theorem fromUTF8?_eq_some_iff {bytes : List UInt8} {text : String} :
    String.fromUTF8? ⟨bytes.toArray⟩ = some text ↔ bytes = text.toUTF8.data.toList := by
  constructor
  · intro decoded
    rw [String.fromUTF8?] at decoded
    split at decoded
    · obtain rfl := Option.some.inj decoded
      rfl
    · cases decoded
  · rintro rfl
    exact dif_pos text.isValidUTF8

section

variable {conventions : Conventions} {root : List (List Char)} {node : Node} {source : Source}

/-- Just the files below the root with a known extension and a text are collected. -/
theorem source?_eq_some_iff (proper : ['.', '.'] ∉ node.path)
    (directory : node.path = root → node.content = .directory) :
    source? conventions root node = some source ↔
      Gives (undotted conventions.extensions) root node source := by
  obtain ⟨path, content⟩ := node
  obtain ⟨location, text⟩ := source
  constructor
  · intro found
    rw [source?] at found
    split at found
    · cases found
    next bytes file =>
      obtain rfl : content = .file bytes := file
      split at found
      next chosen =>
        rw [Bool.and_eq_true, List.isPrefixOf_iff_prefix] at chosen
        obtain ⟨⟨names, rfl⟩, known⟩ := chosen
        rw [Option.map_eq_some_iff] at found
        obtain ⟨_, decoded, ⟨rfl, rfl⟩⟩ := found
        -- the root itself is a directory, so a file has a name below it
        have inside : names ≠ [] := by
          rintro rfl
          cases directory (by simp)
        exact ⟨⟨names, inside, rfl, by simp⟩, (isSource_iff proper).mp known,
          congrArg Content.file (fromUTF8?_eq_some_iff.mp decoded)⟩
      · cases found
  · rintro ⟨⟨names, -, below, location⟩, known, file⟩
    simp only at below location file
    subst below location file
    -- a path below the root with a known extension passes both tests of the walk
    have chosen :
        (root.isPrefixOf (root ++ names) && isSource conventions (root ++ names)) = true := by
      rw [Bool.and_eq_true, List.isPrefixOf_iff_prefix]
      exact ⟨List.prefix_append root names, (isSource_iff proper).mpr known⟩
    simp only [source?]
    rw [if_pos chosen, fromUTF8?_eq_some_iff.mpr rfl]
    simp

theorem mem_joinNames {names : List (List Char)} {name : List Char} {c : Char}
    (listed : name ∈ names) (inside : c ∈ name) : c ∈ joinNames names := by
  induction names with
  | nil => cases listed
  | cons first rest ih =>
    rcases List.mem_cons.mp listed with rfl | later
    · cases rest with
      | nil => exact inside
      | cons => exact List.mem_append_left _ inside
    · cases rest with
      | nil => cases later
      | cons => exact List.mem_append_right _ (List.mem_cons_of_mem '/' (ih later))

theorem Gives.of_undotted {extensions : List String}
    (gives : Gives (undotted extensions) root node source) : Gives extensions root node source := by
  obtain ⟨name, last, has⟩ := gives.extension
  exact ⟨gives.below, ⟨name, last, has.of_undotted⟩, gives.content⟩

/-- The path of a source holds the dot of its extension. -/
theorem Gives.isBlank_eq_false {extensions : List String}
    (gives : Gives extensions root node source) : source.isBlank = false := by
  obtain ⟨⟨names, inside, below, location⟩, ⟨name, last, stem, extension, -, -, split⟩, -⟩ :=
    gives
  have listed : name ∈ names := by
    rw [below, Option.mem_def, List.getLast?_append_of_ne_nil _ inside] at last
    exact List.mem_of_getLast? last
  have dot : '.' ∈ joinNames names := mem_joinNames listed (by simp [split])
  rw [Bool.eq_false_iff, Ne, Source.isBlank_iff_normalized, location]
  intro blank
  have kept : '.' ∈ (normalizePath (normalizePath (String.ofList (joinNames names)))).toList := by
    simp only [normalizePath, String.toList_ofList, List.map_map]
    exact List.mem_map.mpr ⟨'.', dot, rfl⟩
  exact absurd (blank '.' kept) (by decide)

end

/-! Walks -/

/-- A walk with each path once holds nothing that is replaced later. -/
theorem current_of_nodup {nodes : List Node} (once : (nodes.map Node.path).Nodup) :
    current nodes = nodes := by
  induction nodes with
  | nil => rfl
  | cons node rest ih =>
    rw [List.map_cons, List.nodup_cons] at once
    have alone : ¬ rest.any (·.path = node.path) = true := by
      rw [List.any_eq_true]
      rintro ⟨other, member, same⟩
      exact once.1 (List.mem_map.mpr ⟨other, member, of_decide_eq_true same⟩)
    rw [current, if_neg alone, ih once.2]

/-- What a partial function gives, in any order, is given by the elements it is defined on, in some
order. -/
theorem exists_forall₂_of_perm_filterMap {α β : Type} {f : α → Option β} {r : α → β → Prop}
    {xs : List α} {ys : List β} (holds : ∀ x ∈ xs, ∀ y, f x = some y → r x y)
    (perm : ys.Perm (xs.filterMap f)) :
    ∃ zs, zs.Perm (xs.filter fun x => (f x).isSome) ∧ List.Forall₂ r zs ys := by
  have given : List.Forall₂ r (xs.filter fun x => (f x).isSome) (xs.filterMap f) := by
    clear perm
    induction xs with
    | nil => exact .nil
    | cons x xs ih =>
      obtain ⟨first, others⟩ := List.forall_mem_cons.mp holds
      cases defined : f x with
      | none => simpa [defined] using ih others
      | some y => simpa [defined] using ⟨first y defined, ih others⟩
  obtain ⟨zs, defined, listed⟩ := List.perm_comp_forall₂ perm given.flip
  exact ⟨zs, listed, defined.flip⟩

section

variable {conventions : Conventions} {nodes nodes' : List Node} {root : List (List Char)}

theorem IsWalk.perm (walk : IsWalk nodes) (perm : nodes.Perm nodes') : IsWalk nodes' :=
  ⟨(perm.map Node.path).nodup_iff.mp walk.once, fun node member =>
    walk.proper node (perm.mem_iff.mpr member)⟩

theorem IsDirectory.perm (directory : IsDirectory nodes root) (perm : nodes.Perm nodes') :
    IsDirectory nodes' root := by
  refine ⟨?_, fun node member => directory.noFile node (perm.mem_iff.mpr member)⟩
  have found := directory.exists_path
  simp only [hasPath, Bool.or_eq_true, List.any_eq_true, perm.mem_iff] at found ⊢
  exact found

/-- From a walk, sources are collected: those that its files give, sorted. -/
theorem exists_sources (walk : IsWalk nodes) (directory : IsDirectory nodes root) :
    ∃ sources, sources? conventions nodes root = some sources ∧
      sources.Perm (nodes.filterMap (source? conventions root)) ∧
      sources.Pairwise fun a b => a.path ≤ b.path := by
  refine ⟨_, by rw [sources?, if_pos directory.exists_path, current_of_nodup walk.once],
    List.mergeSort_perm _ _, ?_⟩
  have sorted := @List.pairwise_mergeSort _ (fun a b : Source => decide (a.path ≤ b.path))
    (fun a b c first second => by
      simp only [decide_eq_true_eq] at first second ⊢
      exact le_trans first second)
    (fun a b => by simpa using le_total a.path b.path) (nodes.filterMap (source? conventions root))
  exact sorted.imp of_decide_eq_true

theorem gives_of_source? (walk : IsWalk nodes) (directory : IsDirectory nodes root) {node : Node}
    (member : node ∈ nodes) (source : Source) :
    source? conventions root node = some source ↔
      Gives (undotted conventions.extensions) root node source :=
  source?_eq_some_iff (walk.proper node member) (directory.noFile node member)

/-- Collected sources have no blank path. -/
theorem isBlank_eq_false_of_mem (walk : IsWalk nodes) (directory : IsDirectory nodes root)
    {source : Source} (member : source ∈ nodes.filterMap (source? conventions root)) :
    source.isBlank = false := by
  obtain ⟨node, listed, found⟩ := List.mem_filterMap.mp member
  exact ((gives_of_source? walk directory listed source).mp found).isBlank_eq_false

end

/-- Sources whose paths are not blank give the same report in any order. -/
theorem check_of_perm [Access.ScriptParser] (conventions : Conventions)
    {sources sources' : List Source}
    (named : ∀ source ∈ sources, source.isBlank = false) (perm : sources.Perm sources') :
    check conventions sources' = .ok (Report.ofDiagnostics
      ((Index.ofFiles (sources.map (SourceFile.ofSource conventions))).diagnostics
        conventions)) := by
  rw [check_of_no_blank conventions fun source member => named source (perm.mem_iff.mpr member),
    Index.ofFiles_perm conventions (fun _ => SourceFile.classified_of_mem_map)
      (perm.map (SourceFile.ofSource conventions))]

/-- From a walk of a directory just the files below it are collected that have a known extension
behind the last dot and text in them, each once and sorted by path. These are all files with a known
extension unless one of them has none but an extension that holds a dot. The sources can be checked,
and the report is the same for every order in which the tree is walked. -/
theorem sources?_walk [Access.ScriptParser] (conventions : Conventions) {nodes : List Node}
    {root : List (List Char)} (walk : IsWalk nodes) (directory : IsDirectory nodes root) :
    ∃ sources report, sources? conventions nodes root = some sources ∧
      (∃ files, files.Nodup ∧
        List.Forall₂ (Gives conventions.extensions root) files sources ∧
        (∀ node, node ∈ files ↔ node ∈ nodes ∧
          ∃ source, Gives (undotted conventions.extensions) root node source) ∧
        ((∀ node ∈ nodes, ∀ name ∈ node.path.getLast?, HasExtension conventions.extensions name →
            HasExtension (undotted conventions.extensions) name) →
          ∀ node, node ∈ files ↔ node ∈ nodes ∧
            ∃ source, Gives conventions.extensions root node source)) ∧
      sources.Pairwise (fun a b => a.path ≤ b.path) ∧
      check conventions sources = .ok report ∧
      ∀ nodes', nodes.Perm nodes' → ∃ sources', sources? conventions nodes' root = some sources' ∧
        check conventions sources' = .ok report := by
  obtain ⟨sources, collected, perm, sorted⟩ := @exists_sources conventions _ _ walk directory
  have named : ∀ source ∈ sources, source.isBlank = false := fun source member =>
    isBlank_eq_false_of_mem walk directory (perm.mem_iff.mp member)
  refine ⟨sources, _, collected, ?_, sorted, check_of_no_blank conventions named, ?_⟩
  · have gives : ∀ node ∈ nodes, ∀ source, source? conventions root node = some source →
        Gives conventions.extensions root node source := fun node member source found =>
      ((gives_of_source? walk directory member source).mp found).of_undotted
    obtain ⟨files, listed, given⟩ := exists_forall₂_of_perm_filterMap gives perm
    have mem_files (node : Node) : node ∈ files ↔ node ∈ nodes ∧
        ∃ source, Gives (undotted conventions.extensions) root node source := by
      rw [listed.mem_iff, List.mem_filter, Option.isSome_iff_exists]
      refine and_congr_right fun member => exists_congr fun source => ?_
      exact gives_of_source? walk directory member source
    refine ⟨files, ?_, given, mem_files, fun plain node => ?_⟩
    · exact listed.nodup_iff.mpr ((List.Nodup.of_map _ walk.once).filter _)
    · rw [mem_files]
      refine and_congr_right fun member => exists_congr fun source => ⟨Gives.of_undotted, ?_⟩
      intro file
      obtain ⟨name, last, has⟩ := file.extension
      exact ⟨file.below, ⟨name, last, plain node member name last has⟩, file.content⟩
  · intro nodes' walked
    obtain ⟨sources', collected', perm', -⟩ :=
      @exists_sources conventions _ _ (walk.perm walked) (directory.perm walked)
    -- files whose paths became equal may have changed places, and nothing else
    have same : sources.Perm sources' := perm.trans ((walked.filterMap _).trans perm'.symm)
    exact ⟨sources', collected', check_of_perm conventions named same⟩

/-- Two files whose paths differ only in a slash, one that is no text, one with a configured
extension and nothing in front of it, and a directory that is named like a source. -/
def twoSlashes : List Node :=
  [⟨["src".toList, "a".toList, "b.store.ts".toList],
      .file "export const x = 1;".toUTF8.data.toList⟩,
    ⟨["src".toList, "a\\b.store.ts".toList], .file []⟩,
    ⟨["src".toList, "c.store.ts".toList], .file [0xff]⟩, ⟨["src".toList, ".ts".toList], .file []⟩,
    ⟨["src".toList, "d.ts".toList], .directory⟩, ⟨["e.store.ts".toList], .file []⟩]

theorem sources?_walk_twoSlashes :
    IsWalk twoSlashes ∧ IsDirectory twoSlashes ["src".toList] ∧
    sources? .storesOnly twoSlashes ["src".toList] =
      some [⟨"a/b.store.ts", "export const x = 1;"⟩, ⟨"a/b.store.ts", ""⟩] ∧
    ∃ report, ∀ nodes', twoSlashes.Perm nodes' →
      ∃ sources', sources? .storesOnly nodes' ["src".toList] = some sources' ∧
        check .storesOnly sources' = .ok report := by
  have walk : IsWalk twoSlashes := ⟨by decide, by decide⟩
  have directory : IsDirectory twoSlashes ["src".toList] := ⟨by decide, by decide⟩
  have found : (current twoSlashes).filterMap (source? .storesOnly ["src".toList]) =
      [⟨"a/b.store.ts", "export const x = 1;"⟩, ⟨"a/b.store.ts", ""⟩] := by decide +kernel
  obtain ⟨_, report, -, -, -, -, same⟩ := sources?_walk .storesOnly walk directory
  refine ⟨walk, directory, ?_, report, same⟩
  rw [sources?, if_pos directory.exists_path, found, List.mergeSort_of_pairwise]
  decide

/-- A tree of one empty file. -/
def declarationFile : Node :=
  ⟨["a.store.d.ts".toList], .file []⟩

/-- A file whose extension is configured and holds a dot is not collected. -/
theorem sources?_skips_dotted :
    Settings.declarations.compile = .ok .declarations ∧
      IsWalk [declarationFile] ∧ IsDirectory [declarationFile] [] ∧
      Gives Conventions.declarations.extensions [] declarationFile ⟨"a.store.d.ts", ""⟩ ∧
      sources? .declarations [declarationFile] [] = some [] := by
  refine ⟨Settings.compile_declarations, ⟨by decide, by decide⟩, ⟨by decide, by decide⟩, ?_, ?_⟩
  · exact ⟨⟨["a.store.d.ts".toList], by decide, rfl, by decide⟩,
      ⟨_, rfl, "a.store".toList, "d.ts", by decide, by decide, by decide⟩, by decide⟩
  · decide +kernel

end Concord.Tree
