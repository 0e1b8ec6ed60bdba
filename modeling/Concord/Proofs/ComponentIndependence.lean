import Concord.Proofs.IndexInvariants
import Mathlib.Data.List.Dedup
import Mathlib.Data.List.Induction

/-!
A report is put together from the reports on its components. All files pass through one fold over
one sorted list; here that fold is taken apart. What it holds after any list of files is, for each
component in the order of first files, the component built from its own files alone, and beside
them the files that no role claims.
-/
namespace Concord

namespace SourceFile

/-- Some role claims the file. -/
def isClaimed (file : SourceFile) : Bool :=
  file.slot.role ≠ .unknown

def belongsTo (id : String) (file : SourceFile) : Bool :=
  file.isClaimed && file.component = id

end SourceFile

namespace Index

/-- The components that files belong to, in the order of their first files. -/
def firstSeen (files : List SourceFile) : List String :=
  ((files.filter SourceFile.isClaimed).map SourceFile.component).reverse.dedup.reverse

/-- A component built from its own files alone. -/
def gather (files : List SourceFile) (id : String) : Component :=
  (files.filter (SourceFile.belongsTo id)).foldl Component.ingest { id := id }

theorem mem_firstSeen {files : List SourceFile} {id : String} :
    id ∈ firstSeen files ↔ ∃ file ∈ files, file.belongsTo id = true := by
  simp [firstSeen, SourceFile.belongsTo, and_assoc]

theorem nodup_firstSeen (files : List SourceFile) : (firstSeen files).Nodup :=
  List.nodup_reverse.mpr (List.nodup_dedup _)

theorem gather_id (files : List SourceFile) (id : String) : (gather files id).id = id := by
  have kept (taken : List SourceFile) (component : Component) :
      (taken.foldl Component.ingest component).id = component.id := by
    induction taken generalizing component with
    | nil => rfl
    | cons file rest ih => rw [List.foldl_cons, ih, Component.ingest_id]
  exact kept _ _

/-! One more file -/

theorem firstSeen_append_stray {file : SourceFile} (stray : file.isClaimed = false)
    (files : List SourceFile) : firstSeen (files ++ [file]) = firstSeen files := by
  simp [firstSeen, List.filter_append, stray]

theorem firstSeen_append_known {files : List SourceFile} {file : SourceFile}
    (known : file.component ∈ firstSeen files) : firstSeen (files ++ [file]) = firstSeen files := by
  cases claimed : file.isClaimed with
  | false => exact firstSeen_append_stray claimed files
  | true =>
    simp only [firstSeen, List.mem_reverse, List.mem_dedup] at known
    simp [firstSeen, List.filter_append, claimed,
      List.dedup_cons_of_mem (List.mem_reverse.mpr known)]

theorem firstSeen_append_new {files : List SourceFile} {file : SourceFile}
    (claimed : file.isClaimed = true) (new : file.component ∉ firstSeen files) :
    firstSeen (files ++ [file]) = firstSeen files ++ [file.component] := by
  simp only [firstSeen, List.mem_reverse, List.mem_dedup] at new
  simp [firstSeen, List.filter_append, claimed,
    List.dedup_cons_of_notMem (fun member => new (List.mem_reverse.mp member))]

theorem gather_append (files : List SourceFile) (file : SourceFile) (id : String) :
    gather (files ++ [file]) id =
      if file.belongsTo id then (gather files id).ingest file else gather files id := by
  rw [gather, List.filter_append, List.foldl_append]
  cases own : file.belongsTo id with
  | false => simp [own, gather]
  | true => simp [own, gather]

/-- What a builder holds after a list of files: each component from its own files, in the order of
first files, and the stray files. -/
structure Builder.Gathered (builder : Builder) (files : List SourceFile) : Prop where
  located : builder.Located
  components : builder.components = (firstSeen files).map (gather files)
  stray : builder.stray = files.filter fun file => !file.isClaimed

namespace Builder.Gathered

variable {builder : Builder} {files : List SourceFile} {file : SourceFile}

theorem ids (gathered : builder.Gathered files) : builder.ids = firstSeen files := by
  rw [Builder.ids, gathered.components, List.map_map]
  exact (List.map_congr_left fun id _ => gather_id files id).trans (List.map_id _)

/-- The component that a file belongs to is there, if need be with nothing gathered for it yet. -/
theorem components_locate (gathered : builder.Gathered files) (claimed : file.isClaimed = true) :
    (builder.locate file.component).2.components =
      (firstSeen (files ++ [file])).map (gather files) := by
  rw [gathered.located.components_locate, gathered.ids]
  split
  next known => rw [firstSeen_append_known known, gathered.components]
  -- a new component has gathered nothing, as no file in front belongs to it
  next new =>
    have none : files.filter (SourceFile.belongsTo file.component) = [] := by
      rw [List.filter_eq_nil_iff]
      intro earlier member belongs
      exact new (mem_firstSeen.mpr ⟨earlier, member, belongs⟩)
    rw [firstSeen_append_new claimed new, List.map_append, List.map_singleton, gathered.components,
      gather, none, List.foldl_nil]

theorem ingest (gathered : builder.Gathered files) (file : SourceFile) :
    (builder.ingest file).Gathered (files ++ [file]) := by
  refine ⟨gathered.located.ingest file, ?_, ?_⟩
  · cases claimed : file.isClaimed with
    | false =>
      have unknown : file.slot.role = .unknown := by simpa [SourceFile.isClaimed] using claimed
      have same : gather (files ++ [file]) = gather files := by
        funext id
        rw [gather_append, if_neg (by simp [SourceFile.belongsTo, claimed])]
      rw [Builder.ingest, if_pos unknown, firstSeen_append_stray claimed, same]
      exact gathered.components
    | true =>
      have known : file.slot.role ≠ .unknown := by simpa [SourceFile.isClaimed] using claimed
      rw [gathered.located.components_ingest known, gathered.components_locate claimed,
        List.map_map]
      refine List.map_congr_left fun id _ => ?_
      -- to take the file in now is to have gathered it with the others
      have own : file.belongsTo id = decide (id = file.component) := by
        rw [SourceFile.belongsTo, claimed, Bool.true_and, decide_eq_decide, eq_comm]
      rw [Function.comp_apply, gather_id, gather_append, own]
      simp only [decide_eq_true_eq]
  · rw [Builder.ingest, List.filter_append, ← gathered.stray]
    by_cases unknown : file.slot.role = .unknown
    · simp [unknown, SourceFile.isClaimed]
    · rw [if_neg unknown]
      have stray : (builder.locate file.component).2.stray = builder.stray := by
        rw [locate]
        split <;> rfl
      simp [unknown, SourceFile.isClaimed, stray]

end Builder.Gathered

/-- The index of a list of files: each component from its own files, and the stray files. -/
theorem ofOrdered_eq_gather (files : List SourceFile) :
    ofOrdered files =
      { components := (firstSeen files).map (gather files)
        stray := files.filter fun file => !file.isClaimed } := by
  have gathered : (files.foldl Builder.ingest {}).Gathered files := by
    -- the fold takes files in from the front, so the last one is the one to look at
    induction files using List.reverseRecOn with
    | nil => exact ⟨Builder.located_empty, rfl, rfl⟩
    | append_singleton files file ih =>
      rw [List.foldl_append]
      exact ih.ingest file
  rw [ofOrdered, Builder.finish, gathered.components, gathered.stray]

/-! Order of the components -/

/-- Of two components of sorted files, the one seen first has a file in front of all files of the
other. -/
theorem firstSeen_pairwise {files : List SourceFile} (sorted : Sorted files) :
    (firstSeen files).Pairwise fun first second =>
      ∃ file ∈ files, file.belongsTo first = true ∧
        ∀ other ∈ files, other.belongsTo second = true → inOrder file other = true := by
  induction files using List.reverseRecOn with
  | nil => exact .nil
  | append_singleton files file ih =>
    obtain ⟨front, -, behind⟩ := List.pairwise_append.mp sorted
    have last (earlier : SourceFile) (member : earlier ∈ files) : inOrder earlier file = true :=
      behind earlier member file (List.mem_singleton_self file)
    -- a component that was seen before keeps its first file when one more file comes
    have old : (firstSeen files).Pairwise fun first second =>
        ∃ f ∈ files ++ [file], f.belongsTo first = true ∧
          ∀ other ∈ files ++ [file], other.belongsTo second = true → inOrder f other = true := by
      refine (ih front).imp ?_
      rintro first second ⟨f, member, belongs, ahead⟩
      refine ⟨f, List.mem_append_left _ member, belongs, ?_⟩
      intro other there belongs'
      rcases List.mem_append.mp there with there | there
      · exact ahead other there belongs'
      · rw [List.mem_singleton.mp there]
        exact last f member
    by_cases known : file.component ∈ firstSeen files
    · rw [firstSeen_append_known known]
      exact old
    cases claimed : file.isClaimed with
    | false =>
      rw [firstSeen_append_stray claimed]
      exact old
    | true =>
      rw [firstSeen_append_new claimed known]
      refine List.pairwise_append.mpr ⟨old, List.pairwise_singleton _ _, ?_⟩
      intro first seen second new
      rw [List.mem_singleton.mp new]
      obtain ⟨f, member, belongs⟩ := mem_firstSeen.mp seen
      refine ⟨f, List.mem_append_left _ member, belongs, ?_⟩
      intro other there belongs'
      rcases List.mem_append.mp there with there | there
      · -- the component is new, so no earlier file belongs to it
        exact absurd (mem_firstSeen.mpr ⟨other, there, belongs'⟩) known
      · rw [List.mem_singleton.mp there]
        exact last f member

/-- Sorting and selecting files commute. -/
theorem filter_mergeSort (conventions : Conventions) {files : List SourceFile}
    (classified : ∀ file ∈ files, file.Classified conventions) (select : SourceFile → Bool) :
    (files.mergeSort inOrder).filter select = (files.filter select).mergeSort inOrder := by
  refine Sorted.eq_of_perm conventions ?_ ((sorted_mergeSort files).filter select)
    (sorted_mergeSort _) ?_
  · intro file member
    exact classified file (List.mem_mergeSort.mp (List.mem_of_mem_filter member))
  · exact ((List.mergeSort_perm files inOrder).filter select).trans
      (List.mergeSort_perm _ inOrder).symm

end Index

namespace Source

variable (conventions : Conventions)

/-- The files of sources in the order in which they are taken in. -/
def files (sources : List Source) : List SourceFile :=
  (sources.map (SourceFile.ofSource conventions)).mergeSort Index.inOrder

/-- The sources that play a role in the component `id`. -/
def ofComponent (sources : List Source) (id : String) : List Source :=
  sources.filter fun source => (SourceFile.ofSource conventions source).belongsTo id

/-- The first path of a component in text order. -/
def leastPath (sources : List Source) (id : String) : String :=
  (((ofComponent conventions sources id).map fun source => normalizePath source.path).min?).getD ""

/-- The components that sources play a role in, each once, in the order of their least paths. -/
def componentIds (sources : List Source) : List String :=
  (((sources.map (SourceFile.ofSource conventions)).filter SourceFile.isClaimed).map
    SourceFile.component).dedup.mergeSort
      fun first second => leastPath conventions sources first ≤ leastPath conventions sources second

/-- The files that no role claims, in order of path and text. -/
def strayFiles (sources : List Source) : List SourceFile :=
  ((sources.map (SourceFile.ofSource conventions)).filter fun file => !file.isClaimed).mergeSort
    Index.inOrder

variable {conventions} {sources : List Source} {id : String}

theorem mem_files {file : SourceFile} :
    file ∈ files conventions sources ↔
      ∃ source ∈ sources, SourceFile.ofSource conventions source = file := by
  rw [files, List.mem_mergeSort, List.mem_map]

theorem mem_ofComponent {source : Source} :
    source ∈ ofComponent conventions sources id ↔
      source ∈ sources ∧ (SourceFile.ofSource conventions source).belongsTo id = true :=
  List.mem_filter

theorem filter_files (select : SourceFile → Bool) :
    (files conventions sources).filter select =
      ((sources.map (SourceFile.ofSource conventions)).filter select).mergeSort Index.inOrder :=
  Index.filter_mergeSort conventions (fun _ => SourceFile.classified_of_mem_map) select

/-- The files of a component are the files of its sources. -/
theorem files_ofComponent :
    files conventions (ofComponent conventions sources id) =
      (files conventions sources).filter (SourceFile.belongsTo id) := by
  rw [filter_files, List.filter_map]
  rfl

theorem mem_firstSeen_files :
    id ∈ Index.firstSeen (files conventions sources) ↔
      ∃ source, source ∈ ofComponent conventions sources id := by
  simp only [Index.mem_firstSeen, mem_files, mem_ofComponent]
  constructor
  · rintro ⟨_, ⟨source, member, rfl⟩, belongs⟩
    exact ⟨source, member, belongs⟩
  · rintro ⟨source, member, belongs⟩
    exact ⟨_, ⟨source, member, rfl⟩, belongs⟩

theorem mem_componentIds :
    id ∈ componentIds conventions sources ↔
      ∃ source, source ∈ ofComponent conventions sources id := by
  simp only [componentIds, List.mem_mergeSort, List.mem_dedup, List.mem_map, List.mem_filter,
    mem_ofComponent, SourceFile.belongsTo, Bool.and_eq_true, decide_eq_true_eq]
  constructor
  · rintro ⟨_, ⟨⟨source, member, rfl⟩, claimed⟩, same⟩
    exact ⟨source, member, claimed, same⟩
  · rintro ⟨source, member, claimed, same⟩
    exact ⟨_, ⟨⟨source, member, rfl⟩, claimed⟩, same⟩

theorem nodup_componentIds : (componentIds conventions sources).Nodup :=
  (List.mergeSort_perm _ _).nodup_iff.mpr (List.nodup_dedup _)

/-! Least paths -/

theorem isLeast_leastPath {source : Source}
    (member : source ∈ ofComponent conventions sources id) :
    leastPath conventions sources id ∈
        (ofComponent conventions sources id).map (fun source => normalizePath source.path) ∧
      ∀ path ∈ (ofComponent conventions sources id).map fun source => normalizePath source.path,
        leastPath conventions sources id ≤ path := by
  unfold leastPath
  cases least : ((ofComponent conventions sources id).map
      fun source => normalizePath source.path).min? with
  | none =>
    rw [List.min?_eq_none_iff, List.map_eq_nil_iff] at least
    simp [least] at member
  | some path => exact List.min?_eq_some_iff.mp least

theorem leastPath_le {source : Source} (member : source ∈ ofComponent conventions sources id) :
    leastPath conventions sources id ≤ normalizePath source.path :=
  (isLeast_leastPath member).2 _ (List.mem_map.mpr ⟨source, member, rfl⟩)

/-- The least path of a component is the path of one of its sources. -/
theorem exists_leastPath {source : Source} (member : source ∈ ofComponent conventions sources id) :
    ∃ first ∈ ofComponent conventions sources id,
      normalizePath first.path = leastPath conventions sources id :=
  List.mem_map.mp (isLeast_leastPath member).1

/-- A component is told by its least path, since a path belongs to one component only. -/
theorem eq_of_leastPath_eq {other : String} {source source' : Source}
    (member : source ∈ ofComponent conventions sources id)
    (member' : source' ∈ ofComponent conventions sources other)
    (same : leastPath conventions sources id = leastPath conventions sources other) :
    id = other := by
  obtain ⟨first, here, path⟩ := exists_leastPath member
  obtain ⟨first', here', path'⟩ := exists_leastPath member'
  have belongs := (mem_ofComponent.mp here).2
  have belongs' := (mem_ofComponent.mp here').2
  simp only [SourceFile.belongsTo, Bool.and_eq_true, decide_eq_true_eq] at belongs belongs'
  rw [← belongs.2, ← belongs'.2]
  simp only [SourceFile.ofSource, path, path', same]

theorem firstSeen_files_pairwise :
    (Index.firstSeen (files conventions sources)).Pairwise fun first second =>
      leastPath conventions sources first ≤ leastPath conventions sources second := by
  -- a component is seen with its first file, and among sorted files that has the least path
  refine (Index.firstSeen_pairwise (Index.sorted_mergeSort _)).imp_of_mem ?_
  rintro first second - there ⟨file, here, belongs, ahead⟩
  obtain ⟨source, member, rfl⟩ := mem_files.mp here
  obtain ⟨source', member'⟩ := mem_firstSeen_files.mp there
  obtain ⟨least, owned, path⟩ := exists_leastPath member'
  obtain ⟨given, belongs'⟩ := mem_ofComponent.mp owned
  have front := ahead _ (mem_files.mpr ⟨least, given, rfl⟩) belongs'
  refine le_trans (leastPath_le (mem_ofComponent.mpr ⟨member, belongs⟩)) ?_
  rw [← path]
  rcases Index.inOrder_iff.mp front with before | ⟨same, -⟩
  · exact le_of_lt before
  · exact le_of_eq same

theorem componentIds_pairwise :
    (componentIds conventions sources).Pairwise fun first second =>
      leastPath conventions sources first ≤ leastPath conventions sources second := by
  refine (List.pairwise_mergeSort ?_ ?_ _).imp fun ordered => of_decide_eq_true ordered
  · intro first second third before after
    exact decide_eq_true (le_trans (of_decide_eq_true before) (of_decide_eq_true after))
  · intro first second
    simpa only [Bool.or_eq_true, decide_eq_true_eq] using le_total _ _

/-- The order of first files is the order of least paths. -/
theorem firstSeen_files :
    Index.firstSeen (files conventions sources) = componentIds conventions sources := by
  have same (id : String) : id ∈ Index.firstSeen (files conventions sources) ↔
      id ∈ componentIds conventions sources :=
    mem_firstSeen_files.trans mem_componentIds.symm
  -- both lists hold the same ids, each once, in the order of least paths
  refine List.Perm.eq_of_pairwise ?_ firstSeen_files_pairwise componentIds_pairwise
    ((List.perm_ext_iff_of_nodup (Index.nodup_firstSeen _) nodup_componentIds).mpr same)
  intro first second here there before after
  obtain ⟨source, member⟩ := mem_firstSeen_files.mp here
  obtain ⟨source', member'⟩ := mem_componentIds.mp there
  exact eq_of_leastPath_eq member member' (le_antisymm before after)

end Source

/-! Reports -/

variable {conventions : Conventions} {sources : List Source}

/-- The index of sources, component by component. -/
theorem ofFiles_eq_gather (conventions : Conventions) (sources : List Source) :
    Index.ofFiles (sources.map (SourceFile.ofSource conventions)) =
      { components := (Source.componentIds conventions sources).map
          (Index.gather (Source.files conventions sources))
        stray := Source.strayFiles conventions sources } := by
  rw [Index.ofFiles, ← Source.files, Index.ofOrdered_eq_gather, Source.firstSeen_files,
    Source.filter_files, ← Source.strayFiles]

section

variable [Access.ScriptParser]

/-- A report, component by component. -/
theorem check_eq_gather (named : ∀ source ∈ sources, source.isBlank = false) :
    check conventions sources = .ok (Report.ofDiagnostics
      ((Source.componentIds conventions sources).flatMap (fun id =>
          (Index.gather (Source.files conventions sources) id).diagnostics conventions)
        ++ if conventions.flagStrayFiles then
            (Source.strayFiles conventions sources).map fun file => file.strayDiagnostic conventions
          else [])) := by
  rw [check_of_no_blank conventions named, ofFiles_eq_gather, Index.diagnostics, List.flatMap_map]

/-- The report on the sources of one component. -/
theorem check_ofComponent (named : ∀ source ∈ sources, source.isBlank = false) {id : String}
    (known : id ∈ Source.componentIds conventions sources) :
    check conventions (Source.ofComponent conventions sources id) = .ok (Report.ofDiagnostics
      ((Index.gather (Source.files conventions sources) id).diagnostics conventions)) := by
  -- the sources of a component make up one component and leave no stray file
  have alone : Source.componentIds conventions (Source.ofComponent conventions sources id) =
      [id] := by
    refine List.perm_singleton.mp ((List.perm_ext_iff_of_nodup Source.nodup_componentIds
      (List.nodup_singleton id)).mpr ?_)
    intro other
    simp only [Source.mem_componentIds, Source.mem_ofComponent, List.mem_singleton]
    constructor
    · rintro ⟨source, ⟨-, belongs⟩, belongs'⟩
      simp only [SourceFile.belongsTo, Bool.and_eq_true, decide_eq_true_eq] at belongs belongs'
      rw [← belongs.2, ← belongs'.2]
    · rintro rfl
      obtain ⟨source, member⟩ := Source.mem_componentIds.mp known
      obtain ⟨given, belongs⟩ := Source.mem_ofComponent.mp member
      exact ⟨source, ⟨given, belongs⟩, belongs⟩
  have stray : Source.strayFiles conventions (Source.ofComponent conventions sources id) = [] := by
    rw [Source.strayFiles, ← Source.filter_files, Source.files_ofComponent, List.filter_filter,
      List.filter_eq_nil_iff]
    intro file _ both
    simp only [SourceFile.belongsTo, Bool.and_eq_true, Bool.not_eq_true'] at both
    obtain ⟨stray, claimed, -⟩ := both
    simp [stray] at claimed
  have gathered : Index.gather
      (Source.files conventions (Source.ofComponent conventions sources id)) id =
      Index.gather (Source.files conventions sources) id := by
    simp only [Index.gather, Source.files_ofComponent, List.filter_filter, Bool.and_self]
  rw [check_eq_gather fun source member => named source (Source.mem_ofComponent.mp member).1,
    alone, stray, List.flatMap_singleton, gathered]
  simp

/-- The report on sources is the reports on their components, in the order of least paths, and then
the stray files. What one component reports is decided by its own sources. -/
theorem check_by_component (conventions : Conventions) (sources : List Source)
    (named : ∀ source ∈ sources, source.isBlank = false) :
    ∃ report parts,
      check conventions sources = .ok report ∧
      List.Forall₂ (fun id part =>
          check conventions (Source.ofComponent conventions sources id) = .ok part)
        (Source.componentIds conventions sources) parts ∧
      report.diagnostics = parts.flatMap Report.diagnostics ++
        if conventions.flagStrayFiles then
          (Source.strayFiles conventions sources).map fun file => file.strayDiagnostic conventions
        else [] := by
  refine ⟨_, (Source.componentIds conventions sources).map (fun id => Report.ofDiagnostics
    ((Index.gather (Source.files conventions sources) id).diagnostics conventions)),
    check_eq_gather named, ?_, ?_⟩
  · rw [List.forall₂_map_right_iff, List.forall₂_same]
    exact fun id known => check_ofComponent named known
  · rw [List.flatMap_map]
    rfl

end

/-- Two stores and a stray file that shares its name with one of them. -/
theorem check_by_component_stray_namesake :
    (∀ source ∈ ([⟨"b/x.store.ts", "a ("⟩, ⟨"b/x.ts", ""⟩, ⟨"a/y.store.ts", ""⟩] : List Source),
      source.isBlank = false) ∧
    ∃ report parts,
      check .storesOnly [⟨"b/x.store.ts", "a ("⟩, ⟨"b/x.ts", ""⟩, ⟨"a/y.store.ts", ""⟩] =
        .ok report ∧
      List.Forall₂ (fun id part =>
          check .storesOnly (Source.ofComponent .storesOnly
            [⟨"b/x.store.ts", "a ("⟩, ⟨"b/x.ts", ""⟩, ⟨"a/y.store.ts", ""⟩] id) = .ok part)
        (Source.componentIds .storesOnly
          [⟨"b/x.store.ts", "a ("⟩, ⟨"b/x.ts", ""⟩, ⟨"a/y.store.ts", ""⟩]) parts ∧
      report.diagnostics = parts.flatMap Report.diagnostics ++
        (Source.strayFiles .storesOnly
          [⟨"b/x.store.ts", "a ("⟩, ⟨"b/x.ts", ""⟩, ⟨"a/y.store.ts", ""⟩]).map
            fun file => file.strayDiagnostic .storesOnly :=
  ⟨by decide, check_by_component .storesOnly _ (by decide)⟩

end Concord
