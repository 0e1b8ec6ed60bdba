import Concord.Proofs.Accounting
import Concord.Proofs.HandlerRules
import Concord.Proofs.Locations

/-!
A file that cannot be read. It keeps its slot, and its text goes no further: what a component
reports behind it is the same when the texts of such files are erased. So its fault is told once,
where the file is taken in, and another text that cannot be read changes only what is told there.
-/
namespace Concord

open Concord.Access Concord.Export

/-! Texts that no rule looks into -/

/-- The file without its text if that cannot be read. -/
def SourceFile.erased (file : SourceFile) : SourceFile :=
  if file.parseFailed then { file with text := "" } else file

namespace SourceFile

variable (file : SourceFile)

@[simp] theorem erased_path : file.erased.path = file.path := by
  rw [erased]
  split <;> rfl

@[simp] theorem erased_parseFailed : file.erased.parseFailed = file.parseFailed := by
  rw [erased]
  split <;> rfl

@[simp] theorem erased_erased : file.erased.erased = file.erased := by
  rw [erased, erased_parseFailed]
  unfold erased
  split <;> rfl

theorem erased_of_read {file : SourceFile} (read : file.parseFailed = false) :
    file.erased = file := by
  simp [erased, read]

end SourceFile

namespace Component

/-- The component without the texts of files that cannot be read, and without its conflicts. -/
def erased (component : Component) : Component :=
  { component with
    filesByRole := component.filesByRole.map SourceFile.erased
    conflicts := [] }

section

variable (component : Component) (conventions : Conventions) (role : Role)

theorem erased_get? (slot : Slot) : component.erased.filesByRole.get? slot =
    (component.filesByRole.get? slot).map SourceFile.erased :=
  SlotMap.get?_map _ _ _

@[simp] theorem erased_erased : component.erased.erased = component.erased := by
  simp only [erased, SlotMap.map_map, SourceFile.erased_erased]

theorem file?_erased :
    component.erased.file? role = (component.file? role).map SourceFile.erased :=
  component.erased_get? _

theorem hasRole_erased : component.erased.hasRole role = component.hasRole role := by
  rw [hasRole, hasRole, erased, SlotMap.keys_map]

theorem readable?_erased : component.erased.readable? role = component.readable? role := by
  rw [readable?, readable?, file?_erased]
  cases component.file? role with
  | none => rfl
  | some file =>
    cases read : file.parseFailed with
    | true => simp [Option.filter, read]
    | false => simp [SourceFile.erased_of_read read]

theorem storeCalls_erased [ScriptParser] :
    component.erased.storeCalls conventions = component.storeCalls conventions := by
  simp only [storeCalls, readable?_erased]
  rfl

theorem viewFields_erased [ScriptParser] :
    component.erased.viewFields conventions = component.viewFields conventions := by
  simp only [viewFields, readable?_erased]
  rfl

theorem orphanHandlers_erased : component.erased.orphanHandlers = component.orphanHandlers := by
  rw [orphanHandlers, orphanHandlers, hasRole_erased, file?_erased]
  cases component.file? .handlers with
  | none => rfl
  | some handlers => simp [SourceFile.spanAt, erased]

/-- The rules do not look into a file that cannot be read. -/
theorem validate_erased [ScriptParser] :
    component.erased.validate conventions = component.validate conventions := by
  rw [validate, validate, storeCalls_erased, viewFields_erased, orphanHandlers_erased]
  rfl

end

/-! Files that come later -/

/-- Whether a file gets its slot, and what is told of it, does not depend on erased texts. -/
theorem ingest_erased (component : Component) (file : SourceFile) :
    (component.ingest file).erased = (component.erased.ingest file).erased ∧
      (component.ingest file).conflicts =
        component.conflicts ++ (component.erased.ingest file).conflicts := by
  rw [ingest, ingest, erased_get?]
  cases component.filesByRole.get? file.slot with
  | some kept => simp [erased, SlotMap.map_map]
  | none =>
    cases extract file.text.toList with
    | error imbalance => simp [erased, SlotMap.map_insert, SlotMap.map_map]
    | ok exports => simp [erased, SlotMap.map_insert, SlotMap.map_map]

theorem foldl_ingest_erased (files : List SourceFile) (component : Component) :
    (files.foldl ingest component).erased = (files.foldl ingest component.erased).erased ∧
      (files.foldl ingest component).conflicts =
        component.conflicts ++ (files.foldl ingest component.erased).conflicts := by
  induction files generalizing component with
  | nil => exact ⟨component.erased_erased.symm, (List.append_nil _).symm⟩
  | cons file rest ih =>
    obtain ⟨same, told⟩ := ingest_erased component file
    obtain ⟨erased, conflicts⟩ := ih (component.ingest file)
    obtain ⟨erased', conflicts'⟩ := ih (component.erased.ingest file)
    rw [List.foldl_cons, List.foldl_cons]
    constructor
    · rw [erased, erased', same]
    · rw [conflicts, conflicts', same, told, List.append_assoc]

theorem validate_foldl_ingest [ScriptParser] (files : List SourceFile) (component : Component)
    (conventions : Conventions) :
    (files.foldl ingest component).validate conventions =
      (files.foldl ingest component.erased).validate conventions := by
  rw [← validate_erased, (foldl_ingest_erased files component).1, validate_erased]

/-- The component with this file in its slot, which cannot be read; texts and conflicts are
erased. -/
def withBroken (component : Component) (file : SourceFile) : Component :=
  { component with
    symbolsByRole := component.symbolsByRole.insert file.slot []
    filesByRole := (component.filesByRole.map SourceFile.erased).insert file.slot
      { file with text := "", parseFailed := true }
    conflicts := [] }

/-- A file that cannot be read leaves its fault and a slot in which its text does not show. -/
theorem ingest_of_broken {component : Component} {file : SourceFile} {fault : Scan.Imbalance}
    (own : file.component = component.id)
    (free : component.filesByRole.get? file.slot = none)
    (broken : extract file.text.toList = .error fault) :
    (component.ingest file).conflicts = component.conflicts ++ file.findings ∧
      (component.ingest file).erased = component.withBroken file := by
  rw [ingest_of_free own free]
  refine ⟨rfl, ?_⟩
  simp [erased, SlotMap.map_insert, Entry.ofFile, broken, SourceFile.erased, withBroken]

end Component

/-! Where diagnostics lie -/

/-- The diagnostic points into the file of this path. -/
def Diagnostic.LiesIn (d : Diagnostic) (path : String) : Prop :=
  ∃ span, d.span = some span ∧ span.file = path

theorem Diagnostic.LiesIn.unique {d : Diagnostic} {path path' : String} (here : d.LiesIn path)
    (there : d.LiesIn path') : path = path' := by
  obtain ⟨span, shown, rfl⟩ := here
  obtain ⟨span', shown', rfl⟩ := there
  rw [Option.some.inj (shown.symm.trans shown')]

theorem Diagnostic.Reports.liesIn {d : Diagnostic} {contract : Contract} {component : String}
    {symbol : Option String} {span : Span} (reports : d.Reports contract component symbol span) :
    d.LiesIn span.file :=
  ⟨span, reports.span, rfl⟩

namespace Component

/-- What is told when a file is taken in lies in that file. -/
theorem liesIn_of_mem_ingest {component : Component} {file : SourceFile} {d : Diagnostic}
    (found : d ∈ (component.ingest file).conflicts) :
    d ∈ component.conflicts ∨ d.LiesIn file.path := by
  rw [ingest] at found
  split at found
  · refine (List.mem_append.mp found).imp_right fun new => ?_
    rw [List.mem_singleton.mp new]
    exact (Diagnostic.breach_reports _ _ _ _).liesIn
  · split at found
    · refine (List.mem_append.mp found).imp_right fun new => ?_
      rw [List.mem_singleton.mp new]
      exact (Diagnostic.breach_reports _ _ _ _).liesIn
    · refine (List.mem_append.mp found).imp_right fun new => ?_
      obtain ⟨again, -, reports⟩ :=
        exists_mem_of_forall₂ (takeSymbols_snd file _).flip new
      exact reports.liesIn

theorem liesIn_of_mem_foldl {files : List SourceFile} {component : Component} {d : Diagnostic}
    (found : d ∈ (files.foldl ingest component).conflicts) :
    d ∈ component.conflicts ∨ ∃ file ∈ files, d.LiesIn file.path := by
  induction files generalizing component with
  | nil => exact Or.inl found
  | cons file rest ih =>
    rcases ih found with told | ⟨other, member, lies⟩
    · rcases liesIn_of_mem_ingest told with old | new
      · exact Or.inl old
      · exact Or.inr ⟨file, List.mem_cons_self, new⟩
    · exact Or.inr ⟨other, List.mem_cons_of_mem file member, lies⟩

/-- In a file that cannot be read the rules see nothing but handlers without a store. -/
theorem Breach.eq_orphanHandlers [ScriptParser] {component : Component} {conventions : Conventions}
    {contract : Contract} {symbol : Option String} {span : Span}
    (breach : component.Breach conventions contract symbol span) (aligned : component.Aligned)
    (placed : ∀ entry ∈ component.entries, ∀ symbol ∈ entry.symbols,
      symbol.span.file = entry.file.path)
    (broken : ∀ entry ∈ component.entries, entry.file.path = span.file →
      entry.file.parseFailed = true ∧ entry.symbols = []) : contract = .orphanHandlers := by
  -- a broken file is readable for no role, and a broken file has no symbols; all rules but one need
  -- one of the two in that file
  have unread {role : Role} {file : SourceFile} (found : component.readable? role = some file)
      (here : file.path = span.file) : False := by
    obtain ⟨entry, member, rfl⟩ := aligned.exists_of_get? (file?_of_readable? found)
    have failed := (broken entry member here).1
    rw [readable?, Option.filter_eq_some_iff] at found
    simp [failed] at found
  have unnamed {entry : Entry} {symbol : Symbol} (member : entry ∈ component.entries)
      (exported : symbol ∈ entry.symbols) (here : symbol.span = span) : False := by
    have path := placed entry member symbol exported
    rw [here] at path
    have none := (broken entry member path.symm).2
    simp [none] at exported
  cases breach with
  | storeCall _ handled _ _ => exact (unread handled rfl).elim
  | missingField _ viewed _ _ _ => exact (unread viewed rfl).elim
  | unusedField _ _ _ projected _ _ =>
    obtain ⟨entry, member, exported⟩ := aligned.exists_of_symbol? projected
    exact (unnamed member exported rfl).elim
  | orphan _ _ => rfl
  | name stored _ exported _ _ =>
    obtain ⟨entry, member, -, rfl⟩ := aligned.exists_entry stored
    exact (unnamed member exported rfl).elim

end Component

/-! The component of a broken file -/

/-- What is told of a file that cannot be read. -/
def SourceFile.faultReport (file : SourceFile) (fault : Scan.Imbalance) : Diagnostic :=
  (Diagnostic.breach .parseAmbiguous file.component
    s!"Cannot balance `{file.path}`: {fault.message}.").withSpan (file.spanAt fault.line)

theorem SourceFile.findings_of_broken {file : SourceFile} {fault : Scan.Imbalance}
    (broken : extract file.text.toList = .error fault) :
    file.findings = [file.faultReport fault] := by
  have free : ({ id := file.component } : Component).filesByRole.get? file.slot = none := rfl
  rw [findings, Component.ingest, free, broken]
  rfl

section

variable {front back : List SourceFile} {file : SourceFile} {id : String}

theorem Index.gather_split (belongs : file.belongsTo id = true) :
    gather (front ++ file :: back) id =
      (back.filter (SourceFile.belongsTo id)).foldl Component.ingest
        ((gather front id).ingest file) := by
  rw [gather, List.filter_append, List.filter_cons_of_pos belongs, List.foldl_append,
    List.foldl_cons, ← gather]

theorem Index.gather_skip (foreign : file.belongsTo id = false) :
    gather (front ++ file :: back) id = gather (front ++ back) id := by
  rw [gather, gather, List.filter_append, List.filter_append,
    List.filter_cons_of_neg (by simp [foreign])]

/-- The component behind a broken file, from the files in front of it and those that come later;
texts that cannot be read and the conflicts up to the broken file are erased. -/
def Index.gatherAround (front back : List SourceFile) (file : SourceFile) : Component :=
  (back.filter (SourceFile.belongsTo file.component)).foldl Component.ingest
    ((gather front file.component).withBroken file)

/-- The file is claimed by its component and is the first to claim its slot. -/
structure SourceFile.TakesSlot (file : SourceFile) (front : List SourceFile) : Prop where
  belongs : file.belongsTo file.component = true
  free : file.slot ∉ (front.filter (SourceFile.belongsTo file.component)).map SourceFile.slot

section

variable {fault : Scan.Imbalance} (takes : file.TakesSlot front)
  (broken : extract file.text.toList = .error fault)

include takes broken

theorem Index.ingest_gather_broken :
    ((gather front file.component).ingest file).conflicts =
        (gather front file.component).conflicts ++ [file.faultReport fault] ∧
      ((gather front file.component).ingest file).erased =
        (gather front file.component).withBroken file := by
  have own : file.component = (gather front file.component).id := (gather_id _ _).symm
  have unclaimed : (gather front file.component).filesByRole.get? file.slot = none := by
    rw [SlotMap.get?_eq_none_iff, (gather_holds front file.component).mem_keys_iff]
    exact takes.free
  rw [← SourceFile.findings_of_broken broken]
  exact Component.ingest_of_broken own unclaimed broken

theorem Index.validate_gather_broken [ScriptParser] (conventions : Conventions) :
    (gather (front ++ file :: back) file.component).validate conventions =
      (gatherAround front back file).validate conventions := by
  obtain ⟨-, erased⟩ := ingest_gather_broken takes broken
  rw [gather_split takes.belongs, Component.validate_foldl_ingest, erased]
  rfl

/-- A component tells of a broken file in its slot once, and of all else without its text. -/
theorem Index.diagnostics_gather_broken [ScriptParser] (conventions : Conventions) :
    (gather (front ++ file :: back) file.component).diagnostics conventions =
      (gather front file.component).conflicts ++ file.faultReport fault ::
        (gatherAround front back file).diagnostics conventions := by
  obtain ⟨conflicts, erased⟩ := ingest_gather_broken takes broken
  rw [Component.diagnostics, Component.diagnostics, validate_gather_broken takes broken,
    gather_split takes.belongs, (Component.foldl_ingest_erased _ _).2, erased, conflicts,
    List.append_assoc, List.append_assoc, List.singleton_append]
  rfl

end

end

/-! One text in place of another -/

section

variable {conventions : Conventions} {before after : List Source} {path : String}

/-- The paths of sources in the form in which they are compared. -/
def Source.paths (sources : List Source) : List String :=
  sources.map fun source => normalizePath source.path

theorem Source.nodup_files_paths (conventions : Conventions) {sources : List Source}
    (distinct : (Source.paths sources).Nodup) :
    ((Source.files conventions sources).map SourceFile.path).Nodup := by
  have same : (sources.map (SourceFile.ofSource conventions)).map SourceFile.path =
      Source.paths sources := by
    rw [List.map_map]
    rfl
  rw [Source.files, ((List.mergeSort_perm _ _).map _).nodup_iff, same]
  exact distinct

/-- Files of different paths are in the order of these. -/
theorem Index.inOrder_of_paths {a b a' b' : SourceFile} (ordered : inOrder a b = true)
    (differ : a.path ≠ b.path) (first : a'.path = a.path) (second : b'.path = b.path) :
    inOrder a' b' = true := by
  rw [inOrder_iff] at ordered ⊢
  rcases ordered with before | ⟨same, -⟩
  · exact Or.inl (first ▸ second ▸ before)
  · exact absurd same differ

theorem Index.Sorted.replace {front back : List SourceFile} {file file' : SourceFile}
    (sorted : Sorted (front ++ file :: back)) (same : file'.path = file.path)
    (aside : ∀ other ∈ front ++ back, other.path ≠ file.path) :
    Sorted (front ++ file' :: back) := by
  obtain ⟨ahead, rest, across⟩ := List.pairwise_append.mp sorted
  obtain ⟨behind, last⟩ := List.pairwise_cons.mp rest
  refine List.pairwise_append.mpr ⟨ahead, List.pairwise_cons.mpr ⟨?_, last⟩, ?_⟩
  · intro other member
    have differ := (aside other (List.mem_append_right _ member)).symm
    exact inOrder_of_paths (behind other member) differ same rfl
  · intro first here second there
    rcases List.mem_cons.mp there with rfl | there
    · have differ := aside first (List.mem_append_left _ here)
      exact inOrder_of_paths (across first here file List.mem_cons_self) differ rfl same
    · exact across first here second (List.mem_cons_of_mem _ there)

/-- Where paths differ, the text of a source does not decide the order of the files. -/
theorem Source.files_replace {text : String}
    (distinct : (Source.paths (before ++ ⟨path, text⟩ :: after)).Nodup) :
    ∃ front back,
      (∀ other ∈ front ++ back, other.path ≠ normalizePath path) ∧
      ∀ text, Source.files conventions (before ++ ⟨path, text⟩ :: after) =
        front ++ SourceFile.ofSource conventions ⟨path, text⟩ :: back := by
  have member : SourceFile.ofSource conventions ⟨path, text⟩ ∈
      Source.files conventions (before ++ ⟨path, text⟩ :: after) :=
    Source.mem_files.mpr ⟨_, List.mem_append_right _ List.mem_cons_self, rfl⟩
  obtain ⟨front, back, split⟩ := List.append_of_mem member
  -- paths are distinct, so the file stands once in the list
  have aside : ∀ other ∈ front ++ back, other.path ≠ normalizePath path := by
    have apart := Source.nodup_files_paths conventions distinct
    rw [split, List.perm_middle.map _ |>.nodup_iff, List.map_cons, List.nodup_cons] at apart
    intro other member same
    exact apart.1 (List.mem_map.mpr ⟨other, member, same⟩)
  refine ⟨front, back, aside, fun other => ?_⟩
  -- two lists that are sorted and hold the same files are equal
  refine Index.Sorted.eq_of_perm conventions ?_ (Index.sorted_mergeSort _) ?_ ?_
  · intro file member
    exact SourceFile.classified_of_mem_map (List.mem_mergeSort.mp member)
  · have sorted : Index.Sorted (Source.files conventions (before ++ ⟨path, text⟩ :: after)) :=
      Index.sorted_mergeSort _
    rw [split] at sorted
    exact sorted.replace rfl aside
  · -- both lists hold the files of the other sources and this one
    have given (text : String) : (Source.files conventions (before ++ ⟨path, text⟩ :: after)).Perm
        (SourceFile.ofSource conventions ⟨path, text⟩ ::
          (before ++ after).map (SourceFile.ofSource conventions)) := by
      refine (List.mergeSort_perm _ _).trans ?_
      rw [List.map_append, List.map_append, List.map_cons]
      exact List.perm_middle
    have others : (front ++ back).Perm
        ((before ++ after).map (SourceFile.ofSource conventions)) := by
      have whole := given text
      rw [split] at whole
      exact (List.perm_middle.symm.trans whole).cons_inv
    exact (given other).trans ((others.symm.cons _).trans List.perm_middle.symm)

theorem SourceFile.eq_of_path {front back : List SourceFile} {file other : SourceFile}
    (aside : ∀ other ∈ front ++ back, other.path ≠ file.path)
    (given : other ∈ front ++ file :: back) (path : other.path = file.path) : other = file := by
  rcases List.mem_append.mp given with ahead | given
  · exact absurd path (aside other (List.mem_append_left _ ahead))
  · rcases List.mem_cons.mp given with same | behind
    · exact same
    · exact absurd path (aside other (List.mem_append_right _ behind))

/-- The source holds a slot of a component. -/
def Source.HoldsSlot (conventions : Conventions) (sources : List Source) (source : Source) : Prop :=
  ∃ index, Index.ofSources conventions sources = .ok index ∧
    ∃ component ∈ index.components, ∃ entry ∈ component.entries,
      entry.file.path = normalizePath source.path

/-- A file that holds a slot is claimed by a component, and no file in front of it claims its
slot. -/
theorem Source.HoldsSlot.first {sources : List Source} {source : Source}
    {front back : List SourceFile} (held : source.HoldsSlot conventions sources)
    (split : Source.files conventions sources =
      front ++ SourceFile.ofSource conventions source :: back)
    (aside : ∀ other ∈ front ++ back, other.path ≠ normalizePath source.path) :
    (SourceFile.ofSource conventions source).TakesSlot front := by
  obtain ⟨index, indexed, component, member, entry, stored, path⟩ := held
  have holds := Index.holds_of_mem indexed member
  obtain ⟨holder, first, rfl⟩ := holds.exists_file stored
  obtain ⟨given, belongs⟩ := List.mem_filter.mp (mem_of_mem_firsts first)
  -- the paths differ, so the file in the slot is the one of the source
  have same : holder = SourceFile.ofSource conventions source := by
    obtain ⟨failed, kept⟩ := Entry.ofFile_file holder
    rw [kept] at path
    rw [split] at given
    exact SourceFile.eq_of_path aside given path
  rw [← same] at split ⊢
  have own : holder.component = component.id := by
    simp only [SourceFile.belongsTo, Bool.and_eq_true, decide_eq_true_eq] at belongs
    exact belongs.2
  rw [← own] at first belongs
  refine ⟨belongs, fun claimed => ?_⟩
  obtain ⟨earlier, ahead, slot⟩ := List.mem_map.mp claimed
  obtain ⟨ahead, belongs'⟩ := List.mem_filter.mp ahead
  have sorted : Index.Sorted (Source.files conventions sources) := Index.sorted_mergeSort _
  have member' : earlier ∈ (Source.files conventions sources).filter
      (SourceFile.belongsTo holder.component) := by
    rw [split]
    exact List.mem_filter.mpr ⟨List.mem_append_left _ ahead, belongs'⟩
  have behind := rel_of_mem_firsts Index.inOrder_refl (sorted.filter _) first member' slot
  rw [split] at sorted
  have before := (List.pairwise_append.mp sorted).2.2 earlier ahead holder List.mem_cons_self
  have path := (Index.inOrder_antisymm before behind).1
  exact aside earlier (List.mem_append_left _ ahead) (path.trans (congrArg SourceFile.path same))

theorem Index.firstSeen_replace (front back : List SourceFile) (file file' : SourceFile)
    (slot : file'.slot = file.slot) (component : file'.component = file.component) :
    firstSeen (front ++ file' :: back) = firstSeen (front ++ file :: back) := by
  have claimed : file'.isClaimed = file.isClaimed := by
    rw [SourceFile.isClaimed, SourceFile.isClaimed, slot]
  have kept : ((file' :: back).filter SourceFile.isClaimed).map SourceFile.component =
      ((file :: back).filter SourceFile.isClaimed).map SourceFile.component := by
    rw [List.filter_cons, List.filter_cons, claimed]
    split
    · rw [List.map_cons, List.map_cons, component]
    · rfl
  rw [firstSeen, firstSeen, List.filter_append, List.filter_append, List.map_append,
    List.map_append, kept]

/-- What the components `ids` report. -/
def Index.componentReports [ScriptParser] (conventions : Conventions) (files : List SourceFile)
    (ids : List String) : List Diagnostic :=
  ids.flatMap fun id => (gather files id).diagnostics conventions

/-- What is reported of the stray files. -/
def Index.strayReports (conventions : Conventions) (files : List SourceFile) : List Diagnostic :=
  if conventions.flagStrayFiles then
    (files.filter fun file => !file.isClaimed).map fun file => file.strayDiagnostic conventions
  else []

theorem Index.diagnostics_ofOrdered [ScriptParser] (files : List SourceFile) :
    (ofOrdered files).diagnostics conventions =
      componentReports conventions files (firstSeen files) ++ strayReports conventions files := by
  rw [ofOrdered_eq_gather, diagnostics, List.flatMap_map]
  rfl

theorem Index.liesIn_of_mem_componentReports [ScriptParser] {files : List SourceFile}
    {ids : List String} {d : Diagnostic} (found : d ∈ componentReports conventions files ids) :
    ∃ file ∈ files, d.LiesIn file.path := by
  obtain ⟨id, -, found⟩ := List.mem_flatMap.mp found
  obtain ⟨span, shown, file, member, path, -⟩ := (gather_holds files id).located found
  exact ⟨file, List.mem_of_mem_filter member, span, shown, path⟩

theorem Index.liesIn_of_mem_strayReports {files : List SourceFile} {d : Diagnostic}
    (found : d ∈ strayReports conventions files) : ∃ file ∈ files, d.LiesIn file.path := by
  rw [strayReports] at found
  split at found
  · obtain ⟨file, member, rfl⟩ := List.mem_map.mp found
    exact ⟨file, List.mem_of_mem_filter member,
      ((Diagnostic.breach_reports _ _ _ _).escalate _).liesIn⟩
  · cases found

/-- A file that belongs to another component is passed by. -/
theorem Index.componentReports_skip [ScriptParser] (front back : List SourceFile)
    {file : SourceFile} {ids : List String} (others : file.component ∉ ids) :
    componentReports conventions (front ++ file :: back) ids =
      componentReports conventions (front ++ back) ids := by
  apply List.flatMap_congr
  intro id member
  have foreign : file.belongsTo id = false := by
    simp only [SourceFile.belongsTo, Bool.and_eq_false_imp, decide_eq_false_iff_not]
    rintro - rfl
    exact others member
  rw [gather_skip foreign]

theorem Index.strayReports_skip (front back : List SourceFile) {file : SourceFile}
    (claimed : file.isClaimed = true) :
    strayReports conventions (front ++ file :: back) =
      strayReports conventions (front ++ back) := by
  rw [strayReports, strayReports, List.filter_append, List.filter_cons_of_neg (by simp [claimed]),
    List.filter_append]

section

variable [ScriptParser] {front back : List SourceFile} {file : SourceFile}
  {fault : Scan.Imbalance}

/-- What is reported of files, one of which is broken and holds its slot. -/
theorem Index.diagnostics_of_broken {first last : List String} (takes : file.TakesSlot front)
    (broken : extract file.text.toList = .error fault)
    (ids : firstSeen (front ++ file :: back) = first ++ file.component :: last) :
    (ofOrdered (front ++ file :: back)).diagnostics conventions =
      (componentReports conventions (front ++ back) first ++
        (gather front file.component).conflicts) ++
      file.faultReport fault ::
        ((gatherAround front back file).diagnostics conventions ++
          (componentReports conventions (front ++ back) last ++
            strayReports conventions (front ++ back))) := by
  -- the component of the broken file is listed once, so the others do not see it
  have others : file.component ∉ first ++ last := by
    have distinct := nodup_firstSeen (front ++ file :: back)
    rw [ids, List.perm_middle.nodup_iff, List.nodup_cons] at distinct
    exact distinct.1
  have claimed : file.isClaimed = true := by
    have belongs := takes.belongs
    simp only [SourceFile.belongsTo, Bool.and_eq_true] at belongs
    exact belongs.1
  calc (ofOrdered (front ++ file :: back)).diagnostics conventions
      = componentReports conventions (front ++ file :: back) first ++
          ((gather (front ++ file :: back) file.component).diagnostics conventions ++
            componentReports conventions (front ++ file :: back) last) ++
          strayReports conventions (front ++ file :: back) := by
        rw [diagnostics_ofOrdered, ids, componentReports, List.flatMap_append,
          List.flatMap_cons]
        rfl
    _ = _ := by
        rw [componentReports_skip front back fun member => others (List.mem_append_left _ member),
          componentReports_skip front back fun member => others (List.mem_append_right _ member),
          strayReports_skip front back claimed, diagnostics_gather_broken takes broken]
        simp only [List.append_assoc, List.cons_append]

/-- In a file that cannot be read nothing is reported but its fault and that it has no store. -/
theorem Index.orphan_of_mem_validate {d : Diagnostic}
    (aside : ∀ other ∈ front ++ back, other.path ≠ file.path)
    (broken : extract file.text.toList = .error fault)
    (found : d ∈ (gather (front ++ file :: back) file.component).validate conventions)
    (lies : d.LiesIn file.path) : d.code = Contract.orphanHandlers.code := by
  obtain ⟨contract, symbol, span, breach, reports⟩ := Component.reported_of_mem_validate found
  have here : span.file = file.path := reports.liesIn.unique lies
  have holds := gather_holds (front ++ file :: back) file.component
  -- by the lemma on breaches, since every entry under this path is the broken one
  have orphan : contract = .orphanHandlers := by
    refine breach.eq_orphanHandlers holds.aligned ?_ ?_
    · intro entry stored symbol exported
      obtain ⟨origin, -, rfl⟩ := holds.exists_file stored
      obtain ⟨failed, kept⟩ := Entry.ofFile_file origin
      rw [kept, (Entry.hasSpan_of_mem_symbols exported).1]
    · intro entry stored path
      obtain ⟨origin, first, rfl⟩ := holds.exists_file stored
      obtain ⟨failed, kept⟩ := Entry.ofFile_file origin
      rw [kept, here] at path
      have given := List.mem_of_mem_filter (mem_of_mem_firsts first)
      rw [SourceFile.eq_of_path aside given path, Entry.ofFile, broken]
      exact ⟨rfl, rfl⟩
  rw [reports.code, orphan]

/-- Beside the fault of a broken file, what is reported in that file says that it has no store. -/
theorem Index.orphan_of_mem_around {d : Diagnostic} {ids ids' : List String}
    (takes : file.TakesSlot front) (broken : extract file.text.toList = .error fault)
    (aside : ∀ other ∈ front ++ back, other.path ≠ file.path)
    (found : d ∈ (componentReports conventions (front ++ back) ids ++
        (gather front file.component).conflicts) ++
      ((gatherAround front back file).diagnostics conventions ++
        (componentReports conventions (front ++ back) ids' ++
          strayReports conventions (front ++ back))))
    (lies : d.LiesIn file.path) : d.code = Contract.orphanHandlers.code := by
  have elsewhere (other : ∃ other ∈ front ++ back, d.LiesIn other.path) :
      d.code = Contract.orphanHandlers.code := by
    obtain ⟨other, member, there⟩ := other
    exact absurd (there.unique lies) (aside other member)
  have taken {files : List SourceFile} {component : Component} (fresh : component.conflicts = [])
      (within : ∀ other ∈ files, other ∈ front ++ back)
      (found : d ∈ (files.foldl Component.ingest component).conflicts) :
      ∃ other ∈ front ++ back, d.LiesIn other.path := by
    rcases Component.liesIn_of_mem_foldl found with old | ⟨other, member, there⟩
    · simp [fresh] at old
    · exact ⟨other, within other member, there⟩
  rw [Component.diagnostics, ← validate_gather_broken takes broken] at found
  simp only [List.mem_append, or_assoc] at found
  -- other components, files in front, files behind, the rules, other components, stray files
  rcases found with found | found | found | found | found | found
  · exact elsewhere (liesIn_of_mem_componentReports found)
  · exact elsewhere (taken rfl
      (fun other member => List.mem_append_left _ (List.mem_of_mem_filter member)) found)
  · exact elsewhere (taken rfl
      (fun other member => List.mem_append_right _ (List.mem_of_mem_filter member)) found)
  · exact orphan_of_mem_validate aside broken found lies
  · exact elsewhere (liesIn_of_mem_componentReports found)
  · exact elsewhere (liesIn_of_mem_strayReports found)

end

/-- A broken file that holds a slot is contained. Its fault is reported once, nothing else is
reported in it but that handlers have no store, and another text that cannot be read changes the
message and the line of the fault alone. -/
theorem check_broken [ScriptParser] {text : String} {fault : Scan.Imbalance}
    (named : ∀ source ∈ before ++ ⟨path, text⟩ :: after, source.isBlank = false)
    (distinct : (Source.paths (before ++ ⟨path, text⟩ :: after)).Nodup)
    (held : Source.HoldsSlot conventions (before ++ ⟨path, text⟩ :: after) ⟨path, text⟩)
    (broken : extract text.toList = .error fault) :
    ∃ front back d,
      check conventions (before ++ ⟨path, text⟩ :: after) =
        .ok (Report.ofDiagnostics (front ++ d :: back)) ∧
      d.Reports .parseAmbiguous (classify conventions (normalizePath path)).component none
        ⟨normalizePath path, fault.line⟩ ∧
      (∀ other ∈ front ++ back, other.LiesIn (normalizePath path) →
        other.code = Contract.orphanHandlers.code) ∧
      ∀ text' fault', extract text'.toList = .error fault' →
        ∃ message, check conventions (before ++ ⟨path, text'⟩ :: after) =
          .ok (Report.ofDiagnostics (front ++
            { d with message := message, span := some ⟨normalizePath path, fault'.line⟩ } ::
              back)) := by
  obtain ⟨front, back, aside, split⟩ := Source.files_replace distinct
  have takes := held.first (split text) aside
  have known : (SourceFile.ofSource conventions ⟨path, text⟩).component ∈
      Index.firstSeen (front ++ SourceFile.ofSource conventions ⟨path, text⟩ :: back) :=
    Index.mem_firstSeen.mpr ⟨_, List.mem_append_right _ List.mem_cons_self, takes.belongs⟩
  obtain ⟨first, last, ids⟩ := List.append_of_mem known
  -- the text decides neither the slot nor the order of the components
  have report {text' : String} {fault' : Scan.Imbalance}
      (broken' : extract text'.toList = .error fault') :
      check conventions (before ++ ⟨path, text'⟩ :: after) = .ok (Report.ofDiagnostics
        ((Index.componentReports conventions (front ++ back) first ++
            (Index.gather front (SourceFile.ofSource conventions ⟨path, text⟩).component).conflicts)
          ++ (SourceFile.ofSource conventions ⟨path, text'⟩).faultReport fault' ::
          ((Index.gatherAround front back
              (SourceFile.ofSource conventions ⟨path, text⟩)).diagnostics conventions ++
            (Index.componentReports conventions (front ++ back) last ++
              Index.strayReports conventions (front ++ back))))) := by
    have named' : ∀ source ∈ before ++ ⟨path, text'⟩ :: after, source.isBlank = false := by
      simp only [List.mem_append, List.mem_cons, or_imp, forall_and, forall_eq] at named ⊢
      exact named
    have takes' : (SourceFile.ofSource conventions ⟨path, text'⟩).TakesSlot front :=
      ⟨takes.belongs, takes.free⟩
    have ids' := (Index.firstSeen_replace front back
      (SourceFile.ofSource conventions ⟨path, text⟩)
      (SourceFile.ofSource conventions ⟨path, text'⟩) rfl rfl).trans ids
    rw [check_of_no_blank conventions named', Index.ofFiles, ← Source.files, split,
      Index.diagnostics_of_broken takes' broken' ids']
    rfl
  refine ⟨_, _, _, report broken, Diagnostic.breach_reports _ _ _ _, ?_, ?_⟩
  · intro other found lies
    exact Index.orphan_of_mem_around takes broken aside found lies
  · intro text' other broken'
    refine ⟨s!"Cannot balance `{normalizePath path}`: {other.message}.", ?_⟩
    rw [report broken']
    simp only [SourceFile.faultReport, Diagnostic.breach, Diagnostic.ofCode, Diagnostic.withSpan,
      Contract.ofCode?_code]
    rfl

end

/-- Handlers that cannot be read and have no store, behind a store. -/
theorem check_broken_handlers :
    Source.HoldsSlot .variants [⟨"a.store.ts", ""⟩, ⟨"b.handlers.ts", "f("⟩]
        ⟨"b.handlers.ts", "f("⟩ ∧
      ∃ front back d,
        check .variants [⟨"a.store.ts", ""⟩, ⟨"b.handlers.ts", "f("⟩] =
          .ok (Report.ofDiagnostics (front ++ d :: back)) ∧
        d.Reports .parseAmbiguous "b" none ⟨"b.handlers.ts", 1⟩ ∧
        (∀ other ∈ front ++ back, other.LiesIn "b.handlers.ts" →
          other.code = Contract.orphanHandlers.code) ∧
        ∃ message, check .variants [⟨"a.store.ts", ""⟩, ⟨"b.handlers.ts", "\n]"⟩] =
          .ok (Report.ofDiagnostics (front ++
            { d with message := message, span := some ⟨"b.handlers.ts", 2⟩ } :: back)) := by
  have indexed : Index.ofSources .variants [⟨"a.store.ts", ""⟩, ⟨"b.handlers.ts", "f("⟩] =
      .ok (Index.variants [⟨"a.store.ts", ""⟩, ⟨"b.handlers.ts", "f("⟩]) :=
    Index.ofSources_variants (by decide) (by decide +kernel)
  have held : Source.HoldsSlot .variants [⟨"a.store.ts", ""⟩, ⟨"b.handlers.ts", "f("⟩]
      ⟨"b.handlers.ts", "f("⟩ :=
    ⟨_, indexed, by decide +kernel⟩
  have first : extract "f(".toList = .error ⟨1, .neverClosed .round⟩ := by decide +kernel
  have second : extract "\n]".toList = .error ⟨2, .unmatched .square⟩ := by decide +kernel
  obtain ⟨front, back, d, checked, reports, others, replaced⟩ :=
    @check_broken .variants [⟨"a.store.ts", ""⟩] [] "b.handlers.ts" _ "f(" _ (by decide)
      (by decide) held first
  exact ⟨held, front, back, d, checked, reports, others, replaced _ _ second⟩

end Concord
