import Concord.Proofs.Classifying
import Concord.Proofs.Flags

/-!
Files that claim one slot. If each role has at most one pattern without a `*` and one with it, then
component, role and variant tell which pattern was found and what stands in place of its `*`, so
they give the stem back. A file is turned away only by one that was taken in before it, so the two
come from two of the sources, and their paths are the same up to an extension.
-/
namespace Concord

/-! Slots and stems -/

/-- No role has two patterns without a `*`, or two with it. -/
def Settings.OnePerKind (settings : Settings) : Prop :=
  ∀ first ∈ settings.patterns, ∀ second ∈ settings.patterns, first.1 = second.1 →
    ('*' ∈ first.2.toList ↔ '*' ∈ second.2.toList) → first.2 = second.2

instance (settings : Settings) : Decidable settings.OnePerKind :=
  inferInstanceAs (Decidable (∀ first ∈ settings.patterns, ∀ second ∈ settings.patterns,
    first.1 = second.1 → ('*' ∈ first.2.toList ↔ '*' ∈ second.2.toList) → first.2 = second.2))

theorem Settings.default_onePerKind : ({} : Settings).OnePerKind := by
  decide

/-- The patterns that names follow by default can be read. -/
theorem Settings.compile_default : (({} : Settings).compile).isOk = true := by
  decide +kernel

/-- The normalised paths are the same, or differ only in a known extension behind the last dot. -/
def SameStem (extensions : List String) (path path' : String) : Prop :=
  ∃ stem, IsStem (undotted extensions) (normalizePath path).toList stem ∧
    IsStem (undotted extensions) (normalizePath path').toList stem

@[simp] theorem normalizePath_normalizePath (path : String) :
    normalizePath (normalizePath path) = normalizePath path := by
  simp only [normalizePath, String.toList_ofList, List.map_map]
  congr 1
  apply List.map_congr_left
  intro c _
  by_cases back : c = '\\' <;> simp [back]

/-- A classification is that of one stem. -/
theorem Classification.Follows.stem_unique {settings : Settings} (few : settings.OnePerKind)
    {found : Classification} {stem stem' : List Char}
    (follows : found.Follows settings.patterns stem)
    (follows' : found.Follows settings.patterns stem') (claimed : found.role ≠ .unknown) :
    stem = stem' := by
  obtain ⟨earlier, pattern, later, listed, fits, -⟩ := follows.claimed claimed
  obtain ⟨earlier', pattern', later', listed', fits', -⟩ := follows'.claimed claimed
  have member : (found.role, pattern) ∈ settings.patterns := listed ▸ by simp
  have member' : (found.role, pattern') ∈ settings.patterns := listed' ▸ by simp
  -- both patterns have a `*` if there is a variant, and none if there is not
  have same : pattern = pattern' :=
    few _ member _ member' rfl (fits.bound.symm.trans fits'.bound)
  rw [fits.text, fits'.text, same]

/-- Paths that claim one slot of one component share their stem. -/
theorem classify_sameStem [PatternEngine] {settings : Settings} {conventions : Conventions}
    (compiled : settings.compile = .ok conventions) (few : settings.OnePerKind)
    {path path' : String} (claimed : (classify conventions path).role ≠ .unknown)
    (component : (classify conventions path).component = (classify conventions path').component)
    (slot : (classify conventions path).slot = (classify conventions path').slot) :
    SameStem conventions.extensions path path' := by
  have same : classify conventions path = classify conventions path' := by
    rw [Classification.slot, Classification.slot, Slot.mk.injEq] at slot
    rw [Classification.mk.injEq]
    exact ⟨component, slot⟩
  have follows := follows_stemOf compiled path
  have follows' := follows_stemOf compiled path'
  rw [← same] at follows'
  rw [SameStem]
  simp only [isStem_iff]
  exact ⟨_, rfl, follows.stem_unique few follows' claimed⟩

/-! Files that are turned away -/

/-- The diagnostic for a file whose slot another one has. -/
def SourceFile.refusal (kept dropped : SourceFile) : Diagnostic :=
  (Diagnostic.breach .duplicateRole dropped.component
    (s!"Component already has a {dropped.slot.label} file `{kept.path}`; "
      ++ s!"`{dropped.path}` is ignored."))
    |>.withSpan (dropped.spanAt 1)

/-- Nothing that is found when a file is read says that its slot was taken. -/
theorem SourceFile.code_ne_of_mem_findings {file : SourceFile} {d : Diagnostic}
    (member : d ∈ file.findings) : d.code ≠ Contract.duplicateRole.code := by
  have records := Entry.ofFile_records file
  rw [Entry.Records] at records
  split at records
  · obtain ⟨-, fault, found, reports⟩ := records
    rw [found, List.mem_singleton] at member
    rw [member, reports.code]
    decide
  · obtain ⟨-, repeated, -⟩ := records
    obtain ⟨again, -, reports⟩ := Export.exists_mem_of_forall₂ repeated.flip member
    rw [Diagnostic.Reports.code reports]
    decide

/-- A new refusal is that of the file, whose slot another one has. -/
theorem Component.refusal_of_mem_ingest {component : Component} {file : SourceFile}
    (own : file.component = component.id) {d : Diagnostic}
    (member : d ∈ (component.ingest file).conflicts)
    (code : d.code = Contract.duplicateRole.code) :
    d ∈ component.conflicts ∨
      ∃ kept, component.filesByRole.get? file.slot = some kept ∧ d = kept.refusal file := by
  cases claimed : component.filesByRole.get? file.slot with
  | some kept =>
    rw [ingest, claimed] at member
    rcases List.mem_append.mp member with old | new
    · exact Or.inl old
    · refine Or.inr ⟨kept, rfl, ?_⟩
      rw [SourceFile.refusal, own]
      exact List.mem_singleton.mp new
  | none =>
    rw [ingest_of_free own claimed] at member
    rcases List.mem_append.mp member with old | new
    · exact Or.inl old
    · exact absurd code (SourceFile.code_ne_of_mem_findings new)

/-- Every refusal of a component is that of one of its files, which claims the slot of one in front
of it. -/
theorem Index.refusal_of_mem_gather {files : List SourceFile} {id : String} {d : Diagnostic}
    (member : d ∈ (gather files id).conflicts) (code : d.code = Contract.duplicateRole.code) :
    ∃ kept dropped, [kept, dropped].Sublist (files.filter (SourceFile.belongsTo id)) ∧
      kept.slot = dropped.slot ∧ d = kept.refusal dropped := by
  -- by induction from the end of the list: the last file adds at most one refusal, its own
  induction files using List.reverseRecOn with
  | nil => cases member
  | append_singleton files file ih =>
    have holds := gather_holds files id
    rw [gather_append] at member
    rw [List.filter_append]
    cases belongs : file.belongsTo id with
    | false => simpa [belongs] using ih (by simpa [belongs] using member)
    | true =>
      rw [belongs, if_pos rfl] at member
      have own : file.component = (gather files id).id := by
        rw [gather_id]
        simp only [SourceFile.belongsTo, Bool.and_eq_true, decide_eq_true_eq] at belongs
        exact belongs.2
      rw [List.filter_singleton, belongs]
      rcases Component.refusal_of_mem_ingest own member code with old | ⟨holder, held, new⟩
      · obtain ⟨kept, dropped, listed, same, refused⟩ := ih old
        exact ⟨kept, dropped, listed.trans (List.sublist_append_left _ _), same, refused⟩
      · -- what holds the slot is what was read of a file in front
        have slot := holds.aligned.own _ _ held
        obtain ⟨entry, stored, rfl⟩ := holds.aligned.exists_of_get? held
        obtain ⟨kept, first, rfl⟩ := holds.exists_file stored
        rw [Entry.ofFile_slot] at slot
        obtain ⟨failed, path⟩ := Entry.ofFile_file kept
        refine ⟨kept, file, ?_, slot, ?_⟩
        · exact (List.singleton_sublist.mpr (mem_of_mem_firsts first)).append (.refl [file])
        · rw [new, path]
          rfl

/-- Two files of the sources come from two of the sources. -/
theorem Source.exists_pair {conventions : Conventions} {sources : List Source}
    {first second : SourceFile}
    (listed : [first, second].Sublist (Source.files conventions sources)) :
    ∃ source source' rest, sources.Perm (source :: source' :: rest) ∧
      SourceFile.ofSource conventions source = first ∧
      SourceFile.ofSource conventions source' = second := by
  -- sorting moves files, but each is still made of one source
  obtain ⟨others, all⟩ := listed.exists_perm_append
  have divided : ([first, second] ++ others).Perm
      (sources.map (SourceFile.ofSource conventions)) :=
    all.symm.trans (List.mergeSort_perm _ _)
  obtain ⟨arranged, made, perm⟩ :=
    (congrFun₂ (List.eq_map_comp_perm (SourceFile.ofSource conventions)) _ _).mpr divided
  obtain ⟨source, behind, rfl, here, made⟩ := List.map_eq_cons_iff.mp made.symm
  obtain ⟨source', rest, rfl, there, -⟩ := List.map_eq_cons_iff.mp made
  exact ⟨source, source', rest, perm.symm, here, there⟩

/-- With at most one pattern of each kind for a role, as by default, only extensions make files
collide: what is classified alike has one stem, and a file is turned away only by another one of the
same stem. -/
theorem collisions_share_stem :
    (({} : Settings).compile).isOk = true ∧ ({} : Settings).OnePerKind ∧
    ∀ [PatternEngine] [Access.ScriptParser] (settings : Settings) (conventions : Conventions),
      settings.compile = .ok conventions → settings.OnePerKind →
      (∀ path path', (classify conventions path).role ≠ .unknown →
        (classify conventions path).component = (classify conventions path').component →
        (classify conventions path).slot = (classify conventions path').slot →
        SameStem conventions.extensions path path') ∧
      ∀ sources, (∀ source ∈ sources, source.isBlank = false) →
        ∃ report, check conventions sources = .ok report ∧
          ∀ d ∈ report.diagnostics, d.code = Contract.duplicateRole.code →
            ∃ kept dropped rest, sources.Perm (kept :: dropped :: rest) ∧
              SameStem conventions.extensions kept.path dropped.path ∧
              d = (SourceFile.ofSource conventions kept).refusal
                (SourceFile.ofSource conventions dropped) := by
  refine ⟨Settings.compile_default, Settings.default_onePerKind, ?_⟩
  intro _ _ settings conventions compiled few
  refine ⟨fun path path' => classify_sameStem compiled few, ?_⟩
  intro sources named
  refine ⟨_, check_eq_gather named, ?_⟩
  intro d member code
  -- a refusal is a conflict of a component: neither the rules nor the stray files have its code
  rcases List.mem_append.mp member with reported | stray
  · obtain ⟨id, -, told⟩ := List.mem_flatMap.mp reported
    rcases List.mem_append.mp told with conflict | ruled
    · obtain ⟨first, second, listed, slot, rfl⟩ := Index.refusal_of_mem_gather conflict code
      have belongs : ∀ file ∈ [first, second], file.belongsTo id = true := fun file within =>
        (List.mem_filter.mp (listed.subset within)).2
      obtain ⟨kept, dropped, rest, perm, rfl, rfl⟩ :=
        Source.exists_pair (listed.trans List.filter_sublist)
      simp only [List.mem_cons, List.not_mem_nil, or_false, forall_eq_or_imp, forall_eq,
        SourceFile.belongsTo, SourceFile.isClaimed, Bool.and_eq_true, decide_eq_true_eq] at belongs
      obtain ⟨⟨claimed, own⟩, -, own'⟩ := belongs
      refine ⟨kept, dropped, rest, perm, ?_, rfl⟩
      have same := classify_sameStem compiled few claimed (own.trans own'.symm) slot
      simpa [SameStem] using same
    · obtain ⟨contract, symbol, span, breach, reports⟩ := Component.reported_of_mem_validate ruled
      cases Contract.code_injective (reports.code.symm.trans code)
      cases breach
  · split at stray
    · obtain ⟨file, -, rfl⟩ := List.mem_map.mp stray
      rw [(file.strayDiagnostic_reports conventions).code] at code
      cases Contract.code_injective code
    · cases stray

/-- Two files of one variant that differ in their extensions and their slashes. -/
def Source.twoExtensions : List Source :=
  [⟨"b\\a.web.impl.js", ""⟩, ⟨"b/a.web.impl.ts", ""⟩]

theorem collisions_share_stem_twoExtensions :
    SameStem Conventions.anyNames.extensions "b\\a.web.impl.js" "b/a.web.impl.ts" ∧
    ∃ report, check .anyNames Source.twoExtensions = .ok report ∧
      ∃ d ∈ report.diagnostics, ∃ kept dropped rest,
        Source.twoExtensions.Perm (kept :: dropped :: rest) ∧
          SameStem Conventions.anyNames.extensions kept.path dropped.path ∧
          d = (SourceFile.ofSource .anyNames kept).refusal
            (SourceFile.ofSource .anyNames dropped) := by
  obtain ⟨-, -, collisions⟩ := collisions_share_stem
  obtain ⟨paths, reports⟩ := collisions .anyNames _ Settings.compile_anyNames (by decide)
  refine ⟨paths "b\\a.web.impl.js" "b/a.web.impl.ts" (by decide +kernel) (by decide +kernel)
    (by decide +kernel), ?_⟩
  obtain ⟨report, reported, refused⟩ := reports Source.twoExtensions (by decide)
  refine ⟨report, reported, ?_⟩
  have checked := check_of_inOrder (show ∀ source ∈ Source.twoExtensions, _ from by decide)
    (show (Source.twoExtensions.map (SourceFile.ofSource .anyNames)).Pairwise _ from by
      decide +kernel)
  obtain rfl := Except.ok.inj (reported.symm.trans checked)
  have told : ∃ d ∈ (Report.ofDiagnostics ((Index.ofOrdered (Source.twoExtensions.map
      (SourceFile.ofSource .anyNames))).diagnostics .anyNames)).diagnostics,
      d.code = Contract.duplicateRole.code := by
    decide +kernel
  obtain ⟨d, member, code⟩ := told
  exact ⟨d, member, refused d member code⟩

end Concord
