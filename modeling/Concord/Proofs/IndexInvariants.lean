import Concord.Proofs.FileEntries
import Concord.Proofs.InputOrder
import Mathlib.Data.List.Nodup

/-!
What holds of an index while it is built. The files and the symbols of a component are kept in two
maps, which are filled together: both have the same slots, and what is kept in a slot says so
itself. Components are found again by their positions, and each stands where its position says.
Every file that is taken in keeps this up, whether it is stray, opens a component, finds its slot
taken, cannot be read or exports a name again.
-/
namespace Concord

open Concord.Export

/-! One component -/

namespace Component

/-- The two maps have the same slots, and a file is kept under its own. -/
structure Aligned (component : Component) : Prop where
  sameSlots : component.symbolsByRole.keys = component.filesByRole.keys
  own : ∀ slot file, component.filesByRole.get? slot = some file → file.slot = slot

/-- What is kept belongs to the component, and the symbols of a slot are those of its file. -/
structure Sound (component : Component) : Prop extends component.Aligned where
  files : ∀ slot file, component.filesByRole.get? slot = some file →
    slot.role ≠ .unknown ∧ file.component = component.id
  symbols : ∀ slot file symbols, component.filesByRole.get? slot = some file →
    component.symbolsByRole.get? slot = some symbols →
      (∀ symbol ∈ symbols, symbol.component = component.id ∧ symbol.slot = slot ∧
        symbol.span.file = file.path) ∧
      (symbols.map Symbol.name).Nodup ∧ (file.parseFailed = true → symbols = [])

/-- A component of an index, which has some file. -/
structure WellFormed (component : Component) : Prop extends component.Sound where
  inhabited : component.isEmpty = false

variable {component : Component} {file : SourceFile}

theorem sound_empty (id : String) : ({ id := id } : Component).Sound where
  sameSlots := rfl
  own := nofun
  files := nofun
  symbols := nofun

/-- A file whose slot is free gets it, and leaves what reading it found. -/
theorem ingest_of_free (own : file.component = component.id)
    (free : component.filesByRole.get? file.slot = none) :
    component.ingest file =
      { component with
        symbolsByRole := component.symbolsByRole.insert file.slot (Entry.ofFile file).symbols
        filesByRole := component.filesByRole.insert file.slot (Entry.ofFile file).file
        conflicts := component.conflicts ++ file.findings } := by
  have none : ({ id := file.component } : Component).filesByRole.get? file.slot = none := rfl
  rw [ingest, free, Entry.ofFile, SourceFile.findings, ingest, none, own]
  cases extract file.text.toList <;> rfl

/-- A file whose slot is taken is turned away. -/
theorem ingest_of_taken {kept : SourceFile}
    (taken : component.filesByRole.get? file.slot = some kept) :
    ∃ refusal : Diagnostic,
      refusal.Reports .duplicateRole component.id none (file.spanAt 1) ∧
        component.ingest file =
          { component with conflicts := component.conflicts ++ [refusal] } := by
  rw [ingest, taken]
  exact ⟨_, Diagnostic.breach_reports _ _ _ _, rfl⟩

theorem Aligned.ingest (aligned : component.Aligned) (own : file.component = component.id) :
    (component.ingest file).Aligned := by
  cases claimed : component.filesByRole.get? file.slot with
  | some kept =>
    obtain ⟨refusal, -, taken⟩ := ingest_of_taken claimed
    rw [taken]
    exact ⟨aligned.sameSlots, aligned.own⟩
  | none =>
    rw [ingest_of_free own claimed]
    refine ⟨SlotMap.keys_insert aligned.sameSlots, ?_⟩
    intro slot stored found
    rw [SlotMap.get?_insert] at found
    split at found
    next here =>
      rw [← Option.some.inj found, Entry.ofFile_slot, here]
    · exact aligned.own slot stored found

/-- What is kept of a file that gets its slot is its own; whatever was kept before stays. -/
theorem Sound.ingest (sound : component.Sound) (fresh : file.parseFailed = false)
    (own : file.component = component.id) (claimed : file.slot.role ≠ .unknown) :
    (component.ingest file).Sound := by
  have aligned := sound.toAligned.ingest own
  cases held : component.filesByRole.get? file.slot with
  | some kept =>
    obtain ⟨refusal, -, taken⟩ := ingest_of_taken held
    rw [taken] at aligned ⊢
    exact ⟨aligned, sound.files, sound.symbols⟩
  | none =>
    rw [ingest_of_free own held] at aligned ⊢
    -- the entry of the new file differs from it in nothing but the mark of a text that fails
    obtain ⟨failed, same⟩ := Entry.ofFile_file file
    refine ⟨aligned, ?_, ?_⟩
    · intro slot stored found
      rw [SlotMap.get?_insert] at found
      split at found
      next here =>
        rw [← Option.some.inj found, same, here]
        exact ⟨claimed, own⟩
      · exact sound.files slot stored found
    · intro slot stored symbols found exported
      rw [SlotMap.get?_insert] at found exported
      split at found
      next here =>
        rw [if_pos here] at exported
        obtain ⟨owned, names, unread⟩ := Entry.ofFile_sound fresh
        cases found
        cases exported
        refine ⟨fun symbol member => ?_, names, unread⟩
        obtain ⟨id, place, path⟩ := owned symbol member
        rw [same] at id place
        exact ⟨id.trans own, place.trans here.symm, path⟩
      next elsewhere =>
        rw [if_neg elsewhere] at exported
        exact sound.symbols slot stored symbols found exported

/-- Whether a file gets its slot or not, the slot is taken afterwards. -/
theorem isEmpty_ingest (own : file.component = component.id) :
    (component.ingest file).isEmpty = false := by
  have taken : ∃ kept, (component.ingest file).filesByRole.get? file.slot = some kept := by
    cases claimed : component.filesByRole.get? file.slot with
    | some kept =>
      obtain ⟨refusal, -, taken⟩ := ingest_of_taken claimed
      rw [taken]
      exact ⟨kept, claimed⟩
    | none =>
      rw [ingest_of_free own claimed]
      exact ⟨_, by rw [SlotMap.get?_insert, if_pos rfl]⟩
  obtain ⟨kept, found⟩ := taken
  rw [isEmpty, List.isEmpty_eq_false_iff]
  exact List.ne_nil_of_mem (SlotMap.get?_eq_some_iff.mp found)

theorem ingest_id (component : Component) (file : SourceFile) :
    (component.ingest file).id = component.id := by
  unfold ingest
  split
  · rfl
  · split <;> rfl

end Component

/-! Positions of components -/

namespace Index.Builder

variable {builder : Builder} {file : SourceFile}

def ids (builder : Builder) : List String :=
  builder.components.map Component.id

/-- The positions are those of the components. -/
def Located (builder : Builder) : Prop :=
  ∀ id position, builder.positions.lookup id = some position ↔ builder.ids[position]? = some id

theorem located_empty : ({} : Builder).Located := by
  intro id position
  simp [ids]

/-- A position belongs to one component, so no two components have one id. -/
theorem Located.nodup (located : builder.Located) : builder.ids.Nodup := by
  rw [List.nodup_iff_injective_get]
  intro first second same
  have place (index : Fin builder.ids.length) :
      builder.positions.lookup (builder.ids.get index) = some index.val :=
    (located _ _).mpr (List.getElem?_eq_getElem index.isLt)
  have both := place first
  rw [same, place second] at both
  exact Fin.ext (Option.some.inj both).symm

theorem Located.mem_ids_iff (located : builder.Located) {id : String} :
    id ∈ builder.ids ↔ ∃ position, builder.positions.lookup id = some position := by
  rw [List.mem_iff_getElem?]
  exact exists_congr fun position => (located id position).symm

theorem Located.components_locate (located : builder.Located) (id : String) :
    (builder.locate id).2.components =
      if id ∈ builder.ids then builder.components
      else builder.components ++ [{ id := id }] := by
  rw [Builder.locate]
  cases known : builder.positions.lookup id with
  | some position => rw [if_pos (located.mem_ids_iff.mpr ⟨position, known⟩)]
  | none =>
    have absent : id ∉ builder.ids := by
      rw [located.mem_ids_iff, known]
      rintro ⟨position, ⟨⟩⟩
    rw [if_neg absent]

/-- Where a component is located it stands, also if it was opened for that. -/
theorem Located.locate (located : builder.Located) (id : String) :
    (builder.locate id).2.Located ∧
      (builder.locate id).2.ids[(builder.locate id).1]? = some id := by
  rw [Builder.locate]
  -- a known id is where its position says; a new one is put at the end
  cases known : builder.positions.lookup id with
  | some position => exact ⟨located, (located id position).mp known⟩
  | none =>
    have opened : builder.ids ++ [id] = ids { builder with
        components := builder.components ++ [{ id := id }]
        positions := (id, builder.components.length) :: builder.positions } := by
      rw [ids, ids, List.map_append]
      rfl
    have length : builder.ids.length = builder.components.length := List.length_map _
    have last : (builder.ids ++ [id])[builder.components.length]? = some id := by
      rw [← length, List.getElem?_concat_length]
    refine ⟨fun other position => ?_, by rw [← opened]; exact last⟩
    rw [← opened]
    by_cases same : other = id
    · -- the id is new, so it stands at the end and nowhere else
      subst same
      rw [List.lookup_cons_self]
      constructor
      · rintro ⟨⟩
        exact last
      · intro there
        rcases Nat.lt_or_ge position builder.ids.length with inside | beyond
        · rw [List.getElem?_append_left inside, ← located, known] at there
          cases there
        · rw [List.getElem?_append_right beyond] at there
          obtain ⟨short, -⟩ := List.getElem?_eq_some_iff.mp there
          rw [List.length_singleton] at short
          exact congrArg some (by omega)
    -- any other id stays where it was, and the new component is not its own
    · rw [List.lookup_cons, beq_false_of_ne same]
      change builder.positions.lookup other = some position ↔ _
      rw [located]
      rcases Nat.lt_or_ge position builder.ids.length with inside | beyond
      · rw [List.getElem?_append_left inside]
      · rw [List.getElem?_append_right beyond, List.getElem?_eq_none beyond]
        constructor
        · intro never
          cases never
        · intro there
          have member := List.mem_of_getElem? there
          exact absurd (List.mem_singleton.mp member) same

/-- A file is taken in by the component of its id, and by no other. -/
theorem Located.components_ingest (located : builder.Located)
    (claimed : file.slot.role ≠ .unknown) :
    (builder.ingest file).components =
      (builder.locate file.component).2.components.map fun component =>
        if component.id = file.component then component.ingest file else component := by
  obtain ⟨located', there⟩ := located.locate file.component
  rw [Builder.ingest, if_neg claimed]
  -- place by place: the one position that is changed is the one place where the id is found
  refine List.ext_getElem? fun index => ?_
  rw [List.getElem?_modify, List.getElem?_map]
  cases stands : (builder.locate file.component).2.components[index]? with
  | none => rfl
  | some component =>
    have named : (builder.locate file.component).2.ids[index]? = some component.id := by
      rw [ids, List.getElem?_map, stands]
      rfl
    -- ids stand at their positions, so the position is that of the id and of no other
    have here : (builder.locate file.component).1 = index ↔ component.id = file.component := by
      constructor
      · rintro rfl
        exact Option.some.inj (named.symm.trans there)
      · intro same
        rw [same, ← located'] at named
        exact Option.some.inj (((located' _ _).mpr there).symm.trans named)
    simp only [Option.map_eq_map, Option.map_some, here]

theorem Located.ingest (located : builder.Located) (file : SourceFile) :
    (builder.ingest file).Located := by
  by_cases stray : file.slot.role = .unknown
  · rw [Builder.ingest, if_pos stray]
    exact located
  · have ids : (builder.ingest file).ids = (builder.locate file.component).2.ids := by
      rw [ids, located.components_ingest stray, List.map_map]
      refine List.map_congr_left fun component _ => ?_
      rw [Function.comp_apply]
      split
      · exact component.ingest_id file
      · rfl
    intro id position
    rw [ids, ← (located.locate file.component).1, Builder.ingest, if_neg stray]

/-- The components are found by their positions, and each is well-formed. -/
structure Consistent (builder : Builder) : Prop where
  located : builder.Located
  components : ∀ component ∈ builder.components, component.WellFormed

/-- One more file: the component that it belongs to takes it in, which may have been opened for it,
and the others stay as they were. -/
theorem Consistent.ingest (consistent : builder.Consistent) (fresh : file.parseFailed = false) :
    (builder.ingest file).Consistent := by
  refine ⟨consistent.located.ingest file, ?_⟩
  by_cases stray : file.slot.role = .unknown
  · rw [Builder.ingest, if_pos stray]
    exact consistent.components
  · rw [consistent.located.components_ingest stray]
    intro component member
    obtain ⟨old, stood, rfl⟩ := List.mem_map.mp member
    -- a component that has just been opened is empty, and it is not left so
    have before : old.WellFormed ∨ old = { id := file.component } := by
      rw [locate] at stood
      split at stood
      · exact Or.inl (consistent.components old stood)
      · rcases List.mem_append.mp stood with stood | opened
        · exact Or.inl (consistent.components old stood)
        · exact Or.inr (List.mem_singleton.mp opened)
    split
    next own =>
      have sound : old.Sound := by
        rcases before with formed | rfl
        · exact formed.toSound
        · exact Component.sound_empty _
      exact ⟨sound.ingest fresh own.symm stray, Component.isEmpty_ingest own.symm⟩
    -- only the file's own component was opened, so a foreign one stood before
    next foreign =>
      rcases before with formed | rfl
      · exact formed
      · exact absurd rfl foreign

/-- By induction over the files that are taken in. -/
theorem consistent_foldl {files : List SourceFile}
    (fresh : ∀ file ∈ files, file.parseFailed = false) (consistent : builder.Consistent) :
    (files.foldl ingest builder).Consistent := by
  induction files generalizing builder with
  | nil => exact consistent
  | cons file rest ih =>
    obtain ⟨first, later⟩ := List.forall_mem_cons.mp fresh
    exact ih later (consistent.ingest first)

end Index.Builder

/-! Sources -/

/-- Every index of sources is well-formed. -/
theorem ofSources_wellFormed (conventions : Conventions) (sources : List Source)
    (named : ∀ source ∈ sources, source.isBlank = false) :
    ∃ index, Index.ofSources conventions sources = .ok index ∧
      (index.components.map Component.id).Nodup ∧
      ∀ component ∈ index.components, component.WellFormed := by
  refine ⟨_, ofSources_of_no_blank conventions named, ?_⟩
  have fresh : ∀ file ∈ (sources.map (SourceFile.ofSource conventions)).mergeSort Index.inOrder,
      file.parseFailed = false := by
    intro file member
    obtain ⟨source, -, rfl⟩ := List.mem_map.mp (List.mem_mergeSort.mp member)
    rfl
  have consistent := Index.Builder.consistent_foldl fresh ⟨Index.Builder.located_empty, nofun⟩
  exact ⟨consistent.located.nodup, consistent.components⟩

/-- A store that exports a name twice, another text under the same path, a stray file, and a store
that cannot be read. -/
def Source.contested : List Source :=
  [⟨"b/x.store.ts", "export const a = 1, a = 2"⟩, ⟨"b\\x.store.ts", "export const a = f("⟩,
    ⟨"b/x.ts", ""⟩, ⟨"c/y.store.ts", "(\n]"⟩]

/-- Of the two texts under one path the first is kept, with each of its names once. The second text,
the repeated name and what cannot be read are told as conflicts. -/
theorem ofSources_wellFormed_contested :
    ∃ index, Index.ofSources .storesOnly Source.contested = .ok index ∧
      (index.components.map fun component =>
        (component.id, component.symbolsByRole.pairs.map fun pair => pair.2.map Symbol.name,
          component.conflicts.map Diagnostic.code)) =
        [("b/x", [["a"]], ["DUPLICATE_EXPORT", "DUPLICATE_ROLE"]),
          ("c/y", [[]], ["PARSE_AMBIGUOUS"])] ∧
      ∀ component ∈ index.components, component.WellFormed := by
  obtain ⟨index, indexed, -, formed⟩ :=
    ofSources_wellFormed .storesOnly Source.contested (by decide)
  have inOrder : Index.ofSources .storesOnly Source.contested = .ok _ :=
    Index.ofSources_of_inOrder (by decide) (by decide +kernel)
  obtain rfl := Except.ok.inj (indexed.symm.trans inOrder)
  exact ⟨_, indexed, by decide +kernel, formed⟩

end Concord
