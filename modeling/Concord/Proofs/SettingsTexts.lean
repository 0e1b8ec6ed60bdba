import Concord.Proofs.JsonValues
import Concord.Settings.Reader
import Mathlib.Data.List.Nodup

/-!
Settings as JSON. The fields of settings may be written in any order, some of them left out, with
any space and among members of other names: they are read as the settings that have the written
values in the written fields and the defaults in the others. In particular settings are read back
from the text that is written for them.
-/
namespace Concord

open Json

/-! Tables by role -/

theorem RoleMap.foldl_toList {α : Type} (map : RoleMap α) :
    map.toList.foldl (fun map entry => map.insert entry.1 entry.2) {} = map := by
  obtain ⟨store, handlers, view, impl, unknown⟩ := map
  cases store <;> cases handlers <;> cases view <;> cases impl <;> cases unknown <;> rfl

namespace Settings

section

variable {α : Type} {value : List Char → Except Problem (α × List Char)}

/-- The reader of one entry of a table, from behind its name. -/
def roleEntry (value : List Char → Except Problem (α × List Char)) (map : RoleMap α)
    (name : String) (text : List Char) : Except Problem (RoleMap α × List Char) :=
  match Role.ofLabel? name with
  | none => .error .mismatch
  | some role => do
    let (entry, rest) ← value (← colon text)
    return (map.insert role entry, rest)

theorem readRoleMap_open {space : List Char} (spaced : IsSpaced space) (rest : List Char) :
    readRoleMap value (space ++ '\x7b' :: rest)
      = fields (roleEntry value) (rest.length + 1) true {} rest := by
  rw [readRoleMap, skipSpace_spaced spaced, skipSpace_shown (by decide)]
  rfl

theorem fills_roleEntry {role : Role} {entry : α} {text : List Char}
    (reads : ReadsAs value text entry) (map : RoleMap α) :
    Fills (roleEntry value) map (.compact role.label text) (map.insert role entry) where
  spaced := Member.spaced_compact _ _
  reads := by
    refine ⟨role.label, Member.spells_compact _ _, fun rest ends => ?_⟩
    have named : colon (':' :: (text ++ rest)) = .ok (text ++ rest) :=
      colon_spaced isSpaced_nil _
    simp only [roleEntry, Role.ofLabel?_label, Member.compact, List.nil_append, named, bind,
      Except.bind, reads.bare ends, pure, Except.pure]

theorem fillsAll_roleEntry {write : α → Value}
    (reads : ∀ entry, ReadsAs value (write entry).render entry) (entries : List (Role × α)) :
    ∀ map : RoleMap α, FillsAll (roleEntry value) map
      (entries.map fun entry => .compact entry.1.label (write entry.2).render)
      (entries.foldl (fun map entry => map.insert entry.1 entry.2) map) := by
  induction entries with
  | nil => exact fun map => .nil
  | cons entry entries ih => exact fun map => .cons (fills_roleEntry (reads entry.2) map) (ih _)

/-- A table is read back from the object of its entries. -/
theorem readRoleMap_render {write : α → Value}
    (reads : ∀ entry, ReadsAs value (write entry).render entry) (map : RoleMap α) :
    ReadsAs (readRoleMap value)
      (Value.object (map.toList.map fun (role, entry) => (role.label, write entry))).render
      map where
  opens := ⟨'\x7b', _, rfl, by decide, by decide, by decide⟩
  reads := by
    intro space rest spaced _
    have all := fillsAll_roleEntry reads map.toList {}
    rw [RoleMap.foldl_toList] at all
    have members : (map.toList.map fun (role, entry) => (role.label, write entry)).map
        (fun field => Member.compact field.1 field.2.render)
        = map.toList.map fun entry => .compact entry.1.label (write entry.2).render := by
      rw [List.map_map]
      rfl
    rw [render_object, members, List.cons_append, readRoleMap_open spaced, List.append_assoc]
    exact fields_commaSeparated all isSpaced_nil rest

end

/-! Fields -/

/-- The draft that has the values of `settings` in the given fields and no others. -/
def Draft.holding (settings : Settings) (given : List Field) : Draft where
  roleSuffixes := if .roleSuffixes ∈ given then some settings.roleSuffixes else none
  namingConventions := if .namingConventions ∈ given then some settings.namingConventions else none
  treatWarningsAsErrors :=
    if .treatWarningsAsErrors ∈ given then some settings.treatWarningsAsErrors else none
  flagStrayFiles := if .flagStrayFiles ∈ given then some settings.flagStrayFiles else none
  extensions := if .extensions ∈ given then some settings.extensions else none
  storeHandle := if .storeHandle ∈ given then some settings.storeHandle else none
  viewRoot := if .viewRoot ∈ given then some settings.viewRoot else none
  projectionSymbol := if .projectionSymbol ∈ given then some settings.projectionSymbol else none

/-- The settings in the kept fields, and the defaults in the others. -/
def restrict (settings : Settings) (kept : List Field) : Settings :=
  let default : Settings := {}
  { roleSuffixes := if .roleSuffixes ∈ kept then settings.roleSuffixes else default.roleSuffixes
    namingConventions :=
      if .namingConventions ∈ kept then settings.namingConventions else default.namingConventions
    treatWarningsAsErrors :=
      if .treatWarningsAsErrors ∈ kept then settings.treatWarningsAsErrors
      else default.treatWarningsAsErrors
    flagStrayFiles :=
      if .flagStrayFiles ∈ kept then settings.flagStrayFiles else default.flagStrayFiles
    extensions := if .extensions ∈ kept then settings.extensions else default.extensions
    storeHandle := if .storeHandle ∈ kept then settings.storeHandle else default.storeHandle
    viewRoot := if .viewRoot ∈ kept then settings.viewRoot else default.viewRoot
    projectionSymbol :=
      if .projectionSymbol ∈ kept then settings.projectionSymbol else default.projectionSymbol }

theorem restrict_all (settings : Settings) : settings.restrict Field.all = settings :=
  rfl

theorem complete_holding (settings : Settings) (kept : List Field) :
    (Draft.holding settings kept).complete = settings.restrict kept := by
  have getD_ite {α : Type} (p : Prop) [Decidable p] (value default : α) :
      (if p then some value else none).getD default = if p then value else default := by
    split_ifs <;> rfl
  simp only [Draft.complete, Draft.holding, getD_ite, restrict]

theorem restrict_reverse (settings : Settings) (kept : List Field) :
    settings.restrict kept.reverse = settings.restrict kept := by
  simp only [restrict, List.mem_reverse]

theorem has_holding (settings : Settings) (given : List Field) (field : Field) :
    (Draft.holding settings given).has field = decide (field ∈ given) := by
  cases field <;> simp only [Draft.has, Draft.holding] <;> split_ifs <;> simp_all

/-- The written value of a field puts the field into the draft. -/
theorem readField_render (settings : Settings) (given : List Field) (field : Field)
    {space rest : List Char} (spaced : IsSpaced space) (ends : Ends rest) :
    readField (Draft.holding settings given) field
      (space ++ ((settings.fieldJson field).render ++ rest))
      = .ok (Draft.holding settings (field :: given), rest) := by
  -- one case for each field: its reader undoes its writer, and the draft takes the value in
  cases field with
  | roleSuffixes =>
    have read := (readRoleMap_render readStrings_render settings.roleSuffixes).reads _ _ spaced ends
    simp [readField, fieldJson, read, bind, Except.bind, pure, Except.pure, Draft.holding]
  | namingConventions =>
    have read :=
      (readRoleMap_render readString_render settings.namingConventions).reads _ _ spaced ends
    simp [readField, fieldJson, read, bind, Except.bind, pure, Except.pure, Draft.holding]
  | treatWarningsAsErrors =>
    have read := (readBool_render settings.treatWarningsAsErrors).reads _ _ spaced ends
    simp [readField, fieldJson, read, bind, Except.bind, pure, Except.pure, Draft.holding]
  | flagStrayFiles =>
    have read := (readBool_render settings.flagStrayFiles).reads _ _ spaced ends
    simp [readField, fieldJson, read, bind, Except.bind, pure, Except.pure, Draft.holding]
  | extensions =>
    have read := (readStrings_render settings.extensions).reads _ _ spaced ends
    simp [readField, fieldJson, read, bind, Except.bind, pure, Except.pure, Draft.holding]
  | storeHandle =>
    have read := (readString_render settings.storeHandle).reads _ _ spaced ends
    simp [readField, fieldJson, read, bind, Except.bind, pure, Except.pure, Draft.holding]
  | viewRoot =>
    have read := (readString_render settings.viewRoot).reads _ _ spaced ends
    simp [readField, fieldJson, read, bind, Except.bind, pure, Except.pure, Draft.holding]
  | projectionSymbol =>
    have read := (readString_render settings.projectionSymbol).reads _ _ spaced ends
    simp [readField, fieldJson, read, bind, Except.bind, pure, Except.pure, Draft.holding]

/-- What an object with settings may hold: the kept fields with their values in `settings`, and
members of other names with any values. -/
inductive Keeps (settings : Settings) : List Member → List Field → Prop where
  | nil : Keeps settings [] []
  | field {member : Member} {field : Field} {members : List Member} {kept : List Field} :
    member.Spaced → Spells member.name field.label.toList →
    member.value = (settings.fieldJson field).render → Keeps settings members kept →
      Keeps settings (member :: members) (field :: kept)
  | other {member : Member} {name : String} {members : List Member} {kept : List Field} :
    member.Spaced → Spells member.name name.toList → Field.ofLabel? name = none →
    IsValue member.value → Keeps settings members kept → Keeps settings (member :: members) kept

theorem Field.ofLabel?_label (field : Field) : ofLabel? field.label = some field := by
  cases field <;> decide

section

variable {settings : Settings} {member : Member} {given : List Field}

theorem fills_field {field : Field} (spaced : member.Spaced)
    (spells : Spells member.name field.label.toList)
    (value : member.value = (settings.fieldJson field).render) (fresh : field ∉ given) :
    Fills readNamed (.holding settings given) member (.holding settings (field :: given)) where
  spaced := spaced
  reads := by
    refine ⟨field.label, spells, fun rest ends => ?_⟩
    have read := readField_render settings given field spaced.beforeValue ends
    have notGiven : (Draft.holding settings given).has field = false := by
      simpa [has_holding] using fresh
    -- a field that was given before would be refused
    rw [readNamed, Field.ofLabel?_label, value]
    simp [notGiven, colon_spaced spaced.behindName, bind, Except.bind, read]

theorem fills_other {name : String} (spaced : member.Spaced)
    (spells : Spells member.name name.toList) (unknown : Field.ofLabel? name = none)
    (isValue : IsValue member.value) :
    Fills readNamed (.holding settings given) member (.holding settings given) where
  spaced := spaced
  reads := by
    refine ⟨name, spells, fun rest ends => ?_⟩
    rw [readNamed, unknown]
    simp [colon_spaced spaced.behindName, bind, Except.bind, pure, Except.pure,
      isValue.ignore spaced.beforeValue ends]

end

theorem Keeps.fillsAll {settings : Settings} {members : List Member} {kept : List Field}
    (keeps : Keeps settings members kept) :
    ∀ given, (kept.reverse ++ given).Nodup →
      FillsAll readNamed (.holding settings given) members
        (.holding settings (kept.reverse ++ given)) := by
  -- what is read last is put in front, so the kept fields stand in the draft the other way round
  induction keeps with
  | nil => exact fun given _ => .nil
  | @field member field members kept spaced spells value _ ih =>
    intro given nodup
    rw [List.reverse_cons, List.append_assoc, List.singleton_append] at nodup ⊢
    have fresh : field ∉ given := (List.nodup_cons.mp (List.nodup_append.mp nodup).2.1).1
    exact .cons (fills_field spaced spells value fresh) (ih (field :: given) nodup)
  | other spaced spells unknown isValue _ ih =>
    intro given nodup
    exact .cons (fills_other spaced spells unknown isValue) (ih given nodup)

/-- The members that are written for fields. -/
theorem keeps_compact (settings : Settings) (fields : List Field) :
    Keeps settings
      (fields.map fun field => .compact field.label (settings.fieldJson field).render) fields := by
  induction fields with
  | nil => exact .nil
  | cons field fields ih =>
    exact .field (Member.spaced_compact _ _) (Member.spells_compact _ _) rfl ih

theorem ofJson_keeps {settings : Settings} {members : List Member} {kept : List Field}
    (keeps : Keeps settings members kept) (nodup : kept.Nodup) {lead gap trail : List Char}
    (leadSpaced : IsSpaced lead) (gapSpaced : IsSpaced gap) (trailSpaced : IsSpaced trail) :
    ofJson (String.ofList (lead ++
      '\x7b' :: (commaSeparated (members.map Member.text) ++ (gap ++ '\x7d' :: trail))))
      = .ok (settings.restrict kept) := by
  have all := keeps.fillsAll [] (by simpa using List.nodup_reverse.mpr nodup)
  rw [List.append_nil] at all
  have read := fields_commaSeparated all gapSpaced trail
  have finished : finish trail = .ok () := by
    rw [finish, ← List.append_nil trail, skipSpace_spaced trailSpaced]
    rfl
  -- reading starts from a draft without fields, whatever the settings
  have start : Draft.holding settings [] = {} := rfl
  rw [start] at read
  rw [ofJson, String.toList_ofList, skipSpace_spaced leadSpaced, skipSpace_shown (by decide)]
  simp only [read, bind, Except.bind, finished, complete_holding, restrict_reverse]
  rfl

/-- Settings are read back from the text that is written for them. Where only some of the fields
are kept, in any order and among members of other names, they are read with the defaults in the
fields that were left out. -/
theorem ofJson_toJson (settings : Settings) :
    ofJson (String.ofList settings.toJson.render) = .ok settings
      ∧ ∀ (members : List Member) (kept : List Field) (lead gap trail : List Char),
        Keeps settings members kept → kept.Nodup → IsSpaced lead → IsSpaced gap →
        IsSpaced trail →
          ofJson (String.ofList (lead ++
            '\x7b' :: (commaSeparated (members.map Member.text) ++ (gap ++ '\x7d' :: trail))))
            = .ok (settings.restrict kept) := by
  constructor
  · have read := ofJson_keeps (keeps_compact settings Field.all) (by decide) isSpaced_nil
      isSpaced_nil isSpaced_nil
    rw [restrict_all] at read
    rw [toJson, render_object, List.map_map]
    exact read
  · intro members kept lead gap trail keeps nodup leadSpaced gapSpaced trailSpaced
    exact ofJson_keeps keeps nodup leadSpaced gapSpaced trailSpaced

theorem ofJson_toJson_viewRoot :
    ofJson "\x7b \"\\u0075\": [null ],\"viewRoot\":\"page\"\x7d" = .ok { viewRoot := "page" } := by
  let settings : Settings := { viewRoot := "page", storeHandle := "state" }
  have blank : IsSpaced [' '] := by simp [IsSpaced, isSpace]
  have array : IsValue ['[', 'n', 'u', 'l', 'l', ' ', ']'] := by
    refine @IsValue.array [⟨[], ['n', 'u', 'l', 'l'], [' ']⟩] [] ?_ ?_ isSpaced_nil
    · simpa using ⟨isSpaced_nil, blank⟩
    · simpa using IsValue.null
  -- the unknown name is written by the number of its letter
  have name : Spells ['\\', 'u', '0', '0', '7', '5'] (String.ofList ['u']).toList := by
    have digits : HexNumber ['0', '0', '7', '5'] 0x75 :=
      @HexNumber.digits '0' '0' '7' '5' 0 0 7 5 rfl rfl rfl rfl
    have letter := SpellsChar.number digits (by decide)
    rw [String.toList_ofList]
    exact .cons letter .nil
  have keeps : Keeps settings
      [⟨[' '], ['\\', 'u', '0', '0', '7', '5'], [], [' '], ['[', 'n', 'u', 'l', 'l', ' ', ']'], []⟩,
        .compact "viewRoot" (Json.Value.string "page").render] [.viewRoot] :=
    .other ⟨blank, isSpaced_nil, blank, isSpaced_nil⟩ name (by decide) array
      (keeps_compact settings [.viewRoot])
  have read := (ofJson_toJson settings).2 _ _ [] [] [] keeps (by decide) isSpaced_nil isSpaced_nil
    isSpaced_nil
  have kept : settings.restrict [.viewRoot] = { viewRoot := "page" } := rfl
  rw [kept] at read
  convert read using 2
  cbv

end Settings

end Concord
