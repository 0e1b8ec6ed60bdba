import Concord.Proofs.JsonNumbers

/-!
Readers of records, variants and optional values: each field that is written for a record goes
into its place in the draft, and a record is read once its draft is complete.
-/
namespace Concord.Json

section

variable {α : Type} {read : List Char → Except Problem (α × List Char)} {text : List Char}
  {value : α}

/-- A value that does not start like null is read as itself where it may be missing. -/
theorem ReadsAs.optional (reads : ReadsAs read text value) (shown : text.head? ≠ some 'n') :
    ReadsAs (readOptional read) text (some value) where
  opens := reads.opens
  reads := by
    intro space rest spaced ends
    have bare := reads.bare ends
    rw [readOptional, skipSpace_opens spaced reads.opens]
    -- the reader looks for null at the first character
    obtain ⟨c, more, rfl, -⟩ := reads.opens
    have noNull : c ≠ 'n' := by simpa using shown
    split
    · next same => exact absurd (List.cons.inj same).1 noNull
    · simp only [bare, bind, Except.bind, pure, Except.pure]

/-- A variant is read from its name. -/
theorem readVariant_render {ofLabel? : String → Option α} {label : String}
    (named : ofLabel? label = some value) :
    ReadsAs (readVariant ofLabel?) (Value.string label).render value where
  opens := (readString_render label).opens
  reads := by
    intro space rest spaced ends
    have bare := (readString_render label).bare ends
    have quoted : (Value.string label).render ++ rest
        = '\x22' :: ((label.toList.flatMap escape ++ ['\x22']) ++ rest) := rfl
    rw [quoted] at bare
    rw [readVariant, skipSpace_opens spaced (readString_render label).opens, quoted]
    simp only [bare, bind, Except.bind, named, pure, Except.pure]

end

section

variable {α β δ : Type} {readers : List (FieldReader δ)}

/-- A field of which the draft has nothing yet is put into it. -/
theorem fills_of {name : String} {get : δ → Option β} {set : δ → β → δ}
    {read : List Char → Except Problem (β × List Char)} {draft : δ} {text : List Char} {value : β}
    (found : readers.find? (fun reader => reader.name = name) = some (.of name get set read))
    (fresh : get draft = none) (reads : ReadsAs read text value) :
    Fills (readMember readers) draft (.compact name text) (set draft value) where
  spaced := Member.spaced_compact name text
  reads := by
    refine ⟨name, Member.spells_compact name text, fun rest ends => ?_⟩
    have named : colon (':' :: (text ++ rest)) = .ok (text ++ rest) :=
      colon_spaced isSpaced_nil _
    simp only [readMember, found, FieldReader.of, fresh, Member.compact, List.nil_append, named,
      bind, Except.bind, reads.bare ends, pure, Except.pure]
    rfl

/-- A record is read from the object of its fields. -/
theorem readRecord_render {fields : List (String × Value)} {empty draft : δ}
    {complete? : δ → Option α} {value : α}
    (all : FillsAll (readMember readers) empty
      (fields.map fun field => .compact field.1 field.2.render) draft)
    (complete : complete? draft = some value) :
    ReadsAs (readRecord readers empty complete?) (Value.object fields).render value where
  opens := ⟨'\x7b', _, rfl, by decide, by decide, by decide⟩
  reads := by
    intro space rest spaced _
    have read := fields_commaSeparated all isSpaced_nil rest
    rw [render_object, List.cons_append, List.append_assoc, readRecord, skipSpace_spaced spaced,
      skipSpace_shown (by decide)]
    simp only [List.singleton_append]
    simp only [List.nil_append] at read
    simp only [read, bind, Except.bind, complete, pure, Except.pure]

end

end Concord.Json
