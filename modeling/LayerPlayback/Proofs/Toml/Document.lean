import Mathlib.Data.List.Nodup
import LayerPlayback.Toml.Document

namespace LayerPlayback

/-!
# Documents of sections

A document that gives each section its header and its fields, with distinct names,
is the table of these sections.
-/

namespace TomlEntries

/-- A key that is not there yet is entered at the end. -/
theorem alter_of_not_mem
    {key : String}
    {entries : TomlEntries}
    (fresh : key ∉ entries.map Prod.fst)
    (change : Option TomlItem → Option TomlItem) :
    alter key change entries = (change none).map fun item => entries ++ [(key, item)] := by
  induction entries with
  | nil =>
      rw [alter]
      cases change none <;> rfl
  | cons first rest inductionHypothesis =>
      obtain ⟨other, held⟩ := first
      rw [List.map_cons, List.mem_cons, not_or] at fresh
      rw [alter, if_neg (Ne.symm fresh.1), inductionHypothesis fresh.2]
      cases change none <;> rfl

/-- The last entry is changed in its place when its key is nowhere else. -/
theorem alter_concat
    {key : String}
    {entries : TomlEntries}
    (fresh : key ∉ entries.map Prod.fst)
    (held : TomlItem)
    (change : Option TomlItem → Option TomlItem) :
    alter key change (entries ++ [(key, held)]) =
      (change (some held)).map fun item => entries ++ [(key, item)] := by
  induction entries with
  | nil =>
      rw [List.nil_append, alter, if_pos rfl]
      cases change (some held) <;> rfl
  | cons first rest inductionHypothesis =>
      obtain ⟨other, otherHeld⟩ := first
      rw [List.map_cons, List.mem_cons, not_or] at fresh
      rw [List.cons_append, alter, if_neg (Ne.symm fresh.1), inductionHypothesis fresh.2]
      cases change (some held) <;> rfl

/-- The entries of fields that are plain values. -/
def ofFields (fields : List (String × Toml)) : TomlEntries :=
  fields.map fun field => (field.1, .value field.2)

/-- The entries of sections with headers of their own. -/
def ofSections (sections : List (String × List (String × Toml))) : TomlEntries :=
  sections.map fun table => (table.1, .table .declared (ofFields table.2))

theorem keys_ofFields (fields : List (String × Toml)) :
    (ofFields fields).map Prod.fst = fields.map Prod.fst := by
  simp [ofFields]

theorem keys_ofSections (sections : List (String × List (String × Toml))) :
    (ofSections sections).map Prod.fst = sections.map Prod.fst := by
  simp [ofSections]

/-- Entries of plain fields are read as these fields. -/
theorem toValues_ofFields (fields : List (String × Toml)) :
    toValues (ofFields fields) = fields := by
  induction fields with
  | nil => rfl
  | cons first rest inductionHypothesis =>
      exact congrArg (first :: ·) inductionHypothesis

/-- Entries of sections are read as tables, each with its own fields. -/
theorem toValues_ofSections (sections : List (String × List (String × Toml))) :
    toValues (ofSections sections) =
      sections.map fun table => (table.1, .table table.2) := by
  induction sections with
  | nil => rfl
  | cons first rest inductionHypothesis =>
      have entries := toValues_ofFields first.2
      change (first.1, Toml.table (toValues (ofFields first.2))) :: toValues (ofSections rest) = _
      rw [entries, inductionHypothesis, List.map_cons]

end TomlEntries

namespace TomlDocument

open TomlEntries

/-- The statements of a section: its header and an assignment for each field. -/
def sectionStatements (table : String × List (String × Toml)) : List TomlStatement :=
  .header [] table.1 :: table.2.map fun field => .assign [] field.1 field.2

variable {sections : List (String × List (String × Toml))} {name : String}

/-- A header with a new name opens an empty section. -/
theorem add_header
    (fresh : name ∉ sections.map Prod.fst)
    (current : List String) :
    add ⟨ofSections sections, current⟩ (.header [] name) =
      some ⟨ofSections (sections ++ [(name, [])]), [name]⟩ := by
  have declared :
      declare name (ofSections sections) = some (ofSections (sections ++ [(name, [])])) := by
    rw [declare, alter_of_not_mem (by rwa [keys_ofSections])]
    simp [ofSections, ofFields]
  change ((declare name (ofSections sections)).bind fun root =>
    some (⟨root, [] ++ [name]⟩ : TomlDocument)) = _
  rw [declared]
  rfl

/-- A field with a new key is added to the last section. -/
theorem add_assign
    (fresh : name ∉ sections.map Prod.fst)
    {fields : List (String × Toml)}
    {key : String}
    (freshKey : key ∉ fields.map Prod.fst)
    (value : Toml) :
    add ⟨ofSections (sections ++ [(name, fields)]), [name]⟩ (.assign [] key value) =
      some ⟨ofSections (sections ++ [(name, fields ++ [(key, value)])]), [name]⟩ := by
  have put :
      putDotted [] key value .declared (ofFields fields) =
        some (ofFields (fields ++ [(key, value)])) := by
    have fits : (TableOrigin.declared = .dotted ↔ ([] : List String) ≠ []) := by decide
    change (if (TableOrigin.declared = .dotted ↔ ([] : List String) ≠ []) then
      TomlEntries.put key value (ofFields fields) else none) = _
    rw [if_pos fits, TomlEntries.put, alter_of_not_mem (by rwa [keys_ofFields])]
    simp [ofFields]
  have last :
      ofSections (sections ++ [(name, fields)]) =
        ofSections sections ++ [(name, .table .declared (ofFields fields))] := by
    simp [ofSections]
  have changed :
      descend false (putDotted [] key value) [name] .declared
          (ofSections (sections ++ [(name, fields)])) =
        some (ofSections (sections ++ [(name, fields ++ [(key, value)])])) := by
    rw [descend, last, alter_concat (by rwa [keys_ofSections])]
    simp [descend, put, ofSections]
  change ((descend false (putDotted [] key value) [name] .declared
    (ofSections (sections ++ [(name, fields)]))).bind fun root =>
      some (⟨root, [name]⟩ : TomlDocument)) = _
  rw [changed]
  rfl

/-- With distinct keys, an entry is new to what stands in front of it. -/
theorem fresh_of_nodup
    {α : Type}
    {earlier later : List (String × α)}
    {entry : String × α}
    (distinct : ((earlier ++ entry :: later).map Prod.fst).Nodup) :
    entry.1 ∉ earlier.map Prod.fst := by
  rw [List.map_append, List.map_cons] at distinct
  exact fun member => List.disjoint_of_nodup_append distinct member List.mem_cons_self

/-- The assignments below a header fill its section in order. -/
theorem foldlM_assign
    (fresh : name ∉ sections.map Prod.fst)
    {earlier fields : List (String × Toml)}
    (distinct : ((earlier ++ fields).map Prod.fst).Nodup) :
    (fields.map fun field => TomlStatement.assign [] field.1 field.2).foldlM add
        ⟨ofSections (sections ++ [(name, earlier)]), [name]⟩ =
      some ⟨ofSections (sections ++ [(name, earlier ++ fields)]), [name]⟩ := by
  induction fields generalizing earlier with
  | nil => rw [List.append_nil]; rfl
  | cons first rest inductionHypothesis =>
      have freshKey := fresh_of_nodup distinct
      rw [List.append_cons earlier first rest] at distinct ⊢
      rw [List.map_cons, List.foldlM_cons, add_assign fresh freshKey]
      exact inductionHypothesis distinct

/-- Headers open one section after the other, and none is opened twice. -/
theorem foldlM_sections
    {later : List (String × List (String × Toml))}
    (distinct : ((sections ++ later).map Prod.fst).Nodup)
    (distinctKeys : ∀ table ∈ later, (table.2.map Prod.fst).Nodup)
    (current : List String) :
    ∃ last,
      (later.flatMap sectionStatements).foldlM add ⟨ofSections sections, current⟩ =
        some ⟨ofSections (sections ++ later), last⟩ := by
  induction later generalizing sections current with
  | nil => exact ⟨current, by rw [List.append_nil]; rfl⟩
  | cons first rest inductionHypothesis =>
      obtain ⟨firstDistinct, restDistinct⟩ := List.forall_mem_cons.mp distinctKeys
      have fresh := fresh_of_nodup distinct
      rw [List.append_cons sections first rest] at distinct ⊢
      obtain ⟨last, read⟩ := inductionHypothesis distinct restDistinct [first.1]
      have fields := @foldlM_assign sections first.1 fresh [] first.2 firstDistinct
      refine ⟨last, ?_⟩
      rw [List.flatMap_cons, sectionStatements, List.cons_append, List.foldlM_cons,
        add_header fresh]
      change ((first.2.map fun field => TomlStatement.assign [] field.1 field.2)
        ++ rest.flatMap sectionStatements).foldlM add _ = _
      rw [List.foldlM_append, fields]
      exact read

/-- A document of sections with distinct names and keys is their table. -/
theorem value?_sections
    (distinct : (sections.map Prod.fst).Nodup)
    (distinctKeys : ∀ table ∈ sections, (table.2.map Prod.fst).Nodup) :
    value? (sections.flatMap sectionStatements) =
      some (.table (sections.map fun table => (table.1, .table table.2))) := by
  obtain ⟨last, read⟩ := @foldlM_sections [] sections distinct distinctKeys []
  rw [List.nil_append] at read
  rw [value?]
  change Option.map _ ((sections.flatMap sectionStatements).foldlM add ⟨ofSections [], []⟩) = _
  rw [read, Option.map_some, toValues_ofSections]

end TomlDocument

end LayerPlayback
