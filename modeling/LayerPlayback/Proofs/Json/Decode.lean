import LayerPlayback.Json.Decode
import LayerPlayback.Proofs.Json.RoundTrip

namespace LayerPlayback

/-!
# Typed JSON values are read back

An object with distinct keys gives the fields that its keys name, and every typed
value is read from the form that it is given.  Only a double that is not finite has
no number; null stands in for it and is not read as a double.
-/

/-- A double that is read back from its JSON number, if it has one. -/
def JsonNumber.ReadsBack (x : Float) : Prop :=
  x.isFinite = true → (ofFinite x).float? = some x

instance (x : Float) : Decidable (JsonNumber.ReadsBack x) :=
  inferInstanceAs (Decidable (x.isFinite = true → (JsonNumber.ofFinite x).float? = some x))

namespace Json

/-- With distinct keys, a key leads to its own field only. -/
theorem filter_key
    {fields : List (String × Json)}
    (distinct : (fields.map Prod.fst).Nodup)
    {field : String × Json}
    (member : field ∈ fields) :
    (fields.filter fun other => other.1 = field.1) = [field] := by
  induction fields with
  | nil => cases member
  | cons first rest inductionHypothesis =>
      obtain ⟨firstIsNew, restDistinct⟩ := List.nodup_cons.mp distinct
      rcases List.mem_cons.mp member with rfl | inRest
      · have noOther : (rest.filter fun other => other.1 = field.1) = [] := by
          rw [List.filter_eq_nil_iff]
          intro other inRest sameKey
          exact firstIsNew (of_decide_eq_true sameKey ▸ List.mem_map_of_mem inRest)
        rw [List.filter_cons_of_pos (by simp), noOther]
      · have otherKey : first.1 ≠ field.1 := by
          intro sameKey
          exact firstIsNew (sameKey ▸ List.mem_map_of_mem inRest)
        rw [List.filter_cons_of_neg (by simpa using otherKey),
          inductionHypothesis restDistinct inRest]

/-- A record is looked up by the names of its own fields when no name comes twice. -/
theorem named?_keys {fields : List (String × Json)} (distinct : (fields.map Prod.fst).Nodup) :
    named? (fields.map Prod.fst) fields = some (fields.map fun field => some field.2) := by
  -- The keys are looked up one after the other, always among all fields.
  have lookUp (part : List (String × Json)) (inFields : ∀ field ∈ part, field ∈ fields) :
      named? (part.map Prod.fst) fields = some (part.map fun field => some field.2) := by
    induction part with
    | nil => rfl
    | cons first rest inductionHypothesis =>
        obtain ⟨firstIn, restIn⟩ := List.forall_mem_cons.mp inFields
        have rest := inductionHypothesis restIn
        unfold named? at rest ⊢
        rw [List.map_cons, List.mapM_cons, filter_key distinct firstIn, rest]
        rfl
  exact lookUp fields fun _ member => member

@[simp] theorem char?_ofChar (character : Char) : (ofChar character).char? = some character := by
  simp [ofChar, char?, string?, onlyCharacter?]

/-- A natural number is read back below the limit of its reader. -/
theorem natural?_ofNat {value limit : Nat} (fits : value ≤ limit) :
    (JsonNumber.ofNat value).natural? limit = some value := by
  simp [JsonNumber.natural?, JsonNumber.ofNat, JsonNumber.isWhole,
    NumberText.digitsValue_naturalDigits, fits]

@[simp] theorem uint32?_ofNat (value : UInt32) : (ofNat value.toNat).uint32? = some value := by
  have fits : value.toNat ≤ UInt32.size - 1 := Nat.le_pred_of_lt value.toNat_lt
  rw [ofNat, uint32?, natural?_ofNat fits, Option.map_some]
  exact congrArg some UInt32.ofNat_toNat

/-- Only finite doubles come back; the others are written as null, which is no number. -/
theorem float?_ofFloat {x : Float} (readsBack : JsonNumber.ReadsBack x) :
    (ofFloat x).float? = if x.isFinite then some x else none := by
  unfold ofFloat
  by_cases finite : x.isFinite = true
  · rw [if_pos finite, if_pos finite]
    exact readsBack finite
  · rw [if_neg finite, if_neg finite]
    rfl

/-- A list is read when all of its values are, each from its own form. -/
theorem list?_ofList
    {α : Type}
    {encode : α → Json}
    {decode? : Json → Option α}
    {values : List α}
    (isRead : α → Bool)
    (reads : ∀ value ∈ values, decode? (encode value) = if isRead value then some value else none) :
    (ofList encode values).list? decode? = if values.all isRead then some values else none := by
  change (values.map encode).mapM decode? = _
  induction values with
  | nil => rfl
  | cons value rest inductionHypothesis =>
      obtain ⟨first, others⟩ := List.forall_mem_cons.mp reads
      rw [List.map_cons, List.mapM_cons, first, inductionHypothesis others, List.all_cons]
      cases isRead value with
      | false => rfl
      | true => cases rest.all isRead <;> rfl

/-- A list is read back when each of its items is. -/
theorem list?_ofList_of_forall
    {α : Type}
    {encode : α → Json}
    {decode? : Json → Option α}
    {values : List α}
    (reads : ∀ value ∈ values, decode? (encode value) = some value) :
    (ofList encode values).list? decode? = some values := by
  rw [list?_ofList (fun _ => true) reads, if_pos (List.all_eq_true.mpr fun _ _ => rfl)]

/-- A record is read by the names of its fields. -/
theorem record?_object {fields : List (String × Json)} (distinct : (fields.map Prod.fst).Nodup) :
    (object fields).record? (fields.map Prod.fst) = some (fields.map fun field => some field.2) :=
  named?_keys distinct

theorem isWritable_ofList
    {α : Type}
    {encode : α → Json}
    {values : List α}
    (writable : ∀ value ∈ values, (encode value).IsWritable) :
    (ofList encode values).IsWritable := by
  induction values with
  | nil => trivial
  | cons value rest inductionHypothesis =>
      obtain ⟨first, others⟩ := List.forall_mem_cons.mp writable
      exact ⟨first, inductionHypothesis others⟩

/-- A double is written as a number with digits, or as null. -/
theorem isWritable_ofFloat (x : Float) : (ofFloat x).IsWritable := by
  unfold ofFloat
  split
  · exact JsonNumber.isWellFormed_ofFinite x
  · trivial

end Json

end LayerPlayback
