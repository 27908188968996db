import LayerPlayback.Proofs.Text.UpperCase

namespace LayerPlayback.UpperCase

/-!
# Upper case is settled

A character in upper case stays as it is.  No form that upper case gives a code point has
another one itself: the ranges of forms in the tables avoid the ranges that have forms,
either as a whole or, where the two alternate, code point by code point.
-/

namespace CaseRange

/-- The range of the upper-case forms. -/
def upper (range : CaseRange) : CaseRange where
  first := (range.first + range.shift).toNat
  last := (range.last + range.shift).toNat
  stride := range.stride
  shift := 0

/-- A range of one code point. -/
def single (code : Nat) : CaseRange :=
  ⟨code, code, 1, 0⟩

/-- Whether two ranges are told apart by their ends or by the remainders of their strides. -/
def avoids (range other : CaseRange) : Bool :=
  range.last.blt other.first || other.last.blt range.first
    || (range.first = range.last || range.stride = other.stride)
      && range.first % other.stride ≠ other.first % other.stride

/-- A range covers the code points between its ends that its stride meets. -/
theorem covers_iff {range : CaseRange} {code : Nat} :
    range.covers code = true ↔
      range.first ≤ code ∧ code ≤ range.last ∧ (code - range.first) % range.stride = 0 := by
  simp only [covers, Bool.and_eq_true, decide_eq_true_eq, and_assoc]

theorem covers_single (code : Nat) : (single code).covers code = true :=
  covers_iff.mpr ⟨Nat.le_refl code, Nat.le_refl code, Nat.mod_one _⟩

theorem mod_stride_of_covers {range : CaseRange} {code : Nat} (covered : range.covers code = true) :
    code % range.stride = range.first % range.stride := by
  obtain ⟨atLeast, -, steps⟩ := covers_iff.mp covered
  obtain ⟨count, isCount⟩ := Nat.dvd_of_mod_eq_zero steps
  obtain rfl : code = range.first + range.stride * count := by omega
  exact Nat.add_mul_mod_self_left _ _ _

/-- The form of a code point in a range is in the range of the forms. -/
theorem covers_upper
    {range : CaseRange}
    {code : Nat}
    (nonneg : 0 ≤ range.first + range.shift)
    (covered : range.covers code = true) :
    range.upper.covers (code + range.shift).toNat = true := by
  obtain ⟨atLeast, atMost, steps⟩ := covers_iff.mp covered
  have same :
      (code + range.shift).toNat - (range.first + range.shift).toNat = code - range.first := by
    omega
  refine covers_iff.mpr ⟨?_, ?_, same ▸ steps⟩
  · change (range.first + range.shift).toNat ≤ (code + range.shift).toNat
    omega
  · change (code + range.shift).toNat ≤ (range.last + range.shift).toNat
    omega

/-- Ranges that are told apart have no code point in common. -/
theorem not_covers_of_avoids
    {range other : CaseRange}
    {code : Nat}
    (apart : range.avoids other = true)
    (covered : range.covers code = true) :
    other.covers code = false := by
  rw [Bool.eq_false_iff]
  intro otherCovered
  obtain ⟨atLeast, atMost, -⟩ := covers_iff.mp covered
  obtain ⟨otherAtLeast, otherAtMost, -⟩ := covers_iff.mp otherCovered
  have otherRemainder := mod_stride_of_covers otherCovered
  simp only [avoids, Bool.or_eq_true, Bool.and_eq_true, decide_eq_true_eq, Nat.blt_eq] at apart
  rcases apart with (below | above) | ⟨single | sameStride, different⟩
  · omega
  · omega
  · obtain rfl : code = range.first := by omega
    exact different otherRemainder
  · have remainder := mod_stride_of_covers covered
    rw [sameStride] at remainder
    exact different (remainder.symm.trans otherRemainder)

end CaseRange

/-! ## Forms and sources -/

/-- The small letters of ASCII. -/
def smallLetters : CaseRange :=
  ⟨0x61, 0x7A, 1, -32⟩

/-- The code points that have an upper-case form other than themselves. -/
def sources : List CaseRange :=
  smallLetters :: (ranges ++ expansions.map fun entry => .single entry.1)

/-- The code points that are in such forms, beyond those of small ASCII letters. -/
def forms : List CaseRange :=
  ranges.map CaseRange.upper ++ (expansions.flatMap Prod.snd).map .single

/-- No range of forms meets a range that has forms; the tables are compared range by range. -/
theorem forms_avoid_sources :
    forms.all (fun form => sources.all form.avoids) = true := by
  decide +kernel

/-- What is not in the tables stays as it is. -/
theorem codes_of_not_covers
    {code : Nat}
    (settled : ∀ source ∈ sources, source.covers code = false) :
    codes code = [code] := by
  have noExpansion : expansions.lookup code = none := by
    refine List.lookup_eq_none_iff.mpr fun entry member => ?_
    rw [bne_iff_ne]
    rintro rfl
    have covered := settled (.single entry.1)
      (List.mem_cons_of_mem _ (List.mem_append_right _ (List.mem_map_of_mem member)))
    rw [CaseRange.covers_single] at covered
    cases covered
  have noRange : ranges.find? (fun range => range.covers code) = none := by
    refine List.find?_eq_none.mpr fun range member => ?_
    have notCovered :=
      settled range (List.mem_cons_of_mem _ (List.mem_append_left _ member))
    rw [notCovered]
    exact Bool.false_ne_true
  rw [codes, noExpansion, Option.getD_none, simple, noRange]

/-- A character in none of the ranges stays as it is. -/
theorem ofCharacter_of_not_covers
    {character : Char}
    (settled : ∀ source ∈ sources, source.covers character.toNat = false) :
    ofCharacter character = [character] := by
  by_cases ascii : character.toNat < 0x80
  · have unchanged :=
      forall_ascii
        (fun character =>
          smallLetters.covers character.toNat = false → ofCharacter character = [character])
        (by decide +kernel) ascii
    exact unchanged (settled smallLetters List.mem_cons_self)
  · rw [ofCharacter, if_neg ascii, codes_of_not_covers settled, List.map_singleton,
      Char.ofNat_toNat]

/-- Whatever has a form other than itself has one of the forms in the tables. -/
theorem codes_eq_or_exists_form {code upper : Nat} (member : upper ∈ codes code) :
    codes code = [code] ∨ ∃ form ∈ forms, form.covers upper = true := by
  have nonneg : ∀ range ∈ ranges, (0 : Int) ≤ range.first + range.shift := by decide +kernel
  unfold codes at member ⊢
  cases found : expansions.lookup code with
  | some expansion =>
      rw [found] at member
      obtain ⟨before, after, shape, -⟩ := List.lookup_eq_some_iff.mp found
      have isEntry : (code, expansion) ∈ expansions := by
        rw [shape]
        exact List.mem_append_right _ List.mem_cons_self
      have isForm : upper ∈ expansions.flatMap Prod.snd :=
        List.mem_flatMap.mpr ⟨_, isEntry, member⟩
      exact .inr ⟨_, List.mem_append_right _ (List.mem_map_of_mem isForm),
        CaseRange.covers_single upper⟩
  | none =>
      rw [found] at member
      obtain rfl := List.mem_singleton.mp member
      rw [Option.getD_none]
      unfold simple
      split
      · next range isRange =>
          have isOne := List.mem_of_find?_eq_some isRange
          have covered := List.find?_some isRange
          exact .inr ⟨_, List.mem_append_left _ (List.mem_map_of_mem isOne),
            CaseRange.covers_upper (nonneg range isOne) covered⟩
      · exact .inl rfl

/-! ## Settled characters -/

/-- A character of an upper-case form is its own upper-case form. -/
theorem ofCharacter_of_mem
    {upper character : Char}
    (member : upper ∈ ofCharacter character) :
    ofCharacter upper = [upper] := by
  by_cases ascii : character.toNat < 0x80
  · rw [ofCharacter, if_pos ascii, List.mem_singleton] at member
    subst member
    exact forall_ascii
      (fun character => ofCharacter character.toUpper = [character.toUpper])
      (by decide +kernel) ascii
  · rw [ofCharacter, if_neg ascii] at member
    obtain ⟨code, isCode, rfl⟩ := List.mem_map.mp member
    rcases codes_eq_or_exists_form isCode with unchanged | ⟨form, isForm, covered⟩
    · rw [unchanged, List.mem_singleton] at isCode
      rw [isCode, Char.ofNat_toNat, ofCharacter, if_neg ascii, unchanged, List.map_singleton,
        Char.ofNat_toNat]
    · have apart := List.all_eq_true.mp (List.all_eq_true.mp forms_avoid_sources form isForm)
      have settled : ∀ source ∈ sources, source.covers code = false :=
        fun source isSource => CaseRange.not_covers_of_avoids (apart source isSource) covered
      by_cases valid : code.isValidChar
      · refine ofCharacter_of_not_covers ?_
        rwa [Char.toNat_ofNat, if_pos valid]
      · have isNull : Char.ofNat code = Char.ofNat 0 := by
          rw [Char.ofNat, dif_neg valid]
          rfl
        rw [isNull]
        rfl

end LayerPlayback.UpperCase
