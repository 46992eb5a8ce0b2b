import Formwright.Proofs.Form.Inspection

/-
  When statistics can be derived from a form. Types are always counted for a mapped form; what can
  fail is the reading of a grid position (`exists_collect_eq_ok`).
-/

namespace Formwright

/-- A value that is read as a grid position: one that is not given, or a text whose row number does
not have more digits than an integer may have. -/
def Grid.Readable (v : Value) : Prop :=
  v.isGiven = true → ∃ s, v = .text s ∧
    ∀ digits column, shape? (Text.stripChars s.toList) = some (digits, column) →
      digits.length ≤ maxIntegerDigits

theorem Grid.exists_parse_eq_ok {s : String} :
    (∃ p, parse s = .ok p) ↔ ∀ digits column,
      shape? (Text.stripChars s.toList) = some (digits, column) →
        digits.length ≤ maxIntegerDigits := by
  unfold parse
  cases shape? (Text.stripChars s.toList) with
  | none => simp
  | some shape =>
    obtain ⟨digits, column⟩ := shape
    by_cases h : maxIntegerDigits < digits.length
    · simp only [h, if_true]
      constructor
      · rintro ⟨p, hp⟩
        cases hp
      · intro hdigits
        have := hdigits digits column rfl
        omega
    · simp only [h, if_false]
      constructor
      · intro _ d c hd
        obtain ⟨rfl, rfl⟩ := Prod.mk.inj (Option.some.inj hd)
        omega
      · exact fun _ => ⟨_, rfl⟩

theorem Grid.exists_parseValue_eq_ok {v : Value} : (∃ p, parseValue v = .ok p) ↔ Readable v := by
  unfold parseValue Readable
  by_cases h : v.isGiven = true
  · rw [if_pos h]
    cases v <;> simp [h, exists_parse_eq_ok]
  · simp [h]

/-- A text that is no longer than a row number may be is read. -/
theorem Grid.readable_text {s : String} (h : s.length ≤ maxIntegerDigits) : Readable (.text s) := by
  refine fun _ => ⟨s, rfl, fun digits column hshape => ?_⟩
  have hstrip : (Text.stripChars s.toList).length ≤ s.length := by
    rw [← String.length_toList, Text.stripChars, List.length_reverse]
    refine Nat.le_trans (List.dropWhile_sublist _).length_le ?_
    rw [List.length_reverse]
    exact (List.dropWhile_sublist _).length_le
  have hdigits : digits.length ≤ (Text.stripChars s.toList).length := by
    unfold shape? at hshape
    dsimp only at hshape
    split at hshape
    · split at hshape
      · obtain ⟨rfl, rfl⟩ := Prod.mk.inj (Option.some.inj hshape)
        exact (List.takeWhile_sublist _).length_le
      · cases hshape
    · cases hshape
  omega

namespace Statistics

/-- The rows of a view can be counted when every position in it can be read. -/
theorem exists_rowCount_eq_ok {v : Form.View} :
    (∃ n, rowCount v = .ok n) ↔ ∀ c ∈ v.controls, Grid.Readable c.gridPosition := by
  unfold rowCount
  rw [exists_bind_pure_eq_ok, exists_mapM_eq_ok]
  simp only [Grid.exists_parseValue_eq_ok]

theorem exists_key?_sourceKey {v : Value} (h : v.kind = .text ∨ v.kind = .bytes) :
    ∃ k, (sourceKey v).key? = some k := by
  unfold sourceKey Value.orElse
  split
  · cases v <;> simp [Value.kind] at h <;> exact ⟨_, rfl⟩
  · exact ⟨_, rfl⟩

/-- A view of mapped controls adds to the counts when every position in it can be read. -/
theorem exists_collectView_eq_ok {v : Form.View} (hv : ∀ c ∈ v.controls, c.Mapped)
    (acc : Nat × Tally × Tally) :
    (∃ acc', collectView acc v = .ok acc') ↔ ∀ c ∈ v.controls, Grid.Readable c.gridPosition := by
  obtain ⟨sources, hsources⟩ : ∃ t,
      (v.controls.map fun c => sourceKey c.sourceType).foldlM Tally.add acc.2.1 = .ok t := by
    refine (exists_foldlM_eq_ok fun t k _ => Tally.exists_add_eq_ok t k).mpr fun k hk => ?_
    obtain ⟨c, hc, rfl⟩ := List.mem_map.mp hk
    obtain ⟨k, hk⟩ := exists_key?_sourceKey (hv c hc).sourceType
    exact Value.unhashable?_of_key? _ hk
  obtain ⟨types, htypes⟩ : ∃ t,
      (v.controls.map fun c => Value.text c.type.name).foldlM Tally.add acc.2.2 = .ok t := by
    refine (exists_foldlM_eq_ok fun t k _ => Tally.exists_add_eq_ok t k).mpr fun k hk => ?_
    obtain ⟨c, hc, rfl⟩ := List.mem_map.mp hk
    rfl
  rw [← exists_rowCount_eq_ok]
  unfold collectView
  constructor
  · rintro ⟨acc', h⟩
    obtain ⟨n, hn, -⟩ := bind_eq_ok.mp h
    exact ⟨n, hn⟩
  · rintro ⟨n, hn⟩
    rw [hn, ok_bind, hsources, ok_bind, htypes, ok_bind]
    exact ⟨_, rfl⟩

/-- Statistics are derived from a mapped form when every grid position in it can be read. -/
theorem exists_collect_eq_ok {f : Form} (hf : ∀ c ∈ f.allControls, c.Mapped) :
    (∃ s, collect f = .ok s) ↔ ∀ c ∈ f.allControls, Grid.Readable c.gridPosition := by
  have hviews : ∀ v ∈ f.views, ∀ c ∈ v.controls, c.Mapped := fun v hv c hc =>
    hf c (List.mem_flatMap.mpr ⟨v, hv, hc⟩)
  have hcounts : (∃ acc, f.views.foldlM collectView (0, [], []) = .ok acc) ↔
      ∀ v ∈ f.views, ∀ c ∈ v.controls, Grid.Readable c.gridPosition :=
    exists_foldlM_eq_ok fun acc v hv => exists_collectView_eq_ok (hviews v hv) acc
  unfold collect
  rw [exists_bind_pure_eq_ok, hcounts]
  constructor
  · intro h c hc
    obtain ⟨v, hv, hcv⟩ := List.mem_flatMap.mp hc
    exact h v hv c hcv
  · intro h v hv c hc
    exact h c (List.mem_flatMap.mpr ⟨v, hv, hc⟩)

end Statistics

end Formwright
