import Formwright.Analysis.Reader
import Formwright.Proofs.Success
import Formwright.Proofs.Value.Texts
import Mathlib.Data.List.Find
import Mathlib.Data.List.Nodup

/-
  The schema of analysis documents: which mappings a document is made of, which fields each of them
  has, and which of these hold mappings again or lists of them. A field is looked up in two
  spellings (`held`), of which the snake one wins. No two fields of one mapping share a spelling
  (`Part.eq_of_spells`), so a key belongs to one field at most; and where no field is held twice, its
  value is that of the only entry that spells it (`held_eq_find?`). Where a field is held in both
  spellings the Pascal one is overruled, and the deciding entries are what a reader sees
  (`held_eq_find?_deciding`).
-/

namespace Formwright.Source

/-- The kinds of mappings in the document of an analysis. -/
inductive Part where
  | analysis | definition | metadata | view | control | choice | viewSection | column
  | dynamicSection | message
  deriving DecidableEq

/-- What a field holds: a value that is taken as it comes, a mapping, or a list of mappings. -/
inductive Content where
  | plain
  | record (part : Part)
  | records (part : Part)
  deriving DecidableEq

/-- The fields of a mapping by their names in snake case. -/
def Part.fields : Part → List (String × Content)
  | analysis => [("form_name", .plain), ("form_type", .plain), ("analyzer_used", .plain),
      ("form_definition", .record definition), ("messages", .records message)]
  | definition => [("file_name", .plain), ("views", .records view), ("data", .records column),
      ("dynamic_sections", .records dynamicSection), ("metadata", .record metadata)]
  | metadata => [("total_controls", .plain), ("total_sections", .plain),
      ("dynamic_section_count", .plain), ("repeating_section_count", .plain),
      ("conditional_fields", .plain)]
  | view => [("view_name", .plain), ("controls", .records control), ("sections", .records viewSection)]
  | control => [("name", .plain), ("type", .plain), ("label", .plain), ("binding", .plain),
      ("grid_position", .plain), ("is_in_repeating_section", .plain),
      ("repeating_section_name", .plain), ("repeating_section_binding", .plain),
      ("properties", .plain), ("controls", .records control), ("data_options", .records choice)]
  | choice => [("value", .plain), ("display_text", .plain), ("is_default", .plain), ("order", .plain)]
  | viewSection => [("name", .plain), ("type", .plain), ("ctrl_id", .plain), ("start_row", .plain),
      ("end_row", .plain), ("control_ids", .plain)]
  | column => [("column_name", .plain), ("type", .plain), ("data_type", .plain),
      ("display_name", .plain), ("repeating_section", .plain), ("is_repeating", .plain),
      ("is_conditional", .plain), ("conditional_on_field", .plain), ("valid_values", .records choice),
      ("default_value", .plain)]
  | dynamicSection => [("mode", .plain), ("ctrl_id", .plain), ("caption", .plain),
      ("condition", .plain), ("condition_field", .plain), ("condition_value", .plain),
      ("controls", .plain), ("is_visible", .plain)]
  | message => [("severity", .plain), ("message", .plain), ("details", .plain), ("source", .plain)]

/-! ## Spellings -/

/-- Whether a key is the name of a field in snake case or in Pascal case. -/
def spells (field : String) (key : Value) : Bool :=
  key.same (.text field) || key.same (.text (pascal field))

theorem spells_iff {field : String} {key : Value} :
    spells field key = true ↔ key = .text field ∨ key = .text (pascal field) := by
  rw [spells, Bool.or_eq_true, Value.same_text_right, Value.same_text_right]

/-- All spellings of all fields of a mapping are distinct. -/
theorem Part.nodup_spellings (p : Part) :
    (p.fields.map (·.1) ++ p.fields.map (pascal ·.1)).Nodup := by
  cases p <;> decide +kernel

theorem Part.eq_of_mem_fields {p : Part} {f : String} {c d : Content} (hc : (f, c) ∈ p.fields)
    (hd : (f, d) ∈ p.fields) : c = d := by
  have hnodup := (List.nodup_append.mp p.nodup_spellings).1
  exact congrArg Prod.snd (List.inj_on_of_nodup_map hnodup hc hd rfl)

/-- A key spells one field of a mapping at most. -/
theorem Part.eq_of_spells {p : Part} {f g : String} {c d : Content} (hf : (f, c) ∈ p.fields)
    (hg : (g, d) ∈ p.fields) {k : Value} (hkf : spells f k = true) (hkg : spells g k = true) :
    f = g := by
  obtain ⟨hsnake, hpascal, hapart⟩ := List.nodup_append.mp p.nodup_spellings
  have hmem : ∀ {f c}, (f, c) ∈ p.fields → f ∈ p.fields.map (·.1) := fun h =>
    List.mem_map.mpr ⟨_, h, rfl⟩
  have hmemPascal : ∀ {f c}, (f, c) ∈ p.fields → pascal f ∈ p.fields.map (pascal ·.1) := fun h =>
    List.mem_map.mpr ⟨_, h, rfl⟩
  rcases spells_iff.mp hkf with rfl | rfl <;> rcases spells_iff.mp hkg with h | h <;>
    have h := Value.text.inj h
  · exact h
  · exact absurd h (hapart _ (hmem hf) _ (hmemPascal hg))
  · exact absurd h.symm (hapart _ (hmem hg) _ (hmemPascal hf))
  · exact congrArg Prod.fst (List.inj_on_of_nodup_map hpascal hf hg h)

/-- What the value under a key of a mapping is: any value unless the key spells a field. -/
def Part.contentOf (p : Part) (key : Value) : Content :=
  ((p.fields.find? fun f => spells f.1 key).map (·.2)).getD .plain

theorem Part.contentOf_eq {p : Part} {f : String} {c : Content} (hf : (f, c) ∈ p.fields) {k : Value}
    (hk : spells f k = true) : p.contentOf k = c := by
  unfold Part.contentOf
  cases hfind : p.fields.find? fun g => spells g.1 k with
  | none => exact absurd hk (List.find?_eq_none.mp hfind (f, c) hf)
  | some g =>
    have hg := List.mem_of_find?_eq_some hfind
    have hspells : spells g.1 k = true := by simpa using List.find?_some hfind
    obtain rfl := Part.eq_of_spells hf hg hk hspells
    exact Part.eq_of_mem_fields hg hf

/-! ## What is held under a field -/

/-- The value of a field: that under its name, else that under its Pascal spelling. -/
def held (es : List (Value × Value)) (field : String) : Option Value :=
  (Value.member? es field).or (Value.member? es (pascal field))

theorem isSome_member? (es : List (Value × Value)) (name : String) :
    (Value.member? es name).isSome = es.any fun e => e.1.same (.text name) := by
  rw [Value.member?, Value.lookup, Option.isSome_map, List.isSome_find?]

theorem pickD_map (n : Nat) (es : List (Value × Value)) (field : String) (default : Value) :
    (Value.map n es).pickD field default = .ok ((held es field).getD default) := by
  unfold Value.pickD Value.contains held
  rw [ok_bind, ← isSome_member?]
  cases h : Value.member? es field with
  | none => rfl
  | some v => simp [Value.require, h]

/-- Only mappings have fields. -/
theorem pickD_eq_ok {v u default : Value} {field : String} (h : v.pickD field default = .ok u) :
    ∃ n es, v = .map n es ∧ u = (held es field).getD default := by
  unfold Value.pickD at h
  obtain ⟨b, -, h⟩ := bind_eq_ok.mp h
  cases v with
  | map n es =>
    refine ⟨n, es, rfl, ?_⟩
    have h' : (Value.map n es).pickD field default = .ok u := by
      unfold Value.pickD
      assumption
    rw [pickD_map] at h'
    exact (Except.ok.inj h').symm
  | _ => cases b <;> simp [Value.require, Value.getD, Value.entriesFor] at h

/-- Where one spelling is missing, the first entry in the other one decides. -/
theorem held_eq_find? {es : List (Value × Value)} {field : String}
    (h : Value.member? es field = none ∨ Value.member? es (pascal field) = none) :
    held es field = (es.find? fun e => spells field e.1).map (·.2) := by
  rcases h with h | h
  · have hother : ∀ e ∈ es, e.1.same (.text (pascal field)) = spells field e.1 := by
      have hnone := List.find?_eq_none.mp (Option.map_eq_none_iff.mp h)
      intro e he
      rw [spells, Bool.eq_false_iff.mpr (hnone e he), Bool.false_or]
    rw [held, h, Option.none_or, Value.member?, Value.lookup, List.find?_congr hother]
  · have hother : ∀ e ∈ es, e.1.same (.text field) = spells field e.1 := by
      have hnone := List.find?_eq_none.mp (Option.map_eq_none_iff.mp h)
      intro e he
      rw [spells, Bool.eq_false_iff.mpr (hnone e he), Bool.or_false]
    rw [held, h, Option.or_none, Value.member?, Value.lookup, List.find?_congr hother]

theorem Part.ne_pascal {p : Part} {f g : String} {c d : Content} (hf : (f, c) ∈ p.fields)
    (hg : (g, d) ∈ p.fields) : f ≠ pascal g :=
  (List.nodup_append.mp p.nodup_spellings).2.2 f (List.mem_map_of_mem hf) (pascal g)
    (List.mem_map.mpr ⟨_, hg, rfl⟩)

/-- Entries of which one at most spells a field do not hold it in both spellings. -/
theorem held_eq_find?_of_length_le {p : Part} {f : String} {c : Content} (hf : (f, c) ∈ p.fields)
    {es : List (Value × Value)} (h : (es.filter fun e => spells f e.1).length ≤ 1) :
    held es f = (es.find? fun e => spells f e.1).map (·.2) := by
  apply held_eq_find?
  by_contra hboth
  rw [not_or, ← Ne, ← Ne, ← Option.isSome_iff_ne_none, ← Option.isSome_iff_ne_none, isSome_member?,
    isSome_member?, List.any_eq_true, List.any_eq_true] at hboth
  obtain ⟨⟨d, hd, hsnake⟩, e, he, hpascal⟩ := hboth
  have hmem : ∀ x ∈ es, spells f x.1 = true → x ∈ es.filter fun e => spells f e.1 := fun x hx hxf =>
    List.mem_filter.mpr ⟨hx, hxf⟩
  have hd' := hmem d hd (by rw [spells, hsnake, Bool.true_or])
  have he' := hmem e he (by rw [spells, hpascal, Bool.or_true])
  obtain rfl : d = e := by
    generalize es.filter _ = xs at h hd' he'
    match xs, h with
    | [x], _ => rw [List.mem_singleton.mp hd', List.mem_singleton.mp he']
  rw [Value.same_text_right] at hsnake hpascal
  exact Part.ne_pascal hf hf (Value.text.inj (hsnake.symm.trans hpascal))

/-! ## Overruled entries -/

/-- Whether a key is the Pascal spelling of a field that is there in snake case too. -/
def overruled (p : Part) (es : List (Value × Value)) (key : Value) : Bool :=
  p.fields.any fun f => key.same (.text (pascal f.1)) && es.any fun e => e.1.same (.text f.1)

/-- The entries of a mapping that are not overruled. -/
def deciding (p : Part) (es : List (Value × Value)) : List (Value × Value) :=
  es.filter fun e => !overruled p es e.1

/-- A field in snake case is not overruled, -/
theorem overruled_snake {p : Part} {f : String} {c : Content} (hf : (f, c) ∈ p.fields)
    (es : List (Value × Value)) : overruled p es (.text f) = false := by
  rw [overruled, List.any_eq_false]
  intro g hg
  rw [Value.same_text, beq_eq_false_iff_ne.mpr (Part.ne_pascal hf hg), Bool.false_and]
  exact Bool.false_ne_true

/-- and a field in Pascal case is when it is there in snake case. -/
theorem overruled_pascal {p : Part} {f : String} {c : Content} (hf : (f, c) ∈ p.fields)
    (es : List (Value × Value)) :
    overruled p es (.text (pascal f)) = (Value.member? es f).isSome := by
  rw [isSome_member?, overruled, Bool.eq_iff_iff, List.any_eq_true]
  constructor
  · rintro ⟨g, hg, h⟩
    obtain ⟨hspelled, hsnake⟩ := Bool.and_eq_true_iff.mp h
    obtain rfl := Part.eq_of_spells hf hg (spells_iff.mpr (Or.inr rfl))
      (spells_iff.mpr (Or.inr (Value.same_text_right.mp hspelled)))
    exact hsnake
  · exact fun h => ⟨_, hf, by rw [Value.same_text, beq_self_eq_true, Bool.true_and, h]⟩

theorem member?_deciding (p : Part) (es : List (Value × Value)) (name : String) :
    Value.member? (deciding p es) name =
      if overruled p es (.text name) then none else Value.member? es name := by
  have hkey : ∀ e ∈ es, decide ((!overruled p es e.1) = true ∧ e.1.same (.text name) = true) =
      (!overruled p es (.text name) && e.1.same (.text name)) := by
    intro e _
    cases h : e.1.same (.text name) with
    | false => simp
    | true => simp [Value.same_text_right.mp h]
  rw [Value.member?, Value.lookup, deciding, List.find?_filter, List.find?_congr hkey]
  cases overruled p es (.text name) with
  | false => rfl
  | true => rw [if_pos rfl, Option.map_eq_none_iff, List.find?_eq_none]; simp

/-- A field has the value of the first deciding entry that spells it. -/
theorem held_eq_find?_deciding {p : Part} {f : String} {c : Content} (hf : (f, c) ∈ p.fields)
    (es : List (Value × Value)) :
    held es f = ((deciding p es).find? fun e => spells f e.1).map (·.2) := by
  have hsnake := member?_deciding p es f
  have hpascal := member?_deciding p es (pascal f)
  rw [overruled_snake hf, if_neg Bool.false_ne_true] at hsnake
  rw [overruled_pascal hf] at hpascal
  cases h : Value.member? es f with
  | none =>
    rw [h, Option.isSome_none, if_neg Bool.false_ne_true] at hpascal
    rw [← held_eq_find? (Or.inl (hsnake.trans h)), held, held, hsnake, hpascal]
  | some v =>
    rw [h, Option.isSome_some, if_pos rfl] at hpascal
    rw [← held_eq_find? (Or.inr hpascal), held, held, hsnake, hpascal, h]
    rfl

/-! ## Documents that hold each field once -/

mutual
/-- Whether no mapping of a document has two entries for one field, in whatever spellings. -/
def unambiguous : Content → Value → Bool
  | .record p, .map _ es =>
    p.fields.all (fun f => (es.filter fun e => spells f.1 e.1).length ≤ 1) && unambiguousIn p es
  | .records p, .list _ vs => allUnambiguous p vs
  | _, _ => true
termination_by structural _ v => v

def unambiguousIn (p : Part) : List (Value × Value) → Bool
  | [] => true
  | (k, v) :: es => unambiguous (p.contentOf k) v && unambiguousIn p es
termination_by structural es => es

def allUnambiguous (p : Part) : List Value → Bool
  | [] => true
  | v :: vs => unambiguous (.record p) v && allUnambiguous p vs
termination_by structural vs => vs
end

theorem unambiguous_map {p : Part} {n : Nat} {es : List (Value × Value)} :
    unambiguous (.record p) (.map n es) = true ↔
      (∀ f ∈ p.fields, (es.filter fun e => spells f.1 e.1).length ≤ 1) ∧
        ∀ e ∈ es, unambiguous (p.contentOf e.1) e.2 = true := by
  have hin : unambiguousIn p es = true ↔ ∀ e ∈ es, unambiguous (p.contentOf e.1) e.2 = true := by
    induction es with
    | nil => simp [unambiguousIn]
    | cons e es ih =>
      rw [unambiguousIn, Bool.and_eq_true, ih, List.forall_mem_cons]
  rw [unambiguous, Bool.and_eq_true, hin, List.all_eq_true]
  simp only [decide_eq_true_eq]

theorem unambiguous_list {p : Part} {n : Nat} {vs : List Value} :
    unambiguous (.records p) (.list n vs) = true ↔ ∀ v ∈ vs, unambiguous (.record p) v = true := by
  rw [unambiguous]
  induction vs with
  | nil => simp [allUnambiguous]
  | cons v vs ih => rw [allUnambiguous, Bool.and_eq_true, ih, List.forall_mem_cons]

end Formwright.Source
