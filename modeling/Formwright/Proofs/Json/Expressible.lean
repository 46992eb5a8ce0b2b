import Formwright.Json.Writer
import Formwright.Proofs.Value.Texts

/-
  What a style can write. Dates, moments, bytes and sets have no JSON form, the name of a member has to
  be a simple value, and members can be sorted only when their keys have an order among each other
  (`checkOrder_eq_ok_iff`). These are the only limits: a value is written, at whatever level, exactly
  when it is expressible (`exists_valueText_eq_ok_iff`). So a record is written when the values of its
  fields are (`expressible_record_iff`).
-/

namespace Formwright

/-! ## Keys -/

namespace Value

/-- Whether a value can be written as the name of a member. -/
def isNameable : Value → Bool
  | null | bool _ | int _ | float _ | text _ => true
  | _ => false

/-- Whether a value is a truth value, an integer or a double. -/
def isNumber (v : Value) : Bool := v.numeric?.isSome

/-- Keys that have an order among each other: there is one of them at most, or all are texts, or all
are numbers. -/
def Sortable (ks : List Value) : Prop :=
  ks.length ≤ 1 ∨ (∀ k ∈ ks, k.kind = .text) ∨ ∀ k ∈ ks, k.isNumber = true

/-- Two simple values have an order when both are texts or both are numbers. -/
theorem exists_less_eq_ok_iff {a b : Value} (ha : a.isNameable = true) (hb : b.isNameable = true) :
    (∃ before, b.less a = .ok before) ↔
      (a.kind = .text ∧ b.kind = .text) ∨ (a.isNumber = true ∧ b.isNumber = true) := by
  -- on the kinds that a key may have
  cases a <;> cases ha <;> cases b <;> cases hb <;>
    simp [less, numberLess, kind, isNumber, numeric?]

theorem isNumber_of_kind_eq_text {v : Value} (h : v.kind = .text) : v.isNumber = false := by
  obtain ⟨s, rfl⟩ := kind_eq_text.mp h
  rfl

/-- Of two keys and more, all have to be texts or all numbers. -/
theorem sortable_cons_cons_iff {a b : Value} {ks : List Value} : Sortable (a :: b :: ks) ↔
    ((a.kind = .text ∧ b.kind = .text) ∨ (a.isNumber = true ∧ b.isNumber = true)) ∧
      Sortable (b :: ks) := by
  constructor
  · rintro (hlength | htexts | hnumbers)
    · simp at hlength
    · obtain ⟨ha, hrest⟩ := List.forall_mem_cons.mp htexts
      exact ⟨Or.inl ⟨ha, hrest b List.mem_cons_self⟩, Or.inr (Or.inl hrest)⟩
    · obtain ⟨ha, hrest⟩ := List.forall_mem_cons.mp hnumbers
      exact ⟨Or.inr ⟨ha, hrest b List.mem_cons_self⟩, Or.inr (Or.inr hrest)⟩
  · -- `b` is of one family, so the keys behind it cannot be of the other
    rintro ⟨⟨ha, hb⟩ | ⟨ha, hb⟩, hlength | htexts | hnumbers⟩
    · obtain rfl : ks = [] := List.length_eq_zero_iff.mp (by simpa using hlength)
      exact Or.inr (Or.inl (by simp [ha, hb]))
    · exact Or.inr (Or.inl (List.forall_mem_cons.mpr ⟨ha, htexts⟩))
    · have hnumber := hnumbers b List.mem_cons_self
      rw [isNumber_of_kind_eq_text hb] at hnumber
      cases hnumber
    · obtain rfl : ks = [] := List.length_eq_zero_iff.mp (by simpa using hlength)
      exact Or.inr (Or.inr (by simp [ha, hb]))
    · rw [isNumber_of_kind_eq_text (htexts b List.mem_cons_self)] at hb
      cases hb
    · exact Or.inr (Or.inr (List.forall_mem_cons.mpr ⟨ha, hnumbers⟩))

/-- Simple values can be put in order when they have an order among each other. -/
theorem checkOrder_eq_ok_iff {ks : List Value} (h : ∀ k ∈ ks, k.isNameable = true) :
    checkOrder ks = .ok () ↔ Sortable ks := by
  induction ks with
  | nil => exact ⟨fun _ => Or.inl (Nat.zero_le 1), fun _ => rfl⟩
  | cons a ks ih =>
    obtain ⟨ha, hks⟩ := List.forall_mem_cons.mp h
    obtain _ | ⟨b, ks⟩ := ks
    · exact ⟨fun _ => Or.inl (Nat.le_refl 1), fun _ => rfl⟩
    · obtain ⟨hb, -⟩ := List.forall_mem_cons.mp hks
      have hstep : checkOrder (a :: b :: ks) = .ok () ↔
          (∃ before, b.less a = .ok before) ∧ checkOrder (b :: ks) = .ok () := by
        rw [checkOrder]
        cases b.less a <;> simp [discard, Functor.discard, Functor.mapConst, Except.map]
      rw [hstep, ih hks, exists_less_eq_ok_iff ha hb, sortable_cons_cons_iff]

end Value

/-! ## Values -/

namespace Json

/-- A value that a style can write. -/
inductive Expressible (style : Style) : Value → Prop
  | null : Expressible style .null
  | bool (b : Bool) : Expressible style (.bool b)
  | int (n : Int) : Expressible style (.int n)
  | float (x : Float) : Expressible style (.float x)
  | text (s : String) : Expressible style (.text s)
  | list (n : Nat) {vs : List Value} (items : ∀ v ∈ vs, Expressible style v) :
      Expressible style (.list n vs)
  | tuple (n : Nat) {vs : List Value} (items : ∀ v ∈ vs, Expressible style v) :
      Expressible style (.tuple n vs)
  | map (n : Nat) {es : List (Value × Value)} (keys : ∀ e ∈ es, e.1.isNameable = true)
      (order : style.sortMembers = true → Value.Sortable (es.map (·.1)))
      (values : ∀ e ∈ es, Expressible style e.2) : Expressible style (.map n es)

/-- Values that a style can write. -/
def AllExpressible (style : Style) (vs : List Value) : Prop := ∀ v ∈ vs, Expressible style v

section
variable {style : Style}

theorem exists_keyText_eq_ok_iff {k : Value} :
    (∃ name, keyText k = .ok name) ↔ k.isNameable = true := by
  cases k <;> simp [keyText, Value.isNameable]

/-- Members can be arranged when their keys can be sorted, if they have to be. -/
theorem exists_arrange_eq_ok_iff {parts : List (Value × String)}
    (h : ∀ k ∈ parts.map (·.1), k.isNameable = true) : (∃ ss, arrange style parts = .ok ss) ↔
      (style.sortMembers = true → Value.Sortable (parts.map (·.1))) := by
  unfold arrange
  cases style.sortMembers with
  | false => simp
  | true =>
    rw [if_pos rfl, exists_bind_pure_eq_ok, ← Value.checkOrder_eq_ok_iff h]
    unfold Value.sortOn
    cases Value.checkOrder (parts.map (·.1)) <;> simp

theorem map_fst_memberTexts {es : List (Value × Value)} {level : Nat} {parts : List (Value × String)}
    (h : memberTexts style es level = .ok parts) : parts.map (·.1) = es.map (·.1) := by
  induction es generalizing parts with
  | nil =>
    obtain rfl := Except.ok.inj h
    rfl
  | cons e es ih =>
    obtain ⟨name, -, h⟩ := bind_eq_ok.mp h
    obtain ⟨s, -, h⟩ := bind_eq_ok.mp h
    obtain ⟨rest, hrest, h⟩ := bind_eq_ok.mp h
    obtain rfl := Except.ok.inj h
    rw [List.map_cons, List.map_cons, ih hrest]

mutual
/-- A value has a text at a level exactly when it is expressible. -/
theorem exists_valueText_eq_ok_iff (v : Value) (level : Nat) :
    (∃ s, valueText style v level = .ok s) ↔ Expressible style v := by
  cases v with
  | null => exact ⟨fun _ => .null, fun _ => ⟨_, rfl⟩⟩
  | bool b => exact ⟨fun _ => .bool b, fun _ => ⟨_, rfl⟩⟩
  | int n => exact ⟨fun _ => .int n, fun _ => ⟨_, rfl⟩⟩
  | float x => exact ⟨fun _ => .float x, fun _ => ⟨_, rfl⟩⟩
  | text s => exact ⟨fun _ => .text s, fun _ => ⟨_, rfl⟩⟩
  | list n vs =>
    rw [valueText, exists_bind_pure_eq_ok, exists_itemTexts_eq_ok_iff vs (level + 1)]
    exact ⟨fun h => .list n h, fun | .list _ h => h⟩
  | tuple n vs =>
    rw [valueText, exists_bind_pure_eq_ok, exists_itemTexts_eq_ok_iff vs (level + 1)]
    exact ⟨fun h => .tuple n h, fun | .tuple _ h => h⟩
  | map n es =>
    rw [valueText]
    constructor
    · rintro ⟨s, h⟩
      obtain ⟨parts, hparts, h⟩ := bind_eq_ok.mp h
      obtain ⟨ss, hss, -⟩ := bind_eq_ok.mp h
      have hmembers := (exists_memberTexts_eq_ok_iff es (level + 1)).mp ⟨parts, hparts⟩
      have hkeys := map_fst_memberTexts hparts
      have hnames : ∀ k ∈ parts.map (·.1), k.isNameable = true := by
        rw [hkeys]
        exact List.forall_mem_map.mpr fun e he => (hmembers e he).1
      have horder := (exists_arrange_eq_ok_iff hnames).mp ⟨ss, hss⟩
      rw [hkeys] at horder
      exact .map n (fun e he => (hmembers e he).1) horder fun e he => (hmembers e he).2
    · rintro (_ | _ | _ | _ | _ | _ | _ | ⟨_, keys, order, values⟩)
      obtain ⟨parts, hparts⟩ := (exists_memberTexts_eq_ok_iff es (level + 1)).mpr
        fun e he => ⟨keys e he, values e he⟩
      have hkeys := map_fst_memberTexts hparts
      rw [← hkeys] at order
      have hnames : ∀ k ∈ parts.map (·.1), k.isNameable = true := by
        rw [hkeys]
        exact List.forall_mem_map.mpr keys
      obtain ⟨ss, hss⟩ := (exists_arrange_eq_ok_iff hnames).mpr order
      exact ⟨_, by rw [hparts, ok_bind, hss]; rfl⟩
  | bytes | date | moment | set =>
    constructor
    · rintro ⟨s, h⟩
      cases h
    · intro h
      cases h

theorem exists_itemTexts_eq_ok_iff (vs : List Value) (level : Nat) :
    (∃ ss, itemTexts style vs level = .ok ss) ↔ ∀ v ∈ vs, Expressible style v := by
  cases vs with
  | nil => exact ⟨fun _ => List.forall_mem_nil _, fun _ => ⟨[], rfl⟩⟩
  | cons v vs =>
    rw [List.forall_mem_cons, ← exists_valueText_eq_ok_iff v level,
      ← exists_itemTexts_eq_ok_iff vs level, itemTexts]
    constructor
    · rintro ⟨ss, h⟩
      obtain ⟨s, hs, h⟩ := bind_eq_ok.mp h
      exact ⟨⟨s, hs⟩, exists_bind_pure_eq_ok.mp ⟨ss, h⟩⟩
    · rintro ⟨⟨s, hs⟩, hss⟩
      rw [hs, ok_bind]
      exact exists_bind_pure_eq_ok.mpr hss

theorem exists_memberTexts_eq_ok_iff (es : List (Value × Value)) (level : Nat) :
    (∃ parts, memberTexts style es level = .ok parts) ↔
      ∀ e ∈ es, e.1.isNameable = true ∧ Expressible style e.2 := by
  cases es with
  | nil => exact ⟨fun _ => List.forall_mem_nil _, fun _ => ⟨[], rfl⟩⟩
  | cons e es =>
    obtain ⟨k, v⟩ := e
    rw [List.forall_mem_cons, ← exists_valueText_eq_ok_iff v level, ← exists_keyText_eq_ok_iff,
      ← exists_memberTexts_eq_ok_iff es level, memberTexts]
    constructor
    · rintro ⟨parts, h⟩
      obtain ⟨name, hname, h⟩ := bind_eq_ok.mp h
      obtain ⟨s, hs, h⟩ := bind_eq_ok.mp h
      exact ⟨⟨⟨name, hname⟩, s, hs⟩, exists_bind_pure_eq_ok.mp ⟨parts, h⟩⟩
    · rintro ⟨⟨⟨name, hname⟩, s, hs⟩, hparts⟩
      rw [hname, ok_bind, hs, ok_bind]
      exact exists_bind_pure_eq_ok.mpr hparts
end

theorem exists_write_eq_ok_iff {v : Value} : (∃ s, write style v = .ok s) ↔ Expressible style v :=
  exists_valueText_eq_ok_iff v 0

/-! ## Values made by the program -/

@[simp] theorem expressible_null : Expressible style .null := .null

@[simp] theorem expressible_bool (b : Bool) : Expressible style (.bool b) := .bool b

@[simp] theorem expressible_int (n : Int) : Expressible style (.int n) := .int n

@[simp] theorem expressible_count (n : Nat) : Expressible style (.count n) := .int n

@[simp] theorem expressible_text (s : String) : Expressible style (.text s) := .text s

@[simp] theorem allExpressible_nil : AllExpressible style [] := List.forall_mem_nil _

@[simp] theorem allExpressible_cons_iff {v : Value} {vs : List Value} :
    AllExpressible style (v :: vs) ↔ Expressible style v ∧ AllExpressible style vs :=
  List.forall_mem_cons

@[simp] theorem allExpressible_append_iff {vs ws : List Value} :
    AllExpressible style (vs ++ ws) ↔ AllExpressible style vs ∧ AllExpressible style ws :=
  List.forall_mem_append

@[simp] theorem allExpressible_map_iff {α : Type} {value : α → Value} {xs : List α} :
    AllExpressible style (xs.map value) ↔ ∀ x ∈ xs, Expressible style (value x) :=
  List.forall_mem_map

@[simp] theorem allExpressible_flatMap_iff {α : Type} {values : α → List Value} {xs : List α} :
    AllExpressible style (xs.flatMap values) ↔ ∀ x ∈ xs, AllExpressible style (values x) := by
  constructor
  · exact fun h x hx v hv => h v (List.mem_flatMap.mpr ⟨x, hx, hv⟩)
  · intro h v hv
    obtain ⟨x, hx, hv⟩ := List.mem_flatMap.mp hv
    exact h x hx v hv

@[simp] theorem expressible_ofList_iff {vs : List Value} :
    Expressible style (.ofList vs) ↔ AllExpressible style vs :=
  ⟨fun | .list _ h => h, .list 0⟩

/-- Texts are keys that can always be written and sorted. -/
theorem expressible_map_of_texts {n : Nat} {es : List (Value × Value)}
    (h : ∀ e ∈ es, e.1.kind = .text) :
    Expressible style (.map n es) ↔ AllExpressible style (es.map (·.2)) := by
  rw [allExpressible_map_iff]
  constructor
  · rintro (_ | _ | _ | _ | _ | _ | _ | ⟨_, -, -, values⟩)
    exact values
  · refine .map n (fun e he => ?_) fun _ => Or.inr (Or.inl (List.forall_mem_map.mpr h))
    obtain ⟨s, hs⟩ := Value.kind_eq_text.mp (h e he)
    rw [hs]
    rfl

@[simp] theorem expressible_record_iff {fields : List (String × Value)} :
    Expressible style (.record fields) ↔ AllExpressible style (fields.map (·.2)) := by
  rw [Value.record, expressible_map_of_texts (List.forall_mem_map.mpr fun _ _ => rfl), List.map_map]
  rfl

end

end Json

end Formwright
