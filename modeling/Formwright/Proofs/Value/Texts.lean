import Formwright.Proofs.Success
import Formwright.Value.Access

/-
  Collections of texts. Texts can always be put in order (`checkOrder_of_texts`), which is that of the
  texts themselves (`sorted_texts`), and only texts can be joined (`exists_joinTexts_eq_ok`).
-/

namespace Formwright.Value

/-- Equal values are texts together. -/
theorem kind_eq_text_of_same {v w : Value} (h : v.same w = true) :
    v.kind = .text ↔ w.kind = .text := by
  cases v <;> cases w <;> simp [same, sameNumber, numeric?, kind] at h ⊢

theorem kind_eq_text {v : Value} : v.kind = .text ↔ ∃ s, v = .text s := by
  cases v <;> simp [kind]

/-- The text that a value is. -/
def text? : Value → Option String
  | text s => some s
  | _ => none

theorem same_text_right {v : Value} {s : String} : v.same (text s) = true ↔ v = text s := by
  cases v <;> simp [same, sameNumber, numeric?]

theorem same_text_left {v : Value} {s : String} : (text s).same v = true ↔ v = text s := by
  cases v with
  | text t => rw [same_text, beq_iff_eq, text.injEq, eq_comm]
  | _ => simp [same]

theorem occursIn_text {s : String} {vs : List Value} :
    (text s).occursIn vs = true ↔ text s ∈ vs := by
  rw [occursIn, List.any_eq_true]
  simp only [same_text_left, exists_eq_right]

/-- Values that are texts are the texts of a list. -/
theorem exists_map_text {vs : List Value} (h : ∀ v ∈ vs, v.kind = .text) : ∃ ss : List String, vs = ss.map text := by
  induction vs with
  | nil => exact ⟨[], rfl⟩
  | cons v vs ih =>
    obtain ⟨hv, hvs⟩ := List.forall_mem_cons.mp h
    obtain ⟨s, rfl⟩ := kind_eq_text.mp hv
    obtain ⟨ss, rfl⟩ := ih hvs
    exact ⟨s :: ss, rfl⟩

/-! ## Order -/

theorem checkOrder_of_texts {vs : List Value} (h : ∀ v ∈ vs, v.kind = .text) :
    checkOrder vs = .ok () := by
  induction vs with
  | nil => rfl
  | cons a vs ih =>
    obtain _ | ⟨b, vs⟩ := vs
    · rfl
    · obtain ⟨s, rfl⟩ := kind_eq_text.mp (h a List.mem_cons_self)
      obtain ⟨t, rfl⟩ := kind_eq_text.mp (h b (List.mem_cons_of_mem _ List.mem_cons_self))
      have hrest := ih fun v hv => h v (List.mem_cons_of_mem _ hv)
      rw [checkOrder, less]
      exact hrest

theorem sorted_eq_ok {vs ws : List Value} :
    sorted vs = .ok ws ↔ checkOrder vs = .ok () ∧ ws = vs.mergeSort notAfter := by
  unfold sorted sortOn
  rw [List.map_id]
  cases checkOrder vs <;> simp [eq_comm, id]

/-- Sorting loses and adds nothing. -/
theorem mem_of_sorted_eq_ok {vs ws : List Value} (h : sorted vs = .ok ws) (v : Value) :
    v ∈ ws ↔ v ∈ vs := by
  rw [(sorted_eq_ok.mp h).2]
  exact List.mem_mergeSort

theorem notAfter_text (a b : String) : notAfter (text a) (text b) = decide (a ≤ b) := by
  show (!decide (b < a)) = decide (a ≤ b)
  rw [← decide_not, decide_eq_decide]
  rfl

/-- Texts are put in the order of texts. -/
theorem sorted_texts (ss : List String) :
    sorted (ss.map text) = .ok ((ss.mergeSort fun a b => a ≤ b).map text) := by
  refine sorted_eq_ok.mpr ⟨checkOrder_of_texts ?_, ?_⟩
  · exact List.forall_mem_map.mpr fun s _ => rfl
  · exact List.map_mergeSort fun a _ b _ => (notAfter_text a b).symm

/-- Items can be sorted when their keys can be put in order, and sorting loses and adds none. -/
theorem sortOn_eq_ok {α : Type} {key : α → Value} {xs ys : List α} (h : sortOn key xs = .ok ys) :
    checkOrder (xs.map key) = .ok () ∧ ∀ x, x ∈ ys ↔ x ∈ xs := by
  obtain ⟨_, hcheck, h⟩ := bind_eq_ok.mp h
  obtain rfl := Except.ok.inj h
  exact ⟨hcheck, fun x => List.mem_mergeSort⟩

/-! ## Joining -/

/-- Items can be joined when all of them are texts. -/
theorem exists_joinTexts_eq_ok {separator : String} {vs : List Value} :
    (∃ s, joinTexts separator vs = .ok s) ↔ ∀ v ∈ vs, v.kind = .text := by
  rw [joinTexts, exists_bind_pure_eq_ok, exists_mapM_eq_ok]
  constructor
  · intro h v hv
    obtain ⟨i, hi⟩ := List.getElem?_of_mem hv
    obtain ⟨s, hs⟩ := h (v, i) (List.mk_mem_zipIdx_iff_getElem?.mpr hi)
    cases v <;> first | rfl | cases hs
  · intro h p hp
    obtain ⟨v, i⟩ := p
    have hv := List.mem_of_getElem? (List.mk_mem_zipIdx_iff_getElem?.mp hp)
    obtain ⟨s, rfl⟩ := kind_eq_text.mp (h v hv)
    exact ⟨s, rfl⟩

/-- What is joined are the texts, one after the other. -/
theorem joinTexts_eq_ok {separator : String} {vs : List Value} {s : String} :
    joinTexts separator vs = .ok s ↔ ∃ ss : List String, vs = ss.map text ∧ s = separator.intercalate ss := by
  have hjoin : ∀ ss : List String, joinTexts separator (ss.map text) = .ok (separator.intercalate ss) := by
    intro ss
    refine bind_eq_ok.mpr ⟨ss, mapM_eq_ok.mpr ?_, rfl⟩
    rw [List.zipIdx_map, List.map_map]
    refine Eq.trans ?_ (congrArg (List.map Except.ok) (List.zipIdx_map_fst 0 ss))
    rw [List.map_map]
    rfl
  constructor
  · intro h
    obtain ⟨ss, rfl⟩ := exists_map_text (exists_joinTexts_eq_ok.mp ⟨s, h⟩)
    exact ⟨ss, rfl, Except.ok.inj (h.symm.trans (hjoin ss))⟩
  · rintro ⟨ss, rfl, rfl⟩
    exact hjoin ss

/-- Joining what is no text is a misuse. -/
theorem category_of_joinTexts {separator : String} {vs : List Value} {e : Fault}
    (h : joinTexts separator vs = .error e) : e.category = .misuse := by
  rcases bind_eq_error.mp h with htexts | ⟨_, -, hdone⟩
  · obtain ⟨p, -, hp⟩ := exists_of_mapM_eq_error htexts
    split at hp
    · cases hp
    · obtain rfl := Except.error.inj hp
      rfl
  · cases hdone

/-! ## Distinct values -/

/-- What cannot tell equal values apart holds of all values when it holds of the distinct ones. -/
theorem forall_mem_distinct {P : Value → Prop} (hP : ∀ v w, v.same w = true → P w → P v)
    {vs : List Value} : (∀ v ∈ distinct vs, P v) ↔ ∀ v ∈ vs, P v := by
  suffices ∀ seen : List Value,
      (∀ v ∈ vs.foldl (fun seen v => if v.occursIn seen then seen else seen ++ [v]) seen, P v) ↔
        (∀ v ∈ seen, P v) ∧ ∀ v ∈ vs, P v by
    rw [distinct, this []]
    simp
  induction vs with
  | nil => simp
  | cons v vs ih =>
    intro seen
    rw [List.foldl_cons, ih, List.forall_mem_cons]
    by_cases hv : v.occursIn seen = true
    · rw [if_pos hv]
      obtain ⟨w, hw, hsame⟩ := List.any_eq_true.mp hv
      constructor
      · rintro ⟨hseen, hvs⟩
        exact ⟨hseen, hP v w hsame (hseen w hw), hvs⟩
      · rintro ⟨hseen, -, hvs⟩
        exact ⟨hseen, hvs⟩
    · rw [if_neg hv]
      simp only [List.forall_mem_append, List.forall_mem_singleton, and_assoc]

theorem text_mem_distinct {s : String} {vs : List Value} : text s ∈ distinct vs ↔ text s ∈ vs := by
  have hne : ∀ v w : Value, v.same w = true → w ≠ text s → v ≠ text s := by
    rintro v w hsame hw rfl
    exact hw (same_text_left.mp hsame)
  have hall : (∀ v ∈ distinct vs, v ≠ text s) ↔ ∀ v ∈ vs, v ≠ text s := forall_mem_distinct hne
  have hmem : ∀ ws : List Value, (∀ v ∈ ws, v ≠ text s) ↔ text s ∉ ws := fun ws =>
    ⟨fun h hs => h _ hs rfl, fun h v hv hvs => h (hvs ▸ hv)⟩
  rw [hmem, hmem] at hall
  exact ⟨fun h => Classical.not_not.mp fun hvs => hall.mpr hvs h,
    fun h => Classical.not_not.mp fun hds => hall.mp hds h⟩

end Formwright.Value
