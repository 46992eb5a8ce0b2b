import Formwright.Proofs.Analysis.Correspondence

/-
  Spellings of keys and null items. Known keys of a document can be respelled, each one on its own,
  and null items put into lists or taken out of them, without a change to what the document loads as,
  as long as no mapping holds a field twice (`Respelled`). Where a field is held in both spellings,
  the snake one decides: what stands under the other one can be anything, or missing (`Redecided`).
  Both are one rewriting of documents, in which either all entries of a mapping count or the deciding
  ones, and both are correspondences.
-/

namespace Formwright

namespace Source

mutual
/-- Documents that differ in the spelling of known keys and in null items of lists only. Of a mapping
only those entries count that `entries` selects. -/
inductive Rewritten (entries : Part → List (Value × Value) → List (Value × Value)) :
    Content → Value → Value → Prop
  | same (c : Content) (v : Value) : Rewritten entries c v v
  | record {p : Part} {m n : Nat} {es fs : List (Value × Value)}
      (length : (entries p es).length = (entries p fs).length)
      (fields : ∀ d e, (d, e) ∈ (entries p es).zip (entries p fs) → RewrittenEntry entries p d e) :
      Rewritten entries (.record p) (.map m es) (.map n fs)
  | records {p : Part} {m n : Nat} {vs ws : List Value}
      (length : (vs.filter (!·.isNull)).length = (ws.filter (!·.isNull)).length)
      (items : ∀ v w, (v, w) ∈ (vs.filter (!·.isNull)).zip (ws.filter (!·.isNull)) →
        Rewritten entries (.record p) v w) :
      Rewritten entries (.records p) (.list m vs) (.list n ws)

/-- Entries of one field in either spelling, or one entry. -/
inductive RewrittenEntry (entries : Part → List (Value × Value) → List (Value × Value)) :
    Part → Value × Value → Value × Value → Prop
  | same (p : Part) (e : Value × Value) : RewrittenEntry entries p e e
  | field {p : Part} {f : String} {c : Content} {k l v w : Value} (known : (f, c) ∈ p.fields)
      (old : spells f k = true) (new : spells f l = true) (value : Rewritten entries c v w) :
      RewrittenEntry entries p (k, v) (l, w)
end

/-- Documents that differ in the spelling of known keys and in null items of lists only. -/
def Respelled : Content → Value → Value → Prop := Rewritten fun _ es => es

/-- Documents that differ, moreover, in the values of Pascal keys whose fields are there in snake
case. -/
def Redecided : Content → Value → Value → Prop := Rewritten deciding

variable {entries : Part → List (Value × Value) → List (Value × Value)} {p : Part}
  {es fs : List (Value × Value)} {f : String} {c : Content}

/-- Rewritten entries spell a field together, and the values of the field are rewritten. -/
theorem RewrittenEntry.spells_eq {d e : Value × Value} (h : RewrittenEntry entries p d e)
    (hf : (f, c) ∈ p.fields) :
    spells f d.1 = spells f e.1 ∧ (spells f d.1 = true → Rewritten entries c d.2 e.2) := by
  cases h with
  | same => exact ⟨rfl, fun _ => .same c d.2⟩
  | @field _ g b _ _ _ _ hg hold hnew hvalue =>
    have hspells : ∀ k, spells g k = true → (spells f k = true ↔ f = g) := fun k hk =>
      ⟨fun hkf => Part.eq_of_spells hf hg hkf hk, fun hfg => hfg ▸ hk⟩
    constructor
    · rw [Bool.eq_iff_iff, hspells _ hold, hspells _ hnew]
    · intro hspelled
      obtain rfl := (hspells _ hold).mp hspelled
      rwa [Part.eq_of_mem_fields hf hg]

/-- The first entries that spell a field are rewritten ones. -/
theorem find?_rewritten {r : Value → Value → Prop}
    (h : List.Forall₂ (RewrittenEntry entries p) es fs) (hf : (f, c) ∈ p.fields)
    (hr : ∀ e ∈ es, ∀ w, spells f e.1 = true → Rewritten entries c e.2 w → r e.2 w) :
    Option.Rel r ((es.find? fun e => spells f e.1).map (·.2))
      ((fs.find? fun e => spells f e.1).map (·.2)) := by
  induction h with
  | nil => exact .none
  | @cons d _ _ _ hde _ ih =>
    obtain ⟨hd, hes⟩ := List.forall_mem_cons.mp hr
    obtain ⟨hspells, hvalue⟩ := hde.spells_eq hf
    rw [List.find?_cons, List.find?_cons, ← hspells]
    cases hspelled : spells f d.1 with
    | true => exact .some (hd _ hspelled (hvalue hspelled))
    | false => exact ih hes

/-- As many of rewritten entries spell a field. -/
theorem length_filter_rewritten (h : List.Forall₂ (RewrittenEntry entries p) es fs)
    (hf : (f, c) ∈ p.fields) :
    (es.filter fun e => spells f e.1).length = (fs.filter fun e => spells f e.1).length := by
  induction h with
  | nil => rfl
  | cons hde _ ih =>
    rw [List.filter_cons, List.filter_cons, ← (hde.spells_eq hf).1]
    split
    · rw [List.length_cons, List.length_cons, ih]
    · exact ih

theorem redecided_correspondence : Correspondence Redecided := by
  intro c v w h
  cases h with
  | same => exact .same c v
  | record hlength hfields =>
    refine .record fun f d hf => ?_
    rw [held_eq_find?_deciding hf, held_eq_find?_deciding hf]
    exact find?_rewritten (List.forall₂_iff_zip.mpr ⟨hlength, hfields _ _⟩) hf fun _ _ _ _ h => h
  | records hlength hitems => exact .records (List.forall₂_iff_zip.mpr ⟨hlength, hitems _ _⟩)

theorem respelled_correspondence :
    Correspondence fun c v w => unambiguous c v = true ∧ Respelled c v w := by
  rintro c v w ⟨hone, h⟩
  cases h with
  | same => exact .same c v
  | @record p _ _ es fs hlength hfields =>
    have hrewritten : List.Forall₂ (RewrittenEntry _ p) es fs :=
      List.forall₂_iff_zip.mpr ⟨hlength, hfields _ _⟩
    obtain ⟨honce, hinside⟩ := unambiguous_map.mp hone
    refine .record fun f d hf => ?_
    have hes := honce (f, d) hf
    have hfs := hes
    rw [length_filter_rewritten hrewritten hf] at hfs
    rw [held_eq_find?_of_length_le hf hes, held_eq_find?_of_length_le hf hfs]
    refine find?_rewritten hrewritten hf fun e he w hspelled hvalue => ⟨?_, hvalue⟩
    have := hinside e he
    rwa [Part.contentOf_eq hf hspelled] at this
  | @records p _ _ vs ws hlength hitems =>
    refine .records (List.forall₂_iff_zip.mpr ⟨hlength, fun {x y} hxy => ⟨?_, hitems x y hxy⟩⟩)
    exact unambiguous_list.mp hone x (List.mem_of_mem_filter (List.of_mem_zip hxy).1)

end Source

namespace Analysis

open Source

/-- What a document loads as does not depend on the spelling of its keys, nor on null items of its
lists, and of two spellings of one field the snake one decides. -/
theorem read_respelled :
    (∀ v w, unambiguous (.record .analysis) v = true → Respelled (.record .analysis) v w →
        read w = read v) ∧
      ∀ v w, Redecided (.record .analysis) v w → read w = read v :=
  ⟨fun _ _ hone h => (respelled_correspondence.read_eq ⟨hone, h⟩).symm,
    fun _ _ h => (redecided_correspondence.read_eq h).symm⟩

/-- A warning behind a null item, respelled with the null item behind it, and then under a second
name of the form. -/
theorem read_respelled_warning :
    let v := Value.record [("FormName", .text "a"), ("messages", .ofList [.null,
      .record [("Message", .text "m"), ("severity", .text "Warning")]])]
    let w := Value.record [("form_name", .text "a"), ("Messages", .ofList [
      .record [("message", .text "m"), ("Severity", .text "Warning")], .null])]
    let u := Value.record [("FormName", .text "b"), ("form_name", .text "a"), ("Messages", .ofList [
      .record [("message", .text "m"), ("Severity", .text "Warning")], .null])]
    (∃ a, read v = .ok a) ∧ (unambiguous (.record .analysis) v = true ∧
      Respelled (.record .analysis) v w ∧ read w = read v) ∧
      Redecided (.record .analysis) w u ∧ read u = read w := by
  intro v w u
  have hone : unambiguous (.record .analysis) v = true := by decide +kernel
  have hmessage : Respelled (.record .message)
      (.record [("Message", .text "m"), ("severity", .text "Warning")])
      (.record [("message", .text "m"), ("Severity", .text "Warning")]) := by
    refine Rewritten.record rfl fun d e h => ?_
    rcases List.mem_cons.mp h with h | h
    · obtain ⟨rfl, rfl⟩ := Prod.mk.inj h
      exact .field (f := "message") (c := .plain) (by decide) (by decide +kernel) (by decide +kernel)
        (.same _ _)
    · obtain ⟨rfl, rfl⟩ := Prod.mk.inj (List.mem_singleton.mp h)
      exact .field (f := "severity") (c := .plain) (by decide) (by decide +kernel) (by decide +kernel)
        (.same _ _)
  have hrespelled : Respelled (.record .analysis) v w := by
    refine Rewritten.record rfl fun d e h => ?_
    rcases List.mem_cons.mp h with h | h
    · obtain ⟨rfl, rfl⟩ := Prod.mk.inj h
      exact .field (f := "form_name") (c := .plain) (by decide) (by decide +kernel) (by decide +kernel)
        (.same _ _)
    · obtain ⟨rfl, rfl⟩ := Prod.mk.inj (List.mem_singleton.mp h)
      refine .field (f := "messages") (c := .records .message) (by decide) (by decide +kernel)
        (by decide +kernel) (.records rfl fun x y h => ?_)
      obtain ⟨rfl, rfl⟩ := Prod.mk.inj (List.mem_singleton.mp h)
      exact hmessage
  have hredecided : Redecided (.record .analysis) w u := by
    refine Rewritten.record rfl fun d e h => ?_
    rcases List.mem_cons.mp h with h | h
    · obtain ⟨rfl, rfl⟩ := Prod.mk.inj h
      exact .same _ _
    · obtain ⟨rfl, rfl⟩ := Prod.mk.inj (List.mem_singleton.mp h)
      exact .same _ _
  exact ⟨⟨_, rfl⟩, ⟨hone, hrespelled, read_respelled.1 v w hone hrespelled⟩, hredecided,
    read_respelled.2 w u hredecided⟩

end Analysis

end Formwright
