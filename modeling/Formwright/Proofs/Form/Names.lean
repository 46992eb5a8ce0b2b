import Formwright.Form.Names
import Formwright.Proofs.Form.Declared
import Formwright.Proofs.Form.Flattening
import Formwright.Proofs.FreeName

/-
  Names for controls. A name that is given stays. A made name is the first one for its number that is
  neither given anywhere in the sequence nor made before it (`named_nameFrom`), and what is made is taken
  for all that come after; so a made name is the name of no other control, and two controls share a name
  only when it was given to both (`Named.apart`).
-/

namespace Formwright.Form

/-- A name made for a number: the plain one when it is free, else the one with the least number from 2
on behind it that is. -/
inductive FirstFree (taken : String → Prop) (number : Nat) : String → Prop where
  | plain (hfree : ¬ taken ("Control_" ++ number.repr)) : FirstFree taken number ("Control_" ++ number.repr)
  | numbered (s : Nat) (htwo : 2 ≤ s) (hplain : taken ("Control_" ++ number.repr))
      (hfree : ¬ taken ("Control_" ++ number.repr ++ "_" ++ s.repr))
      (hleast : ∀ r, 2 ≤ r → r < s → taken ("Control_" ++ number.repr ++ "_" ++ r.repr)) :
      FirstFree taken number ("Control_" ++ number.repr ++ "_" ++ s.repr)

/-- A name that is taken when a name is made for control number `i` of a sequence: it is given to some
control, or it was made for an earlier one. -/
def Taken (vs names : List Value) (i : Nat) (s : String) : Prop :=
  (∃ v ∈ vs, v.isGiven = true ∧ v = .text s) ∨
    ∃ j < i, ∃ v, vs[j]? = some v ∧ v.isGiven = false ∧ names[j]? = some (.text s)

/-- Names for a sequence of controls with some names given: these stay, the others are made. -/
structure Named (vs names : List Value) : Prop where
  length : names.length = vs.length
  given : ∀ (i : Nat) (v : Value), vs[i]? = some v → v.isGiven = true → names[i]? = some v
  made : ∀ (i : Nat) (v : Value), vs[i]? = some v → v.isGiven = false →
    ∃ s, names[i]? = some (.text s) ∧ FirstFree (Taken vs names i) (i + 1) s

/-- Names of which no made one is the name of another control, so that a name which two controls share
was given to both. -/
structure Apart (vs names : List Value) : Prop where
  made : ∀ (i : Nat) (v : Value), vs[i]? = some v → v.isGiven = false → ∀ j, j ≠ i → names[j]? ≠ names[i]?
  shared : ∀ (i j : Nat) (w : Value), i ≠ j → names[i]? = some w → names[j]? = some w →
    w.isGiven = true ∧ vs[i]? = some w ∧ vs[j]? = some w

/-! ## One name -/

theorem FirstFree.not_taken {taken : String → Prop} {number : Nat} {s : String}
    (h : FirstFree taken number s) : ¬ taken s := by
  cases h with
  | plain hfree => exact hfree
  | numbered s htwo hplain hfree hleast => exact hfree

theorem FirstFree.congr {taken taken' : String → Prop} {number : Nat} {s : String}
    (h : FirstFree taken number s) (htaken : ∀ t, taken t ↔ taken' t) : FirstFree taken' number s := by
  obtain rfl : taken = taken' := funext fun t => propext (htaken t)
  exact h

theorem candidate_inj {number j k : Nat} (h : candidate number j = candidate number k) : j = k :=
  numbered_inj h

theorem firstFree_freshName (used : List String) (number : Nat) :
    FirstFree (· ∈ used) number (freshName used number) := by
  obtain ⟨k, -, hfound, hfree, hbefore⟩ :=
    exists_firstFree used (candidate number) candidate_inj
  rw [freshName, hfound]
  obtain _ | k := k
  · exact .plain hfree
  · refine .numbered (k + 2) (by omega) (hbefore 0 (Nat.succ_pos k)) hfree fun r htwo hr => ?_
    obtain ⟨j, rfl⟩ : ∃ j, r = j + 2 := ⟨r - 2, by omega⟩
    exact hbefore (j + 1) (by omega)

/-! ## All names -/

/-- What is made for the controls of a sequence before some point is made for the first control or for
one behind it. -/
theorem exists_made_cons {vs names : List Value} {u w : Value} {i : Nat} {s : String} :
    (∃ j < i + 1, ∃ v, (u :: vs)[j]? = some v ∧ v.isGiven = false ∧
      (w :: names)[j]? = some (.text s)) ↔
    (u.isGiven = false ∧ w = .text s) ∨
      ∃ j < i, ∃ v, vs[j]? = some v ∧ v.isGiven = false ∧ names[j]? = some (.text s) := by
  constructor
  · rintro ⟨j, hj, v, hv, hnot, hname⟩
    obtain _ | j := j
    · obtain rfl := Option.some.inj hv
      exact Or.inl ⟨hnot, Option.some.inj hname⟩
    · exact Or.inr ⟨j, Nat.lt_of_succ_lt_succ hj, v, hv, hnot, hname⟩
  · rintro (⟨hnot, rfl⟩ | ⟨j, hj, v, hv⟩)
    · exact ⟨0, Nat.succ_pos i, u, rfl, hnot, rfl⟩
    · exact ⟨j + 1, Nat.succ_lt_succ hj, v, hv⟩

/-- Each made name is free of the names that are used from the start and of those made before it. -/
theorem firstFree_nameFrom (index : Nat) (used : List String) {vs : List Value} {i : Nat} {v : Value}
    (hv : vs[i]? = some v) (hnot : v.isGiven = false) :
    ∃ s, (nameFrom index used vs)[i]? = some (.text s) ∧
      FirstFree (fun t => t ∈ used ∨ ∃ j < i, ∃ u, vs[j]? = some u ∧ u.isGiven = false ∧
        (nameFrom index used vs)[j]? = some (.text t)) (index + i + 1) s := by
  induction vs generalizing index used i with
  | nil => simp at hv
  | cons u vs ih =>
    have hnumber : ∀ i, index + (i + 1) + 1 = index + 1 + i + 1 := fun i => by omega
    cases hu : u.isGiven with
    | true =>
      obtain _ | i := i
      · obtain rfl := Option.some.inj hv
        cases hnot.symm.trans hu
      · obtain ⟨s, hs, hfree⟩ := ih (index + 1) used hv
        rw [nameFrom, if_pos hu, hnumber]
        refine ⟨s, hs, hfree.congr fun t => ?_⟩
        rw [exists_made_cons]
        simp [hu]
    | false =>
      rw [nameFrom, if_neg (by simp [hu])]
      obtain _ | i := i
      · refine ⟨_, rfl, (firstFree_freshName used (index + 1)).congr fun t => ?_⟩
        simp
      · -- the name made here is used from here on
        obtain ⟨s, hs, hfree⟩ := ih (index + 1) (freshName used (index + 1) :: used) hv
        rw [hnumber]
        refine ⟨s, hs, hfree.congr fun t => ?_⟩
        rw [exists_made_cons, List.mem_cons, or_assoc, or_left_comm, Value.text.injEq, eq_comm]
        simp only [hu, true_and]

theorem mem_givenTexts {vs : List Value} {s : String} :
    s ∈ givenTexts vs ↔ ∃ v ∈ vs, v.isGiven = true ∧ v = .text s := by
  unfold givenTexts
  simp only [List.mem_filterMap, List.mem_filter, and_assoc]
  refine exists_congr fun v => and_congr_right fun _ => and_congr_right fun _ => ?_
  cases v <;> simp

/-- Each control is named as it should be. -/
theorem named_nameFrom (vs : List Value) : Named vs (nameFrom 0 (givenTexts vs) vs) := by
  have hlength := length_nameFrom 0 (givenTexts vs) vs
  refine ⟨hlength, fun i v hv hgiven => ?_, fun i v hv hnot => ?_⟩
  · have hi : i < (nameFrom 0 (givenTexts vs) vs).length := by
      rw [hlength]
      exact (List.getElem?_eq_some_iff.mp hv).1
    rw [List.getElem?_eq_getElem hi, getElem?_nameFrom_of_isGiven hv (List.getElem?_eq_getElem hi) hgiven]
  · obtain ⟨s, hs, hfree⟩ := firstFree_nameFrom 0 (givenTexts vs) hv hnot
    rw [Nat.zero_add] at hfree
    exact ⟨s, hs, hfree.congr fun t => or_congr_left mem_givenTexts⟩

namespace Named

variable {vs names : List Value}

theorem exists_getElem? (h : Named vs names) {i : Nat} {w : Value} (hw : names[i]? = some w) :
    ∃ v, vs[i]? = some v := by
  have hi := (List.getElem?_eq_some_iff.mp hw).1
  exact ⟨_, List.getElem?_eq_getElem (h.length ▸ hi)⟩

/-- A made name is not given to another control, and it is not made for one: of two made names the
later one was made when the earlier one was taken. -/
theorem ne_of_made (h : Named vs names) {i j : Nat} {v : Value} (hv : vs[i]? = some v)
    (hnot : v.isGiven = false) (hji : j ≠ i) : names[j]? ≠ names[i]? := by
  intro hsame
  obtain ⟨s, hs, hfree⟩ := h.made i v hv hnot
  obtain ⟨u, hu⟩ := h.exists_getElem? (hsame.trans hs)
  cases hgiven : u.isGiven with
  | true =>
    have hname := (h.given j u hu hgiven).symm.trans (hsame.trans hs)
    exact hfree.not_taken (Or.inl ⟨u, List.mem_of_getElem? hu, hgiven, Option.some.inj hname⟩)
  | false =>
    obtain ⟨t, ht, hfree'⟩ := h.made j u hu hgiven
    rcases Nat.lt_or_gt_of_ne hji with hlt | hgt
    · exact hfree.not_taken (Or.inr ⟨j, hlt, u, hu, hgiven, hsame.trans hs⟩)
    · exact hfree'.not_taken (Or.inr ⟨i, hgt, v, hv, hnot, hsame.symm.trans ht⟩)

theorem given_of_shared (h : Named vs names) {i j : Nat} {w : Value} (hij : i ≠ j)
    (hi : names[i]? = some w) (hj : names[j]? = some w) : w.isGiven = true ∧ vs[i]? = some w := by
  obtain ⟨v, hv⟩ := h.exists_getElem? hi
  cases hgiven : v.isGiven with
  | true =>
    obtain rfl := Option.some.inj ((h.given i v hv hgiven).symm.trans hi)
    exact ⟨hgiven, hv⟩
  | false => exact absurd (hj.trans hi.symm) (h.ne_of_made hv hgiven hij.symm)

theorem apart (h : Named vs names) : Apart vs names := by
  refine ⟨fun i v hv hnot j hji => h.ne_of_made hv hnot hji, fun i j w hij hi hj => ?_⟩
  obtain ⟨hgiven, hfirst⟩ := h.given_of_shared hij hi hj
  exact ⟨hgiven, hfirst, (h.given_of_shared hij.symm hj hi).2⟩

end Named

/-! ## Controls -/

/-- Controls have the names that are assigned to the entries they come from. -/
theorem assignNames_of_mapControls {f : Forest Source.Control} {cs : List Control}
    (h : mapControls f = .ok cs) : assignNames (f.labels.map (·.name)) = .ok (cs.map (·.name)) := by
  obtain ⟨names, hnames, hcs⟩ := bind_eq_ok.mp (ofEntries_of_mapControls h)
  have hlabels : f.flatten.map (·.label.name) = f.labels.map (·.name) := by
    rw [← Forest.map_label_flattenAt f none 0 0, List.map_map]
    rfl
  have hlen : f.flatten.length = names.length := by
    rw [assignNames_eq_ok hnames, length_nameFrom, List.length_map]
  have hsnd : (f.flatten.zip names).map Prod.snd = cs.map (·.name) := by
    refine map_eq_of_mapM_eq_ok (fun p c hc => ?_) hcs
    obtain ⟨t, -, hc⟩ := bind_eq_ok.mp hc
    obtain rfl := Except.ok.inj hc
    rfl
  rw [List.map_snd_zip (Nat.le_of_eq hlen.symm)] at hsnd
  rw [← hlabels, ← hsnd]
  exact hnames

/-- Forests of at most 300 levels whose names are texts or missing are mapped whenever their types can
be read. Given names stay; each other control gets the first made name for its number that is free,
which no other control has; and two controls share a name only when the source gave it to both. -/
theorem mapControls_named {f : Forest Source.Control} (hf : f.height ≤ 300)
    (hnames : ∀ a ∈ f.labels, a.name.IsOptional Value.IsString) :
    ((∃ cs, mapControls f = .ok cs) ↔
      ∀ a ∈ f.labels, a.type.isGiven = true → a.type.kind = .text ∨ a.type.kind = .bytes) ∧
    ∀ cs, mapControls f = .ok cs → Named (f.labels.map (·.name)) (cs.map (·.name)) ∧
      Apart (f.labels.map (·.name)) (cs.map (·.name)) := by
  have hkeys : ∀ a ∈ f.labels, a.name.unhashable? = none := by
    intro a ha
    rcases hnames a ha with hnull | ⟨s, hs⟩
    · rw [hnull]
      rfl
    · rw [hs]
      rfl
  constructor
  · rw [exists_mapControls_eq_ok]
    constructor
    · exact fun h a ha => (h.2 a ha).type
    · exact fun h => ⟨Nat.le_trans hf (by decide), fun a ha => ⟨fun _ => hkeys a ha, h a ha⟩⟩
  · intro cs hcs
    have hnamed := named_nameFrom (f.labels.map (·.name))
    rw [← assignNames_eq_ok (assignNames_of_mapControls hcs)] at hnamed
    exact ⟨hnamed, hnamed.apart⟩

/-- A name that looks made is given behind the control that would get it. -/
theorem mapControls_named_taken :
    let f : Forest Source.Control :=
      .node { type := .text "TextField" } (.node { name := .text "Control_1_2" } .nil .nil)
        (.node { name := .text "Control_1" } .nil .nil)
    f.height ≤ 300 ∧ (∀ a ∈ f.labels, a.name.IsOptional Value.IsString) ∧
      ∃ cs, mapControls f = .ok cs ∧ Named (f.labels.map (·.name)) (cs.map (·.name)) ∧
        Apart (f.labels.map (·.name)) (cs.map (·.name)) := by
  intro f
  have hf : f.height ≤ 300 := by decide
  have hlabels : f.labels = [{ type := .text "TextField" }, { name := .text "Control_1_2" },
      { name := .text "Control_1" }] := rfl
  have hnames : ∀ a ∈ f.labels, a.name.IsOptional Value.IsString := by
    intro a ha
    simp only [hlabels, List.mem_cons, List.not_mem_nil, or_false] at ha
    rcases ha with rfl | rfl | rfl
    · exact Or.inl rfl
    · exact Or.inr ⟨_, rfl⟩
    · exact Or.inr ⟨_, rfl⟩
  obtain ⟨hexists, hnamed⟩ := mapControls_named hf hnames
  obtain ⟨cs, hcs⟩ := hexists.mpr fun a ha htype => by
    simp only [hlabels, List.mem_cons, List.not_mem_nil, or_false] at ha
    rcases ha with rfl | rfl | rfl
    · exact Or.inl rfl
    · cases htype
    · cases htype
  exact ⟨hf, hnames, cs, hcs, hnamed cs hcs⟩

end Formwright.Form
