import Formwright.Form.OfAnalysis
import Formwright.Proofs.Forest.Links
import Formwright.Proofs.Value.Keys

/-
  Mapping nested controls. `mapControls` succeeds on a forest that is not too deep exactly when
  every control in it can be named and typed (`exists_mapControls_eq_ok`). The controls it gives are
  those of the places of the forest in pre-order, with the links of the forest
  (`placed_of_mapControls`).
-/

namespace Formwright

/-- What mapping asks of a control: a name that can be a key, and a type token that can be read. -/
structure Source.Control.Mappable (c : Source.Control) : Prop where
  name : c.name.isGiven = true → c.name.unhashable? = none
  type : c.type.isGiven = true → c.type.kind = .text ∨ c.type.kind = .bytes

/-- A type token is read when it is absent, a text or bytes. -/
theorem ControlType.exists_ofValue_eq_ok (read : String → ControlType) (v : Value) :
    (∃ t, ofValue read v = .ok t) ↔ (v.isGiven = true → v.kind = .text ∨ v.kind = .bytes) := by
  unfold ofValue
  by_cases h : v.isGiven = true
  · cases v <;> simp [h, Value.kind]
  · simp [h]

theorem Value.count_inj {m n : Nat} : count m = count n ↔ m = n := by
  rw [count, count, Value.int.injEq]
  exact Int.ofNat_inj

namespace Form

/-! ## Names -/

/-- Names are given to a sequence of controls when those that are given can be keys. -/
theorem exists_assignNames_eq_ok {vs : List Value} :
    (∃ names, assignNames vs = .ok names) ↔
      ∀ v ∈ vs, v.isGiven = true → v.unhashable? = none := by
  have hkeys : (∃ ks, (vs.filter (·.isGiven)).mapM (·.asKey) = .ok ks) ↔
      ∀ v ∈ vs, v.isGiven = true → v.unhashable? = none := by
    rw [exists_mapM_eq_ok]
    simp only [List.mem_filter, and_imp, Value.exists_asKey_eq_ok]
  rw [← hkeys]
  constructor
  · rintro ⟨names, h⟩
    obtain ⟨u, hu, -⟩ := bind_eq_ok.mp h
    obtain ⟨ks, hks, -⟩ := map_eq_ok.mp hu
    exact ⟨ks, hks⟩
  · rintro ⟨ks, hks⟩
    exact ⟨nameFrom 0 (givenTexts vs) vs, by rw [assignNames, hks]; rfl⟩

theorem assignNames_eq_ok {vs names : List Value} (h : assignNames vs = .ok names) :
    names = nameFrom 0 (givenTexts vs) vs := by
  obtain ⟨-, -, h⟩ := bind_eq_ok.mp h
  exact (Except.ok.inj h).symm

/-- A name that is given stays. -/
theorem getElem?_nameFrom_of_isGiven {index : Nat} {used : List String} {vs : List Value} {i : Nat}
    {v w : Value} (hv : vs[i]? = some v) (hw : (nameFrom index used vs)[i]? = some w)
    (h : v.isGiven = true) : w = v := by
  induction vs generalizing index used i with
  | nil => simp at hv
  | cons u vs ih =>
    obtain _ | i := i
    · obtain rfl : u = v := by simpa using hv
      simp only [nameFrom, h, if_true, List.getElem?_cons_zero, Option.some.injEq] at hw
      exact hw.symm
    · rw [List.getElem?_cons_succ] at hv
      by_cases hu : u.isGiven = true
      · simp only [nameFrom, hu, if_true, List.getElem?_cons_succ] at hw
        exact ih hv hw
      · simp only [nameFrom, hu] at hw
        exact ih hv hw

/-! ## One control -/

/-- A canonical control that is made from a control of the source: everything but its place. -/
structure Control.IsOf (c : Control) (a : Source.Control) : Prop where
  name : a.name.isGiven = true → c.name = a.name
  type : ControlType.ofValue .ofControlToken a.type = .ok c.type
  sourceType : c.sourceType = a.type.orElse (.text "")
  label : c.label = a.label
  binding : c.binding = a.binding
  gridPosition : c.gridPosition = a.gridPosition
  choices : c.choices = a.choices.map .ofSource
  sectionLink : c.sectionLink = SectionLink.ofSource a
  properties : c.properties = mapProperties a.properties

/-- A canonical control that stands where an entry does. -/
structure Control.HasLinks (c : Control) (e : Entry Source.Control) : Prop where
  parentIndex : c.parentIndex = e.parent.elim .null .count
  depth : c.depth = .count e.depth
  childCount : c.childCount = .count e.descendants

theorem Control.exists_ofEntry_eq_ok {e : Entry Source.Control} {name : Value} :
    (∃ c, ofEntry e name = .ok c) ↔
      (e.label.type.isGiven = true → e.label.type.kind = .text ∨ e.label.type.kind = .bytes) := by
  rw [← ControlType.exists_ofValue_eq_ok .ofControlToken]
  constructor
  · rintro ⟨c, h⟩
    obtain ⟨t, ht, -⟩ := bind_eq_ok.mp h
    exact ⟨t, ht⟩
  · rintro ⟨t, ht⟩
    exact ⟨_, by rw [ofEntry, ht]; rfl⟩

theorem Control.ofEntry_eq_ok {e : Entry Source.Control} {name : Value} {c : Control}
    (h : ofEntry e name = .ok c) (hname : e.label.name.isGiven = true → name = e.label.name) :
    c.IsOf e.label ∧ c.HasLinks e ∧ c.name = name := by
  obtain ⟨t, ht, h⟩ := bind_eq_ok.mp h
  obtain rfl := Except.ok.inj h
  exact ⟨⟨hname, ht, rfl, rfl, rfl, rfl, rfl, rfl, rfl⟩, ⟨rfl, rfl, rfl⟩, rfl⟩

/-! ## All controls -/

/-- A flattened forest becomes controls when each of its entries can be named and typed. -/
theorem Control.exists_ofEntries_eq_ok {es : List (Entry Source.Control)} :
    (∃ cs, ofEntries es = .ok cs) ↔ ∀ e ∈ es, e.label.Mappable := by
  constructor
  · rintro ⟨cs, h⟩ e he
    obtain ⟨names, hnames, hcs⟩ := bind_eq_ok.mp h
    have hkeys := exists_assignNames_eq_ok.mp ⟨names, hnames⟩
    refine ⟨hkeys _ (List.mem_map_of_mem he), ?_⟩
    -- the entry has a name at its side, so it was made into a control
    have hlen : names.length = es.length := by
      rw [assignNames_eq_ok hnames, length_nameFrom, List.length_map]
    obtain ⟨i, hi, rfl⟩ := List.getElem_of_mem he
    have hpair : (es[i], names[i]) ∈ es.zip names := by
      rw [List.mem_iff_getElem]
      exact ⟨i, by rw [List.length_zip]; omega, List.getElem_zip⟩
    exact exists_ofEntry_eq_ok.mp (exists_mapM_eq_ok.mp ⟨cs, hcs⟩ _ hpair)
  · intro h
    have hkeys : ∀ v ∈ es.map (·.label.name), v.isGiven = true → v.unhashable? = none := by
      intro v hv
      obtain ⟨e, he, rfl⟩ := List.mem_map.mp hv
      exact (h e he).name
    obtain ⟨names, hnames⟩ := exists_assignNames_eq_ok.mpr hkeys
    have heach : ∀ p ∈ es.zip names, ∃ c, ofEntry p.1 p.2 = .ok c := fun p hp =>
      exists_ofEntry_eq_ok.mpr (h p.1 (List.of_mem_zip hp).1).type
    obtain ⟨cs, hcs⟩ := exists_mapM_eq_ok.mpr heach
    exact ⟨cs, bind_eq_ok.mpr ⟨names, hnames, hcs⟩⟩

/-- Each control comes from the entry of its number. -/
theorem Control.ofEntries_eq_ok {es : List (Entry Source.Control)} {cs : List Control}
    (h : ofEntries es = .ok cs) : cs.length = es.length ∧
      ∀ (i : Nat) (c : Control), cs[i]? = some c →
        ∃ e, es[i]? = some e ∧ c.IsOf e.label ∧ c.HasLinks e := by
  obtain ⟨names, hnames, hcs⟩ := bind_eq_ok.mp h
  have hlen : names.length = es.length := by
    rw [assignNames_eq_ok hnames, length_nameFrom, List.length_map]
  constructor
  · rw [length_of_mapM_eq_ok hcs, List.length_zip, hlen, Nat.min_self]
  · intro i c hc
    obtain ⟨⟨e, name⟩, hp, hce⟩ := getElem?_of_mapM_eq_ok hcs hc
    obtain ⟨he, hn⟩ := List.getElem?_zip_eq_some.mp hp
    refine ⟨e, he, ?_⟩
    have hname : e.label.name.isGiven = true → name = e.label.name := by
      rw [assignNames_eq_ok hnames] at hn
      exact getElem?_nameFrom_of_isGiven (by rw [List.getElem?_map, he]; rfl) hn
    exact ⟨(ofEntry_eq_ok hce hname).1, (ofEntry_eq_ok hce hname).2.1⟩

/-- Nested controls are mapped when they are not nested too deeply and each can be named and
typed. -/
theorem exists_mapControls_eq_ok {f : Forest Source.Control} :
    (∃ cs, mapControls f = .ok cs) ↔ f.height ≤ maxDepth ∧ ∀ a ∈ f.labels, a.Mappable := by
  have hlabels : (∀ e ∈ f.flatten, e.label.Mappable) ↔ ∀ a ∈ f.labels, a.Mappable := by
    rw [← Forest.map_label_flattenAt f none 0 0]
    simp [Forest.flatten]
  rw [← hlabels, ← Control.exists_ofEntries_eq_ok, mapControls]
  by_cases h : maxDepth < f.height
  · simp [h, Nat.not_le.mpr h]
  · simp [h, Nat.not_lt.mp h]

/-! ## Controls and places -/

/-- What holds of control number `i` of a flattened forest, which belongs to the place `p`. -/
structure Placed (f : Forest Source.Control) (ps : List Place) (cs : List Control) (i : Nat)
    (c : Control) (p : Place) : Prop where
  node : ∃ a, f.node? p = some a ∧ c.IsOf a
  depth : c.depth = .count (p.length - 1)
  root : c.parentIndex = .null ↔ p.length = 1
  /-- Below a root, the parent is the control of the place above. It stands before its children,
  is one level higher, and its descendants reach to each of them. -/
  parent : 1 < p.length → ∃ (j : Nat) (d : Control) (level inside : Nat),
    j < i ∧ ps[j]? = some p.dropLast ∧ cs[j]? = some d ∧ c.parentIndex = .count j ∧
      d.depth = .count level ∧ c.depth = .count (level + 1) ∧
      d.childCount = .count inside ∧ i ≤ j + inside
  childCount : c.childCount = .count (ps.countP (·.isBelow p))
  inside : i + ps.countP (·.isBelow p) < cs.length

/-- A list of controls that is the flattening of a forest, whose nodes stand at the places `ps`. -/
structure Flattened (f : Forest Source.Control) (ps : List Place) (cs : List Control) : Prop where
  /-- The places are those of the nodes, once each, -/
  holds : ∀ p, p ∈ ps ↔ (f.node? p).isSome
  /-- in pre-order, -/
  ordered : ps.Pairwise (· < ·)
  /-- and there is one control for each. -/
  length : cs.length = ps.length
  placed : ∀ (i : Nat) (c : Control) (p : Place), cs[i]? = some c → ps[i]? = some p →
    Placed f ps cs i c p
  /-- The ranges of two controls with their descendants are nested or disjoint. -/
  laminar : ∀ (i j : Nat) (c d : Control) (m n : Nat), cs[i]? = some c → cs[j]? = some d →
    c.childCount = .count m → d.childCount = .count n →
    (i ≤ j ∧ j + n ≤ i + m) ∨ (j ≤ i ∧ i + m ≤ j + n) ∨ i + m < j ∨ j + n < i

theorem ofEntries_of_mapControls {f : Forest Source.Control} {cs : List Control}
    (h : mapControls f = .ok cs) : Control.ofEntries f.flatten = .ok cs := by
  unfold mapControls at h
  split at h
  · cases h
  · exact h

section
variable {f : Forest Source.Control} {cs : List Control} {i : Nat} {c : Control} {p : Place}

theorem length_of_mapControls (h : mapControls f = .ok cs) : cs.length = f.size := by
  rw [(Control.ofEntries_eq_ok (ofEntries_of_mapControls h)).1, Forest.length_flatten]

/-- The control of a number and the place of that number belong to one entry. -/
theorem exists_at_of_mapControls (h : mapControls f = .ok cs) (hc : cs[i]? = some c)
    (hp : f.places[i]? = some p) : ∃ e, f.At none 0 0 i e p ∧ c.IsOf e.label ∧ c.HasLinks e := by
  obtain ⟨e, he, his, hlinks⟩ := (Control.ofEntries_eq_ok (ofEntries_of_mapControls h)).2 i c hc
  exact ⟨e, ⟨he, hp⟩, his, hlinks⟩

theorem placed_of_mapControls (h : mapControls f = .ok cs) (hc : cs[i]? = some c)
    (hp : f.places[i]? = some p) : Placed f f.places cs i c p := by
  obtain ⟨e, hat, his, hlinks⟩ := exists_at_of_mapControls h hc hp
  have hdepth := hat.depth_add_one
  have hpos := List.length_pos_iff.mpr (Forest.ne_nil_of_mem_places hat.mem_places)
  have hinside := hat.descendants_eq_countP
  refine ⟨⟨e.label, ?_, his⟩, ?_, ?_, ?_, ?_, ?_⟩
  · refine Forest.node?_of_getElem? hp ?_
    rw [← Forest.map_label_flattenAt f none 0 0, List.getElem?_map, hat.1]
    rfl
  · rw [hlinks.depth, show e.depth = p.length - 1 by omega]
  · constructor
    · intro hnull
      rcases Nat.lt_or_ge 1 p.length with hbelow | hroot
      · obtain ⟨j, -, -, hj⟩ := hat.exists_parent hbelow
        rw [hlinks.parentIndex, hj] at hnull
        exact Value.noConfusion hnull
      · omega
    · intro hroot
      rw [hlinks.parentIndex, hat.parent_of_root hroot]
      rfl
  · intro hbelow
    obtain ⟨j, hj, hjp, hparent⟩ := hat.exists_parent hbelow
    have hjs : j < cs.length := by
      rw [length_of_mapControls h]
      exact Nat.lt_trans hj hat.lt_size
    obtain ⟨e', hat', -, hlinks'⟩ :=
      exists_at_of_mapControls h (List.getElem?_eq_getElem hjs) hjp
    have hdepth' := hat'.depth_add_one
    rw [List.length_dropLast] at hdepth'
    refine ⟨j, cs[j], e'.depth, e'.descendants, hj, hjp, List.getElem?_eq_getElem hjs, ?_,
      hlinks'.depth, ?_, hlinks'.childCount, ?_⟩
    · rw [hlinks.parentIndex, hparent, Nat.zero_add]
      rfl
    · rw [hlinks.depth, show e.depth = e'.depth + 1 by omega]
    · exact ((hat'.prefix_iff_between hat).mp (List.dropLast_prefix p)).2
  · rw [hlinks.childCount, hinside]
  · rw [← hinside, length_of_mapControls h]
    exact hat.add_descendants_lt

end

end Form

end Formwright
