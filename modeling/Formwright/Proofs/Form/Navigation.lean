import Formwright.Form.Navigation
import Formwright.Proofs.Forest.Subforests
import Formwright.Proofs.Form.Rebuilding
import Formwright.Proofs.Pointwise

/-
  Finding controls as they were nested. The controls of a view stand for the nodes that they were mapped
  from (`forall₂_standsFor`). To ask for what lies inside a control, or directly inside, is to ask for
  the nodes below its own in the source: all of them, or the children only. So the controls inside one
  are its children in order, each followed by the controls inside it (`View.ofSource_navigable`).
-/

namespace Formwright

namespace Form

/-- A control of a list that stands for the node of a forest at a place: it has the number of that place
and was made from that node. -/
structure StandsFor (f : Forest Source.Control) (cs : List Control) (c : Control) (p : Place) : Prop where
  number : ∃ i : Nat, cs[i]? = some c ∧ f.places[i]? = some p
  node : ∃ a, f.node? p = some a ∧ c.IsOf a

/-! ## Reading a list by numbers -/

theorem itemAt_eq_ok {α : Type} {xs : List α} {i : Nat} {x : α} (h : xs[i]? = some x) :
    itemAt xs i = .ok x := by
  have hi : ¬ (i : Int) < 0 := by omega
  simp only [itemAt, if_neg hi, Int.toNat_natCast, h]

theorem slice_eq {α : Type} {xs : List α} {i n : Nat} (h : i + n ≤ xs.length) :
    slice xs i (i + n) = (xs.drop i).take n := by
  have hstart : bound xs.length i = i := by
    simp only [bound]
    split <;> omega
  have hstop : bound xs.length (i + n) = i + n := by
    simp only [bound]
    split <;> omega
  rw [slice, hstart, hstop, List.drop_take, Nat.add_sub_cancel_left]

/-! ## Controls and nodes -/

section
variable {f : Forest Source.Control} {v : View} {i : Nat} {e : Entry Source.Control} {p : Place}

/-- Each control stands for the node of its number, with the links of its entry. -/
theorem forall₂_standsFor {cs : List Control} (h : mapControls f = .ok cs) :
    List.Forall₂ (fun c z => c.HasLinks z.1 ∧ StandsFor f cs c z.2) cs (f.located none 0 0) := by
  refine List.forall₂_iff_get.mpr ⟨by rw [Forest.length_located, length_of_mapControls h], ?_⟩
  intro i hi hi'
  have hc := List.getElem?_eq_getElem hi
  have hat := Forest.at_iff_located.mpr (List.getElem?_eq_getElem hi')
  obtain ⟨e, hat', his, hlinks⟩ := exists_at_of_mapControls h hc hat.2
  have he := Option.some.inj (hat'.1.symm.trans hat.1)
  refine ⟨he ▸ hlinks, ⟨i, hc, hat.2⟩, e.label, Forest.node?_of_getElem? hat.2 ?_, his⟩
  rw [← Forest.map_label_flattenAt f none 0 0, List.getElem?_map, hat'.1]
  rfl

/-- A control has a place, and the links of an entry. -/
theorem exists_at_of_lt {cs : List Control} (h : mapControls f = .ok cs) (hi : i < cs.length) :
    ∃ (c : Control) (e : Entry Source.Control) (p : Place), cs[i]? = some c ∧ f.At none 0 0 i e p ∧ c.HasLinks e := by
  have hsize : i < f.size := by rwa [← length_of_mapControls h]
  obtain ⟨_, p, hat⟩ := f.exists_at none 0 0 hsize
  obtain ⟨e, hat', -, hlinks⟩ := exists_at_of_mapControls h (List.getElem?_eq_getElem hi) hat.2
  exact ⟨cs[i], e, p, List.getElem?_eq_getElem hi, hat', hlinks⟩

/-- The controls inside one stand directly behind it. -/
theorem View.descendants_eq (h : mapControls f = .ok v.controls) (hat : f.At none 0 0 i e p) :
    v.descendants i = .ok ((v.controls.drop (i + 1)).take e.descendants) := by
  have hlt := hat.add_descendants_lt
  rw [← length_of_mapControls h] at hlt
  obtain ⟨c, e', p', hc, hat', hlinks⟩ := exists_at_of_lt h (i := i) (by omega)
  obtain rfl := Option.some.inj (hat.1.symm.trans hat'.1)
  have hcount : wholeCount c.childCount = .ok (e.descendants : Int) := by
    rw [hlinks.childCount]
    rfl
  rw [descendants, itemAt_eq_ok hc, ok_bind, hcount, ok_bind]
  exact congrArg Except.ok (slice_eq (i := i + 1) (by omega))

/-- A control lies directly inside the one that its entry has for a parent. -/
theorem Control.HasLinks.parentIndex_same {c : Control} (h : c.HasLinks e) :
    c.parentIndex.same (.int i) = true ↔ e.parent = some i := by
  rw [h.parentIndex]
  cases e.parent with
  | none => simp [Value.same]
  | some j =>
    rw [Option.elim_some, Value.same_iff_key_eq (j := .number j) (k := .number i) _ _ rfl rfl,
      Key.number.injEq, Option.some.injEq]
    exact Int.ofNat_inj

/-- What asking for the controls inside one gives, for the control of number `i` that stands for the
node at the place `p`. -/
structure Navigable (f : Forest Source.Control) (v : View) (i : Nat) (p : Place) : Prop where
  /-- The controls directly inside are those of the children of the node, from left to right. -/
  children : ∃ cs, v.children i = .ok cs ∧
    List.Forall₂ (StandsFor f v.controls) cs ((f.childrenAt p).roots.map fun k => p ++ [k])
  /-- The controls inside are those of all nodes below the node, in pre-order. -/
  descendants : ∃ cs, v.descendants i = .ok cs ∧
    List.Forall₂ (StandsFor f v.controls) cs ((f.childrenAt p).places.map (p ++ ·))
  /-- They are the children, each with the controls inside it directly behind it. -/
  families : ∃ js : List Nat,
    List.Forall₂ (fun j k => f.places[j]? = some (p ++ [k])) js (f.childrenAt p).roots ∧
      v.children i = js.mapM (fun j : Nat => itemAt v.controls j) ∧
      v.descendants i = List.flatten <$> js.mapM fun j : Nat => do
        return (← itemAt v.controls j) :: (← v.descendants j)

/-- The controls inside one stand for the nodes below its own, with the links of their entries. -/
theorem forall₂_descendants (h : mapControls f = .ok v.controls) (hat : f.At none 0 0 i e p) :
    List.Forall₂ (fun c z => c.HasLinks z.1 ∧ StandsFor f v.controls c (p ++ z.2))
      ((v.controls.drop (i + 1)).take e.descendants)
      ((f.childrenAt p).located (some i) (e.depth + 1) (i + 1)) := by
  have hall := List.forall₂_take e.descendants (List.forall₂_drop (i + 1) (forall₂_standsFor h))
  rw [hat.take_located, List.forall₂_map_right_iff, Nat.zero_add] at hall
  exact hall

/-- The controls directly inside one stand for the children of its node. -/
theorem forall₂_children (h : mapControls f = .ok v.controls) (hat : f.At none 0 0 i e p) :
    List.Forall₂ (StandsFor f v.controls)
      (((v.controls.drop (i + 1)).take e.descendants).filter fun c => c.parentIndex.same (.int i))
      ((f.childrenAt p).roots.map fun k => p ++ [k]) := by
  have hfilter : List.Forall₂ (fun c z => c.HasLinks z.1 ∧ StandsFor f v.controls c (p ++ z.2))
      (((v.controls.drop (i + 1)).take e.descendants).filter fun c => c.parentIndex.same (.int i))
      (((f.childrenAt p).located (some i) (e.depth + 1) (i + 1)).filter fun z => z.1.parent = some i) := by
    refine List.rel_filter (fun c z hcz => ?_) (forall₂_descendants h hat)
    exact hcz.1.parentIndex_same.trans decide_eq_true_iff.symm
  have hroots := (f.childrenAt p).map_filter_located (some i) (e.depth + 1) (i + 1)
    fun j hj => by have := Option.some.inj hj; omega
  have hplaces := congrArg (List.map (p ++ ·)) hroots
  rw [List.map_map, List.map_map] at hplaces
  rw [show ((f.childrenAt p).roots.map fun k => p ++ [k]) = _ from hplaces.symm,
    List.forall₂_map_right_iff]
  exact hfilter.imp fun c z hcz => hcz.2

/-- The controls inside one are its children, each with the controls inside it behind it. -/
theorem descendants_eq_families (h : mapControls f = .ok v.controls) (hat : f.At none 0 0 i e p) :
    v.descendants i = List.flatten <$> ((f.childrenAt p).spans.map fun s => i + 1 + s.1).mapM
      fun j : Nat => do return (← itemAt v.controls j) :: (← v.descendants j) := by
  generalize hw : (v.controls.drop (i + 1)).take e.descendants = window
  have hlength : window.length = (f.childrenAt p).size := by
    rw [← hw, (forall₂_descendants h hat).length_eq, Forest.length_located]
  have hspans : ∀ s ∈ (f.childrenAt p).spans, ∃ e' k,
      f.At none 0 0 (i + 1 + s.1) e' (p ++ [k]) ∧ e'.descendants = s.2 := by
    have hall := hat.forall₂_spans.imp (S := fun s _ => (∃ e' k,
      f.At none 0 0 (i + 1 + s.1) e' (p ++ [k]) ∧ e'.descendants = s.2) ∧ True)
      fun s k ⟨e', hat', hs⟩ => ⟨⟨e', k, hat', hs⟩, trivial⟩
    exact ((List.forall₂_and_left _ _).mp hall).1
  have hfamily : ∀ s ∈ (f.childrenAt p).spans,
      (do return (← itemAt v.controls (i + 1 + s.1 : Nat)) :: (← v.descendants (i + 1 + s.1 : Nat)) :
        Except Fault (List Control)) = .ok ((window.drop s.1).take (s.2 + 1)) := by
    intro s hs
    obtain ⟨e', k, hat', hn⟩ := hspans s hs
    -- a child and what lies inside it are among what lies inside the control
    have hbetween := (hat.prefix_iff_between hat').mp (List.prefix_append p [k])
    have hwithin := hat.descendants_within hat' hbetween.1 hbetween.2
    have hlt : i + 1 + s.1 < v.controls.length := by
      rw [length_of_mapControls h]
      exact hat'.lt_size
    rw [itemAt_eq_ok (List.getElem?_eq_getElem hlt), View.descendants_eq h hat', hn, ← hw,
      List.drop_take, List.drop_drop, List.take_take, Nat.min_eq_left (by omega),
      List.drop_eq_getElem_cons hlt, List.take_succ_cons]
    rfl
  have hmap : ((f.childrenAt p).spans.map fun s => i + 1 + s.1).mapM (fun j : Nat => do
      return (← itemAt v.controls j) :: (← v.descendants j)) =
      .ok ((f.childrenAt p).spans.map fun s => (window.drop s.1).take (s.2 + 1)) := by
    rw [mapM_eq_ok, List.map_map, List.map_map]
    exact List.map_congr_left hfamily
  rw [View.descendants_eq h hat, hw, hmap]
  exact congrArg Except.ok ((f.childrenAt p).eq_flatMap_spans hlength)

/-- The control that stands for a node is the one of the number of its place. -/
theorem StandsFor.getElem? {cs : List Control} {c : Control} (h : StandsFor f cs c p)
    (hp : f.places[i]? = some p) : cs[i]? = some c := by
  obtain ⟨j, hj, hjp⟩ := h.number
  have hnodup : f.places.Nodup := by
    refine f.pairwise_places.imp fun {q r} hlt heq => ?_
    exact List.lt_irrefl r (heq ▸ hlt)
  have hi := (List.getElem?_eq_some_iff.mp hp).1
  obtain rfl := (List.getElem?_inj hi hnodup).mp (hp.trans hjp.symm)
  exact hj

/-- Whatever stands for a node can be asked for what lies inside of it. -/
theorem navigable (h : mapControls f = .ok v.controls) (hat : f.At none 0 0 i e p) :
    Navigable f v i p := by
  have hchildren := forall₂_children h hat
  have hask : v.children i = .ok (((v.controls.drop (i + 1)).take e.descendants).filter
      fun c => c.parentIndex.same (.int i)) := by
    rw [View.children, View.descendants_eq h hat]
    rfl
  constructor
  · exact ⟨_, hask, hchildren⟩
  · refine ⟨_, View.descendants_eq h hat, ?_⟩
    have hplaces : ((f.childrenAt p).located (some i) (e.depth + 1) (i + 1)).map (·.2) =
        (f.childrenAt p).places :=
      List.map_snd_zip (by simp)
    rw [← hplaces, List.map_map, List.forall₂_map_right_iff]
    exact (forall₂_descendants h hat).imp fun _ _ hcz => hcz.2
  · have hnumbers : List.Forall₂ (fun j k => f.places[j]? = some (p ++ [k]))
        ((f.childrenAt p).spans.map fun s => i + 1 + s.1) (f.childrenAt p).roots := by
      rw [List.forall₂_map_left_iff]
      exact hat.forall₂_spans.imp fun s k ⟨e', hat', _⟩ => hat'.2
    refine ⟨_, hnumbers, ?_, descendants_eq_families h hat⟩
    rw [List.forall₂_map_right_iff] at hchildren
    rw [hask, eq_comm, mapM_eq_ok, ← List.forall₂_eq_eq_eq, List.forall₂_map_left_iff,
      List.forall₂_map_right_iff]
    exact forall₂_trans hnumbers hchildren.flip fun hj hc => itemAt_eq_ok (hc.getElem? hj)

end

theorem View.exists_ofSource_eq_ok {s : Source.View} : (∃ v, ofSource s = .ok v) ↔
    s.controls.height ≤ maxDepth ∧ ∀ a ∈ s.controls.labels, a.Mappable := by
  rw [← exists_mapControls_eq_ok, ofSource, exists_bind_pure_eq_ok]

theorem View.mapControls_of_ofSource {s : Source.View} {v : View} (h : ofSource s = .ok v) :
    mapControls s.controls = .ok v.controls := by
  obtain ⟨cs, hcs, h⟩ := bind_eq_ok.mp h
  obtain rfl := Except.ok.inj h
  exact hcs

/-- A view whose controls are nested at most 300 levels deep is mapped when these can be named and typed,
and each of its controls can then be asked for the controls inside: they are those of the nodes below
its own, and its children are those of the children of its node. -/
theorem View.ofSource_navigable (s : Source.View) (hs : s.controls.height ≤ 300) :
    ((∃ v, ofSource s = .ok v) ↔ ∀ a ∈ s.controls.labels, a.Mappable) ∧
      ∀ v, ofSource s = .ok v → v.controls.length = s.controls.places.length ∧
        ∀ (i : Nat) (p : Place), s.controls.places[i]? = some p → Navigable s.controls v i p := by
  have hdeep : s.controls.height ≤ maxDepth := Nat.le_trans hs (by decide)
  constructor
  · rw [exists_ofSource_eq_ok]
    exact and_iff_right hdeep
  · intro v hv
    have h := mapControls_of_ofSource hv
    have hlength : v.controls.length = s.controls.places.length := by
      rw [length_of_mapControls h, Forest.length_places]
    refine ⟨hlength, fun i p hp => ?_⟩
    have hi : i < v.controls.length := hlength ▸ (List.getElem?_eq_some_iff.mp hp).1
    obtain ⟨c, e, q, -, hat, -⟩ := exists_at_of_lt h hi
    obtain rfl := Option.some.inj (hp.symm.trans hat.2)
    exact navigable h hat

/-- A table with two children, one of which is a group, asked for what lies inside; so is the group. -/
theorem View.ofSource_navigable_table :
    let s : Source.View := {
      controls := .node { name := .text "Items", type := .text "RepeatingTable" }
        (.gap (.node { type := .text "Group" } (.node { name := .text "Price" } .nil .nil)
          (.gap (.node { name := .text "Count" } .nil .nil))))
        (.node { name := .text "Total" } .nil .nil) }
    s.controls.height ≤ 300 ∧ ∃ v, ofSource s = .ok v ∧ v.controls.length = 5 ∧
      Navigable s.controls v 0 [0] ∧ Navigable s.controls v 1 [0, 1] := by
  intro s
  have hs : s.controls.height ≤ 300 := by decide
  have hlabels : ∀ a ∈ s.controls.labels, a.Mappable := by
    intro a ha
    simp only [s, Forest.labels, List.append_nil, List.nil_append, List.cons_append,
      List.mem_cons, List.not_mem_nil, or_false] at ha
    rcases ha with rfl | rfl | rfl | rfl | rfl <;>
      exact ⟨fun _ => rfl, fun h => by first | exact Or.inl rfl | exact Bool.noConfusion h⟩
  obtain ⟨v, hv⟩ := (ofSource_navigable s hs).1.mpr hlabels
  obtain ⟨hlength, hnavigable⟩ := (ofSource_navigable s hs).2 v hv
  exact ⟨hs, v, hv, hlength, hnavigable 0 [0] rfl, hnavigable 1 [0, 1] rfl⟩

end Form

end Formwright
