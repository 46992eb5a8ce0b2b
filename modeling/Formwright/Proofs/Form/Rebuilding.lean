import Formwright.Proofs.Forest.Rebuilding
import Formwright.Proofs.Form.Flattening
import Mathlib.Data.List.Forall2

/-
  Nested controls from flattened ones. The depths of the controls of a view, their counts or their
  parents, each without the other two, are enough to nest the nodes again as they were
  (`mapControls_rebuilt`). So no two nestings lead to the same controls, and of the three links each
  says what the others say.
-/

namespace Formwright

/-- The place or the number that a link says. -/
def Value.toNat? : Value → Option Nat
  | .int (.ofNat n) => some n
  | _ => none

theorem Value.toNat?_count (n : Nat) : (count n).toNat? = some n := rfl

theorem Value.toNat?_elim (place : Option Nat) : (place.elim .null count).toNat? = place := by
  cases place <;> rfl

namespace Form

section
variable {α : Type}

/-- Nodes nested by the depths of their controls. -/
def nestedByDepth (nodes : List α) (cs : List Control) : Forest α :=
  .ofDepths (nodes.zip (cs.map fun c => c.depth.toNat?.getD 0))

/-- Nodes nested by the counts of their controls. -/
def nestedByCount (nodes : List α) (cs : List Control) : Forest α :=
  .ofDescendants (nodes.zip (cs.map fun c => c.childCount.toNat?.getD 0))

/-- Nodes nested by the parents of their controls. -/
def nestedByParent (nodes : List α) (cs : List Control) : Forest α :=
  .ofParents (nodes.zip (cs.map fun c => c.parentIndex.toNat?))

end

/-- The nodes of a forest in the order of its flattening. -/
def nodesOf (f : Forest Source.Control) : List Source.Control := f.flatten.map (·.label)

section
variable {f g : Forest Source.Control} {cs ds : List Control}

theorem forall₂_of_mapControls (h : mapControls f = .ok cs) :
    List.Forall₂ (fun c e => c.IsOf e.label ∧ c.HasLinks e) cs f.flatten := by
  obtain ⟨hlength, heach⟩ := Control.ofEntries_eq_ok (ofEntries_of_mapControls h)
  refine List.forall₂_iff_get.mpr ⟨hlength, fun i hi hi' => ?_⟩
  obtain ⟨e, he, his, hlinks⟩ := heach i _ (List.getElem?_eq_getElem hi)
  rw [List.getElem?_eq_getElem hi', Option.some.injEq] at he
  rw [List.get_eq_getElem, List.get_eq_getElem, he]
  exact ⟨his, hlinks⟩

/-- What controls say of their entries, beside the nodes of these. -/
theorem zip_nodesOf {γ : Type} (link : Entry Source.Control → γ) (h : mapControls f = .ok cs)
    {said : Control → γ} (hsaid : ∀ c e, c.HasLinks e → said c = link e) :
    (nodesOf f).zip (cs.map said) = f.flatten.map fun e => (e.label, link e) := by
  unfold nodesOf
  have hlinks := (forall₂_of_mapControls h).imp fun c e hce => hsaid c e hce.2
  clear h
  generalize f.flatten = es at hlinks
  induction hlinks with
  | nil => rfl
  | cons hce _ ih => rw [List.map_cons, List.map_cons, List.zip_cons_cons, ih, hce, List.map_cons]

/-- Where a link of the entries decides the shape of a forest, so does what controls say of it. -/
theorem map_said_inj {γ δ : Type} {said : Control → γ} {link : Entry Source.Control → δ} {say : δ → γ}
    (hsay : Function.Injective say) (hsaid : ∀ c e, c.HasLinks e → said c = say (link e))
    (hf : mapControls f = .ok cs) (hg : mapControls g = .ok ds) :
    cs.map said = ds.map said ↔ f.flatten.map link = g.flatten.map link := by
  have hmap : ∀ {f : Forest Source.Control} {cs : List Control}, mapControls f = .ok cs →
      cs.map said = (f.flatten.map link).map say := by
    intro f cs h
    rw [List.map_map, ← List.forall₂_eq_eq_eq, List.forall₂_map_left_iff, List.forall₂_map_right_iff]
    exact (forall₂_of_mapControls h).imp fun c e hce => hsaid c e hce.2
  rw [hmap hf, hmap hg]
  exact (List.map_injective_iff.mpr hsay).eq_iff

end

/-- Controls that keep how the nodes were nested that they were mapped from. -/
structure Lossless (f : Forest Source.Control) (cs : List Control) : Prop where
  /-- There is one control for each node, in the order of the nodes. -/
  nodes : List.Forall₂ Control.IsOf cs (nodesOf f)
  /-- The depths alone say how the nodes were nested, -/
  byDepth : nestedByDepth (nodesOf f) cs = f.pruned
  /-- so do the counts, -/
  byCount : nestedByCount (nodesOf f) cs = f.pruned
  /-- and so do the parents. -/
  byParent : nestedByParent (nodesOf f) cs = f.pruned
  /-- Nodes that are nested in another way are mapped to other controls, -/
  apart : ∀ g, mapControls g = .ok cs → f.shape = g.shape
  /-- namely to controls of other depths, other counts and other parents. -/
  links : ∀ g ds, mapControls g = .ok ds →
    (cs.map (·.depth) = ds.map (·.depth) ↔ f.shape = g.shape) ∧
      (cs.map (·.childCount) = ds.map (·.childCount) ↔ f.shape = g.shape) ∧
      (cs.map (·.parentIndex) = ds.map (·.parentIndex) ↔ f.shape = g.shape)

/-- Forests of at most 300 levels are flattened without loss: they are rebuilt, up to gaps, from their
nodes and any one link of the controls. -/
theorem mapControls_rebuilt (f : Forest Source.Control) (hf : f.height ≤ 300) :
    ((∃ cs, mapControls f = .ok cs) ↔ ∀ a ∈ nodesOf f, a.Mappable) ∧
      ∀ cs, mapControls f = .ok cs → Lossless f cs := by
  have hdeep : f.height ≤ maxDepth := Nat.le_trans hf (by decide)
  constructor
  · rw [exists_mapControls_eq_ok, nodesOf, Forest.flatten, Forest.map_label_flattenAt]
    exact and_iff_right hdeep
  intro cs h
  have hcount : Function.Injective Value.count := fun _ _ => Value.count_inj.mp
  have hplace : Function.Injective fun place : Option Nat => place.elim Value.null Value.count :=
    Function.LeftInverse.injective Value.toNat?_elim
  have hlinks : ∀ g ds, mapControls g = .ok ds →
      (cs.map (·.depth) = ds.map (·.depth) ↔ f.shape = g.shape) ∧
        (cs.map (·.childCount) = ds.map (·.childCount) ↔ f.shape = g.shape) ∧
        (cs.map (·.parentIndex) = ds.map (·.parentIndex) ↔ f.shape = g.shape) := by
    intro g ds hg
    have hdepths := map_said_inj hcount (fun _ _ hce => hce.depth) h hg
    have hcounts := map_said_inj hcount (fun _ _ hce => hce.childCount) h hg
    have hparents := map_said_inj hplace (fun _ _ hce => hce.parentIndex) h hg
    exact ⟨hdepths.trans Forest.map_depth_flatten_inj,
      hcounts.trans Forest.map_descendants_flatten_inj, hparents.trans Forest.map_parent_flatten_inj⟩
  constructor
  · rw [nodesOf, List.forall₂_map_right_iff]
    exact (forall₂_of_mapControls h).imp fun _ _ hce => hce.1
  · rw [nestedByDepth, zip_nodesOf (·.depth) h, Forest.ofDepths_flatten]
    intro c e hce
    rw [hce.depth, Value.toNat?_count, Option.getD_some]
  · rw [nestedByCount, zip_nodesOf (·.descendants) h, Forest.ofDescendants_flatten]
    intro c e hce
    rw [hce.childCount, Value.toNat?_count, Option.getD_some]
  · rw [nestedByParent, zip_nodesOf (·.parent) h, Forest.ofParents_flatten]
    intro c e hce
    rw [hce.parentIndex, Value.toNat?_elim]
  · exact fun g hg => (hlinks g cs hg).1.mp rfl
  · exact hlinks

/-- Two containers side by side, one inside of a third, with gaps between them. -/
theorem mapControls_rebuilt_containers :
    let f : Forest Source.Control :=
      .gap (.node { name := .text "a", type := .text "Group" }
        (.node { type := .text "Section" } (.node { name := .text "b" } .nil (.gap .nil)) (.gap .nil))
        (.node { name := .text "c", type := .text "Group" } (.gap (.node {} .nil .nil)) .nil))
    f.height ≤ 300 ∧ ∃ cs, mapControls f = .ok cs ∧ Lossless f cs := by
  intro f
  have hf : f.height ≤ 300 := by decide
  have hnodes : ∀ a ∈ nodesOf f, a.Mappable := by
    intro a ha
    simp only [nodesOf, f, Forest.flatten, Forest.map_label_flattenAt, Forest.labels, List.append_nil,
      List.nil_append, List.cons_append, List.mem_cons, List.not_mem_nil, or_false] at ha
    rcases ha with rfl | rfl | rfl | rfl | rfl <;>
      exact ⟨fun _ => rfl, fun h => by first | exact Or.inl rfl | exact Bool.noConfusion h⟩
  obtain ⟨cs, hcs⟩ := (mapControls_rebuilt f hf).1.mpr hnodes
  exact ⟨hf, cs, hcs, (mapControls_rebuilt f hf).2 cs hcs⟩

end Form

end Formwright
