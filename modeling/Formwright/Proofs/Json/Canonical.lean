import Formwright.Proofs.Json.Reading
import Formwright.Proofs.StableSort
import Formwright.Proofs.Value.Texts
import Mathlib.Data.List.Nodup
import Mathlib.Tactic.Choose

/-
  Canonical texts. Members are written in the order of their names, which are distinct, so their order
  in a record does not matter (`arrange_members`, `byName_eq_of_perm`). So a plain value has one
  canonical text at each level, which is the text of every value that mirrors it, and the text spells
  such a value (`exists_canonical`). A canonical text as a whole is read as a value that mirrors what
  was written (`write_faithful`).
-/

namespace Formwright

namespace Json

/-- Members in ascending order of their names. -/
def byName (fields : List (String × Value)) : List (String × Value) :=
  fields.mergeSort fun f g => f.1 ≤ g.1

theorem byName_perm (fields : List (String × Value)) : (byName fields).Perm fields :=
  List.mergeSort_perm _ _

/-- Sorting leads to one order when the names are distinct. -/
theorem byName_eq_of_perm {fields fields' : List (String × Value)} (hperm : fields.Perm fields')
    (hnames : (fields.map (·.1)).Nodup) : byName fields = byName fields' := by
  have hperm' := ((byName_perm fields).trans hperm).trans (byName_perm fields').symm
  refine hperm'.eq_of_pairwise (fun f g hf hg hfg hgf => ?_) (pairwise_le_mergeSort (·.1) fields)
    (pairwise_le_mergeSort (·.1) fields')
  exact List.inj_on_of_nodup_map hnames ((byName_perm fields).mem_iff.mp hf)
    ((byName_perm fields).mem_iff.mp (hperm'.mem_iff.mpr hg)) (String.le_antisymm hfg hgf)

/-- Texts of members are written in the order of the names. -/
theorem arrange_members (fields : List (String × Value)) (t : String × Value → String) :
    arrange .canonical (fields.map fun f => (.text f.1, t f)) = .ok ((byName fields).map t) := by
  have hcheck : Value.checkOrder ((fields.map fun f => (Value.text f.1, t f)).map Prod.fst) = .ok () := by
    refine Value.checkOrder_of_texts fun v hv => ?_
    rw [List.map_map] at hv
    obtain ⟨f, -, rfl⟩ := List.mem_map.mp hv
    rfl
  have hsort : (byName fields).map (fun f => (Value.text f.1, t f)) =
      (fields.map fun f => (Value.text f.1, t f)).mergeSort fun a b => Value.notAfter a.1 b.1 :=
    List.map_mergeSort fun f _ g _ => (Value.notAfter_text f.1 g.1).symm
  show (Value.sortOn Prod.fst _ >>= _) = _
  rw [Value.sortOn, hcheck, ok_bind, ← hsort]
  show Except.ok (List.map _ (List.map _ _)) = _
  rw [List.map_map]
  rfl

theorem memberTexts_entriesOf {fields found : List (String × Value)}
    (h : List.Forall₂ Member fields found) {level : Nat} {t : String × Value → String}
    (ht : ∀ f ∈ fields, ∀ w, Mirrors f.2 w → valueText .canonical w level = .ok (t f)) :
    memberTexts .canonical (entriesOf found) level =
      .ok (fields.map fun f => (.text f.1, memberText f.1 (t f))) := by
  induction h with
  | nil => rfl
  | @cons f g fields found hfg _ ih =>
    obtain ⟨hf, hfields⟩ := List.forall_mem_cons.mp ht
    show (keyText (.text g.1) >>= _) = _
    rw [keyText, ok_bind, hf g.2 hfg.2, ok_bind]
    show (memberTexts .canonical (entriesOf found) level >>= _) = _
    rw [ih hfields, ← hfg.1]
    rfl

theorem itemTexts_eq_ok {vs ws : List Value} (h : List.Forall₂ Mirrors vs ws) {level : Nat}
    {t : Value → String}
    (ht : ∀ v ∈ vs, ∀ w, Mirrors v w → valueText .canonical w level = .ok (t v)) :
    itemTexts .canonical ws level = .ok (vs.map t) := by
  induction h with
  | nil => rfl
  | @cons v w vs ws hvw _ ih =>
    obtain ⟨hv, hvs⟩ := List.forall_mem_cons.mp ht
    rw [itemTexts, hv w hvw, ok_bind, ih hvs]
    rfl

/-- The text of a value at a level, whatever its order of members, and it is read as such a value. -/
structure Canonical (v : Value) (level : Nat) (s : String) : Prop where
  written : ∀ w, Mirrors v w → valueText .canonical w level = .ok s
  read : ∃ w, Mirrors v w ∧ Spelled s w

theorem Canonical.atom {v : Value} (ha : Atom v) {level : Nat} {s : String}
    (hwritten : valueText .canonical v level = .ok s) (hread : Spelled s v) : Canonical v level s where
  written w hw := by rw [hw.eq_of_atom ha, hwritten]
  read := ⟨v, .refl v, hread⟩

theorem Canonical.list {vs : List Value} {level : Nat} {t : Value → String}
    (ht : ∀ v ∈ vs, Canonical v (level + 1) (t v)) (m : Nat) :
    Canonical (.list m vs) level (Style.canonical.enclose level "[" "]" (vs.map t)) where
  written w hw := by
    obtain ⟨n, ws, rfl, hws⟩ := hw.exists_list
    rw [valueText, itemTexts_eq_ok hws fun v hv => (ht v hv).written]
    rfl
  read := by
    choose! r hr using fun v hv => (ht v hv).read
    refine ⟨.list 0 (vs.map r), .list m 0 ?_, spelled_list ?_ level⟩
    · rw [List.forall₂_map_right_iff, List.forall₂_same]
      exact fun v hv => (hr v hv).1
    · rw [List.forall₂_map_left_iff, List.forall₂_map_right_iff, List.forall₂_same]
      exact fun v hv => (hr v hv).2

theorem Canonical.record {fields : List (String × Value)} (hnames : (fields.map (·.1)).Nodup)
    {level : Nat} {t : String × Value → String}
    (ht : ∀ f ∈ fields, Canonical f.2 (level + 1) (t f)) (m : Nat) :
    Canonical (.map m (entriesOf fields)) level
      (Style.canonical.enclose level "\x7b" "\x7d"
        ((byName fields).map fun f => memberText f.1 (t f))) where
  written w hw := by
    obtain ⟨n, chosen, found, rfl, hperm, hmembers⟩ := hw.exists_record
    have htexts := memberTexts_entriesOf hmembers fun f hf => (ht f (hperm.mem_iff.mp hf)).written
    rw [valueText, htexts, ok_bind, arrange_members, ok_bind, byName_eq_of_perm hperm.symm hnames]
    rfl
  read := by
    choose! r hr using fun f hf => (ht f hf).read
    -- members are read in the order in which they were written, which is that of their names
    have hread : ∀ f ∈ byName fields, Mirrors f.2 (r f) ∧ Spelled (t f) (r f) :=
      fun f hf => hr f ((byName_perm fields).mem_iff.mp hf)
    have hmembers : List.Forall₂ Member (byName fields) ((byName fields).map fun f => (f.1, r f)) := by
      rw [List.forall₂_map_right_iff, List.forall₂_same]
      exact fun f hf => ⟨rfl, (hread f hf).1⟩
    have hspelled : List.Forall₂ SpelledMember ((byName fields).map fun f => (f.1, t f))
        ((byName fields).map fun f => (f.1, r f)) := by
      rw [List.forall₂_map_left_iff, List.forall₂_map_right_iff, List.forall₂_same]
      exact fun f hf => ⟨rfl, (hread f hf).2⟩
    have hsorted : (((byName fields).map fun f => (f.1, r f)).map (·.1)).Nodup := by
      rw [List.map_map]
      exact (((byName_perm fields).map _).nodup_iff).mpr hnames
    have hrecord := spelled_record hspelled hsorted level
    rw [List.map_map] at hrecord
    exact ⟨_, .of_members m 0 (byName_perm fields) hmembers, hrecord⟩

/-- A plain value has one canonical text at each level. -/
theorem exists_canonical {v : Value} (h : Plain v) (level : Nat) : ∃ s, Canonical v level s := by
  induction h generalizing level with
  | null => exact ⟨_, .atom .null rfl spelled_null⟩
  | bool b => exact ⟨_, .atom (.bool b) rfl (spelled_bool b)⟩
  | @int n fits => exact ⟨_, .atom (.int n) rfl (spelled_int fits)⟩
  | text s => exact ⟨_, .atom (.text s) rfl (spelled_text s)⟩
  | list m items ih =>
    choose! t ht using fun v hv => ih v hv (level + 1)
    exact ⟨_, .list ht m⟩
  | record m names values ih =>
    choose! t ht using fun f hf => ih f hf (level + 1)
    exact ⟨_, .record names ht m⟩

/-- The canonical text of a plain value is that of every value that mirrors it, and it is read as such
a value. -/
theorem write_faithful {v : Value} (h : Plain v) : ∃ s,
    (∀ w, Mirrors v w → write .canonical w = .ok s) ∧ ∃ w, Mirrors v w ∧ Json.read s = .ok w := by
  obtain ⟨s, hwritten, w, hw, hread⟩ := exists_canonical h 0
  refine ⟨s, hwritten, _, hw.numbered h s.toList.length, ?_⟩
  have hvalue := hread.read (2 * s.toList.length + 2) [] (by rw [String.length_toList]; omega) ends_nil
  rw [List.append_nil] at hvalue
  rw [Json.read]
  show (value _ _ >>= _) = _
  rw [hvalue]
  rfl

end Json

end Formwright
