import Formwright.Json.Reader
import Formwright.Proofs.Value.Records
import Mathlib.Data.List.Forall2

/-
  Values that a JSON text can carry are plain (`Plain`): null, truth values, integers of not too many
  digits, texts, lists, and records of distinct names. What is read from a text mirrors what was
  written (`Mirrors`): the members of a record may stand in another order, and lists and records may
  have other identities, as they have once the nodes of what was read are numbered
  (`Mirrors.numbered`). A member of a record is found in what mirrors the record (`Mirrors.member`).
-/

namespace Formwright.Json

/-- The entries of a record. -/
def entriesOf (fields : List (String × Value)) : List (Value × Value) :=
  fields.map fun f => (.text f.1, f.2)

theorem entry_injective : Function.Injective fun f : String × Value => (Value.text f.1, f.2) := by
  intro f g hfg
  obtain ⟨hname, hvalue⟩ := Prod.mk.inj hfg
  exact Prod.ext (Value.text.inj hname) hvalue

/-- Values without parts. -/
inductive Atom : Value → Prop
  | null : Atom .null
  | bool (b : Bool) : Atom (.bool b)
  | int (n : Int) : Atom (.int n)
  | text (s : String) : Atom (.text s)

/-- Values that a JSON text can carry. -/
inductive Plain : Value → Prop
  | null : Plain .null
  | bool (b : Bool) : Plain (.bool b)
  | int {n : Int} (fits : n.natAbs.repr.length ≤ maxIntegerDigits) : Plain (.int n)
  | text (s : String) : Plain (.text s)
  | list (n : Nat) {vs : List Value} (items : ∀ v ∈ vs, Plain v) : Plain (.list n vs)
  | record (n : Nat) {fields : List (String × Value)} (names : (fields.map (·.1)).Nodup)
      (values : ∀ f ∈ fields, Plain f.2) : Plain (.map n (entriesOf fields))

/-- The second value is the first one up to the order of members and the identity of nodes. -/
inductive Mirrors : Value → Value → Prop
  | refl (v : Value) : Mirrors v v
  | list (m n : Nat) {vs ws : List Value} (items : List.Forall₂ Mirrors vs ws) :
      Mirrors (.list m vs) (.list n ws)
  | record (m n : Nat) {fields chosen found : List (String × Value)} (perm : chosen.Perm fields)
      (names : chosen.map (·.1) = found.map (·.1))
      (values : List.Forall₂ Mirrors (chosen.map (·.2)) (found.map (·.2))) :
      Mirrors (.map m (entriesOf fields)) (.map n (entriesOf found))

/-- Members of one name whose values mirror each other. -/
def Member (f g : String × Value) : Prop := f.1 = g.1 ∧ Mirrors f.2 g.2

theorem forall₂_member_iff {fields found : List (String × Value)} :
    List.Forall₂ Member fields found ↔ fields.map (·.1) = found.map (·.1) ∧
      List.Forall₂ Mirrors (fields.map (·.2)) (found.map (·.2)) := by
  induction fields generalizing found with
  | nil => cases found <;> simp
  | cons f fields ih =>
    cases found with
    | nil => simp
    | cons g found => simp [ih, Member, and_assoc, and_left_comm]

namespace Mirrors

theorem of_members (m n : Nat) {fields chosen found : List (String × Value)} (hperm : chosen.Perm fields)
    (h : List.Forall₂ Member chosen found) :
    Mirrors (.map m (entriesOf fields)) (.map n (entriesOf found)) :=
  have h := forall₂_member_iff.mp h
  .record m n hperm h.1 h.2

theorem eq_of_atom {v w : Value} (h : Mirrors v w) (ha : Atom v) : w = v := by
  cases ha <;> cases h <;> rfl

/-- What mirrors a list is a list. -/
theorem exists_list {m : Nat} {vs : List Value} {w : Value} (h : Mirrors (.list m vs) w) :
    ∃ n ws, w = .list n ws ∧ List.Forall₂ Mirrors vs ws := by
  cases h with
  | refl => exact ⟨m, vs, rfl, List.forall₂_same.mpr fun v _ => .refl v⟩
  | list m n items => exact ⟨n, _, rfl, items⟩

/-- What mirrors a record is a record. -/
theorem exists_record {m : Nat} {fields : List (String × Value)} {w : Value}
    (h : Mirrors (.map m (entriesOf fields)) w) : ∃ n chosen found, w = .map n (entriesOf found) ∧
      chosen.Perm fields ∧ List.Forall₂ Member chosen found := by
  generalize hv : Value.map m (entriesOf fields) = v at h
  cases h with
  | refl => exact ⟨m, fields, fields, hv.symm, .refl _, List.forall₂_same.mpr fun f _ => ⟨rfl, .refl f.2⟩⟩
  | list => cases hv
  | record m n perm names values =>
    obtain rfl := List.map_injective_iff.mpr entry_injective (Value.map.inj hv).2
    exact ⟨n, _, _, rfl, perm, forall₂_member_iff.mpr ⟨names, values⟩⟩

end Mirrors

/-! ## Members -/

theorem lookup_of_mem {fields : List (String × Value)} (hnames : (fields.map (·.1)).Nodup)
    {name : String} {v : Value} (hv : (name, v) ∈ fields) : fields.lookup name = some v := by
  induction fields with
  | nil => cases hv
  | cons f fields ih =>
    obtain ⟨hf, hnames⟩ := List.nodup_cons.mp hnames
    rw [List.lookup_cons]
    rcases List.mem_cons.mp hv with rfl | hv
    · simp
    · have hne : (name == f.1) = false := by
        rw [beq_eq_false_iff_ne]
        rintro rfl
        exact hf (List.mem_map.mpr ⟨_, hv, rfl⟩)
      rw [hne]
      exact ih hnames hv

theorem exists_lookup_of_members {fields found : List (String × Value)}
    (h : List.Forall₂ Member fields found) {name : String} {v : Value}
    (hv : fields.lookup name = some v) : ∃ w, found.lookup name = some w ∧ Mirrors v w := by
  induction h with
  | nil => cases hv
  | @cons f g fields found hfg _ ih =>
    rw [List.lookup_cons] at hv ⊢
    rw [← hfg.1]
    cases hname : name == f.1 with
    | true =>
      rw [hname] at hv
      exact ⟨g.2, rfl, Option.some.inj hv ▸ hfg.2⟩
    | false =>
      rw [hname] at hv
      exact ih hv

/-- A member of a record is found in what mirrors the record. -/
theorem Mirrors.member {fields : List (String × Value)} {w : Value} (h : Mirrors (.record fields) w)
    (hnames : (fields.map (·.1)).Nodup) {name : String} {v : Value} (hv : (name, v) ∈ fields) :
    ∃ x, Mirrors v x ∧ w.require name = .ok x ∧ ∀ default, w.getD name default = .ok x := by
  obtain ⟨n, chosen, found, rfl, hperm, hmembers⟩ := Mirrors.exists_record h
  have hchosen : (chosen.map (·.1)).Nodup := ((hperm.map _).nodup_iff).mpr hnames
  obtain ⟨x, hx, hvx⟩ :=
    exists_lookup_of_members hmembers (lookup_of_mem hchosen (hperm.mem_iff.mpr hv))
  have hlookup : Value.member? (entriesOf found) name = some x := by
    rw [entriesOf, Value.member?_record, hx]
  refine ⟨x, hvx, ?_, fun default => ?_⟩
  · rw [Value.require, hlookup]
  · show Except.ok ((Value.member? (entriesOf found) name).getD default) = _
    rw [hlookup]
    rfl

/-! ## Numbering -/

theorem mirrors_numberedAll {vs ws : List Value} (h : List.Forall₂ Mirrors vs ws)
    (hnumber : ∀ v ∈ vs, ∀ w, Mirrors v w → ∀ n, Mirrors v (numbered w n).1) (n : Nat) :
    List.Forall₂ Mirrors vs (numberedAll ws n).1 := by
  induction h generalizing n with
  | nil => exact .nil
  | cons hvw _ ih =>
    obtain ⟨hv, hvs⟩ := List.forall_mem_cons.mp hnumber
    exact .cons (hv _ hvw n) (ih hvs _)

theorem members_numberedEntries {fields found : List (String × Value)}
    (h : List.Forall₂ Member fields found)
    (hnumber : ∀ f ∈ fields, ∀ w, Mirrors f.2 w → ∀ n, Mirrors f.2 (numbered w n).1) (n : Nat) :
    ∃ named, (numberedEntries (entriesOf found) n).1 = entriesOf named ∧
      List.Forall₂ Member fields named := by
  induction h generalizing n with
  | nil => exact ⟨[], rfl, .nil⟩
  | @cons f g fields found hfg _ ih =>
    obtain ⟨hf, hfields⟩ := List.forall_mem_cons.mp hnumber
    obtain ⟨named, hnamed, hmembers⟩ := ih hfields (numbered g.2 n).2
    refine ⟨(g.1, (numbered g.2 n).1) :: named, ?_, .cons ⟨hfg.1, hf _ hfg.2 n⟩ hmembers⟩
    exact congrArg _ hnamed

theorem Mirrors.numbered {v : Value} (h : Plain v) {w : Value} (hw : Mirrors v w) (n : Nat) :
    Mirrors v (numbered w n).1 := by
  induction h generalizing w n with
  | null | bool | int | text =>
    cases hw
    exact .refl _
  | list m items ih =>
    obtain ⟨k, ws, rfl, hws⟩ := hw.exists_list
    exact .list m n (mirrors_numberedAll hws (fun v hv w hw k => ih v hv hw k) (n - 1))
  | record m names values ih =>
    obtain ⟨k, chosen, found, rfl, hperm, hmembers⟩ := hw.exists_record
    obtain ⟨named, hnamed, hmembers⟩ := members_numberedEntries hmembers
      (fun f hf w hw k => ih f (hperm.mem_iff.mp hf) hw k) (n - 1)
    show Mirrors _ (.map n (numberedEntries (entriesOf found) (n - 1)).1)
    rw [hnamed]
    exact .of_members m n hperm hmembers

end Formwright.Json
