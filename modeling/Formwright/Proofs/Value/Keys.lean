import Formwright.Proofs.Success
import Formwright.Value.Access

/-
  Keys of maps. A map cannot tell equal keys apart: a truth value and the number it counts as, or
  two nodes with one date, are one key. `Key` is what is left of a value that can be a key, and
  equality of values is equality of their keys (`same_iff_key_eq`). Doubles are left out, since one
  of them differs from itself.
-/

namespace Formwright

/-- What a map sees of a key. -/
inductive Key where
  | null
  | number (n : Int)
  | text (s : String)
  | bytes (bs : List UInt8)
  | date (d : Calendar.Date)
  | moment (zoned : Bool) (micros : Int)
  /-- The items of a tuple follow as a chain of `cons` that ends with `nil`. -/
  | tuple (items : Key)
  | nil
  | cons (first rest : Key)
  deriving DecidableEq

namespace Value

theorem asKey_eq_ok {v w : Value} : v.asKey = .ok w ↔ v.unhashable? = none ∧ v = w := by
  unfold asKey
  cases v.unhashable? <;> simp

theorem exists_asKey_eq_ok {v : Value} : (∃ w, v.asKey = .ok w) ↔ v.unhashable? = none := by
  simp [asKey_eq_ok]

theorem mapM_asKey_eq_ok {vs ws : List Value} :
    vs.mapM (·.asKey) = .ok ws ↔ (∀ v ∈ vs, v.unhashable? = none) ∧ ws = vs := by
  induction vs generalizing ws with
  | nil => simp [eq_comm]
  | cons v vs ih =>
    rw [List.mapM_cons, List.forall_mem_cons]
    constructor
    · intro h
      obtain ⟨k, hk, hrest⟩ := bind_eq_ok.mp h
      obtain ⟨ks, hks, hws⟩ := bind_eq_ok.mp hrest
      obtain ⟨hv, rfl⟩ := asKey_eq_ok.mp hk
      obtain ⟨hvs, rfl⟩ := ih.mp hks
      exact ⟨⟨hv, hvs⟩, (Except.ok.inj hws).symm⟩
    · rintro ⟨⟨hv, hvs⟩, rfl⟩
      rw [asKey_eq_ok.mpr ⟨hv, rfl⟩, ih.mpr ⟨hvs, rfl⟩]
      rfl

/-! ## Keys -/

mutual
/-- The key that a value is, unless it is a double or cannot be a key. -/
def key? : Value → Option Key
  | null => some .null
  | bool b => some (.number (if b then 1 else 0))
  | int n => some (.number n)
  | text s => some (.text s)
  | bytes bs => some (.bytes bs)
  | date _ d => some (.date d)
  | moment _ m => some (.moment m.zone.isSome m.universalMicros)
  | tuple _ vs => (keys? vs).map .tuple
  | _ => none
termination_by structural v => v

/-- The chain of keys that some values are. -/
def keys? : List Value → Option Key
  | [] => some .nil
  | v :: vs => (key? v).bind fun k => (keys? vs).map (.cons k)
termination_by structural vs => vs
end

theorem sameNumber_whole {m n : Int} {v : Value} (h : v.numeric? = some (.whole n)) :
    sameNumber (.whole m) v = true ↔ m = n := by
  rw [sameNumber, h]
  show (some (compare m n) == some .eq) = true ↔ m = n
  simp

theorem sameMoment_iff {a b : Calendar.Moment} :
    sameMoment a b = true ↔
      a.zone.isSome = b.zone.isSome ∧ a.universalMicros = b.universalMicros := by
  unfold sameMoment
  by_cases h : a.zone.isSome = b.zone.isSome
  · simp [h]
  · simp [h]

/-- A number is equal to what has it for a key. -/
theorem sameNumber_iff_key_eq {m : Int} {w : Value} {k : Key} (hw : w.key? = some k) :
    sameNumber (.whole m) w = true ↔ Key.number m = k := by
  cases w with
  | bool b =>
    obtain rfl := Option.some.inj hw
    rw [sameNumber_whole (n := if b then 1 else 0) rfl, Key.number.injEq]
  | int n =>
    obtain rfl := Option.some.inj hw
    rw [sameNumber_whole (n := n) rfl, Key.number.injEq]
  | tuple _ ws =>
    obtain ⟨j, -, rfl⟩ := Option.map_eq_some_iff.mp hw
    simp [sameNumber, numeric?]
  | null | text | bytes | date | moment =>
    obtain rfl := Option.some.inj hw
    simp [sameNumber, numeric?]
  | float | list | set | map => cases hw

mutual
/-- Values are equal when they are one key. -/
theorem same_iff_key_eq (v w : Value) {j k : Key} (hv : v.key? = some j) (hw : w.key? = some k) :
    v.same w = true ↔ j = k := by
  cases v with
  | bool b =>
    obtain rfl := Option.some.inj hv
    exact sameNumber_iff_key_eq hw
  | int n =>
    obtain rfl := Option.some.inj hv
    exact sameNumber_iff_key_eq hw
  | tuple _ vs =>
    obtain ⟨i, hi, rfl⟩ := Option.map_eq_some_iff.mp hv
    cases w with
    | tuple _ ws =>
      obtain ⟨l, hl, rfl⟩ := Option.map_eq_some_iff.mp hw
      rw [same, sameAll_iff_keys_eq vs ws hi hl, Key.tuple.injEq]
    | null | bool | int | text | bytes | date | moment =>
      obtain rfl := Option.some.inj hw
      simp [same]
    | float | list | set | map => cases hw
  | null | text | bytes | date | moment =>
    obtain rfl := Option.some.inj hv
    cases w with
    | tuple _ ws =>
      obtain ⟨l, hl, rfl⟩ := Option.map_eq_some_iff.mp hw
      simp [same]
    | null | bool | int | text | bytes | date | moment =>
      obtain rfl := Option.some.inj hw
      simp [same, sameMoment_iff]
    | float | list | set | map => cases hw
  | float | list | set | map => cases hv

theorem sameAll_iff_keys_eq (vs ws : List Value) {j k : Key} (hvs : keys? vs = some j)
    (hws : keys? ws = some k) : sameAll vs ws = true ↔ j = k := by
  cases vs with
  | nil =>
    obtain rfl := Option.some.inj hvs
    cases ws with
    | nil =>
      obtain rfl := Option.some.inj hws
      simp [sameAll]
    | cons w ws =>
      obtain ⟨l, -, hl⟩ := Option.bind_eq_some_iff.mp hws
      obtain ⟨ls, -, rfl⟩ := Option.map_eq_some_iff.mp hl
      simp [sameAll]
  | cons v vs =>
    obtain ⟨i, hi, hrest⟩ := Option.bind_eq_some_iff.mp hvs
    obtain ⟨is, his, rfl⟩ := Option.map_eq_some_iff.mp hrest
    cases ws with
    | nil =>
      obtain rfl := Option.some.inj hws
      simp [sameAll]
    | cons w ws =>
      obtain ⟨l, hl, hrest'⟩ := Option.bind_eq_some_iff.mp hws
      obtain ⟨ls, hls, rfl⟩ := Option.map_eq_some_iff.mp hrest'
      rw [sameAll, Bool.and_eq_true, same_iff_key_eq v w hi hl, sameAll_iff_keys_eq vs ws his hls,
        Key.cons.injEq]
end

mutual
/-- What has a key can be a key. -/
theorem unhashable?_of_key? (v : Value) {k : Key} (h : v.key? = some k) : v.unhashable? = none := by
  cases v with
  | tuple _ vs =>
    obtain ⟨ks, hks, -⟩ := Option.map_eq_some_iff.mp h
    exact unhashableIn?_of_keys? vs hks
  | null | bool | int | text | bytes | date | moment => rfl
  | float | list | set | map => cases h

theorem unhashableIn?_of_keys? (vs : List Value) {k : Key} (h : keys? vs = some k) :
    unhashableIn? vs = none := by
  cases vs with
  | nil => rfl
  | cons v vs =>
    obtain ⟨i, hi, hrest⟩ := Option.bind_eq_some_iff.mp h
    obtain ⟨is, his, -⟩ := Option.map_eq_some_iff.mp hrest
    rw [unhashableIn?, unhashable?_of_key? v hi, unhashableIn?_of_keys? vs his]
    rfl
end

theorem same_iff_key?_eq {v w : Value} (hv : ∃ k, v.key? = some k) (hw : ∃ k, w.key? = some k) :
    v.same w = true ↔ v.key? = w.key? := by
  obtain ⟨j, hj⟩ := hv
  obtain ⟨k, hk⟩ := hw
  rw [same_iff_key_eq v w hj hk, hj, hk, Option.some.injEq]

/-- What has a key is equal to itself, so it is found where it stands. -/
theorem occursIn_of_mem {v : Value} {vs : List Value} (hv : ∃ k, v.key? = some k) (h : v ∈ vs) :
    v.occursIn vs = true :=
  List.any_eq_true.mpr ⟨v, h, (same_iff_key?_eq hv hv).mpr rfl⟩

/-! ## Maps -/

/-- An entry after a value was put is an old one, or it holds the value. -/
theorem mem_put {es : List (Value × Value)} {key v : Value} {e : Value × Value}
    (h : e ∈ put es key v) : e ∈ es ∨ (e.2 = v ∧ (e.1 = key ∨ ∃ d ∈ es, d.1 = e.1)) := by
  unfold put at h
  split at h
  · obtain ⟨d, hd, rfl⟩ := List.mem_map.mp h
    split
    · exact Or.inr ⟨rfl, Or.inr ⟨d, hd, rfl⟩⟩
    · exact Or.inl hd
  · rcases List.mem_append.mp h with he | he
    · exact Or.inl he
    · rw [List.mem_singleton.mp he]
      exact Or.inr ⟨rfl, Or.inl rfl⟩

end Value

end Formwright
