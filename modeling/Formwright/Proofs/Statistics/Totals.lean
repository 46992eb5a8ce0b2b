import Formwright.Proofs.Statistics.Counts
import Formwright.Statistics
import Mathlib.Algebra.GroupWithZero.Nat
import Mathlib.Algebra.Ring.Int.Defs

/-
  What is counted in the end. A tally of keys counts each key as often as it occurs
  (`Tally.exists_tallies`), so tallies of one list of keys in different orders are equal maps
  (`Tallies.same_of_perm`), the count of a name can be looked up (`Tallies.getD_eq`), and all counts
  add up to the number of keys (`Tallies.total_eq`). The statistics of a form are tallies of the
  types of all its controls, whatever view they are in (`Statistics.collect_eq_ok`).
-/

namespace Formwright

namespace Counts

/-- What a list of keys counts. -/
def ofKeys (ks : List Key) : Counts := (ks.map (single · 1)).sum

/-- A key is counted as often as it occurs, if at all. -/
theorem ofKeys_apply (ks : List Key) (k : Key) :
    ofKeys ks k = if ks.count k = 0 then none else some (ks.count k : Int) := by
  induction ks with
  | nil => rfl
  | cons j ks ih =>
    have hcons : ofKeys (j :: ks) k = Option.merge (· + ·) (single j 1 k) (ofKeys ks k) := rfl
    rw [hcons, ih, List.count_cons]
    by_cases h : k = j
    · subst h
      rw [single_apply_self]
      by_cases hzero : ks.count k = 0
      · simp [hzero]
      · simp [hzero, Int.add_comm]
    · have hne : (j == k) = false := by simpa using Ne.symm h
      rw [single_apply_of_ne h, hne]
      simp

end Counts

namespace Tally

/-- The sum of all counts, as a number. -/
def sum (t : Tally) : Int := (t.map fun e => e.2.whole?.getD 0).sum

/-- A count that is added to that of a key is added to the sum. -/
theorem Sound.sum_put {t : Tally} (ht : t.Sound) {v : Value} {k : Key} (hk : v.key? = some k) {m : Int}
    (hm : ((Value.lookup t v).getD (.int 0)).whole? = some m) (n : Int) :
    sum (Value.put t v (.int (m + n))) = sum t + n := by
  rcases ht.cases hk with ⟨-, hlookup, hput⟩ | ⟨xs, d, ys, rfl, -, hlookup, hput⟩
  · rw [hlookup] at hm
    obtain rfl := Option.some.inj hm
    simp [sum, hput, Value.whole?]
  · rw [hlookup, Option.getD_some] at hm
    have hcount : (Value.int (m + n)).whole? = some (m + n) := rfl
    simp only [sum, hput, hm, hcount, List.map_append, List.map_cons, List.sum_append,
      List.sum_cons, Option.getD_some]
    omega

/-- Counting a key adds one to the sum. -/
theorem Counted.sum_add {t t' : Tally} (ht : t.Counted) {v : Value} {k : Key} (hk : v.key? = some k)
    (h : t.add v = .ok t') : sum t' = sum t + 1 := by
  rw [add, Value.asKey_eq_ok.mpr ⟨Value.unhashable?_of_key? v hk, rfl⟩, ok_bind] at h
  rcases ht.toSound.cases hk with ⟨-, hlookup, -⟩ | ⟨xs, d, ys, rfl, -, hlookup, -⟩
  · rw [hlookup] at h
    obtain rfl := Except.ok.inj h
    exact ht.toSound.sum_put hk (m := 0) (by rw [hlookup]; rfl) 1
  · obtain ⟨n, hn⟩ := ht.ints d (by simp)
    rw [hlookup, hn] at h
    obtain rfl := Except.ok.inj h
    exact ht.toSound.sum_put hk (by rw [hlookup, hn]; rfl) 1

/-- The sum is what all counts add up to, one after the other. -/
theorem Sound.total_eq {t : Tally} (ht : t.Sound) (m : Nat) : total (.map m t) = .ok (.int (sum t)) := by
  have hfold : ∀ vs : List (Value × Value), (∀ e ∈ vs, ∃ n, e.2.whole? = some n) → ∀ a : Int,
      (vs.map (·.2)).foldlM Value.add (.int a) = .ok (.int (a + Tally.sum vs)) := by
    intro vs
    induction vs with
    | nil => exact fun _ a => congrArg (fun n => Except.ok (Value.int n)) (Int.add_zero a).symm
    | cons e vs ih =>
      intro hvs a
      obtain ⟨n, hn⟩ := hvs e List.mem_cons_self
      rw [List.map_cons, List.foldlM_cons, Value.add_of_whole? rfl hn, ok_bind,
        ih (fun d hd => hvs d (List.mem_cons_of_mem e hd)), Int.add_assoc, Tally.sum, Tally.sum,
        List.map_cons, List.sum_cons, hn]
      rfl
  show (t.map (·.2)).foldlM Value.add (.int 0) = _
  rw [hfold t ht.whole, Int.zero_add]

/-- Keys are counted as often as they occur, and as many are counted as there are. -/
theorem Counted.exists_foldlM_add {t : Tally} (ht : t.Counted) {keys : List Value}
    (hkeys : ∀ v ∈ keys, ∃ k, v.key? = some k) :
    ∃ t', keys.foldlM add t = .ok t' ∧ Counted t' ∧
      counts t' = counts t + Counts.ofKeys (keys.filterMap (·.key?)) ∧
      sum t' = sum t + keys.length := by
  induction keys generalizing t with
  | nil => exact ⟨t, rfl, ht, (add_zero _).symm, (Int.add_zero _).symm⟩
  | cons v keys ih =>
    obtain ⟨k, hk⟩ := hkeys v List.mem_cons_self
    obtain ⟨u, hu, hcounted, hcounts⟩ := Counted.exists_add_eq_ok ht hk
    obtain ⟨t', ht', hcounted', hcounts', hsum⟩ :=
      ih hcounted fun w hw => hkeys w (List.mem_cons_of_mem v hw)
    refine ⟨t', ?_, hcounted', ?_, ?_⟩
    · rw [List.foldlM_cons, hu]
      exact ht'
    · have hcons : Counts.ofKeys (k :: keys.filterMap (·.key?)) =
          .single k 1 + Counts.ofKeys (keys.filterMap (·.key?)) := rfl
      rw [hcounts', hcounts, List.filterMap_cons_some hk, hcons, add_assoc]
    · rw [hsum, ht.sum_add hk hu, List.length_cons]
      push_cast
      omega

theorem counted_nil : Counted [] := ⟨Sound.nil, fun _ he => absurd he List.not_mem_nil⟩

/-- A tally of keys. -/
structure Tallies (keys : List Value) (t : Tally) : Prop where
  counted : Counted t
  counts : counts t = Counts.ofKeys (keys.filterMap (·.key?))
  sum : sum t = keys.length

theorem exists_tallies {keys : List Value} (hkeys : ∀ v ∈ keys, ∃ k, v.key? = some k) :
    ∃ t, ofKeys keys = .ok t ∧ Tallies keys t := by
  obtain ⟨t, ht, hcounted, hcounts, hsum⟩ := counted_nil.exists_foldlM_add hkeys
  exact ⟨t, ht, hcounted, by rw [hcounts, counts_nil, zero_add], by rw [hsum]; exact Int.zero_add _⟩

theorem tallies_of_ofKeys {keys : List Value} {t : Tally} (hkeys : ∀ v ∈ keys, ∃ k, v.key? = some k)
    (h : ofKeys keys = .ok t) : Tallies keys t := by
  obtain ⟨u, hu, htallies⟩ := exists_tallies hkeys
  obtain rfl := Except.ok.inj (h.symm.trans hu)
  exact htallies

namespace Tallies

variable {keys keys' : List Value} {t u : Tally}

/-- Tallies of the same keys in different orders are equal maps. -/
theorem same_of_perm (ht : Tallies keys t) (hu : Tallies keys' u) (h : keys.Perm keys') (m n : Nat) :
    (Value.map m t).same (.map n u) = true := by
  refine same_of_counts_eq ht.counted.toSound hu.counted.toSound ?_ m n
  rw [ht.counts, hu.counts]
  exact ((h.filterMap _).map _).sum_eq

/-- The count of a name is the number of keys that it is. -/
theorem getD_eq (ht : Tallies keys t) (m : Nat) (name : String) :
    (Value.map m t).getD name (.int 0) =
      .ok (.count ((keys.filterMap (·.key?)).count (.text name))) := by
  have hkey : (Value.text name).key? = some (.text name) := rfl
  have hcount := Counts.ofKeys_apply (keys.filterMap (·.key?)) (.text name)
  rw [← ht.counts] at hcount
  show Except.ok ((Value.lookup t (.text name)).getD (.int 0)) = _
  rcases ht.counted.toSound.cases hkey with ⟨hnone, hlookup, -⟩ | ⟨xs, d, ys, rfl, hd, hlookup, -⟩
  · rw [counts_eq_none hnone] at hcount
    split at hcount
    · rename_i hzero
      rw [hlookup, hzero]
      rfl
    · cases hcount
  · obtain ⟨n, hn⟩ := ht.counted.ints d (by simp)
    have hsome := ht.counted.toSound.counts_eq_some.mpr ⟨d, by simp, hd, congrArg Value.whole? hn⟩
    rw [hsome] at hcount
    split at hcount
    · cases hcount
    · rw [hlookup, Option.getD_some, hn, Option.some.inj hcount]
      rfl

/-- A key has an entry when it occurs, and the entry says how often. -/
theorem exists_entry_iff (ht : Tallies keys t) (hkeys : ∀ v ∈ keys, ∃ k, v.key? = some k) {v : Value}
    {k : Key} (hk : v.key? = some k) (n : Int) :
    (∃ e ∈ t, v.same e.1 = true ∧ e.2 = .int n) ↔ 0 < n ∧ n = keys.countP (·.same v) := by
  have hcount : (keys.filterMap (·.key?)).count k = keys.countP (·.same v) := by
    rw [List.count, List.countP_filterMap]
    refine List.countP_congr fun w hw => ?_
    obtain ⟨j, hj⟩ := hkeys w hw
    rw [hj, Value.same_iff_key_eq w v hj hk]
    exact beq_iff_eq
  have hentry : (∃ e ∈ t, v.same e.1 = true ∧ e.2 = .int n) ↔ Tally.counts t k = some n := by
    rw [ht.counted.toSound.counts_eq_some]
    refine exists_congr fun e => and_congr_right fun he => and_congr ?_ ?_
    · obtain ⟨j, hj⟩ := ht.counted.keys e he
      rw [Value.same_iff_key_eq v e.1 hk hj, hj, Option.some.injEq, eq_comm]
    · obtain ⟨m, hm⟩ := ht.counted.ints e he
      rw [hm, Value.int.injEq, Value.whole?, Option.some.injEq]
  rw [hentry, ht.counts, Counts.ofKeys_apply, hcount]
  split
  · rename_i hzero
    simp only [hzero, reduceCtorEq, false_iff]
    omega
  · rw [Option.some.injEq]
    omega

/-- All counts add up to the number of keys. -/
theorem total_eq (ht : Tallies keys t) (m : Nat) : total (.map m t) = .ok (.count keys.length) := by
  rw [ht.counted.toSound.total_eq, ht.sum]
  rfl

end Tallies

end Tally

namespace Statistics

/-- Statistics whose tallies are tallies of as many keys as there are controls are consistent. -/
theorem isConsistent_of_tallies {s : Statistics} {keys keys' : List Value} {t u : Tally} {m n : Nat}
    (hcontrols : s.controlTypes = .map m t) (hwidgets : s.widgetTypes = .map n u)
    (ht : Tally.Tallies keys t) (hu : Tally.Tallies keys' u)
    (htotal : s.totalControls = .count keys.length) (hlength : keys'.length = keys.length) :
    s.isConsistent = .ok true := by
  have hsame : (Value.count keys.length).same (.count keys.length) = true :=
    Value.same_of_whole? rfl rfl
  rw [isConsistent, hcontrols, hwidgets, ht.total_eq, hu.total_eq, ok_bind, ok_bind, htotal, hlength,
    hsame]
  rfl

/-! ## Statistics of a form -/

/-- Views add up: their rows, and the keys of their controls one view after the other. -/
theorem foldlM_collectView_eq_ok {vs : List Form.View} {acc acc' : Nat × Tally × Tally} :
    vs.foldlM collectView acc = .ok acc' ↔ ∃ rows, vs.mapM rowCount = .ok rows ∧
      acc'.1 = acc.1 + rows.sum ∧
      ((vs.flatMap (·.controls)).map fun c => sourceKey c.sourceType).foldlM Tally.add acc.2.1 =
        .ok acc'.2.1 ∧
      ((vs.flatMap (·.controls)).map fun c => Value.text c.type.name).foldlM Tally.add acc.2.2 =
        .ok acc'.2.2 := by
  induction vs generalizing acc with
  | nil =>
    constructor
    · intro h
      obtain rfl := Except.ok.inj h
      exact ⟨[], rfl, rfl, rfl, rfl⟩
    · rintro ⟨rows, hrows, hsum, hsources, htypes⟩
      obtain rfl := Except.ok.inj hrows
      have hfirst : acc.1 = acc'.1 := hsum.symm
      have hsecond : acc.2 = acc'.2 := Prod.ext (Except.ok.inj hsources) (Except.ok.inj htypes)
      exact congrArg Except.ok (Prod.ext hfirst hsecond)
  | cons v vs ih =>
    rw [List.foldlM_cons, List.flatMap_cons, List.map_append, List.map_append, List.foldlM_append,
      List.foldlM_append]
    constructor
    · intro h
      obtain ⟨next, hnext, h⟩ := bind_eq_ok.mp h
      obtain ⟨n, hn, hnext⟩ := bind_eq_ok.mp hnext
      obtain ⟨sources, hsources, hnext⟩ := bind_eq_ok.mp hnext
      obtain ⟨types, htypes, hnext⟩ := bind_eq_ok.mp hnext
      obtain rfl := Except.ok.inj hnext
      obtain ⟨rows, hrows, hsum, hsources', htypes'⟩ := ih.mp h
      refine ⟨n :: rows, mapM_cons_eq_ok.mpr ⟨n, rows, hn, hrows, rfl⟩, ?_, ?_, ?_⟩
      · rw [hsum, List.sum_cons, Nat.add_assoc]
      · rw [hsources]
        exact hsources'
      · rw [htypes]
        exact htypes'
    · rintro ⟨all, hall, hsum, hsources, htypes⟩
      obtain ⟨n, rows, hn, hrows, rfl⟩ := mapM_cons_eq_ok.mp hall
      obtain ⟨sources, hsources, hsources'⟩ := bind_eq_ok.mp hsources
      obtain ⟨types, htypes, htypes'⟩ := bind_eq_ok.mp htypes
      refine bind_eq_ok.mpr ⟨(acc.1 + n, sources, types), ?_, ih.mpr ⟨rows, hrows, ?_, hsources',
        htypes'⟩⟩
      · rw [collectView, hn, ok_bind, hsources, ok_bind, htypes]
        rfl
      · rw [hsum, List.sum_cons, Nat.add_assoc]

/-- What the statistics of a form are made of. -/
theorem collect_eq_ok {f : Form} {s : Statistics} :
    collect f = .ok s ↔ ∃ rows sources types, f.views.mapM rowCount = .ok rows ∧
      Tally.ofKeys (f.allControls.map fun c => sourceKey c.sourceType) = .ok sources ∧
      Tally.ofKeys (f.allControls.map fun c => .text c.type.name) = .ok types ∧ s = {
        totalControls := .count f.totalControls
        totalVariables := .count f.columns.length
        totalPages := .count f.views.length
        totalRows := .count rows.sum
        totalRepeatingSections := .count (f.allControls.filter (·.isRepeatingContainer)).length
        controlTypes := .map 0 sources
        widgetTypes := .map 0 types } := by
  unfold collect
  constructor
  · intro h
    obtain ⟨⟨n, sources, types⟩, hviews, h⟩ := bind_eq_ok.mp h
    obtain ⟨rows, hrows, rfl, hsources, htypes⟩ := foldlM_collectView_eq_ok.mp hviews
    obtain rfl := Except.ok.inj h
    exact ⟨rows, sources, types, hrows, hsources, htypes, by rw [Nat.zero_add]⟩
  · rintro ⟨rows, sources, types, hrows, hsources, htypes, rfl⟩
    have hviews : f.views.foldlM collectView (0, [], []) = .ok (rows.sum, sources, types) :=
      foldlM_collectView_eq_ok.mpr ⟨rows, hrows, (Nat.zero_add _).symm, hsources, htypes⟩
    rw [hviews]
    rfl

end Statistics

end Formwright
