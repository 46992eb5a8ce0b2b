import Formwright.Proofs.Value.Keys
import Formwright.Statistics
import Mathlib.Algebra.BigOperators.Group.List.Basic

/-
  What tallies count. A key can be counted when it is hashable (`Tally.exists_add_eq_ok`). A tally
  with whole counts stands for a function from keys to counts, whatever the order of its entries.
  Such functions add up key by key and form a commutative monoid; counting a key and merging tallies
  are additions in it (`Tally.Counted.exists_add_eq_ok`, `Tally.exists_foldlM_addEntry_eq_ok`), and
  tallies with equal counts are equal maps (`Tally.same_of_counts_eq`).
-/

namespace Formwright

/-- How often each key is counted. A key that is counted zero times differs from one that is not
there. -/
def Counts := Key → Option Int

namespace Counts

/-- The count of a single key. -/
def single (k : Key) (n : Int) : Counts := fun j => if j = k then some n else none

instance : Zero Counts := ⟨fun _ => none⟩

instance : Add Counts := ⟨fun c d k => Option.merge (· + ·) (c k) (d k)⟩

theorem zero_apply (k : Key) : (0 : Counts) k = none := rfl

theorem add_apply (c d : Counts) (k : Key) : (c + d) k = Option.merge (· + ·) (c k) (d k) := rfl

instance : AddCommMonoid Counts where
  add_assoc a b c := by
    funext k
    simp only [add_apply]
    cases a k <;> cases b k <;> cases c k <;> simp [Int.add_assoc]
  zero_add a := by
    funext k
    simp [add_apply, zero_apply]
  add_zero a := by
    funext k
    simp [add_apply, zero_apply]
  add_comm a b := by
    funext k
    simp only [add_apply]
    cases a k <;> cases b k <;> simp [Int.add_comm]
  nsmul := nsmulRec

theorem single_apply_self (k : Key) (n : Int) : single k n k = some n := if_pos rfl

theorem single_apply_of_ne {j k : Key} (h : j ≠ k) (n : Int) : single k n j = none := if_neg h

theorem single_add_single (k : Key) (m n : Int) : single k m + single k n = single k (m + n) := by
  funext j
  rw [add_apply]
  by_cases h : j = k
  · subst h
    simp [single_apply_self]
  · simp [single_apply_of_ne h]

end Counts

namespace Value

/-- The whole number that a value counts as. -/
def whole? : Value → Option Int
  | bool b => some (if b then 1 else 0)
  | int n => some n
  | _ => none

theorem numeric?_of_whole? {v : Value} {n : Int} (h : v.whole? = some n) :
    v.numeric? = some (.whole n) := by
  cases v <;> simp_all [whole?, numeric?]

/-- Whole numbers add up. -/
theorem add_of_whole? {v w : Value} {m n : Int} (hv : v.whole? = some m) (hw : w.whole? = some n) :
    v.add w = .ok (.int (m + n)) := by
  cases v <;> cases w <;> simp_all [whole?, add, numeric?]

/-- One whole number is equal to itself, in whatever form. -/
theorem same_of_whole? {v w : Value} {n : Int} (hv : v.whole? = some n) (hw : w.whole? = some n) :
    v.same w = true := by
  have hnumber := (sameNumber_whole (m := n) (numeric?_of_whole? hw)).mpr rfl
  cases v with
  | bool b =>
    obtain rfl := Option.some.inj hv
    exact hnumber
  | int m =>
    obtain rfl := Option.some.inj hv
    exact hnumber
  | _ => cases hv

end Value

namespace Tally

/-! ## Counting keys -/

/-- A key can be counted when it is hashable. -/
theorem exists_add_eq_ok (t : Tally) (key : Value) :
    (∃ t', t.add key = .ok t') ↔ key.unhashable? = none := by
  unfold add
  constructor
  · rintro ⟨t', h⟩
    obtain ⟨k, hk, -⟩ := bind_eq_ok.mp h
    exact (Value.asKey_eq_ok.mp hk).1
  · intro h
    rw [Value.asKey_eq_ok.mpr ⟨h, rfl⟩, ok_bind]
    split <;> exact ⟨_, rfl⟩

theorem exists_ofKeys_eq_ok {keys : List Value} :
    (∃ t, ofKeys keys = .ok t) ↔ ∀ k ∈ keys, k.unhashable? = none :=
  exists_foldlM_eq_ok fun t k _ => exists_add_eq_ok t k

/-- The keys of a tally are among the values that were counted. -/
theorem key_of_mem_ofKeys {keys : List Value} {t : Tally} (h : ofKeys keys = .ok t)
    {e : Value × Value} (he : e ∈ t) : e.1 ∈ keys := by
  suffices ∀ before : Tally, keys.foldlM add before = .ok t →
      e.1 ∈ keys ∨ ∃ d ∈ before, d.1 = e.1 by
    rcases this [] h with hkey | ⟨d, hd, -⟩
    · exact hkey
    · exact absurd hd List.not_mem_nil
  clear h
  induction keys with
  | nil =>
    intro before h
    obtain rfl := Except.ok.inj h
    exact Or.inr ⟨e, he, rfl⟩
  | cons key keys ih =>
    intro before h
    rw [List.foldlM_cons] at h
    obtain ⟨next, hnext, h⟩ := bind_eq_ok.mp h
    rcases ih next h with hkey | ⟨d, hd, hde⟩
    · exact Or.inl (List.mem_cons_of_mem _ hkey)
    · obtain ⟨k, hk, hput⟩ := bind_eq_ok.mp hnext
      obtain ⟨-, rfl⟩ := Value.asKey_eq_ok.mp hk
      have hmem : ∃ n, d ∈ Value.put before key n := by
        split at hput <;>
          · obtain rfl := Except.ok.inj hput
            exact ⟨_, hd⟩
      obtain ⟨n, hmem⟩ := hmem
      rcases Value.mem_put hmem with hold | ⟨-, hkey | ⟨c, hc, hcd⟩⟩
      · exact Or.inr ⟨d, hold, hde⟩
      · exact Or.inl (hde ▸ hkey ▸ List.mem_cons_self)
      · exact Or.inr ⟨c, hc, hcd.trans hde⟩

/-! ## What a tally counts -/

/-- A tally whose keys are distinct and whose counts are whole. -/
structure Sound (t : Tally) : Prop where
  keys : ∀ e ∈ t, ∃ k, e.1.key? = some k
  whole : ∀ e ∈ t, ∃ n, e.2.whole? = some n
  distinct : (t.map (·.1.key?)).Nodup

/-- What an entry counts. -/
def countOf (e : Value × Value) : Counts :=
  match e.1.key?, e.2.whole? with
  | some k, some n => .single k n
  | _, _ => 0

/-- What a tally counts. -/
def counts (t : Tally) : Counts := (t.map countOf).sum

theorem countOf_eq {e : Value × Value} {k : Key} {n : Int} (hk : e.1.key? = some k)
    (hn : e.2.whole? = some n) : countOf e = .single k n := by
  rw [countOf, hk, hn]

theorem countOf_cases (e : Value × Value) :
    (∃ k n, e.1.key? = some k ∧ countOf e = .single k n) ∨ countOf e = 0 := by
  unfold countOf
  split
  · rename_i k n hk _
    exact Or.inl ⟨k, n, hk, rfl⟩
  · exact Or.inr rfl

theorem counts_nil : counts [] = 0 := rfl

theorem counts_cons (e : Value × Value) (t : Tally) : counts (e :: t) = countOf e + counts t := rfl

theorem counts_append (t u : Tally) : counts (t ++ u) = counts t + counts u := by
  rw [counts, List.map_append, List.sum_append]
  rfl

theorem Sound.nil : Sound [] :=
  ⟨fun _ he => absurd he List.not_mem_nil, fun _ he => absurd he List.not_mem_nil, List.nodup_nil⟩

theorem Sound.tail {e : Value × Value} {t : Tally} (h : Sound (e :: t)) : t.Sound :=
  ⟨fun d hd => h.keys d (List.mem_cons_of_mem e hd),
    fun d hd => h.whole d (List.mem_cons_of_mem e hd), (List.nodup_cons.mp h.distinct).2⟩

/-! ## Looking up and setting -/

/-- What lookup and setting do with a key: it is new and goes to the end, or it has one entry whose
value is replaced. -/
theorem Sound.cases {t : Tally} (ht : t.Sound) {v : Value} {k : Key} (hk : v.key? = some k) :
    ((∀ e ∈ t, e.1.key? ≠ some k) ∧ Value.lookup t v = none ∧
        ∀ w, Value.put t v w = t ++ [(v, w)]) ∨
      ∃ xs d ys, t = xs ++ d :: ys ∧ d.1.key? = some k ∧ Value.lookup t v = some d.2 ∧
        ∀ w, Value.put t v w = xs ++ (d.1, w) :: ys := by
  have hsame : ∀ e ∈ t, e.1.same v = true ↔ e.1.key? = some k := by
    intro e he
    obtain ⟨j, hj⟩ := ht.keys e he
    rw [Value.same_iff_key_eq e.1 v hj hk, hj, Option.some.injEq]
  cases hfind : t.find? (fun e => e.1.same v) with
  | none =>
    have hnone := List.find?_eq_none.mp hfind
    refine Or.inl ⟨fun e he heq => hnone e he ((hsame e he).mpr heq), ?_, fun w => ?_⟩
    · rw [Value.lookup, hfind]
      rfl
    · have hany : (t.any fun e => e.1.same v) = false := by
        rw [List.any_eq_false]
        exact hnone
      simp only [Value.put, hany, Bool.false_eq_true, if_false]
  | some d =>
    obtain ⟨hd, xs, ys, rfl, hxs⟩ := List.find?_eq_some_iff_append.mp hfind
    have hdk := (hsame d (by simp)).mp hd
    have hys : ∀ e ∈ ys, e.1.same v = false := by
      intro e he
      rw [Bool.eq_false_iff]
      intro heq
      have hek := (hsame e (by simp [he])).mp heq
      have hdistinct := ht.distinct
      rw [List.map_append, List.map_cons, List.nodup_append] at hdistinct
      have hnew := (List.nodup_cons.mp hdistinct.2.1).1
      rw [hdk, ← hek] at hnew
      exact hnew (List.mem_map_of_mem he)
    have hkeep : ∀ zs : Tally, (∀ e ∈ zs, e.1.same v = false) → ∀ w,
        (zs.map fun e => if e.1.same v then (e.1, w) else e) = zs := by
      intro zs hzs w
      refine (List.map_congr_left fun e he => ?_).trans (List.map_id zs)
      rw [hzs e he]
      rfl
    refine Or.inr ⟨xs, d, ys, rfl, hdk, ?_, fun w => ?_⟩
    · rw [Value.lookup, hfind]
      rfl
    · have hany : ((xs ++ d :: ys).any fun e => e.1.same v) = true :=
        List.any_eq_true.mpr ⟨d, by simp, hd⟩
      rw [Value.put, if_pos hany, List.map_append, List.map_cons, if_pos hd,
        hkeep xs (fun e he => by simpa using hxs e he), hkeep ys hys]

/-- A count that is added to that of a key is added to what the tally counts. -/
theorem Sound.exists_put {t : Tally} (ht : t.Sound) {v : Value} {k : Key} (hk : v.key? = some k) :
    ∃ m, ((Value.lookup t v).getD (.int 0)).whole? = some m ∧ ∀ n,
      Sound (Value.put t v (.int (m + n))) ∧
        counts (Value.put t v (.int (m + n))) = counts t + .single k n := by
  have hkeys : ∀ w, ∀ e ∈ Value.put t v w, ∃ j, e.1.key? = some j := by
    intro w e he
    rcases Value.mem_put he with he | ⟨-, hv | ⟨d, hd, hde⟩⟩
    · exact ht.keys e he
    · exact ⟨k, hv ▸ hk⟩
    · exact hde ▸ ht.keys d hd
  have hwhole : ∀ n, ∀ e ∈ Value.put t v (.int n), ∃ l, e.2.whole? = some l := by
    intro n e he
    rcases Value.mem_put he with he | ⟨hn, -⟩
    · exact ht.whole e he
    · exact ⟨n, hn ▸ rfl⟩
  rcases ht.cases hk with ⟨hnew, hlookup, hput⟩ | ⟨xs, d, ys, rfl, hdk, hlookup, hput⟩
  · refine ⟨0, by rw [hlookup]; rfl, fun n => ⟨⟨hkeys _, hwhole _, ?_⟩, ?_⟩⟩
    · rw [hput, List.map_append, List.nodup_append]
      refine ⟨ht.distinct, List.nodup_cons.mpr ⟨List.not_mem_nil, List.nodup_nil⟩, ?_⟩
      intro a ha b hb
      obtain ⟨e, he, rfl⟩ := List.mem_map.mp ha
      obtain rfl := List.mem_singleton.mp hb
      show e.1.key? ≠ v.key?
      rw [hk]
      exact hnew e he
    · rw [hput, Int.zero_add, counts_append, counts_cons, counts_nil, add_zero,
        countOf_eq (e := (v, .int n)) hk rfl]
  · obtain ⟨m, hm⟩ := ht.whole d (by simp)
    refine ⟨m, by rw [hlookup]; exact hm, fun n => ⟨⟨hkeys _, hwhole _, ?_⟩, ?_⟩⟩
    · have hsame : (xs ++ (d.1, Value.int (m + n)) :: ys).map (·.1.key?) =
          (xs ++ d :: ys).map (·.1.key?) := by
        rw [List.map_append, List.map_append, List.map_cons, List.map_cons]
      rw [hput, hsame]
      exact ht.distinct
    · rw [hput, counts_append, counts_append, counts_cons, counts_cons, countOf_eq hdk hm,
        countOf_eq (e := (d.1, .int (m + n))) hdk rfl, ← Counts.single_add_single]
      -- the new part moves to the end
      simp only [add_assoc, add_comm, add_left_comm]

/-! ## Counting and merging -/

/-- An entry is merged by adding what it counts. -/
theorem exists_addEntry_eq_ok {t : Tally} (ht : t.Sound) {e : Value × Value} {k : Key} {n : Int}
    (hk : e.1.key? = some k) (hn : e.2.whole? = some n) :
    ∃ t', t.addEntry e = .ok t' ∧ t'.Sound ∧ t'.counts = t.counts + .single k n := by
  obtain ⟨m, hm, hput⟩ := ht.exists_put hk
  refine ⟨_, ?_, hput n⟩
  rw [addEntry, Value.add_of_whole? hm hn]
  rfl

/-- Tallies are merged by adding what they count. -/
theorem exists_foldlM_addEntry_eq_ok {t u : Tally} (ht : t.Sound) (hu : u.Sound) :
    ∃ t', u.foldlM addEntry t = .ok t' ∧ Sound t' ∧ counts t' = counts t + counts u := by
  induction u generalizing t with
  | nil => exact ⟨t, rfl, ht, by rw [counts_nil, add_zero]⟩
  | cons e u ih =>
    obtain ⟨k, hk⟩ := hu.keys e List.mem_cons_self
    obtain ⟨n, hn⟩ := hu.whole e List.mem_cons_self
    obtain ⟨s, hs, hsound, hcounts⟩ := exists_addEntry_eq_ok ht hk hn
    obtain ⟨t', ht', hsound', hcounts'⟩ := ih hsound hu.tail
    refine ⟨t', ?_, hsound', ?_⟩
    · rw [List.foldlM_cons, hs]
      exact ht'
    · rw [hcounts', hcounts, counts_cons, countOf_eq hk hn, add_assoc]

/-- A tally that came about by counting: its counts are integers, not truth values. -/
structure Counted (t : Tally) : Prop extends Sound t where
  ints : ∀ e ∈ t, ∃ n, e.2 = .int n

/-- Counting a key adds one to its count. -/
theorem Counted.exists_add_eq_ok {t : Tally} (ht : t.Counted) {v : Value} {k : Key}
    (hk : v.key? = some k) :
    ∃ t', t.add v = .ok t' ∧ Counted t' ∧ counts t' = counts t + .single k 1 := by
  obtain ⟨m, hm, hput⟩ := ht.exists_put hk
  obtain ⟨hsound, hcounts⟩ := hput 1
  have hints : ∀ e ∈ Value.put t v (.int (m + 1)), ∃ n, e.2 = .int n := by
    intro e he
    rcases Value.mem_put he with he | ⟨hn, -⟩
    · exact ht.ints e he
    · exact ⟨m + 1, hn⟩
  refine ⟨Value.put t v (.int (m + 1)), ?_, ⟨hsound, hints⟩, hcounts⟩
  rw [add, Value.asKey_eq_ok.mpr ⟨Value.unhashable?_of_key? v hk, rfl⟩, ok_bind]
  cases hlookup : Value.lookup t v with
  | none =>
    rw [hlookup] at hm
    obtain rfl := Option.some.inj hm
    rfl
  | some w =>
    obtain ⟨e, he, hew⟩ : ∃ e ∈ t, e.2 = w := by
      obtain ⟨e, he, rfl⟩ := Option.map_eq_some_iff.mp hlookup
      exact ⟨e, List.mem_of_find?_eq_some he, rfl⟩
    obtain ⟨l, hl⟩ := ht.ints e he
    rw [hlookup, Option.getD_some, ← hew, hl] at hm
    obtain rfl := Option.some.inj hm
    rw [← hew, hl]
    rfl

/-- Counting any number of keys leads to a counted tally. -/
theorem Counted.of_foldlM_add {t t' : Tally} (ht : t.Counted) {keys : List Value}
    (hkeys : ∀ v ∈ keys, ∃ k, v.key? = some k) (h : keys.foldlM add t = .ok t') : Counted t' := by
  refine foldlM_preserves (fun t v hv t' ht h => ?_) ht h
  obtain ⟨k, hk⟩ := hkeys v hv
  obtain ⟨s, hs, hcounted, -⟩ := Counted.exists_add_eq_ok ht hk
  obtain rfl := Except.ok.inj (h.symm.trans hs)
  exact hcounted

/-! ## Equal counts -/

theorem counts_eq_none {t : Tally} {k : Key} (h : ∀ e ∈ t, e.1.key? ≠ some k) :
    counts t k = none := by
  induction t with
  | nil => rfl
  | cons e t ih =>
    rw [counts_cons, Counts.add_apply, ih fun d hd => h d (List.mem_cons_of_mem e hd)]
    have hne := h e List.mem_cons_self
    have hhead : countOf e k = none := by
      rcases countOf_cases e with ⟨j, n, hj, he⟩ | he
      · rw [he]
        refine Counts.single_apply_of_ne (fun hkj => hne ?_) n
        rw [hkj]
        exact hj
      · rw [he]
        rfl
    rw [hhead]
    rfl

/-- A sound tally counts what its entries say. -/
theorem Sound.counts_eq_some {t : Tally} (ht : t.Sound) {k : Key} {n : Int} :
    counts t k = some n ↔ ∃ e ∈ t, e.1.key? = some k ∧ e.2.whole? = some n := by
  induction t with
  | nil =>
    rw [counts_nil, Counts.zero_apply]
    simp
  | cons e t ih =>
    obtain ⟨j, hj⟩ := ht.keys e List.mem_cons_self
    obtain ⟨m, hm⟩ := ht.whole e List.mem_cons_self
    rw [counts_cons, Counts.add_apply, countOf_eq hj hm]
    by_cases h : k = j
    · subst h
      have hnew : ∀ d ∈ t, d.1.key? ≠ some k := by
        intro d hd hdk
        refine (List.nodup_cons.mp ht.distinct).1 ?_
        show e.1.key? ∈ _
        rw [hj, ← hdk]
        exact List.mem_map_of_mem hd
      rw [counts_eq_none hnew, Counts.single_apply_self]
      constructor
      · intro hmn
        obtain rfl := Option.some.inj hmn
        exact ⟨e, List.mem_cons_self, hj, hm⟩
      · rintro ⟨d, hd, hdk, hdn⟩
        rcases List.mem_cons.mp hd with rfl | hd
        · rw [← hdn, hm]
          rfl
        · exact absurd hdk (hnew d hd)
    · rw [Counts.single_apply_of_ne h]
      show Option.merge (· + ·) none (counts t k) = some n ↔ _
      rw [Option.merge_none_left, ih ht.tail]
      constructor
      · rintro ⟨d, hd, hdk, hdn⟩
        exact ⟨d, List.mem_cons_of_mem e hd, hdk, hdn⟩
      · rintro ⟨d, hd, hdk, hdn⟩
        rcases List.mem_cons.mp hd with rfl | hd
        · exact absurd (Option.some.inj (hdk.symm.trans hj)) h
        · exact ⟨d, hd, hdk, hdn⟩

end Tally

namespace Value

theorem sameEntries_iff {es fs : List (Value × Value)} :
    sameEntries es fs = true ↔ ∀ e ∈ es, ∃ f ∈ fs, e.1.same f.1 = true ∧ e.2.same f.2 = true := by
  induction es with
  | nil => simp [sameEntries]
  | cons e es ih =>
    obtain ⟨k, v⟩ := e
    rw [sameEntries, Bool.and_eq_true, ih, List.any_eq_true, List.forall_mem_cons]
    simp only [Bool.and_eq_true]

end Value

/-- Tallies that count the same are equal maps. -/
theorem Tally.same_of_counts_eq {t u : Tally} (ht : t.Sound) (hu : u.Sound)
    (h : counts t = counts u) (m n : Nat) : (Value.map m t).same (.map n u) = true := by
  have hkeys : ∀ {s : Tally}, s.Sound → ∀ o : Option Key,
      o ∈ s.map (·.1.key?) ↔ ∃ k l, o = some k ∧ counts s k = some l := by
    intro s hs o
    constructor
    · intro ho
      obtain ⟨e, he, rfl⟩ := List.mem_map.mp ho
      obtain ⟨k, hk⟩ := hs.keys e he
      obtain ⟨l, hl⟩ := hs.whole e he
      exact ⟨k, l, hk, hs.counts_eq_some.mpr ⟨e, he, hk, hl⟩⟩
    · rintro ⟨k, l, rfl, hl⟩
      obtain ⟨e, he, hk, -⟩ := hs.counts_eq_some.mp hl
      exact hk ▸ List.mem_map_of_mem he
  have hperm : (t.map (·.1.key?)).Perm (u.map (·.1.key?)) :=
    (List.perm_ext_iff_of_nodup ht.distinct hu.distinct).mpr fun o => by
      rw [hkeys ht, hkeys hu, h]
  have hlength : t.length = u.length := by
    simpa using hperm.length_eq
  rw [Value.same, Bool.and_eq_true, beq_iff_eq, Value.sameEntries_iff]
  refine ⟨hlength, fun e he => ?_⟩
  obtain ⟨k, hk⟩ := ht.keys e he
  obtain ⟨l, hl⟩ := ht.whole e he
  have hcount := ht.counts_eq_some.mpr ⟨e, he, hk, hl⟩
  rw [h] at hcount
  obtain ⟨f, hf, hfk, hfl⟩ := hu.counts_eq_some.mp hcount
  exact ⟨f, hf, (Value.same_iff_key_eq e.1 f.1 hk hfk).mpr rfl, Value.same_of_whole? hl hfl⟩

end Formwright
