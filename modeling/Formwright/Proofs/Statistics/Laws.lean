import Formwright.Proofs.Statistics.Merge
import Formwright.Proofs.Statistics.Totals

/-
  The laws of merging statistics. Whole statistics are merged by adding what they stand for
  (`Statistics.Whole.exists_merge_eq_ok`), and what they stand for forms a commutative monoid. So any two
  ways of merging that lead to the same sum agree, up to the order of the keys (`Statistics.Leads.agree`).
  The keys of a merged tally are those of all its parts, also the ones with the count zero, and their
  counts are added (`Value.joins_of_counts_eq`). All counts of a merged tally add up to the sums of its
  parts (`Tally.sum_foldlM_addEntry`), which keeps consistent statistics consistent.
-/

namespace Formwright

namespace Totals

def controlTypesHom : Totals →+ Counts where
  toFun := controlTypes
  map_zero' := rfl
  map_add' _ _ := rfl

def widgetTypesHom : Totals →+ Counts where
  toFun := widgetTypes
  map_zero' := rfl
  map_add' _ _ := rfl

end Totals

/-! ## Keys and counts -/

namespace Counts

/-- A key is counted in a sum when it is counted in a part. -/
theorem sum_apply_eq_none {cs : List Counts} {k : Key} : cs.sum k = none ↔ ∀ c ∈ cs, c k = none := by
  induction cs with
  | nil => simp [zero_apply]
  | cons c cs ih =>
    rw [List.sum_cons, add_apply, List.forall_mem_cons, ← ih]
    cases c k <;> cases cs.sum k <;> simp

/-- The counts of a key are added, where a part without the key adds nothing. -/
theorem getD_sum_apply (cs : List Counts) (k : Key) :
    (cs.sum k).getD 0 = (cs.map fun c => (c k).getD 0).sum := by
  induction cs with
  | nil => rfl
  | cons c cs ih =>
    rw [List.sum_cons, add_apply, List.map_cons, List.sum_cons, ← ih]
    cases c k <;> cases cs.sum k <;> simp

end Counts

namespace Value

/-- A tally has a key. -/
def HasKey (v : Value) (k : Key) : Prop := ∃ node t, v = .map node t ∧ ∃ e ∈ t, e.1.key? = some k

/-- The count of a key in a tally, or zero. -/
def countAt (k : Key) : Value → Int
  | map _ t => ((t.find? fun e => e.1.key? = some k).bind (·.2.whole?)).getD 0
  | _ => 0

/-- A tally that has the keys of others, with the sums of their counts. -/
structure Joins (u : Value) (vs : List Value) : Prop where
  keys : ∀ k, u.HasKey k ↔ ∃ v ∈ vs, v.HasKey k
  counts : ∀ k, u.countAt k = (vs.map (countAt k)).sum

/-- Counts by distinct names are a tally. -/
theorem isTally_record (es : List (String × Int)) (h : (es.map (·.1)).Nodup) :
    (record (es.map fun e => (e.1, int e.2))).IsTally := by
  refine ⟨0, _, rfl, ?_, ?_, ?_⟩
  · intro e he
    obtain ⟨_, hf, rfl⟩ := List.mem_map.mp he
    exact ⟨_, rfl⟩
  · intro e he
    obtain ⟨_, hf, rfl⟩ := List.mem_map.mp he
    obtain ⟨f, -, rfl⟩ := List.mem_map.mp hf
    exact ⟨f.2, rfl⟩
  · have hkeys : (((es.map fun e => (e.1, int e.2)).map fun f => (text f.1, f.2)).map (·.1.key?)) =
        (es.map (·.1)).map fun name => some (Key.text name) := by
      simp only [List.map_map]
      rfl
    rw [hkeys]
    exact List.Pairwise.map _ (fun a b hne heq => hne (by simpa using heq)) h

theorem IsTally.counts_eq_none_iff {v : Value} (hv : v.IsTally) {k : Key} :
    v.counts k = none ↔ ¬ v.HasKey k := by
  obtain ⟨node, t, rfl, ht⟩ := hv
  constructor
  · rintro hnone ⟨_, _, hmap, e, he, hk⟩
    cases hmap
    obtain ⟨n, hn⟩ := ht.whole e he
    cases hnone.symm.trans (ht.counts_eq_some.mpr ⟨e, he, hk, hn⟩)
  · intro hnone
    exact Tally.counts_eq_none fun e he hk => hnone ⟨node, t, rfl, e, he, hk⟩

theorem IsTally.countAt_eq {v : Value} (hv : v.IsTally) (k : Key) : v.countAt k = (v.counts k).getD 0 := by
  obtain ⟨node, t, rfl, ht⟩ := hv
  rw [countAt, counts]
  cases hfind : t.find? fun e => e.1.key? = some k with
  | none =>
    have hnone := List.find?_eq_none.mp hfind
    rw [Tally.counts_eq_none fun e he hk => hnone e he (decide_eq_true hk)]
    rfl
  | some e =>
    have he := List.mem_of_find?_eq_some hfind
    have hk : e.1.key? = some k := by simpa using List.find?_some hfind
    obtain ⟨n, hn⟩ := ht.whole e he
    rw [ht.counts_eq_some.mpr ⟨e, he, hk, hn⟩, Option.bind_some, hn]

/-- A tally that counts what others count together has their keys, with the sums. -/
theorem joins_of_counts_eq {u : Value} {vs : List Value} (hu : u.IsTally) (hvs : ∀ v ∈ vs, v.IsTally)
    (h : u.counts = (vs.map counts).sum) : u.Joins vs where
  keys k := by
    rw [← not_iff_not, ← hu.counts_eq_none_iff, h, Counts.sum_apply_eq_none, List.forall_mem_map, not_exists]
    simp only [not_and]
    exact forall₂_congr fun v hv => (hvs v hv).counts_eq_none_iff
  counts k := by
    rw [hu.countAt_eq, h, Counts.getD_sum_apply, List.map_map]
    exact congrArg List.sum (List.map_congr_left fun v hv => ((hvs v hv).countAt_eq k).symm)

end Value

/-! ## Sums of counts -/

namespace Tally

/-- An entry is merged by adding its count to the sum. -/
theorem sum_addEntry {t t' : Tally} (ht : t.Sound) {e : Value × Value} {k : Key} {n : Int}
    (hk : e.1.key? = some k) (hn : e.2.whole? = some n) (h : t.addEntry e = .ok t') :
    sum t' = sum t + n := by
  obtain ⟨m, hm, -⟩ := ht.exists_put hk
  rw [addEntry, Value.add_of_whole? hm hn] at h
  obtain rfl := Except.ok.inj h
  exact ht.sum_put hk hm n

/-- Tallies are merged by adding their sums. -/
theorem sum_foldlM_addEntry {t t' u : Tally} (ht : t.Sound) (hu : u.Sound)
    (h : u.foldlM addEntry t = .ok t') : sum t' = sum t + sum u := by
  induction u generalizing t with
  | nil =>
    obtain rfl := Except.ok.inj h
    exact (Int.add_zero _).symm
  | cons e u ih =>
    obtain ⟨k, hk⟩ := hu.keys e List.mem_cons_self
    obtain ⟨n, hn⟩ := hu.whole e List.mem_cons_self
    obtain ⟨s, hs, hsound, -⟩ := exists_addEntry_eq_ok ht hk hn
    rw [List.foldlM_cons, hs] at h
    rw [ih hsound hu.tail h, sum_addEntry ht hk hn hs, Int.add_assoc, sum, sum, sum, List.map_cons,
      List.sum_cons, hn]
    rfl

end Tally

namespace Value

/-- What the counts of a tally add up to. -/
def tallied : Value → Int
  | map _ t => Tally.sum t
  | _ => 0

theorem IsTally.total_eq {v : Value} (hv : v.IsTally) : Tally.total v = .ok (.int v.tallied) := by
  obtain ⟨node, t, rfl, ht⟩ := hv
  exact ht.total_eq node

theorem IsTally.tallied_merge {u v w : Value} (hv : v.IsTally) (hw : w.IsTally)
    (h : Tally.merge v w = .ok u) : u.tallied = v.tallied + w.tallied := by
  obtain ⟨m, t, rfl, ht⟩ := hv
  obtain ⟨n, s, rfl, hs⟩ := hw
  rw [Tally.merge, asEntries_map, ok_bind, entriesFor, ok_bind] at h
  obtain ⟨r, hr, h⟩ := bind_eq_ok.mp h
  obtain rfl := Except.ok.inj h
  exact Tally.sum_foldlM_addEntry ht hs hr

theorem IsWhole.same_int_iff {v : Value} (hv : v.IsWhole) {n : Int} :
    (int n).same v = true ↔ n = v.total :=
  sameNumber_whole (numeric?_of_whole? hv)

end Value

namespace Statistics

/-! ## Consistency -/

/-- Whole statistics are consistent when both tallies add up to the number of controls. -/
theorem Whole.isConsistent_iff {s : Statistics} (h : s.Whole) : s.isConsistent = .ok true ↔
    s.controlTypes.tallied = s.totalControls.total ∧ s.widgetTypes.tallied = s.totalControls.total := by
  rw [isConsistent, h.controlTypes.total_eq, h.widgetTypes.total_eq, ok_bind, ok_bind,
    ← h.totalControls.same_int_iff, ← h.totalControls.same_int_iff]
  split
  · next hcontrols => simp [hcontrols]
  · next hcontrols => simp [hcontrols]

/-- The tallies of statistics are merged each on its own. -/
theorem tallies_of_merge {a b s : Statistics} (h : a.merge b = .ok s) :
    Tally.merge a.controlTypes b.controlTypes = .ok s.controlTypes ∧
      Tally.merge a.widgetTypes b.widgetTypes = .ok s.widgetTypes := by
  obtain ⟨_, -, h⟩ := bind_eq_ok.mp h
  obtain ⟨_, -, h⟩ := bind_eq_ok.mp h
  obtain ⟨_, -, h⟩ := bind_eq_ok.mp h
  obtain ⟨_, -, h⟩ := bind_eq_ok.mp h
  obtain ⟨_, -, h⟩ := bind_eq_ok.mp h
  obtain ⟨c, hc, h⟩ := bind_eq_ok.mp h
  obtain ⟨w, hw, h⟩ := bind_eq_ok.mp h
  obtain rfl := Except.ok.inj h
  exact ⟨hc, hw⟩

/-! ## The sum of statistics -/

/-- What the sum of statistics is made of. -/
structure SumOf (s : Statistics) (xs : List Statistics) : Prop where
  whole : s.Whole
  totals : s.totals = (xs.map totals).sum
  controlTypes : s.controlTypes.Joins (xs.map (·.controlTypes))
  widgetTypes : s.widgetTypes.Joins (xs.map (·.widgetTypes))
  consistent : (∀ x ∈ xs, x.isConsistent = .ok true) → s.isConsistent = .ok true

/-- Statistics that stand for a sum have its keys and counts. -/
theorem Whole.sumOf {s : Statistics} {xs : List Statistics} (hs : s.Whole) (hxs : ∀ x ∈ xs, x.Whole)
    (htotals : s.totals = (xs.map Statistics.totals).sum)
    (hconsistent : (∀ x ∈ xs, x.isConsistent = .ok true) → s.isConsistent = .ok true) : s.SumOf xs := by
  have hcontrols : s.controlTypes.counts = ((xs.map (·.controlTypes)).map Value.counts).sum := by
    have hpart := map_list_sum Totals.controlTypesHom (xs.map Statistics.totals)
    rw [← htotals, List.map_map] at hpart
    rw [List.map_map]
    exact hpart
  have hwidgets : s.widgetTypes.counts = ((xs.map (·.widgetTypes)).map Value.counts).sum := by
    have hpart := map_list_sum Totals.widgetTypesHom (xs.map Statistics.totals)
    rw [← htotals, List.map_map] at hpart
    rw [List.map_map]
    exact hpart
  exact ⟨hs, htotals,
    Value.joins_of_counts_eq hs.controlTypes
      (List.forall_mem_map.mpr fun x hx => (hxs x hx).controlTypes) hcontrols,
    Value.joins_of_counts_eq hs.widgetTypes
      (List.forall_mem_map.mpr fun x hx => (hxs x hx).widgetTypes) hwidgets, hconsistent⟩

/-- The sum of consistent statistics is consistent: each of its tallies adds up to what the two tallies add up
to, as its number of controls does. -/
theorem Whole.isConsistent_merge {a b s : Statistics} (ha : a.Whole) (hb : b.Whole) (h : a.merge b = .ok s)
    (hca : a.isConsistent = .ok true) (hcb : b.isConsistent = .ok true) : s.isConsistent = .ok true := by
  obtain ⟨s', hs', hwhole, htotals⟩ := ha.exists_merge_eq_ok hb
  obtain rfl := Except.ok.inj (h.symm.trans hs')
  obtain ⟨hcontrols, hwidgets⟩ := tallies_of_merge h
  have hnumber : s.totalControls.total = a.totalControls.total + b.totalControls.total :=
    congrArg Totals.totalControls htotals
  obtain ⟨hac, haw⟩ := ha.isConsistent_iff.mp hca
  obtain ⟨hbc, hbw⟩ := hb.isConsistent_iff.mp hcb
  refine hwhole.isConsistent_iff.mpr ⟨?_, ?_⟩
  · rw [ha.controlTypes.tallied_merge hb.controlTypes hcontrols, hac, hbc, hnumber]
  · rw [ha.widgetTypes.tallied_merge hb.widgetTypes hwidgets, haw, hbw, hnumber]

theorem Whole.exists_sumOf {a b : Statistics} (ha : a.Whole) (hb : b.Whole) :
    ∃ s, a.merge b = .ok s ∧ s.SumOf [a, b] := by
  obtain ⟨s, hs, hwhole, htotals⟩ := ha.exists_merge_eq_ok hb
  have hab : ∀ x ∈ [a, b], x.Whole := List.forall_mem_cons.mpr ⟨ha, List.forall_mem_singleton.mpr hb⟩
  refine ⟨s, hs, hwhole.sumOf hab (by simpa using htotals) fun hconsistent => ?_⟩
  exact ha.isConsistent_merge hb hs (hconsistent a (by simp)) (hconsistent b (by simp))

/-- Any number of whole statistics have a sum. -/
theorem exists_sumOf_mergeAll {xs : List Statistics} (h : ∀ x ∈ xs, x.Whole) :
    ∃ s, mergeAll xs = .ok s ∧ s.SumOf xs := by
  obtain ⟨s, hs, hwhole, htotals⟩ := exists_mergeAll_eq_ok h
  refine ⟨s, hs, hwhole.sumOf h htotals fun hconsistent => ?_⟩
  refine (foldlM_preserves (P := fun s => s.Whole ∧ s.isConsistent = .ok true)
    (fun a x hx b ha hb => ?_) ⟨whole_empty, rfl⟩ hs).2
  obtain ⟨b', hb', hbwhole, -⟩ := ha.1.exists_merge_eq_ok (h x hx)
  obtain rfl := Except.ok.inj (hb.symm.trans hb')
  exact ⟨hbwhole, ha.1.isConsistent_merge (h x hx) hb ha.2 (hconsistent x hx)⟩

/-! ## The laws -/

/-- A computation leads to whole statistics that stand for something. -/
def Leads (x : Except Fault Statistics) (n : Totals) : Prop := ∃ s, x = .ok s ∧ s.Whole ∧ s.totals = n

/-- Two computations lead to equal statistics. -/
def Agree (x y : Except Fault Statistics) : Prop := ∃ s t, x = .ok s ∧ y = .ok t ∧ s.Same t

namespace Leads

variable {x y : Except Fault Statistics} {m n : Totals}

/-- Computations that lead to the same sum agree. -/
theorem agree (hx : Leads x n) (hy : Leads y n) : Agree x y := by
  obtain ⟨s, hs, hswhole, hstotals⟩ := hx
  obtain ⟨t, ht, htwhole, httotals⟩ := hy
  exact ⟨s, t, hs, ht, hswhole.same htwhole (hstotals.trans httotals.symm)⟩

theorem of_whole {a : Statistics} (ha : a.Whole) : Leads (.ok a) a.totals := ⟨a, rfl, ha, rfl⟩

/-- What two computations lead to is merged by adding what it stands for. -/
theorem merge (hx : Leads x m) (hy : Leads y n) :
    Leads (x >>= fun s => y >>= fun t => s.merge t) (m + n) := by
  obtain ⟨s, rfl, hswhole, rfl⟩ := hx
  obtain ⟨t, rfl, htwhole, rfl⟩ := hy
  exact hswhole.exists_merge_eq_ok htwhole

end Leads

/-- Merging whole statistics is a commutative monoid up to the order of keys: a sum does not depend on what is
merged first, on either side or in what order, and nothing is neutral. It has the keys of both sides with the
sums of their counts, and is consistent if they are. -/
theorem Whole.merge_laws {a b c : Statistics} (ha : a.Whole) (hb : b.Whole) (hc : c.Whole)
    {xs ys zs : List Statistics} (hxs : ∀ x ∈ xs, x.Whole) (hys : ∀ y ∈ ys, y.Whole) (hperm : xs.Perm zs) :
    Agree (a.merge b) (b.merge a) ∧
      Agree (do (← a.merge b).merge c) (do a.merge (← b.merge c)) ∧
      Agree (merge {} a) (.ok a) ∧ Agree (a.merge {}) (.ok a) ∧
      (∃ s, a.merge b = .ok s ∧ s.SumOf [a, b]) ∧ (∃ s, mergeAll xs = .ok s ∧ s.SumOf xs) ∧
      Agree (mergeAll xs) (mergeAll zs) ∧
      Agree (mergeAll (xs ++ ys)) (do (← mergeAll xs).merge (← mergeAll ys)) := by
  have hla := Leads.of_whole ha
  have hlb := Leads.of_whole hb
  have hlc := Leads.of_whole hc
  have hlxs : Leads (mergeAll xs) (xs.map totals).sum := exists_mergeAll_eq_ok hxs
  have hlys : Leads (mergeAll ys) (ys.map totals).sum := exists_mergeAll_eq_ok hys
  have hlzs : Leads (mergeAll zs) (xs.map totals).sum := by
    rw [(hperm.map totals).sum_eq]
    exact exists_mergeAll_eq_ok fun z hz => hxs z (hperm.mem_iff.mpr hz)
  have hle : Leads (.ok {}) 0 := Leads.of_whole whole_empty
  have hab : Leads (a.merge b) (a.totals + b.totals) := hla.merge hlb
  have hba : Leads (b.merge a) (a.totals + b.totals) := add_comm a.totals b.totals ▸ hlb.merge hla
  have hfirst : Leads (do (← a.merge b).merge c) (a.totals + b.totals + c.totals) := hab.merge hlc
  have hlast : Leads (do a.merge (← b.merge c)) (a.totals + b.totals + c.totals) :=
    add_assoc a.totals b.totals c.totals ▸ hla.merge (hlb.merge hlc)
  have hleft : Leads (merge {} a) a.totals := zero_add a.totals ▸ hle.merge hla
  have hright : Leads (a.merge {}) a.totals := add_zero a.totals ▸ hla.merge hle
  have happend : Leads (mergeAll (xs ++ ys)) ((xs.map totals).sum + (ys.map totals).sum) := by
    rw [← List.sum_append, ← List.map_append]
    exact exists_mergeAll_eq_ok (List.forall_mem_append.mpr ⟨hxs, hys⟩)
  exact ⟨hab.agree hba, hfirst.agree hlast, hleft.agree hla, hright.agree hla, ha.exists_sumOf hb,
    exists_sumOf_mergeAll hxs, hlxs.agree hlzs, happend.agree (hlxs.merge hlys)⟩

/-- A key that is counted zero times is kept, and one that both sides count has the sum. -/
theorem Whole.merge_laws_zero_count :
    let a : Statistics := {
      totalControls := .int 1
      controlTypes := .record [("a", .int 1), ("b", .int 0)]
      widgetTypes := .record [("t", .int 1)] }
    let b : Statistics := {
      totalControls := .int 2
      controlTypes := .record [("c", .int 0), ("a", .int 2)]
      widgetTypes := .record [("u", .int 2)] }
    (∃ s, a.merge b = .ok s ∧ s.controlTypes.countAt (.text "a") = 3 ∧
        s.controlTypes.HasKey (.text "b") ∧ s.controlTypes.HasKey (.text "c") ∧
        s.isConsistent = .ok true) ∧
      Agree (mergeAll [a, b]) (mergeAll [b, a]) ∧
      Agree (mergeAll [a, b]) (do (← mergeAll [a]).merge (← mergeAll [b])) := by
  intro a b
  have ha : a.Whole :=
    ⟨rfl, rfl, rfl, rfl, rfl, Value.isTally_record [("a", 1), ("b", 0)] (by decide),
      Value.isTally_record [("t", 1)] (by decide)⟩
  have hb : b.Whole :=
    ⟨rfl, rfl, rfl, rfl, rfl, Value.isTally_record [("c", 0), ("a", 2)] (by decide),
      Value.isTally_record [("u", 2)] (by decide)⟩
  have hab : ∀ x ∈ [a, b], x.Whole :=
    List.forall_mem_cons.mpr ⟨ha, List.forall_mem_singleton.mpr hb⟩
  obtain ⟨-, -, -, -, ⟨s, hs, hsum⟩, -, hperm, -⟩ :=
    Whole.merge_laws ha hb hb hab hab (List.Perm.swap b a [])
  obtain ⟨-, -, -, -, -, -, -, happend⟩ :=
    Whole.merge_laws ha hb hb (List.forall_mem_singleton.mpr ha) (List.forall_mem_singleton.mpr hb)
      (List.Perm.refl [a])
  refine ⟨⟨s, hs, hsum.controlTypes.counts _, ?_, ?_, hsum.consistent ?_⟩, hperm, happend⟩
  · exact (hsum.controlTypes.keys _).mpr
      ⟨_, List.mem_cons_self, 0, _, rfl, (.text "b", .int 0), by simp, rfl⟩
  · exact (hsum.controlTypes.keys _).mpr
      ⟨_, List.mem_cons_of_mem _ List.mem_cons_self, 0, _, rfl, (.text "c", .int 0), by simp, rfl⟩
  · exact List.forall_mem_cons.mpr
      ⟨by with_unfolding_all rfl, List.forall_mem_singleton.mpr (by with_unfolding_all rfl)⟩

end Statistics

end Formwright
