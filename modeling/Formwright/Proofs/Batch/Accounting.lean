import Formwright.Proofs.Batch.Processing
import Formwright.Proofs.Batch.Recording

/-
  The accounts of a run. Items are processed until the first time that the run is asked to stop
  (`runFrom_eq`), and what is processed is recorded in order. So a result says of exactly these
  items, each once, what became of them (`accounts_of_run`).
-/

namespace Formwright.Batch

/-! ## Items -/

theorem pairwise_putAnalysis {items : List (Value × Option Analysis)} (id : Value)
    (a : Option Analysis) (h : items.Pairwise fun i j => i.1.same j.1 = false) :
    (putAnalysis items id a).Pairwise fun i j => i.1.same j.1 = false := by
  unfold putAnalysis
  split
  · refine List.pairwise_map.mpr (h.imp ?_)
    intro i j hij
    have hkey : ∀ i : Value × Option Analysis, (if i.1.same id then (i.1, a) else i).1 = i.1 := by
      intro i
      split <;> rfl
    rwa [hkey, hkey]
  · rename_i hnew
    rw [List.pairwise_append]
    refine ⟨h, List.pairwise_singleton _ _, ?_⟩
    intro i hi j hj
    obtain rfl := List.mem_singleton.mp hj
    rw [Bool.not_eq_true, List.any_eq_false] at hnew
    simpa using hnew i hi

theorem textId_eq_ok {v : Value} {s : String} : textId v = .ok s ↔ v = .text s := by
  cases v <;> simp [textId]

/-- The ids of a batch are distinct. -/
theorem nodup_of_check {pairs : List (Value × Option Analysis)} {forms : Forms}
    {g : Option Generator} {items : List Item} {g' : Generator}
    (hforms : Forms.ofPairs pairs = .ok forms) (h : check forms g = .ok (items, g')) :
    (items.map (·.1)).Nodup := by
  obtain ⟨byId, hbyId, hforms⟩ := bind_eq_ok.mp hforms
  obtain rfl := Except.ok.inj hforms
  have hdistinct : byId.Pairwise fun i j => i.1.same j.1 = false := by
    refine foldlM_preserves (P := fun is => is.Pairwise fun i j => i.1.same j.1 = false) ?_
      List.Pairwise.nil hbyId
    intro before p _ after hbefore hafter
    obtain ⟨id, -, hafter⟩ := bind_eq_ok.mp hafter
    obtain rfl := Except.ok.inj hafter
    exact pairwise_putAnalysis id p.2 hbefore
  obtain _ | g := g
  · cases h
  obtain ⟨checked, hchecked, h⟩ := bind_eq_ok.mp h
  obtain ⟨rfl, rfl⟩ := Prod.mk.inj (Except.ok.inj h)
  have htexts : byId.map (·.1) = checked.map fun i => Value.text i.1 := by
    refine map_eq_of_mapM_eq_ok ?_ hchecked
    intro i item hitem
    obtain ⟨s, hs, hitem⟩ := bind_eq_ok.mp hitem
    obtain rfl := Except.ok.inj hitem
    exact textId_eq_ok.mp hs
  have hpairs : (byId.map (·.1)).Pairwise fun v w => v.same w = false :=
    List.pairwise_map.mpr hdistinct
  rw [htexts] at hpairs
  refine List.pairwise_map.mpr ((List.pairwise_map.mp hpairs).imp ?_)
  intro i j hij
  rw [Value.same_text] at hij
  exact ne_of_beq_false hij

/-! ## Steps -/

/-- Processes an item of a batch. -/
def processItem (g : Generator) (o : Options) (formName : Value) (item : Item) :
    Except Fault Outcome :=
  process item.1 item.2 g o formName

section
variable {g : Generator} {o : Options} {formName : Value} {items : List Item} {os : List Outcome}

theorem map_formId_of_mapM_processItem (h : items.mapM (processItem g o formName) = .ok os) :
    os.map (·.formId) = items.map (·.1) :=
  (map_eq_of_mapM_eq_ok (fun _ _ hout => (process_eq_ok hout).1.symm) h).symm

theorem isSome_statistics_of_mapM_processItem (h : items.mapM (processItem g o formName) = .ok os) :
    ∀ out ∈ os, out.product.success = true → out.statistics.isSome := by
  intro out hout
  obtain ⟨i, hi⟩ := List.getElem?_of_mem hout
  obtain ⟨item, -, hitem⟩ := getElem?_of_mapM_eq_ok h hi
  exact (process_eq_ok hitem).2

theorem step_eq (r : Recorder) (item : Item) :
    step g o formName r item = processItem g o formName item >>= r.recorded := by
  unfold step processItem Recorder.recorded
  congr

/-- Steps for a list of items process them all and record what comes of them. -/
theorem foldlM_step_eq_ok {r r' : Recorder} :
    items.foldlM (step g o formName) r = .ok r' ↔
      ∃ os, items.mapM (processItem g o formName) = .ok os ∧ r.recordAll os = .ok r' := by
  induction items generalizing r with
  | nil => simp [Recorder.recordAll]
  | cons item items ih =>
    rw [List.foldlM_cons, step_eq, List.mapM_cons]
    constructor
    · intro h
      obtain ⟨s, hs, h⟩ := bind_eq_ok.mp h
      obtain ⟨out, hout, hs⟩ := bind_eq_ok.mp hs
      obtain ⟨os, hos, h⟩ := ih.mp h
      refine ⟨out :: os, ?_, ?_⟩
      · rw [hout, hos]
        rfl
      · rw [Recorder.recordAll, List.foldlM_cons, hs]
        exact h
    · rintro ⟨os, hos, h⟩
      obtain ⟨out, hout, hos⟩ := bind_eq_ok.mp hos
      obtain ⟨outs, houts, hos⟩ := bind_eq_ok.mp hos
      obtain rfl := Except.ok.inj hos
      rw [Recorder.recordAll, List.foldlM_cons] at h
      obtain ⟨s, hs, h⟩ := bind_eq_ok.mp h
      refine bind_eq_ok.mpr ⟨s, ?_, ih.mpr ⟨outs, houts, h⟩⟩
      rw [hout]
      exact hs

/-! ## Being asked to stop -/

/-- How many of `n` items are processed before a run is asked to stop; `asked k` is the answer
before the first of them. -/
def reached (asked : Nat → Bool) (k : Nat) : Nat → Nat
  | 0 => 0
  | n + 1 => if asked k then 0 else reached asked (k + 1) n + 1

theorem reached_le (asked : Nat → Bool) (k n : Nat) : reached asked k n ≤ n := by
  induction n generalizing k with
  | zero => exact Nat.le_refl 0
  | succ n ih =>
    rw [reached]
    split
    · exact Nat.zero_le _
    · exact Nat.succ_le_succ (ih (k + 1))

theorem asked_of_lt_reached {asked : Nat → Bool} {k n i : Nat} (h : i < reached asked k n) :
    asked (k + i) = false := by
  induction n generalizing k i with
  | zero => exact absurd h (Nat.not_lt_zero i)
  | succ n ih =>
    rw [reached] at h
    split at h
    · exact absurd h (Nat.not_lt_zero i)
    · rename_i hk
      obtain _ | i := i
      · simpa using hk
      · rw [show k + (i + 1) = k + 1 + i by omega]
        exact ih (Nat.lt_of_succ_lt_succ h)

theorem asked_reached {asked : Nat → Bool} {k n : Nat} (h : reached asked k n < n) :
    asked (k + reached asked k n) = true := by
  induction n generalizing k with
  | zero => exact absurd h (Nat.not_lt_zero _)
  | succ n ih =>
    rw [reached] at h ⊢
    by_cases hk : asked k = true
    · rw [if_pos hk]
      exact hk
    · rw [if_neg hk] at h ⊢
      rw [show k + (reached asked (k + 1) n + 1) = k + 1 + reached asked (k + 1) n by omega]
      exact ih (by simpa using h)

/-- A run that is never asked to stop reaches the end. -/
theorem reached_never (k n : Nat) : reached (fun _ => false) k n = n := by
  induction n generalizing k with
  | zero => rfl
  | succ n ih => rw [reached, if_neg Bool.false_ne_true, ih]

/-- A run takes a step for each item before it is asked to stop. -/
theorem runFrom_eq (asked : Nat → Bool) (k : Nat) (items : List Item) (r : Recorder) :
    runFrom g o formName asked k items r =
      (items.take (reached asked k items.length)).foldlM (step g o formName) r >>= fun r =>
        .ok (if reached asked k items.length < items.length then r.cancel else r) := by
  induction items generalizing k r with
  | nil => rfl
  | cons item items ih =>
    by_cases hk : asked k = true
    · simp [runFrom, reached, hk]
    · rw [runFrom, if_neg hk, List.length_cons, reached, if_neg hk, List.take_succ_cons,
        List.foldlM_cons, bind_assoc]
      simp only [ih, Nat.add_lt_add_iff_right]

end

/-! ## What a result says -/

/-- A finished recorder whose result is that of a list of outcomes, for a batch of `n` items. -/
structure Accounts (n : Nat) (target : String) (os : List Outcome) (r : Recorder) : Prop where
  completed : r.completed = os.length
  succeeded : r.result.succeeded = os.countP (·.product.success)
  failed : r.result.failed = os.countP (!·.product.success)
  errors : r.result.errors = os.flatMap Outcome.errors
  warnings : r.result.warnings = os.flatMap Outcome.warningLines ++
    if os.length < n then ["Batch cancelled, " ++ (n - os.length).repr ++ " form(s) not processed"]
    else []
  lines : r.lines = ["Starting " ++ target ++ " generation for " ++ n.repr ++ " form(s)..."] ++
    os.map Outcome.statusLine ++ Recorder.closing r.result
  messages : r.result.messages = r.lines
  events : r.events = (os.zipIdx 1).map fun p => p.1.progress n p.2
  cancelled : r.result.cancelled = decide (os.length < n)
  success : r.result.success = os.any (·.product.success)
  statistics : Statistics.mergeAll (os.flatMap Outcome.gains) = .ok r.result.statistics

section
variable {items : List Item} {g : Generator} {o : Options} {startTime now : Calendar.Moment}
  {r : Recorder} {os : List Outcome}

/-- Items can be processed and recorded when each gets an outcome and the statistics of the
successes can be merged. -/
theorem exists_foldlM_step_eq_ok {formName : Value} {done : List Item}
    (hne : done ≠ [] → items ≠ []) (startTime : Calendar.Moment) :
    (∃ r, done.foldlM (step g o formName) (begin items g startTime) = .ok r) ↔
      ∃ os, done.mapM (processItem g o formName) = .ok os ∧
        ∃ s, Statistics.mergeAll (os.flatMap Outcome.gains) = .ok s := by
  have hrecord : ∀ os, done.mapM (processItem g o formName) = .ok os →
      ((∃ r, (begin items g startTime).recordAll os = .ok r) ↔
        ∃ s, Statistics.mergeAll (os.flatMap Outcome.gains) = .ok s) := by
    intro os hos
    refine Recorder.exists_recordAll_eq_ok (fun h => ?_) (isSome_statistics_of_mapM_processItem hos)
    have hdone : done ≠ [] := by
      rintro rfl
      obtain rfl := Except.ok.inj hos
      exact h rfl
    have hpos := List.length_pos_iff.mpr (hne hdone)
    show (items.length : Int) ≠ 0
    omega
  constructor
  · rintro ⟨r, hr⟩
    obtain ⟨os, hos, hr⟩ := foldlM_step_eq_ok.mp hr
    exact ⟨os, hos, (hrecord os hos).mp ⟨r, hr⟩⟩
  · rintro ⟨os, hos, hs⟩
    obtain ⟨r, hr⟩ := (hrecord os hos).mpr hs
    exact ⟨r, foldlM_step_eq_ok.mpr ⟨os, hos, hr⟩⟩

/-- A run that is never asked to stop returns when every item gets an outcome and the statistics of
the successes can be merged. -/
theorem exists_run_eq_ok : (∃ r, run items g o (fun _ => false) startTime now = .ok r) ↔
    ∃ os, items.mapM (processItem g o (formNameFor items o)) = .ok os ∧
      ∃ s, Statistics.mergeAll (os.flatMap Outcome.gains) = .ok s := by
  rw [← exists_foldlM_step_eq_ok id startTime, run, exists_bind_pure_eq_ok, runFrom_eq,
    reached_never, List.take_length]
  simp only [Nat.lt_irrefl, if_false]
  exact exists_bind_pure_eq_ok

/-- Ending a batch turns what was recorded into a result, in whatever order the products are. -/
theorem accounts_finish (h : r.Holds os) (hg : (begin items g startTime).Grows os r)
    (hos : os.length ≤ items.length) {ps : List (String × Product)}
    (hps : ps.Perm (os.map fun out => (out.formId, out.product))) (now : Calendar.Moment) :
    Accounts items.length g.target os
      (({ r with result := { r.result with
          products := ps, cancelled := decide (os.length < items.length) } } :
            Recorder).finish now) := by
  generalize hs : ({ r with result := { r.result with
    products := ps, cancelled := decide (os.length < items.length) } } : Recorder) = s
  have hend := s.ends_finish now
  have hcount : ∀ p : Product → Bool,
      (ps.filter fun e => p e.2).length = os.countP fun out => p out.product := by
    intro p
    rw [← List.countP_eq_length_filter, hps.countP_eq, List.countP_map]
    rfl
  have htotal : s.total = items.length := by
    subst hs
    exact hg.total
  have hsucceeded : s.result.succeeded = os.countP (·.product.success) := by
    subst hs
    exact hcount (·.success)
  constructor
  · rw [hend.completed, ← hs]
    exact h.completed
  · rw [Result.succeeded, hend.products]
    exact hsucceeded
  · rw [Result.failed, hend.products, ← hs]
    exact hcount (!·.success)
  · rw [hend.errors, ← hs]
    exact h.errors
  · rw [hend.warnings, Recorder.cancelWarnings, htotal, ← hs, hg.warnings, h.completed]
    have hleft : (items.length : Int) - Int.ofNat os.length =
        ((items.length - os.length : Nat) : Int) := by
      rw [Int.ofNat_eq_natCast]
      omega
    rw [hleft, Text.decimal_natCast]
    simp only [decide_eq_true_eq]
    rfl
  · rw [hend.lines, ← hs]
    show r.lines ++ _ = _
    rw [hg.lines]
    rfl
  · rw [hend.messages, hend.lines, ← hs]
    show r.result.messages ++ _ = r.lines ++ _
    rw [hg.messages, hg.lines]
    rfl
  · rw [hend.events, ← hs]
    show r.events = _
    rw [h.events, hg.total]
    rfl
  · rw [hend.cancelled, ← hs]
  · rw [hend.success, hsucceeded]
    rw [Bool.eq_iff_iff, decide_eq_true_eq, List.countP_pos_iff, List.any_eq_true]
  · rw [hend.statistics, ← hs]
    exact h.statistics

/-- A run that returns accounts for the outcomes of the items that it reached. -/
theorem accounts_of_run {asked : Nat → Bool} (distinct : (items.map (·.1)).Nodup)
    (h : run items g o asked startTime now = .ok r) :
    ∃ os, (items.take (reached asked 0 items.length)).mapM
        (processItem g o (formNameFor items o)) = .ok os ∧
      r.result.products = os.map (fun out => (out.formId, out.product)) ∧
      Accounts items.length g.target os r := by
  unfold run at h
  obtain ⟨s, hs, h⟩ := bind_eq_ok.mp h
  obtain rfl := Except.ok.inj h
  rw [runFrom_eq] at hs
  obtain ⟨t, ht, hs⟩ := bind_eq_ok.mp hs
  obtain ⟨os, hos, ht⟩ := foldlM_step_eq_ok.mp ht
  have hk := reached_le asked 0 items.length
  have hids := map_formId_of_mapM_processItem hos
  have hlength : os.length = reached asked 0 items.length := by
    rw [length_of_mapM_eq_ok hos, List.length_take, Nat.min_eq_left hk]
  obtain ⟨hholds, hgrows⟩ := Recorder.holds_of_recordAll (Recorder.holds_new _ _ _) ht
  rw [List.nil_append] at hholds
  have hproducts : t.result.products = os.map fun out => (out.formId, out.product) := by
    rw [hholds.products, Recorder.foldl_putProduct, List.nil_append]
    rw [List.map_nil, List.nil_append, hids]
    exact distinct.sublist ((List.take_sublist _ items).map _)
  have hfinish := accounts_finish hholds hgrows (hlength ▸ hk) (List.Perm.of_eq hproducts) now
  rw [hlength] at hfinish
  refine ⟨os, hos, ?_, ?_⟩
  · rw [(s.ends_finish now).products]
    obtain rfl := Except.ok.inj hs
    split
    · exact hproducts
    · exact hproducts
  · obtain rfl := Except.ok.inj hs
    split
    · rename_i hlt
      rw [decide_eq_true hlt] at hfinish
      exact hfinish
    · rename_i hlt
      rw [decide_eq_false hlt, ← show t.result.cancelled = false from hgrows.cancelled] at hfinish
      exact hfinish

/-- A run that returns accounts for the items before the first one at which it was asked to stop:
each of them was processed once, in order, and the result is that of their outcomes. -/
theorem run_accounts {asked : Nat → Bool} (distinct : (items.map (·.1)).Nodup)
    (h : run items g o asked startTime now = .ok r) :
    ∃ (k : Nat) (os : List Outcome), k ≤ items.length ∧
      (∀ i < k, asked i = false) ∧ (k < items.length → asked k = true) ∧
      (items.take k).map (processItem g o (formNameFor items o)) = os.map .ok ∧
      os.map (·.formId) = (items.take k).map (·.1) ∧
      r.result.products = os.map (fun out => (out.formId, out.product)) ∧
      (∀ out ∈ os, out.product.success = true → out.statistics.isSome) ∧
      Accounts items.length g.target os r := by
  obtain ⟨os, hos, hproducts, haccounts⟩ := accounts_of_run distinct h
  refine ⟨reached asked 0 items.length, os, reached_le _ _ _, ?_, ?_, mapM_eq_ok.mp hos,
    map_formId_of_mapM_processItem hos, hproducts, isSome_statistics_of_mapM_processItem hos,
    haccounts⟩
  · intro i hi
    have := asked_of_lt_reached hi
    rwa [Nat.zero_add] at this
  · intro hlt
    have := asked_reached hlt
    rwa [Nat.zero_add] at this

/-- Asked to stop before the second of three items, a run accounts for the first one only. -/
theorem run_accounts_stopped :
    ∃ r, run [("a", none), ("b", none), ("c", none)] .missing {} (fun k => k == 1)
        ⟨⟨2024, 1, 1⟩, 9, 0, 0, 0, none⟩ ⟨⟨2024, 1, 1⟩, 9, 0, 1, 0, none⟩ = .ok r ∧
      r.result.products.map (·.1) = ["a"] ∧ r.result.cancelled = true := by
  obtain ⟨r, hr⟩ : ∃ r, run [("a", none), ("b", none), ("c", none)] .missing {} (fun k => k == 1)
      ⟨⟨2024, 1, 1⟩, 9, 0, 0, 0, none⟩ ⟨⟨2024, 1, 1⟩, 9, 0, 1, 0, none⟩ = .ok r := ⟨_, rfl⟩
  obtain ⟨k, os, hk, hbefore, hat, -, hids, hproducts, -, haccounts⟩ := run_accounts (by decide) hr
  have hone : k = 1 := by
    rcases Nat.lt_or_ge k 3 with hlt | hge
    · simpa using hat hlt
    · exact absurd (hbefore 1 (by omega)) (by decide)
  subst hone
  have hlength := congrArg List.length hids
  rw [List.length_map] at hlength
  refine ⟨r, hr, ?_, ?_⟩
  · rw [hproducts, List.map_map]
    exact hids
  · rw [haccounts.cancelled, hlength]
    rfl

end

end Formwright.Batch
