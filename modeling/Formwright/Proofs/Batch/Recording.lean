import Formwright.Batch.Run
import Formwright.Proofs.Success

/-
  What a recorder holds. An outcome that is recorded adds to every account at once (`Takes`,
  `takes_of_record`), and recording is refused only where statistics cannot be merged or where the
  total is zero (`exists_record_eq_none`). So after any number of recorded outcomes each account is
  a function of their list (`Holds`, `holds_of_recordAll`). Ending a batch leaves the accounts alone
  and settles whether it succeeded.
-/

namespace Formwright.Batch

/-! ## What an outcome adds -/

namespace Outcome

/-- The error line of a failure. -/
def errors (o : Outcome) : List String :=
  if o.product.success then [] else [o.formId ++ ": " ++ o.product.errorMessage]

/-- The warnings, each with the form it is about. -/
def warningLines (o : Outcome) : List String :=
  o.warnings.map fun w => o.formId ++ ": " ++ w.display

/-- The statistics of a success. -/
def gains (o : Outcome) : List Statistics := if o.product.success then o.statistics.toList else []

/-- The status line. -/
def statusLine (o : Outcome) : String :=
  if o.product.success then "  ✓ " ++ o.formId ++ " converted successfully"
  else "  ✗ " ++ o.formId ++ " failed: " ++ o.product.errorMessage

/-- The progress event of the outcome that is recorded as number `k`. -/
def progress (total : Int) (k : Nat) (o : Outcome) : Progress :=
  ⟨o.formId, o.product.success, k, total, Recorder.percent k total⟩

end Outcome

namespace Recorder

/-! ## One outcome -/

/-- All that recording an outcome changes. -/
structure Takes (r : Recorder) (o : Outcome) (r' : Recorder) : Prop where
  total : r'.total = r.total
  target : r'.target = r.target
  completed : r'.completed = r.completed + 1
  products : r'.result.products = putProduct r.result.products o.formId o.product
  errors : r'.result.errors = r.result.errors ++ o.errors
  warnings : r'.result.warnings = r.result.warnings ++ o.warningLines
  messages : r'.result.messages = r.result.messages ++ [o.statusLine]
  lines : r'.lines = r.lines ++ [o.statusLine]
  events : r'.events = r.events ++ [o.progress r.total (r.completed + 1)]
  cancelled : r'.result.cancelled = r.result.cancelled
  success : r'.result.success = r.result.success
  statistics : o.gains.foldlM Statistics.merge r.result.statistics = .ok r'.result.statistics

/-- Statistics are merged for a success and for nothing else. -/
theorem merged_eq_ok {r : Recorder} {o : Outcome} {t : Option Statistics} (h : r.merged o = .ok t) :
    (o.product.success = true ∧ ∃ s u, o.statistics = some s ∧ t = some u ∧
        r.result.statistics.merge s = .ok u) ∨
      (o.product.success = false ∧ t = none) := by
  unfold merged at h
  split at h
  · rename_i hs
    split at h
    · rename_i s ho
      obtain ⟨u, hu, rfl⟩ := map_eq_ok.mp h
      exact Or.inl ⟨hs, s, u, ho, rfl, hu⟩
    · cases h
  · rename_i hs
    exact Or.inr ⟨by simpa using hs, (Except.ok.inj h).symm⟩

/-- An outcome is recorded when its statistics can be merged, unless the total is zero. -/
theorem exists_record_eq_none {r : Recorder} {o : Outcome} :
    (∃ r', r.record o = (r', none)) ↔ r.total ≠ 0 ∧ ∃ t, r.merged o = .ok t := by
  unfold record
  cases hm : r.merged o with
  | error f => simp
  | ok t =>
    by_cases ht : r.total = 0
    · cases t <;> simp [advance, settle, keep, message, ht]
    · cases t <;> simp [advance, settle, keep, message, ht]

/-- Recording an outcome changes every account, and nothing else. -/
theorem takes_of_record {r r' : Recorder} {o : Outcome} (h : r.record o = (r', none)) :
    r.Takes o r' := by
  obtain ⟨hr, t, ht⟩ := exists_record_eq_none.mp ⟨r', h⟩
  rw [record, ht] at h
  rcases merged_eq_ok ht with ⟨hs, s, u, ho, rfl, hu⟩ | ⟨hs, rfl⟩
  · simp only [advance, settle, keep, message, hr, if_false, Prod.mk.injEq, and_true] at h
    obtain rfl := h
    constructor <;>
      simp [Outcome.errors, Outcome.warningLines, Outcome.statusLine, Outcome.progress,
        Outcome.gains, lines, events, hs, ho, hu]
  · simp only [advance, settle, keep, message, hr, if_false, Prod.mk.injEq, and_true] at h
    obtain rfl := h
    constructor <;>
      simp [Outcome.errors, Outcome.warningLines, Outcome.statusLine, Outcome.progress,
        Outcome.gains, lines, events, hs]

/-! ## Any number of outcomes -/

/-- A recorder with one more outcome, or the fault that kept it out. -/
def recorded (r : Recorder) (o : Outcome) : Except Fault Recorder :=
  match r.record o with
  | (r', none) => .ok r'
  | (_, some f) => .error f

theorem recorded_eq_ok {r r' : Recorder} {o : Outcome} :
    r.recorded o = .ok r' ↔ r.record o = (r', none) := by
  unfold recorded
  split
  · rename_i r'' h
    simp [h]
  · rename_i r'' f h
    simp [h]

/-- Records outcomes one after the other. -/
def recordAll (r : Recorder) (os : List Outcome) : Except Fault Recorder := os.foldlM recorded r

/-- Every account of a recorder is that of a list of outcomes. -/
structure Holds (r : Recorder) (os : List Outcome) : Prop where
  completed : r.completed = os.length
  products : r.result.products = os.foldl (fun ps o => putProduct ps o.formId o.product) []
  errors : r.result.errors = os.flatMap Outcome.errors
  events : r.events = (os.zipIdx 1).map fun p => p.1.progress r.total p.2
  statistics : Statistics.mergeAll (os.flatMap Outcome.gains) = .ok r.result.statistics

theorem holds_new (total : Int) (target : String) (startTime : Calendar.Moment) :
    (new total target startTime).start.Holds [] := by
  constructor <;> rfl

/-- A recorded outcome is one more in the list. -/
theorem Holds.snoc {r r' : Recorder} {os : List Outcome} {o : Outcome} (h : r.Holds os)
    (ht : r.Takes o r') : r'.Holds (os ++ [o]) := by
  constructor
  · rw [ht.completed, h.completed, List.length_append, List.length_singleton]
  · rw [ht.products, h.products, List.foldl_append]
    rfl
  · rw [ht.errors, h.errors, List.flatMap_append, List.flatMap_singleton]
  · rw [ht.events, h.events, h.completed, ht.total, List.zipIdx_append, List.map_append,
      Nat.add_comm 1]
    rfl
  · rw [List.flatMap_append, List.flatMap_singleton, Statistics.mergeAll, List.foldlM_append]
    exact bind_eq_ok.mpr ⟨_, h.statistics, ht.statistics⟩

/-- What recording any number of outcomes does to the other parts of a recorder. -/
structure Grows (r : Recorder) (os : List Outcome) (r' : Recorder) : Prop where
  total : r'.total = r.total
  target : r'.target = r.target
  warnings : r'.result.warnings = r.result.warnings ++ os.flatMap Outcome.warningLines
  messages : r'.result.messages = r.result.messages ++ os.map Outcome.statusLine
  lines : r'.lines = r.lines ++ os.map Outcome.statusLine
  cancelled : r'.result.cancelled = r.result.cancelled
  success : r'.result.success = r.result.success

/-- Recorded outcomes are all held, in the order in which they were recorded. -/
theorem holds_of_recordAll {r r' : Recorder} {before os : List Outcome} (h : r.Holds before)
    (hr : r.recordAll os = .ok r') : r'.Holds (before ++ os) ∧ r.Grows os r' := by
  induction os generalizing r before with
  | nil =>
    obtain rfl := Except.ok.inj hr
    rw [List.append_nil]
    exact ⟨h, by constructor <;> simp⟩
  | cons o os ih =>
    rw [recordAll, List.foldlM_cons] at hr
    obtain ⟨s, hs, hr⟩ := bind_eq_ok.mp hr
    have ht := takes_of_record (recorded_eq_ok.mp hs)
    obtain ⟨hh, hg⟩ := ih (h.snoc ht) hr
    rw [List.append_assoc] at hh
    refine ⟨hh, ?_⟩
    constructor
    · rw [hg.total, ht.total]
    · rw [hg.target, ht.target]
    · rw [hg.warnings, ht.warnings, List.append_assoc, List.flatMap_cons]
    · rw [hg.messages, ht.messages, List.append_assoc, List.map_cons, List.singleton_append]
    · rw [hg.lines, ht.lines, List.append_assoc, List.map_cons, List.singleton_append]
    · rw [hg.cancelled, ht.cancelled]
    · rw [hg.success, ht.success]

/-- Outcomes can be recorded when all their statistics can be merged, in their order. -/
theorem exists_recordAll_eq_ok {r : Recorder} {os : List Outcome} (hr : os ≠ [] → r.total ≠ 0)
    (hs : ∀ o ∈ os, o.product.success = true → o.statistics.isSome) :
    (∃ r', r.recordAll os = .ok r') ↔
      ∃ s, (os.flatMap Outcome.gains).foldlM Statistics.merge r.result.statistics = .ok s := by
  induction os generalizing r with
  | nil => exact ⟨fun _ => ⟨_, rfl⟩, fun _ => ⟨_, rfl⟩⟩
  | cons o os ih =>
    have htotal := hr (List.cons_ne_nil _ _)
    rw [recordAll, List.foldlM_cons, List.flatMap_cons, List.foldlM_append]
    constructor
    · rintro ⟨r'', h⟩
      obtain ⟨r', hr', h⟩ := bind_eq_ok.mp h
      have ht := takes_of_record (recorded_eq_ok.mp hr')
      have hrest := ih (fun _ => by rw [ht.total]; exact htotal)
        fun x hx => hs x (List.mem_cons_of_mem _ hx)
      obtain ⟨s, h⟩ := hrest.mp ⟨r'', h⟩
      exact ⟨s, bind_eq_ok.mpr ⟨_, ht.statistics, h⟩⟩
    · rintro ⟨s, h⟩
      obtain ⟨u, hu, h⟩ := bind_eq_ok.mp h
      have hmerged : ∃ t, r.merged o = .ok t := by
        unfold merged
        by_cases ho : o.product.success = true
        · obtain ⟨v, hv⟩ := Option.isSome_iff_exists.mp (hs o List.mem_cons_self ho)
          simp only [Outcome.gains, ho, hv, if_true, Option.toList_some, List.foldlM_cons,
            List.foldlM_nil] at hu
          obtain ⟨w, hw, -⟩ := bind_eq_ok.mp hu
          exact ⟨some w, by simp only [ho, hv, hw, if_true]; rfl⟩
        · exact ⟨none, by simp only [ho]; rfl⟩
      obtain ⟨r', hr'⟩ := exists_record_eq_none.mpr ⟨htotal, hmerged⟩
      have ht := takes_of_record hr'
      obtain rfl : u = r'.result.statistics := Except.ok.inj (hu.symm.trans ht.statistics)
      have hrest := ih (fun _ => by rw [ht.total]; exact htotal)
        fun x hx => hs x (List.mem_cons_of_mem _ hx)
      obtain ⟨r'', h⟩ := hrest.mpr ⟨s, h⟩
      exact ⟨r'', bind_eq_ok.mpr ⟨r', recorded_eq_ok.mpr hr', h⟩⟩

/-- A form that is recorded once keeps the place it was recorded in. -/
theorem foldl_putProduct {ps : List (String × Product)} {os : List Outcome}
    (h : (ps.map (·.1) ++ os.map (·.formId)).Nodup) :
    os.foldl (fun ps o => putProduct ps o.formId o.product) ps =
      ps ++ os.map fun o => (o.formId, o.product) := by
  induction os generalizing ps with
  | nil => simp
  | cons o os ih =>
    have hnew : ps.any (·.1 == o.formId) = false := by
      rw [List.any_eq_false]
      intro p hp heq
      rw [List.map_cons, List.nodup_append] at h
      exact h.2.2 p.1 (List.mem_map_of_mem hp) o.formId List.mem_cons_self (by simpa using heq)
    have hput : putProduct ps o.formId o.product = ps ++ [(o.formId, o.product)] := by
      simp [putProduct, hnew]
    rw [List.foldl_cons, hput, ih (by simpa using h), List.append_assoc, List.map_cons,
      List.singleton_append]

/-! ## The end of a batch -/

theorem foldl_message (r : Recorder) (ss : List String) :
    ss.foldl message r =
      { r with
        result := { r.result with messages := r.result.messages ++ ss }
        notices := r.notices ++ ss.map .line } := by
  induction ss generalizing r with
  | nil => simp
  | cons s ss ih => simp [ih, message]

/-- What ending a batch settles, and what it leaves alone. -/
structure Ends (r r' : Recorder) : Prop where
  total : r'.total = r.total
  completed : r'.completed = r.completed
  products : r'.result.products = r.result.products
  errors : r'.result.errors = r.result.errors
  warnings : r'.result.warnings = r.result.warnings ++ r.cancelWarnings
  messages : r'.result.messages = r.result.messages ++ closing r'.result
  lines : r'.lines = r.lines ++ closing r'.result
  events : r'.events = r.events
  cancelled : r'.result.cancelled = r.result.cancelled
  success : r'.result.success = decide (0 < r.result.succeeded)
  statistics : r'.result.statistics = r.result.statistics

theorem ends_finish (r : Recorder) (now : Calendar.Moment) : r.Ends (r.finish now) := by
  rw [finish, foldl_message]
  constructor <;> try rfl
  · simp [lines]
    rfl
  · simp [events]

end Recorder

end Formwright.Batch
