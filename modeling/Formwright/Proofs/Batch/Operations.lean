import Formwright.Proofs.Batch.Recording
import Formwright.Proofs.Distinct

/-
  Operations on a recorder, in any order. What is asked of a recorder either brings an outcome into every
  account or leaves the accounts alone (`Ledger.perform`), and what is refused leaves the whole recorder
  alone (`perform_of_refused`). So after any operations the accounts are those of the outcomes that were
  recorded (`Ledger.performAll`). These may name one form several times: the statistics, errors and events
  are of all of them, the products only of the last one for each form (`Ledger.snoc`). Whether the batch
  succeeded is settled by the operation that ends it, each time anew (`success_of_finish`).
-/

namespace Formwright.Batch

open Calendar

/-- What can be asked of a recorder. -/
inductive Operation where
  | start
  | record (o : Outcome)
  /-- Recording an outcome that has something else where its statistics belong. -/
  | recordOther (o : Outcome) (v : Value)
  | cancel
  | finish (now : Moment)

namespace Operation

/-- The outcome that an operation brings. -/
def outcomes : Operation → List Outcome
  | record o | recordOther o _ => [o]
  | _ => []

/-- Whether an operation ends a batch. -/
def isFinish : Operation → Bool
  | finish _ => true
  | _ => false

end Operation

/-- The product of the last outcome of a form. -/
def Latest (os : List Outcome) (formId : String) (p : Product) : Prop :=
  ∃ before o after, os = before ++ o :: after ∧ o.formId = formId ∧ o.product = p ∧
    ∀ o' ∈ after, o'.formId ≠ formId

/-- The last outcome of a form stays the last one when another form has an outcome. -/
theorem Latest.snoc {os : List Outcome} {formId : String} {p : Product} (h : Latest os formId p)
    {o : Outcome} (ho : o.formId ≠ formId) : Latest (os ++ [o]) formId p := by
  obtain ⟨before, o', after, rfl, hid, hp, hafter⟩ := h
  refine ⟨before, o', after ++ [o], by simp, hid, hp, ?_⟩
  intro x hx
  rcases List.mem_append.mp hx with hx | hx
  · exact hafter x hx
  · exact List.mem_singleton.mp hx ▸ ho

namespace Recorder

/-! ## Operations -/

/-- What an operation does to a recorder, and the fault if it is refused. -/
def perform (r : Recorder) : Operation → Recorder × Option Fault
  | .start => (r.start, none)
  | .record o => r.record o
  | .recordOther o v =>
    if o.product.success then (r, some (.noMember v.kind "total_controls")) else r.record o
  | .cancel => (r.cancel, none)
  | .finish now => (r.finish now, none)

/-- A recorder after some operations. -/
def performAll (r : Recorder) (ops : List Operation) : Recorder :=
  ops.foldl (fun r op => (r.perform op).1) r

/-- The outcomes of the operations that were not refused. -/
def taken : Recorder → List Operation → List Outcome
  | _, [] => []
  | r, op :: ops =>
    match r.perform op with
    | (r', none) => op.outcomes ++ r'.taken ops
    | (r', some _) => r'.taken ops

/-- An operation that is refused: it brings a success whose statistics cannot be merged. -/
inductive Refused (r : Recorder) : Operation → Fault → Prop
  | counters {o : Outcome} {s : Statistics} {f : Fault} (success : o.product.success = true)
      (statistics : o.statistics = some s) (h : r.result.statistics.merge s = .error f) :
      Refused r (.record o) f
  | missing {o : Outcome} (success : o.product.success = true) (statistics : o.statistics = none) :
      Refused r (.record o) (.noMember .null "total_controls")
  | other {o : Outcome} {v : Value} (success : o.product.success = true) :
      Refused r (.recordOther o v) (.noMember v.kind "total_controls")

theorem performAll_append (r : Recorder) (ops ops' : List Operation) :
    r.performAll (ops ++ ops') = (r.performAll ops).performAll ops' :=
  List.foldl_append

/-! ## Refusals -/

theorem merged_eq_error {r : Recorder} {o : Outcome} {f : Fault} :
    r.merged o = .error f ↔ r.Refused (.record o) f := by
  constructor
  · intro h
    unfold merged at h
    split at h
    · rename_i hs
      split at h
      · rename_i s ho
        exact .counters hs ho (map_eq_error.mp h)
      · rename_i ho
        obtain rfl := Except.error.inj h
        exact .missing hs ho
    · cases h
  · rintro (⟨hs, ho, h⟩ | ⟨hs, ho⟩)
    · rw [merged, if_pos hs, ho]
      exact map_eq_error.mpr h
    · rw [merged, if_pos hs, ho]

section
variable {r : Recorder} {op : Operation} {f : Fault}

/-- Nothing is asked of the statistics of a failure. -/
theorem perform_recordOther {o : Outcome} {v : Value} (h : o.product.success = false) :
    r.perform (.recordOther o v) = r.record o := by
  rw [perform, if_neg (by simp [h])]

/-- What is refused changes nothing at all. -/
theorem perform_of_refused (h : r.Refused op f) : r.perform op = (r, some f) := by
  cases h with
  | counters hs ho h => exact record_of_merged_error (merged_eq_error.mpr (.counters hs ho h))
  | missing hs ho => exact record_of_merged_error (merged_eq_error.mpr (.missing hs ho))
  | other hs => rw [perform, if_pos hs]

theorem record_eq_some_iff (hr : r.total ≠ 0) {o : Outcome} :
    (r.record o).2 = some f ↔ r.merged o = .error f := by
  constructor
  · intro h
    cases hm : r.merged o with
    | error f' =>
      rw [record_of_merged_error hm] at h
      exact congrArg Except.error (Option.some.inj h)
    | ok t =>
      obtain ⟨r', hr'⟩ := exists_record_eq_none.mpr ⟨hr, t, hm⟩
      rw [hr'] at h
      cases h
  · intro h
    rw [record_of_merged_error h]

/-- Operations fail for no other reason than statistics that cannot be merged. -/
theorem perform_eq_some_iff (hr : r.total ≠ 0) : (r.perform op).2 = some f ↔ r.Refused op f := by
  constructor
  · intro h
    cases op with
    | start | cancel | finish => cases h
    | record o => exact merged_eq_error.mp ((record_eq_some_iff hr).mp h)
    | recordOther o v =>
      cases hs : o.product.success with
      | true =>
        rw [perform, if_pos hs] at h
        obtain rfl := Option.some.inj h
        exact .other hs
      | false =>
        rw [perform_recordOther hs, record_eq_some_iff hr, merged_eq_error] at h
        rcases h with ⟨hs', -, -⟩ | ⟨hs', -⟩ <;> cases hs.symm.trans hs'
  · intro h
    rw [perform_of_refused h]

/-- An operation that is not refused and records something records its outcome. -/
theorem takes_of_perform (h : (r.perform op).2 = none) {o : Outcome} (ho : o ∈ op.outcomes) :
    r.Takes o (r.perform op).1 := by
  have hrecord : (r.record o).2 = none → r.Takes o (r.record o).1 := by
    intro hnone
    exact takes_of_record (Prod.ext rfl hnone)
  cases op with
  | start | cancel | finish => cases ho
  | record o' =>
    obtain rfl := List.mem_singleton.mp ho
    exact hrecord h
  | recordOther o' v =>
    obtain rfl := List.mem_singleton.mp ho
    cases hs : o.product.success with
    | true =>
      rw [perform_of_refused (.other hs)] at h
      cases h
    | false =>
      rw [perform_recordOther hs] at h ⊢
      exact hrecord h

end

/-! ## Products -/

/-- Forms stay in the order in which they came first. -/
theorem map_fst_putProduct (ps : List (String × Product)) (formId : String) (p : Product) :
    (putProduct ps formId p).map (·.1) = keepFirst id (ps.map (·.1)) formId :=
  map_fst_set ps formId p

/-- The product of a form is replaced by a new one; those of the others stay. -/
theorem mem_putProduct {ps : List (String × Product)} {formId : String} {p : Product}
    {e : String × Product} (h : e ∈ putProduct ps formId p) :
    e = (formId, p) ∨ (e ∈ ps ∧ e.1 ≠ formId) := by
  unfold putProduct at h
  split at h
  · obtain ⟨d, hd, rfl⟩ := List.mem_map.mp h
    by_cases heq : (d.1 == formId) = true
    · exact Or.inl (if_pos heq)
    · rw [if_neg heq]
      exact Or.inr ⟨hd, by simpa using heq⟩
  · rename_i hnew
    rcases List.mem_append.mp h with he | he
    · rw [Bool.not_eq_true, List.any_eq_false] at hnew
      exact Or.inr ⟨he, by simpa using hnew e he⟩
    · exact Or.inl (List.mem_singleton.mp he)

/-! ## Accounts -/

/-- The accounts of a recorder are those of the outcomes that were recorded. -/
structure Ledger (os : List Outcome) (r : Recorder) : Prop extends Holds r os where
  messages : r.result.messages = r.lines
  /-- All successes brought statistics to be merged. -/
  gained : ∀ o ∈ os, o.product.success = true → o.statistics.isSome
  /-- Forms stand in the order in which they were recorded first, -/
  ids : r.result.products.map (·.1) = (os.map (·.formId)).eraseDups
  /-- with the product that was recorded last. -/
  latest : ∀ e ∈ r.result.products, Latest os e.1 e.2

theorem ledger_new (total : Int) (target : String) (startTime : Moment) :
    Ledger [] (new total target startTime) where
  toHolds := by constructor <;> rfl
  messages := rfl
  gained _ h := absurd h List.not_mem_nil
  ids := rfl
  latest _ h := absurd h List.not_mem_nil

/-- An outcome that is recorded enters every account. -/
theorem Ledger.snoc {os : List Outcome} {r r' : Recorder} {o : Outcome} (h : Ledger os r)
    (ht : r.Takes o r') (ho : o.product.success = true → o.statistics.isSome) :
    Ledger (os ++ [o]) r' where
  toHolds := h.toHolds.snoc ht
  messages := by rw [ht.messages, ht.lines, h.messages]
  gained x hx := by
    rcases List.mem_append.mp hx with hx | hx
    · exact h.gained x hx
    · exact List.mem_singleton.mp hx ▸ ho
  ids := by
    rw [ht.products, map_fst_putProduct, h.ids, List.map_append, List.map_singleton,
      eraseDups_append_singleton]
  latest e he := by
    rw [ht.products] at he
    rcases mem_putProduct he with rfl | ⟨he, hne⟩
    · exact ⟨os, o, [], rfl, rfl, rfl, fun _ hx => absurd hx List.not_mem_nil⟩
    · exact (h.latest e he).snoc hne.symm

/-- What changes no account keeps the ledger. -/
theorem Ledger.congr {os : List Outcome} {r r' : Recorder} (h : Ledger os r) (htotal : r'.total = r.total)
    (hcompleted : r'.completed = r.completed) (hproducts : r'.result.products = r.result.products)
    (herrors : r'.result.errors = r.result.errors)
    (hstatistics : r'.result.statistics = r.result.statistics) (hevents : r'.events = r.events)
    (hmessages : r'.result.messages = r'.lines) : Ledger os r' where
  completed := hcompleted.trans h.completed
  products := hproducts.trans h.products
  errors := herrors.trans h.errors
  events := by rw [hevents, h.events, htotal]
  statistics := by rw [h.statistics, hstatistics]
  messages := hmessages
  gained := h.gained
  ids := by rw [hproducts, h.ids]
  latest := by rw [hproducts]; exact h.latest

section
variable {r : Recorder} {op : Operation}

/-- A success that was recorded brought statistics. -/
theorem isSome_statistics_of_perform (hop : (r.perform op).2 = none) {o : Outcome}
    (ho : o ∈ op.outcomes) (hs : o.product.success = true) : o.statistics.isSome := by
  rw [Option.isSome_iff_ne_none]
  intro hnone
  cases op with
  | start | cancel | finish => cases ho
  | record o' =>
    obtain rfl := List.mem_singleton.mp ho
    rw [perform_of_refused (.missing hs hnone)] at hop
    cases hop
  | recordOther o' v =>
    obtain rfl := List.mem_singleton.mp ho
    rw [perform_of_refused (.other hs)] at hop
    cases hop

/-- What an operation brings enters every account, and all else leaves the accounts alone. -/
theorem Ledger.perform {os : List Outcome} (h : Ledger os r) (hop : (r.perform op).2 = none) :
    Ledger (os ++ op.outcomes) (r.perform op).1 := by
  cases op with
  | start =>
    rw [show Operation.start.outcomes = [] from rfl, List.append_nil]
    refine h.congr rfl rfl rfl rfl rfl (events_message _ _) ?_
    exact (congrArg (· ++ _) h.messages).trans (lines_message _ _).symm
  | cancel =>
    rw [show Operation.cancel.outcomes = [] from rfl, List.append_nil]
    exact h.congr rfl rfl rfl rfl rfl rfl h.messages
  | finish now =>
    have hend := r.ends_finish now
    rw [show (Operation.finish now).outcomes = [] from rfl, List.append_nil]
    refine h.congr hend.total hend.completed hend.products hend.errors hend.statistics hend.events ?_
    exact hend.messages.trans ((congrArg (· ++ _) h.messages).trans hend.lines.symm)
  | record o | recordOther o v =>
    have ho := List.mem_singleton_self o
    exact h.snoc (takes_of_perform hop ho) (isSome_statistics_of_perform hop ho)

theorem total_perform (hr : r.total ≠ 0) (op : Operation) : (r.perform op).1.total = r.total := by
  cases hop : (r.perform op).2 with
  | some f => rw [perform_of_refused ((perform_eq_some_iff hr).mp hop)]
  | none =>
    cases op with
    | start | cancel => rfl
    | finish now => exact (r.ends_finish now).total
    | record o | recordOther o v => exact (takes_of_perform hop (List.mem_singleton_self o)).total

/-- Only ending a batch settles whether it succeeded. -/
theorem success_perform (hr : r.total ≠ 0) (op : Operation) : (r.perform op).1.result.success =
    if op.isFinish then decide (0 < r.result.succeeded) else r.result.success := by
  cases hop : (r.perform op).2 with
  | some f =>
    have hrefused := (perform_eq_some_iff hr).mp hop
    rw [perform_of_refused hrefused]
    cases hrefused <;> rfl
  | none =>
    cases op with
    | start | cancel => rfl
    | finish now => exact (r.ends_finish now).success
    | record o | recordOther o v => exact (takes_of_perform hop (List.mem_singleton_self o)).success

end

/-! ## Any number of operations -/

section
variable {r : Recorder}

theorem total_performAll (hr : r.total ≠ 0) (ops : List Operation) :
    (r.performAll ops).total = r.total := by
  induction ops generalizing r with
  | nil => rfl
  | cons op ops ih =>
    have hop := total_perform hr op
    rw [performAll, List.foldl_cons]
    exact (ih (hop ▸ hr)).trans hop

/-- After any operations the accounts are those of what was recorded before, and of what they recorded. -/
theorem Ledger.performAll {os : List Outcome} (hr : r.total ≠ 0) (h : Ledger os r)
    (ops : List Operation) : Ledger (os ++ r.taken ops) (r.performAll ops) := by
  induction ops generalizing r os with
  | nil =>
    rw [taken, List.append_nil]
    exact h
  | cons op ops ih =>
    have htotal := total_perform hr op
    rw [taken, Recorder.performAll, List.foldl_cons]
    split
    · rename_i r' hop
      have hstep := h.perform (show (r.perform op).2 = none by rw [hop])
      rw [hop] at hstep htotal ⊢
      rw [← List.append_assoc]
      exact ih (htotal ▸ hr) hstep
    · rename_i r' f hop
      have hrefused := (perform_eq_some_iff hr).mp (congrArg Prod.snd hop)
      rw [perform_of_refused hrefused] at hop ⊢
      obtain ⟨rfl, -⟩ := Prod.mk.inj hop
      exact ih hr h

/-- Without the operation that ends a batch, nothing changes whether it succeeded. -/
theorem success_performAll (hr : r.total ≠ 0) {ops : List Operation}
    (h : ∀ op ∈ ops, op.isFinish = false) : (r.performAll ops).result.success = r.result.success := by
  induction ops generalizing r with
  | nil => rfl
  | cons op ops ih =>
    have htotal := total_perform hr op
    have hop := success_perform hr op
    rw [h op List.mem_cons_self] at hop
    rw [performAll, List.foldl_cons]
    exact (ih (htotal ▸ hr) fun x hx => h x (List.mem_cons_of_mem op hx)).trans hop

/-- When a batch is ended, it succeeded if a product that is there then is a success. -/
theorem success_of_finish (hr : r.total ≠ 0) (before : List Operation) (now : Moment)
    {after : List Operation} (h : ∀ op ∈ after, op.isFinish = false) :
    (r.performAll (before ++ .finish now :: after)).result.success =
      (r.performAll before).result.products.any (·.2.success) := by
  have htotal := total_performAll hr before
  have hfinish := success_perform (r := r.performAll before) (htotal ▸ hr) (.finish now)
  have hended := total_perform (r := r.performAll before) (htotal ▸ hr) (.finish now)
  rw [performAll_append, performAll, List.foldl_cons]
  refine (success_performAll (by rw [hended, htotal]; exact hr) h).trans (hfinish.trans ?_)
  rw [if_pos (show (Operation.finish now).isFinish = true from rfl), Result.succeeded, Bool.eq_iff_iff,
    decide_eq_true_eq, List.length_filter_pos_iff, List.any_eq_true]

end

/-- Whatever is asked of a recorder, and however often: its accounts are those of the outcomes that it
recorded. The batch has not succeeded before it is ended first, and from then on it has if there was a
success when it was ended last. Nothing is refused but a success whose statistics cannot be merged, and
then the recorder stays as it is. -/
theorem performAll_ledger {total : Int} (htotal : 1 ≤ total) (target : String) (startTime : Moment)
    (ops : List Operation) :
    let r := new total target startTime
    Ledger (r.taken ops) (r.performAll ops) ∧ (r.performAll ops).total = total ∧
      ((∀ op ∈ ops, op.isFinish = false) → (r.performAll ops).result.success = false) ∧
      (∀ before now after, ops = before ++ .finish now :: after →
        (∀ op ∈ after, op.isFinish = false) →
        (r.performAll ops).result.success =
          (r.performAll before).result.products.any (·.2.success)) ∧
      ∀ op f, (((r.performAll ops).perform op).2 = some f ↔ (r.performAll ops).Refused op f) ∧
        ((r.performAll ops).Refused op f → ((r.performAll ops).perform op).1 = r.performAll ops) := by
  intro r
  have hr : r.total ≠ 0 := by
    show total ≠ 0
    omega
  have hall := total_performAll hr ops
  refine ⟨?_, hall, fun h => success_performAll hr h, ?_, fun op f => ⟨?_, fun h => ?_⟩⟩
  · exact (ledger_new total target startTime).performAll hr ops
  · rintro before now after rfl h
    exact success_of_finish hr before now h
  · exact perform_eq_some_iff (hall ▸ hr)
  · rw [perform_of_refused h]

/-- A form succeeds and then fails; a success without statistics is refused in between. The batch is ended
twice, the second time after another form succeeded. -/
theorem performAll_ledger_repeated :
    let t : Moment := ⟨⟨2024, 1, 1⟩, 9, 0, 0, 0, none⟩
    let won : Product := { success := true }
    let ops : List Operation := [.start, .record { formId := "a", product := won, statistics := some {} },
      .record { formId := "c", product := won }, .record { formId := "a", product := .failure "t" "m" },
      .finish t, .record { formId := "b", product := won, statistics := some {} }, .cancel, .finish t]
    let r := new 3 "t" t
    (1 : Int) ≤ 3 ∧ (r.performAll ops).completed = 3 ∧ (r.performAll ops).result.errors = ["a: m"] ∧
      (r.performAll ops).result.products.map (·.1) = ["a", "b"] ∧
      (r.performAll (ops.take 5)).result.success = false ∧
      (r.performAll ops).result.success = true := by
  intro t won ops r
  obtain ⟨hledger, -, -, hended, -⟩ := performAll_ledger (show (1 : Int) ≤ 3 by decide) "t" t ops
  obtain ⟨-, -, -, hended', -⟩ := performAll_ledger (show (1 : Int) ≤ 3 by decide) "t" t (ops.take 5)
  refine ⟨by decide, ?_, ?_, ?_, ?_, ?_⟩
  · rw [hledger.completed]
    rfl
  · rw [hledger.errors]
    rfl
  · rw [hledger.ids]
    decide
  · rw [hended' (ops.take 4) t [] rfl (fun _ h => absurd h List.not_mem_nil)]
    rfl
  · rw [hended (ops.take 7) t [] rfl (fun _ h => absurd h List.not_mem_nil)]
    rfl

end Recorder

end Formwright.Batch
