/-
  Lists without repetition. A list in which later repetitions are left out has each of its items once
  (`nodup_eraseDups`); where items are told apart by a key, the first one of each key is kept
  (`nodup_foldl_keepFirst`), and it keeps its place among the others (`foldl_keepFirst`). To set the
  value of a key changes what is found under this key and nothing else (`lookup_set`).
-/

namespace Formwright

variable {α κ : Type} [BEq κ] [LawfulBEq κ]

theorem nodup_eraseDups (ks : List κ) : ks.eraseDups.Nodup := by
  match ks with
  | [] => exact List.nodup_nil
  | k :: ks =>
    rw [List.eraseDups_cons, List.nodup_cons]
    refine ⟨fun hmem => ?_, nodup_eraseDups _⟩
    have hne := (List.mem_filter.mp (List.mem_eraseDups.mp hmem)).2
    simp at hne
termination_by ks.length
decreasing_by exact Nat.lt_succ_of_le (List.length_filter_le _ _)

theorem eraseDups_eq_nil_iff {ks : List κ} : ks.eraseDups = [] ↔ ks = [] := by
  simp only [List.eq_nil_iff_forall_not_mem, List.mem_eraseDups]

omit [BEq κ] [LawfulBEq κ] in
/-- What tells all items apart keeps a list without repetition so. -/
theorem nodup_map_iff {f : α → κ} (hf : ∀ a b, f a = f b → a = b) {xs : List α} :
    (xs.map f).Nodup ↔ xs.Nodup := by
  rw [List.Nodup, List.pairwise_map]
  exact ⟨fun h => h.imp fun hne hab => hne (congrArg f hab),
    fun h => h.imp fun hne hab => hne (hf _ _ hab)⟩

/-- A list of items with an item behind it, unless there is one of the same key. -/
def keepFirst (key : α → κ) (kept : List α) (x : α) : List α :=
  if kept.any (key · == key x) then kept else kept ++ [x]

/-- An item behind a list is left out of it as a repetition, or it stands at the end. -/
theorem eraseDups_append_singleton (ks : List κ) (k : κ) :
    (ks ++ [k]).eraseDups = keepFirst id ks.eraseDups k := by
  have hany : ks.eraseDups.any (id · == id k) = true ↔ k ∈ ks := by
    rw [List.any_eq_true]
    simp only [List.mem_eraseDups, id, beq_iff_eq, exists_eq_right]
  rw [List.eraseDups_append, keepFirst]
  by_cases h : k ∈ ks
  · rw [if_pos (hany.mpr h)]
    simp [List.removeAll, h]
  · rw [if_neg (mt hany.mp h)]
    simp [List.removeAll, h, List.eraseDups_cons]

/-- Setting the value of a key leaves the keys as they are, or puts a new one at the end. -/
theorem map_fst_set {β : Type} (es : List (κ × β)) (k : κ) (v : β) :
    (if es.any (·.1 == k) then es.map fun e => if e.1 == k then (k, v) else e
      else es ++ [(k, v)]).map (·.1) = keepFirst id (es.map (·.1)) k := by
  have hany : (es.map (·.1)).any (id · == id k) = es.any (·.1 == k) := by
    rw [List.any_map]
    rfl
  unfold keepFirst
  rw [hany]
  split
  · rw [List.map_map]
    refine List.map_congr_left fun e _ => ?_
    by_cases he : e.1 = k
    · simp [he]
    · simp [he]
  · rw [List.map_append]
    rfl

section
variable {β : Type} {es : List (κ × β)} {k : κ}

theorem any_key_iff : es.any (·.1 == k) = true ↔ k ∈ es.map (·.1) := by
  rw [List.any_eq_true, List.mem_map]
  simp only [beq_iff_eq]

theorem lookup_isSome_iff : (es.lookup k).isSome = true ↔ k ∈ es.map (·.1) := by
  rw [List.lookup_isSome_iff, List.mem_map]
  exact exists_congr fun e => and_congr_right fun _ => beq_iff_eq.trans eq_comm

variable [DecidableEq κ]

theorem lookup_cons_eq (e : κ × β) (es : List (κ × β)) (k : κ) :
    (e :: es).lookup k = if k = e.1 then some e.2 else es.lookup k := by
  by_cases h : k = e.1
  · have heq : (k == e.1) = true := beq_iff_eq.mpr h
    rw [List.lookup_cons, heq, if_pos h]
  · have hne : (k == e.1) = false := beq_eq_false_iff_ne.mpr h
    rw [List.lookup_cons, hne, if_neg h]

/-- A key whose value is overwritten still has a value if it had one. -/
theorem lookup_overwritten (es : List (κ × β)) (k : κ) (v : β) (n : κ) :
    (es.map fun e => if e.1 == k then (k, v) else e).lookup n =
      if n = k then (es.lookup n).map fun _ => v else es.lookup n := by
  induction es with
  | nil => simp
  | cons e es ih =>
    rw [List.map_cons, lookup_cons_eq, lookup_cons_eq, ih]
    by_cases he : e.1 = k
    · rw [if_pos (beq_iff_eq.mpr he), he]
      by_cases hn : n = k
      · simp [hn]
      · simp [hn]
    · rw [if_neg (mt beq_iff_eq.mp he)]
      by_cases hn : n = e.1
      · simp [hn, he]
      · simp [hn]

/-- What a key has after the value of one is set. -/
theorem lookup_set (es : List (κ × β)) (k : κ) (v : β) (n : κ) :
    (if es.any (·.1 == k) then es.map fun e => if e.1 == k then (k, v) else e
      else es ++ [(k, v)]).lookup n = if n = k then some v else es.lookup n := by
  by_cases h : k ∈ es.map (·.1)
  · obtain ⟨w, hw⟩ := Option.isSome_iff_exists.mp (lookup_isSome_iff.mpr h)
    rw [if_pos (any_key_iff.mpr h), lookup_overwritten]
    by_cases hn : n = k
    · rw [if_pos hn, if_pos hn, hn, hw]
      rfl
    · rw [if_neg hn, if_neg hn]
  · have hnone : es.lookup k = none := by
      rw [← Option.not_isSome_iff_eq_none, lookup_isSome_iff]
      exact h
    rw [if_neg (mt any_key_iff.mp h), List.lookup_append]
    by_cases hn : n = k
    · rw [if_pos hn, hn, hnone, lookup_cons_eq, if_pos rfl, Option.none_or]
    · rw [if_neg hn, lookup_cons_eq, if_neg hn, List.lookup_nil, Option.or_none]

end

variable (key : α → κ)

/-- An item that is added brings its key, and no key twice. -/
theorem nodup_keepFirst {kept : List α} (h : (kept.map key).Nodup) (x : α) :
    ((keepFirst key kept x).map key).Nodup ∧
      ∀ k, k ∈ (keepFirst key kept x).map key ↔ k ∈ kept.map key ∨ k = key x := by
  have hany : kept.any (key · == key x) = true ↔ key x ∈ kept.map key := by
    rw [List.any_eq_true, List.mem_map]
    simp only [beq_iff_eq]
  unfold keepFirst
  split
  · rename_i hold
    refine ⟨h, fun k => ⟨Or.inl, ?_⟩⟩
    rintro (hk | rfl)
    · exact hk
    · exact hany.mp hold
  · rename_i hnew
    rw [hany] at hnew
    rw [List.map_append, List.map_singleton]
    refine ⟨List.nodup_append.mpr ⟨h, List.pairwise_singleton _ _, ?_⟩, fun k => ?_⟩
    · rintro k hk j hj rfl
      exact hnew (List.mem_singleton.mp hj ▸ hk)
    · rw [List.mem_append, List.mem_singleton]

/-- All keys stay, and each one once. -/
theorem nodup_foldl_keepFirst (xs : List α) {kept : List α} (h : (kept.map key).Nodup) :
    ((xs.foldl (keepFirst key) kept).map key).Nodup ∧
      ∀ k, k ∈ (xs.foldl (keepFirst key) kept).map key ↔ k ∈ kept.map key ∨ k ∈ xs.map key := by
  induction xs generalizing kept with
  | nil => exact ⟨h, fun k => by simp⟩
  | cons x xs ih =>
    obtain ⟨hstep, hkeys⟩ := nodup_keepFirst key h x
    obtain ⟨hnodup, hall⟩ := ih hstep
    refine ⟨hnodup, fun k => ?_⟩
    rw [List.foldl_cons, hall, hkeys, List.map_cons, List.mem_cons, or_assoc]

omit [LawfulBEq κ] in
/-- What is kept is among the items. -/
theorem mem_of_mem_foldl_keepFirst {xs kept : List α} {x : α} (h : x ∈ xs.foldl (keepFirst key) kept) :
    x ∈ kept ∨ x ∈ xs := by
  induction xs generalizing kept with
  | nil => exact Or.inl h
  | cons y ys ih =>
    rcases ih h with hkept | hys
    · unfold keepFirst at hkept
      split at hkept
      · exact Or.inl hkept
      · rcases List.mem_append.mp hkept with hkept | hy
        · exact Or.inl hkept
        · exact Or.inr (List.mem_singleton.mp hy ▸ List.mem_cons_self)
    · exact Or.inr (List.mem_cons_of_mem _ hys)

/-- The items of which no earlier one has the same key. -/
def firsts (xs : List α) : List α :=
  (xs.zipIdx.filter fun p => (xs.take p.2).all (key · != key p.1)).map (·.1)

omit [LawfulBEq κ] in
theorem firsts_map {β : Type} (f : β → α) (xs : List β) :
    firsts key (xs.map f) = (firsts (fun x => key (f x)) xs).map f := by
  unfold firsts
  rw [List.zipIdx_map, List.filter_map, List.map_map, List.map_map]
  simp only [Function.comp_def, Prod.map_fst, Prod.map_snd, id, ← List.map_take, List.all_map]

omit [LawfulBEq κ] in
/-- An item at the end is one of the first ones when none before it has its key. -/
theorem firsts_append_singleton (xs : List α) (x : α) : firsts key (xs ++ [x]) =
    if xs.any (key · == key x) then firsts key xs else firsts key xs ++ [x] := by
  have hbefore : (xs.zipIdx.filter fun p => ((xs ++ [x]).take p.2).all (key · != key p.1)) =
      xs.zipIdx.filter fun p => (xs.take p.2).all (key · != key p.1) := by
    refine List.filter_congr fun p hp => ?_
    rw [List.take_append_of_le_length (Nat.le_of_lt (List.snd_lt_of_mem_zipIdx hp))]
  have hlast : ((xs ++ [x]).take xs.length).all (key · != key x) = !xs.any (key · == key x) := by
    rw [List.take_left, List.not_any_eq_all_not]
    rfl
  unfold firsts
  rw [List.zipIdx_append, List.filter_append, hbefore, List.map_append, Nat.zero_add,
    List.zipIdx_singleton, List.filter_cons, hlast, List.filter_nil]
  cases xs.any (key · == key x) <;> simp

/-- Keeping the first item of each key, one item after the other, keeps the first ones. -/
theorem foldl_keepFirst (xs : List α) : xs.foldl (keepFirst key) [] = firsts key xs := by
  suffices ∀ before, (∀ k, (firsts key before).any (key · == k) = before.any (key · == k)) →
      xs.foldl (keepFirst key) (firsts key before) = firsts key (before ++ xs) from
    this [] fun _ => rfl
  induction xs with
  | nil =>
    intro before _
    rw [List.append_nil]
    rfl
  | cons x xs ih =>
    intro before hbefore
    have hstep : keepFirst key (firsts key before) x = firsts key (before ++ [x]) := by
      rw [firsts_append_singleton, keepFirst, hbefore]
    have hmove : before ++ x :: xs = before ++ [x] ++ xs := List.append_cons before x xs
    rw [List.foldl_cons, hstep, hmove]
    refine ih (before ++ [x]) fun k => ?_
    rw [firsts_append_singleton, List.any_append]
    cases hany : before.any (key · == key x) with
    | false => simp [hbefore]
    | true =>
      -- a key that the item brings is there already
      obtain ⟨y, hy, hyx⟩ := List.any_eq_true.mp hany
      simp only [if_true, hbefore, List.any_cons, List.any_nil, Bool.or_false]
      by_cases hk : key x = k
      · have hold : before.any (key · == k) = true := by rw [← hk, hany]
        simp [hold]
      · simp [hk]

end Formwright
