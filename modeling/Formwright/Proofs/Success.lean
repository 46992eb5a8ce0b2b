/-
  When computations that may fail succeed. A sequence of steps succeeds when each step does
  (`bind_eq_ok`), and a step for each item of a list succeeds when it does so for every item
  (`exists_mapM_eq_ok`), with the results in the order of the items (`mapM_eq_ok`).
-/

namespace Formwright

variable {ε α β : Type}

/-- Two steps succeed when the first one does and the second one does on its result. -/
theorem bind_eq_ok {x : Except ε α} {f : α → Except ε β} {b : β} :
    x >>= f = .ok b ↔ ∃ a, x = .ok a ∧ f a = .ok b := by
  cases x with
  | error e => simp [bind, Except.bind]
  | ok a => simp [bind, Except.bind]

/-- Two steps fail when one of them does. -/
theorem bind_eq_error {x : Except ε α} {f : α → Except ε β} {e : ε} :
    x >>= f = .error e ↔ x = .error e ∨ ∃ a, x = .ok a ∧ f a = .error e := by
  cases x with
  | error e => simp [bind, Except.bind]
  | ok a => simp [bind, Except.bind]

theorem map_eq_ok {x : Except ε α} {f : α → β} {b : β} :
    f <$> x = .ok b ↔ ∃ a, x = .ok a ∧ f a = b := by
  cases x with
  | error e => simp [Functor.map, Except.map]
  | ok a => simp [Functor.map, Except.map]

theorem map_eq_error {x : Except ε α} {f : α → β} {e : ε} : f <$> x = .error e ↔ x = .error e := by
  cases x with
  | error e => simp [Functor.map, Except.map]
  | ok a => simp [Functor.map, Except.map]

/-- What passes a test after it succeeded did succeed. -/
theorem exists_of_toOption_any {x : Except ε α} {test : α → Bool} (h : x.toOption.any test = true) :
    ∃ a, x = .ok a ∧ test a = true := by
  cases x with
  | error e => cases h
  | ok a => exact ⟨a, rfl, h⟩

/-- What is made of a result in the end does not matter to success. -/
theorem exists_bind_pure_eq_ok {x : Except ε α} {f : α → β} :
    (∃ b, (x >>= fun a => pure (f a)) = .ok b) ↔ ∃ a, x = .ok a := by
  cases x with
  | error e => simp [bind, Except.bind]
  | ok a => simp [bind, Except.bind, pure, Except.pure]

@[simp] theorem ok_bind (a : α) (f : α → Except ε β) : Except.ok a >>= f = f a := rfl

@[simp] theorem error_bind (e : ε) (f : α → Except ε β) : Except.error e >>= f = .error e := rfl

@[simp] theorem pure_eq_ok {a : α} : (pure a : Except ε α) = .ok a := rfl

@[simp] theorem throw_eq_error {e : ε} : (throw e : Except ε α) = .error e := rfl

theorem mapM_cons_eq_ok {f : α → Except ε β} {x : α} {xs : List α} {ys : List β} :
    (x :: xs).mapM f = .ok ys ↔ ∃ y zs, f x = .ok y ∧ xs.mapM f = .ok zs ∧ ys = y :: zs := by
  rw [List.mapM_cons, bind_eq_ok]
  constructor
  · rintro ⟨y, hy, h⟩
    obtain ⟨zs, hzs, h⟩ := bind_eq_ok.mp h
    exact ⟨y, zs, hy, hzs, (Except.ok.inj h).symm⟩
  · rintro ⟨y, zs, hy, hzs, rfl⟩
    exact ⟨y, hy, bind_eq_ok.mpr ⟨zs, hzs, rfl⟩⟩

theorem mapM_singleton_eq_ok {f : α → Except ε β} {x : α} {ys : List β} :
    [x].mapM f = .ok ys ↔ ∃ y, f x = .ok y ∧ ys = [y] := by
  rw [mapM_cons_eq_ok]
  constructor
  · rintro ⟨y, zs, hy, hzs, rfl⟩
    obtain rfl := Except.ok.inj hzs
    exact ⟨y, hy, rfl⟩
  · rintro ⟨y, hy, rfl⟩
    exact ⟨y, [], hy, rfl, rfl⟩

/-- Steps for the items of a list lead to results when each item leads to its own. -/
theorem mapM_eq_ok {f : α → Except ε β} {xs : List α} {ys : List β} :
    xs.mapM f = .ok ys ↔ xs.map f = ys.map .ok := by
  induction xs generalizing ys with
  | nil =>
    rw [List.mapM_nil, pure_eq_ok, Except.ok.injEq, List.map_nil]
    exact ⟨fun h => h ▸ rfl, fun h => (List.map_eq_nil_iff.mp h.symm).symm⟩
  | cons x xs ih =>
    rw [mapM_cons_eq_ok]
    constructor
    · rintro ⟨y, zs, hy, hzs, rfl⟩
      rw [List.map_cons, List.map_cons, hy, ih.mp hzs]
    · intro h
      obtain _ | ⟨y, zs⟩ := ys
      · simp at h
      · rw [List.map_cons, List.map_cons, List.cons.injEq] at h
        exact ⟨y, zs, h.1, ih.mpr h.2, rfl⟩

/-- Steps that lead to the same can stand for each other in front of others. -/
theorem bind_bind_congr {γ δ : Type} {x y : Except ε α} {f g : α → Except ε γ}
    (h : x >>= f = y >>= g) (k : γ → Except ε δ) :
    (x >>= fun a => f a >>= k) = (y >>= fun a => g a >>= k) := by
  rw [← bind_assoc, ← bind_assoc, h]

/-- What is written by `write` and read back by `read`, item by item, is the same list again. -/
theorem mapM_map_eq_ok {write : α → β} {read : β → Except ε α} {xs : List α}
    (h : ∀ x ∈ xs, read (write x) = .ok x) : (xs.map write).mapM read = .ok xs := by
  rw [mapM_eq_ok, List.map_map]
  exact List.map_congr_left h

/-- What is made of each result can be made of all of them in the end. -/
theorem mapM_map_result_eq_ok {γ : Type} {f : α → Except ε β} {g : β → γ} {xs : List α} {zs : List γ} :
    (xs.mapM fun x => g <$> f x) = .ok zs ↔ ∃ ys, xs.mapM f = .ok ys ∧ zs = ys.map g := by
  induction xs generalizing zs with
  | nil =>
    rw [List.mapM_nil, List.mapM_nil, pure_eq_ok, pure_eq_ok, Except.ok.injEq]
    constructor
    · rintro rfl
      exact ⟨[], rfl, rfl⟩
    · rintro ⟨ys, hys, rfl⟩
      rw [← Except.ok.inj hys, List.map_nil]
  | cons x xs ih =>
    rw [mapM_cons_eq_ok]
    constructor
    · rintro ⟨z, zs, hz, hzs, rfl⟩
      obtain ⟨y, hy, rfl⟩ := map_eq_ok.mp hz
      obtain ⟨ys, hys, rfl⟩ := ih.mp hzs
      exact ⟨y :: ys, mapM_cons_eq_ok.mpr ⟨y, ys, hy, hys, rfl⟩, rfl⟩
    · rintro ⟨all, hall, rfl⟩
      obtain ⟨y, ys, hy, hys, rfl⟩ := mapM_cons_eq_ok.mp hall
      exact ⟨g y, ys.map g, map_eq_ok.mpr ⟨y, hy, rfl⟩, ih.mpr ⟨ys, hys, rfl⟩, rfl⟩

/-- Steps for the items of a list succeed when each one does. -/
theorem exists_mapM_eq_ok {f : α → Except ε β} {xs : List α} :
    (∃ ys, xs.mapM f = .ok ys) ↔ ∀ x ∈ xs, ∃ y, f x = .ok y := by
  induction xs with
  | nil => exact ⟨fun _ x hx => absurd hx List.not_mem_nil, fun _ => ⟨[], rfl⟩⟩
  | cons x xs ih =>
    rw [List.forall_mem_cons, ← ih]
    constructor
    · rintro ⟨ys, h⟩
      obtain ⟨y, zs, hy, hzs, -⟩ := mapM_cons_eq_ok.mp h
      exact ⟨⟨y, hy⟩, zs, hzs⟩
    · rintro ⟨⟨y, hy⟩, zs, hzs⟩
      exact ⟨y :: zs, mapM_cons_eq_ok.mpr ⟨y, zs, hy, hzs, rfl⟩⟩

/-- Steps for the items of a list fail as one of them does. -/
theorem exists_of_mapM_eq_error {f : α → Except ε β} {xs : List α} {e : ε}
    (h : xs.mapM f = .error e) : ∃ x ∈ xs, f x = .error e := by
  induction xs with
  | nil => simp at h
  | cons x xs ih =>
    rw [List.mapM_cons] at h
    rcases bind_eq_error.mp h with hx | ⟨y, -, hrest⟩
    · exact ⟨x, List.mem_cons_self, hx⟩
    · rcases bind_eq_error.mp hrest with hxs | ⟨ys, -, hdone⟩
      · obtain ⟨z, hz, he⟩ := ih hxs
        exact ⟨z, List.mem_cons_of_mem x hz, he⟩
      · simp at hdone

theorem length_of_mapM_eq_ok {f : α → Except ε β} {xs : List α} {ys : List β}
    (h : xs.mapM f = .ok ys) : ys.length = xs.length := by
  simpa using (congrArg List.length (mapM_eq_ok.mp h)).symm

/-- The result of a number comes from the item of that number. -/
theorem getElem?_of_mapM_eq_ok {f : α → Except ε β} {xs : List α} {ys : List β}
    (h : xs.mapM f = .ok ys) {i : Nat} {y : β} (hy : ys[i]? = some y) :
    ∃ x, xs[i]? = some x ∧ f x = .ok y := by
  have hi := congrArg (·[i]?) (mapM_eq_ok.mp h)
  rw [List.getElem?_map, List.getElem?_map, hy, Option.map_some] at hi
  exact Option.map_eq_some_iff.mp hi

/-- Each result comes from an item. -/
theorem exists_of_mem_mapM_eq_ok {f : α → Except ε β} {xs : List α} {ys : List β}
    (h : xs.mapM f = .ok ys) {y : β} (hy : y ∈ ys) : ∃ x ∈ xs, f x = .ok y := by
  obtain ⟨i, hi⟩ := List.getElem?_of_mem hy
  obtain ⟨x, hx, hxy⟩ := getElem?_of_mapM_eq_ok h hi
  exact ⟨x, List.mem_of_getElem? hx, hxy⟩

/-- The result of an item is among the results. -/
theorem mem_of_mapM_eq_ok {f : α → Except ε β} {xs : List α} {ys : List β} (h : xs.mapM f = .ok ys)
    {x : α} (hx : x ∈ xs) : ∃ y, f x = .ok y ∧ y ∈ ys := by
  have hmem : f x ∈ ys.map .ok := by
    rw [← mapM_eq_ok.mp h]
    exact List.mem_map_of_mem hx
  obtain ⟨y, hy, hxy⟩ := List.mem_map.mp hmem
  exact ⟨y, hxy.symm, hy⟩

/-- What holds of all results holds of all items in its own way, when each step says so. -/
theorem forall_mem_iff_of_mapM_eq_ok {f : α → Except ε β} {P : β → Prop} {Q : α → Prop} {xs : List α}
    {ys : List β} (hf : ∀ x ∈ xs, ∀ y, f x = .ok y → (P y ↔ Q x)) (h : xs.mapM f = .ok ys) :
    (∀ y ∈ ys, P y) ↔ ∀ x ∈ xs, Q x := by
  constructor
  · intro hys x hx
    obtain ⟨y, hy, hmem⟩ := mem_of_mapM_eq_ok h hx
    exact (hf x hx y hy).mp (hys y hmem)
  · intro hxs y hy
    obtain ⟨x, hx, hxy⟩ := exists_of_mem_mapM_eq_ok h hy
    exact (hf x hx y hxy).mpr (hxs x hx)

/-- Where steps keep what is read off their items, the lists agree on it. -/
theorem map_eq_of_mapM_eq_ok {γ : Type} {f : α → Except ε β} {xs : List α} {ys : List β} {p : α → γ}
    {q : β → γ} (hf : ∀ x y, f x = .ok y → p x = q y) (h : xs.mapM f = .ok ys) :
    xs.map p = ys.map q := by
  induction xs generalizing ys with
  | nil =>
    obtain rfl := Except.ok.inj h
    rfl
  | cons x xs ih =>
    obtain ⟨y, zs, hy, hzs, rfl⟩ := mapM_cons_eq_ok.mp h
    rw [List.map_cons, List.map_cons, hf x y hy, ih hzs]

/-- Where steps lead to results, other steps lead to what is made of these. -/
theorem mapM_eq_ok_map {γ : Type} {f : α → Except ε β} {g : α → Except ε γ} {q : β → γ} {xs : List α}
    {ys : List β} (hfg : ∀ x y, f x = .ok y → g x = .ok (q y)) (h : xs.mapM f = .ok ys) :
    xs.mapM g = .ok (ys.map q) := by
  have hmap : xs.map g = ys.map fun y => Except.ok (q y) := map_eq_of_mapM_eq_ok hfg h
  rw [mapM_eq_ok, List.map_map]
  exact hmap

/-- What is read off results of numbered items can be read off the items, when the numbers do not
matter to it. -/
theorem mapM_eq_ok_of_zipIdx {γ : Type} {f : α × Nat → Except ε β} {g : α → Except ε γ} {q : β → γ}
    {xs : List α} {ys : List β} (hf : ∀ x i y, f (x, i) = .ok y → g x = .ok (q y))
    (h : xs.zipIdx.mapM f = .ok ys) : xs.mapM g = .ok (ys.map q) := by
  have hnumbered : xs.zipIdx.mapM (fun p => g p.1) = .ok (ys.map q) :=
    mapM_eq_ok_map (fun p y => hf p.1 p.2 y) h
  rw [mapM_eq_ok] at hnumbered ⊢
  calc xs.map g = (xs.zipIdx.map Prod.fst).map g := by rw [List.zipIdx_map_fst]
    _ = (ys.map q).map .ok := by rw [List.map_map]; exact hnumbered

/-- In another order, the items lead to the same results in that order. -/
theorem exists_mapM_perm {f : α → Except ε β} {xs xs' : List α} (hperm : xs.Perm xs') {ys : List β}
    (h : xs.mapM f = .ok ys) : ∃ ys', xs'.mapM f = .ok ys' ∧ ys.Perm ys' := by
  induction hperm generalizing ys with
  | nil => exact ⟨ys, h, List.Perm.refl ys⟩
  | cons x _ ih =>
    obtain ⟨y, zs, hy, hzs, rfl⟩ := mapM_cons_eq_ok.mp h
    obtain ⟨zs', hzs', hperm⟩ := ih hzs
    exact ⟨y :: zs', mapM_cons_eq_ok.mpr ⟨y, zs', hy, hzs', rfl⟩, hperm.cons y⟩
  | swap x x' xs =>
    obtain ⟨y', zs, hy', hzs, rfl⟩ := mapM_cons_eq_ok.mp h
    obtain ⟨y, ws, hy, hws, rfl⟩ := mapM_cons_eq_ok.mp hzs
    have hrest := mapM_cons_eq_ok.mpr ⟨y', ws, hy', hws, rfl⟩
    exact ⟨y :: y' :: ws, mapM_cons_eq_ok.mpr ⟨y, _, hy, hrest, rfl⟩, List.Perm.swap y y' ws⟩
  | trans _ _ ih ih' =>
    obtain ⟨zs, hzs, hperm⟩ := ih h
    obtain ⟨ws, hws, hperm'⟩ := ih' hzs
    exact ⟨ws, hws, hperm.trans hperm'⟩

/-- Steps of which each succeeds or not whatever came before succeed when each of them does. -/
theorem exists_foldlM_eq_ok {f : β → α → Except ε β} {P : α → Prop} {xs : List α}
    (hf : ∀ b, ∀ x ∈ xs, (∃ b', f b x = .ok b') ↔ P x) {b : β} :
    (∃ b', xs.foldlM f b = .ok b') ↔ ∀ x ∈ xs, P x := by
  induction xs generalizing b with
  | nil => exact ⟨fun _ x hx => absurd hx List.not_mem_nil, fun _ => ⟨b, rfl⟩⟩
  | cons x xs ih =>
    have hx := fun b => hf b x List.mem_cons_self
    have hxs := fun b y hy => hf b y (List.mem_cons_of_mem x hy)
    rw [List.forall_mem_cons, List.foldlM_cons]
    constructor
    · rintro ⟨b', h⟩
      obtain ⟨c, hc, h⟩ := bind_eq_ok.mp h
      exact ⟨(hx b).mp ⟨c, hc⟩, (ih hxs).mp ⟨b', h⟩⟩
    · rintro ⟨hPx, hPxs⟩
      obtain ⟨c, hc⟩ := (hx b).mpr hPx
      obtain ⟨b', hb'⟩ := (ih hxs).mpr hPxs
      exact ⟨b', bind_eq_ok.mpr ⟨c, hc, hb'⟩⟩

/-- What every step preserves holds at the end of them all. -/
theorem foldlM_preserves {f : β → α → Except ε β} {P : β → Prop} {xs : List α} {b b' : β}
    (hf : ∀ b, ∀ x ∈ xs, ∀ b', P b → f b x = .ok b' → P b') (hb : P b)
    (h : xs.foldlM f b = .ok b') : P b' := by
  induction xs generalizing b with
  | nil =>
    obtain rfl := Except.ok.inj h
    exact hb
  | cons x xs ih =>
    rw [List.foldlM_cons] at h
    obtain ⟨c, hc, h⟩ := bind_eq_ok.mp h
    have hrest := fun b y hy => hf b y (List.mem_cons_of_mem x hy)
    exact ih hrest (hf b x List.mem_cons_self c hb hc) h

end Formwright
