import CrystalModel.Build.Error
import CrystalModel.Proofs.Places

/-! # Lists of fallible steps

What the success of a step, of a list of steps and of a fold of steps says about the parts. -/
namespace CrystalModel

variable {ε δ α β σ : Type}

theorem bind_ok_iff {x : Except ε α} {f : α → Except ε β} {b : β} :
    x >>= f = .ok b ↔ ∃ a, x = .ok a ∧ f a = .ok b := by
  cases x <;> simp [bind, Except.bind]

theorem bind_error_iff {x : Except ε α} {f : α → Except ε β} {e : ε} :
    x >>= f = .error e ↔ x = .error e ∨ ∃ a, x = .ok a ∧ f a = .error e := by
  cases x <;> simp [bind, Except.bind]

theorem pure_ok_iff {a b : α} : (pure a : Except ε α) = .ok b ↔ a = b := by
  simp [pure, Except.pure]

theorem mapError_ok_iff {f : ε → δ} {x : Except ε α} {a : α} :
    x.mapError f = .ok a ↔ x = .ok a := by
  cases x <;> simp [Except.mapError]

theorem map_ok_iff {x : Except ε α} {f : α → β} {b : β} :
    x.map f = .ok b ↔ ∃ a, x = .ok a ∧ f a = b := by
  cases x <;> simp [Except.map]

theorem ok_of_any {x : Except ε α} {p : α → Bool} (h : x.toOption.any p) :
    ∃ a, x = .ok a ∧ p a := by
  cases x with
  | error e => cases h
  | ok a => exact ⟨a, rfl, h⟩

theorem mapM_ok_iff {f : α → Except ε β} {xs : List α} {ys : List β} :
    xs.mapM f = .ok ys ↔ List.Forall₂ (fun x y => f x = .ok y) xs ys := by
  induction xs generalizing ys with
  | nil => cases ys <;> simp [pure, Except.pure]
  | cons x xs ih =>
    simp only [List.mapM_cons, bind_ok_iff, pure_ok_iff, ih]
    constructor
    · rintro ⟨y, hy, ys, hys, rfl⟩
      exact .cons hy hys
    · intro h
      cases h with
      | cons hy hys => exact ⟨_, hy, _, hys, rfl⟩

theorem mapM_some_iff {f : α → Option β} {xs : List α} {ys : List β} :
    xs.mapM f = some ys ↔ List.Forall₂ (fun x y => f x = some y) xs ys := by
  induction xs generalizing ys with
  | nil => cases ys <;> simp
  | cons x xs ih =>
    simp only [List.mapM_cons, Option.bind_eq_bind, Option.bind_eq_some_iff, Option.pure_def,
      Option.some.injEq, ih]
    constructor
    · rintro ⟨y, hy, ys, hys, rfl⟩
      exact .cons hy hys
    · intro h
      cases h with
      | cons hy hys => exact ⟨_, hy, _, hys, rfl⟩

theorem mapM_succeeds_iff {f : α → Except ε β} {xs : List α} :
    (∃ ys, xs.mapM f = .ok ys) ↔ ∀ x ∈ xs, ∃ y, f x = .ok y := by
  induction xs with
  | nil => simp [pure, Except.pure]
  | cons x xs ih =>
    simp only [List.mapM_cons, bind_ok_iff, pure_ok_iff, List.forall_mem_cons, ← ih]
    constructor
    · rintro ⟨_, y, hy, ys, hys, rfl⟩
      exact ⟨⟨y, hy⟩, ys, hys⟩
    · rintro ⟨⟨y, hy⟩, ys, hys⟩
      exact ⟨_, y, hy, ys, hys, rfl⟩

theorem mapM_congr {f : α → Except ε δ} {g : β → Except ε δ} {xs : List α} {ys : List β}
    (same : List.Forall₂ (fun x y => f x = g y) xs ys) : xs.mapM f = ys.mapM g := by
  induction same with
  | nil => rfl
  | cons first _ ih => rw [List.mapM_cons, List.mapM_cons, first, ih]

theorem mapM_isSome_iff {f : α → Option β} {xs : List α} :
    (∃ ys, xs.mapM f = some ys) ↔ ∀ x ∈ xs, ∃ y, f x = some y := by
  induction xs with
  | nil => simp
  | cons x xs ih =>
    simp only [List.mapM_cons, Option.bind_eq_bind, Option.bind_eq_some_iff, Option.pure_def,
      Option.some.injEq, List.forall_mem_cons, ← ih]
    constructor
    · rintro ⟨_, y, hy, ys, hys, rfl⟩
      exact ⟨⟨y, hy⟩, ys, hys⟩
    · rintro ⟨⟨y, hy⟩, ys, hys⟩
      exact ⟨_, y, hy, ys, hys, rfl⟩

theorem forM_ok_iff {f : α → Except ε Unit} {xs : List α} :
    xs.forM f = .ok () ↔ ∀ x ∈ xs, f x = .ok () := by
  induction xs with
  | nil => simp [pure, Except.pure]
  | cons x xs ih =>
    rw [List.forM, bind_ok_iff, List.forall_mem_cons, ← ih]
    constructor
    · rintro ⟨⟨⟩, hx, hxs⟩
      exact ⟨hx, hxs⟩
    · rintro ⟨hx, hxs⟩
      exact ⟨(), hx, hxs⟩

theorem forM_error {f : α → Except ε Unit} {xs : List α} {e : ε} (h : xs.forM f = .error e) :
    ∃ x ∈ xs, f x = .error e := by
  induction xs with
  | nil => cases h
  | cons x rest ih =>
    rw [List.forM] at h
    rcases bind_error_iff.mp h with first | ⟨_, _, later⟩
    · exact ⟨x, List.mem_cons_self, first⟩
    · obtain ⟨y, hy, failed⟩ := ih later
      exact ⟨y, List.mem_cons_of_mem x hy, failed⟩

/-- A property of the steps done so far and of the state they lead to holds at the end when it
holds at the start and every step keeps it. -/
theorem foldlM_ok_induction {f : σ → α → Except ε σ} {motive : List α → σ → Prop} {init s : σ}
    {xs : List α} (h : xs.foldlM f init = .ok s) (start : motive [] init)
    (step : ∀ done x rest t u, xs = done ++ x :: rest → motive done t → f t x = .ok u →
      motive (done ++ [x]) u) : motive xs s := by
  suffices ∀ done rest t, xs = done ++ rest → motive done t → rest.foldlM f t = .ok s →
      motive xs s from this [] xs init rfl start h
  intro done rest
  induction rest generalizing done with
  | nil =>
    intro t eq ht hs
    rw [List.foldlM_nil, pure_ok_iff] at hs
    rw [eq, List.append_nil, ← hs]
    exact ht
  | cons x rest ih =>
    intro t eq ht hs
    rw [List.foldlM_cons, bind_ok_iff] at hs
    obtain ⟨u, hu, hs⟩ := hs
    exact ih (done ++ [x]) u (by simp [eq]) (step done x rest t u eq ht hu) hs

theorem foldlM_concat_ok {f : σ → α → Except ε σ} {init s u : σ} {xs : List α} {x : α}
    (before : xs.foldlM f init = .ok s) (last : f s x = .ok u) :
    (xs ++ [x]).foldlM f init = .ok u := by
  rw [List.foldlM_append, before]
  exact bind_ok_iff.mpr ⟨s, rfl, bind_ok_iff.mpr ⟨u, last, rfl⟩⟩

theorem foldlM_flatMap {f : σ → β → Except ε σ} {g : α → List β} (xs : List α)
    (s : σ) : (xs.flatMap g).foldlM f s = xs.foldlM (fun s x => (g x).foldlM f s) s := by
  induction xs generalizing s with
  | nil => rfl
  | cons x rest ih =>
    rw [List.flatMap_cons, List.foldlM_append, List.foldlM_cons]
    exact congrArg _ (funext ih)

theorem foldlM_guarded {f g : σ → α → Except ε σ} {p : α → Prop}
    (step : ∀ s x s', f s x = .ok s' ↔ p x ∧ g s x = .ok s') {xs : List α} {s s' : σ} :
    xs.foldlM f s = .ok s' ↔ (∀ x ∈ xs, p x) ∧ xs.foldlM g s = .ok s' := by
  induction xs generalizing s with
  | nil => simp
  | cons x rest ih =>
    simp only [List.foldlM_cons, bind_ok_iff, step, ih, List.forall_mem_cons]
    constructor
    · rintro ⟨next, ⟨first, done⟩, others, finished⟩
      exact ⟨⟨first, others⟩, next, done, finished⟩
    · rintro ⟨⟨first, others⟩, next, done, finished⟩
      exact ⟨next, ⟨first, done⟩, others, finished⟩

theorem foldlM_succeeds {f : σ → α → Except ε σ} {motive : σ → Prop} {init : σ} {xs : List α}
    (start : motive init)
    (step : ∀ x ∈ xs, ∀ s, motive s → ∃ s', f s x = .ok s' ∧ motive s') :
    ∃ s, xs.foldlM f init = .ok s := by
  induction xs generalizing init with
  | nil => exact ⟨init, rfl⟩
  | cons x rest ih =>
    obtain ⟨s, hs, next⟩ := step x List.mem_cons_self init start
    obtain ⟨final, hfinal⟩ := ih next fun y hy => step y (List.mem_cons_of_mem x hy)
    exact ⟨final, by rw [List.foldlM_cons, hs]; exact hfinal⟩

/-- A fold gets as far as an element, in the state that the elements before it lead to. -/
def GetsTo (f : σ → α → Except ε σ) (init : σ) (xs : List α) (x : α) (s : σ) : Prop :=
  ∃ done rest, xs = done ++ x :: rest ∧ done.foldlM f init = .ok s

/-- A fold fails where one of the steps that it gets to does. -/
theorem foldlM_error_iff {f : σ → α → Except ε σ} {init : σ} {xs : List α} {e : ε} :
    xs.foldlM f init = .error e ↔ ∃ x s, GetsTo f init xs x s ∧ f s x = .error e := by
  constructor
  · intro h
    induction xs generalizing init with
    | nil => cases h
    | cons x rest ih =>
      rw [List.foldlM_cons] at h
      rcases bind_error_iff.mp h with failed | ⟨next, step, later⟩
      · exact ⟨x, init, ⟨[], rest, rfl, rfl⟩, failed⟩
      · obtain ⟨y, s, ⟨done, behind, rfl, before⟩, failed⟩ := ih later
        refine ⟨y, s, ⟨x :: done, behind, rfl, ?_⟩, failed⟩
        rw [List.foldlM_cons]
        exact bind_ok_iff.mpr ⟨next, step, before⟩
  · rintro ⟨x, s, ⟨done, rest, rfl, before⟩, failed⟩
    rw [List.foldlM_append]
    refine bind_error_iff.mpr (Or.inr ⟨s, before, ?_⟩)
    rw [List.foldlM_cons]
    exact bind_error_iff.mpr (Or.inl failed)

theorem foldlM_error {f : σ → α → Except ε σ} {init : σ} {xs : List α} {e : ε}
    (h : xs.foldlM f init = .error e) : ∃ x ∈ xs, ∃ s, f s x = .error e := by
  obtain ⟨x, s, ⟨done, rest, rfl, _⟩, failed⟩ := foldlM_error_iff.mp h
  exact ⟨x, List.mem_append_right _ List.mem_cons_self, s, failed⟩

theorem mapM_error {f : α → Except ε β} {xs : List α} {e : ε} (h : xs.mapM f = .error e) :
    ∃ x ∈ xs, f x = .error e := by
  induction xs with
  | nil => cases h
  | cons x rest ih =>
    rw [List.mapM_cons] at h
    rcases bind_error_iff.mp h with first | ⟨_, _, h⟩
    · exact ⟨x, List.mem_cons_self, first⟩
    · rcases bind_error_iff.mp h with later | ⟨_, _, done⟩
      · obtain ⟨y, hy, failed⟩ := ih later
        exact ⟨y, List.mem_cons_of_mem x hy, failed⟩
      · cases done

end CrystalModel
