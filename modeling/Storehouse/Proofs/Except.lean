import Mathlib.Data.List.Forall2

namespace Storehouse.Except

variable {α β ε : Type} {e : ε}

theorem bind_eq_ok_iff {x : Except ε α} {f : α → Except ε β} {b : β} :
    x >>= f = .ok b ↔ ∃ a, x = .ok a ∧ f a = .ok b := by
  cases x <;> simp [bind, Except.bind]

theorem bind_eq_error_iff {x : Except ε α} {f : α → Except ε β} :
    x >>= f = .error e ↔ x = .error e ∨ ∃ a, x = .ok a ∧ f a = .error e := by
  cases x <;> simp [bind, Except.bind]

theorem map_eq_ok_iff {x : Except ε α} {f : α → β} {b : β} :
    f <$> x = .ok b ↔ ∃ a, x = .ok a ∧ f a = b := by
  cases x <;> simp [Functor.map, Except.map]

theorem map_eq_error_iff {x : Except ε α} {f : α → β} : f <$> x = .error e ↔ x = .error e := by
  cases x <;> simp [Functor.map, Except.map]

theorem mapError_eq_ok_iff {ζ : Type} {x : Except ε α} {f : ε → ζ} {a : α} :
    x.mapError f = .ok a ↔ x = .ok a := by
  cases x <;> simp [Except.mapError]

theorem mapM_eq_ok_iff {f : α → Except ε β} {R : α → β → Prop} {xs : List α} {ys : List β}
    (hf : ∀ x ∈ xs, ∀ y, f x = .ok y ↔ R x y) : xs.mapM f = .ok ys ↔ List.Forall₂ R xs ys := by
  induction xs generalizing ys with
  | nil => cases ys <;> simp [pure, Except.pure]
  | cons x xs ih =>
    have hrest {zs} : xs.mapM f = .ok zs ↔ List.Forall₂ R xs zs :=
      ih fun y hy => hf y (List.mem_cons_of_mem x hy)
    rw [List.mapM_cons]
    simp only [bind_eq_ok_iff, hf x List.mem_cons_self, hrest, pure, Except.pure, Except.ok.injEq]
    constructor
    · rintro ⟨y, hy, zs, hzs, rfl⟩
      exact .cons hy hzs
    · rintro (_ | ⟨hy, hzs⟩)
      exact ⟨_, hy, _, hzs, rfl⟩

theorem mapM_eq_error_iff {f : α → Except ε β} {R : α → β → Prop} {S : α → ε → Prop} {xs : List α}
    (hf : ∀ x ∈ xs, ∀ y, f x = .ok y ↔ R x y) (hs : ∀ x ∈ xs, ∀ e, f x = .error e ↔ S x e) :
    xs.mapM f = .error e ↔
      ∃ first x rest ys, xs = first ++ x :: rest ∧ List.Forall₂ R first ys ∧ S x e := by
  induction xs with
  | nil => simp [pure, Except.pure]
  | cons x xs ih =>
    have hrest := ih (fun y hy => hf y (List.mem_cons_of_mem x hy))
      (fun y hy => hs y (List.mem_cons_of_mem x hy))
    rw [List.mapM_cons]
    simp only [bind_eq_error_iff, hf x List.mem_cons_self, hs x List.mem_cons_self, hrest, pure,
      Except.pure, reduceCtorEq, and_false, exists_false, or_false]
    constructor
    · rintro (he | ⟨y, hy, first, z, rest, zs, rfl, hzs, he⟩)
      · exact ⟨[], x, xs, [], rfl, .nil, he⟩
      · exact ⟨x :: first, z, rest, y :: zs, rfl, .cons hy hzs, he⟩
    · rintro ⟨first, z, rest, zs, hxs, hzs, he⟩
      cases hzs with
      | nil =>
        cases hxs
        exact .inl he
      | cons hy hzs =>
        cases hxs
        exact .inr ⟨_, hy, _, _, _, _, rfl, hzs, he⟩

theorem exists_error_of_mapM {f : α → Except ε β} {xs : List α} (h : xs.mapM f = .error e) :
    ∃ x ∈ xs, f x = .error e := by
  obtain ⟨first, x, rest, -, rfl, -, hx⟩ :=
    (mapM_eq_error_iff (fun _ _ _ => Iff.rfl) fun _ _ _ => Iff.rfl).mp h
  exact ⟨x, by simp, hx⟩

theorem exists_forall₂_iff {R : α → β → Prop} {xs : List α} :
    (∃ ys, List.Forall₂ R xs ys) ↔ ∀ x ∈ xs, ∃ y, R x y := by
  induction xs with
  | nil => simp
  | cons x xs ih =>
    rw [List.forall_mem_cons, ← ih]
    constructor
    · rintro ⟨_, _ | ⟨hy, hys⟩⟩
      exact ⟨⟨_, hy⟩, _, hys⟩
    · rintro ⟨⟨y, hy⟩, ys, hys⟩
      exact ⟨y :: ys, .cons hy hys⟩

section Fold

variable {γ : Type} {f : β → α → Except ε β} {R : α → γ → Prop} {g : β → γ → β}

/-- A fold succeeds with what its items come to, taken in one after the other. -/
theorem foldlM_eq_ok_iff (hf : ∀ b x c, f b x = .ok c ↔ ∃ y, R x y ∧ g b y = c) {xs : List α}
    {b c : β} : xs.foldlM f b = .ok c ↔ ∃ ys, List.Forall₂ R xs ys ∧ ys.foldl g b = c := by
  induction xs generalizing b with
  | nil => simp [pure, Except.pure]
  | cons x xs ih =>
    rw [List.foldlM_cons]
    simp only [bind_eq_ok_iff, hf, ih]
    constructor
    · rintro ⟨_, ⟨y, hy, rfl⟩, ys, hys, rfl⟩
      exact ⟨y :: ys, .cons hy hys, rfl⟩
    · rintro ⟨_, _ | ⟨hy, hys⟩, rfl⟩
      exact ⟨_, ⟨_, hy, rfl⟩, _, hys, rfl⟩

theorem foldlM_eq_error_iff {S : α → ε → Prop}
    (hf : ∀ b x c, f b x = .ok c ↔ ∃ y, R x y ∧ g b y = c)
    (hs : ∀ b x e, f b x = .error e ↔ S x e) {xs : List α} {b : β} : xs.foldlM f b = .error e ↔
      ∃ first x rest ys, xs = first ++ x :: rest ∧ List.Forall₂ R first ys ∧ S x e := by
  induction xs generalizing b with
  | nil => simp [pure, Except.pure]
  | cons x xs ih =>
    rw [List.foldlM_cons]
    simp only [bind_eq_error_iff, hf, hs, ih]
    constructor
    · rintro (he | ⟨_, ⟨y, hy, -⟩, first, z, rest, ys, rfl, hys, he⟩)
      · exact ⟨[], x, xs, [], rfl, .nil, he⟩
      · exact ⟨x :: first, z, rest, y :: ys, rfl, .cons hy hys, he⟩
    · rintro ⟨first, z, rest, ys, hxs, hys, he⟩
      cases hys with
      | nil =>
        cases hxs
        exact .inl he
      | cons hy hys =>
        cases hxs
        exact .inr ⟨_, ⟨_, hy, rfl⟩, _, _, _, _, rfl, hys, he⟩

end Fold

theorem toOption_eq_some_iff {x : Except ε α} {a : α} : x.toOption = some a ↔ x = .ok a := by
  cases x <;> simp [Except.toOption]

theorem toOption_map (f : α → β) (x : Except ε α) : (f <$> x).toOption = f <$> x.toOption := by
  cases x <;> rfl

theorem toOption_mapM (f : α → Except ε β) (xs : List α) :
    (xs.mapM f).toOption = xs.mapM fun x => (f x).toOption := by
  induction xs with
  | nil => rfl
  | cons x xs ih =>
    rw [List.mapM_cons, List.mapM_cons, ← ih]
    cases f x with
    | error e => rfl
    | ok y => cases xs.mapM f <;> rfl

end Storehouse.Except
