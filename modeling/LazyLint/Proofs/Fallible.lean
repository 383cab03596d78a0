import Mathlib.Data.List.Forall2

/-!
# Lists of computations that may fail

`mapM` in `Except` runs one computation after another up to the first that fails. It gives a list if
and only if every computation gives a member of it (`mapM_eq_ok_iff`), and otherwise ends in the fault
of the first that gives none (`fault?_mapM`).
-/

namespace LazyLint

variable {α β ε : Type} {f : α → Except ε β}

theorem bind_eq_ok_iff {x : Except ε α} {g : α → Except ε β} {b : β} :
    (x >>= g) = .ok b ↔ ∃ a, x = .ok a ∧ g a = .ok b := by
  cases x with
  | error e => simp [bind, Except.bind]
  | ok a => simp [bind, Except.bind]

theorem bind_pure_eq_error_iff {x : Except ε α} {g : α → β} {e : ε} :
    (x >>= fun a => pure (g a)) = .error e ↔ x = .error e := by
  cases x <;> simp [bind, Except.bind, pure, Except.pure]

theorem mapError_eq_ok_iff {δ : Type} {x : Except ε α} {g : ε → δ} {a : α} :
    x.mapError g = .ok a ↔ x = .ok a := by
  cases x <;> simp [Except.mapError]

theorem mapError_eq_error_iff {δ : Type} {x : Except ε α} {g : ε → δ} {d : δ} :
    x.mapError g = .error d ↔ ∃ e, x = .error e ∧ g e = d := by
  cases x <;> simp [Except.mapError]

theorem mapM_eq_ok_iff {xs : List α} {ys : List β} :
    xs.mapM f = .ok ys ↔ List.Forall₂ (fun x y => f x = .ok y) xs ys := by
  induction xs generalizing ys with
  | nil => simp [pure, Except.pure, eq_comm]
  | cons x xs ih =>
    rw [List.mapM_cons, bind_eq_ok_iff, List.forall₂_cons_left_iff]
    constructor
    · rintro ⟨y, hy, h⟩
      obtain ⟨zs, hzs, h⟩ := bind_eq_ok_iff.1 h
      cases h
      exact ⟨y, zs, hy, ih.1 hzs, rfl⟩
    · rintro ⟨y, zs, hy, hzs, rfl⟩
      exact ⟨y, hy, bind_eq_ok_iff.2 ⟨zs, ih.2 hzs, rfl⟩⟩

theorem length_of_mapM {xs : List α} {ys : List β} (h : xs.mapM f = .ok ys) :
    ys.length = xs.length :=
  (mapM_eq_ok_iff.1 h).length_eq.symm

theorem mapM_eq_of_forall₂ {γ : Type} {g : γ → Except ε β} {xs : List α} {zs : List γ}
    (h : List.Forall₂ (fun x z => f x = g z) xs zs) : xs.mapM f = zs.mapM g := by
  induction h with
  | nil => rfl
  | cons hxz _ ih => rw [List.mapM_cons, List.mapM_cons, hxz, ih]

theorem forall₂_append_inv {R : α → β → Prop} {xs ys : List α} {zs : List β}
    (h : List.Forall₂ R (xs ++ ys) zs) :
    ∃ us vs, zs = us ++ vs ∧ List.Forall₂ R xs us ∧ List.Forall₂ R ys vs := by
  induction xs generalizing zs with
  | nil => exact ⟨[], zs, rfl, .nil, h⟩
  | cons x xs ih =>
    obtain ⟨z, zs, hz, hzs, rfl⟩ := List.forall₂_cons_left_iff.1 h
    obtain ⟨us, vs, rfl, hu, hv⟩ := ih hzs
    exact ⟨z :: us, vs, rfl, .cons hz hu, hv⟩

theorem mapError_bind {δ : Type} (x : Except ε α) (k : α → Except ε β) (g : ε → δ) :
    (x >>= k).mapError g = x.mapError g >>= fun a => (k a).mapError g := by
  cases x <;> rfl

/-! ## The first fault -/

/-- The fault that a computation ends in, if it fails. -/
def fault? {α ε : Type} : Except ε α → Option ε
  | .ok _ => none
  | .error e => some e

@[simp] theorem fault?_ok (a : α) : fault? (.ok a : Except ε α) = none := rfl
@[simp] theorem fault?_error (e : ε) : fault? (.error e : Except ε α) = some e := rfl

theorem fault?_eq_some_iff {x : Except ε α} {e : ε} : fault? x = some e ↔ x = .error e := by
  cases x <;> simp

theorem fault?_eq_none_iff {x : Except ε α} : fault? x = none ↔ ∃ a, x = .ok a := by
  cases x <;> simp

theorem fault?_map (g : α → β) (x : Except ε α) : fault? (x.map g) = fault? x := by
  cases x <;> rfl

theorem findSome?_congr {f g : α → Option β} {xs : List α} (h : ∀ x ∈ xs, f x = g x) :
    xs.findSome? f = xs.findSome? g := by
  induction xs with
  | nil => rfl
  | cons x xs ih =>
    rw [List.findSome?_cons, List.findSome?_cons, h x (List.mem_cons_self ..),
      ih fun y hy => h y (List.mem_cons_of_mem _ hy)]

/-- A list of computations fails as the first of them that fails. -/
theorem fault?_mapM (xs : List α) : fault? (xs.mapM f) = xs.findSome? fun x => fault? (f x) := by
  induction xs with
  | nil => rfl
  | cons x xs ih =>
    rw [List.mapM_cons, List.findSome?_cons, ← ih]
    cases f x with
    | error e => rfl
    | ok y => cases xs.mapM f <;> rfl

theorem exists_error_of_mapM {xs : List α} {e : ε} (h : xs.mapM f = .error e) :
    ∃ x ∈ xs, f x = .error e := by
  rw [← fault?_eq_some_iff, fault?_mapM] at h
  obtain ⟨x, hx, he⟩ := List.exists_of_findSome?_eq_some h
  exact ⟨x, hx, fault?_eq_some_iff.1 he⟩

/-- The fault is that of a member before which there is none. -/
theorem mapM_eq_error_iff {xs : List α} {e : ε} : xs.mapM f = .error e ↔
    ∃ before x after, xs = before ++ x :: after ∧ (∀ y ∈ before, ∃ b, f y = .ok b) ∧
      f x = .error e := by
  rw [← fault?_eq_some_iff, fault?_mapM, List.findSome?_eq_some_iff]
  constructor
  · rintro ⟨before, x, after, hxs, hx, hbefore⟩
    exact ⟨before, x, after, hxs, fun y hy => fault?_eq_none_iff.1 (hbefore y hy),
      fault?_eq_some_iff.1 hx⟩
  · rintro ⟨before, x, after, hxs, hbefore, hx⟩
    exact ⟨before, x, after, hxs, fault?_eq_some_iff.2 hx,
      fun y hy => fault?_eq_none_iff.2 (hbefore y hy)⟩

theorem mapM_error_of_mem {xs : List α} {x : α} {e : ε} (hx : x ∈ xs) (he : f x = .error e) :
    ∃ d, xs.mapM f = .error d := by
  have hsome : (xs.findSome? fun x => fault? (f x)).isSome := by
    rw [List.findSome?_isSome_iff]
    exact ⟨x, hx, by rw [he, fault?_error, Option.isSome_some]⟩
  rw [← fault?_mapM] at hsome
  obtain ⟨d, hd⟩ := Option.isSome_iff_exists.1 hsome
  exact ⟨d, fault?_eq_some_iff.1 hd⟩

/-! ## Numbered faults -/

/-- A computation fails with the first of numbered faults, counted from a number on. -/
def FailsFirst (x : Except ε α) (P : Nat → ε → Prop) (n : Nat) : Prop :=
  ∀ e, x = .error e ↔ ∃ i, n ≤ i ∧ P i e ∧ ∀ j d, n ≤ j → P j d → i ≤ j

/-- One check after which others follow. -/
theorem FailsFirst.bind {P : Nat → ε → Prop} {n : Nat} {x : Except ε α} {k : α → Except ε β}
    (hx : ∀ e, x = .error e ↔ P n e) (hk : ∀ a, x = .ok a → FailsFirst (k a) P (n + 1)) :
    FailsFirst (x >>= k) P n := by
  intro e
  cases hxe : x with
  | error d =>
    have hd : P n d := (hx d).1 hxe
    constructor
    · intro h
      cases h
      exact ⟨n, Nat.le_refl n, hd, fun j d hj _ => hj⟩
    · rintro ⟨i, hi, he, hfirst⟩
      obtain rfl : i = n := Nat.le_antisymm (hfirst n d (Nat.le_refl n) hd) hi
      cases hxe.symm.trans ((hx e).2 he)
      rfl
  | ok a =>
    have hnone : ∀ d, ¬ P n d := by
      intro d hd
      cases hxe.symm.trans ((hx d).2 hd)
    have hafter : ∀ i d, n ≤ i → P i d → n + 1 ≤ i := by
      intro i d hi hd
      apply Nat.lt_of_le_of_ne hi
      rintro rfl
      exact hnone d hd
    refine (hk a hxe e).trans ⟨?_, ?_⟩
    · rintro ⟨i, hi, he, hfirst⟩
      exact ⟨i, by omega, he, fun j d hj hd => hfirst j d (hafter j d hj hd) hd⟩
    · rintro ⟨i, hi, he, hfirst⟩
      exact ⟨i, hafter i e hi he, he, fun j d hj hd => hfirst j d (by omega) hd⟩

/-- A computation that fails first gives something if there is no fault. -/
theorem FailsFirst.exists_ok_iff {P : Nat → ε → Prop} {x : Except ε α} (h : FailsFirst x P 0) :
    (∃ a, x = .ok a) ↔ ∀ i e, ¬ P i e := by
  constructor
  · rintro ⟨a, rfl⟩ i
    induction i using Nat.strongRecOn with
    | _ i ih =>
      intro e he
      have hfirst : ∀ j d, 0 ≤ j → P j d → i ≤ j := fun j d _ hd =>
        Nat.le_of_not_lt fun hlt => ih j hlt d hd
      cases (h e).2 ⟨i, Nat.zero_le i, he, hfirst⟩
  · intro hnone
    cases hx : x with
    | ok a => exact ⟨a, rfl⟩
    | error e =>
      obtain ⟨i, -, he, -⟩ := (h e).1 hx
      exact absurd he (hnone i e)

end LazyLint
