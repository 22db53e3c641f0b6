import Mathlib.Data.List.Basic
import Mathlib.Data.List.Nodup

set_option autoImplicit false

/-! # Partial functions read as hash oracles

A hash function with a finite range is never injective. What its users rely on is that
nobody has met a collision: among the preimages that were ever evaluated no two have the
same digest. So a hash is a *partial* function `α → Option δ`, defined on the evaluated
preimages, and `CollisionFree` says it is injective there. Unlike injectivity of a total
function this can hold of a finite digest type, and `tabulate` builds such an oracle from
any list of preimages.
-/

namespace Zolana.Oracle

variable {α β γ δ : Type*}

/-- No two evaluated preimages share a digest. -/
def CollisionFree (f : α → Option δ) : Prop :=
  ∀ ⦃x y d⦄, f x = some d → f y = some d → x = y

/-- The digests of `f` and of `g` are apart: domain separation. -/
def Separated (f : α → Option δ) (g : β → Option δ) : Prop :=
  ∀ ⦃x y d⦄, f x = some d → g y ≠ some d

/-- No evaluated preimage has the digest `d`. -/
def Avoids (f : α → Option δ) (d : δ) : Prop := ∀ x, f x ≠ some d

/-- Evaluating a collision-free oracle along a list is injective. -/
theorem CollisionFree.mapM_inj {f : α → Option δ} (hf : CollisionFree f) :
    ∀ {xs ys : List α} {ds : List δ}, xs.mapM f = some ds → ys.mapM f = some ds → xs = ys := by
  intro xs
  induction xs with
  | nil =>
      intro ys ds hx hy
      simp only [List.mapM_nil, Option.pure_def, Option.some.injEq] at hx
      subst hx
      cases ys with
      | nil => rfl
      | cons y ys => simp [List.mapM_cons, Option.bind_eq_some_iff] at hy
  | cons x xs ih =>
      intro ys ds hx hy
      simp only [List.mapM_cons, Option.bind_eq_bind, Option.bind_eq_some_iff, Option.pure_def,
        Option.some.injEq] at hx
      obtain ⟨d, hd, ds', hds', rfl⟩ := hx
      cases ys with
      | nil => simp at hy
      | cons y ys =>
          simp only [List.mapM_cons, Option.bind_eq_bind, Option.bind_eq_some_iff,
            Option.pure_def, Option.some.injEq, List.cons.injEq] at hy
          obtain ⟨e, he, es, hes, rfl, rfl⟩ := hy
          rw [hf hd he, ih hds' hes]

/-! ## Oracles from a table -/

/-- The oracle that answers the preimages listed in `xs`, the `i`-th of them with
`digest i`. -/
def tabulate [DecidableEq α] (digest : ℕ → δ) (xs : List α) : α → Option δ :=
  fun x => (xs.idxOf? x).map digest

theorem tabulate_eq_some [DecidableEq α] {digest : ℕ → δ} {xs : List α} {x : α} {d : δ}
    (h : tabulate digest xs x = some d) : ∃ i < xs.length, xs[i]? = some x ∧ digest i = d := by
  simp only [tabulate, Option.map_eq_some_iff] at h
  obtain ⟨i, hi, rfl⟩ := h
  obtain ⟨hlt, hget, -⟩ := List.idxOf?_eq_some_iff.mp hi
  refine ⟨i, hlt, ?_, rfl⟩
  rw [List.getElem?_eq_getElem hlt, hget]

theorem tabulate_of_not_mem [DecidableEq α] {digest : ℕ → δ} {xs : List α} {x : α} (h : x ∉ xs) :
    tabulate digest xs x = none := by
  rw [tabulate, List.idxOf?_eq_none_iff.mpr h]
  rfl

theorem tabulate_collisionFree [DecidableEq α] {digest : ℕ → δ} {xs : List α}
    (h : ∀ i < xs.length, ∀ j < xs.length, digest i = digest j → i = j) :
    CollisionFree (tabulate digest xs) := by
  intro x y d hx hy
  obtain ⟨i, hi, hxi, rfl⟩ := tabulate_eq_some hx
  obtain ⟨j, hj, hyj, hd⟩ := tabulate_eq_some hy
  have hij : i = j := h i hi j hj hd.symm
  subst hij
  exact Option.some.inj (hxi.symm.trans hyj)

theorem tabulate_avoids [DecidableEq α] {digest : ℕ → δ} {xs : List α} {d : δ}
    (h : ∀ i < xs.length, digest i ≠ d) : Avoids (tabulate digest xs) d := by
  intro x hx
  obtain ⟨i, hi, -, hd⟩ := tabulate_eq_some hx
  exact h i hi hd

theorem tabulate_separated [DecidableEq α] [DecidableEq β] {digest digest' : ℕ → δ}
    {xs : List α} {ys : List β}
    (h : ∀ i < xs.length, ∀ j < ys.length, digest i ≠ digest' j) :
    Separated (tabulate digest xs) (tabulate digest' ys) := by
  intro x y d hx hy
  obtain ⟨i, hi, -, rfl⟩ := tabulate_eq_some hx
  obtain ⟨j, hj, -, hd⟩ := tabulate_eq_some hy
  exact h i hi j hj hd.symm

end Zolana.Oracle
