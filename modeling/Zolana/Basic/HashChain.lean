import Mathlib.Data.List.Basic
import Mathlib.Data.List.Induction
import Mathlib.Data.Option.Basic

set_option autoImplicit false

/-! # Hash chains over nonzero entries

A list of digests is committed by folding a two-to-one hash `node` over its entries, from
the left and starting from the first one, after dropping the entries that are `zero`. The
fold itself does not record how many entries it took: the chain of `[a, b, c]` is also the
chain of `[d, c]` where `d` is the chain of `[a, b]`. It binds the list as soon as the first
entry is known not to be an output of `node` (`IsLeaf`).
-/

namespace Zolana.HashChain

variable {δ : Type*}

/-- `d` is not an output of the two-to-one hash. -/
def IsLeaf (node : δ → δ → Option δ) (d : δ) : Prop := ∀ a b, node a b ≠ some d

/-- Injectivity of the two-to-one hash where it is defined. -/
def NodeInjective (node : δ → δ → Option δ) : Prop :=
  ∀ ⦃a b c d x⦄, node a b = some x → node c d = some x → a = c ∧ b = d

/-- A fold that starts at a leaf determines its start and its entries. -/
theorem foldlM_node_inj {node : δ → δ → Option δ} (hnode : NodeInjective node) {a b : δ}
    (ha : IsLeaf node a) (hb : IsLeaf node b) :
    ∀ {xs ys : List δ} {d : δ}, xs.foldlM node a = some d → ys.foldlM node b = some d →
      a = b ∧ xs = ys := by
  intro xs
  -- a left fold grows at its end: both lists are taken apart from there
  induction xs using List.reverseRecOn with
  | nil =>
      intro ys d hx hy
      simp only [List.foldlM_nil, Option.pure_def, Option.some.injEq] at hx
      subst hx
      cases ys using List.reverseRecOn with
      | nil =>
          simp only [List.foldlM_nil, Option.pure_def, Option.some.injEq] at hy
          exact ⟨hy.symm, rfl⟩
      | append_singleton ys y =>
          -- the other fold ends in a `node`, and `a` is not one
          simp only [List.foldlM_append, List.foldlM_cons, List.foldlM_nil, Option.bind_eq_bind,
            Option.bind_eq_some_iff, Option.pure_def] at hy
          obtain ⟨e, -, e', he', heq⟩ := hy
          exact absurd (he'.trans heq) (ha e y)
  | append_singleton xs x ih =>
      intro ys d hx hy
      simp only [List.foldlM_append, List.foldlM_cons, List.foldlM_nil, Option.bind_eq_bind,
        Option.bind_eq_some_iff, Option.pure_def] at hx
      obtain ⟨e, he, e', he', heq⟩ := hx
      obtain rfl : e' = d := Option.some.inj heq
      cases ys using List.reverseRecOn with
      | nil =>
          simp only [List.foldlM_nil, Option.pure_def] at hy
          exact absurd (he'.trans hy.symm) (hb e x)
      | append_singleton ys y =>
          simp only [List.foldlM_append, List.foldlM_cons, List.foldlM_nil, Option.bind_eq_bind,
            Option.bind_eq_some_iff, Option.pure_def] at hy
          obtain ⟨c, hc, c', hc', heq'⟩ := hy
          obtain rfl : c' = e' := Option.some.inj heq'
          obtain ⟨rfl, rfl⟩ := hnode he' hc'
          obtain ⟨hab, rfl⟩ := ih he hc
          exact ⟨hab, rfl⟩

/-! ## The chain -/

variable [DecidableEq δ]

/-- The chain of a list of digests: `zero` for the empty list, and the fold of `node` over
the nonzero entries otherwise. -/
def chain (node : δ → δ → Option δ) (zero : δ) (hs : List δ) : Option δ :=
  match hs.filter (· ≠ zero) with
  | [] => some zero
  | h :: t => t.foldlM node h

/-- A chain depends on the nonzero entries only. -/
theorem chain_congr {node : δ → δ → Option δ} {zero : δ} {xs ys : List δ}
    (h : xs.filter (· ≠ zero) = ys.filter (· ≠ zero)) :
    chain node zero xs = chain node zero ys := by
  rw [chain, chain, h]

/-- The chain of one digest is that digest, also when it is `zero`. -/
@[simp] theorem chain_singleton (node : δ → δ → Option δ) (zero h : δ) :
    chain node zero [h] = some h := by
  by_cases hzero : h = zero
  · simp [chain, hzero]
  · simp [chain, hzero]

/-- Two lists whose nonzero entries are leaves and whose chains agree have the same nonzero
entries. -/
theorem chain_inj {node : δ → δ → Option δ} {zero : δ} (hnode : NodeInjective node)
    (hzero : IsLeaf node zero) {xs ys : List δ} {d : δ}
    (hxs : ∀ h ∈ xs, h ≠ zero → IsLeaf node h) (hys : ∀ h ∈ ys, h ≠ zero → IsLeaf node h)
    (hx : chain node zero xs = some d) (hy : chain node zero ys = some d) :
    xs.filter (· ≠ zero) = ys.filter (· ≠ zero) := by
  have hleaf : ∀ {zs : List δ} {h : δ} {t : List δ}, (∀ h ∈ zs, h ≠ zero → IsLeaf node h) →
      zs.filter (· ≠ zero) = h :: t → IsLeaf node h ∧ h ≠ zero := by
    intro zs h t hzs heq
    have hmem : h ∈ zs.filter (· ≠ zero) := by rw [heq]; exact List.mem_cons_self
    obtain ⟨hin, hne⟩ := List.mem_filter.mp hmem
    have hne : h ≠ zero := by simpa using hne
    exact ⟨hzs h hin hne, hne⟩
  unfold chain at hx hy
  -- a nonempty chain never equals the chain of nothing, because `zero` is a leaf too
  cases hfx : xs.filter (· ≠ zero) with
  | nil =>
      rw [hfx] at hx
      obtain rfl : zero = d := Option.some.inj hx
      cases hfy : ys.filter (· ≠ zero) with
      | nil => rfl
      | cons h t =>
          rw [hfy] at hy
          obtain ⟨hl, hne⟩ := hleaf hys hfy
          have h0 : ([] : List δ).foldlM node zero = some zero := rfl
          exact absurd (foldlM_node_inj hnode hzero hl h0 hy).1.symm hne
  | cons h t =>
      rw [hfx] at hx
      obtain ⟨hl, hne⟩ := hleaf hxs hfx
      cases hfy : ys.filter (· ≠ zero) with
      | nil =>
          rw [hfy] at hy
          obtain rfl : zero = d := Option.some.inj hy
          have h0 : ([] : List δ).foldlM node zero = some zero := rfl
          exact absurd (foldlM_node_inj hnode hzero hl h0 hx).1.symm hne
      | cons h' t' =>
          rw [hfy] at hy
          obtain ⟨rfl, rfl⟩ := foldlM_node_inj hnode hl (hleaf hys hfy).1 hx hy
          rfl

end Zolana.HashChain
