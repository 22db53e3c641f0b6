import Mathlib.Data.Set.Insert
import Zolana.Basic.Ledger

set_option autoImplicit false

/-! # Custody

A custodian holds items for others. An item is handed in, and later released, once and for
all, in a way that `Permits` allows at the time of the release. Nothing else is said of the
items, of the ways or of time: a swap order and a timelocked escrow are both instances.

The main result is `Custody.held_or_released_once`: whatever was handed in is still held, or
exactly one act of the run released it, in a permitted way.
-/

namespace Zolana

/-- Which ways of releasing an item are permitted at a time. -/
structure Custody (α δ : Type*) where
  Permits : α → δ → ℤ → Prop

namespace Custody

/-- What a custodian does. -/
inductive Act (α δ : Type*)
  | idle
  | accept (a : α)
  | release (now : ℤ) (a : α) (d : δ)

/-- The items that are held and those that were released; none is both. -/
structure State (α : Type*) where
  held : Set α
  released : Set α
  clock : ℤ
  disjoint : ∀ a ∈ held, a ∉ released

variable {α δ : Type*} {M : Custody α δ}

/-- The act releases the item. -/
def Act.Releases (a : α) (e : Act α δ) : Prop := ∃ now d, e = .release now a d

/-- One act. An item that was released is not accepted again. -/
inductive Step (M : Custody α δ) : State α → Act α δ → State α → Prop
  | idle {s s' : State α} : s.clock ≤ s'.clock → s'.held = s.held → s'.released = s.released →
      M.Step s .idle s'
  | accept {s s' : State α} {a : α} : s.clock ≤ s'.clock → a ∉ s.released →
      s'.held = insert a s.held → s'.released = s.released → M.Step s (.accept a) s'
  | release {s s' : State α} {a : α} {d : δ} : s.clock ≤ s'.clock → a ∈ s.held →
      M.Permits a d s'.clock → s'.held = s.held \ {a} → s'.released = insert a s.released →
      M.Step s (.release s'.clock a d) s'

/-- The runs of a custodian. -/
abbrev Runs (M : Custody α δ) : State α → List (Act α δ) → State α → Prop := Run M.Step

/-! ## What a step does -/

variable {s s' : State α} {e : Act α δ} {a : α}

theorem State.not_mem_released (h : a ∈ s.held) : a ∉ s.released :=
  s.disjoint a h

namespace Step

theorem clock_le (h : M.Step s e s') : s.clock ≤ s'.clock := by
  cases h with
  | idle hclock _ _ => exact hclock
  | accept hclock _ _ _ => exact hclock
  | release hclock _ _ _ _ => exact hclock

/-- What is released afterwards was released before or is released by the act. -/
theorem mem_released (h : M.Step s e s') : a ∈ s'.released ↔ a ∈ s.released ∨ e.Releases a := by
  cases h with
  | idle _ _ hreleased =>
      rw [hreleased]
      simp [Act.Releases]
  | accept _ _ _ hreleased =>
      rw [hreleased]
      simp [Act.Releases]
  | @release _ b d _ _ _ _ hreleased =>
      rw [hreleased, Set.mem_insert_iff]
      constructor
      · rintro (rfl | hold)
        · exact .inr ⟨_, d, rfl⟩
        · exact .inl hold
      · rintro (hold | ⟨_, _, heq⟩)
        · exact .inr hold
        · cases heq
          exact .inl rfl

/-- An act that releases an item finds it in custody. -/
theorem mem_held (h : M.Step s e s') (he : e.Releases a) : a ∈ s.held := by
  obtain ⟨now, d, rfl⟩ := he
  cases h with
  | release _ hmem _ _ _ => exact hmem

end Step

/-! ## What a run does -/

theorem runs_clock_le {tr : List (Act α δ)} (h : M.Runs s tr s') : s.clock ≤ s'.clock := by
  refine h.invariant (fun _ s₁ => s.clock ≤ s₁.clock) le_rfl ?_
  intro _ _ _ _ _ ih hlast
  exact ih.trans hlast.clock_le

/-- An item is released after a run exactly if it was at the start or an act released it. -/
theorem runs_mem_released {tr : List (Act α δ)} (h : M.Runs s tr s') :
    a ∈ s'.released ↔ a ∈ s.released ∨ ∃ e ∈ tr, e.Releases a := by
  induction h with
  | nil => simp
  | snoc _ hlast ih =>
      rw [hlast.mem_released, ih]
      simp only [List.mem_append, List.mem_singleton, or_and_right, exists_or, exists_eq_left,
        or_assoc]

/-- No item is released twice. -/
theorem runs_pairwise {tr : List (Act α δ)} (h : M.Runs s tr s') :
    tr.Pairwise fun d e => ∀ a, d.Releases a → ¬e.Releases a := by
  refine h.pairwise (fun d s => ∀ a, d.Releases a → a ∈ s.released) ?_ ?_ ?_
  · intro s e s' hstep a he
    exact hstep.mem_released.mpr (.inr he)
  · intro d s e s' hmark hstep a hd
    exact hstep.mem_released.mpr (.inl (hmark a hd))
  · intro d s e s' hmark hstep a hd he
    exact State.not_mem_released (hstep.mem_held he) (hmark a hd)

/-- **Held, or released exactly once.** Of an item that is in custody or past it at the end, and
was not past it at the start: it is still held and no act released it, or one act released it, in
a way permitted at its time, and no other one did. -/
theorem held_or_released_once {tr : List (Act α δ)} (h : M.Runs s tr s') (hfresh : a ∉ s.released)
    (ha : a ∈ s'.held ∨ a ∈ s'.released) :
    (a ∈ s'.held ∧ ∀ e ∈ tr, ¬e.Releases a) ∨
      ∃ tr₁ now d tr₂, tr = tr₁ ++ .release now a d :: tr₂ ∧ M.Permits a d now ∧
        now ≤ s'.clock ∧ ∀ e ∈ tr₁ ++ tr₂, ¬e.Releases a := by
  by_cases hreleases : ∃ e ∈ tr, e.Releases a
  · obtain ⟨e, he, now, d, rfl⟩ := hreleases
    obtain ⟨tr₁, tr₂, s₁, s₂, rfl, -, hstep, hafter⟩ := h.exists_step_of_mem he
    have hpairwise := runs_pairwise h
    rw [List.pairwise_append, List.pairwise_cons] at hpairwise
    obtain ⟨-, ⟨hlater, -⟩, hearlier⟩ := hpairwise
    refine .inr ⟨tr₁, now, d, tr₂, rfl, ?_, ?_, ?_⟩
    · cases hstep with
      | release _ _ hpermits _ _ => exact hpermits
    · cases hstep with
      | release _ _ _ _ _ => exact runs_clock_le hafter
    · intro e he' hagain
      rcases List.mem_append.mp he' with hbefore | hbehind
      · exact hearlier e hbefore _ List.mem_cons_self a hagain ⟨now, d, rfl⟩
      · exact hlater e hbehind a ⟨now, d, rfl⟩ hagain
  · refine .inl ⟨ha.resolve_right ?_, fun e he hreleased => hreleases ⟨e, he, hreleased⟩⟩
    rw [runs_mem_released h, not_or]
    exact ⟨hfresh, hreleases⟩

end Custody

end Zolana
