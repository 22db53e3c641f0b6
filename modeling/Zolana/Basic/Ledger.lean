import Mathlib.Data.Finset.Basic
import Mathlib.Data.Finset.Union

set_option autoImplicit false

/-! # Ledgers of unspent coins and their runs

An append-only set of coins and the set of those whose nullifier has been published. A
transaction nullifies the coins it spends and appends the coins it creates; a coin is
*unspent* while it is appended and not nullified. Spending is for good: a coin appended a
second time with the same opening has the same nullifier.

`Run` is the set of finite runs of a labelled step relation with their traces, and the
second half of the file relates the two: in a system whose steps act on a ledger, a coin
appears in the ledger only through a step that creates it and stops being unspent only
through a step that spends it.
-/

namespace Zolana

/-! ## Coins -/

/-- The coins ever appended and the coins ever nullified. -/
structure Ledger (α : Type*) where
  leaves : Finset α
  nullified : Finset α

namespace Ledger

variable {α : Type*} [DecidableEq α]

/-- The empty ledger. -/
def empty : Ledger α := ⟨∅, ∅⟩

/-- The set of unspent coins. -/
def unspent (l : Ledger α) : Finset α := l.leaves \ l.nullified

/-- The effect of a transaction. -/
def apply (l : Ledger α) (spent created : List α) : Ledger α :=
  ⟨l.leaves ∪ created.toFinset, l.nullified ∪ spent.toFinset⟩

theorem mem_unspent {l : Ledger α} {u : α} :
    u ∈ l.unspent ↔ u ∈ l.leaves ∧ u ∉ l.nullified := Finset.mem_sdiff

@[simp] theorem mem_leaves_apply {l : Ledger α} {spent created : List α} {u : α} :
    u ∈ (l.apply spent created).leaves ↔ u ∈ l.leaves ∨ u ∈ created := by
  simp [apply]

@[simp] theorem mem_nullified_apply {l : Ledger α} {spent created : List α} {u : α} :
    u ∈ (l.apply spent created).nullified ↔ u ∈ l.nullified ∨ u ∈ spent := by
  simp [apply]

end Ledger

/-! ## Runs -/

section Runs

variable {σ ε : Type*}

/-- The finite runs of a labelled step relation, the trace in order. -/
inductive Run (step : σ → ε → σ → Prop) : σ → List ε → σ → Prop
  | nil (s : σ) : Run step s [] s
  | snoc {s s' s'' : σ} {tr : List ε} {e : ε} :
      Run step s tr s' → step s' e s'' → Run step s (tr ++ [e]) s''

namespace Run

variable {step : σ → ε → σ → Prop}

/-- A property of the trace and the state reached that every step preserves. -/
theorem invariant {s : σ} (inv : List ε → σ → Prop) (hinit : inv [] s)
    (hstep : ∀ tr s' e s'', Run step s tr s' → inv tr s' → step s' e s'' →
      inv (tr ++ [e]) s'')
    {tr : List ε} {s' : σ} (h : Run step s tr s') : inv tr s' := by
  induction h with
  | nil => exact hinit
  | snoc hrun hlast ih => exact hstep _ _ _ _ hrun ih hlast

/-- Every event of the trace labels a step between two states that the run passes. -/
theorem exists_step_of_mem {s s' : σ} {tr : List ε} (h : Run step s tr s') {e : ε}
    (he : e ∈ tr) :
    ∃ tr₁ tr₂ s₁ s₂, tr = tr₁ ++ e :: tr₂ ∧ Run step s tr₁ s₁ ∧ step s₁ e s₂ ∧
      Run step s₂ tr₂ s' := by
  induction h with
  | nil => simp at he
  | @snoc s₁ s₂ tr e' hrun hlast ih =>
      rcases List.mem_append.mp he with hold | hnew
      · obtain ⟨tr₁, tr₂, t₁, t₂, rfl, hrun₁, hs, hrun₂⟩ := ih hold
        exact ⟨tr₁, tr₂ ++ [e'], t₁, t₂, by simp, hrun₁, hs, hrun₂.snoc hlast⟩
      · obtain rfl := List.mem_singleton.mp hnew
        exact ⟨tr, [], s₁, s₂, rfl, hrun, hlast, .nil s₂⟩

/-- A relation between the earlier and the later events of a trace. Each event leaves a mark
on the state, every step keeps the marks, and a step stands in the relation to the events
whose marks it finds. -/
theorem pairwise {R : ε → ε → Prop} (mark : ε → σ → Prop)
    (hnew : ∀ {s e s'}, step s e s' → mark e s')
    (hkeep : ∀ {d s e s'}, mark d s → step s e s' → mark d s')
    (hfind : ∀ {d s e s'}, mark d s → step s e s' → R d e)
    {s s' : σ} {tr : List ε} (h : Run step s tr s') : tr.Pairwise R := by
  -- the marks have to be carried along: the relation alone says nothing about the next step
  have hboth : tr.Pairwise R ∧ ∀ d ∈ tr, mark d s' := by
    induction h with
    | nil =>
        refine ⟨List.Pairwise.nil, ?_⟩
        intro d hd
        cases hd
    | snoc hrun hlast ih =>
        have hmarks := ih.2
        constructor
        · rw [List.pairwise_append]
          refine ⟨ih.1, List.pairwise_singleton _ _, ?_⟩
          intro d hd e he
          rw [List.mem_singleton.mp he]
          exact hfind (hmarks d hd) hlast
        · intro d hd
          rcases List.mem_append.mp hd with hold | hlatest
          · exact hkeep (hmarks d hold) hlast
          · rw [List.mem_singleton.mp hlatest]
            exact hnew hlast
  exact hboth.1

end Run

/-! ## Runs over a ledger -/

variable {α : Type*} [DecidableEq α]

/-- The steps of a system act on its ledger: each event names the coins it spends, which
are unspent before it, and the coins it creates. -/
structure ActsOn (step : σ → ε → σ → Prop) (ledger : σ → Ledger α)
    (spent created : ε → List α) : Prop where
  ledger_eq : ∀ {s e s'}, step s e s' → ledger s' = (ledger s).apply (spent e) (created e)
  unspent : ∀ {s e s'}, step s e s' → ∀ u ∈ spent e, u ∈ (ledger s).unspent

namespace ActsOn

variable {step : σ → ε → σ → Prop} {ledger : σ → Ledger α} {spent created : ε → List α}

/-- A coin that is in the ledger was there at the start or was created on the way. -/
theorem mem_leaves (h : ActsOn step ledger spent created) {s s' : σ} {tr : List ε}
    (hrun : Run step s tr s') {u : α} :
    u ∈ (ledger s').leaves ↔ u ∈ (ledger s).leaves ∨ ∃ e ∈ tr, u ∈ created e := by
  induction hrun with
  | nil => simp
  | snoc _ hlast ih =>
      rw [h.ledger_eq hlast, Ledger.mem_leaves_apply, ih]
      simp only [List.mem_append, List.mem_singleton, or_and_right, exists_or, exists_eq_left,
        or_assoc]

/-- A coin is nullified exactly if it was at the start or an event spent it. -/
theorem mem_nullified (h : ActsOn step ledger spent created) {s s' : σ} {tr : List ε}
    (hrun : Run step s tr s') {u : α} :
    u ∈ (ledger s').nullified ↔ u ∈ (ledger s).nullified ∨ ∃ e ∈ tr, u ∈ spent e := by
  induction hrun with
  | nil => simp
  | snoc _ hlast ih =>
      rw [h.ledger_eq hlast, Ledger.mem_nullified_apply, ih]
      simp only [List.mem_append, List.mem_singleton, or_and_right, exists_or, exists_eq_left,
        or_assoc]

/-- No coin is spent by two events of a run. -/
theorem pairwise_spent (h : ActsOn step ledger spent created) {s s' : σ} {tr : List ε}
    (hrun : Run step s tr s') : tr.Pairwise fun d e => List.Disjoint (spent d) (spent e) := by
  refine hrun.pairwise (fun d s => ∀ u ∈ spent d, u ∈ (ledger s).nullified) ?_ ?_ ?_
  · intro s e s' hstep u hu
    rw [h.ledger_eq hstep, Ledger.mem_nullified_apply]
    exact .inr hu
  · intro d s e s' hmark hstep u hu
    rw [h.ledger_eq hstep, Ledger.mem_nullified_apply]
    exact .inl (hmark u hu)
  · intro d s e s' hmark hstep u hd he
    have hunspent : u ∈ (ledger s).unspent := h.unspent hstep u he
    exact (Ledger.mem_unspent.mp hunspent).2 (hmark u hd)

end ActsOn

end Runs

end Zolana
