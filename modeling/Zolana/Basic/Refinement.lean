import Mathlib.Data.List.Forall2
import Zolana.Basic.Ledger

set_option autoImplicit false

/-! # Refinement between step relations

A step relation refines another one if each of its steps can be matched by a step of the
other from every related state. `reads` says which event of the abstract relation an event
of the concrete one stands for. A refinement of steps is a refinement of runs, event by
event.

The second half is for concrete steps that refine only under a condition on their events.
-/

namespace Zolana

variable {σ τ ε δ : Type*} {step : σ → ε → σ → Prop} {step' : τ → δ → τ → Prop}

/-- Every step between related states is matched by one of the abstract relation. -/
structure Refines (step : σ → ε → σ → Prop) (step' : τ → δ → τ → Prop) (rel : σ → τ → Prop)
    (reads : ε → δ → Prop) : Prop where
  match_step : ∀ {s e s' t}, rel s t → step s e s' → ∃ d t', reads e d ∧ step' t d t' ∧ rel s' t'

namespace Refines

variable {rel : σ → τ → Prop} {reads : ε → δ → Prop}

/-- A refinement of steps is one of runs. -/
theorem run (h : Refines step step' rel reads) {s s' : σ} {t : τ} {tr : List ε} (hst : rel s t)
    (hrun : Run step s tr s') :
    ∃ tr' t', List.Forall₂ reads tr tr' ∧ Run step' t tr' t' ∧ rel s' t' := by
  induction hrun with
  | nil => exact ⟨[], t, .nil, .nil t, hst⟩
  | @snoc s₁ s₂ tr e _ hlast ih =>
      obtain ⟨tr', t', hreads, hrun', hrel⟩ := ih
      obtain ⟨d, t'', hread, hstep, hrel'⟩ := h.match_step hrel hlast
      refine ⟨tr' ++ [d], t'', ?_, hrun'.snoc hstep, hrel'⟩
      exact List.rel_append hreads (.cons hread .nil)

end Refines

/-! ## Conditions on events -/

/-- A run whose events all meet a condition is a run of the steps that meet it. -/
theorem Run.restrict {P : ε → Prop} {s s' : σ} {tr : List ε} (hrun : Run step s tr s')
    (hP : ∀ e ∈ tr, P e) : Run (fun s e s' => step s e s' ∧ P e) s tr s' := by
  induction hrun with
  | nil => exact .nil _
  | @snoc s₁ s₂ tr e _ hlast ih =>
      have hprefix : ∀ d ∈ tr, P d := fun d hd => hP d (List.mem_append_left _ hd)
      exact (ih hprefix).snoc ⟨hlast, hP e (by simp)⟩

/-! ## Related traces -/

/-- The event of a trace that a position of a related trace stands for. -/
theorem exists_split_of_forall₂ {reads : ε → δ → Prop} {tr : List ε} {tr₁ tr₂ : List δ} {d : δ}
    (h : List.Forall₂ reads tr (tr₁ ++ d :: tr₂)) :
    ∃ us e vs, tr = us ++ e :: vs ∧ List.Forall₂ reads us tr₁ ∧ reads e d ∧
      List.Forall₂ reads vs tr₂ := by
  induction tr₁ generalizing tr with
  | nil =>
      obtain ⟨e, vs, hread, hrest, rfl⟩ := List.forall₂_cons_right_iff.mp h
      exact ⟨[], e, vs, rfl, .nil, hread, hrest⟩
  | cons d' tr₁ ih =>
      obtain ⟨e', rest, hread', hrest, rfl⟩ := List.forall₂_cons_right_iff.mp h
      obtain ⟨us, e, vs, rfl, hus, hread, hvs⟩ := ih hrest
      exact ⟨e' :: us, e, vs, rfl, .cons hread' hus, hread, hvs⟩

/-- Every event of a trace has one in a related trace. -/
theorem exists_mem_of_forall₂ {reads : ε → δ → Prop} {tr : List ε} {tr' : List δ}
    (h : List.Forall₂ reads tr tr') {e : ε} (he : e ∈ tr) : ∃ d ∈ tr', reads e d := by
  induction h with
  | nil => cases he
  | cons hread _ ih =>
      rcases List.mem_cons.mp he with rfl | he
      · exact ⟨_, List.mem_cons_self, hread⟩
      · obtain ⟨d, hd, hread'⟩ := ih he
        exact ⟨d, List.mem_cons_of_mem _ hd, hread'⟩

end Zolana
