import Zolana.Basic.Custody
import Zolana.Basic.Refinement
import Zolana.Spp.System

set_option autoImplicit false

/-! # UTXOs in custody

A program that locks UTXOs is a custodian: what it has locked stays unspent until one of its
instructions settles it, in a way that the program permits. `Keeper` says how a program settles
what it locks, `Keeper.Keeps` is what has to be shown of each of its steps, and the rest
follows: the runs of the system refine those of the custodian, and every locked UTXO is still
there or was settled exactly once.
-/

namespace Zolana

/-- The keys that sign the instruction, among all its accounts. -/
def Event.accountSigners : Event → List Address
  | .instruction _ accounts _ _ _ _ => (accounts.filter (·.isSigner)).map (·.address)
  | .transact _ _ _ => []
  | .deposit _ => []

namespace Program

/-- The program has locked the UTXO: it belongs to the authority and carries data. -/
def Locks (P : Program) (u : Utxo) : Prop := P.crypto.OwnedBy P.authority u ∧ u.dataHash ≠ 0

/-- SPP's rule for data: an output of the authority that carries data needs the authority's
signature. -/
def DataSigned (P : Program) (e : Event) : Prop :=
  ∀ u ∈ e.created, P.crypto.OwnedBy P.authority u → u.dataHash ≠ 0 → P.authority ∈ e.signers

variable {P : Program} {u : Utxo}

theorem Locks.not_dataless (h : P.Locks u) : ¬u.Dataless := fun hplain => h.2 hplain.1

/-- The locked UTXOs of a state, as items in custody. -/
def inCustody (P : Program) (s : State) : Custody.State Utxo where
  held := {u | u ∈ s.ledger.unspent ∧ P.Locks u}
  released := {u | u ∈ s.ledger.nullified ∧ P.Locks u}
  clock := s.clock.toInt
  disjoint := by
    rintro u ⟨hunspent, -⟩ ⟨hnullified, -⟩
    exact (Ledger.mem_unspent.mp hunspent).2 hnullified

/-- The event settles nothing: it spends nothing locked and locks at most one UTXO. -/
structure Spares (P : Program) (e : Event) : Prop where
  spent : ∀ u ∈ e.spent, ¬P.Locks u
  created : ∀ u ∈ e.created, ∀ v ∈ e.created, P.Locks u → P.Locks v → u = v

end Program

/-- A program with the ways in which it settles what it locks. -/
structure Keeper (δ : Type*) extends Program where
  /-- The ways of settling a UTXO, and which of them are permitted when. -/
  custody : Custody Utxo δ
  /-- The event settles the UTXO in this way. -/
  settles : Event → Utxo → δ → Prop
  /-- What is asked of an event. -/
  admits : Event → Prop

namespace Keeper

variable {δ : Type*} {K : Keeper δ}

/-- What an event means to the custodian. -/
inductive Reads (K : Keeper δ) (e : Event) : Custody.Act Utxo δ → Prop
  | idle : (∀ u ∈ e.spent, ¬K.Locks u) → K.Reads e .idle
  | accept {u : Utxo} : (∀ v ∈ e.spent, ¬K.Locks v) → u ∈ e.created → K.Locks u →
      K.Reads e (.accept u)
  | release {now : Int64} {u : Utxo} {d : δ} : e.now = some now → K.settles e u d →
      (∀ v ∈ e.spent, K.Locks v → v = u) → K.Reads e (.release now.toInt u d)

/-- An event that does not release a UTXO does not spend it either. -/
theorem Reads.not_mem_spent {e : Event} {act : Custody.Act Utxo δ} {u : Utxo}
    (h : K.Reads e act) (hu : K.Locks u) (hact : ¬act.Releases u) : u ∉ e.spent := by
  intro hspent
  cases h with
  | idle hspares => exact hspares u hspent hu
  | accept hspares _ _ => exact hspares u hspent hu
  | @release now v d _ _ honly =>
      obtain rfl : u = v := honly u hspent hu
      exact hact ⟨_, _, rfl⟩

/-- The step settles one locked UTXO, in a way permitted at its clock value. -/
structure Settled (K : Keeper δ) (s' : State) (e : Event) (u : Utxo) (d : δ) : Prop where
  now : e.now = some s'.clock
  locked : K.Locks u
  settles : K.settles e u d
  permits : K.custody.Permits u d s'.clock.toInt
  mem_spent : u ∈ e.spent
  only : ∀ v ∈ e.spent, K.Locks v → v = u
  created : ∀ v ∈ e.created, ¬K.Locks v

/-- Every step of the program settles nothing, or one locked UTXO as permitted. -/
structure Keeps (K : Keeper δ) : Prop where
  step : ∀ {s e s'}, K.Step s e s' → K.admits e → K.Spares e ∨ ∃ u d, K.Settled s' e u d

end Keeper

/-! ## One step -/

namespace Program

variable {P : Program} {s s' : State} {e : Event} {u : Utxo}

/-- Next to a change without data, one UTXO at most is locked. -/
theorem spares_of_created {change : Utxo} (hspent : ∀ v ∈ e.spent, ¬P.Locks v)
    (hcreated : e.created = [change, u]) (hchange : change.Dataless) : P.Spares e where
  spent := hspent
  created := by
    have honly : ∀ x ∈ e.created, P.Locks x → x = u := by
      intro x hx hlocked
      rw [hcreated] at hx
      rcases List.mem_cons.mp hx with rfl | hx
      · exact absurd hchange hlocked.not_dataless
      · exact List.mem_singleton.mp hx
    intro x hx y hy hlx hly
    rw [honly x hx hlx, honly y hy hly]

/-- What is unspent after a step was unspent or is created by it. -/
theorem Step.mem_unspent (h : P.Step s e s') :
    u ∈ s'.ledger.unspent ↔
      (u ∈ s.ledger.leaves ∨ u ∈ e.created) ∧ u ∉ s.ledger.nullified ∧ u ∉ e.spent := by
  rw [actsOn.ledger_eq h, Ledger.mem_unspent, Ledger.mem_leaves_apply, Ledger.mem_nullified_apply,
    not_or]

/-- What is nullified after a step was nullified or is spent by it. -/
theorem Step.mem_nullified (h : P.Step s e s') :
    u ∈ s'.ledger.nullified ↔ u ∈ s.ledger.nullified ∨ u ∈ e.spent := by
  rw [actsOn.ledger_eq h, Ledger.mem_nullified_apply]

/-- What does not come from the program's instructions leaves its locked UTXOs alone. -/
theorem Step.spares_of_direct (hC : P.crypto.Ideal) (h : P.Step s e s') (hsigned : P.DataSigned e)
    (hdirect : ∀ now accounts data cpi t op, e ≠ .instruction now accounts data cpi t op) :
    P.Spares e := by
  have hnot : P.authority ∉ e.signers := by
    cases h with
    | instruction _ _ _ _ => exact absurd rfl (hdirect _ _ _ _ _ _)
    | transact hnot _ => exact hnot
    | deposit _ => exact List.not_mem_nil
  constructor
  · rintro u hu ⟨howned, -⟩
    obtain ⟨now, accounts, data, cpi, t, op, heq, -⟩ := h.accepts_of_owned hC hu howned
    exact hdirect _ _ _ _ _ _ heq
  · rintro u hu _ - ⟨howned, hdata⟩ -
    exact absurd (hsigned u hu howned hdata) hnot

end Program

namespace Keeper

variable {δ : Type*} {K : Keeper δ} {s s' : State} {e : Event} {u : Utxo}

/-- The settlement of a UTXO that may be locked. If it is not, the event settles nothing. -/
theorem spares_or_settled {d : δ} (hnow : e.now = some s'.clock) (hmem : u ∈ e.spent)
    (hspent : ∀ v ∈ e.spent, K.Locks v → v = u) (hcreated : ∀ v ∈ e.created, v.Dataless)
    (hpermits : K.custody.Permits u d s'.clock.toInt) (hsettles : K.settles e u d) :
    K.Spares e ∨ ∃ u d, K.Settled s' e u d := by
  have hplain : ∀ v ∈ e.created, ¬K.Locks v := fun v hv hlocked =>
    hlocked.not_dataless (hcreated v hv)
  by_cases hlocked : K.Locks u
  · exact .inr ⟨u, d,
      { now := hnow
        locked := hlocked
        settles := hsettles
        permits := hpermits
        mem_spent := hmem
        only := hspent
        created := hplain }⟩
  · refine .inl ⟨?_, fun v hv _ _ hlv _ => absurd hlv (hplain v hv)⟩
    intro v hv hlv
    rw [hspent v hv hlv] at hlv
    exact hlocked hlv

theorem clock_le_of_step (h : K.Step s e s') : (K.inCustody s).clock ≤ (K.inCustody s').clock :=
  Int64.le_iff_toInt_le.mp h.clock_le

/-- A step that settles nothing accepts a new locked UTXO, or does nothing at all. -/
theorem custody_of_spares (h : K.Step s e s') (hspares : K.Spares e) :
    ∃ act, K.Reads e act ∧ K.custody.Step (K.inCustody s) act (K.inCustody s') := by
  have hreleased : (K.inCustody s').released = (K.inCustody s).released := by
    ext u
    show u ∈ s'.ledger.nullified ∧ K.Locks u ↔ u ∈ s.ledger.nullified ∧ K.Locks u
    rw [h.mem_nullified]
    constructor
    · rintro ⟨hold | hspent, hu⟩
      · exact ⟨hold, hu⟩
      · exact absurd hu (hspares.spent u hspent)
    · rintro ⟨hold, hu⟩
      exact ⟨.inl hold, hu⟩
  -- a UTXO created again after it was spent stays spent, so only a fresh one is accepted
  by_cases hnew : ∃ u ∈ e.created, K.Locks u ∧ u ∉ s.ledger.nullified
  · obtain ⟨u, hu, hlocked, hfresh⟩ := hnew
    refine ⟨.accept u, .accept hspares.spent hu hlocked,
      .accept (clock_le_of_step h) (fun hr => hfresh hr.1) ?_ hreleased⟩
    ext v
    show v ∈ s'.ledger.unspent ∧ K.Locks v ↔ v = u ∨ (v ∈ s.ledger.unspent ∧ K.Locks v)
    rw [h.mem_unspent, Ledger.mem_unspent]
    constructor
    · rintro ⟨⟨hleaf | hcreated, hnull, -⟩, hv⟩
      · exact .inr ⟨⟨hleaf, hnull⟩, hv⟩
      · exact .inl (hspares.created v hcreated u hu hv hlocked)
    · rintro (rfl | ⟨⟨hleaf, hnull⟩, hv⟩)
      · exact ⟨⟨.inr hu, hfresh, fun hspent => hspares.spent _ hspent hlocked⟩, hlocked⟩
      · exact ⟨⟨.inl hleaf, hnull, fun hspent => hspares.spent v hspent hv⟩, hv⟩
  · refine ⟨.idle, .idle hspares.spent, .idle (clock_le_of_step h) ?_ hreleased⟩
    ext v
    show v ∈ s'.ledger.unspent ∧ K.Locks v ↔ v ∈ s.ledger.unspent ∧ K.Locks v
    rw [h.mem_unspent, Ledger.mem_unspent]
    constructor
    · rintro ⟨⟨hleaf | hcreated, hnull, -⟩, hv⟩
      · exact ⟨⟨hleaf, hnull⟩, hv⟩
      · exact absurd ⟨v, hcreated, hv, hnull⟩ hnew
    · rintro ⟨⟨hleaf, hnull⟩, hv⟩
      exact ⟨⟨.inl hleaf, hnull, fun hspent => hspares.spent v hspent hv⟩, hv⟩

/-- A step that settles a UTXO releases it. -/
theorem custody_of_settled (h : K.Step s e s') {d : δ} (hs : K.Settled s' e u d) :
    ∃ act, K.Reads e act ∧ K.custody.Step (K.inCustody s) act (K.inCustody s') := by
  have hheld : u ∈ (K.inCustody s).held := ⟨Program.actsOn.unspent h u hs.mem_spent, hs.locked⟩
  have hpermits : K.custody.Permits u d (K.inCustody s').clock := hs.permits
  refine ⟨.release (K.inCustody s').clock u d, .release hs.now hs.settles hs.only,
    .release (clock_le_of_step h) hheld hpermits ?_ ?_⟩
  · ext v
    show v ∈ s'.ledger.unspent ∧ K.Locks v ↔ (v ∈ s.ledger.unspent ∧ K.Locks v) ∧ ¬v = u
    rw [h.mem_unspent, Ledger.mem_unspent]
    constructor
    · rintro ⟨⟨hleaf | hcreated, hnull, hspent⟩, hv⟩
      · refine ⟨⟨⟨hleaf, hnull⟩, hv⟩, ?_⟩
        rintro rfl
        exact hspent hs.mem_spent
      · exact absurd hv (hs.created v hcreated)
    · rintro ⟨⟨⟨hleaf, hnull⟩, hv⟩, hne⟩
      exact ⟨⟨.inl hleaf, hnull, fun hspent => hne (hs.only v hspent hv)⟩, hv⟩
  · ext v
    show v ∈ s'.ledger.nullified ∧ K.Locks v ↔ v = u ∨ (v ∈ s.ledger.nullified ∧ K.Locks v)
    rw [h.mem_nullified]
    constructor
    · rintro ⟨hold | hspent, hv⟩
      · exact .inr ⟨hold, hv⟩
      · exact .inl (hs.only v hspent hv)
    · rintro (rfl | ⟨hold, hv⟩)
      · exact ⟨.inr hs.mem_spent, hs.locked⟩
      · exact ⟨.inl hold, hv⟩

/-! ## Runs -/

/-- **A program that keeps what it locks is a custodian.** Its steps refine those of the
custodian, the locked UTXOs of a state being the items in custody. -/
theorem Keeps.refines (h : K.Keeps) :
    Refines (fun s e s' => K.Step s e s' ∧ K.admits e) K.custody.Step
      (fun s c => c = K.inCustody s) K.Reads where
  match_step := by
    rintro s e s' _ rfl ⟨hstep, hadmits⟩
    have hact : ∃ act, K.Reads e act ∧
        K.custody.Step (K.inCustody s) act (K.inCustody s') := by
      rcases h.step hstep hadmits with hspares | ⟨u, d, hsettled⟩
      · exact custody_of_spares hstep hspares
      · exact custody_of_settled hstep hsettled
    obtain ⟨act, hreads, hcustody⟩ := hact
    exact ⟨act, _, hreads, hcustody, rfl⟩

/-- The run is one of the custodian, event by event. -/
def Custodial (K : Keeper δ) (s : State) (tr : List Event) (s' : State) : Prop :=
  ∃ acts, List.Forall₂ K.Reads tr acts ∧
    K.custody.Runs (K.inCustody s) acts (K.inCustody s')

/-- Runs of admitted events are custodial. -/
theorem Keeps.custodial (h : K.Keeps) {tr : List Event} (hrun : K.Runs s tr s')
    (hadmits : ∀ e ∈ tr, K.admits e) : K.Custodial s tr s' := by
  obtain ⟨acts, c, hreads, hcustody, rfl⟩ := h.refines.run rfl (hrun.restrict hadmits)
  exact ⟨acts, hreads, hcustody⟩

/-- One event of the run settles the UTXO, in a permitted way, and no other one spends it. -/
def SettledOnce (K : Keeper δ) (tr : List Event) (s : State) (u : Utxo) : Prop :=
  ∃ tr₁ e tr₂ now d, tr = tr₁ ++ e :: tr₂ ∧ e.now = some now ∧ now ≤ s.clock ∧ K.settles e u d ∧
    K.custody.Permits u d now.toInt ∧ ∀ e' ∈ tr₁ ++ tr₂, u ∉ e'.spent

/-- **Every locked UTXO is there, or was settled exactly once.** -/
theorem Custodial.unspent_or_settledOnce {clock : Int64} {tr : List Event}
    (h : K.Custodial (State.init clock) tr s) (hleaf : u ∈ s.ledger.leaves) (hu : K.Locks u) :
    (u ∈ s.ledger.unspent ∧ ∀ e ∈ tr, u ∉ e.spent) ∨ K.SettledOnce tr s u := by
  obtain ⟨acts, hreads, hcustody⟩ := h
  have hfresh : u ∉ (K.inCustody (State.init clock)).released := fun hr => by cases hr.1
  have hin : u ∈ (K.inCustody s).held ∨ u ∈ (K.inCustody s).released := by
    by_cases hnull : u ∈ s.ledger.nullified
    · exact .inr ⟨hnull, hu⟩
    · exact .inl ⟨Ledger.mem_unspent.mpr ⟨hleaf, hnull⟩, hu⟩
  rcases Custody.held_or_released_once hcustody hfresh hin with
    ⟨hheld, hnone⟩ | ⟨acts₁, now, d, acts₂, rfl, hpermits, hclock, hnone⟩
  · refine .inl ⟨hheld.1, ?_⟩
    intro e he
    obtain ⟨act, hact, hread⟩ := exists_mem_of_forall₂ hreads he
    exact hread.not_mem_spent hu (hnone act hact)
  · obtain ⟨tr₁, e, tr₂, rfl, hbefore, hread, hafter⟩ := exists_split_of_forall₂ hreads
    cases hread with
    | @release now _ _ hnow hsettles _ =>
        refine .inr ⟨tr₁, e, tr₂, now, d, rfl, hnow, Int64.le_iff_toInt_le.mpr hclock, hsettles,
          hpermits, ?_⟩
        intro e' he'
        have hothers : List.Forall₂ K.Reads (tr₁ ++ tr₂) (acts₁ ++ acts₂) :=
          List.rel_append hbefore hafter
        obtain ⟨act, hact, hread'⟩ := exists_mem_of_forall₂ hothers he'
        exact hread'.not_mem_spent hu (hnone act hact)

end Keeper

end Zolana
