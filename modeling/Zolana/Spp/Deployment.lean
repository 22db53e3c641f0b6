import Zolana.Spp.Custody

set_option autoImplicit false

/-! # Several programs on one SPP

Programs that share the ledger, each with an authority of its own. Their instructions come in
any order, between deposits and transacts that anyone sends to SPP directly. No outer signer is
an authority, and the authority of one program signs nothing that another one sends. So from
where one program stands, the instructions of the others are transacts like any other: every
run of all programs is a run of each.
-/

namespace Zolana

/-- What happens in a run of several programs. -/
inductive JointEvent (ι : Type)
  /-- An accepted instruction of the program `i`. -/
  | instruction (i : ι) (now : Int64) (accounts : AccountIterator) (data : List UInt8) (cpi : Cpi)
      (t : TransactIxData) (op : TxOpening)
  | transact (signers : List Address) (t : TransactIxData) (op : TxOpening)
  | deposit (u : Utxo)

namespace JointEvent

variable {ι : Type}

/-- The UTXOs that the event spends. -/
def spent : JointEvent ι → List Utxo
  | .instruction _ _ _ _ _ _ op => op.spent
  | .transact _ _ op => op.spent
  | .deposit _ => []

variable [DecidableEq ι]

/-- The event as the program `i` sees it: another program's instruction is the transact that it
sends. -/
def view (i : ι) : JointEvent ι → Event
  | .instruction j now accounts data cpi t op =>
      if j = i then .instruction now accounts data cpi t op else .transact cpi.signers t op
  | .transact signers t op => .transact signers t op
  | .deposit u => .deposit u

@[simp] theorem view_spent (i : ι) (e : JointEvent ι) : (e.view i).spent = e.spent := by
  cases e with
  | instruction j now accounts data cpi t op =>
      simp only [view]
      split <;> rfl
  | transact signers t op => rfl
  | deposit u => rfl

end JointEvent

/-- Programs that share the hashes and the runtime, each with an authority of its own. -/
structure Deployment (ι : Type) where
  program : ι → Program
  crypto : Crypto
  runtime : Runtime
  crypto_eq : ∀ i, (program i).crypto = crypto
  runtime_eq : ∀ i, (program i).runtime = runtime
  authority_injective : Function.Injective fun i => (program i).authority
  /-- A program signs with its own authority and with no other PDA. -/
  pdaSigners : ∀ {i now accounts data cpi}, (program i).process now accounts data = .ok cpi →
    cpi.pdaSigners = [(program i).authority]

namespace Deployment

variable {ι : Type} {D : Deployment ι}

/-- The key is the authority of some program. -/
def IsAuthority (D : Deployment ι) (key : Address) : Prop := ∃ i, (D.program i).authority = key

/-- One step of the system. -/
inductive Step (D : Deployment ι) : State → JointEvent ι → State → Prop
  | instruction {s : State} {i : ι} {now : Int64} {accounts : AccountIterator}
      {data : List UInt8} {cpi : Cpi} {t : TransactIxData} {op : TxOpening} :
      s.clock ≤ now → (D.program i).process now accounts data = .ok cpi →
      (∀ a ∈ cpi.accounts, a.isSigner = true → ¬D.IsAuthority a.address) →
      cpi.Transact D.runtime t → SppAccepts D.crypto s.ledger cpi.signers t op →
      D.Step s (.instruction i now accounts data cpi t op)
        ⟨s.ledger.apply op.spent op.created, now⟩
  | transact {s : State} {signers : List Address} {t : TransactIxData} {op : TxOpening} :
      (∀ key ∈ signers, ¬D.IsAuthority key) → SppAccepts D.crypto s.ledger signers t op →
      D.Step s (.transact signers t op) ⟨s.ledger.apply op.spent op.created, s.clock⟩
  | deposit {s : State} (u : Utxo) : D.Step s (.deposit u) ⟨s.ledger.apply [] [u], s.clock⟩

/-- The runs of the system. -/
abbrev Runs (D : Deployment ι) : State → List (JointEvent ι) → State → Prop := Run D.Step

/-- One program cannot sign for another. -/
theorem authority_not_mem_signers {i j : ι} {now : Int64} {accounts : AccountIterator}
    {data : List UInt8} {cpi : Cpi} (hne : j ≠ i)
    (hprocess : (D.program j).process now accounts data = .ok cpi)
    (houter : ∀ a ∈ cpi.accounts, a.isSigner = true → ¬D.IsAuthority a.address) :
    (D.program i).authority ∉ cpi.signers := by
  rw [Cpi.signers, D.pdaSigners hprocess, List.mem_append, List.mem_singleton, not_or]
  constructor
  · intro hmem
    obtain ⟨a, ha, haddress⟩ := List.mem_map.mp hmem
    obtain ⟨haccount, hsigner⟩ := List.mem_filter.mp ha
    exact houter a haccount hsigner ⟨i, haddress.symm⟩
  · intro heq
    exact hne (D.authority_injective heq.symm)

variable [DecidableEq ι]

/-- **Every program runs as if alone.** A step of all programs is a step of the program `i`, which
sees the same ledger and a clock that stands still while others act. -/
theorem refines_program (D : Deployment ι) (i : ι) :
    Refines D.Step (D.program i).Step (fun s t => t.ledger = s.ledger ∧ t.clock ≤ s.clock)
      (fun e v => v = e.view i) where
  match_step := by
    rintro s e s' ⟨ledger, clock⟩ ⟨rfl, hclock⟩ hstep
    cases hstep with
    | @instruction j now accounts data cpi t op hnow hprocess houter hread hspp =>
        rw [← D.crypto_eq i] at hspp
        by_cases hji : j = i
        · subst hji
          rw [← D.runtime_eq j] at hread
          have hview : JointEvent.view j (.instruction j now accounts data cpi t op) =
              .instruction now accounts data cpi t op := if_pos rfl
          refine ⟨_, _, rfl, ?_, rfl, Int64.le_refl now⟩
          rw [hview]
          exact .instruction (Int64.le_trans hclock hnow) hprocess hread hspp
        · have hview : JointEvent.view i (.instruction j now accounts data cpi t op) =
              .transact cpi.signers t op := if_neg hji
          refine ⟨_, ⟨s.ledger.apply op.spent op.created, clock⟩, rfl, ?_, rfl,
            Int64.le_trans hclock hnow⟩
          rw [hview]
          exact .transact (authority_not_mem_signers hji hprocess houter) hspp
    | @transact signers t op houter hspp =>
        rw [← D.crypto_eq i] at hspp
        have hauthority : (D.program i).authority ∉ signers := fun hmem => houter _ hmem ⟨i, rfl⟩
        exact ⟨_, ⟨s.ledger.apply op.spent op.created, clock⟩, rfl, .transact hauthority hspp, rfl,
          hclock⟩
    | deposit u => exact ⟨_, ⟨s.ledger.apply [] [u], clock⟩, rfl, .deposit u, rfl, hclock⟩

/-- A run of all programs is one of the program `i`, over the same ledger. -/
theorem view_runs (i : ι) {clock : Int64} {tr : List (JointEvent ι)} {s : State}
    (hrun : D.Runs (State.init clock) tr s) :
    ∃ s', (D.program i).Runs (State.init clock) (tr.map (·.view i)) s' ∧ s'.ledger = s.ledger ∧
      s'.clock ≤ s.clock := by
  obtain ⟨vs, s', hviews, hrun', hledger, hclock⟩ :=
    (D.refines_program i).run ⟨rfl, Int64.le_refl clock⟩ hrun
  have hvs : vs = tr.map (·.view i) := by
    rw [← List.forall₂_eq_eq_eq, List.forall₂_map_right_iff]
    exact hviews.flip
  rw [← hvs]
  exact ⟨s', hrun', hledger, hclock⟩

/-- One event of the run settles the UTXO for the program `i`, in a permitted way, and no other
one spends it. -/
def SettledOnce {δ : Type*} (K : Keeper δ) (i : ι) (tr : List (JointEvent ι)) (s : State)
    (u : Utxo) : Prop :=
  ∃ tr₁ e tr₂ now d, tr = tr₁ ++ e :: tr₂ ∧ (e.view i).now = some now ∧ now ≤ s.clock ∧
    K.settles (e.view i) u d ∧ K.custody.Permits u d now.toInt ∧ ∀ e' ∈ tr₁ ++ tr₂, u ∉ e'.spent

/-- What one program has locked is there or was settled exactly once, whatever the others do. -/
theorem unspent_or_settledOnce {δ : Type*} {K : Keeper δ} {i : ι} (hK : K.Keeps)
    (hi : K.toProgram = D.program i) {clock : Int64} {tr : List (JointEvent ι)} {s : State}
    (hrun : D.Runs (State.init clock) tr s) (hadmits : ∀ e ∈ tr, K.admits (e.view i)) {u : Utxo}
    (hleaf : u ∈ s.ledger.leaves) (hu : K.Locks u) :
    (u ∈ s.ledger.unspent ∧ ∀ e ∈ tr, u ∉ e.spent) ∨ SettledOnce K i tr s u := by
  obtain ⟨s', hrun', hledger, hclock⟩ := view_runs i hrun
  rw [← hi] at hrun'
  have hadmits' : ∀ v ∈ tr.map (·.view i), K.admits v := by
    intro v hv
    obtain ⟨e, he, rfl⟩ := List.mem_map.mp hv
    exact hadmits e he
  rw [← hledger] at hleaf ⊢
  rcases (hK.custodial hrun' hadmits').unspent_or_settledOnce hleaf hu with
    ⟨hunspent, hnone⟩ | ⟨vs₁, v, vs₂, now, d, hsplit, hnow, hle, hsettles, hpermits, hnone⟩
  · refine .inl ⟨hunspent, fun e he => ?_⟩
    rw [← JointEvent.view_spent i]
    exact hnone _ (List.mem_map_of_mem he)
  · obtain ⟨tr₁, rest, rfl, rfl, hrest⟩ := List.map_eq_append_iff.mp hsplit
    obtain ⟨e, tr₂, rfl, rfl, rfl⟩ := List.map_eq_cons_iff.mp hrest
    refine .inr ⟨tr₁, e, tr₂, now, d, rfl, hnow, Int64.le_trans hle hclock, hsettles, hpermits, ?_⟩
    intro e' he'
    rw [← JointEvent.view_spent i]
    exact hnone _ (by rw [← List.map_append]; exact List.mem_map_of_mem he')

end Deployment

end Zolana
