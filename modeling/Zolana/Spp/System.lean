import Zolana.Spp.Transact

set_option autoImplicit false

/-! # A program and SPP, over whole runs

A program owns a PDA, the *authority*, and lets SPP execute transacts that the authority
signs. Around it anyone can deposit and can send transacts to SPP directly, signed by any
keys except the authority: a PDA has no private key, and no other program can sign for it.
The clock never runs backwards.

The program is a parameter here. What holds for each: a UTXO of the authority leaves the
unspent set only through an instruction that the program accepted.
-/

namespace Zolana

/-- What happens in a run. -/
inductive Event
  /-- An accepted instruction, with the CPI it makes and what SPP does with it. -/
  | instruction (now : Int64) (accounts : AccountIterator) (data : List UInt8) (cpi : Cpi)
      (t : TransactIxData) (op : TxOpening)
  /-- A transact sent to SPP directly. -/
  | transact (signers : List Address) (t : TransactIxData) (op : TxOpening)
  /-- A deposit, which appends a UTXO. -/
  | deposit (u : Utxo)

namespace Event

/-- The UTXOs that the event spends. -/
def spent : Event → List Utxo
  | .instruction _ _ _ _ _ op => op.spent
  | .transact _ _ op => op.spent
  | .deposit _ => []

/-- The UTXOs that the event creates. -/
def created : Event → List Utxo
  | .instruction _ _ _ _ _ op => op.created
  | .transact _ _ op => op.created
  | .deposit u => [u]

/-- The tag of the instruction, its first data byte. -/
def tag : Event → Option UInt8
  | .instruction _ _ data _ _ _ => data.head?
  | .transact _ _ _ => none
  | .deposit _ => none

/-- The clock value that the instruction sees. -/
def now : Event → Option Int64
  | .instruction now _ _ _ _ _ => some now
  | .transact _ _ _ => none
  | .deposit _ => none

/-- The keys that sign what SPP executes. -/
def signers : Event → List Address
  | .instruction _ _ _ cpi _ _ => cpi.signers
  | .transact signers _ _ => signers
  | .deposit _ => []

end Event

/-- The ledger and the clock. -/
structure State where
  ledger : Ledger Utxo
  clock : Int64

/-- The start of every run: nothing on the ledger. -/
def State.init (clock : Int64) : State := ⟨Ledger.empty, clock⟩

/-- A program as SPP sees it. -/
structure Program where
  crypto : Crypto
  runtime : Runtime
  /-- The PDA that signs the program's CPIs. -/
  authority : Address
  /-- `process_instruction` at a clock value. -/
  process : Int64 → AccountIterator → List UInt8 → ProgramResult Cpi

/-- One step of the system. -/
inductive Program.Step (P : Program) : State → Event → State → Prop
  | instruction {s : State} {now : Int64} {accounts : AccountIterator} {data : List UInt8}
      {cpi : Cpi} {t : TransactIxData} {op : TxOpening} :
      s.clock ≤ now → P.process now accounts data = .ok cpi → cpi.Transact P.runtime t →
      SppAccepts P.crypto s.ledger cpi.signers t op →
      P.Step s (.instruction now accounts data cpi t op)
        ⟨s.ledger.apply op.spent op.created, now⟩
  | transact {s : State} {signers : List Address} {t : TransactIxData} {op : TxOpening} :
      P.authority ∉ signers → SppAccepts P.crypto s.ledger signers t op →
      P.Step s (.transact signers t op) ⟨s.ledger.apply op.spent op.created, s.clock⟩
  | deposit {s : State} (u : Utxo) : P.Step s (.deposit u) ⟨s.ledger.apply [] [u], s.clock⟩

/-- The runs of the system. -/
abbrev Program.Runs (P : Program) : State → List Event → State → Prop := Run P.Step

namespace Program

variable {P : Program}

/-! ## What a step does -/

theorem actsOn : ActsOn P.Step State.ledger Event.spent Event.created where
  ledger_eq := by
    intro s e s' h
    cases h with
    | instruction _ _ _ _ => rfl
    | transact _ _ => rfl
    | deposit u => rfl
  unspent := by
    intro s e s' h u hu
    cases h with
    | instruction _ _ _ hspp => exact hspp.unspent u hu
    | transact _ hspp => exact hspp.unspent u hu
    | deposit v => cases hu

theorem Step.clock_le {s s' : State} {e : Event} (h : P.Step s e s') : s.clock ≤ s'.clock := by
  cases h with
  | instruction hclock _ _ _ => exact hclock
  | transact _ _ => exact Int64.le_refl _
  | deposit u => exact Int64.le_refl _

/-- An accepted instruction as a step of the system. -/
structure Accepts (P : Program) (s : State) (now : Int64) (accounts : AccountIterator)
    (data : List UInt8) (cpi : Cpi) (t : TransactIxData) (op : TxOpening) : Prop where
  clock_le : s.clock ≤ now
  process : P.process now accounts data = .ok cpi
  transact : cpi.Transact P.runtime t
  spp : SppAccepts P.crypto s.ledger cpi.signers t op

/-- No step spends a UTXO twice. -/
theorem Step.nodup_spent {s s' : State} {e : Event} (h : P.Step s e s') : e.spent.Nodup := by
  cases h with
  | instruction _ _ _ hspp => exact hspp.nodup
  | transact _ hspp => exact hspp.nodup
  | deposit u => exact List.nodup_nil

/-- **Only the program moves what its authority owns.** A step that spends a UTXO of the
authority is an accepted instruction. -/
theorem Step.accepts_of_owned (hC : P.crypto.Ideal) {s s' : State} {e : Event}
    (h : P.Step s e s') {u : Utxo} (hu : u ∈ e.spent) (howned : P.crypto.OwnedBy P.authority u) :
    ∃ now accounts data cpi t op, e = .instruction now accounts data cpi t op ∧
      P.Accepts s now accounts data cpi t op := by
  cases h with
  | @instruction now accounts data cpi t op hclock hprocess hread hspp =>
      exact ⟨now, accounts, data, cpi, t, op, rfl, hclock, hprocess, hread, hspp⟩
  | @transact signers t op hauthority hspp =>
      -- the signer who owns `u` would have to be the authority itself
      obtain ⟨signer, hsigner, hown⟩ := hspp.exists_signer hu
      have heq : signer = P.authority := hC.ownedBy_unique hown howned
      exact absurd (heq ▸ hsigner) hauthority
  | deposit v => cases hu

/-! ## What a run does -/

theorem runs_clock_le {s s' : State} {tr : List Event} (h : P.Runs s tr s') :
    s.clock ≤ s'.clock := by
  have hinit : s.clock ≤ s.clock := Int64.le_refl s.clock
  have hstep : ∀ (tr : List Event) s₁ e s₂, P.Runs s tr s₁ → s.clock ≤ s₁.clock →
      P.Step s₁ e s₂ → s.clock ≤ s₂.clock := by
    intro _ s₁ e s₂ _ ih hlast
    have hnext : s₁.clock ≤ s₂.clock := hlast.clock_le
    exact Int64.le_trans ih hnext
  exact h.invariant (fun (_ : List Event) (s₁ : State) => s.clock ≤ s₁.clock) hinit hstep

/-- No UTXO is spent twice in a run. -/
theorem runs_nodup_spent {s s' : State} {tr : List Event} (h : P.Runs s tr s') :
    (tr.flatMap Event.spent).Nodup := by
  rw [List.nodup_flatMap]
  refine ⟨?_, actsOn.pairwise_spent h⟩
  intro e he
  obtain ⟨_, _, s₁, s₂, -, -, hstep, -⟩ := h.exists_step_of_mem he
  exact hstep.nodup_spent

/-- Every event of a run that spends a UTXO of the authority is an instruction, accepted in
a state that the run passes and no later than its last clock value. -/
theorem runs_accepts_of_owned (hC : P.crypto.Ideal) {s s' : State} {tr : List Event}
    (h : P.Runs s tr s') {e : Event} (he : e ∈ tr) {u : Utxo} (hu : u ∈ e.spent)
    (howned : P.crypto.OwnedBy P.authority u) :
    ∃ now accounts data cpi t op s₁, e = .instruction now accounts data cpi t op ∧
      P.Accepts s₁ now accounts data cpi t op ∧ now ≤ s'.clock := by
  obtain ⟨_, _, s₁, s₂, -, -, hstep, hrest⟩ := h.exists_step_of_mem he
  obtain ⟨now, accounts, data, cpi, t, op, rfl, hacc⟩ := hstep.accepts_of_owned hC hu howned
  have hclock : now ≤ s'.clock := by
    cases hstep
    exact runs_clock_le hrest
  exact ⟨now, accounts, data, cpi, t, op, s₁, rfl, hacc, hclock⟩

/-- A UTXO that a run from the empty ledger creates is unspent at its end, or an event of the
run spent it. -/
theorem runs_unspent_or_spent {clock : Int64} {s : State} {tr : List Event}
    (h : P.Runs (State.init clock) tr s) {u : Utxo} {e : Event} (he : e ∈ tr)
    (hu : u ∈ e.created) : u ∈ s.ledger.unspent ∨ ∃ e' ∈ tr, u ∈ e'.spent := by
  have hleaf : u ∈ s.ledger.leaves := (actsOn.mem_leaves h).mpr (.inr ⟨e, he, hu⟩)
  by_cases hnull : u ∈ s.ledger.nullified
  · refine .inr ?_
    rcases (actsOn.mem_nullified h).mp hnull with hinit | hspent
    · cases hinit
    · exact hspent
  · exact .inl (Ledger.mem_unspent.mpr ⟨hleaf, hnull⟩)

end Program

end Zolana
