import Mathlib.Data.Countable.Basic
import Mathlib.Logic.Equiv.List
import Zolana.Accounts
import Zolana.Spp.Execution

set_option autoImplicit false

/-! # Locked funds are never stuck

What an honest client can send, it can send in every state that the system reaches, whatever the
other parties have done before. So as long as a locked UTXO is unspent, the instruction that gives
it back is one step away. Besides the client's part this takes a transact over the one UTXO, which
SPP accepts once its hashes are defined.
-/

namespace Zolana

/-! ## One UTXO into one -/

/-- The opening that spends one UTXO into one. -/
def TxOpening.single (sp : Spend) (output : Utxo) (privateTxBlinding : Fr) : TxOpening :=
  ⟨[some sp], [some output], privateTxBlinding⟩

/-- A defined hash is published as its word. -/
theorem publishes_getD {x : Option Fr} (h : ∃ d, x = some d) : Publishes ((x.getD 0).toBytes) x := by
  obtain ⟨d, rfl⟩ := h
  exact ⟨d, rfl, Fr.ofBytes_toBytes d⟩

/-- SPP executes the transact that publishes it, if the hash is one that the builders compute. -/
theorem SpendsInto.exists_opens {C : Crypto} (hC : C.Total) {input output : Utxo}
    {blinding privateTxHash : Bytes 32} (h : SpendsInto C input output blinding privateTxHash)
    (secret : Fr) :
    ∃ t op, SppOpens C t op [⟨input, secret⟩] [output] blinding ∧ t.inputs.length = 1 := by
  obtain ⟨i, o, b, d, hi, ho, hb, hd, -⟩ := h.commits
  let op := TxOpening.single ⟨input, secret⟩ output b
  have hins : op.spent.mapM C.utxoHash = some [i] := by
    simp [op, TxOpening.single, TxOpening.spent, hi]
  have houts : op.created.mapM C.utxoHash = some [o] := by
    simp [op, TxOpening.single, TxOpening.created, ho]
  have hhash : op.privateTxHash C = some d := by
    rw [TxOpening.privateTxHash_of_utxos hins houts]
    exact hd
  refine ⟨op.publish C 0 none [], op, ⟨⟨?_, ?_, ?_⟩, rfl, rfl, hb⟩, rfl⟩
  · refine .cons ?_ .nil
    intro sp hsp
    obtain rfl : (⟨input, secret⟩ : Spend) = sp := Option.some.inj hsp
    obtain ⟨n, hn⟩ := hC.publicInput i input.blinding secret
    exact publishes_getD ⟨n, by simp [Spend.nullifier, hi, hn]⟩
  · exact .cons (publishes_getD ⟨o, ho⟩) .nil
  · exact publishes_getD ⟨d, hhash⟩

/-! ## Getting it back -/

/-- The instruction is a step from the state at `now` that spends `u` into `refund`, with whatever
accounts the runtime passes. -/
def Program.GivesBack (P : Program) (s : State) (now : Int64) (ins : Swap.Sdk.Instruction)
    (u refund : Utxo) : Prop :=
  ∀ accounts, ins.Passes accounts → ∃ cpi t op s',
    P.Step s (.instruction now accounts ins.data cpi t op) s' ∧
      s'.ledger = s.ledger.apply [u] [refund]

/-- An instruction that delivers gives back in every state in its window. -/
theorem Program.givesBack_of_delivers {P : Program} {window : ℤ → Prop} {refusal : ProgramError}
    {ins : Swap.Sdk.Instruction} {t : TransactIxData} {op : TxOpening} {u refund : Utxo}
    (h : ∀ accounts, ins.Passes accounts →
      P.Delivers window refusal accounts ins.data t op [u] [refund]) {s : State} {now : Int64}
    (hclock : s.clock ≤ now) (hopen : window now.toInt) (hunspent : u ∈ s.ledger.unspent) :
    P.GivesBack s now ins u refund := by
  intro accounts hpassed
  have hdelivers := h accounts hpassed
  have hall : ∀ v ∈ [u], v ∈ s.ledger.unspent := by
    intro v hv
    rw [List.mem_singleton.mp hv]
    exact hunspent
  obtain ⟨cpi, s', hstep⟩ := (hdelivers.step_iff s now).mpr ⟨hclock, hopen, hall⟩
  exact ⟨cpi, t, op, s', hstep, hdelivers.ledger s now cpi s' hstep⟩

/-! ## A codec for all values

For samples in which every value has to be written: the `i`-th one is `i` zero bytes. -/

section

variable (α : Type) [Countable α]

/-- The number of a value. -/
noncomputable def number : α → ℕ := (Countable.exists_injective_nat α).choose

theorem number_injective : Function.Injective (number α) :=
  (Countable.exists_injective_nat α).choose_spec

noncomputable def Codec.ofCountable : Codec α where
  deserializeExact bytes := Function.partialInv (number α) bytes.length
  serialize a := some (List.replicate (number α a) 0)

theorem Codec.ofCountable_roundTrips : (Codec.ofCountable α).RoundTrips := by
  rintro a _ ⟨⟩
  show Function.partialInv (number α) (List.replicate (number α a) (0 : UInt8)).length = some a
  rw [List.length_replicate]
  exact Function.partialInv_left (number_injective α) a

end

instance countable_uInt8 : Countable UInt8 :=
  Function.Injective.countable fun _ _ => UInt8.toNat_inj.mp

instance countable_uInt64 : Countable UInt64 :=
  Function.Injective.countable fun _ _ => UInt64.toNat_inj.mp

instance TransactInput.countable : Countable TransactInput := by
  refine Function.Injective.countable (f := TransactInput.nullifierHash) ?_
  rintro ⟨_⟩ ⟨_⟩ h
  exact congrArg _ h

instance TransactOutput.countable : Countable TransactOutput := by
  refine Function.Injective.countable (f := fun o => (o.utxoHash, o.ownerTag, o.data)) ?_
  rintro ⟨_, _, _⟩ ⟨_, _, _⟩ h
  simpa using h

instance MessageData.countable : Countable MessageData := by
  refine Function.Injective.countable (f := fun m => (m.viewTag, m.data)) ?_
  rintro ⟨_, _⟩ ⟨_, _⟩ h
  simpa using h

instance TransactIxData.countable : Countable TransactIxData := by
  refine Function.Injective.countable (f := fun t => ((t.expiryUnixTs, t.privateTxHash, t.circuit,
    t.txViewingPk, t.salt, t.proof), (t.inputs, t.interfaceTransfers, t.dataHash, t.ringDataHash),
    t.outputs, t.messages, t.treeContexts)) ?_
  rintro ⟨_, _, _, _, _, _, _, _, _, _, _, _, _⟩ ⟨_, _, _, _, _, _, _, _, _, _, _, _, _⟩ h
  simp only [Prod.mk.injEq] at h
  obtain ⟨⟨rfl, rfl, rfl, rfl, rfl, rfl⟩, ⟨rfl, rfl, rfl, rfl⟩, rfl, rfl, rfl⟩ := h
  rfl

instance PlainProof.countable : Countable PlainProof := by
  refine Function.Injective.countable (f := fun p => (p.proofA, p.proofB, p.proofC)) ?_
  rintro ⟨_, _, _⟩ ⟨_, _, _⟩ h
  simpa using h

end Zolana
