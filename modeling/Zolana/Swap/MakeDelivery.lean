import Zolana.Swap.Delivery
import Zolana.Swap.Making

set_option autoImplicit false

/-! # Makes that go through

A make is not bound to a window. What can keep SPP from executing it is on the way there: the
`private_tx_hash` of the builder has to be the one over the wallet's own input, the change has to
be what the input leaves, and the marker has to survive being blanked.
-/

namespace Zolana.Swap.Sdk

variable {X : ClientContext}

/-- `SppTxHashes::new`. -/
def SppTxHashes.new (privateTxBlinding : SppProofInputs → Option (Bytes 32))
    (inputs : SppProofInputs) : SdkResult SppTxHashes := do
  let (sourceInputHash, blinding, outputTreeId) ← sppTxHashes privateTxBlinding inputs
  return ⟨sourceInputHash, blinding, outputTreeId⟩

theorem SppTxHashes.new_eq_ok {privateTxBlinding : SppProofInputs → Option (Bytes 32)}
    {inputs : SppProofInputs} {hashes : SppTxHashes} :
    SppTxHashes.new privateTxBlinding inputs = .ok hashes ↔
      sppTxHashes privateTxBlinding inputs =
        .ok (hashes.sourceInputHash, hashes.privateTxBlinding, hashes.outputTreeId) := by
  simp only [SppTxHashes.new, SdkResult.bind_eq_ok, pure, Except.pure, Except.ok.injEq]
  constructor
  · rintro ⟨_, h, rfl⟩
    exact h
  · intro h
    exact ⟨_, h, rfl⟩

/-- What the client sends to SPP with a make: it turns the wallet's input into change and order,
which lead the outputs, and its message is the marker of the order for `taker`. -/
structure MakeProofInputParams.Sends (X : ClientContext) (p : MakeProofInputParams)
    (inputs : MakeProofInputs) (payer : Address) (taker : ShieldedAddress) (sp : Spend)
    (t : TransactIxData) (op : TxOpening) : Prop where
  opens : SppOpens X.env.crypto t op [sp] [inputs.change, inputs.orderUtxo]
    p.sppTxHashes.privateTxBlinding
  leads : LeadsWithOutputs t
  marked : ∃ output orderHash message,
    p.orderUtxo.outputUtxo X.toContext taker.viewingPubkey = .ok output ∧
    X.wallet.outputHash output p.sppTxHashes.outputTreeId = some orderHash ∧
    OrderMarker.message X.toIndexContext ⟨orderHash, payer, taker⟩ = .ok message ∧
    t.messages = [message]

/-- The order that the client announces is the second output of the transact. -/
theorem MakeProofInputParams.Sends.honest (hX : X.Documented) (hC : X.env.crypto.Ideal)
    {p : MakeProofInputParams} {inputs : MakeProofInputs} (hbuilt : inputs.Computed X.toProofContext p)
    (hsat : inputs.witness.Satisfied X.env.crypto) {payer : Address}
    {taker : ShieldedAddress} {sp : Spend} {t : TransactIxData} {op : TxOpening}
    (h : p.Sends X inputs payer taker sp t op) (tree : Address) (proof : MakeProof) :
    Make.Honest ⟨payer, tree, proof, t⟩ := by
  obtain ⟨output, orderHash, message, houtput, hhash, hmessage, hmessages⟩ := h.marked
  obtain ⟨output', houtput', hhash'⟩ :=
    hbuilt.opens.outputHash hX.wallet hX.client taker.viewingPubkey
  have hsame : output = output' := Except.ok.inj (houtput.symm.trans houtput')
  subst hsame
  obtain ⟨d, hd, hword⟩ := Option.map_eq_some_iff.mp (hhash'.symm.trans hhash)
  have hne : inputs.change ≠ inputs.orderUtxo := by
    intro heq
    have hplain : inputs.orderUtxo.Dataless := heq ▸ hsat.change
    exact hsat.order.not_dataless hC hplain
  obtain ⟨o, ho, hohash⟩ := (second_output_eq_order_iff hC h.opens.commits h.opens.created hne
    hd).mpr h.leads
  refine ⟨message, o, hmessages, ho, ?_⟩
  rw [OrderMarker.message_data hmessage, hohash, hword]

/-- **An honest make goes through.** For an order of nonzero amounts and one of the two modes, with
the change that the wallet's input leaves, the proof inputs of the builder can be proved. The
instruction, over a transact that announces the order, is accepted at every time and creates the
order in every state in which the input is unspent. -/
theorem make_goes_through (hX : X.Documented) (hC : X.env.crypto.Ideal) (p : MakeProofInputParams)
    (hsource : p.orderUtxo.sourceAmount ≠ 0) (hdestination : p.orderUtxo.terms.destinationAmount ≠ 0)
    (hmode : p.orderUtxo.terms.takeMode = TAKE_MODE_DERIVED ∨
      p.orderUtxo.terms.takeMode = TAKE_MODE_VERIFIABLE)
    (privateTxBlinding : SppProofInputs → Option (Bytes 32)) (funding : SppProofInputs)
    (hhashes : SppTxHashes.new privateTxBlinding funding = .ok p.sppTxHashes)
    (hleftover : inputSum funding.inputUtxos p.orderUtxo.sourceMint.asset -
      p.orderUtxo.sourceAmount.toNat = p.change.amount.toNat) {inputs : MakeProofInputs}
    (h : p.toProofInputs X.toProofContext = .ok inputs) :
    ∃ proof, proveMake X.prover inputs = .ok proof ∧
      ∀ payer tree taker sp t op, funding.FundedBy X.env.crypto X.wallet payer sp →
        p.Sends X inputs payer taker sp t op →
        ∀ ins bytes accounts,
          Make.instruction X.toInstructionContext ⟨payer, tree, proof.into, t⟩ = .ok ins →
          X.env.runtime.transact.serialize t = some bytes → ins.Fits 1 accounts →
          ins.programId = ID ∧ ∀ refusal,
            (program X.env).Delivers (fun _ => True) refusal accounts ins.data t op [sp.utxo]
              [inputs.change, inputs.orderUtxo] := by
  have hbuilt := MakeProofInputParams.toProofInputs_eq_ok.mp h
  have hsat : inputs.witness.Satisfied X.env.crypto :=
    (hbuilt.satisfied_iff hX.wallet hX.client hX.keys).mpr ⟨hsource, hdestination, hmode⟩
  obtain ⟨_, -, _, -, hprivate⟩ := hbuilt.locksInto.calls
  obtain ⟨_, _, _, d, -, -, -, -, hword⟩ := PrivateTxHash_eq_ok.mp hprivate
  obtain ⟨proof, hprove, hverify⟩ := exists_proveMake hX.prover hsat
    (by rw [hword]; exact Fr.ofBytes_toBytes d)
  refine ⟨proof, hprove, ?_⟩
  intro payer tree taker sp t op hfunded hsends ins bytes accounts hins hbytes ⟨hpassed, hroom⟩
  have hhash : t.privateTxHash = inputs.privateTxHash :=
    hbuilt.locksInto.opens (hfunded.source (SppTxHashes.new_eq_ok.mp hhashes)) hsends.opens
  have hverify' : verifyGroth16 X.env proof.into.compressed t.privateTxHash makeVerifyingkey =
      .ok () := by
    rw [hhash]
    exact hverify
  have hhonest := hsends.honest hX hC hbuilt hsat tree proof.into
  have hread := fun now =>
    Make.processInstruction_eq hX.instructions.make hins hpassed now hverify'
  simp only [Make.instruction, SdkResult.bind_eq_ok, orErr_eq_ok, pure, Except.pure,
    Except.ok.injEq] at hins
  obtain ⟨ix, -, rfl⟩ := hins
  obtain ⟨view, iter, rfl, -, -, -, hiter⟩ := PassedFor.payer hpassed
  have hiter : PassedFor (X.layout.accounts payer tree t ++ []) iter := by
    rw [List.append_nil]
    exact hiter
  obtain ⟨cpi, hforward, hcpi, hpayer, -⟩ := forward_eq_ok_of_passed hX.instructions hiter
    (by rw [List.length_cons] at hroom; omega) hbytes
  refine ⟨rfl, ?_⟩
  obtain ⟨hasset, hamount, -⟩ := hbuilt.opens.asset_amount_blinding hX.client
  obtain ⟨hpays, -⟩ := hbuilt.change_checked.pays hX.client hbuilt.changeUtxo
  have hready : SppReady X.env.crypto cpi.signers t op :=
    hsends.opens.ready_lock hX.wallet hfunded hsource hleftover hasset hsat.change_asset hamount
      hpays.amount hpayer
  intro refusal
  have hgoes : (program X.env).GoesThrough (fun _ => True) refusal (view :: iter) (Tag.make :: ix)
      cpi t op := by
    refine .of_check (fun _ _ => rfl) (fun _ hclosed => absurd trivial hclosed) ?_ hforward hcpi
      hready
    intro now
    show processInstruction X.env ID now (view :: iter) (Tag.make :: ix) = _
    rw [hread now, Make.writeMarker_of_honest hhonest]
    rfl
  exact hgoes.delivers hsends.opens.spent hsends.opens.created

/-! ## The make of the sample order -/

namespace Sample

open Swap.Sample

/-- The maker's funds, next to a dummy. -/
def funding : SppProofInputs where
  inputUtxos :=
    [⟨⟨.ed25519 maker, ⟨Bytes.replicate 32 20, 2⟩, 8, Fr.toBytes 31, none⟩, Fr.toBytes 100,
        Fr.toBytes 1014, Fr.toBytes 1001, none, none, 0, 4⟩,
      ⟨⟨.ed25519 maker, ⟨Bytes.replicate 32 0, 1⟩, 0, Fr.toBytes 0, none⟩, Fr.toBytes 0, Fr.toBytes 7,
        Fr.toBytes 0, none, none, 0, 0⟩]
  blindingSeed := Fr.toBytes (53 - 1014)
  outputTreeId := 0

/-- The blinding derives from the nullifier of the first input. -/
def privateTxBlinding (inputs : SppProofInputs) : Option (Bytes 32) := do
  let input ← inputs.inputUtxos.head?
  let nullifier ← Fr.ofBytes input.nullifier
  let seed ← Fr.ofBytes inputs.blindingSeed
  (crypto.derivePrivateTxBlinding nullifier seed).map Fr.toBytes

def fundedParams : MakeProofInputParams where
  orderUtxo := orderUtxo TAKE_MODE_DERIVED 33
  change := .plain ⟨Bytes.replicate 32 20, 2⟩ 1 (Fr.toBytes 32) makerAddress
  sppTxHashes := ⟨Fr.toBytes 100, Fr.toBytes 53, 0⟩

def fundedInputs : MakeProofInputs where
  privateTxHash := Fr.toBytes 503
  order := ⟨Fr.toBytes 21, 9, Fr.toBytes 1003, Bytes.replicate 33 0, 100, Fr.toBytes 12, 0⟩
  orderUtxo := order
  change := Swap.Sample.change
  sourceInputHash := Fr.toBytes 100
  privateTxBlinding := Fr.toBytes 53

theorem funding_fundedBy :
    funding.FundedBy crypto clientContext.wallet maker ⟨Swap.Sample.funds, 5⟩ where
  first := ⟨_, _, rfl, ⟨rfl, rfl, by decide, by decide, by decide⟩, by decide⟩

theorem fundedParams_sends : fundedParams.Sends clientContext fundedInputs maker takerAddress
    ⟨Swap.Sample.funds, 5⟩ (makeTransact makeMarker) Swap.Sample.makeOpening where
  opens := ⟨by decide, rfl, rfl, by decide⟩
  leads :=
    ⟨⟨Fr.toBytes 101, [], none⟩, ⟨Fr.toBytes 102, [], none⟩, [], by decide, by decide, by decide⟩
  marked := by
    obtain ⟨output, houtput, hhash⟩ : ∃ output,
        fundedParams.orderUtxo.outputUtxo clientContext.toContext takerAddress.viewingPubkey =
          .ok output ∧ clientContext.wallet.outputHash output 0 = some (Fr.toBytes 102) := by decide
    exact ⟨output, Fr.toBytes 102, ⟨Bytes.replicate 32 2, makeMarker⟩, houtput, hhash, rfl, rfl⟩

end Sample

open Sdk.Sample in
theorem make_goes_through_sample :
    ∃ proof ins accounts, proveMake clientContext.prover fundedInputs = .ok proof ∧
      Make.instruction clientContext.toInstructionContext ⟨Swap.Sample.maker, Bytes.replicate 32 6,
        proof.into, Swap.Sample.makeTransact Swap.Sample.makeMarker⟩ = .ok ins ∧
      ins.Fits 1 accounts ∧ ∀ refusal,
        (program Swap.Sample.env).Delivers (fun _ => True) refusal accounts ins.data
          (Swap.Sample.makeTransact Swap.Sample.makeMarker) Swap.Sample.makeOpening
          [Swap.Sample.funds] [Swap.Sample.change, Swap.Sample.order] := by
  have hinputs : fundedParams.toProofInputs clientContext.toProofContext = .ok fundedInputs := by
    decide
  obtain ⟨proof, hprove, hdelivers⟩ := make_goes_through clientContext_documented
    Swap.Sample.crypto_ideal fundedParams (by decide) (by decide) (.inl rfl) privateTxBlinding funding
    (by decide) (by decide) hinputs
  have hzeros : proof = ⟨Bytes.replicate 32 0, Bytes.replicate 64 0, Bytes.replicate 32 0, none⟩ :=
    (Except.ok.inj hprove).symm
  subst hzeros
  obtain ⟨ins, hins, hroom⟩ : ∃ ins, honestMake.instruction instructionContext = .ok ins ∧
      ins.accounts.length ≤ 1 + cpiRoom := by decide
  obtain ⟨-, hdelivers⟩ := hdelivers Swap.Sample.maker (Bytes.replicate 32 6) takerAddress _ _ _
    funding_fundedBy fundedParams_sends ins (Swap.Sample.data 4) _ hins (by decide)
    (ins.fits_self hroom)
  exact ⟨_, ins, _, hprove, hins, ins.fits_self hroom, hdelivers⟩

end Zolana.Swap.Sdk
