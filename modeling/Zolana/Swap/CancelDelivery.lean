import Zolana.Spp.Progress
import Zolana.Swap.Delivery

set_option autoImplicit false

/-! # Cancels that go through

A cancel spends one UTXO into one, and it needs nothing but the order and the key of the maker. So
an order comes back from every state in which nobody has taken it.
-/

namespace Zolana.Swap.Sdk

variable {X : ClientContext}

/-! ## Cancels -/

/-- What the builder of a cancel returned can be proved, and the instruction that `maker` signs with
this proof, over a transact that spends the order of the proof inputs into their output, refunds
the order in every state in which it is unspent, at every time past its expiry; until then it is
refused. -/
def CancelProofInputs.GoesThrough (X : ClientContext) (inputs : CancelProofInputs)
    (p : CancelProofInputParams) (maker : Address) : Prop :=
  ∃ proof, proveCancel X.prover inputs = .ok proof ∧
    ∀ payer tree t op, SppOpens X.env.crypto t op [⟨inputs.orderUtxo, 0⟩] [inputs.sourceOutput]
        p.privateTxBlinding →
      ∀ ins bytes accounts, Cancel.instruction X.toSettleContext
          ⟨maker, payer, tree, proof.into, p.orderUtxo.terms.expiry, t⟩ = .ok ins →
        X.env.runtime.transact.serialize t = some bytes → ins.Fits 2 accounts →
        ins.programId = ID ∧
          (program X.env).Delivers
            (fun now => 0 ≤ now ∧ p.orderUtxo.terms.expiry.toNat < now) SwapError.notYetExpired
            accounts ins.data t op [inputs.orderUtxo] [inputs.sourceOutput]

theorem CancelProofInputs.Built.goesThrough (hX : X.Documented) {p : CancelProofInputParams}
    {inputs : CancelProofInputs} (h : inputs.Built X.toProofContext p)
    (hamount : p.orderUtxo.sourceAmount ≠ 0) {maker : Address}
    (hmaker : p.orderUtxo.terms.destination.signingPubkey = .ed25519 maker) :
    inputs.GoesThrough X p maker := by
  have hagrees := h.agrees hX.wallet hX.client hX.keys hamount hmaker
  obtain ⟨pk, hpk, hpublic⟩ := hagrees.publicInputHash
  obtain ⟨_, _, d, -, -, -, hword⟩ := publicInputHash_eq_ok.mp hpublic
  obtain ⟨proof, hprove, hverify⟩ := exists_proveCancel hX.prover hagrees.circuit
    (by rw [hword]; exact Fr.ofBytes_toBytes d)
  refine ⟨proof, hprove, ?_⟩
  intro payer tree t op hopens ins bytes accounts hins hbytes ⟨hpassed, hroom⟩
  have hprivate : t.privateTxHash = inputs.privateTxHash := h.spendsInto.opens hopens
  have hpublic' : CancelPublicInput.hash X.env.crypto ⟨t.privateTxHash,
      p.orderUtxo.terms.expiry, pk.toBytes⟩ = .ok inputs.publicInputHash := by
    rw [hprivate]
    exact hpublic
  have hread := fun now =>
    Cancel.processInstruction_eq hX.instructions hins hpassed now hpk hpublic'
  simp only [Cancel.instruction, SdkResult.bind_eq_ok, orErr_eq_ok, pure, Except.pure,
    Except.ok.injEq] at hins
  obtain ⟨ix, -, rfl⟩ := hins
  obtain ⟨view, rest, rfl, -, -, -, hrest⟩ := PassedFor.payer hpassed
  obtain ⟨signer, iter, rfl, -, -, hiter⟩ := PassedFor.signer hrest
  rw [← List.append_nil (SppLayout.accounts ..)] at hiter
  obtain ⟨cpi, hforward, hcpi, -, hauthority⟩ :=
    forward_eq_ok_of_passed hX.instructions hiter
      (by rw [List.length_cons, List.length_cons] at hroom; omega) hbytes
  refine ⟨rfl, ?_⟩
  have hready : SppReady X.env.crypto cpi.signers t op :=
    hopens.ready_refund hagrees.circuit.sourceOutput hauthority (h.opens.authorizedBy hX)
  have hgoes : (program X.env).GoesThrough
      (fun now => 0 ≤ now ∧ p.orderUtxo.terms.expiry.toNat < now) SwapError.notYetExpired
      (view :: signer :: iter) (Tag.cancel :: ix) cpi t op := by
    refine .of_check (fun _ => afterWindow_eq_ok.mpr) (fun _ => afterWindow_eq_error) ?_ hforward
      hcpi hready
    intro now
    show processInstruction X.env ID now (view :: signer :: iter) (Tag.cancel :: ix) = _
    rw [hread now, hverify]
    rfl
  exact hgoes.delivers hopens.spent hopens.created

/-- **An honest cancel goes through.** For an order of a nonzero amount whose destination is a
Solana key, the proof inputs of the builder can be proved, and the instruction that this key signs
refunds the order in every state in which it is unspent, at every time past its expiry; until then
it is refused. -/
theorem cancel_goes_through (hX : X.Documented) (p : CancelProofInputParams)
    (hamount : p.orderUtxo.sourceAmount ≠ 0) {maker : Address}
    (hmaker : p.orderUtxo.terms.destination.signingPubkey = .ed25519 maker)
    {inputs : CancelProofInputs} (h : p.toProofInputs X.toProofContext = .ok inputs) :
    inputs.GoesThrough X p maker :=
  (CancelProofInputParams.toProofInputs_eq_ok.mp h).goesThrough hX hamount hmaker

namespace Sample

/-- The refund of the sample's cancel, and what its builder returns. -/
def refundParams : CancelProofInputParams where
  orderUtxo := orderUtxo TAKE_MODE_DERIVED 33
  takerViewingPubkey := viewingKey
  sourceOutput := (orderUtxo TAKE_MODE_DERIVED 33).sourceOutput makerAddress (Fr.toBytes 38)
  privateTxBlinding := Fr.toBytes 52
  inputTreeId := 0
  outputTreeId := 0

def refundInputs : CancelProofInputs :=
  ⟨Fr.toBytes 1024, Fr.toBytes 502, ⟨Fr.toBytes 21, 9, Fr.toBytes 1003, Bytes.replicate 33 0, 100,
      Fr.toBytes 12, 0⟩, Fr.toBytes 11, Fr.toBytes 1001, Swap.Sample.order, Swap.Sample.refund,
    Fr.toBytes 52⟩

end Sample

open Sdk.Sample in
theorem cancel_goes_through_sample :
    ∃ proof ins accounts, proveCancel clientContext.prover refundInputs = .ok proof ∧
      Cancel.instruction clientContext.toSettleContext ⟨Swap.Sample.maker, Swap.Sample.taker,
        Bytes.replicate 32 6, proof.into, 100, Swap.Sample.cancelTransact⟩ = .ok ins ∧
      ins.Fits 2 accounts ∧
      (program Swap.Sample.env).Delivers (fun now => 0 ≤ now ∧ (100 : UInt64).toNat < now)
        SwapError.notYetExpired accounts ins.data Swap.Sample.cancelTransact
        Swap.Sample.cancelOpening [Swap.Sample.order] [Swap.Sample.refund] := by
  have hinputs : refundParams.toProofInputs clientContext.toProofContext = .ok refundInputs := by
    decide
  obtain ⟨proof, hprove, hdelivers⟩ := cancel_goes_through clientContext_documented refundParams
    (by decide) rfl hinputs
  have hzeros : proof = ⟨Bytes.replicate 32 0, Bytes.replicate 64 0, Bytes.replicate 32 0, none⟩ :=
    (Except.ok.inj hprove).symm
  subst hzeros
  obtain ⟨ins, hins, hroom⟩ : ∃ ins, Cancel.instruction clientContext.toSettleContext
      ⟨Swap.Sample.maker, Swap.Sample.taker, Bytes.replicate 32 6, Swap.Sample.plainProof, 100,
        Swap.Sample.cancelTransact⟩ = .ok ins ∧ ins.accounts.length ≤ 2 + cpiRoom := by decide
  have hopens : SppOpens Swap.Sample.crypto Swap.Sample.cancelTransact Swap.Sample.cancelOpening
      [⟨Swap.Sample.order, 0⟩] [Swap.Sample.refund] (Fr.toBytes 52) :=
    ⟨by decide, rfl, rfl, by decide⟩
  obtain ⟨-, hdelivers⟩ := hdelivers Swap.Sample.taker (Bytes.replicate 32 6) _ _ hopens ins
    (Swap.Sample.data 2) _ hins (by decide) (ins.fits_self hroom)
  exact ⟨_, ins, _, hprove, hins, ins.fits_self hroom, hdelivers⟩

/-! ## No order is stuck -/

/-- **Orders are never stuck.** In every state that a run reaches, an order of a nonzero amount whose
destination is a Solana key has been spent, or at every later time past the expiry this key alone
can send the cancel that returns all of it. -/
theorem order_never_stuck (hX : X.Documented) (hC : X.env.crypto.Total)
    (htransact : ∀ t, ∃ bytes, X.env.runtime.transact.serialize t = some bytes)
    (hcancel : ∀ ix, ∃ bytes, X.serializeCancelIxData ix = some bytes)
    (hpdas : X.layout.OnePerNullifier) {order : OrderUtxo}
    {treeId : UInt16} {input : OrderTermsProofInput} {u : ProofInputUtxo}
    (hopens : order.OpensAt X.toProofContext treeId input u) (hamount : order.sourceAmount ≠ 0)
    {maker : Address} (hmaker : order.terms.destination.signingPubkey = .ed25519 maker)
    {clock : Int64} {tr : List Event} {s : State}
    (hrun : (program X.env).Runs (State.init clock) tr s) {e : Event} (he : e ∈ tr)
    (hu : u ∈ e.created) :
    (∃ e' ∈ tr, u ∈ e'.spent) ∨
      ∀ now tree, s.clock ≤ now → 0 ≤ now.toInt → order.terms.expiry.toNat < now.toInt →
        ∃ cancelProof sppProof ins refund,
          Cancel.instruction X.toSettleContext ⟨maker, maker, tree, cancelProof,
            order.terms.expiry, sppProof⟩ = .ok ins ∧
          (program X.env).GivesBack s now ins u refund ∧
          Pays refund u.asset u.amount refund.owner ∧
          X.wallet.ownerHash order.terms.destination = some refund.owner.toBytes := by
  rcases Program.runs_unspent_or_spent hrun he hu with hunspent | hspent
  · refine .inr ?_
    intro now tree hclock hnow hafter
    obtain ⟨p, inputs, rfl, -, hbuilt, -, rfl⟩ := hopens.exists_cancel hC hX.wallet hX.client
    obtain ⟨proof, -, hdelivers⟩ := hbuilt.goesThrough hX hamount hmaker
    obtain ⟨t, op, hspp, hinput⟩ := hbuilt.spendsInto.exists_opens hC 0
    obtain ⟨bytes, hbytes⟩ := htransact t
    obtain ⟨ix, hix⟩ := hcancel ⟨proof.into, p.orderUtxo.terms.expiry, t⟩
    obtain ⟨ins, hins, haccounts⟩ : ∃ ins, Cancel.instruction X.toSettleContext ⟨maker, maker, tree,
        proof.into, p.orderUtxo.terms.expiry, t⟩ = .ok ins ∧
        ins.accounts = [.new maker true, .newReadonly maker true] ++ X.layout.accounts maker tree t :=
      ⟨_, by simp only [Cancel.instruction, hix]; rfl, rfl⟩
    have hroom : ∀ accounts, ins.Passes accounts → accounts.length ≤ 2 + cpiRoom := by
      intro accounts hpassed
      rw [Instruction.Passes, haccounts] at hpassed
      exact hpdas.room hinput hpassed
    obtain ⟨-, -, howner, -⟩ := hbuilt.sourceOutput.pays hX.client hbuilt.sourceUtxo
    have hpays :=
      (hbuilt.agrees hX.wallet hX.client hX.keys hamount hmaker).circuit.sourceOutput
    refine ⟨proof.into, t, ins, inputs.sourceOutput, hins, ?_,
      ⟨hpays.dataless, hpays.asset, hpays.amount, rfl⟩, howner⟩
    exact Program.givesBack_of_delivers (fun accounts hpassed =>
      (hdelivers maker tree t op hspp ins bytes accounts hins hbytes
        ⟨hpassed, hroom accounts hpassed⟩).2) hclock ⟨hnow, hafter⟩ hunspent
  · exact .inl hspent

namespace Sample

open Swap.Sample

instance : Countable CancelIxData := by
  refine Function.Injective.countable (f := fun ix => (ix.proof, ix.orderExpiry, ix.transact)) ?_
  rintro ⟨_, _, _⟩ ⟨_, _, _⟩ h
  simpa using h

/-- A client whose hashes are defined everywhere, and which can write everything. -/
noncomputable def totalContext : ClientContext :=
  { clientContext with
    env :=
      { env with
        crypto := .linear
        groth16 := Groth16.idealVerifier (relation .linear)
        runtime := { runtime with transact := Codec.ofCountable TransactIxData }
        makeIxData := fun _ => none
        takeIxData := fun _ => none
        takeVerifiableEncryptionIxData := fun _ => none
        cancelIxData := (Codec.ofCountable CancelIxData).deserializeExact }
    wallet := .ofCrypto .linear
    client := .ofCrypto .linear (.ofCrypto .linear)
    serializeMakeIxData := fun _ => none
    serializeTakeIxData := fun _ => none
    serializeTakeVerifiableEncryptionIxData := fun _ => none
    serializeCancelIxData := (Codec.ofCountable CancelIxData).serialize
    prover := .zeros (circuits .linear) }

theorem totalContext_documented : totalContext.Documented where
  wallet := Wallet.ofCrypto_documented .linear
  client := Client.ofCrypto_documented fun _ => rfl
  keys := fun _ => rfl
  prover := Prover.zeros_complete circuit_verifyingkey relation_of_satisfied
  instructions :=
    { make := fun _ _ h => by cases h
      take := fun _ _ h => by cases h
      takeVerifiableEncryption := fun _ _ h => by cases h
      cancel := Codec.ofCountable_roundTrips CancelIxData
      transact := Codec.ofCountable_roundTrips TransactIxData
      accounts := clientContext_documented.instructions.accounts }

set_option maxRecDepth 2000 in
theorem totalContext_inputs : ∃ inputs, (makeParams 100).toProofInputs totalContext.toProofContext =
    .ok inputs ∧ inputs.orderUtxo.amount = 7 := by decide

end Sample

open Sdk.Sample in
theorem order_never_stuck_sample :
    ∃ u, (program totalContext.env).Runs (State.init 0) [.deposit u]
        ⟨Ledger.empty.apply [] [u], 0⟩ ∧ u.amount = 7 ∧
      ∃ cancelProof sppProof ins refund,
        Cancel.instruction totalContext.toSettleContext ⟨Swap.Sample.maker, Swap.Sample.maker,
          Bytes.replicate 32 6, cancelProof, 100, sppProof⟩ = .ok ins ∧
        (program totalContext.env).GivesBack ⟨Ledger.empty.apply [] [u], 0⟩ 101 ins u refund ∧
        Pays refund u.asset u.amount refund.owner ∧
        totalContext.wallet.ownerHash makerAddress = some refund.owner.toBytes := by
  obtain ⟨inputs, hinputs, hseven⟩ := totalContext_inputs
  have hopens := (MakeProofInputParams.of_toProofInputs hinputs).opens
  have hrun : (program totalContext.env).Runs (State.init 0) [.deposit inputs.orderUtxo]
      ⟨Ledger.empty.apply [] [inputs.orderUtxo], 0⟩ := .snoc (.nil _) (.deposit inputs.orderUtxo)
  rcases order_never_stuck totalContext_documented Crypto.linear_total (fun _ => ⟨_, rfl⟩)
      (fun _ => ⟨_, rfl⟩) (fun _ _ => List.length_map _) hopens (by decide) rfl hrun
      List.mem_cons_self List.mem_cons_self with
    ⟨e, he, hspent⟩ | hcancel
  · obtain rfl := List.mem_singleton.mp he
    cases hspent
  · have hclock : (0 : Int64) ≤ 101 := by decide
    exact ⟨_, hrun, hseven, hcancel 101 (Bytes.replicate 32 6) hclock (by decide) (by decide)⟩

end Zolana.Swap.Sdk
