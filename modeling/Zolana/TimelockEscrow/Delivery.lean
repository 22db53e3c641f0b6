import Zolana.Spp.Progress
import Zolana.TimelockEscrow.Prover

set_option autoImplicit false

/-! # Escrows and withdraws that go through

From the proof inputs of an honest client to the ledger, as for the swap. An escrow is not bound to
a window; a withdraw goes through from the unlock time on, for the key that the terms name.
-/

namespace Zolana.TimelockEscrow.Sdk

variable {X : ClientContext}

/-! ## Escrow -/

/-- `SppTxHashes::new`. -/
def SppTxHashes.new (privateTxBlinding : SppProofInputs → Option (Bytes 32))
    (inputs : SppProofInputs) : SdkResult SppTxHashes := do
  let (sourceInputHash, blinding, outputTreeId) ← sppTxHashes privateTxBlinding inputs
  return ⟨sourceInputHash, blinding, outputTreeId⟩

theorem SppTxHashes.new_eq_ok {privateTxBlinding : SppProofInputs → Option (Bytes 32)}
    {inputs : SppProofInputs} {hashes : SppTxHashes} :
    SppTxHashes.new privateTxBlinding inputs = .ok hashes ↔
      sppTxHashes privateTxBlinding inputs =
        .ok (hashes.sourceInputHash, hashes.privateTxBlinding, hashes.outputTreeId) := by
  simp only [SppTxHashes.new, SdkResult.bind_eq_ok, pure, Except.pure, Except.ok.injEq]
  constructor
  · rintro ⟨_, h, rfl⟩
    exact h
  · intro h
    exact ⟨_, h, rfl⟩

/-- **An honest escrow goes through.** For a nonzero amount and the change that the wallet's input
leaves, the proof inputs of the builder can be proved, and the instruction creates the escrow at
every time, in every state in which the input is unspent, whatever the unlock time. -/
theorem escrow_goes_through (hX : X.Documented) (p : EscrowProofInputParams)
    (hamount : p.escrowUtxo.amount ≠ 0)
    (privateTxBlinding : SppProofInputs → Option (Bytes 32)) (funding : SppProofInputs)
    (hhashes : SppTxHashes.new privateTxBlinding funding = .ok p.sppTxHashes)
    (hleftover : inputSum funding.inputUtxos p.escrowUtxo.asset.asset - p.escrowUtxo.amount.toNat =
      p.change.amount.toNat) {inputs : EscrowProofInputs}
    (h : p.toProofInputs X.toProofContext = .ok inputs) :
    ∃ proof, proveEscrow X.prover inputs = .ok proof ∧
      ∀ payer tree sp t op, funding.FundedBy X.env.crypto X.wallet payer sp →
        SppOpens X.env.crypto t op [sp] [inputs.change, inputs.escrowUtxo]
          p.sppTxHashes.privateTxBlinding →
        ∀ ins bytes accounts, Escrow.instruction X ⟨payer, tree, proof.into, t⟩ = .ok ins →
          X.env.runtime.transact.serialize t = some bytes → ins.Fits 1 accounts →
          ins.programId = ID ∧ ∀ refusal,
            (program X.env).Delivers (fun _ => True) refusal accounts ins.data t op [sp.utxo]
              [inputs.change, inputs.escrowUtxo] := by
  have hbuilt := EscrowProofInputParams.toProofInputs_eq_ok.mp h
  have hsat := hbuilt.satisfied hX.wallet hX.client hamount
  obtain ⟨_, -, _, -, hprivate⟩ := hbuilt.locksInto.calls
  obtain ⟨_, _, _, d, -, -, -, -, hword⟩ := PrivateTxHash_eq_ok.mp hprivate
  obtain ⟨proof, hprove, hverify⟩ := exists_proveEscrow hX.prover hsat
    (by rw [hword]; exact Fr.ofBytes_toBytes d)
  refine ⟨proof, hprove, ?_⟩
  intro payer tree sp t op hfunded hopens ins bytes accounts hins hbytes ⟨hpassed, hroom⟩
  have hhash : t.privateTxHash = inputs.privateTxHash :=
    hbuilt.locksInto.opens (hfunded.source (SppTxHashes.new_eq_ok.mp hhashes)) hopens
  have hread := fun now => Escrow.processInstruction_eq hX hins hpassed now
  simp only [Escrow.instruction, SdkResult.bind_eq_ok, orErr_eq_ok, pure, Except.pure,
    Except.ok.injEq] at hins
  obtain ⟨ix, -, rfl⟩ := hins
  obtain ⟨view, iter, rfl, -, -, -, hiter⟩ := PassedFor.payer hpassed
  obtain ⟨cpi, hforward, hcpi, hpayer, -⟩ := forward_eq_ok_of_passed hX hiter
    (by rw [List.length_cons] at hroom; omega) hbytes
  refine ⟨rfl, ?_⟩
  obtain ⟨hasset, hlocked⟩ := hbuilt.opens.asset_amount hX.client
  obtain ⟨hpays, -⟩ := hbuilt.change_checked.pays hX.client hbuilt.changeUtxo
  have hready : SppReady X.env.crypto cpi.signers t op :=
    hopens.ready_lock hX.wallet hfunded hamount hleftover hasset hsat.change_asset hlocked
      hpays.amount hpayer
  intro refusal
  have hgoes : (program X.env).GoesThrough (fun _ => True) refusal (view :: iter)
      (Tag.escrow :: ix) cpi t op := by
    refine .of_check (fun _ _ => rfl) (fun _ hclosed => absurd trivial hclosed) ?_ hforward hcpi
      hready
    intro now
    show processInstruction X.env ID now (view :: iter) (Tag.escrow :: ix) = _
    rw [hread now, hhash, hverify]
    rfl
  exact hgoes.delivers hopens.spent hopens.created

/-! ## Withdraw -/

/-- The escrow authority signs for the escrow with the nullifier secret zero. -/
theorem EscrowUtxo.OpensAt.authorizedBy (hX : X.Documented) {escrow : EscrowUtxo} {treeId : UInt16}
    {input : EscrowTermsProofInput} {u : ProofInputUtxo}
    (h : escrow.OpensAt X.toProofContext treeId input u) :
    Spend.AuthorizedBy X.env.crypto ⟨u, 0⟩ (escrowAuthority X.env) := by
  obtain ⟨_, nullifierPubkey, -, hnullifier, hopening⟩ := h.fields hX.client
  obtain ⟨-, howner, -⟩ := SppProofOutputUtxo.opening_eq_some.mp hopening
  exact hX.wallet.authorizedBy hnullifier howner

/-- What the builder of a withdraw returns can be proved, and what SPP is sent with the proof
delivers. -/
theorem WithdrawProofInputs.Built.delivers (hX : X.Documented) {p : WithdrawProofInputParams}
    {inputs : WithdrawProofInputs} (h : inputs.Built X.toProofContext p)
    (hamount : p.escrowUtxo.amount ≠ 0) {creator : Address}
    (hcreator : p.escrowUtxo.terms.creator.signingPubkey = .ed25519 creator) :
    ∃ proof, proveWithdraw X.prover inputs = .ok proof ∧
      ∀ payer tree t op, SppOpens X.env.crypto t op [⟨inputs.escrowUtxo, 0⟩] [inputs.sourceOutput]
          p.privateTxBlinding →
        ∀ ins bytes accounts, Withdraw.instruction X ⟨creator, payer, tree, proof.into,
            p.escrowUtxo.terms.unlockTimestamp, t⟩ = .ok ins →
          X.env.runtime.transact.serialize t = some bytes → ins.Fits 2 accounts →
          ins.programId = ID ∧
            (program X.env).Delivers
              (fun now => 0 ≤ now ∧ p.escrowUtxo.terms.unlockTimestamp.toNat < now)
              TimelockEscrowError.notYetUnlocked accounts ins.data t op [inputs.escrowUtxo]
              [inputs.sourceOutput] := by
  have hagrees := h.agrees hX.wallet hX.client hamount hcreator
  obtain ⟨pk, hpk, hpublic⟩ := hagrees.publicInputHash
  obtain ⟨_, _, d, -, -, -, hword⟩ := publicInputHash_eq_ok.mp hpublic
  obtain ⟨proof, hprove, hverify⟩ := exists_proveWithdraw hX.prover hagrees.circuit
    (by rw [hword]; exact Fr.ofBytes_toBytes d)
  refine ⟨proof, hprove, ?_⟩
  intro payer tree t op hopens ins bytes accounts hins hbytes ⟨hpassed, hroom⟩
  have hprivate : t.privateTxHash = inputs.privateTxHash := h.spendsInto.opens hopens
  have hpublic' : WithdrawPublicInput.hash X.env.crypto ⟨t.privateTxHash,
      p.escrowUtxo.terms.unlockTimestamp, pk.toBytes⟩ = .ok inputs.publicInputHash := by
    rw [hprivate]
    exact hpublic
  have hread := fun now => Withdraw.processInstruction_eq hX hins hpassed now hpk hpublic'
  simp only [Withdraw.instruction, SdkResult.bind_eq_ok, orErr_eq_ok, pure, Except.pure,
    Except.ok.injEq] at hins
  obtain ⟨ix, -, rfl⟩ := hins
  obtain ⟨view, rest, rfl, -, -, -, hrest⟩ := PassedFor.payer hpassed
  obtain ⟨signer, iter, rfl, -, -, hiter⟩ := PassedFor.signer hrest
  obtain ⟨cpi, hforward, hcpi, -, hauthority⟩ := forward_eq_ok_of_passed hX hiter
    (by rw [List.length_cons, List.length_cons] at hroom; omega) hbytes
  refine ⟨rfl, ?_⟩
  have hready : SppReady X.env.crypto cpi.signers t op :=
    hopens.ready_refund hagrees.circuit.sourceOutput hauthority (h.opens.authorizedBy hX)
  have hgoes : (program X.env).GoesThrough
      (fun now => 0 ≤ now ∧ p.escrowUtxo.terms.unlockTimestamp.toNat < now)
      TimelockEscrowError.notYetUnlocked (view :: signer :: iter) (Tag.withdraw :: ix) cpi t op := by
    refine .of_check (fun _ => afterWindow_eq_ok.mpr) (fun _ => afterWindow_eq_error) ?_ hforward
      hcpi hready
    intro now
    show processInstruction X.env ID now (view :: signer :: iter) (Tag.withdraw :: ix) = _
    rw [hread now, hverify]
    rfl
  exact hgoes.delivers hopens.spent hopens.created

/-- **An honest withdraw goes through.** For an escrow of a nonzero amount whose creator is a Solana
key, the proof inputs of the builder can be proved, and the instruction that this key signs returns
the escrow in every state in which it is unspent, at every time past the unlock time; until then it
is refused. -/
theorem withdraw_goes_through (hX : X.Documented) (p : WithdrawProofInputParams)
    (hamount : p.escrowUtxo.amount ≠ 0) {creator : Address}
    (hcreator : p.escrowUtxo.terms.creator.signingPubkey = .ed25519 creator)
    {inputs : WithdrawProofInputs} (h : p.toProofInputs X.toProofContext = .ok inputs) :
    ∃ proof, proveWithdraw X.prover inputs = .ok proof ∧
      ∀ payer tree t op, SppOpens X.env.crypto t op [⟨inputs.escrowUtxo, 0⟩] [inputs.sourceOutput]
          p.privateTxBlinding →
        ∀ ins bytes accounts, Withdraw.instruction X ⟨creator, payer, tree, proof.into,
            p.escrowUtxo.terms.unlockTimestamp, t⟩ = .ok ins →
          X.env.runtime.transact.serialize t = some bytes → ins.Fits 2 accounts →
          ins.programId = ID ∧
            (program X.env).Delivers
              (fun now => 0 ≤ now ∧ p.escrowUtxo.terms.unlockTimestamp.toNat < now)
              TimelockEscrowError.notYetUnlocked accounts ins.data t op [inputs.escrowUtxo]
              [inputs.sourceOutput] :=
  (WithdrawProofInputParams.toProofInputs_eq_ok.mp h).delivers hX hamount hcreator

/-! ## No escrow is stuck -/

/-- **Escrows are never stuck.** In every state that a run reaches, an escrow of a nonzero amount
whose creator is a Solana key has been spent, or at every later time past the unlock time this key
alone can send the withdraw that returns all of it. -/
theorem escrow_never_stuck (hX : X.Documented) (hC : X.env.crypto.Total)
    (htransact : ∀ t, ∃ bytes, X.env.runtime.transact.serialize t = some bytes)
    (hwithdraw : ∀ ix, ∃ bytes, X.serializeWithdrawIxData ix = some bytes)
    (hpdas : X.layout.OnePerNullifier) {escrow : EscrowUtxo}
    {treeId : UInt16} {input : EscrowTermsProofInput} {u : ProofInputUtxo}
    (hopens : escrow.OpensAt X.toProofContext treeId input u) (hamount : escrow.amount ≠ 0)
    {creator : Address} (hcreator : escrow.terms.creator.signingPubkey = .ed25519 creator)
    {clock : Int64} {tr : List Event} {s : State}
    (hrun : (program X.env).Runs (State.init clock) tr s) {e : Event} (he : e ∈ tr)
    (hu : u ∈ e.created) :
    (∃ e' ∈ tr, u ∈ e'.spent) ∨
      ∀ now tree, s.clock ≤ now → 0 ≤ now.toInt →
        escrow.terms.unlockTimestamp.toNat < now.toInt →
        ∃ withdrawProof sppProof ins refund,
          Withdraw.instruction X ⟨creator, creator, tree, withdrawProof,
            escrow.terms.unlockTimestamp, sppProof⟩ = .ok ins ∧
          (program X.env).GivesBack s now ins u refund ∧
          Pays refund u.asset u.amount refund.owner ∧
          X.wallet.ownerHash escrow.terms.creator = some refund.owner.toBytes := by
  rcases Program.runs_unspent_or_spent hrun he hu with hunspent | hspent
  · refine .inr ?_
    intro now tree hclock hnow hafter
    obtain ⟨p, inputs, rfl, -, hbuilt, -, rfl⟩ := hopens.exists_withdraw hC hX.wallet hX.client
    obtain ⟨proof, -, hdelivers⟩ := hbuilt.delivers hX hamount hcreator
    obtain ⟨t, op, hspp, hinput⟩ := hbuilt.spendsInto.exists_opens hC 0
    obtain ⟨bytes, hbytes⟩ := htransact t
    obtain ⟨ix, hix⟩ := hwithdraw ⟨proof.into, p.escrowUtxo.terms.unlockTimestamp, t⟩
    obtain ⟨ins, hins, haccounts⟩ : ∃ ins, Withdraw.instruction X ⟨creator, creator, tree,
        proof.into, p.escrowUtxo.terms.unlockTimestamp, t⟩ = .ok ins ∧
        ins.accounts =
          [.new creator true, .newReadonly creator true] ++ X.layout.accounts creator tree t :=
      ⟨_, by simp only [Withdraw.instruction, hix]; rfl, rfl⟩
    have hroom : ∀ accounts, ins.Passes accounts → accounts.length ≤ 2 + cpiRoom := by
      intro accounts hpassed
      rw [Swap.Sdk.Instruction.Passes, haccounts] at hpassed
      exact hpdas.room hinput hpassed
    obtain ⟨-, -, howner, -⟩ := hbuilt.sourceOutput.pays hX.client hbuilt.sourceUtxo
    have hpays := (hbuilt.agrees hX.wallet hX.client hamount hcreator).circuit.sourceOutput
    refine ⟨proof.into, t, ins, inputs.sourceOutput, hins, ?_,
      ⟨hpays.dataless, hpays.asset, hpays.amount, rfl⟩, howner⟩
    exact Program.givesBack_of_delivers (fun accounts hpassed =>
      (hdelivers creator tree t op hspp ins bytes accounts hins hbytes
        ⟨hpassed, hroom accounts hpassed⟩).2) hclock ⟨hnow, hafter⟩ hunspent
  · exact .inl hspent

/-! ## A sample client

It escrows the creator's funds and withdraws them, with a prover that writes zeros. -/

namespace Sample

open TimelockEscrow.Sample

/-- The tables of the sample, with the mint and the derivation that a client needs. -/
def clientCrypto : Crypto where
  __ := crypto
  hashBytes := Oracle.tabulate (Fr.offset 20) [List.replicate 32 20]
  derivePrivateTxBlinding n seed := some (n + seed)

def escrowTransact : TransactIxData := TimelockEscrow.Sample.escrowOpening.publish crypto 500 none []

def withdrawTransact : TransactIxData :=
  TimelockEscrow.Sample.withdrawOpening.publish crypto 500 none []

noncomputable def clientContext : ClientContext where
  env :=
    { env with
      crypto := clientCrypto
      groth16 := Groth16.idealVerifier (relation clientCrypto) }
  wallet := .ofCrypto clientCrypto
  client := .ofCrypto clientCrypto (.ofCrypto clientCrypto)
  serializeEscrowIxData ix :=
    if ix.proof = plainProof then (Codec.tabulate transacts).serialize ix.transact else none
  serializeWithdrawIxData ix :=
    if ix.proof = plainProof ∧ ix.unlockTimestamp = 100 then
      (Codec.tabulate transacts).serialize ix.transact
    else none
  nullifierPdaAccounts _ nullifierHashes := nullifierHashes.map (Swap.Sdk.AccountMeta.new · false)
  shieldedPoolProgramId := Bytes.replicate 32 8
  prover := .zeros (circuits clientCrypto)

/-- What is written for the `i`-th transact is read as it. -/
theorem read_transact {t : TransactIxData} {bytes : List UInt8}
    (h : (Codec.tabulate transacts).serialize t = some bytes) : transacts[bytes.length]? = some t :=
  Codec.tabulate_roundTrips transacts h

theorem clientContext_documented : clientContext.Documented where
  wallet := Wallet.ofCrypto_documented clientCrypto
  client := Client.ofCrypto_documented fun _ => rfl
  prover := Prover.zeros_complete circuit_verifyingkey relation_of_satisfied
  escrow := by
    rintro ⟨proof, t⟩ bytes h
    obtain ⟨hproof, h⟩ := Option.ite_none_right_eq_some.mp h
    have hproof : proof = plainProof := hproof
    show (transacts[bytes.length]?.map fun t => (⟨plainProof, t⟩ : EscrowIxData)) = _
    rw [read_transact h, hproof]
    rfl
  withdraw := by
    rintro ⟨proof, unlockTimestamp, t⟩ bytes h
    obtain ⟨⟨hproof, hunlock⟩, h⟩ := Option.ite_none_right_eq_some.mp h
    have hproof : proof = plainProof := hproof
    have hunlock : unlockTimestamp = 100 := hunlock
    show (transacts[bytes.length]?.map fun t => (⟨plainProof, 100, t⟩ : WithdrawIxData)) = _
    rw [read_transact h, hproof, hunlock]
    rfl
  transact := Codec.tabulate_roundTrips transacts
  accounts := by
    intro payer tree transact owners accounts h _
    have hmem : ∀ pda ∈ [authority], pda ∈ accounts.map (·.address) := by
      intro pda hpda
      rw [List.mem_singleton.mp hpda]
      exact h.authority_mem
    exact if_pos hmem

/-- The creator's funds, next to a dummy. -/
def funding : SppProofInputs where
  inputUtxos :=
    [⟨⟨.ed25519 creator, ⟨Bytes.replicate 32 20, 2⟩, 8, Fr.toBytes 31, none⟩, Fr.toBytes 100,
        Fr.toBytes 1006, Fr.toBytes 1001, none, none, 0, 4⟩,
      ⟨⟨.ed25519 creator, ⟨Bytes.replicate 32 0, 1⟩, 0, Fr.toBytes 0, none⟩, Fr.toBytes 0,
        Fr.toBytes 7, Fr.toBytes 0, none, none, 0, 0⟩]
  blindingSeed := Fr.toBytes (50 - 1006)
  outputTreeId := 0

/-- The blinding derives from the nullifier of the first input. -/
def privateTxBlinding (inputs : SppProofInputs) : Option (Bytes 32) := do
  let input ← inputs.inputUtxos.head?
  let nullifier ← Fr.ofBytes input.nullifier
  let seed ← Fr.ofBytes inputs.blindingSeed
  (clientCrypto.derivePrivateTxBlinding nullifier seed).map Fr.toBytes

def fundedParams : EscrowProofInputParams :=
  { escrowParams 100 with sppTxHashes := ⟨Fr.toBytes 100, Fr.toBytes 50, 0⟩ }

def fundedInputs : EscrowProofInputs where
  privateTxHash := Fr.toBytes 500
  terms := ⟨Fr.toBytes 1002, 100⟩
  escrowUtxo := escrow
  change := change
  sourceInputHash := Fr.toBytes 100
  privateTxBlinding := Fr.toBytes 50

theorem funding_fundedBy : funding.FundedBy clientCrypto clientContext.wallet creator ⟨funds, 5⟩ where
  first := ⟨_, _, rfl, ⟨rfl, rfl, by decide, by decide, by decide⟩, by decide⟩

def refundParams : WithdrawProofInputParams where
  escrowUtxo := (escrowParams 100).escrowUtxo
  sourceOutput := (escrowParams 100).escrowUtxo.sourceOutput creatorAddress (Fr.toBytes 34)
  privateTxBlinding := Fr.toBytes 51
  inputTreeId := 0
  outputTreeId := 0

def refundInputs : WithdrawProofInputs where
  publicInputHash := Fr.toBytes 1009
  privateTxHash := Fr.toBytes 501
  terms := ⟨Fr.toBytes 1002, 100⟩
  ownerPkField := Fr.toBytes 11
  nullifierPk := Fr.toBytes 1001
  escrowUtxo := escrow
  sourceOutput := refund
  privateTxBlinding := Fr.toBytes 51

end Sample

open Sdk.Sample in
theorem escrow_goes_through_sample :
    ∃ proof ins accounts, proveEscrow clientContext.prover fundedInputs = .ok proof ∧
      Escrow.instruction clientContext ⟨TimelockEscrow.Sample.creator, Bytes.replicate 32 6,
        proof.into, escrowTransact⟩ = .ok ins ∧ ins.Fits 1 accounts ∧ ∀ refusal,
        (program clientContext.env).Delivers (fun _ => True) refusal accounts ins.data
          escrowTransact TimelockEscrow.Sample.escrowOpening [TimelockEscrow.Sample.funds]
          [TimelockEscrow.Sample.change, TimelockEscrow.Sample.escrow] := by
  have hinputs : fundedParams.toProofInputs clientContext.toProofContext = .ok fundedInputs := by
    decide
  obtain ⟨proof, hprove, hdelivers⟩ := escrow_goes_through clientContext_documented fundedParams
    (by decide) privateTxBlinding funding (by decide) (by decide) hinputs
  have hzeros : proof = ⟨Bytes.replicate 32 0, Bytes.replicate 64 0, Bytes.replicate 32 0⟩ :=
    (Except.ok.inj hprove).symm
  subst hzeros
  obtain ⟨ins, hins, hroom⟩ : ∃ ins, Escrow.instruction clientContext
      ⟨TimelockEscrow.Sample.creator, Bytes.replicate 32 6, TimelockEscrow.Sample.plainProof,
        escrowTransact⟩ = .ok ins ∧ ins.accounts.length ≤ 1 + cpiRoom := by decide
  have hopens : SppOpens clientCrypto escrowTransact TimelockEscrow.Sample.escrowOpening
      [⟨TimelockEscrow.Sample.funds, 5⟩]
      [TimelockEscrow.Sample.change, TimelockEscrow.Sample.escrow] (Fr.toBytes 50) :=
    ⟨by decide, rfl, rfl, by decide⟩
  obtain ⟨-, hdelivers⟩ := hdelivers TimelockEscrow.Sample.creator (Bytes.replicate 32 6) _ _ _
    funding_fundedBy hopens ins (TimelockEscrow.Sample.data 0) _ hins (by decide) (ins.fits_self hroom)
  exact ⟨_, ins, _, hprove, hins, ins.fits_self hroom, hdelivers⟩

open Sdk.Sample in
theorem withdraw_goes_through_sample :
    ∃ proof ins accounts, proveWithdraw clientContext.prover refundInputs = .ok proof ∧
      Withdraw.instruction clientContext ⟨TimelockEscrow.Sample.creator,
        TimelockEscrow.Sample.creator, Bytes.replicate 32 6, proof.into, 100, withdrawTransact⟩ =
          .ok ins ∧ ins.Fits 2 accounts ∧
      (program clientContext.env).Delivers (fun now => 0 ≤ now ∧ (100 : UInt64).toNat < now)
        TimelockEscrowError.notYetUnlocked accounts ins.data withdrawTransact
        TimelockEscrow.Sample.withdrawOpening [TimelockEscrow.Sample.escrow]
        [TimelockEscrow.Sample.refund] := by
  have hinputs : refundParams.toProofInputs clientContext.toProofContext = .ok refundInputs := by
    decide
  obtain ⟨proof, hprove, hdelivers⟩ := withdraw_goes_through clientContext_documented refundParams
    (by decide) rfl hinputs
  have hzeros : proof = ⟨Bytes.replicate 32 0, Bytes.replicate 64 0, Bytes.replicate 32 0⟩ :=
    (Except.ok.inj hprove).symm
  subst hzeros
  obtain ⟨ins, hins, hroom⟩ : ∃ ins, Withdraw.instruction clientContext
      ⟨TimelockEscrow.Sample.creator, TimelockEscrow.Sample.creator, Bytes.replicate 32 6,
        TimelockEscrow.Sample.plainProof, 100, withdrawTransact⟩ = .ok ins ∧
        ins.accounts.length ≤ 2 + cpiRoom := by decide
  have hopens : SppOpens clientCrypto withdrawTransact TimelockEscrow.Sample.withdrawOpening
      [⟨TimelockEscrow.Sample.escrow, 0⟩] [TimelockEscrow.Sample.refund] (Fr.toBytes 51) :=
    ⟨by decide, rfl, rfl, by decide⟩
  obtain ⟨-, hdelivers⟩ := hdelivers TimelockEscrow.Sample.creator (Bytes.replicate 32 6) _ _ hopens
    ins (TimelockEscrow.Sample.data 1) _ hins (by decide) (ins.fits_self hroom)
  exact ⟨_, ins, _, hprove, hins, ins.fits_self hroom, hdelivers⟩

/-! ## A client that can write everything -/

namespace Sample

open TimelockEscrow.Sample

instance : Countable WithdrawIxData := by
  refine Function.Injective.countable (f := fun ix => (ix.proof, ix.unlockTimestamp, ix.transact)) ?_
  rintro ⟨_, _, _⟩ ⟨_, _, _⟩ h
  simpa using h

/-- Its hashes are defined everywhere. -/
noncomputable def totalContext : ClientContext where
  env :=
    { env with
      crypto := .linear
      groth16 := Groth16.idealVerifier (relation .linear)
      runtime := { runtime with transact := Codec.ofCountable TransactIxData }
      withdrawIxData := (Codec.ofCountable WithdrawIxData).deserializeExact
      escrowIxData := fun _ => none }
  wallet := .ofCrypto .linear
  client := .ofCrypto .linear (.ofCrypto .linear)
  serializeEscrowIxData _ := none
  serializeWithdrawIxData := (Codec.ofCountable WithdrawIxData).serialize
  nullifierPdaAccounts _ nullifierHashes := nullifierHashes.map (Swap.Sdk.AccountMeta.new · false)
  shieldedPoolProgramId := Bytes.replicate 32 8
  prover := .zeros (circuits .linear)

theorem totalContext_documented : totalContext.Documented where
  wallet := Wallet.ofCrypto_documented .linear
  client := Client.ofCrypto_documented fun _ => rfl
  prover := Prover.zeros_complete circuit_verifyingkey relation_of_satisfied
  escrow := by
    intro ix bytes h
    cases h
  withdraw := Codec.ofCountable_roundTrips WithdrawIxData
  transact := Codec.ofCountable_roundTrips TransactIxData
  accounts := clientContext_documented.accounts

set_option maxRecDepth 2000 in
theorem totalContext_inputs : ∃ inputs, (escrowParams 100).toProofInputs totalContext.toProofContext =
    .ok inputs ∧ inputs.escrowUtxo.amount = 7 := by decide

end Sample

open Sdk.Sample in
theorem escrow_never_stuck_sample :
    ∃ u, (program totalContext.env).Runs (State.init 0) [.deposit u]
        ⟨Ledger.empty.apply [] [u], 0⟩ ∧ u.amount = 7 ∧
      ∃ withdrawProof sppProof ins refund,
        Withdraw.instruction totalContext ⟨TimelockEscrow.Sample.creator,
          TimelockEscrow.Sample.creator, Bytes.replicate 32 6, withdrawProof, 100, sppProof⟩ =
            .ok ins ∧
        (program totalContext.env).GivesBack ⟨Ledger.empty.apply [] [u], 0⟩ 101 ins u refund ∧
        Pays refund u.asset u.amount refund.owner ∧
        totalContext.wallet.ownerHash creatorAddress = some refund.owner.toBytes := by
  obtain ⟨inputs, hinputs, hseven⟩ := totalContext_inputs
  have hopens := (EscrowProofInputParams.toProofInputs_eq_ok.mp hinputs).opens
  have hrun : (program totalContext.env).Runs (State.init 0) [.deposit inputs.escrowUtxo]
      ⟨Ledger.empty.apply [] [inputs.escrowUtxo], 0⟩ := .snoc (.nil _) (.deposit inputs.escrowUtxo)
  rcases escrow_never_stuck totalContext_documented Crypto.linear_total (fun _ => ⟨_, rfl⟩)
      (fun _ => ⟨_, rfl⟩) (fun _ _ => List.length_map _) hopens (by decide) rfl hrun
      List.mem_cons_self List.mem_cons_self with
    ⟨e, he, hspent⟩ | hwithdraw
  · obtain rfl := List.mem_singleton.mp he
    cases hspent
  · have hclock : (0 : Int64) ≤ 101 := by decide
    exact ⟨_, hrun, hseven, hwithdraw 101 (Bytes.replicate 32 6) hclock (by decide) (by decide)⟩

end Zolana.TimelockEscrow.Sdk
