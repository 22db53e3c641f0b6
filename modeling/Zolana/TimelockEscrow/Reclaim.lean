import Zolana.Spp.Agreement
import Zolana.TimelockEscrow.Proof
import Zolana.TimelockEscrow.Timelock

set_option autoImplicit false

/-! # Escrows whose funds come back

The escrow side accepts every unlock time and every kind of creator key, and a withdraw asks
for a signed clock value after the unlock time and for a Solana signer. As with the orders of
the swap, what decides is whether the terms fit both.
-/

namespace Zolana.TimelockEscrow.Sdk

variable {X : ProofContext}

/-! ## The escrow -/

theorem EscrowTerms.proofInput_eq_ok {terms : EscrowTerms} {input : EscrowTermsProofInput} :
    terms.proofInput X = .ok input ↔
      ∃ owner, X.wallet.ownerHash terms.creator = some owner ∧
        input = ⟨owner, terms.unlockTimestamp⟩ := by
  simp only [EscrowTerms.proofInput, SdkResult.bind_eq_ok, orErr_eq_ok, pure, Except.pure,
    Except.ok.injEq, eq_comm (a := input)]

/-- The creator's owner hash in the witness, and the unlock time. -/
theorem EscrowTerms.of_proofInput (hW : X.wallet.Documented X.env.crypto) {terms : EscrowTerms}
    {input : EscrowTermsProofInput} (h : terms.proofInput X = .ok input) :
    X.wallet.ownerHash terms.creator = some input.witness.ownerHash.toBytes ∧
      input.witness.unlock = Fr.ofU64 terms.unlockTimestamp := by
  obtain ⟨word, hword, rfl⟩ := EscrowTerms.proofInput_eq_ok.mp h
  obtain ⟨-, -, owner, -, -, -, rfl⟩ := hW.ownerHash_eq_some hword
  exact ⟨hword.trans (congrArg (fun x => some (Fr.toBytes x)) (decimal_toBytes owner).symm),
    decimal_u64RightAlign _⟩

/-- The client reads the escrow in a tree as the UTXO `u`, and its terms as `input`. -/
structure EscrowUtxo.OpensAt (X : ProofContext) (escrow : EscrowUtxo) (treeId : UInt16)
    (input : EscrowTermsProofInput) (u : ProofInputUtxo) : Prop where
  input : escrow.terms.proofInput X = .ok input
  utxo : ∃ output, escrow.outputUtxo X = .ok output ∧
    X.client.proofInputUtxo output treeId = some u

/-- The fields of the UTXO that an escrow is read as. -/
theorem EscrowUtxo.OpensAt.fields (hL : X.client.Documented X.env.crypto X.wallet)
    {escrow : EscrowUtxo} {treeId : UInt16} {input : EscrowTermsProofInput} {u : ProofInputUtxo}
    (h : escrow.OpensAt X treeId input u) :
    ∃ word nullifierPubkey, escrow.terms.dataHash X = .ok word ∧
      X.wallet.nullifierPubkey 0 = some nullifierPubkey ∧
      ((⟨escrow.asset, escrow.amount, escrow.blinding, none, none, some word, none,
        none⟩ : SppProofOutputUtxo).opening X.env.crypto (X.wallet.ownerHash
          ⟨.ed25519 (escrowAuthority X.env), nullifierPubkey,
            escrow.terms.creator.viewingPubkey⟩) treeId = some u) := by
  obtain ⟨output, houtput, hu⟩ := h.utxo
  simp only [EscrowUtxo.outputUtxo, SdkResult.bind_eq_ok, orErr_eq_ok, pure, Except.pure,
    Except.ok.injEq] at houtput
  obtain ⟨word, hword, nullifierPubkey, hnullifier, rfl⟩ := houtput
  refine ⟨word, nullifierPubkey, hword, hnullifier, ?_⟩
  rw [hL.proofInputUtxo _ _ _ rfl rfl rfl] at hu
  exact hu

/-- Asset and amount of the UTXO that an escrow is read as. -/
theorem EscrowUtxo.OpensAt.asset_amount (hL : X.client.Documented X.env.crypto X.wallet)
    {escrow : EscrowUtxo} {treeId : UInt16} {input : EscrowTermsProofInput} {u : ProofInputUtxo}
    (h : escrow.OpensAt X treeId input u) :
    X.env.crypto.hashBytes escrow.asset.asset.1 = some u.asset ∧
      u.amount = Fr.ofU64 escrow.amount := by
  obtain ⟨_, _, -, -, hu⟩ := h.fields hL
  obtain ⟨-, -, hasset, hamount, -, -, -⟩ := SppProofOutputUtxo.opening_eq_some.mp hu
  exact ⟨hasset, hamount⟩

/-- What the builder of an escrow has checked and computed when it succeeds. -/
structure EscrowProofInputs.Built (X : ProofContext) (p : EscrowProofInputParams)
    (inputs : EscrowProofInputs) : Prop where
  change_owner : p.change.ownerAddress = some p.escrowUtxo.terms.creator
  change_asset : p.change.asset = p.escrowUtxo.asset
  change_plain : p.change.Plain
  opens : p.escrowUtxo.OpensAt X p.sppTxHashes.outputTreeId inputs.terms inputs.escrowUtxo
  changeUtxo : X.client.proofInputUtxo p.change p.sppTxHashes.outputTreeId = some inputs.change
  locksInto : LocksInto X.env.crypto p.sppTxHashes.sourceInputHash inputs.change inputs.escrowUtxo
    p.sppTxHashes.privateTxBlinding inputs.privateTxHash
  sourceInputHash : inputs.sourceInputHash = p.sppTxHashes.sourceInputHash
  privateTxBlinding : inputs.privateTxBlinding = p.sppTxHashes.privateTxBlinding

theorem EscrowProofInputParams.toProofInputs_eq_ok {p : EscrowProofInputParams}
    {inputs : EscrowProofInputs} : p.toProofInputs X = .ok inputs ↔ inputs.Built X p := by
  simp only [toProofInputs, SdkResult.bind_eq_ok, orErr_eq_ok, bailIf_eq_ok, ne_eq, not_not,
    SppProofOutputUtxo.plain_iff, pure, Except.pure, Except.ok.injEq]
  constructor
  · rintro ⟨_, howner, _, hasset, _, hplain, terms, hterms, output, houtput, escrowUtxo,
      hescrowUtxo, change, hchange, changeWord, hchangeHash, escrowWord, hescrowHash, privateTxHash,
      hprivate, rfl⟩
    exact
      { change_owner := howner
        change_asset := hasset
        change_plain := hplain
        opens := ⟨hterms, output, houtput, hescrowUtxo⟩
        changeUtxo := hchange
        locksInto := ⟨changeWord, hchangeHash, escrowWord, hescrowHash, hprivate⟩
        sourceInputHash := rfl
        privateTxBlinding := rfl }
  · intro h
    obtain ⟨output, houtput, hescrowUtxo⟩ := h.opens.utxo
    obtain ⟨changeWord, hchangeHash, escrowWord, hescrowHash, hprivate⟩ := h.locksInto.calls
    refine ⟨(), h.change_owner, (), h.change_asset, (), h.change_plain, _, h.opens.input, output,
      houtput, _, hescrowUtxo, _, h.changeUtxo, changeWord, hchangeHash, escrowWord, hescrowHash, _,
      hprivate, ?_⟩
    rw [← h.sourceInputHash, ← h.privateTxBlinding]

/-! ## Withdraw -/

/-- What the builder of a withdraw has checked and computed when it succeeds. -/
structure WithdrawProofInputs.Built (X : ProofContext) (p : WithdrawProofInputParams)
    (inputs : WithdrawProofInputs) : Prop where
  sourceOutput : Checked p.sourceOutput p.escrowUtxo.asset.asset p.escrowUtxo.amount
    p.escrowUtxo.terms.creator
  opens : p.escrowUtxo.OpensAt X p.inputTreeId inputs.terms inputs.escrowUtxo
  ownerPkField : X.wallet.ownerProofInputHash p.escrowUtxo.terms.creator.signingPubkey =
    some inputs.ownerPkField
  sourceUtxo : X.client.proofInputUtxo p.sourceOutput p.outputTreeId = some inputs.sourceOutput
  spendsInto : SpendsInto X.env.crypto inputs.escrowUtxo inputs.sourceOutput p.privateTxBlinding
    inputs.privateTxHash
  publicInputHash : WithdrawPublicInput.hash X.env.crypto ⟨inputs.privateTxHash,
    p.escrowUtxo.terms.unlockTimestamp, inputs.ownerPkField⟩ = .ok inputs.publicInputHash
  nullifierPk : inputs.nullifierPk = p.escrowUtxo.terms.creator.nullifierPubkey
  privateTxBlinding : inputs.privateTxBlinding = p.privateTxBlinding

theorem WithdrawProofInputParams.toProofInputs_eq_ok {p : WithdrawProofInputParams}
    {inputs : WithdrawProofInputs} : p.toProofInputs X = .ok inputs ↔ inputs.Built X p := by
  simp only [toProofInputs, SdkResult.bind_eq_ok, checkOutputUtxo_eq_ok, orErr_eq_ok, bailIf_eq_ok,
    ofProgram_eq_ok, ne_eq, not_not, pure, Except.pure, Except.ok.injEq]
  constructor
  · rintro ⟨_, hsource, _, rfl, terms, hterms, pkField, hpkField, output, houtput, escrowUtxo,
      hescrowUtxo, source, hsourceUtxo, escrowWord, hescrowHash, sourceWord, hsourceHash,
      privateTxHash, hprivate, publicInputHash, hpublic, rfl⟩
    exact
      { sourceOutput := hsource
        opens := ⟨hterms, output, houtput, hescrowUtxo⟩
        ownerPkField := hpkField
        sourceUtxo := hsourceUtxo
        spendsInto := SpendsInto.iff_calls.mpr
          ⟨escrowWord, hescrowHash, sourceWord, hsourceHash, hprivate⟩
        publicInputHash := hpublic
        nullifierPk := rfl
        privateTxBlinding := rfl }
  · intro h
    obtain ⟨output, houtput, hescrowUtxo⟩ := h.opens.utxo
    obtain ⟨escrowWord, hescrowHash, sourceWord, hsourceHash, hprivate⟩ :=
      SpendsInto.iff_calls.mp h.spendsInto
    refine ⟨_, h.sourceOutput, (), rfl, _, h.opens.input, _, h.ownerPkField, output, houtput, _,
      hescrowUtxo, _, h.sourceUtxo, escrowWord, hescrowHash, sourceWord, hsourceHash, _, hprivate, _,
      h.publicInputHash, ?_⟩
    rw [← h.nullifierPk, ← h.privateTxBlinding]

/-- The witness of a withdraw satisfies the circuit if the escrow that it spends carries the
terms. -/
theorem WithdrawProofInputs.Built.satisfied (hW : X.wallet.Documented X.env.crypto)
    (hL : X.client.Documented X.env.crypto X.wallet) {p : WithdrawProofInputParams}
    {inputs : WithdrawProofInputs} (h : inputs.Built X p)
    (hcarries : CarriesTerms X.env.crypto inputs.escrowUtxo inputs.terms.witness) :
    inputs.witness.Satisfied X.env.crypto := by
  obtain ⟨hcreator, hunlock⟩ := EscrowTerms.of_proofInput hW h.opens.input
  obtain ⟨hasset, hamount⟩ := h.opens.asset_amount hL
  obtain ⟨hpays, hsourceAsset, hsourceOwner, -, -⟩ := h.sourceOutput.pays hL h.sourceUtxo
  have hassets : inputs.sourceOutput.asset = inputs.escrowUtxo.asset :=
    Option.some.inj (hsourceAsset.symm.trans hasset)
  have hsame : inputs.sourceOutput.owner = inputs.terms.witness.ownerHash :=
    Fr.toBytes_injective (Option.some.inj (hsourceOwner.symm.trans hcreator))
  refine
    { escrow := hcarries
      sourceOutput := ⟨hpays.dataless, hassets, hpays.amount.trans hamount.symm, hsame⟩
      owner := ?_
      privateTxHash := ?_
      publicInputHash := ?_ }
  · rw [WithdrawProofInputs.witness, h.nullifierPk]
    exact hW.poseidon_owner h.ownerPkField hcreator
  · rw [WithdrawProofInputs.witness, h.privateTxBlinding]
    exact h.spendsInto.circuit
  · rw [WithdrawProofInputs.witness, hunlock]
    exact poseidon_of_publicInputHash h.publicInputHash

/-- Every escrow that opens in a tree can be withdrawn from it, as far as the builder is
concerned. -/
theorem EscrowUtxo.OpensAt.exists_withdraw (hC : X.env.crypto.Total)
    (hW : X.wallet.Documented X.env.crypto) (hL : X.client.Documented X.env.crypto X.wallet)
    {escrow : EscrowUtxo} {treeId : UInt16} {input : EscrowTermsProofInput} {u : ProofInputUtxo}
    (h : escrow.OpensAt X treeId input u) :
    ∃ (p : WithdrawProofInputParams) (inputs : WithdrawProofInputs), p.escrowUtxo = escrow ∧
      p.inputTreeId = treeId ∧ inputs.Built X p ∧ inputs.terms = input ∧ inputs.escrowUtxo = u := by
  obtain ⟨hcreator, -⟩ := EscrowTerms.of_proofInput hW h.input
  obtain ⟨hasset, -⟩ := h.asset_amount hL
  obtain ⟨pk, -, -, hpk, -, -, -⟩ := hW.ownerHash_eq_some hcreator
  obtain ⟨source, hsource⟩ := hL.proofInputUtxo_plain hasset hcreator escrow.amount 0 treeId
  obtain ⟨privateTxHash, hspends⟩ := SpendsInto.exists_of_total hC u source 0
  obtain ⟨publicInput, hpublic⟩ := hC.publicInputHash TimelockEscrowError.hashingFailed
    privateTxHash pk escrow.terms.unlockTimestamp
  refine ⟨⟨escrow, escrow.sourceOutput escrow.terms.creator (Fr.toBytes 0), Fr.toBytes 0, treeId,
      treeId⟩,
    ⟨publicInput.toBytes, privateTxHash.toBytes, input, pk.toBytes,
      escrow.terms.creator.nullifierPubkey, u, source, Fr.toBytes 0⟩, rfl, rfl, ?_, rfl, rfl⟩
  exact
    { sourceOutput := SppProofOutputUtxo.plain_checked _ _ _ _
      opens := h
      ownerPkField := hpk
      sourceUtxo := hsource
      spendsInto := hspends
      publicInputHash := hpublic
      nullifierPk := rfl
      privateTxBlinding := rfl }

/-! ## Withdrawing an escrow -/

/-- A withdraw at `now`, signed by `signer`, that the program accepts with a proof of what the
builder returns. -/
structure WithdrawProofInputs.Accepted (X : ProofContext) (now : Int64) (signer : Address)
    (p : WithdrawProofInputParams) (inputs : WithdrawProofInputs) : Prop where
  built : p.toProofInputs X = .ok inputs
  circuit : inputs.witness.Satisfied X.env.crypto
  window : checkAfterWindow now p.escrowUtxo.terms.unlockTimestamp = .ok ()
  publicInput : ∃ pk, X.env.crypto.solanaOwnerIdentity signer = some pk ∧
    WithdrawPublicInput.hash X.env.crypto ⟨inputs.privateTxHash,
      p.escrowUtxo.terms.unlockTimestamp, pk.toBytes⟩ = .ok inputs.publicInputHash

/-- The escrow, in the tree, can be withdrawn at some time by someone. -/
def EscrowUtxo.Withdrawable (X : ProofContext) (escrow : EscrowUtxo) (treeId : UInt16) : Prop :=
  ∃ now signer p inputs, p.escrowUtxo = escrow ∧ p.inputTreeId = treeId ∧
    WithdrawProofInputs.Accepted X now signer p inputs

/-- A withdrawn escrow has been unlocked on a clock. -/
theorem EscrowUtxo.Withdrawable.unlock_lt {escrow : EscrowUtxo} {treeId : UInt16}
    (h : escrow.Withdrawable X treeId) : escrow.terms.unlockTimestamp.toNat < 2 ^ 63 - 1 := by
  obtain ⟨now, signer, p, inputs, rfl, -, haccepted⟩ := h
  exact exists_afterWindow_iff.mp ⟨now, haccepted.window⟩

/-- **Which escrows come back.** Of the escrows that are accepted, the creator can withdraw, at
some time, those that unlock below the largest clock value and whose creator's key is identified as
a Solana address. -/
theorem withdrawable_iff (hC : X.env.crypto.Total) (hbinds : X.env.crypto.BindsThird)
    (hW : X.wallet.Documented X.env.crypto) (hL : X.client.Documented X.env.crypto X.wallet)
    (p : EscrowProofInputParams) {inputs : EscrowProofInputs}
    (hescrow : p.toProofInputs X = .ok inputs) (hsat : inputs.witness.Satisfied X.env.crypto) :
    p.escrowUtxo.Withdrawable X p.sppTxHashes.outputTreeId ↔
      p.escrowUtxo.terms.unlockTimestamp.toNat < 2 ^ 63 - 1 ∧
        ∃ address, X.wallet.IdentifiedBy X.env.crypto p.escrowUtxo.terms.creator.signingPubkey
          address := by
  have hopens := (p.toProofInputs_eq_ok.mp hescrow).opens
  constructor
  · intro h
    refine ⟨h.unlock_lt, ?_⟩
    obtain ⟨now, signer, q, withdraw, hsame, -, haccepted⟩ := h
    have hbuilt := WithdrawProofInputParams.toProofInputs_eq_ok.mp haccepted.built
    obtain ⟨pk, hpk, hpublic⟩ := haccepted.publicInput
    rw [← hsame]
    exact (exists_signer_iff hbinds hbuilt.ownerPkField hbuilt.publicInputHash).mp
      ⟨signer, pk, hpk, hpublic⟩
  · rintro ⟨hunlock, hkey⟩
    obtain ⟨q, withdraw, hsame, htree, hbuilt, hinput, hutxo⟩ := hopens.exists_withdraw hC hW hL
    obtain ⟨now, hnow⟩ := exists_afterWindow_iff.mpr hunlock
    rw [← hsame] at hkey hnow
    obtain ⟨signer, pk, hpk, hpublic⟩ := (exists_signer_iff hbinds hbuilt.ownerPkField
      hbuilt.publicInputHash).mpr hkey
    refine ⟨now, signer, q, withdraw, hsame, htree, ?_⟩
    exact
      { built := WithdrawProofInputParams.toProofInputs_eq_ok.mpr hbuilt
        circuit := hbuilt.satisfied hW hL (by rw [hinput, hutxo]; exact hsat.escrow)
        window := hnow
        publicInput := ⟨pk, hpk, hpublic⟩ }

/-! ## Two sample escrows

One that unlocks at time 100 and one that unlocks at the largest clock value. -/

namespace Sample

open TimelockEscrow.Sample

def creatorAddress : ShieldedAddress :=
  ⟨.ed25519 creator, Fr.toBytes 1001, ⟨Bytes.replicate 33 0⟩⟩

noncomputable def linearContext : ProofContext where
  env := { env with crypto := .linear }
  wallet := .ofCrypto .linear
  client := .ofCrypto .linear (.ofCrypto .linear)

def escrowParams (unlockTimestamp : UInt64) : EscrowProofInputParams where
  escrowUtxo := ⟨⟨creatorAddress, unlockTimestamp⟩, Fr.toBytes 33, ⟨Bytes.replicate 32 20, 2⟩, 7⟩
  change := .plain ⟨Bytes.replicate 32 20, 2⟩ 1 (Fr.toBytes 32) creatorAddress
  sppTxHashes := ⟨Fr.toBytes 100, Fr.toBytes 55, 0⟩

/-- The builder returns proof inputs whose witness passes the circuit. -/
def Escrows (unlockTimestamp : UInt64) : Prop :=
  (((escrowParams unlockTimestamp).toProofInputs linearContext).toOption.bind
    fun inputs => inputs.witness.define .linear) = some ()

theorem Escrows.exists_inputs {unlockTimestamp : UInt64} (h : Escrows unlockTimestamp) :
    ∃ inputs, (escrowParams unlockTimestamp).toProofInputs linearContext = .ok inputs ∧
      inputs.witness.Satisfied .linear := by
  obtain ⟨inputs, hinputs, hdefine⟩ := Option.bind_eq_some_iff.mp h
  exact ⟨inputs, SdkResult.toOption_eq_some.mp hinputs, Escrow.Circuit.define_eq_some.mp hdefine⟩

set_option maxRecDepth 2000 in
theorem escrows_100 : Escrows 100 := by
  unfold Escrows
  decide

set_option maxRecDepth 2000 in
theorem escrows_max : Escrows maxClock := by
  unfold Escrows
  decide

end Sample

open Sdk.Sample in
theorem withdrawable_iff_sample : (escrowParams 100).escrowUtxo.Withdrawable linearContext 0 := by
  obtain ⟨inputs, hescrow, hsat⟩ := escrows_100.exists_inputs
  exact (withdrawable_iff Crypto.linear_total Crypto.linear_bindsThird
    (Wallet.ofCrypto_documented .linear) (Client.ofCrypto_documented fun _ => rfl)
    (escrowParams 100) hescrow hsat).mpr ⟨by decide, TimelockEscrow.Sample.creator, _, rfl, rfl⟩

open Sdk.Sample in
/-- An escrow that unlocks at the largest clock value is accepted, and no withdraw ever
follows. -/
theorem not_withdrawable :
    ¬∀ X : ProofContext, X.env.crypto.Total → X.env.crypto.BindsThird →
      X.wallet.Documented X.env.crypto → X.client.Documented X.env.crypto X.wallet →
      ∀ (p : EscrowProofInputParams) (inputs : EscrowProofInputs), p.toProofInputs X = .ok inputs →
        inputs.witness.Satisfied X.env.crypto →
        p.escrowUtxo.Withdrawable X p.sppTxHashes.outputTreeId := by
  intro h
  obtain ⟨inputs, hescrow, hsat⟩ := escrows_max.exists_inputs
  have hwithdrawable : (escrowParams maxClock).escrowUtxo.Withdrawable linearContext 0 :=
    h linearContext Crypto.linear_total Crypto.linear_bindsThird
      (Wallet.ofCrypto_documented .linear) (Client.ofCrypto_documented fun _ => rfl)
      (escrowParams maxClock) inputs hescrow hsat
  have hlt : maxClock.toNat < 2 ^ 63 - 1 := hwithdrawable.unlock_lt
  exact absurd hlt (by decide)

end Zolana.TimelockEscrow.Sdk
