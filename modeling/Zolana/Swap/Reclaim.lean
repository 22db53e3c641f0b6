import Zolana.Spp.Agreement
import Zolana.Swap.Witness

set_option autoImplicit false

/-! # Orders whose funds come back

A make is accepted for every expiry and for every kind of destination key. A cancel compares
the expiry with a signed clock and takes the maker's identity from a Solana signer. The orders that
the maker can cancel at some time are those that fit both, and the make checks neither.
-/

namespace Zolana.Swap.Sdk

variable {X : ProofContext}

/-! ## Make -/

/-- What the builder of a make has checked and computed when it succeeds. -/
structure MakeProofInputs.Built (X : ProofContext) (p : MakeProofInputParams)
    (inputs : MakeProofInputs) : Prop where
  change_owner : p.change.ownerAddress = some p.orderUtxo.terms.destination
  change_asset : p.change.asset = p.orderUtxo.sourceMint
  change_plain : p.change.Plain
  opens : p.orderUtxo.OpensAt X p.sppTxHashes.outputTreeId inputs.order inputs.orderUtxo

/-- What it has computed besides: the change, and the `private_tx_hash`. -/
structure MakeProofInputs.Computed (X : ProofContext) (p : MakeProofInputParams)
    (inputs : MakeProofInputs) : Prop extends inputs.Built X p where
  changeUtxo : X.client.proofInputUtxo p.change p.sppTxHashes.outputTreeId = some inputs.change
  locksInto : LocksInto X.env.crypto p.sppTxHashes.sourceInputHash inputs.change inputs.orderUtxo
    p.sppTxHashes.privateTxBlinding inputs.privateTxHash
  sourceInputHash : inputs.sourceInputHash = p.sppTxHashes.sourceInputHash
  privateTxBlinding : inputs.privateTxBlinding = p.sppTxHashes.privateTxBlinding

theorem MakeProofInputParams.toProofInputs_eq_ok {p : MakeProofInputParams}
    {inputs : MakeProofInputs} : p.toProofInputs X = .ok inputs ↔ inputs.Computed X p := by
  simp only [toProofInputs, SdkResult.bind_eq_ok, orErr_eq_ok, bailIf_eq_ok, ne_eq, not_not,
    SppProofOutputUtxo.plain_iff, pure, Except.pure, Except.ok.injEq]
  constructor
  · rintro ⟨_, howner, _, hasset, _, hplain, order, horder, output, houtput, orderUtxo, horderUtxo,
      change, hchange, changeWord, hchangeHash, orderWord, horderHash, privateTxHash, hprivate, rfl⟩
    exact
      { change_owner := howner
        change_asset := hasset
        change_plain := hplain
        opens := ⟨horder, output, houtput, horderUtxo⟩
        changeUtxo := hchange
        locksInto := ⟨changeWord, hchangeHash, orderWord, horderHash, hprivate⟩
        sourceInputHash := rfl
        privateTxBlinding := rfl }
  · intro h
    obtain ⟨output, houtput, horderUtxo⟩ := h.opens.utxo
    obtain ⟨changeWord, hchangeHash, orderWord, horderHash, hprivate⟩ := h.locksInto.calls
    refine ⟨(), h.change_owner, (), h.change_asset, (), h.change_plain, _, h.opens.input, output,
      houtput, _, horderUtxo, _, h.changeUtxo, changeWord, hchangeHash, orderWord, horderHash, _,
      hprivate, ?_⟩
    rw [← h.sourceInputHash, ← h.privateTxBlinding]

theorem MakeProofInputParams.of_toProofInputs {p : MakeProofInputParams} {inputs : MakeProofInputs}
    (h : p.toProofInputs X = .ok inputs) : inputs.Built X p :=
  (toProofInputs_eq_ok.mp h).toBuilt

/-! ## Cancel -/

/-- What the builder of a cancel has checked and computed when it succeeds. -/
structure CancelProofInputs.Built (X : ProofContext) (p : CancelProofInputParams)
    (inputs : CancelProofInputs) : Prop where
  sourceOutput : Checked p.sourceOutput p.orderUtxo.sourceMint.asset p.orderUtxo.sourceAmount
    p.orderUtxo.terms.destination
  opens : p.orderUtxo.OpensAt X p.inputTreeId inputs.order inputs.orderUtxo
  makerOwnerPkField : X.wallet.ownerProofInputHash p.orderUtxo.terms.destination.signingPubkey =
    some inputs.makerOwnerPkField
  sourceUtxo : X.client.proofInputUtxo p.sourceOutput p.outputTreeId = some inputs.sourceOutput
  spendsInto : SpendsInto X.env.crypto inputs.orderUtxo inputs.sourceOutput p.privateTxBlinding
    inputs.privateTxHash
  publicInputHash : CancelPublicInput.hash X.env.crypto ⟨inputs.privateTxHash,
    p.orderUtxo.terms.expiry, inputs.makerOwnerPkField⟩ = .ok inputs.publicInputHash
  makerNullifierPk : inputs.makerNullifierPk = p.orderUtxo.terms.destination.nullifierPubkey
  privateTxBlinding : inputs.privateTxBlinding = p.privateTxBlinding

theorem CancelProofInputParams.toProofInputs_eq_ok {p : CancelProofInputParams}
    {inputs : CancelProofInputs} : p.toProofInputs X = .ok inputs ↔ inputs.Built X p := by
  simp only [toProofInputs, SdkResult.bind_eq_ok, checkOutputUtxo_eq_ok, orErr_eq_ok, bailIf_eq_ok,
    ofProgram_eq_ok, ne_eq, not_not, pure, Except.pure, Except.ok.injEq]
  constructor
  · rintro ⟨_, hsource, _, rfl, order, horder, pkField, hpkField, output, houtput, orderUtxo,
      horderUtxo, source, hsourceUtxo, orderWord, horderHash, sourceWord, hsourceHash,
      privateTxHash, hprivate, publicInputHash, hpublic, rfl⟩
    exact
      { sourceOutput := hsource
        opens := ⟨horder, output, houtput, horderUtxo⟩
        makerOwnerPkField := hpkField
        sourceUtxo := hsourceUtxo
        spendsInto := SpendsInto.iff_calls.mpr
          ⟨orderWord, horderHash, sourceWord, hsourceHash, hprivate⟩
        publicInputHash := hpublic
        makerNullifierPk := rfl
        privateTxBlinding := rfl }
  · intro h
    obtain ⟨output, houtput, horderUtxo⟩ := h.opens.utxo
    obtain ⟨orderWord, horderHash, sourceWord, hsourceHash, hprivate⟩ :=
      SpendsInto.iff_calls.mp h.spendsInto
    refine ⟨_, h.sourceOutput, (), rfl, _, h.opens.input, _, h.makerOwnerPkField, output, houtput,
      _, horderUtxo, _, h.sourceUtxo, orderWord, horderHash, sourceWord, hsourceHash, _, hprivate,
      _, h.publicInputHash, ?_⟩
    rw [← h.makerNullifierPk, ← h.privateTxBlinding]

/-- The witness of a cancel satisfies the circuit if the order that it spends carries the
terms. -/
theorem CancelProofInputs.Built.satisfied (hW : X.wallet.Documented X.env.crypto)
    (hL : X.client.Documented X.env.crypto X.wallet) {p : CancelProofInputParams}
    {inputs : CancelProofInputs} (h : inputs.Built X p)
    (hcarries : CarriesTerms X.env.crypto inputs.orderUtxo inputs.order.witness) :
    inputs.witness.Satisfied X.env.crypto := by
  have hterms := OrderTerms.denotes_witness hW h.opens.input
  obtain ⟨hasset, hamount, -⟩ := h.opens.asset_amount_blinding hL
  obtain ⟨hpays, hsourceAsset, hsourceOwner, -, -⟩ := h.sourceOutput.pays hL h.sourceUtxo
  have hassets : inputs.sourceOutput.asset = inputs.orderUtxo.asset :=
    Option.some.inj (hsourceAsset.symm.trans hasset)
  have hsame : inputs.sourceOutput.owner = inputs.order.witness.makerOwnerHash :=
    Fr.toBytes_injective (Option.some.inj (hsourceOwner.symm.trans hterms.makerOwnerHash))
  refine
    { order := hcarries
      sourceOutput := ⟨hpays.dataless, hassets, hpays.amount.trans hamount.symm, hsame⟩
      maker := ?_
      privateTxHash := ?_
      publicInputHash := ?_ }
  · rw [CancelProofInputs.witness, h.makerNullifierPk]
    exact hW.poseidon_owner h.makerOwnerPkField hterms.makerOwnerHash
  · rw [CancelProofInputs.witness, h.privateTxBlinding]
    exact h.spendsInto.circuit
  · rw [CancelProofInputs.witness, hterms.expiry]
    exact poseidon_of_publicInputHash h.publicInputHash

/-- Every order that opens in a tree can be cancelled from it, as far as the builder is
concerned. -/
theorem OrderUtxo.OpensAt.exists_cancel (hC : X.env.crypto.Total)
    (hW : X.wallet.Documented X.env.crypto) (hL : X.client.Documented X.env.crypto X.wallet)
    {order : OrderUtxo} {treeId : UInt16} {input : OrderTermsProofInput} {u : ProofInputUtxo}
    (h : order.OpensAt X treeId input u) :
    ∃ (p : CancelProofInputParams) (inputs : CancelProofInputs), p.orderUtxo = order ∧
      p.inputTreeId = treeId ∧ inputs.Built X p ∧ inputs.order = input ∧ inputs.orderUtxo = u := by
  have hterms := OrderTerms.denotes_witness hW h.input
  obtain ⟨hasset, -, -⟩ := h.asset_amount_blinding hL
  obtain ⟨pk, -, -, hpk, -, -, -⟩ := hW.ownerHash_eq_some hterms.makerOwnerHash
  obtain ⟨source, hsource⟩ := hL.proofInputUtxo_plain hasset hterms.makerOwnerHash
    order.sourceAmount 0 treeId
  obtain ⟨privateTxHash, hspends⟩ := SpendsInto.exists_of_total hC u source 0
  obtain ⟨publicInput, hpublic⟩ := hC.publicInputHash SwapError.hashingFailed privateTxHash pk
    order.terms.expiry
  refine ⟨⟨order, order.terms.destination.viewingPubkey,
      order.sourceOutput order.terms.destination (Fr.toBytes 0), Fr.toBytes 0, treeId, treeId⟩,
    ⟨publicInput.toBytes, privateTxHash.toBytes, input, pk.toBytes,
      order.terms.destination.nullifierPubkey, u, source, Fr.toBytes 0⟩, rfl, rfl, ?_, rfl, rfl⟩
  exact
    { sourceOutput := SppProofOutputUtxo.plain_checked _ _ _ _
      opens := h
      makerOwnerPkField := hpk
      sourceUtxo := hsource
      spendsInto := hspends
      publicInputHash := hpublic
      makerNullifierPk := rfl
      privateTxBlinding := rfl }

/-! ## Reclaiming an order -/

/-- A cancel at `now`, signed by `signer`, that the program accepts with a proof of what the
builder returns. -/
structure CancelProofInputs.Accepted (X : ProofContext) (now : Int64) (signer : Address)
    (p : CancelProofInputParams) (inputs : CancelProofInputs) : Prop where
  built : p.toProofInputs X = .ok inputs
  circuit : inputs.witness.Satisfied X.env.crypto
  window : checkAfterWindow now p.orderUtxo.terms.expiry = .ok ()
  publicInput : ∃ pk, X.env.crypto.solanaOwnerIdentity signer = some pk ∧
    CancelPublicInput.hash X.env.crypto ⟨inputs.privateTxHash, p.orderUtxo.terms.expiry,
      pk.toBytes⟩ = .ok inputs.publicInputHash

/-- The order, in the tree, can be cancelled at some time by someone. -/
def OrderUtxo.Reclaimable (X : ProofContext) (order : OrderUtxo) (treeId : UInt16) : Prop :=
  ∃ now signer p inputs, p.orderUtxo = order ∧ p.inputTreeId = treeId ∧
    CancelProofInputs.Accepted X now signer p inputs

/-- A cancelled order has expired on a clock. -/
theorem OrderUtxo.Reclaimable.expiry_lt {order : OrderUtxo} {treeId : UInt16}
    (h : order.Reclaimable X treeId) : order.terms.expiry.toNat < 2 ^ 63 - 1 := by
  obtain ⟨now, signer, p, inputs, rfl, -, haccepted⟩ := h
  exact exists_afterWindow_iff.mp ⟨now, haccepted.window⟩

/-- **Which orders come back.** Of the orders that make accepts, the maker can cancel, at some
time, those that expire below the largest clock value and whose destination's key is identified as
a Solana address. -/
theorem reclaimable_iff (hC : X.env.crypto.Total) (hbinds : X.env.crypto.BindsThird)
    (hW : X.wallet.Documented X.env.crypto) (hL : X.client.Documented X.env.crypto X.wallet)
    (p : MakeProofInputParams) {inputs : MakeProofInputs}
    (hmake : p.toProofInputs X = .ok inputs) (hsat : inputs.witness.Satisfied X.env.crypto) :
    p.orderUtxo.Reclaimable X p.sppTxHashes.outputTreeId ↔
      p.orderUtxo.terms.expiry.toNat < 2 ^ 63 - 1 ∧
        ∃ address, X.wallet.IdentifiedBy X.env.crypto p.orderUtxo.terms.destination.signingPubkey
          address := by
  have hopens := (p.of_toProofInputs hmake).opens
  constructor
  · intro h
    refine ⟨h.expiry_lt, ?_⟩
    obtain ⟨now, signer, q, cancel, horder, -, haccepted⟩ := h
    have hbuilt := CancelProofInputParams.toProofInputs_eq_ok.mp haccepted.built
    obtain ⟨pk, hpk, hpublic⟩ := haccepted.publicInput
    rw [← horder]
    exact (exists_signer_iff hbinds hbuilt.makerOwnerPkField hbuilt.publicInputHash).mp
      ⟨signer, pk, hpk, hpublic⟩
  · rintro ⟨hexpiry, hkey⟩
    obtain ⟨q, cancel, horder, htree, hbuilt, hinput, hutxo⟩ := hopens.exists_cancel hC hW hL
    obtain ⟨now, hnow⟩ := exists_afterWindow_iff.mpr hexpiry
    rw [← horder] at hkey hnow
    obtain ⟨signer, pk, hpk, hpublic⟩ := (exists_signer_iff hbinds hbuilt.makerOwnerPkField
      hbuilt.publicInputHash).mpr hkey
    refine ⟨now, signer, q, cancel, horder, htree, ?_⟩
    exact
      { built := CancelProofInputParams.toProofInputs_eq_ok.mpr hbuilt
        circuit := hbuilt.satisfied hW hL (by rw [hinput, hutxo]; exact hsat.order)
        window := hnow
        publicInput := ⟨pk, hpk, hpublic⟩ }

/-! ## Two sample orders

One that expires at time 100 and one that expires at the largest clock value. -/

namespace Sample

open Swap.Sample

/-- The maker's order with an expiry. -/
def expiringOrder (expiry : UInt64) : OrderUtxo :=
  ⟨⟨Bytes.replicate 32 21, 9, makerAddress, taker, expiry, TAKE_MODE_DERIVED⟩, Fr.toBytes 33,
    ⟨Bytes.replicate 32 20, 2⟩, 7, 3⟩

noncomputable def linearContext : ProofContext where
  env := { env with crypto := .linear }
  wallet := .ofCrypto .linear
  plainTextData := .tabulate
    [(expiringOrder 100).terms.toPlaintext 3, (expiringOrder maxClock).terms.toPlaintext 3]
  client := .ofCrypto .linear (.ofCrypto .linear)

def makeParams (expiry : UInt64) : MakeProofInputParams where
  orderUtxo := expiringOrder expiry
  change := .plain ⟨Bytes.replicate 32 20, 2⟩ 1 (Fr.toBytes 32) makerAddress
  sppTxHashes := ⟨Fr.toBytes 100, Fr.toBytes 55, 0⟩

/-- The builder returns proof inputs whose witness passes the circuit. -/
def Makes (expiry : UInt64) : Prop :=
  (((makeParams expiry).toProofInputs linearContext).toOption.bind
    fun inputs => inputs.witness.define .linear) = some ()

theorem Makes.exists_inputs {expiry : UInt64} (h : Makes expiry) :
    ∃ inputs, (makeParams expiry).toProofInputs linearContext = .ok inputs ∧
      inputs.witness.Satisfied .linear := by
  obtain ⟨inputs, hinputs, hdefine⟩ := Option.bind_eq_some_iff.mp h
  exact ⟨inputs, SdkResult.toOption_eq_some.mp hinputs, Make.Circuit.define_eq_some.mp hdefine⟩

set_option maxRecDepth 2000 in
theorem makes_100 : Makes 100 := by
  unfold Makes
  decide

set_option maxRecDepth 2000 in
theorem makes_max : Makes maxClock := by
  unfold Makes
  decide

end Sample

open Sdk.Sample in
theorem reclaimable_iff_sample : (expiringOrder 100).Reclaimable linearContext 0 := by
  obtain ⟨inputs, hmake, hsat⟩ := makes_100.exists_inputs
  exact (reclaimable_iff Crypto.linear_total Crypto.linear_bindsThird
    (Wallet.ofCrypto_documented .linear) (Client.ofCrypto_documented fun _ => rfl)
    (makeParams 100) hmake hsat).mpr ⟨by decide, Swap.Sample.maker, _, rfl, rfl⟩

open Sdk.Sample in
/-- An order that expires at the largest clock value is made, and no cancel ever follows. -/
theorem not_reclaimable :
    ¬∀ X : ProofContext, X.env.crypto.Total → X.env.crypto.BindsThird →
      X.wallet.Documented X.env.crypto → X.client.Documented X.env.crypto X.wallet →
      ∀ (p : MakeProofInputParams) (inputs : MakeProofInputs), p.toProofInputs X = .ok inputs →
        inputs.witness.Satisfied X.env.crypto →
        p.orderUtxo.Reclaimable X p.sppTxHashes.outputTreeId := by
  intro h
  obtain ⟨inputs, hmake, hsat⟩ := makes_max.exists_inputs
  have hreclaimable : (expiringOrder maxClock).Reclaimable linearContext 0 :=
    h linearContext Crypto.linear_total Crypto.linear_bindsThird
      (Wallet.ofCrypto_documented .linear) (Client.ofCrypto_documented fun _ => rfl)
      (makeParams maxClock) inputs hmake hsat
  have hlt : maxClock.toNat < 2 ^ 63 - 1 := hreclaimable.expiry_lt
  exact absurd hlt (by decide)

end Zolana.Swap.Sdk
