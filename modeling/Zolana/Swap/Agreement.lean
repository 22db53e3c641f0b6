import Zolana.Swap.Reclaim

set_option autoImplicit false

/-! # Make and cancel against circuit, program and SPP

The builders of `make` and `cancel` read the order under the maker's viewing key. On chain it is
an output under the taker's key, and later an input without any. All three have one hash, and so
what the builders return satisfies the circuits and carries the hashes that SPP and the program
compute.
-/

namespace Zolana.Swap.Sdk

variable {X : ProofContext}

/-! ## Make -/

/-- The change is checked, but for its amount. -/
theorem MakeProofInputs.Built.change_checked {p : MakeProofInputParams} {inputs : MakeProofInputs}
    (h : inputs.Built X p) :
    Checked p.change p.orderUtxo.sourceMint.asset p.change.amount p.orderUtxo.terms.destination :=
  ⟨h.change_owner, congrArg Mint.asset h.change_asset, rfl, h.change_plain⟩

/-- Whatever the change amounts to, the witness of a make satisfies the circuit exactly if the
order has nonzero amounts and one of the two modes. -/
theorem MakeProofInputs.Computed.satisfied_iff (hW : X.wallet.Documented X.env.crypto)
    (hL : X.client.Documented X.env.crypto X.wallet) (hkeys : X.env.crypto.HashesKeys)
    {p : MakeProofInputParams} {inputs : MakeProofInputs} (h : inputs.Computed X p) :
    inputs.witness.Satisfied X.env.crypto ↔
      p.orderUtxo.sourceAmount ≠ 0 ∧ p.orderUtxo.terms.destinationAmount ≠ 0 ∧
        (p.orderUtxo.terms.takeMode = TAKE_MODE_DERIVED ∨
          p.orderUtxo.terms.takeMode = TAKE_MODE_VERIFIABLE) := by
  have hterms := OrderTerms.denotes_witness hW h.opens.input
  obtain ⟨hasset, hamount, -⟩ := h.opens.asset_amount_blinding hL
  constructor
  · intro hsat
    have hsource : inputs.orderUtxo.amount ≠ 0 := hsat.order.amount_ne
    rw [hamount] at hsource
    exact ⟨fun h0 => hsource (Fr.ofU64_inj.mpr h0), hterms.wellFormed_iff.mp hsat.wellFormed⟩
  · rintro ⟨hsource, hwf⟩
    obtain ⟨hpays, hchangeAsset, hchangeOwner, -, -⟩ := h.change_checked.pays hL h.changeUtxo
    have hassets : inputs.change.asset = inputs.orderUtxo.asset :=
      Option.some.inj (hchangeAsset.symm.trans hasset)
    have howners : inputs.change.owner = inputs.order.witness.makerOwnerHash :=
      Fr.toBytes_injective (Option.some.inj (hchangeOwner.symm.trans hterms.makerOwnerHash))
    refine
      { wellFormed := hterms.wellFormed_iff.mpr hwf
        order := h.opens.carriesTerms hW hL hkeys hsource
        change := hpays.dataless
        change_asset := hassets
        change_owner := howners
        privateTxHash := ?_ }
    rw [MakeProofInputs.witness, h.sourceInputHash, h.privateTxBlinding]
    exact h.locksInto.circuit

/-- The equalities that the builder of a make checks on the change. -/
structure MakeProofInputParams.Consistent (p : MakeProofInputParams) : Prop where
  change_owner : p.change.ownerAddress = some p.orderUtxo.terms.destination
  change_asset : p.change.asset = p.orderUtxo.sourceMint
  change_plain : p.change.Plain

/-- The proof inputs of a make agree with the circuit and with SPP. -/
structure MakeProofInputs.Agrees (X : ProofContext) (p : MakeProofInputParams)
    (inputs : MakeProofInputs) : Prop where
  circuit : inputs.witness.Satisfied X.env.crypto ↔
    p.orderUtxo.sourceAmount ≠ 0 ∧ p.orderUtxo.terms.destinationAmount ≠ 0 ∧
      (p.orderUtxo.terms.takeMode = TAKE_MODE_DERIVED ∨
        p.orderUtxo.terms.takeMode = TAKE_MODE_VERIFIABLE)
  change : X.wallet.outputHash p.change p.sppTxHashes.outputTreeId =
    (X.env.crypto.utxoHash inputs.change).map Fr.toBytes
  order : ∀ takerViewingPubkey, ∃ output,
    p.orderUtxo.outputUtxo X.toContext takerViewingPubkey = .ok output ∧
    X.wallet.outputHash output p.sppTxHashes.outputTreeId =
      (X.env.crypto.utxoHash inputs.orderUtxo).map Fr.toBytes
  privateTxHash : ∀ takerViewingPubkey output changeHash orderHash t op,
    p.orderUtxo.outputUtxo X.toContext takerViewingPubkey = .ok output →
    X.wallet.outputHash p.change p.sppTxHashes.outputTreeId = some changeHash →
    X.wallet.outputHash output p.sppTxHashes.outputTreeId = some orderHash →
    SppMoves X.env.crypto t op [p.sppTxHashes.sourceInputHash] [changeHash, orderHash]
      p.sppTxHashes.privateTxBlinding →
    t.privateTxHash = inputs.privateTxHash

theorem MakeProofInputs.Computed.agrees (hW : X.wallet.Documented X.env.crypto)
    (hL : X.client.Documented X.env.crypto X.wallet) (hkeys : X.env.crypto.HashesKeys)
    {p : MakeProofInputParams} {inputs : MakeProofInputs} (h : inputs.Computed X p) :
    inputs.Agrees X p := by
  have hchange : X.wallet.outputHash p.change p.sppTxHashes.outputTreeId =
      (X.env.crypto.utxoHash inputs.change).map Fr.toBytes :=
    h.change_checked.outputHash hW hL h.changeUtxo
  refine
    { circuit := h.satisfied_iff hW hL hkeys
      change := hchange
      order := h.opens.outputHash hW hL
      privateTxHash := ?_ }
  intro takerViewingPubkey output changeHash orderHash t op houtput hchangeHash horderHash hspp
  obtain ⟨output', houtput', hhash⟩ := h.opens.outputHash hW hL takerViewingPubkey
  have hsame : output = output' := Except.ok.inj (houtput.symm.trans houtput')
  subst hsame
  exact h.locksInto.spp (hchange.symm.trans hchangeHash) (hhash.symm.trans horderHash) hspp

/-- **The make builder agrees with circuit and SPP.** For every change amount, viewing key of the
taker and tree, what it returns is a satisfying witness exactly if the order can be made, with the
`private_tx_hash` that SPP publishes; a change that is not the maker's, of another asset or with
data makes it fail. -/
theorem make_builder_agrees (hW : X.wallet.Documented X.env.crypto)
    (hL : X.client.Documented X.env.crypto X.wallet) (hkeys : X.env.crypto.HashesKeys)
    (p : MakeProofInputParams) :
    (∀ inputs, p.toProofInputs X = .ok inputs → inputs.Agrees X p) ∧
      (¬p.Consistent → ∃ e, p.toProofInputs X = .error e) := by
  constructor
  · intro inputs h
    exact (MakeProofInputParams.toProofInputs_eq_ok.mp h).agrees hW hL hkeys
  · intro hnot
    rcases SdkResult.ok_or_error (p.toProofInputs X) with ⟨inputs, h⟩ | herr
    · have hbuilt := p.of_toProofInputs h
      exact absurd ⟨hbuilt.change_owner, hbuilt.change_asset, hbuilt.change_plain⟩ hnot
    · exact herr

namespace Sample

open Swap.Sample

/-- What the maker spends: exactly the amount of the order. -/
def makerFunds : Utxo := ⟨1003, 20, 7, 31, 0, 0, 0, 0⟩

/-- A make without change: the change output has the amount zero. -/
def fullMakeParams : MakeProofInputParams where
  orderUtxo := expiringOrder 100
  change := .plain ⟨Bytes.replicate 32 20, 2⟩ 0 (Fr.toBytes 32) makerAddress
  sppTxHashes := ⟨hashWord .linear makerFunds, Fr.toBytes 55, 0⟩

/-- The transact of the make, with a dummy input. -/
def makeOpening (inputs : MakeProofInputs) : TxOpening :=
  ⟨[some ⟨makerFunds, 5⟩, none], [some inputs.change, some inputs.orderUtxo], 55⟩

set_option maxRecDepth 4000 in
theorem fullMakeParams_moves :
    ∃ inputs, fullMakeParams.toProofInputs linearContext = .ok inputs ∧
      (makeOpening inputs).Moves .linear 200 := by decide

end Sample

open Sdk.Sample in
theorem make_builder_agrees_sample :
    ∃ inputs, fullMakeParams.toProofInputs linearContext = .ok inputs ∧
      inputs.Agrees linearContext fullMakeParams ∧ inputs.witness.Satisfied .linear ∧
      (makeOpening inputs).Moves .linear 200 := by
  obtain ⟨inputs, hinputs, hmoves⟩ := fullMakeParams_moves
  have hagrees := (make_builder_agrees (Wallet.ofCrypto_documented .linear)
    (Client.ofCrypto_documented fun _ => rfl) (fun _ => rfl) fullMakeParams).1 inputs hinputs
  exact ⟨inputs, hinputs, hagrees, hagrees.circuit.mpr ⟨by decide, by decide, .inl rfl⟩, hmoves⟩

/-! ## Cancel -/

/-- The equalities that the builder of a cancel checks on the refund. -/
structure CancelProofInputParams.Consistent (p : CancelProofInputParams) : Prop where
  owner : p.sourceOutput.ownerAddress = some p.orderUtxo.terms.destination
  mint : p.sourceOutput.asset.asset = p.orderUtxo.sourceMint.asset
  amount : p.sourceOutput.amount = p.orderUtxo.sourceAmount
  plain : p.sourceOutput.Plain

/-- The proof inputs of a cancel agree with the circuit, with SPP and with the program that
`maker` signs. -/
structure CancelProofInputs.Agrees (X : ProofContext) (p : CancelProofInputParams)
    (inputs : CancelProofInputs) (maker : Address) : Prop where
  circuit : inputs.witness.Satisfied X.env.crypto
  order : ∀ takerViewingPubkey, ∃ output,
    p.orderUtxo.outputUtxo X.toContext takerViewingPubkey = .ok output ∧
    X.wallet.outputHash output p.inputTreeId =
      (X.env.crypto.utxoHash inputs.orderUtxo).map Fr.toBytes
  orderInput : ∀ leafIndex spend,
    p.orderUtxo.toInputUtxo X p.inputTreeId leafIndex = .ok spend →
    (X.env.crypto.utxoHash inputs.orderUtxo).map Fr.toBytes = some spend.utxoHash
  sourceOutput : X.wallet.outputHash p.sourceOutput p.outputTreeId =
    (X.env.crypto.utxoHash inputs.sourceOutput).map Fr.toBytes
  privateTxHash : ∀ leafIndex spend sourceHash t op,
    p.orderUtxo.toInputUtxo X p.inputTreeId leafIndex = .ok spend →
    X.wallet.outputHash p.sourceOutput p.outputTreeId = some sourceHash →
    SppMoves X.env.crypto t op [spend.utxoHash] [sourceHash] p.privateTxBlinding →
    t.privateTxHash = inputs.privateTxHash
  publicInputHash : ∃ pk, X.env.crypto.solanaOwnerIdentity maker = some pk ∧
    CancelPublicInput.hash X.env.crypto ⟨inputs.privateTxHash, p.orderUtxo.terms.expiry,
      pk.toBytes⟩ = .ok inputs.publicInputHash
  program : ∀ now payer signer iter data ix, payer.isSigner = true → payer.isWritable = true →
    signer.isSigner = true → signer.address = maker → X.env.cancelIxData data = some ix →
    ix.orderExpiry = p.orderUtxo.terms.expiry → ix.transact.privateTxHash = inputs.privateTxHash →
    processCancelIx X.env now (payer :: signer :: iter) data = do
      checkAfterWindow now ix.orderExpiry
      verifyGroth16 X.env ix.proof.compressed inputs.publicInputHash cancelVerifyingkey
      forward X.env iter ix.transact

/-- What `process_cancel_ix` checks once it has computed its public input. -/
theorem processCancelIx_of_publicInput {E : Env} {now : Int64} {payer signer : AccountView}
    {iter : AccountIterator} {data : List UInt8} {ix : CancelIxData} {pk : Fr}
    {publicInput : Bytes 32} (hpayer : payer.isSigner = true) (hwritable : payer.isWritable = true)
    (hsigner : signer.isSigner = true) (hpk : E.crypto.solanaOwnerIdentity signer.address = some pk)
    (hix : E.cancelIxData data = some ix)
    (hpublic : CancelPublicInput.hash E.crypto
      ⟨ix.transact.privateTxHash, ix.orderExpiry, pk.toBytes⟩ = .ok publicInput) :
    processCancelIx E now (payer :: signer :: iter) data = (do
      checkAfterWindow now ix.orderExpiry
      verifyGroth16 E ix.proof.compressed publicInput cancelVerifyingkey
      forward E iter ix.transact) := by
  have hfirst : AccountIterator.nextSignerMut (payer :: signer :: iter) =
      .ok (payer, signer :: iter) :=
    AccountIterator.nextSignerMut_eq_ok.mpr ⟨rfl, hpayer, hwritable⟩
  have hsecond : AccountIterator.nextSigner (signer :: iter) = .ok (signer, iter) :=
    AccountIterator.nextSigner_eq_ok.mpr ⟨rfl, hsigner⟩
  simp only [processCancelIx, hfirst, hsecond, hpk, hix, hpublic, okOr, bind, Except.bind]

theorem CancelProofInputs.Built.agrees (hW : X.wallet.Documented X.env.crypto)
    (hL : X.client.Documented X.env.crypto X.wallet) (hkeys : X.env.crypto.HashesKeys)
    {p : CancelProofInputParams} {inputs : CancelProofInputs} {maker : Address}
    (h : inputs.Built X p) (hamount : p.orderUtxo.sourceAmount ≠ 0)
    (hmaker : p.orderUtxo.terms.destination.signingPubkey = .ed25519 maker) :
    inputs.Agrees X p maker := by
  have hsource : X.wallet.outputHash p.sourceOutput p.outputTreeId =
      (X.env.crypto.utxoHash inputs.sourceOutput).map Fr.toBytes :=
    h.sourceOutput.outputHash hW hL h.sourceUtxo
  -- the SDK reads the identity off the destination, the program off the signer
  have hidentity := h.makerOwnerPkField
  rw [hmaker, hW.ownerProofInputHash, Option.map_eq_some_iff] at hidentity
  obtain ⟨pk, hpk, hpkField⟩ := hidentity
  have hpublic := h.publicInputHash
  rw [← hpkField] at hpublic
  refine
    { circuit := h.satisfied hW hL (h.opens.carriesTerms hW hL hkeys hamount)
      order := h.opens.outputHash hW hL
      orderInput := fun _ _ => h.opens.spend_utxoHash hW hL
      sourceOutput := hsource
      privateTxHash := ?_
      publicInputHash := ⟨pk, hpk, hpublic⟩
      program := ?_ }
  · intro leafIndex spend sourceHash t op hspend hhash hspp
    exact h.spendsInto.spp (h.opens.spend_utxoHash hW hL hspend) (hsource.symm.trans hhash) hspp
  · intro now payer signer iter data ix hpayer hwritable hsigner haddress hix hexpiry hprivate
    refine processCancelIx_of_publicInput hpayer hwritable hsigner (by rw [haddress]; exact hpk) hix
      ?_
    rw [hprivate, hexpiry]
    exact hpublic

/-- **The cancel builder agrees with circuit, program and SPP.** An accepted make has locked a
nonzero amount. For such an order of a Solana key, what the builder returns is a satisfying witness
with the `private_tx_hash` that SPP publishes and the public input that the program checks; a refund
that differs from the order in owner, mint or amount, or with data, makes it fail. -/
theorem cancel_builder_agrees (hW : X.wallet.Documented X.env.crypto)
    (hL : X.client.Documented X.env.crypto X.wallet) (hkeys : X.env.crypto.HashesKeys)
    (p : CancelProofInputParams) :
    (∀ inputs maker, p.orderUtxo.sourceAmount ≠ 0 →
      p.orderUtxo.terms.destination.signingPubkey = .ed25519 maker →
      p.toProofInputs X = .ok inputs → inputs.Agrees X p maker) ∧
      (¬p.Consistent → ∃ e, p.toProofInputs X = .error e) := by
  constructor
  · intro inputs maker hamount hmaker h
    exact (CancelProofInputParams.toProofInputs_eq_ok.mp h).agrees hW hL hkeys hamount hmaker
  · intro hnot
    rcases SdkResult.ok_or_error (p.toProofInputs X) with ⟨inputs, h⟩ | herr
    · have hsource := (CancelProofInputParams.toProofInputs_eq_ok.mp h).sourceOutput
      exact absurd ⟨hsource.owner, hsource.asset, hsource.amount, hsource.plain⟩ hnot
    · exact herr

namespace Sample

open Swap.Sample

/-- The refund of the order, into another tree. -/
def cancelParams : CancelProofInputParams where
  orderUtxo := expiringOrder 100
  takerViewingPubkey := ⟨Bytes.replicate 33 9⟩
  sourceOutput := (expiringOrder 100).sourceOutput makerAddress (Fr.toBytes 34)
  privateTxBlinding := Fr.toBytes 56
  inputTreeId := 0
  outputTreeId := 1

/-- The transact of the cancel, with padding. -/
def cancelOpening (inputs : CancelProofInputs) : TxOpening :=
  ⟨[some ⟨inputs.orderUtxo, 0⟩, none], [none, some inputs.sourceOutput], 56⟩

set_option maxRecDepth 4000 in
theorem cancelParams_moves :
    ∃ inputs, cancelParams.toProofInputs linearContext = .ok inputs ∧
      (cancelOpening inputs).Moves .linear 200 := by decide

end Sample

open Sdk.Sample in
theorem cancel_builder_agrees_sample :
    ∃ inputs, cancelParams.toProofInputs linearContext = .ok inputs ∧
      inputs.Agrees linearContext cancelParams Swap.Sample.maker ∧
      (cancelOpening inputs).Moves .linear 200 := by
  obtain ⟨inputs, hinputs, hmoves⟩ := cancelParams_moves
  exact ⟨inputs, hinputs, (cancel_builder_agrees (Wallet.ofCrypto_documented .linear)
    (Client.ofCrypto_documented fun _ => rfl) (fun _ => rfl) cancelParams).1 inputs
      Swap.Sample.maker (by decide) rfl hinputs, hmoves⟩

end Zolana.Swap.Sdk
