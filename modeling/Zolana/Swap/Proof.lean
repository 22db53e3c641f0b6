import Zolana.Spp.Client
import Zolana.Swap.Order

set_option autoImplicit false

/-! # Proof builders

`sdk/src/instructions/*/proof.rs` and `prover/src`: the four `to_proof_inputs`, the witnesses
that the proof inputs become, and `OrderUtxo::to_input_utxo`. A builder checks its parameters
by hand, reads the UTXOs of the witness off the SDK's outputs and computes the hashes that SPP
and the program compute on their own.
-/

namespace Zolana.Swap.Sdk

/-- The SDK's surroundings with the proof client. -/
structure ProofContext extends Context where
  client : Client

/-! ## Witnesses

`prover/src`. -/

/-- `witness_entries`. -/
def OrderTermsProofInput.witness (input : OrderTermsProofInput) : Swap.OrderTerms where
  destinationAsset := decimal input.destinationAsset
  destinationAmount := decimal (u64RightAlign input.destinationAmount)
  makerOwnerHash := decimal input.makerOwnerHash
  makerViewingPk := keyVariables input.makerViewingPk
  expiry := decimal (u64RightAlign input.expiry)
  takerPkFe := decimal input.takerPkFe
  takeMode := decimal (u64RightAlign input.takeMode)

/-- `MakeProofInputs`. -/
structure MakeProofInputs where
  privateTxHash : Bytes 32
  order : OrderTermsProofInput
  orderUtxo : ProofInputUtxo
  change : ProofInputUtxo
  sourceInputHash : Bytes 32
  privateTxBlinding : Bytes 32
  deriving DecidableEq

/-- `MakeProofInputs::witness`. -/
def MakeProofInputs.witness (inputs : MakeProofInputs) : Make.Circuit where
  privateTxHash := decimal inputs.privateTxHash
  order := inputs.order.witness
  orderUtxo := inputs.orderUtxo
  change := inputs.change
  sourceInputHash := decimal inputs.sourceInputHash
  privateTxBlinding := decimal inputs.privateTxBlinding

/-- `TakeProofInputs`. -/
structure TakeProofInputs where
  publicInputHash : Bytes 32
  privateTxHash : Bytes 32
  firstNullifier : Bytes 32
  order : OrderTermsProofInput
  orderUtxo : ProofInputUtxo
  takerIn : ProofInputUtxo
  sourceOutput : ProofInputUtxo
  destinationOutput : ProofInputUtxo
  privateTxBlinding : Bytes 32
  deriving DecidableEq

/-- `TakeProofInputs::witness`. -/
def TakeProofInputs.witness (inputs : TakeProofInputs) : Take.Circuit where
  pub := ⟨decimal inputs.publicInputHash, decimal inputs.privateTxHash,
    decimal inputs.firstNullifier⟩
  core := ⟨inputs.order.witness, inputs.orderUtxo, inputs.takerIn, inputs.sourceOutput,
    inputs.destinationOutput, decimal inputs.privateTxBlinding⟩

/-- `TakeVerifiableEncryptionProofInputs`. -/
structure TakeVerifiableEncryptionProofInputs where
  publicInputHash : Bytes 32
  privateTxHash : Bytes 32
  order : OrderTermsProofInput
  takerNullifierPk : Bytes 32
  orderUtxo : ProofInputUtxo
  takerIn : ProofInputUtxo
  sourceOutput : ProofInputUtxo
  destinationOutput : ProofInputUtxo
  privateTxBlinding : Bytes 32
  deriving DecidableEq

/-- `TakeVerifiableEncryptionProofInputs::witness`. -/
def TakeVerifiableEncryptionProofInputs.witness (inputs : TakeVerifiableEncryptionProofInputs) :
    TakeVerifiableEncryption.Circuit where
  pub := ⟨decimal inputs.publicInputHash, decimal inputs.privateTxHash⟩
  core := ⟨inputs.order.witness, inputs.orderUtxo, inputs.takerIn, inputs.sourceOutput,
    inputs.destinationOutput, decimal inputs.privateTxBlinding⟩
  takerNullifierPk := decimal inputs.takerNullifierPk

/-- `CancelProofInputs`. -/
structure CancelProofInputs where
  publicInputHash : Bytes 32
  privateTxHash : Bytes 32
  order : OrderTermsProofInput
  makerOwnerPkField : Bytes 32
  makerNullifierPk : Bytes 32
  orderUtxo : ProofInputUtxo
  sourceOutput : ProofInputUtxo
  privateTxBlinding : Bytes 32
  deriving DecidableEq

/-- `CancelProofInputs::witness`. -/
def CancelProofInputs.witness (inputs : CancelProofInputs) : Cancel.Circuit where
  pub := ⟨decimal inputs.publicInputHash, decimal inputs.privateTxHash⟩
  order := inputs.order.witness
  orderUtxo := inputs.orderUtxo
  sourceOutput := inputs.sourceOutput
  makerOwnerPkField := decimal inputs.makerOwnerPkField
  makerNullifierPk := decimal inputs.makerNullifierPk
  privateTxBlinding := decimal inputs.privateTxBlinding

/-! ## Outputs and inputs of an order

`state/order.rs`. -/

section Builders

variable (X : ProofContext)

/-- `OrderUtxo::to_input_utxo`. -/
def OrderUtxo.toInputUtxo (order : OrderUtxo) (treeId : UInt16) (leafIndex : UInt64) :
    SdkResult SppProofInputUtxo := do
  let utxo : WalletUtxo := ⟨.ed25519 (orderAuthority X.env), order.sourceMint, order.sourceAmount,
    order.blinding, none⟩
  let dataHash ← order.terms.dataHash X.toContext
  let nullifierPubkey ← orErr (X.wallet.nullifierPubkey 0)
  let utxoHash ← orErr (X.client.utxoHash utxo nullifierPubkey dataHash (Bytes.replicate 32 0) treeId)
  let nullifier ← orErr (X.client.nullifier 0 utxoHash utxo.blinding)
  return ⟨utxo, utxoHash, nullifier, nullifierPubkey, some dataHash, none, treeId, leafIndex⟩

/-- `OrderUtxo::source_output`. -/
def OrderUtxo.sourceOutput (order : OrderUtxo) (recipient : ShieldedAddress)
    (blinding : Blinding) : SppProofOutputUtxo :=
  .plain order.sourceMint order.sourceAmount blinding recipient

/-- `OrderUtxo::destination_ciphertext`. -/
def OrderUtxo.destinationCiphertext (order : OrderUtxo)
    (destinationOutput : SppProofOutputUtxo) : SdkResult (List UInt8) := do
  let (ciphertext, _) ← destinationCiphertextWithHash X.toContext order.blinding
    order.terms.destinationMint order.terms.destinationAmount destinationOutput.blinding
  return ciphertext.1

/-- `derive_private_tx_blinding`, on words. -/
def derivePrivateTxBlinding (firstNullifier seed : Bytes 32) : SdkResult (Bytes 32) :=
  orErr do
    let n ← Fr.ofBytes firstNullifier
    let s ← Fr.ofBytes seed
    (X.env.crypto.derivePrivateTxBlinding n s).map Fr.toBytes

/-! ## Make

`make/proof.rs`. -/

/-- `SppTxHashes`. -/
structure SppTxHashes where
  sourceInputHash : Bytes 32
  privateTxBlinding : Bytes 32
  outputTreeId : UInt16
  deriving DecidableEq

/-- `MakeProofInputParams`. -/
structure MakeProofInputParams where
  orderUtxo : OrderUtxo
  change : SppProofOutputUtxo
  sppTxHashes : SppTxHashes
  deriving DecidableEq

/-- `MakeProofInputParams::to_proof_inputs`. -/
def MakeProofInputParams.toProofInputs (p : MakeProofInputParams) :
    SdkResult MakeProofInputs := do
  let terms := p.orderUtxo.terms
  bailIf (p.change.ownerAddress ≠ some terms.destination)
    "change owner does not match order destination"
  bailIf (p.change.asset ≠ p.orderUtxo.sourceMint)
    "change asset does not match order source mint"
  bailIf (p.change.dataHash.isSome ∨ p.change.ringDataHash.isSome ∨ p.change.ringProgramId.isSome)
    "change output must not carry data or ring commitments"
  let order ← terms.proofInput X.toContext
  -- both outputs are created by this transaction, in one tree
  let outputTreeId := p.sppTxHashes.outputTreeId
  let orderOutput ← p.orderUtxo.outputUtxo X.toContext terms.destination.viewingPubkey
  let orderUtxo ← orErr (X.client.proofInputUtxo orderOutput outputTreeId)
  let change ← orErr (X.client.proofInputUtxo p.change outputTreeId)
  let changeHash ← ProofInputUtxo.hash X.env.crypto change
  let orderHash ← ProofInputUtxo.hash X.env.crypto orderUtxo
  let privateTxHash ← PrivateTxHash X.env.crypto
    [p.sppTxHashes.sourceInputHash, Bytes.replicate 32 0] [changeHash, orderHash]
    p.sppTxHashes.privateTxBlinding
  return ⟨privateTxHash, order, orderUtxo, change, p.sppTxHashes.sourceInputHash,
    p.sppTxHashes.privateTxBlinding⟩

/-! ## Take

`take/proof.rs` and `take_verifiable_encryption/proof.rs`, which start alike. -/

/-- `TakeProofInputParams`. -/
structure TakeProofInputParams where
  orderUtxo : OrderUtxo
  takerIn : SppProofOutputUtxo
  sourceOutput : SppProofOutputUtxo
  destinationOutput : SppProofOutputUtxo
  privateTxBlinding : Bytes 32
  inputTreeId : UInt16
  outputTreeId : UInt16
  deriving DecidableEq

/-- `TakeVerifiableEncryptionProofInputParams`, of the same fields. -/
abbrev TakeVerifiableEncryptionProofInputParams := TakeProofInputParams

namespace TakeProofInputParams

/-- The start of both builders, with the mode and the refusal of the rail: the checks on the
taker's input and the two outputs. Returns the taker. -/
def checkOutputs (p : TakeProofInputParams) (takeMode : UInt64) (refusal : String) :
    SdkResult ShieldedAddress := do
  let terms := p.orderUtxo.terms
  let taker ← checkOutputUtxo "taker_in" p.takerIn terms.destinationMint terms.destinationAmount
  let sourceOwner ← checkOutputUtxo "source_output" p.sourceOutput p.orderUtxo.sourceMint.asset
    p.orderUtxo.sourceAmount
  bailIf (sourceOwner ≠ taker) "source output owner does not match the taker input owner"
  let destinationOwner ← checkOutputUtxo "destination_output" p.destinationOutput
    terms.destinationMint terms.destinationAmount
  bailIf (destinationOwner ≠ terms.destination)
    "destination output owner does not match the order destination"
  bailIf (terms.takeMode ≠ takeMode) refusal
  return taker

/-- One round of the loop over the outputs in `TakeProofInputParams::to_proof_inputs`. -/
def checkBlinding (output : SppProofOutputUtxo) (firstNullifier seed : Bytes 32)
    (index : UInt32) : SdkResult Unit := do
  let blinding ← deriveTransactOutputBlinding X.toContext firstNullifier seed index
  bailIf (output.blinding ≠ blinding)
    ("take output " ++ toString index ++ " blinding must derive from the order opening")

/-- `TakeProofInputParams::to_proof_inputs`. -/
def toProofInputs (p : TakeProofInputParams) : SdkResult TakeProofInputs := do
  let terms := p.orderUtxo.terms
  let _taker ← p.checkOutputs TAKE_MODE_DERIVED "order take_mode does not authorize the derived take"
  let order ← terms.proofInput X.toContext
  let orderOutput ← p.orderUtxo.outputUtxo X.toContext terms.destination.viewingPubkey
  let orderUtxo ← orErr (X.client.proofInputUtxo orderOutput p.inputTreeId)
  let orderHash ← ProofInputUtxo.hash X.env.crypto orderUtxo
  let firstNullifier ← orErr (X.client.nullifier 0 orderHash p.orderUtxo.blinding)
  let blindingSeed ← takeBlindingSeed X.toContext p.orderUtxo.blinding
  let seed ← deriveOutputBlindingSeed X.toContext firstNullifier blindingSeed
  let privateTxBlinding ← derivePrivateTxBlinding X firstNullifier blindingSeed
  bailIf (p.privateTxBlinding ≠ privateTxBlinding)
    "take blinding seed must derive from the order opening"
  checkBlinding X p.sourceOutput firstNullifier seed 0
  checkBlinding X p.destinationOutput firstNullifier seed 1
  let takerIn ← orErr (X.client.proofInputUtxo p.takerIn p.inputTreeId)
  let sourceOutput ← orErr (X.client.proofInputUtxo p.sourceOutput p.outputTreeId)
  let destinationOutput ← orErr (X.client.proofInputUtxo p.destinationOutput p.outputTreeId)
  let takerHash ← ProofInputUtxo.hash X.env.crypto takerIn
  let sourceHash ← ProofInputUtxo.hash X.env.crypto sourceOutput
  let destinationHash ← ProofInputUtxo.hash X.env.crypto destinationOutput
  let privateTxHash ← PrivateTxHash X.env.crypto [orderHash, takerHash]
    [sourceHash, destinationHash] p.privateTxBlinding
  let publicInputHash ← ofProgram
    (TakePublicInput.hash X.env.crypto ⟨privateTxHash, terms.expiry, firstNullifier⟩)
  return ⟨publicInputHash, privateTxHash, firstNullifier, order, orderUtxo, takerIn, sourceOutput,
    destinationOutput, p.privateTxBlinding⟩

end TakeProofInputParams

/-- `TakeVerifiableEncryptionProofInputParams::to_proof_inputs`. -/
def TakeVerifiableEncryptionProofInputParams.toProofInputs
    (p : TakeVerifiableEncryptionProofInputParams) :
    SdkResult TakeVerifiableEncryptionProofInputs := do
  let terms := p.orderUtxo.terms
  let taker ← p.checkOutputs TAKE_MODE_VERIFIABLE
    "order take_mode does not authorize the verifiable-encryption take"
  let order ← terms.proofInput X.toContext
  let orderOutput ← p.orderUtxo.outputUtxo X.toContext terms.destination.viewingPubkey
  let orderUtxo ← orErr (X.client.proofInputUtxo orderOutput p.inputTreeId)
  let takerIn ← orErr (X.client.proofInputUtxo p.takerIn p.inputTreeId)
  let sourceOutput ← orErr (X.client.proofInputUtxo p.sourceOutput p.outputTreeId)
  let destinationOutput ← orErr (X.client.proofInputUtxo p.destinationOutput p.outputTreeId)
  let orderHash ← ProofInputUtxo.hash X.env.crypto orderUtxo
  let takerHash ← ProofInputUtxo.hash X.env.crypto takerIn
  let sourceHash ← ProofInputUtxo.hash X.env.crypto sourceOutput
  let destinationHash ← ProofInputUtxo.hash X.env.crypto destinationOutput
  let privateTxHash ← PrivateTxHash X.env.crypto [orderHash, takerHash]
    [sourceHash, destinationHash] p.privateTxBlinding
  let (ciphertext, _) ← destinationCiphertextWithHash X.toContext p.orderUtxo.blinding
    terms.destinationMint terms.destinationAmount p.destinationOutput.blinding
  let publicInputHash ← ofProgram (TakeVerifiableEncryptionPublicInput.hash X.env.crypto
    ⟨privateTxHash, terms.expiry, ciphertext.1⟩)
  return ⟨publicInputHash, privateTxHash, order, taker.nullifierPubkey, orderUtxo, takerIn,
    sourceOutput, destinationOutput, p.privateTxBlinding⟩

/-! ## Cancel

`cancel/proof.rs`. -/

/-- `CancelProofInputParams`; the builder does not read the taker's key. -/
structure CancelProofInputParams where
  orderUtxo : OrderUtxo
  takerViewingPubkey : X25519Pubkey
  sourceOutput : SppProofOutputUtxo
  privateTxBlinding : Bytes 32
  inputTreeId : UInt16
  outputTreeId : UInt16
  deriving DecidableEq

/-- `CancelProofInputParams::to_proof_inputs`. -/
def CancelProofInputParams.toProofInputs (p : CancelProofInputParams) :
    SdkResult CancelProofInputs := do
  let terms := p.orderUtxo.terms
  let maker ← checkOutputUtxo "source_output" p.sourceOutput p.orderUtxo.sourceMint.asset
    p.orderUtxo.sourceAmount
  bailIf (maker ≠ terms.destination) "source output owner does not match the order destination"
  let order ← terms.proofInput X.toContext
  let makerOwnerPkField ← orErr (X.wallet.ownerProofInputHash maker.signingPubkey)
  let orderOutput ← p.orderUtxo.outputUtxo X.toContext terms.destination.viewingPubkey
  let orderUtxo ← orErr (X.client.proofInputUtxo orderOutput p.inputTreeId)
  let sourceOutput ← orErr (X.client.proofInputUtxo p.sourceOutput p.outputTreeId)
  let orderHash ← ProofInputUtxo.hash X.env.crypto orderUtxo
  let sourceHash ← ProofInputUtxo.hash X.env.crypto sourceOutput
  let privateTxHash ← PrivateTxHash X.env.crypto [orderHash] [sourceHash] p.privateTxBlinding
  let publicInputHash ← ofProgram
    (CancelPublicInput.hash X.env.crypto ⟨privateTxHash, terms.expiry, makerOwnerPkField⟩)
  return ⟨publicInputHash, privateTxHash, order, makerOwnerPkField, maker.nullifierPubkey, orderUtxo,
    sourceOutput, p.privateTxBlinding⟩

end Builders

end Zolana.Swap.Sdk
