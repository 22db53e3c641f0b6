import Zolana.Spp.Client
import Zolana.TimelockEscrow.Program

set_option autoImplicit false

/-! # The escrow SDK

`sdk/src` and `prover/src` of the escrow program: escrows, the two `to_proof_inputs` and the
witnesses that the proof inputs become.
-/

namespace Zolana.TimelockEscrow.Sdk

/-- The SDK's surroundings: the program's environment, the wallet library and the proof
client. -/
structure ProofContext where
  env : Env
  wallet : Wallet
  client : Client

/-! ## Escrows

`state/escrow.rs`. -/

/-- `EscrowTerms`. -/
structure EscrowTerms where
  creator : ShieldedAddress
  unlockTimestamp : UInt64
  deriving DecidableEq

/-- `EscrowTermsProofInput`. -/
structure EscrowTermsProofInput where
  ownerHash : Bytes 32
  unlock : UInt64
  deriving DecidableEq

/-- `EscrowUtxo`. -/
structure EscrowUtxo where
  terms : EscrowTerms
  blinding : Blinding
  asset : Mint
  amount : UInt64
  deriving DecidableEq

section State

variable (X : ProofContext)

/-- `TryFrom<&EscrowTerms> for EscrowTermsProofInput`. -/
def EscrowTerms.proofInput (terms : EscrowTerms) : SdkResult EscrowTermsProofInput := do
  let ownerHash ← orErr (X.wallet.ownerHash terms.creator)
  return ⟨ownerHash, terms.unlockTimestamp⟩

/-- `DataHash for EscrowTermsProofInput`. -/
def EscrowTermsProofInput.dataHash (input : EscrowTermsProofInput) : SdkResult (Bytes 32) :=
  orErr (X.env.crypto.hashv [input.ownerHash, u64RightAlign input.unlock])

/-- `EscrowTerms::data_hash`. -/
def EscrowTerms.dataHash (terms : EscrowTerms) : SdkResult (Bytes 32) := do
  let input ← terms.proofInput X
  input.dataHash X

/-- `EscrowUtxo::output_utxo`; the nullifier key has the secret zero. -/
def EscrowUtxo.outputUtxo (escrow : EscrowUtxo) : SdkResult SppProofOutputUtxo := do
  let dataHash ← escrow.terms.dataHash X
  let nullifierPubkey ← orErr (X.wallet.nullifierPubkey 0)
  let ownerAddress : ShieldedAddress :=
    ⟨.ed25519 (escrowAuthority X.env), nullifierPubkey, escrow.terms.creator.viewingPubkey⟩
  return (SppProofOutputUtxo.plain escrow.asset escrow.amount escrow.blinding
    ownerAddress).withUtxoData [] dataHash

/-- `EscrowUtxo::to_input_utxo`. -/
def EscrowUtxo.toInputUtxo (escrow : EscrowUtxo) (treeId : UInt16) (leafIndex : UInt64) :
    SdkResult SppProofInputUtxo := do
  let utxo : WalletUtxo := ⟨.ed25519 (escrowAuthority X.env), escrow.asset, escrow.amount,
    escrow.blinding, none⟩
  let dataHash ← escrow.terms.dataHash X
  let nullifierPubkey ← orErr (X.wallet.nullifierPubkey 0)
  let utxoHash ← orErr (X.client.utxoHash utxo nullifierPubkey dataHash (Bytes.replicate 32 0) treeId)
  let nullifier ← orErr (X.client.nullifier 0 utxoHash utxo.blinding)
  return ⟨utxo, utxoHash, nullifier, nullifierPubkey, some dataHash, none, treeId, leafIndex⟩

end State

/-- `EscrowUtxo::source_output`. -/
def EscrowUtxo.sourceOutput (escrow : EscrowUtxo) (recipient : ShieldedAddress)
    (blinding : Blinding) : SppProofOutputUtxo :=
  .plain escrow.asset escrow.amount blinding recipient

/-! ## Witnesses

`prover/src`. -/

/-- `witness_entries`. -/
def EscrowTermsProofInput.witness (input : EscrowTermsProofInput) : TimelockEscrow.EscrowTerms where
  ownerHash := decimal input.ownerHash
  unlock := decimal (u64RightAlign input.unlock)

/-- `EscrowProofInputs`. -/
structure EscrowProofInputs where
  privateTxHash : Bytes 32
  terms : EscrowTermsProofInput
  escrowUtxo : ProofInputUtxo
  change : ProofInputUtxo
  sourceInputHash : Bytes 32
  privateTxBlinding : Bytes 32
  deriving DecidableEq

/-- `EscrowProofInputs::witness`. -/
def EscrowProofInputs.witness (inputs : EscrowProofInputs) : Escrow.Circuit where
  privateTxHash := decimal inputs.privateTxHash
  terms := inputs.terms.witness
  escrowUtxo := inputs.escrowUtxo
  change := inputs.change
  sourceInputHash := decimal inputs.sourceInputHash
  privateTxBlinding := decimal inputs.privateTxBlinding

/-- `WithdrawProofInputs`. -/
structure WithdrawProofInputs where
  publicInputHash : Bytes 32
  privateTxHash : Bytes 32
  terms : EscrowTermsProofInput
  ownerPkField : Bytes 32
  nullifierPk : Bytes 32
  escrowUtxo : ProofInputUtxo
  sourceOutput : ProofInputUtxo
  privateTxBlinding : Bytes 32
  deriving DecidableEq

/-- `WithdrawProofInputs::witness`. -/
def WithdrawProofInputs.witness (inputs : WithdrawProofInputs) : Withdraw.Circuit where
  pub := ⟨decimal inputs.publicInputHash, decimal inputs.privateTxHash⟩
  terms := inputs.terms.witness
  escrowUtxo := inputs.escrowUtxo
  sourceOutput := inputs.sourceOutput
  ownerPkField := decimal inputs.ownerPkField
  nullifierPk := decimal inputs.nullifierPk
  privateTxBlinding := decimal inputs.privateTxBlinding

/-! ## Builders -/

section Builders

variable (X : ProofContext)

/-- `SppTxHashes`. -/
structure SppTxHashes where
  sourceInputHash : Bytes 32
  privateTxBlinding : Bytes 32
  outputTreeId : UInt16
  deriving DecidableEq

/-- `EscrowProofInputParams`. -/
structure EscrowProofInputParams where
  escrowUtxo : EscrowUtxo
  change : SppProofOutputUtxo
  sppTxHashes : SppTxHashes
  deriving DecidableEq

/-- `EscrowProofInputParams::to_proof_inputs`. -/
def EscrowProofInputParams.toProofInputs (p : EscrowProofInputParams) :
    SdkResult EscrowProofInputs := do
  let terms := p.escrowUtxo.terms
  bailIf (p.change.ownerAddress ≠ some terms.creator) "change owner does not match escrow creator"
  bailIf (p.change.asset ≠ p.escrowUtxo.asset) "change asset does not match escrow asset"
  bailIf (p.change.dataHash.isSome ∨ p.change.ringDataHash.isSome ∨ p.change.ringProgramId.isSome)
    "change output must not carry data or ring commitments"
  let termsInput ← terms.proofInput X
  -- both outputs are created by this transaction, in one tree
  let outputTreeId := p.sppTxHashes.outputTreeId
  let escrowOutput ← p.escrowUtxo.outputUtxo X
  let escrowUtxo ← orErr (X.client.proofInputUtxo escrowOutput outputTreeId)
  let change ← orErr (X.client.proofInputUtxo p.change outputTreeId)
  let changeHash ← ProofInputUtxo.hash X.env.crypto change
  let escrowHash ← ProofInputUtxo.hash X.env.crypto escrowUtxo
  let privateTxHash ← PrivateTxHash X.env.crypto
    [p.sppTxHashes.sourceInputHash, Bytes.replicate 32 0] [changeHash, escrowHash]
    p.sppTxHashes.privateTxBlinding
  return ⟨privateTxHash, termsInput, escrowUtxo, change, p.sppTxHashes.sourceInputHash,
    p.sppTxHashes.privateTxBlinding⟩

/-- `WithdrawProofInputParams`. -/
structure WithdrawProofInputParams where
  escrowUtxo : EscrowUtxo
  sourceOutput : SppProofOutputUtxo
  privateTxBlinding : Bytes 32
  inputTreeId : UInt16
  outputTreeId : UInt16
  deriving DecidableEq

/-- `WithdrawProofInputParams::to_proof_inputs`. -/
def WithdrawProofInputParams.toProofInputs (p : WithdrawProofInputParams) :
    SdkResult WithdrawProofInputs := do
  let terms := p.escrowUtxo.terms
  let creator ← checkOutputUtxo "source_output" p.sourceOutput p.escrowUtxo.asset.asset
    p.escrowUtxo.amount
  bailIf (creator ≠ terms.creator) "source output owner does not match the escrow creator"
  let termsInput ← terms.proofInput X
  let ownerPkField ← orErr (X.wallet.ownerProofInputHash creator.signingPubkey)
  let escrowOutput ← p.escrowUtxo.outputUtxo X
  let escrowUtxo ← orErr (X.client.proofInputUtxo escrowOutput p.inputTreeId)
  let sourceOutput ← orErr (X.client.proofInputUtxo p.sourceOutput p.outputTreeId)
  let escrowHash ← ProofInputUtxo.hash X.env.crypto escrowUtxo
  let sourceHash ← ProofInputUtxo.hash X.env.crypto sourceOutput
  let privateTxHash ← PrivateTxHash X.env.crypto [escrowHash] [sourceHash] p.privateTxBlinding
  let publicInputHash ← ofProgram
    (WithdrawPublicInput.hash X.env.crypto ⟨privateTxHash, terms.unlockTimestamp, ownerPkField⟩)
  return ⟨publicInputHash, privateTxHash, termsInput, ownerPkField, creator.nullifierPubkey,
    escrowUtxo, sourceOutput, p.privateTxBlinding⟩

end Builders

end Zolana.TimelockEscrow.Sdk
