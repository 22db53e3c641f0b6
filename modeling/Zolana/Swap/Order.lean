import Zolana.Spp.Wallet
import Zolana.Swap.Program

set_option autoImplicit false

/-! # Orders in the SDK

`sdk/src/state/order.rs`, and the two functions by which a maker recovers a payout:
`take/derivation.rs` and `take_verifiable_encryption/encryption.rs`. The SDK works on bytes
and the circuits on field elements; the lemmas read an SDK value as the circuit value it
encodes.
-/

namespace Zolana.Swap

/-- `TAKE_MODE_DERIVED`. -/
def TAKE_MODE_DERIVED : UInt64 := 0

/-- `TAKE_MODE_VERIFIABLE`. -/
def TAKE_MODE_VERIFIABLE : UInt64 := 1

namespace Sdk

/-! ## Order terms -/

/-- `OrderTerms`. -/
structure OrderTerms where
  destinationMint : Address
  destinationAmount : UInt64
  destination : ShieldedAddress
  taker : Address
  expiry : UInt64
  takeMode : UInt64
  deriving DecidableEq

/-- `PlainTextData`. -/
structure PlainTextData where
  destinationAssetId : UInt64
  destinationAmount : UInt64
  expiry : UInt64
  taker : Address
  takeMode : UInt64
  deriving DecidableEq

/-- `OrderTermsProofInput`. -/
structure OrderTermsProofInput where
  destinationAsset : Bytes 32
  destinationAmount : UInt64
  makerOwnerHash : Bytes 32
  makerViewingPk : Bytes 33
  expiry : UInt64
  takerPkFe : Bytes 32
  takeMode : UInt64
  deriving DecidableEq

/-- The SDK's surroundings: the program's environment, the wallet library, and
`wincode` at `PlainTextData`. -/
structure Context where
  env : Env
  wallet : Wallet
  plainTextData : Codec PlainTextData

variable (X : Context)

/-- `poseidon(&[..]).map_err(err)`. -/
def poseidon (xs : List (Bytes 32)) : SdkResult (Bytes 32) := orErr (X.env.crypto.hashv xs)

/-- `hash_bytes(bytes).map_err(err)`. -/
def hashBytes (bytes : List UInt8) : SdkResult (Bytes 32) :=
  orErr ((X.env.crypto.hashBytes bytes).map Fr.toBytes)

/-- `DataHash for Address`. -/
def addressDataHash (address : Address) : SdkResult (Bytes 32) :=
  orErr ((X.env.crypto.solanaOwnerIdentity address).map Fr.toBytes)

/-- `TryFrom<&OrderTerms> for OrderTermsProofInput`. -/
def OrderTerms.proofInput (terms : OrderTerms) : SdkResult OrderTermsProofInput := do
  let destinationAsset ← hashBytes X terms.destinationMint.1
  let makerOwnerHash ← orErr (X.wallet.ownerHash terms.destination)
  let takerPkFe ← addressDataHash X terms.taker
  return ⟨destinationAsset, terms.destinationAmount, makerOwnerHash,
    terms.destination.viewingPubkey.bytes, terms.expiry, takerPkFe, terms.takeMode⟩

/-- `DataHash for OrderTermsProofInput`. -/
def OrderTermsProofInput.dataHash (input : OrderTermsProofInput) : SdkResult (Bytes 32) := do
  let viewingPubkey ← orErr (X.wallet.x25519FromBytes input.makerViewingPk)
  let makerAddress ← orErr (X.wallet.compressedAddressHash input.makerOwnerHash viewingPubkey)
  poseidon X [input.destinationAsset, u64RightAlign input.destinationAmount, makerAddress,
    u64RightAlign input.expiry, input.takerPkFe, u64RightAlign input.takeMode]

/-- `OrderTerms::data_hash`. -/
def OrderTerms.dataHash (terms : OrderTerms) : SdkResult (Bytes 32) := do
  let input ← terms.proofInput X
  input.dataHash X

/-- `OrderTerms::to_plaintext`. -/
def OrderTerms.toPlaintext (terms : OrderTerms) (destinationAssetId : UInt64) : PlainTextData :=
  ⟨destinationAssetId, terms.destinationAmount, terms.expiry, terms.taker, terms.takeMode⟩

/-- `PlainTextData::serialize`. -/
def PlainTextData.serialize (data : PlainTextData) : SdkResult (List UInt8) :=
  orErr (X.plainTextData.serialize data)

/-- `PlainTextData::deserialize`. -/
def PlainTextData.deserialize (bytes : List UInt8) : SdkResult PlainTextData :=
  orErr (X.plainTextData.deserializeExact bytes)

/-! ## The order UTXO -/

/-- `OrderUtxo`. -/
structure OrderUtxo where
  terms : OrderTerms
  blinding : Blinding
  sourceMint : Mint
  sourceAmount : UInt64
  destinationAssetId : UInt64
  deriving DecidableEq

namespace OrderUtxo

/-- `OrderUtxo::output_utxo`; the nullifier key has the secret zero. -/
def outputUtxo (order : OrderUtxo) (takerViewingPubkey : X25519Pubkey) :
    SdkResult SppProofOutputUtxo := do
  let dataHash ← order.terms.dataHash X
  let nullifierPubkey ← orErr (X.wallet.nullifierPubkey 0)
  let ownerAddress : ShieldedAddress :=
    ⟨.ed25519 (orderAuthority X.env), nullifierPubkey, takerViewingPubkey⟩
  let data ← (order.terms.toPlaintext order.destinationAssetId).serialize X
  return (SppProofOutputUtxo.plain order.sourceMint order.sourceAmount order.blinding
    ownerAddress).withUtxoData data dataHash

/-- `OrderUtxo::destination_output`. -/
def destinationOutput (order : OrderUtxo) (recipient : ShieldedAddress) (blinding : Blinding) :
    SppProofOutputUtxo :=
  .plain ⟨order.terms.destinationMint, order.destinationAssetId⟩ order.terms.destinationAmount
    blinding recipient

end OrderUtxo

/-! ## The derived payout -/

/-- The `domain` of `take_blinding_seed`: `b"SWTX"`, right-aligned. -/
def takeBlindingDomain : Bytes 32 := ⟨List.replicate 28 0 ++ [0x53, 0x57, 0x54, 0x58], by decide⟩

/-- `take_blinding_seed`. -/
def takeBlindingSeed (orderBlinding : Blinding) : SdkResult (Bytes 32) :=
  poseidon X [takeBlindingDomain, orderBlinding]

/-- `derive_output_blinding_seed`, on words. -/
def deriveOutputBlindingSeed (firstNullifier seed : Bytes 32) : SdkResult (Bytes 32) :=
  orErr do
    let n ← Fr.ofBytes firstNullifier
    let s ← Fr.ofBytes seed
    (X.env.crypto.deriveOutputBlindingSeed n s).map Fr.toBytes

/-- `derive_transact_output_blinding`, on words. -/
def deriveTransactOutputBlinding (firstNullifier seed : Bytes 32) (index : UInt32) :
    SdkResult Blinding :=
  orErr do
    let n ← Fr.ofBytes firstNullifier
    let s ← Fr.ofBytes seed
    (X.env.crypto.deriveTransactOutputBlinding n s index).map Fr.toBytes

/-- `OrderUtxo::derived_destination_output`. -/
def OrderUtxo.derivedDestinationOutput (order : OrderUtxo) (firstNullifier : Bytes 32) :
    SdkResult SppProofOutputUtxo := do
  if order.terms.takeMode ≠ TAKE_MODE_DERIVED then
    throw (.message "order does not use derived settlement")
  let blindingSeed ← takeBlindingSeed X order.blinding
  let seed ← deriveOutputBlindingSeed X firstNullifier blindingSeed
  -- output 1 is the maker's payout
  let blinding ← deriveTransactOutputBlinding X firstNullifier seed 1
  return order.destinationOutput order.terms.destination blinding

/-! ## The encrypted payout -/

/-- `TAKE_ENC_KDF_DOMAIN`. -/
def TAKE_ENC_KDF_DOMAIN : UInt64 := 0x5357415054414b45

/-- `right_align_blinding`. -/
def rightAlignBlinding (blinding : Blinding) : Bytes 32 := blinding

/-- `take_shared_secret`. -/
def takeSharedSecret (orderUtxoBlinding : Blinding) : SdkResult (Bytes 32) :=
  poseidon X [rightAlignBlinding orderUtxoBlinding, u64RightAlign TAKE_ENC_KDF_DOMAIN]

/-- `symmetric_apply`, with the secret as a word. -/
def symmetricApply {n : ℕ} (sharedSecret : Bytes 32) (info : List UInt8) (buf : Bytes n) :
    SdkResult (Bytes n) :=
  orErr do
    let secret ← Fr.ofBytes sharedSecret
    X.env.crypto.symmetricApply secret info buf

/-- `destination_ciphertext_with_hash`. -/
def destinationCiphertextWithHash (orderUtxoBlinding : Blinding) (destinationMint : Address)
    (destinationAmount : UInt64) (destinationOutputBlinding : Blinding) :
    SdkResult (Bytes 72 × Bytes 32) := do
  let asset ← hashBytes X destinationMint.1
  let plaintext : Bytes 72 :=
    ((u64ToBeBytes destinationAmount).append asset).append destinationOutputBlinding
  let secret ← takeSharedSecret X orderUtxoBlinding
  let plaintext ← symmetricApply X secret X.wallet.mergeInfo plaintext
  let ctHash ← hashBytes X plaintext.1
  return (plaintext, ctHash)

/-- `decrypt_destination`. -/
def decryptDestination (orderUtxoBlinding : Blinding) (ciphertext : Bytes 72) :
    SdkResult (Bytes 32 × UInt64 × Blinding) := do
  let secret ← takeSharedSecret X orderUtxoBlinding
  let plaintext ← symmetricApply X secret X.wallet.mergeInfo ciphertext
  let amountBytes ← orErrText (Bytes.slice plaintext.1 0 8) "take plaintext amount"
  let asset ← orErrText (Bytes.slice plaintext.1 8 32) "take plaintext asset"
  let blinding ← orErrText (Bytes.slice plaintext.1 40 32) "take plaintext blinding"
  return (asset, u64FromBeBytes amountBytes, blinding)

end Sdk

end Zolana.Swap
