import Zolana.Spp.Transact

set_option autoImplicit false

/-! # The wallet library

The types of `spr_keypair` and `spr_transaction` that the SDK handles, and the functions it
calls on them. The functions live outside the repository and are the fields of `Wallet`;
`Wallet.Documented` states what the SDK relies on, which is how an address and an output are
hashed.
-/

namespace Zolana

/-! ## Results -/

/-- `anyhow::Error`: a message of the SDK's own, or an error of a called library, possibly
after a text of the SDK's. -/
inductive SdkError
  | message (text : String)
  | external
  | wrapped (text : String)
  deriving DecidableEq

/-- `anyhow::Result`. -/
abbrev SdkResult (α : Type) := Except SdkError α

/-- `.map_err(err)?`. -/
def orErr {α : Type} (x : Option α) : SdkResult α :=
  match x with
  | some a => .ok a
  | none => .error .external

/-- `.ok_or_else(|| anyhow!(text))?`, and `let .. else { bail!(text) }`. -/
def orMessage {α : Type} (x : Option α) (text : String) : SdkResult α :=
  match x with
  | some a => .ok a
  | none => .error (.message text)

/-- The `Debug` form of a text that has nothing to escape: it stands between quotation marks. -/
def debugText (text : String) : String := "\"" ++ text ++ "\""

/-- `.ok_or_else(|| err(text))?`. The SDK's `err` formats what it is given with `Debug`. -/
def orErrText {α : Type} (x : Option α) (text : String) : SdkResult α :=
  orMessage x (debugText text)

/-- `.map_err(|e| anyhow!(..))?`, with the error after the text. -/
def orWrapped {α : Type} (x : Option α) (text : String) : SdkResult α :=
  match x with
  | some a => .ok a
  | none => .error (.wrapped text)

@[simp] theorem orErr_eq_ok {α : Type} {x : Option α} {a : α} : orErr x = .ok a ↔ x = some a := by
  cases x <;> simp [orErr]

@[simp] theorem orMessage_eq_ok {α : Type} {x : Option α} {text : String} {a : α} :
    orMessage x text = .ok a ↔ x = some a := by
  cases x <;> simp [orMessage]

@[simp] theorem orErrText_eq_ok {α : Type} {x : Option α} {text : String} {a : α} :
    orErrText x text = .ok a ↔ x = some a := orMessage_eq_ok

@[simp] theorem orWrapped_eq_ok {α : Type} {x : Option α} {text : String} {a : α} :
    orWrapped x text = .ok a ↔ x = some a := by
  cases x <;> simp [orWrapped]

theorem SdkResult.bind_eq_ok {α β : Type} {x : SdkResult α} {f : α → SdkResult β} {b : β} :
    (x >>= f) = .ok b ↔ ∃ a, x = .ok a ∧ f a = .ok b := by
  cases x with
  | error e => simp [bind, Except.bind]
  | ok a => simp [bind, Except.bind]

theorem SdkResult.toOption_eq_some {α : Type} {x : SdkResult α} {a : α} :
    x.toOption = some a ↔ x = .ok a := by
  cases x with
  | error e => simp [Except.toOption]
  | ok b => simp [Except.toOption]

/-! ## Keys and addresses -/

/-- `X25519Pubkey`, in its tagged 33-byte form. -/
structure X25519Pubkey where
  bytes : Bytes 33
  deriving DecidableEq

/-- `PublicKey`: an ed25519 key, or a key of another kind in its encoded form. -/
inductive PublicKey
  | ed25519 (key : Address)
  | other (encoded : List UInt8)
  deriving DecidableEq

/-- `ShieldedAddress`. -/
structure ShieldedAddress where
  signingPubkey : PublicKey
  nullifierPubkey : Bytes 32
  viewingPubkey : X25519Pubkey
  deriving DecidableEq

/-- `Mint`. -/
structure Mint where
  asset : Address
  assetId : UInt64
  deriving DecidableEq

/-- `Blinding`, a big-endian field element. -/
abbrev Blinding := Bytes 32

/-! ## Outputs -/

/-- `SppProofOutputUtxo`. -/
structure SppProofOutputUtxo where
  asset : Mint
  amount : UInt64
  blinding : Blinding
  ownerAddress : Option ShieldedAddress
  utxoData : Option (List UInt8)
  dataHash : Option (Bytes 32)
  ringDataHash : Option (Bytes 32)
  ringProgramId : Option Address
  deriving DecidableEq

/-- `SppProofOutputUtxo { asset, amount, blinding, owner_address, ..Default::default() }`. -/
def SppProofOutputUtxo.plain (asset : Mint) (amount : UInt64) (blinding : Blinding)
    (owner : ShieldedAddress) : SppProofOutputUtxo :=
  ⟨asset, amount, blinding, some owner, none, none, none, none⟩

/-- `with_utxo_data`. -/
def SppProofOutputUtxo.withUtxoData (output : SppProofOutputUtxo) (data : List UInt8)
    (dataHash : Bytes 32) : SppProofOutputUtxo :=
  { output with utxoData := some data, dataHash := some dataHash }

/-- The wallet library. -/
structure Wallet where
  /-- `derivation::MERGE_INFO`. -/
  mergeInfo : List UInt8
  /-- `X25519Pubkey::from_bytes`. -/
  x25519FromBytes : Bytes 33 → Option X25519Pubkey
  /-- `owner_proof_input_hash`. -/
  ownerProofInputHash : PublicKey → Option (Bytes 32)
  /-- `ShieldedAddress::owner_hash`. -/
  ownerHash : ShieldedAddress → Option (Bytes 32)
  /-- `CompressedShieldedAddress::hash`, of an owner hash and a viewing key. -/
  compressedAddressHash : Bytes 32 → X25519Pubkey → Option (Bytes 32)
  /-- `NullifierKey::from_secret(secret).pubkey()`. -/
  nullifierPubkey : Fr → Option (Bytes 32)
  /-- `SppProofOutputUtxo::hash`, under a tree id. -/
  outputHash : SppProofOutputUtxo → UInt16 → Option (Bytes 32)

/-- The UTXO whose hash an output without ring fields has under a tree id, given the hash of
its owner. -/
def SppProofOutputUtxo.opening (C : Crypto) (output : SppProofOutputUtxo)
    (ownerHash : Option (Bytes 32)) (treeId : UInt16) : Option Utxo := do
  let ownerHash ← ownerHash
  let owner ← Fr.ofBytes ownerHash
  let asset ← C.hashBytes output.asset.asset.1
  let blinding ← Fr.ofBytes output.blinding
  let dataHash ← (output.dataHash.map Fr.ofBytes).getD (some 0)
  return ⟨owner, asset, Fr.ofU64 output.amount, blinding, dataHash, 0, 0,
    Fr.ofU64 treeId.toUInt64⟩

/-- How the library hashes addresses and outputs, and the label that it encrypts merges under,
`TSPP/merge`. -/
structure Wallet.Documented (C : Crypto) (W : Wallet) : Prop where
  mergeInfo : W.mergeInfo = [84, 83, 80, 80, 47, 109, 101, 114, 103, 101]
  ownerHash : ∀ a : ShieldedAddress, W.ownerHash a = do
    let pk ← W.ownerProofInputHash a.signingPubkey
    C.hashv [pk, a.nullifierPubkey]
  ownerProofInputHash : ∀ key,
    W.ownerProofInputHash (.ed25519 key) = (C.solanaOwnerIdentity key).map Fr.toBytes
  compressedAddressHash : ∀ (ownerHash : Bytes 32) (viewingPubkey : X25519Pubkey),
    W.compressedAddressHash ownerHash viewingPubkey = do
      let viewingKeyHash ← C.hashBytes viewingPubkey.bytes.1
      C.hashv [ownerHash, viewingKeyHash.toBytes]
  nullifierPubkey : ∀ secret, W.nullifierPubkey secret = (C.nullifierPubkey secret).map Fr.toBytes
  outputHash : ∀ (output : SppProofOutputUtxo) (owner : ShieldedAddress) (treeId : UInt16),
    output.ownerAddress = some owner → output.ringDataHash = none →
    output.ringProgramId = none →
    W.outputHash output treeId =
      ((output.opening C (W.ownerHash owner) treeId).bind C.utxoHash).map Fr.toBytes

/-- An owner hash of the wallet encodes a field element, the hash of two. -/
theorem Wallet.Documented.ownerHash_eq_some {C : Crypto} {W : Wallet} (hW : W.Documented C)
    {a : ShieldedAddress} {word : Bytes 32} (h : W.ownerHash a = some word) :
    ∃ pk n owner, W.ownerProofInputHash a.signingPubkey = some (Fr.toBytes pk) ∧
      Fr.ofBytes a.nullifierPubkey = some n ∧ C.poseidon [pk, n] = some owner ∧
      word = owner.toBytes := by
  rw [hW.ownerHash] at h
  obtain ⟨pkWord, hpk, hhash⟩ := Option.bind_eq_some_iff.mp h
  obtain ⟨fes, owner, hfes, hposeidon, rfl⟩ := Crypto.hashv_eq_some.mp hhash
  simp only [List.mapM_cons, List.mapM_nil, Option.bind_eq_bind, Option.bind_eq_some_iff,
    Option.pure_def, Option.some.injEq] at hfes
  obtain ⟨pk, hpkFe, _, ⟨n, hn, _, rfl, rfl⟩, rfl⟩ := hfes
  exact ⟨pk, n, owner, by rw [Fr.toBytes_of_ofBytes hpkFe, hpk], hn, hposeidon, rfl⟩

/-- A Solana key has the word of its identity. -/
theorem Wallet.Documented.identity_iff {C : Crypto} {W : Wallet} (hW : W.Documented C)
    {key : Address} {pk : Fr} :
    W.ownerProofInputHash (.ed25519 key) = some pk.toBytes ↔ C.solanaOwnerIdentity key = some pk := by
  rw [hW.ownerProofInputHash, Option.map_eq_some_iff]
  constructor
  · rintro ⟨pk', hpk', hword⟩
    rw [hpk', Fr.toBytes_injective hword]
  · intro hpk
    exact ⟨pk, hpk, rfl⟩

/-- A library that reads every key back from its bytes reads no other key. -/
theorem Wallet.bytes_of_x25519FromBytes {W : Wallet}
    (hread : ∀ key : X25519Pubkey, W.x25519FromBytes key.bytes = some key) {bytes : Bytes 33}
    {key : X25519Pubkey} (h : W.x25519FromBytes bytes = some key) : key.bytes = bytes := by
  have hbytes : W.x25519FromBytes bytes = some ⟨bytes⟩ := hread ⟨bytes⟩
  have hkey : key = ⟨bytes⟩ := Option.some.inj (h.symm.trans hbytes)
  rw [hkey]

/-- The key is identified as the Solana address is. An ed25519 key is so by its own address, and
keys of another kind can be, such as the key that stands for a PDA. -/
def Wallet.IdentifiedBy (C : Crypto) (W : Wallet) (key : PublicKey) (address : Address) : Prop :=
  ∃ pk, C.solanaOwnerIdentity address = some pk ∧ W.ownerProofInputHash key = some (Fr.toBytes pk)

/-- The wallet that hashes as documented, with these identities of keys; it has no ring fields. -/
def Wallet.ofIdentities (C : Crypto) (identity : PublicKey → Option (Bytes 32)) : Wallet where
  mergeInfo := [84, 83, 80, 80, 47, 109, 101, 114, 103, 101]
  x25519FromBytes bytes := some ⟨bytes⟩
  ownerProofInputHash := identity
  ownerHash := ownerHash
  compressedAddressHash ownerHash viewingPubkey := do
    let viewingKeyHash ← C.hashBytes viewingPubkey.bytes.1
    C.hashv [ownerHash, viewingKeyHash.toBytes]
  nullifierPubkey secret := (C.nullifierPubkey secret).map Fr.toBytes
  outputHash output treeId :=
    ((output.opening C (output.ownerAddress.bind ownerHash) treeId).bind C.utxoHash).map Fr.toBytes
where
  ownerHash (a : ShieldedAddress) : Option (Bytes 32) := do
    let pk ← identity a.signingPubkey
    C.hashv [pk, a.nullifierPubkey]

theorem Wallet.ofIdentities_documented {C : Crypto} {identity : PublicKey → Option (Bytes 32)}
    (h : ∀ key, identity (.ed25519 key) = (C.solanaOwnerIdentity key).map Fr.toBytes) :
    (Wallet.ofIdentities C identity).Documented C where
  mergeInfo := rfl
  ownerHash _ := rfl
  ownerProofInputHash := h
  compressedAddressHash _ _ := rfl
  nullifierPubkey _ := rfl
  outputHash output owner treeId howner _ _ := by
    simp [Wallet.ofIdentities, howner]

/-- The wallet with ed25519 keys alone. -/
def Wallet.ofCrypto (C : Crypto) : Wallet :=
  .ofIdentities C fun
    | .ed25519 key => (C.solanaOwnerIdentity key).map Fr.toBytes
    | .other _ => none

theorem Wallet.ofCrypto_documented (C : Crypto) : (Wallet.ofCrypto C).Documented C :=
  ofIdentities_documented fun _ => rfl

/-- The wallet in which the other keys are the addresses of PDAs, with the identities of these. -/
def Wallet.withPdas (C : Crypto) : Wallet :=
  .ofIdentities C fun
    | .ed25519 key => (C.solanaOwnerIdentity key).map Fr.toBytes
    | .other encoded =>
        if h : encoded.length = 32 then (C.solanaOwnerIdentity ⟨encoded, h⟩).map Fr.toBytes else none

theorem Wallet.withPdas_documented (C : Crypto) : (Wallet.withPdas C).Documented C :=
  ofIdentities_documented fun _ => rfl

end Zolana
