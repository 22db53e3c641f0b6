import Zolana.Spp.Wallet

set_option autoImplicit false

/-! # The proof client

What the proof builders of both SDKs call: `spr_client` and `spr_gnark_ffi_prover`, which turn
outputs into the UTXOs of a witness, the spendable form of a UTXO in `spr_transaction`, and
`check_output_utxo`, which the SDKs share. The witness holds field elements and the builders
hold words; `decimal` is the way from one to the other.
-/

namespace Zolana

/-! ## Failing -/

/-- `if p { bail!(text) }`. -/
def bailIf (p : Prop) [Decidable p] (text : String) : SdkResult Unit :=
  if p then .error (.message text) else .ok ()

@[simp] theorem bailIf_eq_ok {p : Prop} [Decidable p] {text : String} {u : Unit} :
    bailIf p text = .ok u ↔ ¬p := by
  unfold bailIf
  by_cases hp : p
  · simp [hp]
  · simp [hp]

/-- Every call of the SDK succeeds or fails. -/
theorem SdkResult.ok_or_error {α : Type} (x : SdkResult α) :
    (∃ a, x = .ok a) ∨ ∃ e, x = .error e := by
  cases x with
  | error e => exact .inr ⟨e, rfl⟩
  | ok a => exact .inl ⟨a, rfl⟩

/-- Whether a call succeeds with a property can be computed. -/
instance {α : Type} (x : SdkResult α) (P : α → Prop) [DecidablePred P] :
    Decidable (∃ a, x = .ok a ∧ P a) :=
  match x with
  | .error _ => .isFalse (by rintro ⟨a, h, -⟩; cases h)
  | .ok a => decidable_of_iff (P a) ⟨fun h => ⟨a, rfl, h⟩, by rintro ⟨b, h, hb⟩; cases h; exact hb⟩

/-- `.hash().map_err(err)?` of a program's public inputs. -/
def ofProgram {α : Type} (x : ProgramResult α) : SdkResult α := orErr x.toOption

@[simp] theorem ofProgram_eq_ok {α : Type} {x : ProgramResult α} {a : α} :
    ofProgram x = .ok a ↔ x = .ok a := by
  cases x with
  | error e => simp [ofProgram, orErr, Except.toOption]
  | ok b => simp [ofProgram, orErr, Except.toOption]

/-! ## Witness values -/

/-- `decimal`: the number that the bytes encode, as a witness value. -/
def decimal (word : Bytes 32) : Fr := Fin.ofNat modulus (BigEndian.ofBytesBE word.1)

/-- The witness value of an encoded field element is that element. -/
theorem decimal_of_ofBytes {word : Bytes 32} {x : Fr} (h : Fr.ofBytes word = some x) :
    decimal word = x := by
  have hval : BigEndian.ofBytesBE word.1 = x.val := Fr.ofBytes_eq_some.mp h
  apply Fin.ext
  show BigEndian.ofBytesBE word.1 % modulus = x.val
  rw [hval, Nat.mod_eq_of_lt x.isLt]

@[simp] theorem decimal_toBytes (x : Fr) : decimal x.toBytes = x :=
  decimal_of_ofBytes (Fr.ofBytes_toBytes x)

@[simp] theorem decimal_u64RightAlign (x : UInt64) : decimal (u64RightAlign x) = Fr.ofU64 x :=
  decimal_of_ofBytes (ofBytes_u64RightAlign x)

/-- The public input of a program is the circuits' hash of its words. -/
theorem poseidon_of_publicInputHash {C : Crypto} {error : ProgramError}
    {privateTxHash third b : Bytes 32} {timestamp : UInt64}
    (h : publicInputHash C error privateTxHash timestamp third = .ok b) :
    C.poseidon [decimal privateTxHash, Fr.ofU64 timestamp, decimal third] = some (decimal b) := by
  obtain ⟨p, y, d, hp, hy, hd, hword⟩ := publicInputHash_eq_ok.mp h
  rw [decimal_of_ofBytes hp, decimal_of_ofBytes hy, hword, decimal_toBytes]
  exact hd

/-- The two words of an address are the circuits' preimage of its owner hash. -/
theorem Wallet.Documented.poseidon_owner {C : Crypto} {W : Wallet} (hW : W.Documented C)
    {a : ShieldedAddress} {pkField : Bytes 32} {owner : Fr}
    (hpk : W.ownerProofInputHash a.signingPubkey = some pkField)
    (howner : W.ownerHash a = some owner.toBytes) :
    C.poseidon [decimal pkField, decimal a.nullifierPubkey] = some owner := by
  obtain ⟨pk, n, owner', hpk', hn, hposeidon, hword⟩ := hW.ownerHash_eq_some howner
  have hpkWord : pkField = pk.toBytes := Option.some.inj (hpk.symm.trans hpk')
  have hsame : owner = owner' := Fr.toBytes_injective hword
  rw [hpkWord, decimal_toBytes, decimal_of_ofBytes hn, hsame]
  exact hposeidon

/-- The bytes of a key as variables, `b.to_string()` for each byte. -/
def keyVariables (key : Bytes 33) : {vars : List Fr // vars.length = 33} :=
  ⟨key.1.map Fr.ofU8, by rw [List.length_map, key.2]⟩

/-- `gnarksdk.HashBytes` of a viewing key is `hash_bytes` of it. -/
def Crypto.HashesKeys (C : Crypto) : Prop :=
  ∀ key : Bytes 33, C.gnarkHashBytes (keyVariables key).1 = C.hashBytes key.1

/-- `ProofInputUtxo`: a UTXO as `utxo_proof_inputs` writes it into the witness. -/
abbrev ProofInputUtxo := Utxo

/-- `ProofInputUtxo::hash`. -/
def ProofInputUtxo.hash (C : Crypto) (u : ProofInputUtxo) : SdkResult (Bytes 32) :=
  orErr ((C.utxoHash u).map Fr.toBytes)

theorem ProofInputUtxo.hash_eq_ok {C : Crypto} {u : ProofInputUtxo} {word : Bytes 32} :
    ProofInputUtxo.hash C u = .ok word ↔ ∃ h, C.utxoHash u = some h ∧ word = h.toBytes := by
  simp only [ProofInputUtxo.hash, orErr_eq_ok, Option.map_eq_some_iff, eq_comm (a := word)]

/-- `PrivateTxHash::new(inputs, outputs, blinding).hash()`. -/
def PrivateTxHash (C : Crypto) (inputs outputs : List (Bytes 32)) (blinding : Bytes 32) :
    SdkResult (Bytes 32) :=
  orErr do
    let inputs ← inputs.mapM Fr.ofBytes
    let outputs ← outputs.mapM Fr.ofBytes
    let blinding ← Fr.ofBytes blinding
    (C.privateTxHash inputs outputs blinding).map Fr.toBytes

theorem PrivateTxHash_eq_ok {C : Crypto} {inputs outputs : List (Bytes 32)}
    {blinding word : Bytes 32} :
    PrivateTxHash C inputs outputs blinding = .ok word ↔
      ∃ ins outs b d, inputs.mapM Fr.ofBytes = some ins ∧ outputs.mapM Fr.ofBytes = some outs ∧
        Fr.ofBytes blinding = some b ∧ C.privateTxHash ins outs b = some d ∧
        word = d.toBytes := by
  simp only [PrivateTxHash, orErr_eq_ok, Option.bind_eq_bind, Option.bind_eq_some_iff,
    Option.map_eq_some_iff, eq_comm (a := word)]
  constructor
  · rintro ⟨ins, hins, outs, houts, b, hb, d, hd, hword⟩
    exact ⟨ins, outs, b, d, hins, houts, hb, hd, hword⟩
  · rintro ⟨ins, outs, b, d, hins, houts, hb, hd, hword⟩
    exact ⟨ins, hins, outs, houts, b, hb, d, hd, hword⟩

/-- The words that the builders hash are the hashes of their UTXOs. -/
theorem mapM_utxoHash_of_hash {C : Crypto} {us : List Utxo} {words : List (Bytes 32)}
    {hs : List Fr} (h : List.Forall₂ (fun u w => ProofInputUtxo.hash C u = .ok w) us words)
    (hwords : words.mapM Fr.ofBytes = some hs) : us.mapM C.utxoHash = some hs := by
  induction h generalizing hs with
  | nil => exact hwords
  | @cons u w us words hhash _ ih =>
      obtain ⟨d, hd, rfl⟩ := ProofInputUtxo.hash_eq_ok.mp hhash
      simp only [List.mapM_cons, Fr.ofBytes_toBytes, Option.bind_eq_bind, Option.bind_some,
        Option.bind_eq_some_iff, Option.pure_def, Option.some.injEq] at hwords
      obtain ⟨ds, hds, rfl⟩ := hwords
      rw [List.mapM_cons, hd, ih hds]
      rfl

/-- The hash that a builder computes from the words of UTXOs is the one of these UTXOs. -/
theorem privateTxHash_of_words {C : Crypto} {us vs : List Utxo} {inputs outputs : List (Bytes 32)}
    {blinding word : Bytes 32}
    (hinputs : List.Forall₂ (fun u w => ProofInputUtxo.hash C u = .ok w) us inputs)
    (houtputs : List.Forall₂ (fun u w => ProofInputUtxo.hash C u = .ok w) vs outputs)
    (h : PrivateTxHash C inputs outputs blinding = .ok word) :
    ∃ ins outs b d, us.mapM C.utxoHash = some ins ∧ vs.mapM C.utxoHash = some outs ∧
      Fr.ofBytes blinding = some b ∧ C.privateTxHash ins outs b = some d ∧ word = d.toBytes := by
  obtain ⟨ins, outs, b, d, hins, houts, hb, hd, hword⟩ := PrivateTxHash_eq_ok.mp h
  exact ⟨ins, outs, b, d, mapM_utxoHash_of_hash hinputs hins, mapM_utxoHash_of_hash houtputs houts,
    hb, hd, hword⟩

/-! ## Outputs -/

/-- `check_output_utxo`. -/
def checkOutputUtxo (label : String) (output : SppProofOutputUtxo) (mint : Address)
    (amount : UInt64) : SdkResult ShieldedAddress := do
  let owner ← orErrText output.ownerAddress (label ++ " owner address missing")
  bailIf (output.asset.asset ≠ mint) (debugText (label ++ " asset mismatch"))
  bailIf (output.amount ≠ amount) (debugText (label ++ " amount mismatch"))
  bailIf (output.dataHash.isSome ∨ output.ringDataHash.isSome ∨ output.ringProgramId.isSome)
    (debugText (label ++ " must not carry data or ring commitments"))
  return owner

/-- The output carries neither data nor ring fields. -/
structure SppProofOutputUtxo.Plain (output : SppProofOutputUtxo) : Prop where
  dataHash : output.dataHash = none
  ringDataHash : output.ringDataHash = none
  ringProgramId : output.ringProgramId = none

theorem SppProofOutputUtxo.plain_iff {output : SppProofOutputUtxo} :
    ¬(output.dataHash.isSome ∨ output.ringDataHash.isSome ∨ output.ringProgramId.isSome) ↔
      output.Plain := by
  simp only [not_or, Option.not_isSome_iff_eq_none]
  constructor
  · rintro ⟨h1, h2, h3⟩
    exact ⟨h1, h2, h3⟩
  · rintro ⟨h1, h2, h3⟩
    exact ⟨h1, h2, h3⟩

/-- What `check_output_utxo` checks. -/
structure Checked (output : SppProofOutputUtxo) (mint : Address) (amount : UInt64)
    (owner : ShieldedAddress) : Prop where
  owner : output.ownerAddress = some owner
  asset : output.asset.asset = mint
  amount : output.amount = amount
  plain : output.Plain

theorem checkOutputUtxo_eq_ok {label : String} {output : SppProofOutputUtxo} {mint : Address}
    {amount : UInt64} {owner : ShieldedAddress} :
    checkOutputUtxo label output mint amount = .ok owner ↔ Checked output mint amount owner := by
  simp only [checkOutputUtxo, SdkResult.bind_eq_ok, orErrText_eq_ok, bailIf_eq_ok, ne_eq,
    not_not, SppProofOutputUtxo.plain_iff, pure, Except.pure, Except.ok.injEq]
  constructor
  · rintro ⟨_, howner, _, hasset, _, hamount, _, hplain, rfl⟩
    exact ⟨howner, hasset, hamount, hplain⟩
  · rintro ⟨howner, hasset, hamount, hplain⟩
    exact ⟨owner, howner, (), hasset, (), hamount, (), hplain, rfl⟩

/-- The fields of the UTXO that an output opens. -/
theorem SppProofOutputUtxo.opening_eq_some {C : Crypto} {output : SppProofOutputUtxo}
    {ownerHash : Option (Bytes 32)} {treeId : UInt16} {u : Utxo} :
    output.opening C ownerHash treeId = some u ↔
      u.DefaultRing ∧ ownerHash = some u.owner.toBytes ∧
        C.hashBytes output.asset.asset.1 = some u.asset ∧ u.amount = Fr.ofU64 output.amount ∧
        Fr.ofBytes output.blinding = some u.blinding ∧
        (output.dataHash.map Fr.ofBytes).getD (some 0) = some u.dataHash ∧
        u.treeId = Fr.ofU64 treeId.toUInt64 := by
  simp only [SppProofOutputUtxo.opening, Option.bind_eq_bind, Option.bind_eq_some_iff,
    Option.pure_def, Option.some.injEq]
  constructor
  · rintro ⟨word, rfl, owner, howner, asset, hasset, blinding, hblinding, dataHash, hdata, rfl⟩
    refine ⟨⟨rfl, rfl⟩, ?_, hasset, rfl, hblinding, hdata, rfl⟩
    rw [Fr.toBytes_of_ofBytes howner]
  · rintro ⟨⟨hring, hprogram⟩, howner, hasset, hamount, hblinding, hdata, htree⟩
    refine ⟨_, howner, _, Fr.ofBytes_toBytes _, _, hasset, _, hblinding, _, hdata, ?_⟩
    cases u
    simp_all

/-! ## Inputs -/

/-- `spr_transaction::utxo::Utxo`, with the default `data`. -/
structure WalletUtxo where
  owner : PublicKey
  asset : Mint
  amount : UInt64
  blinding : Blinding
  ringProgramId : Option Address
  deriving DecidableEq

/-- `SppProofInputUtxo`. -/
structure SppProofInputUtxo where
  utxo : WalletUtxo
  utxoHash : Bytes 32
  nullifier : Bytes 32
  nullifierPubkey : Bytes 32
  dataHash : Option (Bytes 32)
  ringDataHash : Option (Bytes 32)
  treeId : UInt16
  leafIndex : UInt64
  deriving DecidableEq

/-- The client library. -/
structure Client where
  /-- `ProofInputUtxo::try_from((output, tree_id))`. -/
  proofInputUtxo : SppProofOutputUtxo → UInt16 → Option ProofInputUtxo
  /-- `Utxo::hash(nullifier_pubkey, data_hash, ring_data_hash, tree_id)`. -/
  utxoHash : WalletUtxo → Bytes 32 → Bytes 32 → Bytes 32 → UInt16 → Option (Bytes 32)
  /-- `NullifierKey::from_secret(secret).nullifier(utxo_hash, blinding)`. -/
  nullifier : Fr → Bytes 32 → Blinding → Option (Bytes 32)

/-- The UTXO that a wallet UTXO without ring fields opens, under a nullifier key. -/
def WalletUtxo.opening (C : Crypto) (W : Wallet) (utxo : WalletUtxo)
    (nullifierPubkey dataHash : Bytes 32) (treeId : UInt16) : Option Utxo :=
  SppProofOutputUtxo.opening C
    ⟨utxo.asset, utxo.amount, utxo.blinding, none, none, some dataHash, none, none⟩
    (do
      let pk ← W.ownerProofInputHash utxo.owner
      C.hashv [pk, nullifierPubkey])
    treeId

/-- How the client reads outputs and hashes inputs: an input and an output of one UTXO have one
hash. -/
structure Client.Documented (C : Crypto) (W : Wallet) (L : Client) : Prop where
  proofInputUtxo : ∀ (output : SppProofOutputUtxo) (owner : ShieldedAddress) (treeId : UInt16),
    output.ownerAddress = some owner → output.ringDataHash = none →
    output.ringProgramId = none →
    L.proofInputUtxo output treeId = output.opening C (W.ownerHash owner) treeId
  utxoHash : ∀ (utxo : WalletUtxo) (nullifierPubkey dataHash : Bytes 32) (treeId : UInt16),
    utxo.ringProgramId = none →
    L.utxoHash utxo nullifierPubkey dataHash (Bytes.replicate 32 0) treeId =
      ((utxo.opening C W nullifierPubkey dataHash treeId).bind C.utxoHash).map Fr.toBytes
  nullifier : ∀ secret utxoHash blinding,
    L.nullifier secret utxoHash blinding = C.hashv [utxoHash, blinding, Fr.toBytes secret]
  x25519FromBytes : ∀ key : X25519Pubkey, W.x25519FromBytes key.bytes = some key

/-- The client that behaves as documented. -/
def Client.ofCrypto (C : Crypto) (W : Wallet) : Client where
  proofInputUtxo output treeId := output.opening C (output.ownerAddress.bind W.ownerHash) treeId
  utxoHash utxo nullifierPubkey dataHash _ treeId :=
    ((utxo.opening C W nullifierPubkey dataHash treeId).bind C.utxoHash).map Fr.toBytes
  nullifier secret utxoHash blinding := C.hashv [utxoHash, blinding, Fr.toBytes secret]

theorem Client.ofCrypto_documented {C : Crypto} {W : Wallet}
    (hW : ∀ key : X25519Pubkey, W.x25519FromBytes key.bytes = some key) :
    (Client.ofCrypto C W).Documented C W where
  proofInputUtxo output owner treeId howner _ _ := by
    simp [Client.ofCrypto, howner]
  utxoHash _ _ _ _ _ := rfl
  nullifier _ _ _ := rfl
  x25519FromBytes := hW

/-- The input form of an output without ring fields has the hash of the UTXO that the output
opens. -/
theorem Client.Documented.utxoHash_of_opening {C : Crypto} {W : Wallet} {L : Client}
    (hL : L.Documented C W) (hW : W.Documented C) {owner : ShieldedAddress} {asset : Mint}
    {amount : UInt64} {blinding : Blinding} {dataHash : Bytes 32} {treeId : UInt16} {u : Utxo}
    (hu : SppProofOutputUtxo.opening C
      ⟨asset, amount, blinding, none, none, some dataHash, none, none⟩ (W.ownerHash owner) treeId =
        some u) :
    L.utxoHash ⟨owner.signingPubkey, asset, amount, blinding, none⟩ owner.nullifierPubkey dataHash
      (Bytes.replicate 32 0) treeId = (C.utxoHash u).map Fr.toBytes := by
  have hopening : WalletUtxo.opening C W ⟨owner.signingPubkey, asset, amount, blinding, none⟩
      owner.nullifierPubkey dataHash treeId = some u := by
    rw [hW.ownerHash] at hu
    exact hu
  rw [hL.utxoHash _ _ _ _ rfl, hopening]
  rfl

/-- The UTXO that the client reads from a checked output pays the amount to its owner. -/
theorem Checked.pays {C : Crypto} {W : Wallet} {L : Client} (hL : L.Documented C W)
    {output : SppProofOutputUtxo} {mint : Address} {amount : UInt64} {owner : ShieldedAddress}
    {treeId : UInt16} {u : Utxo} (h : Checked output mint amount owner)
    (hu : L.proofInputUtxo output treeId = some u) :
    Pays u u.asset (Fr.ofU64 amount) u.owner ∧ C.hashBytes mint.1 = some u.asset ∧
      W.ownerHash owner = some u.owner.toBytes ∧ Fr.ofBytes output.blinding = some u.blinding ∧
      u.treeId = Fr.ofU64 treeId.toUInt64 := by
  rw [hL.proofInputUtxo output owner treeId h.owner h.plain.ringDataHash h.plain.ringProgramId,
    SppProofOutputUtxo.opening_eq_some] at hu
  obtain ⟨hring, howner, hasset, hamount, hblinding, hdata, htree⟩ := hu
  rw [h.plain.dataHash, Option.map_none, Option.getD_none, Option.some.injEq] at hdata
  rw [h.asset] at hasset
  rw [h.amount] at hamount
  exact ⟨⟨⟨hdata.symm, hring⟩, rfl, hamount, rfl⟩, hasset, howner, hblinding, htree⟩

/-- An output has the hash of the UTXO that the client reads it as. -/
theorem outputHash_of_proofInputUtxo {C : Crypto} {W : Wallet} {L : Client} (hW : W.Documented C)
    (hL : L.Documented C W) {output : SppProofOutputUtxo} {owner : ShieldedAddress}
    {treeId : UInt16} {u : Utxo} (howner : output.ownerAddress = some owner)
    (hring : output.ringDataHash = none) (hprogram : output.ringProgramId = none)
    (hu : L.proofInputUtxo output treeId = some u) :
    W.outputHash output treeId = (C.utxoHash u).map Fr.toBytes := by
  have hopening := hL.proofInputUtxo output owner treeId howner hring hprogram
  rw [hu] at hopening
  rw [hW.outputHash output owner treeId howner hring hprogram, ← hopening]
  rfl

theorem Checked.outputHash {C : Crypto} {W : Wallet} {L : Client} (hW : W.Documented C)
    (hL : L.Documented C W) {output : SppProofOutputUtxo} {mint : Address} {amount : UInt64}
    {owner : ShieldedAddress} {treeId : UInt16} {u : Utxo}
    (h : Checked output mint amount owner) (hu : L.proofInputUtxo output treeId = some u) :
    W.outputHash output treeId = (C.utxoHash u).map Fr.toBytes :=
  outputHash_of_proofInputUtxo hW hL h.owner h.plain.ringDataHash h.plain.ringProgramId hu

end Zolana
