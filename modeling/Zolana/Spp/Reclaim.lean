import Zolana.Spp.Client

set_option autoImplicit false

/-! # Getting a locked UTXO back

What `cancel` of the swap and `withdraw` of the timelock escrow have in common: one UTXO is
spent into one output of the party that locked it, after a timestamp has passed, and that party
signs with a Solana key. Whether this can be done depends on the clock and on the identity of the
party's key, and on nothing else as long as every hash is defined.
-/

namespace Zolana

/-- The hashes are defined on every field element. -/
structure Crypto.Total (C : Crypto) : Prop where
  utxoHash : ∀ u, ∃ h, C.utxoHash u = some h
  publicInput : ∀ p t y, ∃ d, C.poseidon [p, t, y] = some d
  privateTxCommit : ∀ i o b, ∃ d, C.privateTxCommit i o b = some d

/-- Public inputs of one transact and one timestamp have one third word. -/
def Crypto.BindsThird (C : Crypto) : Prop :=
  ∀ ⦃p t y y' d⦄, C.poseidon [p, t, y] = some d → C.poseidon [p, t, y'] = some d → y = y'

/-! ## The clock -/

/-- `i64::MAX`, the largest clock value, as a timestamp. -/
def maxClock : UInt64 := 9223372036854775807

/-- A timestamp passes at some clock value if it is below the largest one. -/
theorem exists_afterWindow_iff {error : ProgramError} {timestamp : UInt64} :
    (∃ now, afterWindow error now timestamp = .ok ()) ↔ timestamp.toNat < 2 ^ 63 - 1 := by
  constructor
  · rintro ⟨now, h⟩
    have hafter := (afterWindow_eq_ok.mp h).2
    have hlt : now.toInt < 2 ^ 63 := now.toInt_lt
    omega
  · intro h
    have hmax : Int64.maxValue.toInt = 2 ^ 63 - 1 := Int64.toInt_maxValue
    refine ⟨Int64.maxValue, afterWindow_eq_ok.mpr ⟨?_, ?_⟩⟩
    · rw [hmax]
      decide
    · rw [hmax]
      omega

/-! ## The signer -/

/-- Some Solana signer has the public input of a signing key exactly if that key is identified as
a Solana address. -/
theorem exists_signer_iff {C : Crypto} {W : Wallet} (hbinds : C.BindsThird) {key : PublicKey}
    {word : Bytes 32} {error : ProgramError} {privateTxHash b : Bytes 32} {timestamp : UInt64}
    (hkey : W.ownerProofInputHash key = some word)
    (hpublic : publicInputHash C error privateTxHash timestamp word = .ok b) :
    (∃ signer pk, C.solanaOwnerIdentity signer = some pk ∧
        publicInputHash C error privateTxHash timestamp pk.toBytes = .ok b) ↔
      ∃ address, W.IdentifiedBy C key address := by
  obtain ⟨p, y, d, hp, hy, hd, rfl⟩ := publicInputHash_eq_ok.mp hpublic
  constructor
  · rintro ⟨signer, pk, hpk, h⟩
    obtain ⟨p', y', d', hp', hy', hd', hword⟩ := publicInputHash_eq_ok.mp h
    have hdigest : d = d' := Fr.toBytes_injective hword
    have hprivate : p = p' := Option.some.inj (hp.symm.trans hp')
    have hpky : pk = y' := Option.some.inj ((Fr.ofBytes_toBytes pk).symm.trans hy')
    subst hdigest hprivate hpky
    have hsame : y = pk := hbinds hd hd'
    subst hsame
    rw [← Fr.toBytes_of_ofBytes hy] at hkey
    exact ⟨signer, y, hpk, hkey⟩
  · rintro ⟨address, pk, hpk, hidentity⟩
    have hword : word = pk.toBytes := Option.some.inj (hkey.symm.trans hidentity)
    subst hword
    exact ⟨address, pk, hpk, hpublic⟩

/-! ## The transact -/

/-- `private_tx_hash` of a transact that spends `input` into `output`, as the builders of both
SDKs compute it. -/
structure SpendsInto (C : Crypto) (input output : Utxo) (blinding privateTxHash : Bytes 32) :
    Prop where
  commits : ∃ h k b d, C.utxoHash input = some h ∧ C.utxoHash output = some k ∧
    Fr.ofBytes blinding = some b ∧ C.privateTxHash [h] [k] b = some d ∧ privateTxHash = d.toBytes

namespace SpendsInto

variable {C : Crypto} {input output : Utxo} {blinding privateTxHash : Bytes 32}

/-- The three calls that compute the hash. -/
theorem iff_calls :
    SpendsInto C input output blinding privateTxHash ↔
      ∃ inWord, ProofInputUtxo.hash C input = .ok inWord ∧
        ∃ outWord, ProofInputUtxo.hash C output = .ok outWord ∧
          PrivateTxHash C [inWord] [outWord] blinding = .ok privateTxHash := by
  constructor
  · rintro ⟨h, k, b, d, hh, hk, hb, hd, rfl⟩
    refine ⟨h.toBytes, ProofInputUtxo.hash_eq_ok.mpr ⟨h, hh, rfl⟩, k.toBytes,
      ProofInputUtxo.hash_eq_ok.mpr ⟨k, hk, rfl⟩, ?_⟩
    exact PrivateTxHash_eq_ok.mpr ⟨[h], [k], b, d, by simp, by simp, hb, hd, rfl⟩
  · rintro ⟨inWord, hin, outWord, hout, hprivate⟩
    obtain ⟨h, hh, rfl⟩ := ProofInputUtxo.hash_eq_ok.mp hin
    obtain ⟨k, hk, rfl⟩ := ProofInputUtxo.hash_eq_ok.mp hout
    obtain ⟨ins, outs, b, d, hins, houts, hb, hd, rfl⟩ := PrivateTxHash_eq_ok.mp hprivate
    have hins' : ins = [h] := by simpa using hins.symm
    have houts' : outs = [k] := by simpa using houts.symm
    subst hins' houts'
    exact ⟨h, k, b, d, hh, hk, hb, hd, rfl⟩

/-- What the circuits recompute. -/
theorem circuit (h : SpendsInto C input output blinding privateTxHash) :
    ∃ ins outs, [input].mapM C.utxoHash = some ins ∧ [output].mapM C.utxoHash = some outs ∧
      C.privateTxHash ins outs (decimal blinding) = some (decimal privateTxHash) := by
  obtain ⟨h, k, b, d, hh, hk, hb, hd, rfl⟩ := h
  refine ⟨[h], [k], by simp [hh], by simp [hk], ?_⟩
  rw [decimal_of_ofBytes hb, decimal_toBytes]
  exact hd

/-- Every two UTXOs have such a hash. -/
theorem exists_of_total (hC : C.Total) (input output : Utxo) (b : Fr) :
    ∃ d : Fr, SpendsInto C input output b.toBytes d.toBytes := by
  obtain ⟨h, hh⟩ := hC.utxoHash input
  obtain ⟨k, hk⟩ := hC.utxoHash output
  obtain ⟨d, hd⟩ := hC.privateTxCommit h k b
  refine ⟨d, h, k, b, d, hh, hk, Fr.ofBytes_toBytes b, ?_, rfl⟩
  exact Crypto.privateTxHash_eq_some.mpr
    ⟨h, k, HashChain.chain_singleton _ _ h, HashChain.chain_singleton _ _ k, hd⟩

end SpendsInto

/-- The public input of two encoded field elements is defined. -/
theorem Crypto.Total.publicInputHash {C : Crypto} (hC : C.Total) (error : ProgramError)
    (p y : Fr) (timestamp : UInt64) :
    ∃ b : Fr, Zolana.publicInputHash C error p.toBytes timestamp y.toBytes = .ok b.toBytes := by
  obtain ⟨d, hd⟩ := hC.publicInput p (Fr.ofU64 timestamp) y
  exact ⟨d, publicInputHash_eq_ok.mpr
    ⟨p, y, d, Fr.ofBytes_toBytes p, Fr.ofBytes_toBytes y, hd, rfl⟩⟩

/-- The client reads a plain output whenever the owner and the asset have hashes. -/
theorem Client.Documented.proofInputUtxo_plain {C : Crypto} {W : Wallet} {L : Client}
    (hL : L.Documented C W) {mint : Mint} {address : ShieldedAddress} {asset owner : Fr}
    (hasset : C.hashBytes mint.asset.1 = some asset)
    (howner : W.ownerHash address = some owner.toBytes) (amount : UInt64) (b : Fr)
    (treeId : UInt16) :
    ∃ u, L.proofInputUtxo (.plain mint amount b.toBytes address) treeId = some u := by
  refine ⟨⟨owner, asset, Fr.ofU64 amount, b, 0, 0, 0, Fr.ofU64 treeId.toUInt64⟩, ?_⟩
  rw [hL.proofInputUtxo _ _ _ rfl rfl rfl, SppProofOutputUtxo.opening_eq_some]
  exact ⟨⟨rfl, rfl⟩, howner, hasset, rfl, Fr.ofBytes_toBytes b, rfl, rfl⟩

/-- An output that a builder makes passes its own check. -/
theorem SppProofOutputUtxo.plain_checked (mint : Mint) (amount : UInt64) (blinding : Blinding)
    (owner : ShieldedAddress) :
    Checked (.plain mint amount blinding owner) mint.asset amount owner :=
  ⟨rfl, rfl, rfl, ⟨rfl, rfl, rfl⟩⟩

/-! ## Linear hashes

Hashes that are defined everywhere, for runs of the builders on given parameters. -/

/-- A linear combination of the entries in which the last one has the coefficient one. -/
def linearHash (xs : List Fr) : Fr := xs.foldl (fun acc x => 256 * acc + x) 0

/-- The crypto of linear hashes. -/
def Crypto.linear : Crypto where
  poseidon xs := some (linearHash xs)
  utxoHash u := some (linearHash
    [u.owner, u.asset, u.amount, u.blinding, u.dataHash, u.ringDataHash, u.ringProgramId, u.treeId])
  privateTxCommit i o b := some (linearHash [i, o, b])
  hashBytes bytes := some (linearHash (bytes.map Fr.ofU8))
  gnarkHashBytes vars := some (linearHash vars)
  ciphertextHash ciphertext := some (linearHash (ciphertext.1.map Fr.ofU8))
  solanaOwnerIdentity address := some (linearHash (address.1.map Fr.ofU8))
  derivePrivateTxBlinding firstNullifier seed := some (linearHash [firstNullifier, seed, 0])
  deriveOutputBlindingSeed firstNullifier seed := some (linearHash [firstNullifier, seed, 1])
  deriveTransactOutputBlinding firstNullifier seed index :=
    some (linearHash [firstNullifier, seed, Fr.ofU64 index.toUInt64])
  keyStream _ _ n := some (Bytes.replicate n 0)

theorem Crypto.linear_total : Crypto.linear.Total :=
  ⟨fun _ => ⟨_, rfl⟩, fun _ _ _ => ⟨_, rfl⟩, fun _ _ _ => ⟨_, rfl⟩⟩

theorem Crypto.linear_bindsThird : Crypto.linear.BindsThird := by
  intro p t y y' d h h'
  have hsum : 256 * (256 * (256 * 0 + p) + t) + y = 256 * (256 * (256 * 0 + p) + t) + y' :=
    Option.some.inj (h.trans h'.symm)
  exact add_left_cancel hsum

end Zolana
