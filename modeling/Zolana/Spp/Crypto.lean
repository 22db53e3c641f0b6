import Zolana.Basic.HashChain
import Zolana.Basic.Oracle
import Zolana.Spp.Gnark

set_option autoImplicit false

/-! # UTXOs, hashes and the private transaction hash

The cryptographic functions live outside the repository (`spr_hasher`, `spr_keypair`,
`spr_transaction`, `gnarksdk`) and are the fields of `Crypto`. Each is a partial function: it
is `none` where the Rust function returns an error, and what the security properties ask of
it (`Crypto.Ideal`) is freedom from collisions among the preimages where it is defined. The
circuits' gadgets and the Rust functions are the same field.
-/

namespace Zolana

open Gnark

/-- `gnarksdk.Utxo`, and the preimage of SPP's UTXO hash. -/
structure Utxo where
  owner : Fr
  asset : Fr
  amount : Fr
  blinding : Fr
  dataHash : Fr
  ringDataHash : Fr
  ringProgramId : Fr
  treeId : Fr
  deriving DecidableEq

namespace Utxo

/-- `Utxo.AssertDefaultRing`. -/
def assertDefaultRing (u : Utxo) : Option Unit := do
  assertIsEqual u.ringDataHash 0
  assertIsEqual u.ringProgramId 0

/-- The ring fields are the default ones. -/
def DefaultRing (u : Utxo) : Prop := u.ringDataHash = 0 ∧ u.ringProgramId = 0

/-- The UTXO carries neither data nor ring fields. -/
def Dataless (u : Utxo) : Prop := u.dataHash = 0 ∧ u.DefaultRing

@[simp] theorem assertDefaultRing_eq_some {u : Utxo} {x : Unit} :
    u.assertDefaultRing = some x ↔ u.DefaultRing := by
  simp [assertDefaultRing, DefaultRing, Option.bind_eq_some_iff]

end Utxo

/-- The UTXO holds `amount` of `asset` for `owner`, without data or ring fields. -/
structure Pays (u : Utxo) (asset amount owner : Fr) : Prop where
  dataless : u.Dataless
  asset : u.asset = asset
  amount : u.amount = amount
  owner : u.owner = owner

/-- The external cryptographic functions. -/
structure Crypto where
  /-- `Poseidon`, the arity being the length of the list. -/
  poseidon : List Fr → Option Fr
  /-- `Utxo.Hash`. -/
  utxoHash : Utxo → Option Fr
  /-- The last step of `PrivateTxHash`: input chain, output chain, blinding. -/
  privateTxCommit : Fr → Fr → Fr → Option Fr
  /-- `spr_hasher::primitives::hash_bytes`. -/
  hashBytes : List UInt8 → Option Fr
  /-- `gnarksdk.HashBytes`, on one variable a byte. -/
  gnarkHashBytes : List Fr → Option Fr
  /-- `spr_interface::merge_utils::ciphertext_hash`. -/
  ciphertextHash : Bytes 72 → Option Fr
  /-- `spr_hasher::primitives::solana_owner_identity`. -/
  solanaOwnerIdentity : Address → Option Fr
  /-- `derive_private_tx_blinding(first_nullifier, seed)`. -/
  derivePrivateTxBlinding : Fr → Fr → Option Fr
  /-- `derive_output_blinding_seed(first_nullifier, seed)`. -/
  deriveOutputBlindingSeed : Fr → Fr → Option Fr
  /-- `derive_transact_output_blinding(first_nullifier, seed, index)`. -/
  deriveTransactOutputBlinding : Fr → Fr → UInt32 → Option Fr
  /-- The stream `symmetric_apply` XORs with: shared secret, info, length. -/
  keyStream : Fr → List UInt8 → (n : ℕ) → Option (Bytes n)

namespace Crypto

variable (C : Crypto)

/-- `Poseidon::hashv`: every word has to denote a field element. -/
def hashv (xs : List (Bytes 32)) : Option (Bytes 32) := do
  let fes ← xs.mapM Fr.ofBytes
  let digest ← C.poseidon fes
  return digest.toBytes

/-- The two-to-one hash of the chains. -/
def node (acc h : Fr) : Option Fr := C.poseidon [acc, h]

/-- The chain over the nonzero entries of a list of UTXO hashes. -/
def hashChain (hs : List Fr) : Option Fr := HashChain.chain C.node 0 hs

/-- `gnarksdk.PrivateTxHash`, and SPP's `PrivateTxHash::hash`. -/
def privateTxHash (inputs outputs : List Fr) (blinding : Fr) : Option Fr := do
  let inputChain ← C.hashChain inputs
  let outputChain ← C.hashChain outputs
  C.privateTxCommit inputChain outputChain blinding

/-- `gnarksdk.AssertTransactionBlindings`. -/
def assertTransactionBlindings (firstNullifier seed privateTxBlinding blinding0 blinding1 : Fr) :
    Option Unit := do
  let ptb ← C.derivePrivateTxBlinding firstNullifier seed
  assertIsEqual privateTxBlinding ptb
  let out ← C.deriveOutputBlindingSeed firstNullifier seed
  let b0 ← C.deriveTransactOutputBlinding firstNullifier out 0
  assertIsEqual blinding0 b0
  let b1 ← C.deriveTransactOutputBlinding firstNullifier out 1
  assertIsEqual blinding1 b1

/-- `symmetric_apply`: XOR with the key stream. The circuits' `KeySchedule` and `CTREncrypt`
compute the same bytes. -/
def symmetricApply {n : ℕ} (sharedSecret : Fr) (info : List UInt8) (buf : Bytes n) :
    Option (Bytes n) := do
  let stream ← C.keyStream sharedSecret info n
  return buf.xor stream

/-- The checks the circuits make on a UTXO that carries terms: default ring fields, the hash
of the terms as data, a nonzero amount. Returns its hash. -/
def checkDataUtxo (u : Utxo) (dataHash : Fr) : Option Fr := do
  u.assertDefaultRing
  assertIsEqual u.dataHash dataHash
  assertIsDifferent u.amount 0
  C.utxoHash u

/-- The checks the circuits make on a UTXO that carries no data: default ring fields, the
asset, and the amount and owner where the circuit fixes them. Returns its hash. -/
def checkPlainUtxo (u : Utxo) (asset : Fr) (amount owner : Option Fr) : Option Fr := do
  u.assertDefaultRing
  assertIsEqual u.dataHash 0
  assertIsEqual u.asset asset
  amount.forM (assertIsEqual u.amount)
  owner.forM (assertIsEqual u.owner)
  C.utxoHash u

/-- Freedom from collisions and the domain separation between the hashes. Zero is the hash
of a dummy entry, so no preimage of zero is known. -/
structure Ideal : Prop where
  poseidon : Oracle.CollisionFree C.poseidon
  poseidon_ne_zero : Oracle.Avoids C.poseidon 0
  utxoHash : Oracle.CollisionFree C.utxoHash
  utxoHash_ne_zero : Oracle.Avoids C.utxoHash 0
  utxoHash_ne_node : ∀ {u h}, C.utxoHash u = some h → HashChain.IsLeaf C.node h
  privateTxCommit : ∀ {i o b i' o' b' d}, C.privateTxCommit i o b = some d →
    C.privateTxCommit i' o' b' = some d → i = i' ∧ o = o' ∧ b = b'
  solanaOwnerIdentity : Oracle.CollisionFree C.solanaOwnerIdentity

/-- `gnarksdk.HashBytes` on the bytes of a ciphertext is `ciphertext_hash`, and no two
ciphertexts collide. -/
structure HashesCiphertexts : Prop where
  gnarkHashBytes : ∀ ciphertext : Bytes 72,
    C.gnarkHashBytes (ciphertext.1.map Fr.ofU8) = C.ciphertextHash ciphertext
  collisionFree : Oracle.CollisionFree C.ciphertextHash

variable {C}

theorem Ideal.nodeInjective (hC : C.Ideal) : HashChain.NodeInjective C.node := by
  intro a b c d x hab hcd
  have h := hC.poseidon hab hcd
  simp only [List.cons.injEq, and_true] at h
  exact h

theorem Ideal.isLeaf_zero (hC : C.Ideal) : HashChain.IsLeaf C.node 0 :=
  fun a b => hC.poseidon_ne_zero [a, b]

/-- Hashes that are tables are ideal, if the digests of UTXOs come before those of Poseidon
and zero is no digest. -/
theorem Ideal.of_tables {C : Crypto} {ku kp kc ks : ℕ} {utxos : List Utxo}
    {preimages : List (List Fr)} {commits : List (Fr × Fr × Fr)} {signers : List Address}
    (hutxo : C.utxoHash = Oracle.tabulate (Fr.offset ku) utxos)
    (hposeidon : C.poseidon = Oracle.tabulate (Fr.offset kp) preimages)
    (hcommit : ∀ i o b, C.privateTxCommit i o b = Oracle.tabulate (Fr.offset kc) commits (i, o, b))
    (hsigner : C.solanaOwnerIdentity = Oracle.tabulate (Fr.offset ks) signers) (hzero : 0 < ku)
    (hapart : ku + utxos.length ≤ kp) (hlen : kp + preimages.length ≤ modulus)
    (hlenc : kc + commits.length ≤ modulus) (hlens : ks + signers.length ≤ modulus) :
    C.Ideal := by
  have hpos : ∀ {k i : ℕ}, 0 < k → k + i < modulus → Fr.offset k i ≠ 0 := by
    intro k i hk hlt h0
    have hval : (k + i) % modulus = 0 := congrArg Fin.val h0
    rw [Nat.mod_eq_of_lt hlt] at hval
    omega
  have hsep : Oracle.Separated C.utxoHash C.poseidon := by
    rw [hutxo, hposeidon]
    refine Oracle.tabulate_separated ?_
    intro i hi j hj h
    have hval : (ku + i) % modulus = (kp + j) % modulus := congrArg Fin.val h
    rw [Nat.mod_eq_of_lt (by omega), Nat.mod_eq_of_lt (by omega)] at hval
    omega
  refine ⟨?_, ?_, ?_, ?_, ?_, ?_, ?_⟩
  · rw [hposeidon]
    exact Fr.tabulate_offset_collisionFree hlen
  · rw [hposeidon]
    refine Oracle.tabulate_avoids ?_
    intro i hi
    exact hpos (by omega) (by omega)
  · rw [hutxo]
    exact Fr.tabulate_offset_collisionFree (by omega)
  · rw [hutxo]
    refine Oracle.tabulate_avoids ?_
    intro i hi
    exact hpos hzero (by omega)
  · intro u h hu a b
    exact hsep hu
  · intro i o b i' o' b' d h h'
    rw [hcommit] at h h'
    have heq := Fr.tabulate_offset_collisionFree hlenc h h'
    simp only [Prod.mk.injEq] at heq
    exact heq
  · rw [hsigner]
    exact Fr.tabulate_offset_collisionFree hlens

theorem hashv_eq_some {xs : List (Bytes 32)} {b : Bytes 32} :
    C.hashv xs = some b ↔
      ∃ fes d, xs.mapM Fr.ofBytes = some fes ∧ C.poseidon fes = some d ∧ b = d.toBytes := by
  simp only [hashv, Option.bind_eq_bind, Option.bind_eq_some_iff, Option.pure_def,
    Option.some.injEq]
  constructor
  · rintro ⟨fes, hfes, d, hd, rfl⟩
    exact ⟨fes, d, hfes, hd, rfl⟩
  · rintro ⟨fes, d, hfes, hd, rfl⟩
    exact ⟨fes, hfes, d, hd, rfl⟩

theorem assertTransactionBlindings_eq_some {firstNullifier seed privateTxBlinding blinding0
    blinding1 : Fr} {u : Unit} :
    C.assertTransactionBlindings firstNullifier seed privateTxBlinding blinding0 blinding1 = some u ↔
      C.derivePrivateTxBlinding firstNullifier seed = some privateTxBlinding ∧
        ∃ out, C.deriveOutputBlindingSeed firstNullifier seed = some out ∧
          C.deriveTransactOutputBlinding firstNullifier out 0 = some blinding0 ∧
          C.deriveTransactOutputBlinding firstNullifier out 1 = some blinding1 := by
  simp only [assertTransactionBlindings, Option.bind_eq_bind, Option.bind_eq_some_iff,
    assertIsEqual_eq_some, exists_const]
  constructor
  · rintro ⟨_, hptb, rfl, out, hout, _, h0, rfl, _, h1, rfl⟩
    exact ⟨hptb, out, hout, h0, h1⟩
  · rintro ⟨hptb, out, hout, h0, h1⟩
    exact ⟨_, hptb, rfl, out, hout, _, h0, rfl, _, h1, rfl⟩

/-- Applying the key stream again gives the buffer back. -/
theorem symmetricApply_involutive {n : ℕ} {sharedSecret : Fr} {info : List UInt8}
    {buf buf' : Bytes n} (h : C.symmetricApply sharedSecret info buf = some buf') :
    C.symmetricApply sharedSecret info buf' = some buf := by
  simp only [symmetricApply, Option.bind_eq_bind, Option.bind_eq_some_iff, Option.pure_def,
    Option.some.injEq] at h ⊢
  obtain ⟨stream, hstream, rfl⟩ := h
  exact ⟨stream, hstream, Bytes.xor_xor buf stream⟩

theorem checkDataUtxo_eq_some {u : Utxo} {dataHash h : Fr} :
    C.checkDataUtxo u dataHash = some h ↔
      u.DefaultRing ∧ u.dataHash = dataHash ∧ u.amount ≠ 0 ∧ C.utxoHash u = some h := by
  simp [checkDataUtxo, Option.bind_eq_some_iff]

theorem checkPlainUtxo_eq_some {u : Utxo} {asset h : Fr} {amount owner : Option Fr} :
    C.checkPlainUtxo u asset amount owner = some h ↔
      u.Dataless ∧ u.asset = asset ∧ (∀ a ∈ amount, u.amount = a) ∧ (∀ o ∈ owner, u.owner = o) ∧
        C.utxoHash u = some h := by
  have hforM : ∀ (x : Fr) (y : Option Fr) (t : Unit),
      y.forM (assertIsEqual x) = some t ↔ ∀ z ∈ y, x = z := by
    intro x y t
    cases y <;> simp [Option.forM]
  simp only [checkPlainUtxo, Option.bind_eq_bind, Option.bind_eq_some_iff, hforM,
    Utxo.assertDefaultRing_eq_some, assertIsEqual_eq_some, exists_const, Utxo.Dataless]
  constructor
  · rintro ⟨hring, hdata, hasset, hamount, howner, hh⟩
    exact ⟨⟨hdata, hring⟩, hasset, hamount, howner, hh⟩
  · rintro ⟨⟨hdata, hring⟩, hasset, hamount, howner, hh⟩
    exact ⟨hring, hdata, hasset, hamount, howner, hh⟩

/-- A plain UTXO with amount and owner fixed pays that amount to that owner. -/
theorem checkPlainUtxo_some_some_eq_some {u : Utxo} {asset amount owner h : Fr} :
    C.checkPlainUtxo u asset (some amount) (some owner) = some h ↔
      Pays u asset amount owner ∧ C.utxoHash u = some h := by
  rw [checkPlainUtxo_eq_some]
  constructor
  · rintro ⟨hplain, hasset, hamount, howner, hh⟩
    exact ⟨⟨hplain, hasset, hamount _ rfl, howner _ rfl⟩, hh⟩
  · rintro ⟨⟨hplain, hasset, hamount, howner⟩, hh⟩
    exact ⟨hplain, hasset, by simp [hamount], by simp [howner], hh⟩

/-- A plain UTXO with the amount fixed pays that amount to its own owner. -/
theorem checkPlainUtxo_some_none_eq_some {u : Utxo} {asset amount h : Fr} :
    C.checkPlainUtxo u asset (some amount) none = some h ↔
      Pays u asset amount u.owner ∧ C.utxoHash u = some h := by
  rw [checkPlainUtxo_eq_some]
  constructor
  · rintro ⟨hplain, hasset, hamount, -, hh⟩
    exact ⟨⟨hplain, hasset, hamount _ rfl, rfl⟩, hh⟩
  · rintro ⟨⟨hplain, hasset, hamount, -⟩, hh⟩
    exact ⟨hplain, hasset, by simp [hamount], by simp, hh⟩

theorem privateTxHash_eq_some {inputs outputs : List Fr} {blinding d : Fr} :
    C.privateTxHash inputs outputs blinding = some d ↔
      ∃ i o, C.hashChain inputs = some i ∧ C.hashChain outputs = some o ∧
        C.privateTxCommit i o blinding = some d := by
  simp only [privateTxHash, Option.bind_eq_bind, Option.bind_eq_some_iff]
  constructor
  · rintro ⟨i, hi, o, ho, hd⟩
    exact ⟨i, o, hi, ho, hd⟩
  · rintro ⟨i, o, hi, ho, hd⟩
    exact ⟨i, hi, o, ho, hd⟩

end Crypto

end Zolana
