import Zolana.Swap.Proof
import Zolana.Swap.Recovery

set_option autoImplicit false

/-! # One hash of the terms in Rust and in Go

`OrderTerms::data_hash` hashes words, the integers right-aligned and the viewing key as 33 bytes.
`orderterms.DataHash` hashes field elements that nothing bounds. On the witness that the prover
writes the two agree, and no other witness reaches the hash with other terms.
-/

namespace Zolana.Swap.Sdk

variable {X : Context}

/-- The SDK's hash of a proof input is the circuits' hash of its witness. -/
theorem OrderTermsProofInput.dataHash_witness {input : OrderTermsProofInput}
    (haddress : CompressesAddresses X.env.crypto X.wallet)
    (hread : ∀ ⦃bytes key⦄, X.wallet.x25519FromBytes bytes = some key → key.bytes = bytes)
    (hkeys : X.env.crypto.HashesKeys) {word : Bytes 32} (h : input.dataHash X = .ok word) :
    ∃ d, input.witness.hash X.env.crypto = some d ∧ word = d.toBytes := by
  obtain ⟨asset, owner, viewing, viewingKeyHash, address, taker, d, hasset, howner, hviewing,
    hkeyHash, htaker, hposeidon, hd, rfl⟩ := input.dataHash_eq_ok haddress h
  rw [hread hviewing] at hkeyHash
  refine ⟨d, Swap.OrderTerms.hash_eq_some.mpr ⟨address, ?_, ?_⟩, rfl⟩
  · -- the circuit hashes the key byte by byte, to the same digest
    refine Swap.OrderTerms.makerAddressFE_eq_some.mpr ⟨viewingKeyHash, ?_, ?_⟩
    · exact (hkeys _).trans hkeyHash
    · simpa [OrderTermsProofInput.witness, howner] using hposeidon
  · simpa [OrderTermsProofInput.witness, Swap.OrderTerms.dataHash, hasset, htaker] using hd

/-- The terms of a circuit witness are those of the proof input, but for the viewing key. -/
structure OrderTermsProofInput.Matches (input : OrderTermsProofInput) (w : Swap.OrderTerms) :
    Prop where
  destinationAsset : w.destinationAsset.toBytes = input.destinationAsset
  destinationAmount : w.destinationAmount = Fr.ofU64 input.destinationAmount
  makerOwnerHash : w.makerOwnerHash.toBytes = input.makerOwnerHash
  expiry : w.expiry = Fr.ofU64 input.expiry
  takerPkFe : w.takerPkFe.toBytes = input.takerPkFe
  takeMode : w.takeMode = Fr.ofU64 input.takeMode

/-- Every circuit witness with the hash of a proof input has its terms. -/
theorem HashesTerms.matches (hX : HashesTerms X) (hkeys : X.env.crypto.HashesKeys)
    {input : OrderTermsProofInput} {d : Fr} (h : input.dataHash X = .ok d.toBytes)
    {w : Swap.OrderTerms} (hw : w.hash X.env.crypto = some d) : input.Matches w := by
  obtain ⟨d', hinput, hword⟩ :=
    input.dataHash_witness hX.compressedAddressHash hX.x25519FromBytes hkeys h
  obtain rfl := Fr.toBytes_injective hword
  obtain ⟨asset, owner, _, _, _, taker, _, hasset, howner, -, -, htaker, -, -, -⟩ :=
    input.dataHash_eq_ok hX.compressedAddressHash h
  obtain ⟨hwAsset, hwAmount, hwOwner, hwExpiry, hwTaker, hwMode⟩ :=
    Swap.OrderTerms.hash_inj hX.poseidon hw hinput
  exact
    { destinationAsset := by rw [hwAsset, OrderTermsProofInput.witness, hasset, decimal_toBytes]
      destinationAmount := hwAmount.trans (decimal_u64RightAlign _)
      makerOwnerHash := by rw [hwOwner, OrderTermsProofInput.witness, howner, decimal_toBytes]
      expiry := hwExpiry.trans (decimal_u64RightAlign _)
      takerPkFe := by rw [hwTaker, OrderTermsProofInput.witness, htaker, decimal_toBytes]
      takeMode := hwMode.trans (decimal_u64RightAlign _) }

/-- **The hash binds the terms in both languages.** Terms with one hash are the same, the circuits
compute the hash of every proof input from its witness, and every witness with that hash carries
the same terms. -/
theorem terms_bound (hX : HashesTerms X) (hkeys : X.env.crypto.HashesKeys) :
    (∀ (terms terms' : OrderTerms) (word : Bytes 32), terms.dataHash X = .ok word →
      terms'.dataHash X = .ok word → terms = terms') ∧
    ∀ (input : OrderTermsProofInput) (word : Bytes 32), input.dataHash X = .ok word →
      ∃ d, word = d.toBytes ∧ input.witness.hash X.env.crypto = some d ∧
        ∀ w : Swap.OrderTerms, w.hash X.env.crypto = some d → input.Matches w := by
  refine ⟨fun _ _ _ => hX.dataHash_inj, ?_⟩
  intro input word h
  obtain ⟨d, hinput, rfl⟩ :=
    input.dataHash_witness hX.compressedAddressHash hX.x25519FromBytes hkeys h
  exact ⟨d, rfl, hinput, fun w hw => hX.matches hkeys h hw⟩

namespace Sample

open Swap.Sample

/-- The sample hashes one key, the zero one. -/
theorem crypto_hashesKeys : crypto.HashesKeys := by
  intro key
  by_cases hkey : key = Bytes.replicate 33 0
  · subst hkey
    decide
  · have hzero : key.1 ≠ List.replicate 33 0 := by
      intro h0
      exact hkey (Subtype.ext h0)
    have hgnark : key.1.map Fr.ofU8 ∉ gnarkTable := by
      intro hmem
      rcases List.mem_cons.mp hmem with h0 | hmem
      · have hmap : key.1.map Fr.ofU8 = (List.replicate 33 0).map Fr.ofU8 := h0
        exact hzero (List.map_injective_iff.mpr Fr.ofU8_injective hmap)
      · have hlen := congrArg List.length (List.mem_singleton.mp hmem)
        rw [List.length_map, List.length_map, key.2, ciphertext.2] at hlen
        cases hlen
    have hbytes : key.1 ∉ [List.replicate 32 20, List.replicate 32 21, List.replicate 33 0,
        ciphertext.1] := by
      have hlen : ∀ {xs : List UInt8}, xs.length ≠ 33 → key.1 ≠ xs := by
        rintro xs hlen rfl
        exact hlen key.2
      rw [List.mem_cons, List.mem_cons, List.mem_cons, List.mem_singleton]
      rintro (hasset | hasset | hkey0 | hciphertext)
      · exact hlen (by decide) hasset
      · exact hlen (by decide) hasset
      · exact hzero hkey0
      · exact hlen (by rw [ciphertext.2]; decide) hciphertext
    exact (Oracle.tabulate_of_not_mem hgnark).trans (Oracle.tabulate_of_not_mem hbytes).symm

end Sample

open Sdk.Sample in
theorem terms_bound_sample :
    (∀ terms : OrderTerms, terms.dataHash context = .ok (Fr.toBytes 1007) →
      terms = (orderUtxo TAKE_MODE_DERIVED 33).terms) ∧
    ∀ w : Swap.OrderTerms, w.hash Swap.Sample.crypto = some 1007 →
      w.expiry = Fr.ofU64 100 ∧ w.takeMode = Fr.ofU64 TAKE_MODE_DERIVED := by
  obtain ⟨hterms, hinputs⟩ := terms_bound (X := context)
    (context_binds.hashesTerms Swap.Sample.crypto_ideal rfl) crypto_hashesKeys
  refine ⟨fun terms h => hterms terms _ _ h (by decide), ?_⟩
  obtain ⟨d, hd, -, hmatches⟩ := hinputs
    ⟨Fr.toBytes 21, 9, Fr.toBytes 1003, Bytes.replicate 33 0, 100, Fr.toBytes 12, 0⟩ (Fr.toBytes 1007)
    (by decide)
  obtain rfl := Fr.toBytes_injective hd
  intro w hw
  exact ⟨(hmatches w hw).expiry, (hmatches w hw).takeMode⟩

end Zolana.Swap.Sdk
