import Zolana.Swap.Commitment
import Zolana.Swap.Settlement

set_option autoImplicit false

/-! # Recovering the payout

A take pays the maker to an output whose blinding the taker's transact decides. On the
derived rail the maker derives that blinding from the order opening and the first published
nullifier, on the verifiable rail the maker decrypts it from the data of the last output.
Both work whatever witness the taker chose: the SDK's terms denote the circuit's terms, and
each step of the maker recomputes a value that the circuit constrains.
-/

namespace Zolana.Swap

namespace Sdk

variable {X : Context}

/-! ## The terms -/

/-- The SDK's terms denote the circuit's terms; the viewing key is left out, since the
circuit only sees its hash. -/
structure OrderTerms.Denotes (X : Context) (terms : OrderTerms) (T : Swap.OrderTerms) : Prop where
  destinationAsset : X.env.crypto.hashBytes terms.destinationMint.1 = some T.destinationAsset
  destinationAmount : T.destinationAmount = Fr.ofU64 terms.destinationAmount
  makerOwnerHash : X.wallet.ownerHash terms.destination = some T.makerOwnerHash.toBytes
  expiry : T.expiry = Fr.ofU64 terms.expiry
  takerPkFe : X.env.crypto.solanaOwnerIdentity terms.taker = some T.takerPkFe
  takeMode : T.takeMode = Fr.ofU64 terms.takeMode

/-- Terms that hash like the circuit's terms denote them. -/
theorem OrderTerms.denotes (hC : X.env.crypto.Ideal) (hW : X.wallet.Documented X.env.crypto)
    {terms : OrderTerms} {T : Swap.OrderTerms} {word : Bytes 32} {d : Fr}
    (h : terms.dataHash X = .ok word) (hd : Fr.ofBytes word = some d)
    (hT : T.hash X.env.crypto = some d) : terms.Denotes X T := by
  obtain ⟨asset, owner, _, viewingKeyHash, address, taker, _, hasset, howner, -, -, htaker, haddress,
    hdata, rfl⟩ := OrderTerms.dataHash_eq_ok hW.compressedAddressHash h
  obtain rfl := Option.some.inj ((Fr.ofBytes_toBytes _).symm.trans hd)
  obtain ⟨address', haddress', hdata'⟩ := Swap.OrderTerms.hash_eq_some.mp hT
  obtain ⟨viewingKeyHash', -, hposeidon'⟩ := Swap.OrderTerms.makerAddressFE_eq_some.mp haddress'
  have hterms := hC.poseidon hdata' hdata
  simp only [List.cons.injEq, and_true] at hterms
  obtain ⟨hasset', hamount, rfl, hexpiry, htaker', hmode⟩ := hterms
  have hmaker := hC.poseidon hposeidon' haddress
  simp only [List.cons.injEq, and_true] at hmaker
  exact
    { destinationAsset := by rw [hasset, hasset']
      destinationAmount := hamount
      makerOwnerHash := by rw [howner, hmaker.1]
      expiry := hexpiry
      takerPkFe := by rw [htaker, htaker']
      takeMode := hmode }

/-- What the circuits check of the terms alone, read on the SDK's terms. -/
theorem OrderTerms.Denotes.wellFormed_iff {terms : OrderTerms} {T : Swap.OrderTerms}
    (h : terms.Denotes X T) :
    T.WellFormed ↔ terms.destinationAmount ≠ 0 ∧
      (terms.takeMode = TAKE_MODE_DERIVED ∨ terms.takeMode = TAKE_MODE_VERIFIABLE) := by
  have hne : T.destinationAmount ≠ 0 ↔ terms.destinationAmount ≠ 0 := by
    rw [h.destinationAmount]
    exact not_congr (Fr.ofU64_inj (y := 0))
  have hlt : T.destinationAmount.val < 2 ^ 64 := by
    rw [h.destinationAmount, Fr.val_ofU64]
    exact UInt64.toNat_lt _
  have hmode : T.takeMode = 0 ∨ T.takeMode = 1 ↔
      terms.takeMode = TAKE_MODE_DERIVED ∨ terms.takeMode = TAKE_MODE_VERIFIABLE := by
    rw [h.takeMode]
    exact or_congr (Fr.ofU64_inj (y := 0)) (Fr.ofU64_inj (y := 1))
  constructor
  · intro hwf
    exact ⟨hne.mp hwf.destinationAmount_ne, hmode.mp hwf.takeMode⟩
  · rintro ⟨hdestination, htakeMode⟩
    exact ⟨hne.mpr hdestination, hlt, hmode.mpr htakeMode⟩

/-! ## The order UTXO -/

/-- The order opens the UTXO: for some viewing key of a taker and some tree, the order output
has the hash of the UTXO. -/
def OrderUtxo.Opens (X : Context) (order : OrderUtxo) (u : Utxo) : Prop :=
  ∃ viewing output treeId hash, order.outputUtxo X viewing = .ok output ∧
    X.wallet.outputHash output treeId = some (Fr.toBytes hash) ∧
    X.env.crypto.utxoHash u = some hash

/-- The UTXO that an order opens is the one that it locks. -/
theorem OrderUtxo.Opens.locks (hC : X.env.crypto.Ideal) (hW : X.wallet.Documented X.env.crypto)
    {order : OrderUtxo} {u : Utxo} (h : order.Opens X u) : ∃ treeId, order.Locks X treeId u := by
  obtain ⟨viewing, output, treeId, hash, houtput, hhash, hu⟩ := h
  have hhashes : order.HashesTo X viewing treeId hash.toBytes := ⟨output, houtput, hhash⟩
  obtain ⟨u', hash', hlocks, hu', hword⟩ := hhashes.exists_locks hW
  have hsame : hash = hash' := Fr.toBytes_injective hword
  subst hsame
  have hutxo : u' = u := hC.utxoHash hu' hu
  subst hutxo
  exact ⟨treeId, hlocks⟩

/-- The UTXO that an order opens has the blinding of the order and its terms hash as data. -/
theorem OrderUtxo.Opens.blinding_dataHash (hC : X.env.crypto.Ideal)
    (hW : X.wallet.Documented X.env.crypto) {order : OrderUtxo} {u : Utxo}
    (h : order.Opens X u) :
    Fr.ofBytes order.blinding = some u.blinding ∧
      ∃ word, order.terms.dataHash X = .ok word ∧ Fr.ofBytes word = some u.dataHash := by
  obtain ⟨treeId, hlocks⟩ := h.locks hC hW
  exact ⟨hlocks.blinding, _, hlocks.dataHash, Fr.ofBytes_toBytes _⟩

/-- An exchange that spends the UTXO an order opens has it as its order, and the terms of the
exchange are those of the SDK value. -/
theorem OrderUtxo.Opens.exchange (hC : X.env.crypto.Ideal)
    (hW : X.wallet.Documented X.env.crypto) {order : OrderUtxo} {u : Utxo}
    (h : order.Opens X u) {op : TxOpening} {T : Swap.OrderTerms}
    {orderUtxo payment source destination : Utxo}
    (hx : Exchange X.env.crypto op T orderUtxo payment source destination) (hu : u ∈ op.spent) :
    u = orderUtxo ∧ order.terms.Denotes X T := by
  obtain ⟨-, word, hword, hd⟩ := h.blinding_dataHash hC hW
  -- the other input of an exchange is the payment, which carries no data
  rw [hx.spent, List.mem_cons, List.mem_singleton] at hu
  rcases hu with rfl | rfl
  · exact ⟨rfl, OrderTerms.denotes hC hW hword hd hx.carriesTerms.dataHash⟩
  · obtain ⟨treeId, hlocks⟩ := h.locks hC hW
    exact absurd hx.payment_pays.dataless (hlocks.not_dataless hC hW)

/-- A plain output of the SDK with the fields of a UTXO that pays its owner has the hash of
that UTXO. -/
theorem outputHash_plain (hW : X.wallet.Documented X.env.crypto) {u : Utxo}
    {asset amount owner hash : Fr} (hpays : Pays u asset amount owner)
    (hhash : X.env.crypto.utxoHash u = some hash) {mint : Mint} {value : UInt64}
    {blinding : Blinding} {address : ShieldedAddress} {treeId : UInt16}
    (hmint : X.env.crypto.hashBytes mint.asset.1 = some asset) (hvalue : amount = Fr.ofU64 value)
    (hblinding : Fr.ofBytes blinding = some u.blinding)
    (haddress : X.wallet.ownerHash address = some owner.toBytes)
    (htree : u.treeId = Fr.ofU64 treeId.toUInt64) :
    X.wallet.outputHash (.plain mint value blinding address) treeId = some hash.toBytes := by
  have hopening : (SppProofOutputUtxo.plain mint value blinding address).opening X.env.crypto
      (X.wallet.ownerHash address) treeId = some u := by
    obtain ⟨owner', asset', amount', blinding', dataHash, ringDataHash, ringProgramId, tree⟩ := u
    obtain ⟨⟨rfl, rfl, rfl⟩, rfl, rfl, rfl⟩ := hpays
    obtain rfl := hvalue
    obtain rfl := htree
    simp [SppProofOutputUtxo.opening, SppProofOutputUtxo.plain, haddress, hmint, hblinding]
  rw [hW.outputHash _ _ _ rfl rfl rfl, hopening]
  simp [hhash]

/-- **Rebuilding the payout.** The payout of an exchange is published, and the output that the
SDK rebuilds from the terms and the payout's blinding has the published hash. -/
theorem rebuilds_payout (hW : X.wallet.Documented X.env.crypto) {t : TransactIxData}
    {op : TxOpening} {T : Swap.OrderTerms} {orderUtxo payment source payout : Utxo}
    (hx : Exchange X.env.crypto op T orderUtxo payment source payout)
    (hspp : SppCommits X.env.crypto t op) :
    ∃ o ∈ t.outputs, (X.env.crypto.utxoHash payout).map Fr.toBytes = some o.utxoHash ∧
      ∀ {mint : Mint} {value : UInt64} {blinding : Blinding} {address : ShieldedAddress}
        {treeId : UInt16}, X.env.crypto.hashBytes mint.asset.1 = some T.destinationAsset →
        T.destinationAmount = Fr.ofU64 value → Fr.ofBytes blinding = some payout.blinding →
        X.wallet.ownerHash address = some T.makerOwnerHash.toBytes →
        payout.treeId = Fr.ofU64 treeId.toUInt64 →
        X.wallet.outputHash (.plain mint value blinding address) treeId = some o.utxoHash := by
  have hcreated : payout ∈ op.created := by simp [hx.created]
  obtain ⟨o, ho, hash, hhash, heq⟩ := hspp.exists_output hcreated
  refine ⟨o, ho, by rw [hhash, heq]; rfl, ?_⟩
  intro mint value blinding address treeId hmint hvalue hblinding haddress htree
  rw [heq]
  exact outputHash_plain hW hx.destination_pays hhash hmint hvalue hblinding haddress htree

/-! ## A sample context

The environment of the settlement sample with a wallet, and the SDK values of its orders. -/

namespace Sample

open Swap.Sample

/-- The viewing key of every party. -/
def viewingKey : X25519Pubkey := ⟨Bytes.replicate 33 0⟩

def makerAddress : ShieldedAddress := ⟨.ed25519 maker, Fr.toBytes 1001, viewingKey⟩

def takerAddress : ShieldedAddress := ⟨.ed25519 taker, Fr.toBytes 1002, viewingKey⟩

/-- An order of 7 units of one asset for 9 of another. -/
def orderUtxo (takeMode : UInt64) (blinding : Fr) : OrderUtxo :=
  ⟨⟨Bytes.replicate 32 21, 9, makerAddress, taker, 100, takeMode⟩, blinding.toBytes,
    ⟨Bytes.replicate 32 20, 2⟩, 7, 3⟩

noncomputable def context : Context where
  env := env
  wallet := .ofCrypto crypto
  plainTextData := .tabulate [(orderUtxo TAKE_MODE_DERIVED 33).terms.toPlaintext 3]

theorem context_documented : context.wallet.Documented context.env.crypto :=
  Wallet.ofCrypto_documented crypto

theorem context_binds : Binds context where
  hashBytes := Fr.tabulate_offset_collisionFree (by decide)
  x25519FromBytes _ := rfl

theorem opens_order : (orderUtxo TAKE_MODE_DERIVED 33).Opens context order :=
  ⟨viewingKey, ⟨⟨Bytes.replicate 32 20, 2⟩, 7, Fr.toBytes 33,
      some ⟨.ed25519 authority, Fr.toBytes 1000, viewingKey⟩, some [], some (Fr.toBytes 1007), none,
      none⟩, 0, 102, by decide, by decide, by decide⟩

end Sample

/-! ## The derived rail -/

/-- The SDK's domain is the circuit's. -/
theorem ofBytes_takeBlindingDomain : Fr.ofBytes takeBlindingDomain = some Take.blindingSeedDomain := by
  decide

/-- The maker derives the blinding that `AssertTransactionBlindings` forces on slot 1. -/
theorem OrderUtxo.derivedDestinationOutput_eq_ok {order : OrderUtxo} {firstNullifier : Bytes 32}
    {n orderBlinding seed privateTxBlinding blinding0 blinding1 : Fr}
    (hmode : order.terms.takeMode = TAKE_MODE_DERIVED)
    (hblinding : Fr.ofBytes order.blinding = some orderBlinding)
    (hn : Fr.ofBytes firstNullifier = some n)
    (hseed : X.env.crypto.poseidon [Take.blindingSeedDomain, orderBlinding] = some seed)
    (h : X.env.crypto.assertTransactionBlindings n seed privateTxBlinding blinding0 blinding1 =
      some ()) :
    order.derivedDestinationOutput X firstNullifier =
      .ok (order.destinationOutput order.terms.destination blinding1.toBytes) := by
  obtain ⟨-, out, hout, -, h1⟩ := Crypto.assertTransactionBlindings_eq_some.mp h
  have hseed' : takeBlindingSeed X order.blinding = .ok seed.toBytes :=
    poseidon_pair ofBytes_takeBlindingDomain hblinding hseed
  have hout' : deriveOutputBlindingSeed X firstNullifier seed.toBytes = .ok out.toBytes := by
    simp [deriveOutputBlindingSeed, hn, hout]
  have hblinding1 : deriveTransactOutputBlinding X firstNullifier out.toBytes 1 =
      .ok blinding1.toBytes := by
    simp [deriveTransactOutputBlinding, hn, h1]
  simp [OrderUtxo.derivedDestinationOutput, hmode, hseed', hout', hblinding1, bind, Except.bind,
    pure, Except.pure]

/-- **A derived take is recoverable by the maker.** Whatever the taker's witness, the maker
obtains the payout from the order opening and the first published nullifier. -/
theorem processTakeIx_recoverable (hE : X.env.Secure) (hW : X.wallet.Documented X.env.crypto)
    {now : Int64} {accounts : AccountIterator} {data : List UInt8} {cpi : Cpi}
    {t : TransactIxData} {op : TxOpening} (h : processTakeIx X.env now accounts data = .ok cpi)
    (ht : cpi.Transact X.env.runtime t) (hspp : SppCommits X.env.crypto t op)
    {order : OrderUtxo} {u : Utxo} (hopen : order.Opens X u) (hu : u ∈ op.spent) :
    ∃ firstInput output T source payout,
      t.inputs.head? = some firstInput ∧
      order.derivedDestinationOutput X firstInput.nullifierHash = .ok output ∧
      order.terms.Denotes X T ∧ op.created = [source, payout] ∧
      Pays payout T.destinationAsset T.destinationAmount T.makerOwnerHash ∧
      ∃ o ∈ t.outputs, (X.env.crypto.utxoHash payout).map Fr.toBytes = some o.utxoHash ∧
        ∀ treeId : UInt16, payout.treeId = Fr.ofU64 treeId.toUInt64 →
          X.wallet.outputHash output treeId = some o.utxoHash := by
  obtain ⟨-, w, firstInput, hw, hp, -, hfirst, hn⟩ := processTakeIx_sound hE h ht
  have hx := hw.core.exchange hE.ideal hp hspp
  obtain ⟨rfl, hT⟩ := hopen.exchange hE.ideal hW hx hu
  obtain ⟨hblinding, -⟩ := hopen.blinding_dataHash hE.ideal hW
  obtain ⟨seed, hseed, hblindings⟩ := hw.blindings
  -- the SDK refuses other modes, and the terms hash fixes the mode
  have hmode : order.terms.takeMode = TAKE_MODE_DERIVED :=
    Fr.ofU64_inj.mp (hT.takeMode.symm.trans hw.takeMode)
  obtain ⟨o, ho, hhash, hrebuild⟩ := rebuilds_payout hW hx hspp
  refine ⟨firstInput, _, w.core.order, w.core.sourceOutput, w.core.destinationOutput, hfirst,
    OrderUtxo.derivedDestinationOutput_eq_ok hmode hblinding hn hseed hblindings, hT, hx.created,
    hx.destination_pays, o, ho, hhash, ?_⟩
  intro treeId htree
  exact hrebuild hT.destinationAsset hT.destinationAmount (Fr.ofBytes_toBytes _) hT.makerOwnerHash
    htree

open Swap.Sample in
theorem processTakeIx_recoverable_sample :
    ∃ firstInput output T source payout,
      takeTransact.inputs.head? = some firstInput ∧
      (Sample.orderUtxo TAKE_MODE_DERIVED 33).derivedDestinationOutput Sample.context
        firstInput.nullifierHash = .ok output ∧
      (Sample.orderUtxo TAKE_MODE_DERIVED 33).terms.Denotes Sample.context T ∧
      takeOpening.created = [source, payout] ∧
      Pays payout T.destinationAsset T.destinationAmount T.makerOwnerHash ∧
      ∃ o ∈ takeTransact.outputs, (crypto.utxoHash payout).map Fr.toBytes = some o.utxoHash ∧
        ∀ treeId : UInt16, payout.treeId = Fr.ofU64 treeId.toUInt64 →
          Sample.context.wallet.outputHash output treeId = some o.utxoHash :=
  processTakeIx_recoverable (X := Sample.context) env_secure Sample.context_documented take_ok rfl
    (by decide) Sample.opens_order (by decide)

/-! ## The verifiable rail -/

/-- The SDK derives the shared secret of the circuit. -/
theorem takeSharedSecret_eq_ok {blinding : Blinding} {b secret : Fr}
    (hb : Fr.ofBytes blinding = some b)
    (hsecret : X.env.crypto.poseidon [b, takeEncKdfDomain] = some secret) :
    takeSharedSecret X blinding = .ok secret.toBytes :=
  poseidon_pair hb (ofBytes_u64RightAlign TAKE_ENC_KDF_DOMAIN) hsecret

theorem symmetricApply_eq_ok {n : ℕ} {sharedSecret : Bytes 32} {info : List UInt8}
    {buf buf' : Bytes n} :
    symmetricApply X sharedSecret info buf = .ok buf' ↔
      ∃ secret, Fr.ofBytes sharedSecret = some secret ∧
        X.env.crypto.symmetricApply secret info buf = some buf' := by
  simp [symmetricApply, Option.bind_eq_some_iff]

/-- The decoder reads the layout that both encoders write: amount, asset, blinding. -/
theorem decryptDestination_eq_ok {orderBlinding : Blinding} {ciphertext : Bytes 72}
    {secret asset : Bytes 32} {amount : UInt64} {blinding : Blinding}
    (hsecret : takeSharedSecret X orderBlinding = .ok secret)
    (hplain : symmetricApply X secret X.wallet.mergeInfo ciphertext =
      .ok (((u64ToBeBytes amount).append asset).append blinding)) :
    decryptDestination X orderBlinding ciphertext = .ok (asset, amount, blinding) := by
  have hbytes : (((u64ToBeBytes amount).append asset).append blinding).1 =
      (u64ToBeBytes amount).1 ++ asset.1 ++ blinding.1 := rfl
  have hamount : Bytes.slice (((u64ToBeBytes amount).append asset).append blinding).1 0 8 =
      some (u64ToBeBytes amount) :=
    Bytes.slice_eq_some
      (hbytes.trans (List.append_assoc ([] ++ (u64ToBeBytes amount).1) asset.1 blinding.1))
      List.length_nil
  have hasset : Bytes.slice (((u64ToBeBytes amount).append asset).append blinding).1 8 32 =
      some asset :=
    Bytes.slice_eq_some hbytes (u64ToBeBytes amount).2
  have hblinding : Bytes.slice (((u64ToBeBytes amount).append asset).append blinding).1 40 32 =
      some blinding :=
    Bytes.slice_eq_some (hbytes.trans (List.append_nil _).symm)
      ((u64ToBeBytes amount).append asset).2
  simp only [decryptDestination, SdkResult.bind_eq_ok, orErrText_eq_ok, pure, Except.pure]
  exact ⟨secret, hsecret, _, hplain, _, hamount, asset, hasset, blinding, hblinding,
    by rw [u64FromBeBytes_toBeBytes]⟩

/-- `decrypt_destination` inverts `destination_ciphertext_with_hash`. -/
theorem decryptDestination_destinationCiphertextWithHash {orderBlinding : Blinding}
    {mint : Address} {amount : UInt64} {blinding : Blinding} {ciphertext : Bytes 72}
    {ctHash : Bytes 32}
    (h : destinationCiphertextWithHash X orderBlinding mint amount blinding =
      .ok (ciphertext, ctHash)) :
    ∃ asset, hashBytes X mint.1 = .ok asset ∧
      decryptDestination X orderBlinding ciphertext = .ok (asset, amount, blinding) := by
  simp only [destinationCiphertextWithHash, SdkResult.bind_eq_ok, pure, Except.pure,
    Except.ok.injEq, Prod.mk.injEq] at h
  obtain ⟨asset, hasset, secret, hsecret, _, hct, _, -, rfl, -⟩ := h
  -- encryption and decryption are the same XOR
  obtain ⟨s, hs, hct⟩ := symmetricApply_eq_ok.mp hct
  have hplain := symmetricApply_eq_ok.mpr ⟨s, hs, Crypto.symmetricApply_involutive hct⟩
  exact ⟨asset, hasset, decryptDestination_eq_ok hsecret hplain⟩

/-- The ciphertext of the circuit decrypts to the payout. -/
theorem decryptDestination_ciphertext (hW : X.wallet.Documented X.env.crypto)
    {w : TakeVerifiableEncryption.Circuit} {ciphertext : Bytes 72} {orderBlinding : Blinding}
    (h : w.ciphertext X.env.crypto = some ciphertext)
    (hb : Fr.ofBytes orderBlinding = some w.core.orderUtxo.blinding) :
    ∃ amount : UInt64, w.core.order.destinationAmount = Fr.ofU64 amount ∧
      decryptDestination X orderBlinding ciphertext =
        .ok (w.core.order.destinationAsset.toBytes, amount,
          w.core.destinationOutput.blinding.toBytes) := by
  simp only [TakeVerifiableEncryption.Circuit.ciphertext,
    TakeVerifiableEncryption.Circuit.plaintext, Option.bind_eq_bind, Option.bind_eq_some_iff,
    Option.pure_def, Option.some.injEq, Gnark.fieldToBytesBE_word, Gnark.fieldToBytesBE_u64] at h
  obtain ⟨secret, hsecret, plain, ⟨_, ⟨amount, hamount, rfl⟩, _, rfl, _, rfl, rfl⟩, hct⟩ := h
  -- the label of the circuit is the library's
  have hplain := symmetricApply_eq_ok.mpr
    ⟨secret, Fr.ofBytes_toBytes secret, Crypto.symmetricApply_involutive hct⟩
  have hlabel : X.wallet.mergeInfo = TakeVerifiableEncryption.mergeKdfInfo := hW.mergeInfo
  rw [← hlabel] at hplain
  exact ⟨amount, hamount, decryptDestination_eq_ok (takeSharedSecret_eq_ok hb hsecret) hplain⟩

/-- An accepted take with verifiable encryption is an exchange whose last output carries 72
bytes that whoever knows the blinding of the order decrypts to the payout. -/
theorem processTakeVerifiableEncryptionIx_decrypts (hE : X.env.Secure)
    (hW : X.wallet.Documented X.env.crypto) (hct : X.env.crypto.HashesCiphertexts) {now : Int64}
    {accounts : AccountIterator} {data : List UInt8} {cpi : Cpi} {t : TransactIxData}
    {op : TxOpening} (h : processTakeVerifiableEncryptionIx X.env now accounts data = .ok cpi)
    (ht : cpi.Transact X.env.runtime t) (hspp : SppCommits X.env.crypto t op) :
    ∃ T order payment source payout ciphertext,
      Exchange X.env.crypto op T order payment source payout ∧
      t.outputs.getLast?.bind (·.data) = some (Subtype.val ciphertext) ∧
      ∀ b, Fr.ofBytes b = some order.blinding →
        ∃ amount : UInt64, T.destinationAmount = Fr.ofU64 amount ∧
          decryptDestination X b ciphertext =
            .ok (T.destinationAsset.toBytes, amount, payout.blinding.toBytes) := by
  obtain ⟨-, w, ciphertext, ctHash, hw, hp, -, hlast, hhash, hcheck⟩ :=
    processTakeVerifiableEncryptionIx_sound hE h ht
  simp only [TakeVerifiableEncryption.Circuit.checkVerifiableEncryption, Option.bind_eq_bind,
    Option.bind_eq_some_iff] at hcheck
  obtain ⟨ciphertext', hciphertext, hhash'⟩ := hcheck
  rw [hct.gnarkHashBytes] at hhash'
  -- the published bytes and the circuit's have one hash
  obtain rfl := hct.collisionFree hhash hhash'
  exact ⟨_, _, _, _, _, ciphertext, hw.core.exchange hE.ideal hp hspp, hlast,
    fun b hb => decryptDestination_ciphertext hW hciphertext hb⟩

/-- **A verifiable-encryption take is decryptable by the maker.** From the blinding of the
order alone the data of the last output decrypts to the payout, and the output rebuilt from
the terms and the decrypted blinding has the committed hash; and decryption inverts the
SDK's own encryption. -/
theorem takeVerifiableEncryption_decryptable (hE : X.env.Secure)
    (hW : X.wallet.Documented X.env.crypto) (hct : X.env.crypto.HashesCiphertexts) :
    (∀ {now : Int64} {accounts : AccountIterator} {data : List UInt8} {cpi : Cpi}
      {t : TransactIxData} {op : TxOpening} {u : Utxo} {T : Swap.OrderTerms} {b : Blinding}
      {m : Address},
      processTakeVerifiableEncryptionIx X.env now accounts data = .ok cpi →
      cpi.Transact X.env.runtime t → SppCommits X.env.crypto t op → u ∈ op.spent →
      CarriesTerms X.env.crypto u T → Fr.ofBytes b = some u.blinding →
      X.env.crypto.hashBytes m.1 = some T.destinationAsset →
      ∃ ciphertext asset amount r source payout,
        t.outputs.getLast?.bind (·.data) = some (Subtype.val ciphertext) ∧
        hashBytes X m.1 = .ok asset ∧ T.destinationAmount = Fr.ofU64 amount ∧
        decryptDestination X b ciphertext = .ok (asset, amount, r) ∧
        op.created = [source, payout] ∧
        Pays payout T.destinationAsset T.destinationAmount T.makerOwnerHash ∧
        Fr.ofBytes r = some payout.blinding ∧
        ∃ o ∈ t.outputs, (X.env.crypto.utxoHash payout).map Fr.toBytes = some o.utxoHash ∧
          ∀ (maker : ShieldedAddress) (assetId : UInt64) (treeId : UInt16),
            X.wallet.ownerHash maker = some T.makerOwnerHash.toBytes →
            payout.treeId = Fr.ofU64 treeId.toUInt64 →
            X.wallet.outputHash (.plain ⟨m, assetId⟩ amount r maker) treeId =
              some o.utxoHash) ∧
    ∀ {b : Blinding} {m : Address} {amount : UInt64} {r : Blinding} {ciphertext : Bytes 72}
      {ctHash : Bytes 32},
      destinationCiphertextWithHash X b m amount r = .ok (ciphertext, ctHash) →
      ∃ asset, hashBytes X m.1 = .ok asset ∧
        decryptDestination X b ciphertext = .ok (asset, amount, r) := by
  refine ⟨?_, decryptDestination_destinationCiphertextWithHash⟩
  intro now accounts data cpi t op u T b m h ht hspp hu hT hb hm
  obtain ⟨T', order, payment, source, payout, ciphertext, hx, hlast, hdecrypt⟩ :=
    processTakeVerifiableEncryptionIx_decrypts hE hW hct h ht hspp
  obtain ⟨rfl, hasset, hamount, howner, -, -, -⟩ := hx.eq_order hE.ideal hu hT
  obtain ⟨amount, hvalue, hdecrypt⟩ := hdecrypt b hb
  have hpays : Pays payout T'.destinationAsset T'.destinationAmount T'.makerOwnerHash :=
    hx.destination_pays
  obtain ⟨o, ho, hhash, hrebuild⟩ := rebuilds_payout hW hx hspp
  -- the terms of the exchange are the terms that the spent order carries
  rw [hasset, hamount, howner] at hpays hrebuild
  rw [hasset] at hdecrypt
  rw [hamount] at hvalue
  refine ⟨ciphertext, _, amount, _, source, payout, hlast, hashBytes_eq_ok.mpr ⟨_, hm, rfl⟩, hvalue,
    hdecrypt, hx.created, hpays, Fr.ofBytes_toBytes _, o, ho, hhash, ?_⟩
  intro maker assetId treeId hmaker htree
  exact hrebuild hm hvalue (Fr.ofBytes_toBytes _) hmaker htree

open Swap.Sample in
theorem takeVerifiableEncryption_decryptable_sample :
    (∃ (ciphertext : Bytes 72) (asset : Bytes 32) (amount : UInt64) (r : Blinding)
      (source payout : Utxo),
      takeVerifiableEncryptionTransact.outputs.getLast?.bind (·.data) = some ciphertext.1 ∧
      hashBytes Sample.context (List.replicate 32 21) = .ok asset ∧ 9 = Fr.ofU64 amount ∧
      decryptDestination Sample.context (Fr.toBytes 35) ciphertext = .ok (asset, amount, r) ∧
      takeVerifiableEncryptionOpening.created = [source, payout] ∧
      Pays payout 21 9 makerOwner ∧ Fr.ofBytes r = some payout.blinding ∧
      ∃ o ∈ takeVerifiableEncryptionTransact.outputs,
        (crypto.utxoHash payout).map Fr.toBytes = some o.utxoHash ∧
        ∀ (maker : ShieldedAddress) (assetId : UInt64) (treeId : UInt16),
          Sample.context.wallet.ownerHash maker = some makerOwner.toBytes →
          payout.treeId = Fr.ofU64 treeId.toUInt64 →
          Sample.context.wallet.outputHash (.plain ⟨Bytes.replicate 32 21, assetId⟩ amount r maker)
            treeId = some o.utxoHash) ∧
    ∃ asset, hashBytes Sample.context (List.replicate 32 21) = .ok asset ∧
      decryptDestination Sample.context (Fr.toBytes 35) ciphertext =
        .ok (asset, 9, Fr.toBytes 37) := by
  have h := takeVerifiableEncryption_decryptable (X := Sample.context) env_secure
    Sample.context_documented crypto_hashesCiphertexts
  have hterms : CarriesTerms crypto verifiableOrder (terms 1) :=
    ⟨⟨rfl, rfl⟩, by decide, by decide⟩
  have hencrypt : destinationCiphertextWithHash Sample.context (Fr.toBytes 35)
      (Bytes.replicate 32 21) 9 (Fr.toBytes 37) = .ok (ciphertext, Fr.toBytes 23) := by
    decide
  exact ⟨h.1 (T := terms 1) (m := Bytes.replicate 32 21) takeVerifiableEncryption_ok rfl (by decide)
    (by decide : verifiableOrder ∈ takeVerifiableEncryptionOpening.spent) hterms
    (Fr.ofBytes_toBytes 35) (by decide), h.2 hencrypt⟩

end Sdk

end Zolana.Swap
