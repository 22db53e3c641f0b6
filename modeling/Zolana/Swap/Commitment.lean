import Zolana.Spp.Client
import Zolana.Swap.Order

set_option autoImplicit false

/-! # What the hash of an order pins

The hash of an order output commits the order-authority PDA as owner, the source funds, the
blinding and, through the data hash, the terms with the destination address. Two orders with
one hash are the same in all of it. What the hash leaves open is the asset id of a mint, next
to its address, the viewing key that the output is encrypted to, and which of the keys with one
identity the destination signs with.
-/

namespace Zolana.Swap.Sdk

variable {X : Context}

/-! ## Words and field elements -/

theorem hashBytes_eq_ok {bytes : List UInt8} {word : Bytes 32} :
    hashBytes X bytes = .ok word ↔
      ∃ x, X.env.crypto.hashBytes bytes = some x ∧ word = x.toBytes := by
  simp only [hashBytes, orErr_eq_ok, Option.map_eq_some_iff, eq_comm (a := word)]

theorem addressDataHash_eq_ok {address : Address} {word : Bytes 32} :
    addressDataHash X address = .ok word ↔
      ∃ x, X.env.crypto.solanaOwnerIdentity address = some x ∧ word = x.toBytes := by
  simp only [addressDataHash, orErr_eq_ok, Option.map_eq_some_iff, eq_comm (a := word)]

theorem poseidon_pair {a b : Bytes 32} {x y d : Fr} (ha : Fr.ofBytes a = some x)
    (hb : Fr.ofBytes b = some y) (hd : X.env.crypto.poseidon [x, y] = some d) :
    poseidon X [a, b] = .ok d.toBytes := by
  refine orErr_eq_ok.mpr (Crypto.hashv_eq_some.mpr ⟨[x, y], d, ?_, hd, rfl⟩)
  simp [ha, hb]

/-! ## The terms -/

/-- `CompressedShieldedAddress::hash` is of the owner hash and of the hashed viewing key. -/
def CompressesAddresses (C : Crypto) (W : Wallet) : Prop :=
  ∀ (ownerHash : Bytes 32) (viewingPubkey : X25519Pubkey),
    W.compressedAddressHash ownerHash viewingPubkey = do
      let viewingKeyHash ← C.hashBytes viewingPubkey.bytes.1
      C.hashv [ownerHash, viewingKeyHash.toBytes]

/-- The preimage of the hash of the proof input. Words that are hashed encode field elements. -/
theorem OrderTermsProofInput.dataHash_eq_ok
    (haddress : CompressesAddresses X.env.crypto X.wallet) {input : OrderTermsProofInput}
    {word : Bytes 32} (h : input.dataHash X = .ok word) :
    ∃ asset owner viewing viewingKeyHash address taker d,
      input.destinationAsset = Fr.toBytes asset ∧ input.makerOwnerHash = Fr.toBytes owner ∧
      X.wallet.x25519FromBytes input.makerViewingPk = some viewing ∧
      X.env.crypto.hashBytes viewing.bytes.1 = some viewingKeyHash ∧
      input.takerPkFe = Fr.toBytes taker ∧
      X.env.crypto.poseidon [owner, viewingKeyHash] = some address ∧
      X.env.crypto.poseidon [asset, Fr.ofU64 input.destinationAmount, address,
        Fr.ofU64 input.expiry, taker, Fr.ofU64 input.takeMode] = some d ∧
      word = d.toBytes := by
  simp only [OrderTermsProofInput.dataHash, SdkResult.bind_eq_ok, orErr_eq_ok] at h
  obtain ⟨viewing, hviewing, addressWord, haddressWord, hword⟩ := h
  -- the maker's address is a hash of the owner hash and of the hashed viewing key
  rw [haddress] at haddressWord
  simp only [Option.bind_eq_bind, Option.bind_eq_some_iff] at haddressWord
  obtain ⟨viewingKeyHash, hkeyHash, haddressWord⟩ := haddressWord
  obtain ⟨fes, address, hfes, hposeidon, rfl⟩ := Crypto.hashv_eq_some.mp haddressWord
  simp only [List.mapM_cons, List.mapM_nil, Fr.ofBytes_toBytes, Option.bind_eq_bind,
    Option.bind_eq_some_iff, Option.pure_def, Option.some.injEq] at hfes
  obtain ⟨owner, howner, _, ⟨_, rfl, _, rfl, rfl⟩, rfl⟩ := hfes
  obtain ⟨fes, d, hfes, hd, rfl⟩ := Crypto.hashv_eq_some.mp (orErr_eq_ok.mp hword)
  simp only [List.mapM_cons, List.mapM_nil, Fr.ofBytes_toBytes, ofBytes_u64RightAlign,
    Option.bind_eq_bind, Option.bind_some, Option.bind_eq_some_iff, Option.pure_def,
    Option.some.injEq] at hfes
  obtain ⟨asset, hasset, _, ⟨_, ⟨_, ⟨_, ⟨taker, htaker, _, rfl, rfl⟩, rfl⟩, rfl⟩, rfl⟩, rfl⟩ := hfes
  exact ⟨asset, owner, viewing, viewingKeyHash, address, taker, d,
    (Fr.toBytes_of_ofBytes hasset).symm, (Fr.toBytes_of_ofBytes howner).symm, hviewing, hkeyHash,
    (Fr.toBytes_of_ofBytes htaker).symm, hposeidon, hd, rfl⟩

/-- The preimage of the SDK's terms hash, as field elements. -/
theorem OrderTerms.dataHash_eq_ok (haddress : CompressesAddresses X.env.crypto X.wallet)
    {terms : OrderTerms} {word : Bytes 32} (h : terms.dataHash X = .ok word) :
    ∃ asset owner viewing viewingKeyHash address taker d,
      X.env.crypto.hashBytes terms.destinationMint.1 = some asset ∧
      X.wallet.ownerHash terms.destination = some (Fr.toBytes owner) ∧
      X.wallet.x25519FromBytes terms.destination.viewingPubkey.bytes = some viewing ∧
      X.env.crypto.hashBytes viewing.bytes.1 = some viewingKeyHash ∧
      X.env.crypto.solanaOwnerIdentity terms.taker = some taker ∧
      X.env.crypto.poseidon [owner, viewingKeyHash] = some address ∧
      X.env.crypto.poseidon [asset, Fr.ofU64 terms.destinationAmount, address,
        Fr.ofU64 terms.expiry, taker, Fr.ofU64 terms.takeMode] = some d ∧
      word = d.toBytes := by
  simp only [OrderTerms.dataHash, OrderTerms.proofInput, SdkResult.bind_eq_ok, orErr_eq_ok,
    hashBytes_eq_ok, addressDataHash_eq_ok, pure, Except.pure, Except.ok.injEq] at h
  obtain ⟨_, ⟨_, ⟨asset, hasset, rfl⟩, ownerWord, howner, _, ⟨taker, htaker, rfl⟩, rfl⟩, h⟩ := h
  obtain ⟨asset', owner, viewing, viewingKeyHash, address, taker', d, hassetWord, rfl, hviewing,
    hkeyHash, htakerWord, hposeidon, hd, hword⟩ := OrderTermsProofInput.dataHash_eq_ok haddress h
  obtain rfl := Fr.toBytes_injective hassetWord
  obtain rfl := Fr.toBytes_injective htakerWord
  exact ⟨asset, owner, viewing, viewingKeyHash, address, taker, d, hasset, howner, hviewing,
    hkeyHash, htaker, hposeidon, hd, hword⟩

/-- What the terms hash rests on, but for the owner hash: hashes without collisions, the hash of an
address, and viewing keys that keep their bytes. -/
structure HashesFields (X : Context) : Prop where
  poseidon : Oracle.CollisionFree X.env.crypto.poseidon
  hashBytes : Oracle.CollisionFree X.env.crypto.hashBytes
  solanaOwnerIdentity : Oracle.CollisionFree X.env.crypto.solanaOwnerIdentity
  compressedAddressHash : CompressesAddresses X.env.crypto X.wallet
  x25519FromBytes : ∀ ⦃bytes key⦄, X.wallet.x25519FromBytes bytes = some key → key.bytes = bytes

/-- What it rests on to determine the terms: an owner hash that determines both of its keys. -/
structure HashesTerms (X : Context) : Prop extends HashesFields X where
  ownerHash : ∀ ⦃a b : ShieldedAddress⦄ ⦃word⦄, X.wallet.ownerHash a = some word →
    X.wallet.ownerHash b = some word →
    a.signingPubkey = b.signingPubkey ∧ a.nullifierPubkey = b.nullifierPubkey

/-- What terms with one hash share. Of the destination the hash sees the owner hash and the viewing
key. -/
structure OrderTerms.Shares (X : Context) (terms terms' : OrderTerms) : Prop where
  destinationMint : terms.destinationMint = terms'.destinationMint
  destinationAmount : terms.destinationAmount = terms'.destinationAmount
  ownerHash : ∃ word, X.wallet.ownerHash terms.destination = some word ∧
    X.wallet.ownerHash terms'.destination = some word
  viewingPubkey : terms.destination.viewingPubkey = terms'.destination.viewingPubkey
  taker : terms.taker = terms'.taker
  expiry : terms.expiry = terms'.expiry
  takeMode : terms.takeMode = terms'.takeMode

theorem HashesFields.shares (hX : HashesFields X) {terms terms' : OrderTerms} {word : Bytes 32}
    (h : terms.dataHash X = .ok word) (h' : terms'.dataHash X = .ok word) :
    terms.Shares X terms' := by
  obtain ⟨asset, owner, viewing, viewingKeyHash, address, taker, d, hasset, howner, hviewing,
    hkeyHash, htaker, haddress, hd, hword⟩ := OrderTerms.dataHash_eq_ok hX.compressedAddressHash h
  obtain ⟨asset', owner', viewing', viewingKeyHash', address', taker', d', hasset', howner',
    hviewing', hkeyHash', htaker', haddress', hd', hword'⟩ :=
      OrderTerms.dataHash_eq_ok hX.compressedAddressHash h'
  have hdigest : d = d' := Fr.toBytes_injective (hword.symm.trans hword')
  subst hdigest
  have hterms := hX.poseidon hd hd'
  simp only [List.cons.injEq, and_true, Fr.ofU64_inj] at hterms
  obtain ⟨rfl, hamount, rfl, hexpiry, rfl, hmode⟩ := hterms
  have hmaker := hX.poseidon haddress haddress'
  simp only [List.cons.injEq, and_true] at hmaker
  obtain ⟨rfl, rfl⟩ := hmaker
  -- the viewing key of the destination sits two hashes deep
  have hkeys : terms.destination.viewingPubkey.bytes = terms'.destination.viewingPubkey.bytes := by
    rw [← hX.x25519FromBytes hviewing, ← hX.x25519FromBytes hviewing']
    exact Subtype.ext (hX.hashBytes hkeyHash hkeyHash')
  exact
    { destinationMint := Subtype.ext (hX.hashBytes hasset hasset')
      destinationAmount := hamount
      ownerHash := ⟨_, howner, howner'⟩
      viewingPubkey := congrArg X25519Pubkey.mk hkeys
      taker := hX.solanaOwnerIdentity htaker htaker'
      expiry := hexpiry
      takeMode := hmode }

/-- **The terms hash binds the terms.** -/
theorem HashesTerms.dataHash_inj (hX : HashesTerms X) {terms terms' : OrderTerms} {word : Bytes 32}
    (h : terms.dataHash X = .ok word) (h' : terms'.dataHash X = .ok word) : terms = terms' := by
  obtain ⟨hmint, hamount, ⟨owner, howner, howner'⟩, hviewing, htaker, hexpiry, hmode⟩ :=
    hX.shares h h'
  have hdestination : terms.destination = terms'.destination := by
    obtain ⟨hsigning, hnullifier⟩ := hX.ownerHash howner howner'
    cases hd : terms.destination
    cases hd' : terms'.destination
    simp_all
  cases terms
  cases terms'
  simp_all

/-- An owner hash determines the identity of the signing key, and the nullifier key. -/
theorem ownerHash_inj (hC : X.env.crypto.Ideal) (hW : X.wallet.Documented X.env.crypto)
    {a b : ShieldedAddress} {word : Bytes 32} (ha : X.wallet.ownerHash a = some word)
    (hb : X.wallet.ownerHash b = some word) :
    (∃ pk : Fr, X.wallet.ownerProofInputHash a.signingPubkey = some pk.toBytes ∧
        X.wallet.ownerProofInputHash b.signingPubkey = some pk.toBytes) ∧
      a.nullifierPubkey = b.nullifierPubkey := by
  obtain ⟨pk, n, owner, hpk, hn, hposeidon, hword⟩ := hW.ownerHash_eq_some ha
  obtain ⟨pk', n', owner', hpk', hn', hposeidon', hword'⟩ := hW.ownerHash_eq_some hb
  have howner : owner = owner' := Fr.toBytes_injective (hword.symm.trans hword')
  subst howner
  have hlist := hC.poseidon hposeidon hposeidon'
  simp only [List.cons.injEq, and_true] at hlist
  obtain ⟨rfl, rfl⟩ := hlist
  exact ⟨⟨pk, hpk, hpk'⟩, by rw [← Fr.toBytes_of_ofBytes hn, Fr.toBytes_of_ofBytes hn']⟩

/-- Mints and viewing keys have hashes without collisions, and a viewing key is read back from its
bytes. -/
structure Binds (X : Context) : Prop where
  hashBytes : Oracle.CollisionFree X.env.crypto.hashBytes
  x25519FromBytes : ∀ key : X25519Pubkey, X.wallet.x25519FromBytes key.bytes = some key

namespace Binds

/-- An address hash binds the bytes that it is of. -/
theorem bytes_inj (hB : Binds X) {n : ℕ} {a b : Bytes n} {x : Fr}
    (ha : X.env.crypto.hashBytes a.1 = some x) (hb : X.env.crypto.hashBytes b.1 = some x) : a = b :=
  Subtype.ext (hB.hashBytes ha hb)

theorem hashesFields (hB : Binds X) (hC : X.env.crypto.Ideal)
    (hW : X.wallet.Documented X.env.crypto) : HashesFields X where
  poseidon := hC.poseidon
  hashBytes := hB.hashBytes
  solanaOwnerIdentity := hC.solanaOwnerIdentity
  compressedAddressHash := hW.compressedAddressHash
  x25519FromBytes _ _ := Wallet.bytes_of_x25519FromBytes hB.x25519FromBytes

/-- With ed25519 keys alone, the owner hash determines both of its keys. -/
theorem hashesTerms (hB : Binds X) (hC : X.env.crypto.Ideal)
    (hwallet : X.wallet = .ofCrypto X.env.crypto) : HashesTerms X where
  toHashesFields := hB.hashesFields hC (by rw [hwallet]; exact Wallet.ofCrypto_documented _)
  ownerHash := by
    intro a b word ha hb
    obtain ⟨⟨pk, hpk, hpk'⟩, hnullifier⟩ :=
      ownerHash_inj hC (by rw [hwallet]; exact Wallet.ofCrypto_documented _) ha hb
    refine ⟨?_, hnullifier⟩
    rw [hwallet] at hpk hpk'
    cases hkey : a.signingPubkey with
    | other encoded =>
        rw [hkey] at hpk
        cases hpk
    | ed25519 address =>
        cases hkey' : b.signingPubkey with
        | other encoded =>
            rw [hkey'] at hpk'
            cases hpk'
        | ed25519 address' =>
            rw [hkey, (Wallet.ofCrypto_documented _).identity_iff] at hpk
            rw [hkey', (Wallet.ofCrypto_documented _).identity_iff] at hpk'
            rw [hC.solanaOwnerIdentity hpk hpk']

end Binds

/-- The terms are the same up to the key that the destination signs with. Keys of different kinds
can have one identity, and the terms hash sees no more of the key. -/
structure OrderTerms.Agrees (X : Context) (terms terms' : OrderTerms) : Prop where
  destinationMint : terms.destinationMint = terms'.destinationMint
  destinationAmount : terms.destinationAmount = terms'.destinationAmount
  identity : ∃ pk : Fr,
    X.wallet.ownerProofInputHash terms.destination.signingPubkey = some pk.toBytes ∧
      X.wallet.ownerProofInputHash terms'.destination.signingPubkey = some pk.toBytes
  nullifierPubkey : terms.destination.nullifierPubkey = terms'.destination.nullifierPubkey
  viewingPubkey : terms.destination.viewingPubkey = terms'.destination.viewingPubkey
  taker : terms.taker = terms'.taker
  expiry : terms.expiry = terms'.expiry
  takeMode : terms.takeMode = terms'.takeMode

theorem Binds.terms_agree (hB : Binds X) (hC : X.env.crypto.Ideal)
    (hW : X.wallet.Documented X.env.crypto) {terms terms' : OrderTerms} {word : Bytes 32}
    (h : terms.dataHash X = .ok word) (h' : terms'.dataHash X = .ok word) :
    terms.Agrees X terms' := by
  obtain ⟨hmint, hamount, ⟨owner, howner, howner'⟩, hviewing, htaker, hexpiry, hmode⟩ :=
    (hB.hashesFields hC hW).shares h h'
  obtain ⟨hidentity, hnullifier⟩ := ownerHash_inj hC hW howner howner'
  exact ⟨hmint, hamount, hidentity, hnullifier, hviewing, htaker, hexpiry, hmode⟩

/-- Between Solana keys, that is all of the terms. -/
theorem OrderTerms.Agrees.eq (hC : X.env.crypto.Ideal) (hW : X.wallet.Documented X.env.crypto)
    {terms terms' : OrderTerms} (h : terms.Agrees X terms') {key key' : Address}
    (hkey : terms.destination.signingPubkey = .ed25519 key)
    (hkey' : terms'.destination.signingPubkey = .ed25519 key') : terms = terms' := by
  obtain ⟨hmint, hamount, ⟨pk, hpk, hpk'⟩, hnullifier, hviewing, htaker, hexpiry, hmode⟩ := h
  rw [hkey, hW.identity_iff] at hpk
  rw [hkey', hW.identity_iff] at hpk'
  have hkeys : key = key' := hC.solanaOwnerIdentity hpk hpk'
  have hdestination : terms.destination = terms'.destination := by
    cases hd : terms.destination
    cases hd' : terms'.destination
    simp_all
  cases terms
  cases terms'
  simp_all

/-! ## The order output -/

/-- The order output, encrypted to a viewing key, has the hash in the tree. -/
def OrderUtxo.HashesTo (X : Context) (order : OrderUtxo) (takerViewingPubkey : X25519Pubkey)
    (treeId : UInt16) (hash : Bytes 32) : Prop :=
  ∃ output, order.outputUtxo X takerViewingPubkey = .ok output ∧
    X.wallet.outputHash output treeId = some hash

/-- The UTXO is the one that the order locks in the tree: it belongs to the order-authority PDA
under the nullifier key with the secret zero, and its data hash is the hash of the terms. -/
structure OrderUtxo.Locks (X : Context) (order : OrderUtxo) (treeId : UInt16) (u : Utxo) : Prop where
  owner : ∃ nullifierPk, X.env.crypto.nullifierPubkey 0 = some nullifierPk ∧
    X.env.crypto.ownerHash (orderAuthority X.env) nullifierPk = some u.owner
  asset : X.env.crypto.hashBytes order.sourceMint.asset.1 = some u.asset
  amount : u.amount = Fr.ofU64 order.sourceAmount
  blinding : Fr.ofBytes order.blinding = some u.blinding
  dataHash : order.terms.dataHash X = .ok u.dataHash.toBytes
  defaultRing : u.DefaultRing
  treeId : u.treeId = Fr.ofU64 treeId.toUInt64

/-- A hash of an order output is the hash of a UTXO that the order locks. -/
theorem OrderUtxo.HashesTo.exists_locks (hW : X.wallet.Documented X.env.crypto) {order : OrderUtxo}
    {takerViewingPubkey : X25519Pubkey} {treeId : UInt16} {hash : Bytes 32}
    (h : order.HashesTo X takerViewingPubkey treeId hash) :
    ∃ u d, order.Locks X treeId u ∧ X.env.crypto.utxoHash u = some d ∧ hash = d.toBytes := by
  obtain ⟨output, houtput, hhash⟩ := h
  simp only [OrderUtxo.outputUtxo, SdkResult.bind_eq_ok, orErr_eq_ok, pure, Except.pure,
    Except.ok.injEq] at houtput
  obtain ⟨word, hword, nullifierWord, hnullifier, data, -, rfl⟩ := houtput
  rw [hW.outputHash _ _ _ rfl rfl rfl] at hhash
  obtain ⟨d, hopening, rfl⟩ := Option.map_eq_some_iff.mp hhash
  obtain ⟨u, hu, hd⟩ := Option.bind_eq_some_iff.mp hopening
  obtain ⟨hring, howner, hasset, hamount, hblinding, hdata, htree⟩ :=
    SppProofOutputUtxo.opening_eq_some.mp hu
  refine ⟨u, d, ?_, hd, rfl⟩
  refine
    { owner := ?_
      asset := hasset
      amount := hamount
      blinding := hblinding
      dataHash := ?_
      defaultRing := hring
      treeId := htree }
  · rw [hW.nullifierPubkey, Option.map_eq_some_iff] at hnullifier
    obtain ⟨nullifierPk, hpk, rfl⟩ := hnullifier
    obtain ⟨pk, n, owner, hidentity, hn, hposeidon, hownerWord⟩ := hW.ownerHash_eq_some howner
    have hsame : u.owner = owner := Fr.toBytes_injective hownerWord
    have hns : nullifierPk = n := Option.some.inj ((Fr.ofBytes_toBytes nullifierPk).symm.trans hn)
    subst hns
    refine ⟨nullifierPk, hpk, Crypto.ownerHash_eq_some.mpr ⟨pk, hW.identity_iff.mp hidentity, ?_⟩⟩
    rw [hsame]
    exact hposeidon
  · have hdataWord : Fr.ofBytes word = some u.dataHash := hdata
    rw [Fr.toBytes_of_ofBytes hdataWord]
    exact hword

/-- A locked UTXO carries data: the terms hash is not zero. -/
theorem OrderUtxo.Locks.not_dataless (hC : X.env.crypto.Ideal)
    (hW : X.wallet.Documented X.env.crypto) {order : OrderUtxo} {treeId : UInt16} {u : Utxo}
    (h : order.Locks X treeId u) : ¬u.Dataless := by
  rintro ⟨hdata, -⟩
  obtain ⟨_, _, _, _, _, _, d, -, -, -, -, -, -, hposeidon, hword⟩ :=
    OrderTerms.dataHash_eq_ok hW.compressedAddressHash h.dataHash
  have hzero : d = 0 := by
    rw [← hdata]
    exact (Fr.toBytes_injective hword).symm
  rw [hzero] at hposeidon
  exact hC.poseidon_ne_zero _ hposeidon

/-- No order output has the hash of a UTXO without data, such as the change of a make. -/
theorem OrderUtxo.HashesTo.not_dataless (hC : X.env.crypto.Ideal)
    (hW : X.wallet.Documented X.env.crypto) {order : OrderUtxo} {viewing : X25519Pubkey}
    {treeId : UInt16} {d : Fr} (h : order.HashesTo X viewing treeId d.toBytes) {u : Utxo}
    (hu : X.env.crypto.utxoHash u = some d) : ¬u.Dataless := by
  obtain ⟨v, d', hlocks, hd, hword⟩ := h.exists_locks hW
  have hdigest : d = d' := Fr.toBytes_injective hword
  subst hdigest
  have hsame : u = v := hC.utxoHash hu hd
  subst hsame
  exact hlocks.not_dataless hC hW

/-- What two orders with one hash share. -/
structure OrderUtxo.Agrees (X : Context) (order order' : OrderUtxo) : Prop where
  terms : order.terms.Agrees X order'.terms
  blinding : order.blinding = order'.blinding
  sourceAsset : order.sourceMint.asset = order'.sourceMint.asset
  sourceAmount : order.sourceAmount = order'.sourceAmount

/-- A UTXO is locked by one order. -/
theorem OrderUtxo.Locks.agrees (hB : Binds X) (hC : X.env.crypto.Ideal)
    (hW : X.wallet.Documented X.env.crypto) {order order' : OrderUtxo} {treeId treeId' : UInt16}
    {u : Utxo} (h : order.Locks X treeId u) (h' : order'.Locks X treeId' u) :
    order.Agrees X order' where
  terms := hB.terms_agree hC hW h.dataHash h'.dataHash
  blinding := by rw [← Fr.toBytes_of_ofBytes h.blinding, Fr.toBytes_of_ofBytes h'.blinding]
  sourceAsset := hB.bytes_inj h.asset h'.asset
  sourceAmount := Fr.ofU64_inj.mp (h.amount.symm.trans h'.amount)

/-- Two order outputs with one hash are one UTXO. -/
theorem OrderUtxo.HashesTo.exists_locks_both (hC : X.env.crypto.Ideal)
    (hW : X.wallet.Documented X.env.crypto) {order order' : OrderUtxo}
    {viewing viewing' : X25519Pubkey} {treeId treeId' : UInt16} {hash : Bytes 32}
    (h : order.HashesTo X viewing treeId hash) (h' : order'.HashesTo X viewing' treeId' hash) :
    ∃ u, order.Locks X treeId u ∧ order'.Locks X treeId' u := by
  obtain ⟨u, d, hlocks, hd, rfl⟩ := h.exists_locks hW
  obtain ⟨u', d', hlocks', hd', hword⟩ := h'.exists_locks hW
  have hdigest : d = d' := Fr.toBytes_injective hword
  subst hdigest
  have hutxo : u = u' := hC.utxoHash hd hd'
  subst hutxo
  exact ⟨u, hlocks, hlocks'⟩

/-- **A hash pins its order**, up to the key of the destination. -/
theorem OrderUtxo.HashesTo.agrees (hB : Binds X) (hC : X.env.crypto.Ideal)
    (hW : X.wallet.Documented X.env.crypto) {order order' : OrderUtxo}
    {viewing viewing' : X25519Pubkey} {treeId treeId' : UInt16} {hash : Bytes 32}
    (h : order.HashesTo X viewing treeId hash) (h' : order'.HashesTo X viewing' treeId' hash) :
    order.Agrees X order' := by
  obtain ⟨u, hlocks, hlocks'⟩ := h.exists_locks_both hC hW h'
  exact hlocks.agrees hB hC hW hlocks'

/-- A hash pins its tree. -/
theorem OrderUtxo.HashesTo.treeId_eq (hC : X.env.crypto.Ideal)
    (hW : X.wallet.Documented X.env.crypto) {order order' : OrderUtxo}
    {viewing viewing' : X25519Pubkey} {treeId treeId' : UInt16} {hash : Bytes 32}
    (h : order.HashesTo X viewing treeId hash) (h' : order'.HashesTo X viewing' treeId' hash) :
    treeId = treeId' := by
  obtain ⟨u, hlocks, hlocks'⟩ := h.exists_locks_both hC hW h'
  exact UInt16.toUInt64_inj.mp (Fr.ofU64_inj.mp (hlocks.treeId.symm.trans hlocks'.treeId))

end Zolana.Swap.Sdk
