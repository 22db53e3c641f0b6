import Zolana.Swap.MakerIndex

set_option autoImplicit false

/-! # A pass of the maker

`index_maker` reads the transactions under the maker's public tag, where anyone may put one.
Unlike the taker's pass (`taker_pass_finds_iff`), a pass of the maker cannot be stopped by what
it reads: a nullifier, a slot or a transaction that does not fit is skipped, and each search goes
on behind it. So the pass returns the first order of every listed transaction that has one
(`maker_pass_complete`).
-/

namespace Zolana.Swap.Sdk

/-! ## What the maker looks for -/

/-- The maker derives the key from the nullifier, and the key is that of the transaction. -/
def Rederives (M : MakerIndexContext) (keypair : ShieldedKeypair) (txViewingPk : X25519Pubkey)
    (nullifier txViewingKey : Bytes 32) : Prop :=
  M.getTransactionViewingKey keypair nullifier = some txViewingKey ∧
    M.viewingKeyPubkey txViewingKey = txViewingPk

/-- The slot opens to the order: it decrypts, its data is order data, its assets resolve, and
the order rebuilt from it for the maker's address has the hash of the slot. -/
structure SlotOpening (M : MakerIndexContext) (registry : AssetRegistry)
    (makerAddress : ShieldedAddress) (txViewingKey : Bytes 32) (salt : Bytes 16)
    (entry : UInt32 × OutputSlot × List UInt8) (order : MakerOrder) where
  plaintext : ConfidentialOutputPlaintext
  orderBytes : List UInt8
  orderData : PlainTextData
  sourceMint : Mint
  destinationMint : Mint
  embedded : M.embeddedViewingPk entry.2.2 = some order.takerViewingPubkey
  decrypt : M.decryptWithTxKey txViewingKey entry.2.2 salt entry.1 = some plaintext
  record : plaintext.records.findSome? DataRecord.utxoBytes = some orderBytes
  deserialize : M.plainTextData.deserializeExact orderBytes = some orderData
  source_mint : resolveMint M.toIndexContext registry plaintext.assetId = .ok sourceMint
  destination_mint :
    resolveMint M.toIndexContext registry orderData.destinationAssetId = .ok destinationMint
  order_utxo : order.orderUtxo =
    ⟨⟨destinationMint.asset, orderData.destinationAmount, makerAddress, orderData.taker,
        orderData.expiry, orderData.takeMode⟩,
      plaintext.blinding, sourceMint, plaintext.amount, orderData.destinationAssetId⟩
  hashesTo : order.orderUtxo.HashesTo M.toContext order.takerViewingPubkey INDEXED_TREE_ID
    entry.2.1.outputContext.hash

/-- The maker's opening of a slot, as a relation between slots and orders. -/
def Opens (M : MakerIndexContext) (registry : AssetRegistry) (makerAddress : ShieldedAddress)
    (txViewingKey : Bytes 32) (salt : Bytes 16) (entry : UInt32 × OutputSlot × List UInt8)
    (order : MakerOrder) : Prop :=
  Nonempty (SlotOpening M registry makerAddress txViewingKey salt entry order)

/-- The order of the transaction: the maker made the transaction, and its first slot that opens
for him, under the key of the first nullifier that gives one, opens to the order. -/
structure ShieldedTransaction.HasOrder (M : MakerIndexContext) (keypair : ShieldedKeypair)
    (registry : AssetRegistry) (makerAddress : ShieldedAddress) (tx : ShieldedTransaction)
    (order : MakerOrder) where
  txViewingPk : X25519Pubkey
  salt : Bytes 16
  txViewingKey : Bytes 32
  tx_viewing_pk : tx.txViewingPk = some txViewingPk
  tx_salt : tx.salt = some salt
  nullifier : Paging.First (Rederives M keypair txViewingPk) tx.nullifiers txViewingKey
  slot : Paging.First (Opens M registry makerAddress txViewingKey salt)
    (unifiedSlots M.toIndexContext tx) order

/-! ## The three searches -/

section Pass

variable {M : MakerIndexContext} {keypair : ShieldedKeypair} {registry : AssetRegistry}
  {makerAddress : ShieldedAddress}

theorem makerViewingKey_eq_some {txViewingPk : X25519Pubkey} {nullifiers : List (Bytes 32)}
    {txViewingKey : Bytes 32} :
    makerViewingKey M keypair txViewingPk nullifiers = some txViewingKey ↔
      Paging.First (Rederives M keypair txViewingPk) nullifiers txViewingKey := by
  apply Paging.findSome?_eq_some_iff_first
  intro nullifier key
  simp only [Option.filter_eq_some_iff, decide_eq_true_eq, Rederives]

theorem scanMakerSlot_eq_some_iff_opens {txViewingKey : Bytes 32} {salt : Bytes 16}
    {entry : UInt32 × OutputSlot × List UInt8} {order : MakerOrder} :
    scanMakerSlot M registry makerAddress txViewingKey salt entry = some order ↔
      Opens M registry makerAddress txViewingKey salt entry order := by
  obtain ⟨slotIndex, slot, body⟩ := entry
  rw [scanMakerSlot_eq_some]
  constructor
  · rintro ⟨plaintext, viewing, hviewing, hplain, horder, hhash⟩
    obtain ⟨orderBytes, orderData, sourceMint, destinationMint, hrecord, hdata, hsource, hdest,
      rfl⟩ := makerOrderCandidate_eq_some.mp horder
    exact ⟨⟨plaintext, orderBytes, orderData, sourceMint, destinationMint, hviewing, hplain,
      hrecord, hdata, hsource, hdest, rfl, hhash⟩⟩
  · rintro ⟨o⟩
    refine ⟨o.plaintext, order.takerViewingPubkey, o.embedded, o.decrypt, ?_, o.hashesTo⟩
    refine makerOrderCandidate_eq_some.mpr ⟨o.orderBytes, o.orderData, o.sourceMint,
      o.destinationMint, o.record, o.deserialize, o.source_mint, o.destination_mint, ?_⟩
    rw [← o.order_utxo]

/-- The scan finds the order of the transaction. -/
theorem scanMaker_eq_ok_some_iff (haddress : M.shieldedAddress keypair = some makerAddress)
    {tx : ShieldedTransaction} {order : MakerOrder} :
    scanMaker M tx keypair registry = .ok (some order) ↔
      Nonempty (tx.HasOrder M keypair registry makerAddress order) := by
  have hslots : ∀ key salt, (unifiedSlots M.toIndexContext tx).findSome?
        (scanMakerSlot M registry makerAddress key salt) = some order ↔
      Paging.First (Opens M registry makerAddress key salt) (unifiedSlots M.toIndexContext tx)
        order := by
    intro key salt
    apply Paging.findSome?_eq_some_iff_first
    intro entry order'
    exact scanMakerSlot_eq_some_iff_opens
  rw [scanMaker_eq_ok_some]
  constructor
  · rintro ⟨pk, salt, key, _, hpk, hsalt, hkey, haddress', hfind⟩
    obtain rfl := Option.some.inj (haddress.symm.trans haddress')
    exact ⟨⟨pk, salt, key, hpk, hsalt, makerViewingKey_eq_some.mp hkey, (hslots key salt).mp hfind⟩⟩
  · rintro ⟨h⟩
    exact ⟨h.txViewingPk, h.salt, h.txViewingKey, makerAddress, h.tx_viewing_pk, h.tx_salt,
      makerViewingKey_eq_some.mpr h.nullifier, haddress, (hslots _ _).mpr h.slot⟩

/-- No transaction makes the scan fail. -/
theorem exists_scanMaker_eq_ok (haddress : M.shieldedAddress keypair = some makerAddress)
    (tx : ShieldedTransaction) : ∃ found, scanMaker M tx keypair registry = .ok found := by
  unfold scanMaker
  split
  · split
    · exact ⟨_, rfl⟩
    · rw [haddress]
      exact ⟨_, rfl⟩
  · exact ⟨_, rfl⟩

/-- A transaction of the maker with a slot that opens has an order, whatever its nullifiers and
slots in front are. -/
theorem exists_hasOrder {tx : ShieldedTransaction} {txViewingPk : X25519Pubkey} {salt : Bytes 16}
    (hpk : tx.txViewingPk = some txViewingPk) (hsalt : tx.salt = some salt)
    (hnullifier : ∃ nullifier ∈ tx.nullifiers, ∃ key,
      Rederives M keypair txViewingPk nullifier key) :
    ∃ txViewingKey, Paging.First (Rederives M keypair txViewingPk) tx.nullifiers txViewingKey ∧
      ∀ entry ∈ unifiedSlots M.toIndexContext tx, ∀ order,
        Opens M registry makerAddress txViewingKey salt entry order →
        ∃ order', Nonempty (tx.HasOrder M keypair registry makerAddress order') := by
  obtain ⟨key, hkey⟩ := Paging.exists_first_iff.mpr hnullifier
  refine ⟨key, hkey, ?_⟩
  intro entry hentry order hopens
  obtain ⟨order', horder'⟩ := Paging.exists_first_iff.mpr ⟨entry, hentry, order, hopens⟩
  exact ⟨order', ⟨⟨txViewingPk, salt, key, hpk, hsalt, hkey, horder'⟩⟩⟩

end Pass

/-- **A pass of the maker is total and complete.** Whatever is listed, it returns in the order
of the listing the order of each transaction that has one. A transaction has one as soon as some
nullifier gives its viewing key to the maker and some slot opens under it; it is then the order
of the first such slot. -/
theorem maker_pass_complete {M : MakerIndexContext} (keypair : ShieldedKeypair)
    (registry : AssetRegistry) {makerAddress : ShieldedAddress} {κ : Type} {indexer : Rpc κ}
    {tag : Bytes 32} (htag : M.confidentialViewTag keypair.signingPubkey = some tag)
    (haddress : M.shieldedAddress keypair = some makerAddress)
    {pages : List (List ShieldedTransaction)}
    (hlist : Paging.Listing
      (fun cursor => orErr (indexer.getShieldedTransactionsByTags [tag] cursor)) none pages)
    {fuel : ℕ} (hfuel : pages.length ≤ fuel) :
    ∃ find : ShieldedTransaction → Option MakerOrder,
      collectTagged M.toIndexContext keypair indexer (scanMaker M · keypair registry) fuel =
        some (.ok (pages.flatten.filterMap find)) ∧
      (∀ tx order, find tx = some order ↔
        Nonempty (tx.HasOrder M keypair registry makerAddress order)) ∧
      ∀ (tx : ShieldedTransaction) txViewingPk salt, tx.txViewingPk = some txViewingPk →
        tx.salt = some salt →
        (∃ nullifier ∈ tx.nullifiers, ∃ key, Rederives M keypair txViewingPk nullifier key) →
        ∃ txViewingKey,
          Paging.First (Rederives M keypair txViewingPk) tx.nullifiers txViewingKey ∧
          ∀ entry ∈ unifiedSlots M.toIndexContext tx, ∀ order,
            Opens M registry makerAddress txViewingKey salt entry order →
            ∃ order', find tx = some order' := by
  have htotal : ∀ tx, ∃ found, scanMaker M tx keypair registry = .ok found :=
    exists_scanMaker_eq_ok haddress
  choose find hfind using htotal
  have hspec : ∀ tx order, find tx = some order ↔
      Nonempty (tx.HasOrder M keypair registry makerAddress order) := by
    intro tx order
    rw [← scanMaker_eq_ok_some_iff haddress, hfind, Except.ok.injEq]
  refine ⟨find, ?_, hspec, ?_⟩
  · rw [collectTagged, htag]
    exact Paging.collect_eq_ok hfind hlist hfuel
  · intro tx txViewingPk salt hpk hsalt hnullifier
    simp only [hspec]
    exact exists_hasOrder hpk hsalt hnullifier

/-! ## A copied ciphertext

The make of the sample, and the same make behind a nullifier of somebody else and a copy of the
order's ciphertext in a slot with another hash. -/

namespace Sample

open Swap.Sample

def copiedTransaction : ShieldedTransaction :=
  { orderTransaction with
    outputSlots := ⟨Bytes.replicate 32 3, ⟨Fr.toBytes 103, 0, 2⟩, [1]⟩ ::
      orderTransaction.outputSlots
    nullifiers := Fr.toBytes 1015 :: orderTransaction.nullifiers }

theorem scanMaker_orderTransaction :
    scanMaker makerIndexContext orderTransaction makerKeypair registry = .ok (some makerOrder) := by
  decide

theorem scanMaker_copiedTransaction :
    scanMaker makerIndexContext copiedTransaction makerKeypair registry =
      .ok (some makerOrder) := by
  decide

end Sample

open Sdk.Sample in
theorem maker_pass_complete_sample :
    collectTagged indexContext makerKeypair (indexer copiedTransaction)
      (scanMaker makerIndexContext · makerKeypair registry) 2 =
        some (.ok [makerOrder, makerOrder]) := by
  obtain ⟨find, hpass, hfind, -⟩ := maker_pass_complete (M := makerIndexContext)
    makerKeypair registry rfl rfl (listing copiedTransaction _) (Nat.le_refl 2)
  have horder : find orderTransaction = some makerOrder :=
    (hfind _ _).mpr ((scanMaker_eq_ok_some_iff rfl).mp scanMaker_orderTransaction)
  have hcopied : find copiedTransaction = some makerOrder :=
    (hfind _ _).mpr ((scanMaker_eq_ok_some_iff rfl).mp scanMaker_copiedTransaction)
  have hall : [[orderTransaction], [copiedTransaction]].flatten.filterMap find =
      [makerOrder, makerOrder] := by
    simp [horder, hcopied]
  rw [← hall]
  exact hpass

end Zolana.Swap.Sdk
