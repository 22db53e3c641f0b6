import Zolana.Swap.Index

set_option autoImplicit false

/-! # The maker's side of discovery

`maker.rs`, and what the two sides may conclude from an order that they find. Both rebuild an
order from pieces that anyone may have supplied and accept it if its hash is the committed one.
So what they return is a real order, the same on both sides, up to the key in the marker: the
taker only uses that key to look an address up.
-/

namespace Zolana.Swap.Sdk

/-- `MakerOrder`. -/
structure MakerOrder where
  orderUtxo : OrderUtxo
  takerViewingPubkey : X25519Pubkey
  deriving DecidableEq

/-- The surroundings of `maker.rs`; a transaction viewing key is a key of its own. -/
structure MakerIndexContext extends IndexContext where
  /-- `ShieldedKeypair::shielded_address`. -/
  shieldedAddress : ShieldedKeypair → Option ShieldedAddress
  /-- `ShieldedKeypair::get_transaction_viewing_key`. -/
  getTransactionViewingKey : ShieldedKeypair → Bytes 32 → Option (Bytes 32)
  /-- `pubkey` of a transaction viewing key. -/
  viewingKeyPubkey : Bytes 32 → X25519Pubkey
  /-- `Confidential::embedded_viewing_pk`. -/
  embeddedViewingPk : List UInt8 → Option X25519Pubkey
  /-- `Confidential::decrypt_with_tx_key`. -/
  decryptWithTxKey : Bytes 32 → List UInt8 → Bytes 16 → UInt32 →
    Option ConfidentialOutputPlaintext

/-! ## Scanning -/

section Scan

variable (M : MakerIndexContext)

/-- `maker_order_candidate`. -/
def makerOrderCandidate (registry : AssetRegistry) (makerAddress : ShieldedAddress)
    (plaintext : ConfidentialOutputPlaintext) (takerViewingPubkey : X25519Pubkey) :
    Option MakerOrder := do
  let orderData ← (parseOrderData M.toIndexContext plaintext.records).toOption
  let sourceMint ← (resolveMint M.toIndexContext registry plaintext.assetId).toOption
  let destinationMint ←
    (resolveMint M.toIndexContext registry orderData.destinationAssetId).toOption
  return ⟨⟨⟨destinationMint.asset, orderData.destinationAmount, makerAddress, orderData.taker,
      orderData.expiry, orderData.takeMode⟩, plaintext.blinding, sourceMint, plaintext.amount,
      orderData.destinationAssetId⟩, takerViewingPubkey⟩

/-- One round of the loop of `scan_maker`; `none` is `continue`. -/
def scanMakerSlot (registry : AssetRegistry) (makerAddress : ShieldedAddress)
    (txViewingKey : Bytes 32) (salt : Bytes 16) :
    UInt32 × OutputSlot × List UInt8 → Option MakerOrder
  | (slotIndex, slot, body) => do
      let takerViewingPubkey ← M.embeddedViewingPk body
      let plaintext ← M.decryptWithTxKey txViewingKey body salt slotIndex
      let order ← makerOrderCandidate M registry makerAddress plaintext takerViewingPubkey
      let output ← (order.orderUtxo.outputUtxo M.toContext takerViewingPubkey).toOption
      let orderUtxoHash ← M.wallet.outputHash output INDEXED_TREE_ID
      if orderUtxoHash ≠ slot.outputContext.hash then none else some order

/-- The transaction viewing key that the maker derives again from the first nullifier that
gives it. -/
def makerViewingKey (keypair : ShieldedKeypair) (txViewingPk : X25519Pubkey)
    (nullifiers : List (Bytes 32)) : Option (Bytes 32) :=
  nullifiers.findSome? fun nullifier =>
    (M.getTransactionViewingKey keypair nullifier).filter (M.viewingKeyPubkey · = txViewingPk)

/-- `scan_maker`. -/
def scanMaker (tx : ShieldedTransaction) (keypair : ShieldedKeypair) (registry : AssetRegistry) :
    SdkResult (Option MakerOrder) :=
  match tx.txViewingPk, tx.salt with
  | some txViewingPk, some salt =>
      match makerViewingKey M keypair txViewingPk tx.nullifiers with
      -- the transaction is not the maker's
      | none => .ok none
      | some txViewingKey => do
          let makerAddress ← orErr (M.shieldedAddress keypair)
          return (unifiedSlots M.toIndexContext tx).findSome?
            (scanMakerSlot M registry makerAddress txViewingKey salt)
  | _, _ => .ok none

end Scan

/-! ## What the scans read -/

section Read

variable {I : IndexContext} {M : MakerIndexContext} {tx : ShieldedTransaction}
  {keypair : ShieldedKeypair} {registry : AssetRegistry}

/-- A candidate comes from a marker under the taker's tag and from a slot with the hash in the
marker. -/
theorem scanTaker_eq_ok_some {candidate : TakerOrderCandidate} :
    scanTaker I tx keypair registry = .ok (some candidate) ↔
      ∃ tag message marker slotIndex slot body plaintext orderBytes orderData sourceMint
        destinationMint, I.confidentialViewTag keypair.signingPubkey = some tag ∧
        tx.taggedMessage tag = some message ∧ message.data = MarkerData.toVec marker ∧
        (unifiedSlots I tx).find? (·.2.1.outputContext.hash = marker.orderUtxoHash) =
          some (slotIndex, slot, body) ∧
        I.decode keypair.viewingKey tx slotIndex body = some plaintext ∧
        plaintext.records.findSome? DataRecord.utxoBytes = some orderBytes ∧
        I.plainTextData.deserializeExact orderBytes = some orderData ∧
        resolveMint I registry plaintext.assetId = .ok sourceMint ∧
        resolveMint I registry orderData.destinationAssetId = .ok destinationMint ∧
        candidate = ⟨plaintext.amount, sourceMint, destinationMint.asset, plaintext.blinding,
          orderData, marker.makerPubkey, marker.orderUtxoHash⟩ := by
  constructor
  · intro h
    obtain ⟨tag, htag, -⟩ := SdkResult.bind_eq_ok.mp h
    rw [orErr_eq_ok] at htag
    cases hmessage : tx.taggedMessage tag with
    | none =>
        rw [scanTaker_of_untagged htag hmessage] at h
        cases h
    | some message =>
        obtain ⟨marker, slotIndex, slot, body, plaintext, orderBytes, orderData, sourceMint,
          destinationMint, hmarker, hslot, hplain, hrecord, hdata, hsource, hdest, hcandidate⟩ :=
          (scanTaker_of_tagged htag hmessage).mp h
        exact ⟨tag, message, marker, slotIndex, slot, body, plaintext, orderBytes, orderData,
          sourceMint, destinationMint, htag, hmessage, hmarker, hslot, hplain, hrecord, hdata,
          hsource, hdest, Option.some.inj hcandidate⟩
  · rintro ⟨tag, message, marker, slotIndex, slot, body, plaintext, orderBytes, orderData,
      sourceMint, destinationMint, htag, hmessage, hmarker, hslot, hplain, hrecord, hdata, hsource,
      hdest, rfl⟩
    exact (scanTaker_of_tagged htag hmessage).mpr ⟨marker, slotIndex, slot, body, plaintext,
      orderBytes, orderData, sourceMint, destinationMint, hmarker, hslot, hplain, hrecord, hdata,
      hsource, hdest, rfl⟩

/-- The pieces of the maker's order. -/
theorem makerOrderCandidate_eq_some {makerAddress : ShieldedAddress}
    {plaintext : ConfidentialOutputPlaintext} {viewing : X25519Pubkey} {order : MakerOrder} :
    makerOrderCandidate M registry makerAddress plaintext viewing = some order ↔
      ∃ orderBytes orderData sourceMint destinationMint,
        plaintext.records.findSome? DataRecord.utxoBytes = some orderBytes ∧
        M.plainTextData.deserializeExact orderBytes = some orderData ∧
        resolveMint M.toIndexContext registry plaintext.assetId = .ok sourceMint ∧
        resolveMint M.toIndexContext registry orderData.destinationAssetId = .ok destinationMint ∧
        order = ⟨⟨⟨destinationMint.asset, orderData.destinationAmount, makerAddress,
          orderData.taker, orderData.expiry, orderData.takeMode⟩, plaintext.blinding, sourceMint,
          plaintext.amount, orderData.destinationAssetId⟩, viewing⟩ := by
  simp only [makerOrderCandidate, Option.bind_eq_bind, Option.bind_eq_some_iff,
    SdkResult.toOption_eq_some, parseOrderData, PlainTextData.deserialize, SdkResult.bind_eq_ok,
    orMessage_eq_ok, orErr_eq_ok, Option.pure_def, Option.some.injEq]
  constructor
  · rintro ⟨orderData, ⟨orderBytes, hrecord, hdata⟩, sourceMint, hsource, destinationMint, hdest,
      rfl⟩
    exact ⟨orderBytes, orderData, sourceMint, destinationMint, hrecord, hdata, hsource, hdest, rfl⟩
  · rintro ⟨orderBytes, orderData, sourceMint, destinationMint, hrecord, hdata, hsource, hdest, rfl⟩
    exact ⟨orderData, ⟨orderBytes, hrecord, hdata⟩, sourceMint, hsource, destinationMint, hdest,
      rfl⟩

/-- A round of the maker's loop that ends it. -/
theorem scanMakerSlot_eq_some {makerAddress : ShieldedAddress} {txViewingKey : Bytes 32}
    {salt : Bytes 16} {slotIndex : UInt32} {slot : OutputSlot} {body : List UInt8}
    {order : MakerOrder} :
    scanMakerSlot M registry makerAddress txViewingKey salt (slotIndex, slot, body) = some order ↔
      ∃ plaintext viewing, M.embeddedViewingPk body = some viewing ∧
        M.decryptWithTxKey txViewingKey body salt slotIndex = some plaintext ∧
        makerOrderCandidate M registry makerAddress plaintext viewing = some order ∧
        order.orderUtxo.HashesTo M.toContext viewing INDEXED_TREE_ID slot.outputContext.hash := by
  simp only [scanMakerSlot, Option.bind_eq_bind, Option.bind_eq_some_iff,
    SdkResult.toOption_eq_some]
  constructor
  · rintro ⟨viewing, hviewing, plaintext, hplain, order', horder, output, houtput, hash, hhash, h⟩
    split at h
    · cases h
    · rename_i heq
      rw [not_not] at heq
      rw [Option.some.injEq] at h
      subst heq h
      exact ⟨plaintext, viewing, hviewing, hplain, horder, output, houtput, hhash⟩
  · rintro ⟨plaintext, viewing, hviewing, hplain, horder, output, houtput, hhash⟩
    refine ⟨viewing, hviewing, plaintext, hplain, order, horder, output, houtput, _, hhash, ?_⟩
    rw [if_neg (not_not_intro rfl)]

/-- An order of the maker comes from a slot of a transaction that he made. -/
theorem scanMaker_eq_ok_some {order : MakerOrder} :
    scanMaker M tx keypair registry = .ok (some order) ↔
      ∃ txViewingPk salt txViewingKey makerAddress, tx.txViewingPk = some txViewingPk ∧
        tx.salt = some salt ∧
        makerViewingKey M keypair txViewingPk tx.nullifiers = some txViewingKey ∧
        M.shieldedAddress keypair = some makerAddress ∧
        (unifiedSlots M.toIndexContext tx).findSome?
          (scanMakerSlot M registry makerAddress txViewingKey salt) = some order := by
  unfold scanMaker
  cases hpk : tx.txViewingPk with
  | none => simp
  | some txViewingPk =>
      cases hsalt : tx.salt with
      | none => simp
      | some salt =>
          cases hkey : makerViewingKey M keypair txViewingPk tx.nullifiers with
          | none => simp [hkey]
          | some txViewingKey =>
              simp only [hkey, SdkResult.bind_eq_ok, orErr_eq_ok, pure, Except.pure,
                Except.ok.injEq, Option.some.injEq]
              constructor
              · rintro ⟨makerAddress, haddress, h⟩
                exact ⟨txViewingPk, salt, txViewingKey, makerAddress, rfl, rfl, hkey, haddress, h⟩
              · rintro ⟨_, _, key, makerAddress, rfl, rfl, hkey', haddress, h⟩
                rw [hkey, Option.some.injEq] at hkey'
                subst hkey'
                exact ⟨makerAddress, haddress, h⟩

end Read

/-! ## What the scans return -/

section Agreement

variable {I : IndexContext} {M : MakerIndexContext}

/-- The hash is that of a slot of the transaction and commits the order: it is the hash of the
UTXO that the order locks in the indexed tree and of no other UTXO, and any order with this
hash, in any tree and for any viewing key, agrees with it and is in the same tree. -/
structure OrderUtxo.CommittedIn (I : IndexContext) (order : OrderUtxo)
    (takerViewingPubkey : X25519Pubkey) (tx : ShieldedTransaction) (hash : Bytes 32) : Prop where
  slot : ∃ entry ∈ unifiedSlots I tx, entry.2.1.outputContext.hash = hash
  hashesTo : order.HashesTo I.toContext takerViewingPubkey INDEXED_TREE_ID hash
  utxo : ∃ u, order.Locks I.toContext INDEXED_TREE_ID u ∧
    ∀ v, (I.env.crypto.utxoHash v).map Fr.toBytes = some hash ↔ v = u
  pinned : ∀ ⦃order' viewing' treeId⦄, order'.HashesTo I.toContext viewing' treeId hash →
    order.Agrees I.toContext order' ∧ treeId = INDEXED_TREE_ID

theorem OrderUtxo.HashesTo.committedIn (hB : Binds I.toContext) (hC : I.env.crypto.Ideal)
    (hW : I.wallet.Documented I.env.crypto) {order : OrderUtxo} {viewing : X25519Pubkey}
    {tx : ShieldedTransaction} {hash : Bytes 32}
    (hslot : ∃ entry ∈ unifiedSlots I tx, entry.2.1.outputContext.hash = hash)
    (h : order.HashesTo I.toContext viewing INDEXED_TREE_ID hash) :
    order.CommittedIn I viewing tx hash := by
  obtain ⟨u, d, hlocks, hd, hword⟩ := h.exists_locks hW
  refine ⟨hslot, h, ⟨u, hlocks, ?_⟩, ?_⟩
  · intro v
    constructor
    · intro hv
      obtain ⟨d', hd', hword'⟩ := Option.map_eq_some_iff.mp hv
      have hsame : d' = d := Fr.toBytes_injective (hword'.trans hword)
      subst hsame
      exact hC.utxoHash hd' hd
    · rintro rfl
      rw [hd, hword]
      rfl
  · intro order' viewing' treeId h'
    exact ⟨h.agrees hB hC hW h', (h.treeId_eq hC hW h').symm⟩

/-- The order that `into_order` accepts has the hash in the marker. -/
theorem TakerOrderCandidate.hashesTo_of_intoOrder {candidate : TakerOrderCandidate}
    {destination : ShieldedAddress} {viewing : X25519Pubkey} {order : TakerOrder}
    (h : candidate.intoOrder I destination viewing = .ok order) :
    order = candidate.order destination ∧
      order.orderUtxo.HashesTo I.toContext viewing INDEXED_TREE_ID candidate.orderUtxoHash :=
  TakerOrderCandidate.intoOrder_eq_ok.mp h

/-- `into_order` does not look at the key in the marker. -/
theorem TakerOrderCandidate.intoOrder_makerPubkey {candidate : TakerOrderCandidate}
    {destination : ShieldedAddress} {viewing : X25519Pubkey} {order : TakerOrder}
    (h : candidate.intoOrder I destination viewing = .ok order) (makerPubkey : Address) :
    TakerOrderCandidate.intoOrder I { candidate with makerPubkey } destination viewing =
      .ok { order with makerPubkey } := by
  obtain ⟨rfl, hhash⟩ := TakerOrderCandidate.intoOrder_eq_ok.mp h
  exact TakerOrderCandidate.intoOrder_eq_ok.mpr ⟨rfl, hhash⟩

/-- A candidate names a slot of its transaction. -/
theorem scanTaker_slot {tx : ShieldedTransaction} {keypair : ShieldedKeypair}
    {registry : AssetRegistry} {candidate : TakerOrderCandidate}
    (h : scanTaker I tx keypair registry = .ok (some candidate)) :
    ∃ entry ∈ unifiedSlots I tx, entry.2.1.outputContext.hash = candidate.orderUtxoHash := by
  obtain ⟨_, _, marker, slotIndex, slot, body, _, _, _, _, _, -, -, -, hslot, -, -, -, -, -, rfl⟩ :=
    scanTaker_eq_ok_some.mp h
  have hhash := List.find?_some hslot
  exact ⟨(slotIndex, slot, body), List.mem_of_find?_eq_some hslot, of_decide_eq_true hhash⟩

/-- The key and the hash of a candidate are those of a marker in its transaction. -/
theorem scanTaker_marker {tx : ShieldedTransaction} {keypair : ShieldedKeypair}
    {registry : AssetRegistry} {candidate : TakerOrderCandidate}
    (h : scanTaker I tx keypair registry = .ok (some candidate)) :
    ∃ message ∈ tx.messages,
      message.data = (MarkerData.mk candidate.orderUtxoHash candidate.makerPubkey).toVec := by
  obtain ⟨_, message, marker, _, _, _, _, _, _, _, _, -, hmessage, hdata, -, -, -, -, -, -, rfl⟩ :=
    scanTaker_eq_ok_some.mp h
  exact ⟨message, List.mem_of_find?_eq_some hmessage, hdata⟩

/-- An order of the maker is committed by a slot of its transaction. -/
theorem scanMaker_slot {tx : ShieldedTransaction} {keypair : ShieldedKeypair}
    {registry : AssetRegistry} {order : MakerOrder}
    (h : scanMaker M tx keypair registry = .ok (some order)) :
    ∃ hash, (∃ entry ∈ unifiedSlots M.toIndexContext tx, entry.2.1.outputContext.hash = hash) ∧
      order.orderUtxo.HashesTo M.toContext order.takerViewingPubkey INDEXED_TREE_ID hash := by
  obtain ⟨_, _, _, makerAddress, -, -, -, -, hfind⟩ := scanMaker_eq_ok_some.mp h
  obtain ⟨⟨slotIndex, slot, body⟩, hmem, hround⟩ := List.exists_of_findSome?_eq_some hfind
  obtain ⟨plaintext, viewing, -, -, hcandidate, hhash⟩ := scanMakerSlot_eq_some.mp hround
  obtain ⟨_, _, _, _, -, -, -, -, rfl⟩ := makerOrderCandidate_eq_some.mp hcandidate
  exact ⟨_, ⟨_, hmem, rfl⟩, hhash⟩

/-- The registry gives a mint one id. -/
def OneIdPerMint (I : IndexContext) (registry : AssetRegistry) : Prop :=
  ∀ ⦃assetId assetId' mint mint'⦄, resolveMint I registry assetId = .ok mint →
    resolveMint I registry assetId' = .ok mint' → mint.asset = mint'.asset → mint = mint'

/-- The source mint of a candidate is one of the registry. -/
theorem scanTaker_sourceMint {tx : ShieldedTransaction} {keypair : ShieldedKeypair}
    {registry : AssetRegistry} {candidate : TakerOrderCandidate}
    (h : scanTaker I tx keypair registry = .ok (some candidate)) :
    ∃ assetId, resolveMint I registry assetId = .ok candidate.sourceMint := by
  obtain ⟨_, _, _, _, _, _, plaintext, _, _, _, _, -, -, -, -, -, -, -, hsource, -, rfl⟩ :=
    scanTaker_eq_ok_some.mp h
  exact ⟨plaintext.assetId, hsource⟩

/-- So is the source mint of the maker's order. -/
theorem scanMaker_sourceMint {tx : ShieldedTransaction} {keypair : ShieldedKeypair}
    {registry : AssetRegistry} {order : MakerOrder}
    (h : scanMaker M tx keypair registry = .ok (some order)) :
    ∃ assetId, resolveMint M.toIndexContext registry assetId = .ok order.orderUtxo.sourceMint := by
  obtain ⟨_, _, _, _, -, -, -, -, hfind⟩ := scanMaker_eq_ok_some.mp h
  obtain ⟨_, -, hround⟩ := List.exists_of_findSome?_eq_some hfind
  obtain ⟨plaintext, _, -, -, hcandidate, -⟩ := scanMakerSlot_eq_some.mp hround
  obtain ⟨_, _, _, _, -, -, hsource, -, rfl⟩ := makerOrderCandidate_eq_some.mp hcandidate
  exact ⟨plaintext.assetId, hsource⟩

/-- **What the scans return is a real order.** An order of the taker's scan, for whatever
address is claimed, and an order of the maker's scan are committed by a slot of the
transaction; a claimed address or a plaintext that does not agree with the committed order is
refused; and orders that the two scans find for one hash agree, so they have the same terms if
both destinations are Solana keys. The key that comes with the taker's order is the one in the
marker, whatever it is. -/
theorem scans_return_real_orders (hB : Binds M.toContext) (hC : M.env.crypto.Ideal)
    (hW : M.wallet.Documented M.env.crypto) (tx : ShieldedTransaction)
    (takerKeypair makerKeypair : ShieldedKeypair) (registry : AssetRegistry) :
    (∀ candidate, scanTaker M.toIndexContext tx takerKeypair registry = .ok (some candidate) →
      ∀ destination viewing,
        (∀ order, candidate.intoOrder M.toIndexContext destination viewing = .ok order →
          order.orderUtxo.CommittedIn M.toIndexContext viewing tx candidate.orderUtxoHash ∧
          ∃ message ∈ tx.messages,
            message.data = (MarkerData.mk candidate.orderUtxoHash order.makerPubkey).toVec) ∧
        (∀ order' viewing' treeId,
          order'.HashesTo M.toContext viewing' treeId candidate.orderUtxoHash →
          ¬(candidate.order destination).orderUtxo.Agrees M.toContext order' →
          ∃ e, candidate.intoOrder M.toIndexContext destination viewing = .error e) ∧
        ∀ order makerPubkey,
          candidate.intoOrder M.toIndexContext destination viewing = .ok order →
          TakerOrderCandidate.intoOrder M.toIndexContext { candidate with makerPubkey } destination
            viewing = .ok { order with makerPubkey }) ∧
    (∀ order, scanMaker M tx makerKeypair registry = .ok (some order) →
      ∃ hash, order.orderUtxo.CommittedIn M.toIndexContext order.takerViewingPubkey tx hash) ∧
    (∀ candidate destination viewing takerOrder makerOrder,
      scanTaker M.toIndexContext tx takerKeypair registry = .ok (some candidate) →
      candidate.intoOrder M.toIndexContext destination viewing = .ok takerOrder →
      scanMaker M tx makerKeypair registry = .ok (some makerOrder) →
      makerOrder.orderUtxo.HashesTo M.toContext makerOrder.takerViewingPubkey INDEXED_TREE_ID
        candidate.orderUtxoHash →
      takerOrder.orderUtxo.Agrees M.toContext makerOrder.orderUtxo ∧
        (∀ key key', takerOrder.orderUtxo.terms.destination.signingPubkey = .ed25519 key →
          makerOrder.orderUtxo.terms.destination.signingPubkey = .ed25519 key' →
          takerOrder.orderUtxo.terms = makerOrder.orderUtxo.terms) ∧
        (OneIdPerMint M.toIndexContext registry →
          takerOrder.orderUtxo.sourceMint = makerOrder.orderUtxo.sourceMint)) := by
  refine ⟨?_, ?_, ?_⟩
  · intro candidate hscan destination viewing
    have hslot := scanTaker_slot hscan
    refine ⟨?_, ?_, ?_⟩
    · intro order horder
      obtain ⟨rfl, hhash⟩ := TakerOrderCandidate.hashesTo_of_intoOrder horder
      exact ⟨hhash.committedIn hB hC hW hslot, scanTaker_marker hscan⟩
    · intro order' viewing' treeId h' hnot
      rcases SdkResult.ok_or_error (candidate.intoOrder M.toIndexContext destination viewing) with
        ⟨order, horder⟩ | herr
      · obtain ⟨rfl, hhash⟩ := TakerOrderCandidate.hashesTo_of_intoOrder horder
        exact absurd (hhash.agrees hB hC hW h') hnot
      · exact herr
    · intro order makerPubkey horder
      exact TakerOrderCandidate.intoOrder_makerPubkey horder makerPubkey
  · intro order hscan
    obtain ⟨hash, hslot, hhash⟩ := scanMaker_slot hscan
    exact ⟨hash, hhash.committedIn hB hC hW hslot⟩
  · intro candidate destination viewing takerOrder makerOrder htaker hinto hmaker hsame
    obtain ⟨rfl, hhash⟩ := TakerOrderCandidate.hashesTo_of_intoOrder hinto
    have hagrees := hhash.agrees hB hC hW hsame
    refine ⟨hagrees, fun _ _ => hagrees.terms.eq hC hW, ?_⟩
    intro hregistry
    obtain ⟨assetId, hsource⟩ := scanTaker_sourceMint htaker
    obtain ⟨assetId', hsource'⟩ := scanMaker_sourceMint hmaker
    exact hregistry hsource hsource' hagrees.sourceAsset

end Agreement

/-! ## The sample order from both sides

The make of the sample, scanned by its taker and by its maker, and the same make with the key of
somebody else in the marker. -/

namespace Sample

open Swap.Sample

noncomputable def makerIndexContext : MakerIndexContext where
  toIndexContext := indexContext
  shieldedAddress _ := some makerAddress
  getTransactionViewingKey _ nullifier :=
    if nullifier = Fr.toBytes 1014 then some (Bytes.replicate 32 9) else none
  viewingKeyPubkey _ := viewingKey
  embeddedViewingPk _ := some viewingKey
  decryptWithTxKey _ body _ _ :=
    if body = [] then some ⟨7, 2, Fr.toBytes 33, [.utxoData []]⟩ else none

def makerKeypair : ShieldedKeypair := ⟨.ed25519 maker, 5, Bytes.replicate 32 1⟩

def takerCandidate (makerPubkey : Address) : TakerOrderCandidate :=
  ⟨7, ⟨Bytes.replicate 32 20, 2⟩, Bytes.replicate 32 21, Fr.toBytes 33,
    (orderUtxo TAKE_MODE_DERIVED 33).terms.toPlaintext 3, makerPubkey, Fr.toBytes 102⟩

def makerOrder : MakerOrder := ⟨orderUtxo TAKE_MODE_DERIVED 33, viewingKey⟩

/-- The make of the sample with a key in the marker. -/
def markedTransaction (makerPubkey : Address) : ShieldedTransaction :=
  { orderTransaction with
    messages := [⟨Bytes.replicate 32 2, (MarkerData.mk (Fr.toBytes 102) makerPubkey).toVec⟩] }

theorem scanTaker_marked :
    scanTaker indexContext (markedTransaction taker) takerKeypair registry =
      .ok (some (takerCandidate taker)) := by
  decide

theorem intoOrder_marked :
    (takerCandidate taker).intoOrder indexContext makerAddress viewingKey =
      .ok ⟨orderUtxo TAKE_MODE_DERIVED 33, taker⟩ := by
  decide

theorem scanMaker_marked :
    scanMaker makerIndexContext (markedTransaction taker) makerKeypair registry =
      .ok (some makerOrder) := by
  decide

end Sample

open Sdk.Sample in
theorem scans_return_real_orders_sample :
    (orderUtxo TAKE_MODE_DERIVED 33).CommittedIn indexContext viewingKey
        (markedTransaction Swap.Sample.taker) (Fr.toBytes 102) ∧
      (∃ hash, makerOrder.orderUtxo.CommittedIn indexContext viewingKey
        (markedTransaction Swap.Sample.taker) hash) ∧
      (orderUtxo TAKE_MODE_DERIVED 33).Agrees context makerOrder.orderUtxo := by
  obtain ⟨htaker, hmaker, hboth⟩ := scans_return_real_orders (M := makerIndexContext) context_binds
    Swap.Sample.crypto_ideal context_documented (markedTransaction Swap.Sample.taker) takerKeypair
    makerKeypair registry
  have hcommitted := ((htaker _ scanTaker_marked makerAddress viewingKey).1 _ intoOrder_marked).1
  refine ⟨hcommitted, hmaker makerOrder scanMaker_marked, ?_⟩
  exact (hboth _ makerAddress viewingKey _ makerOrder scanTaker_marked intoOrder_marked
    scanMaker_marked hcommitted.hashesTo).1

namespace Sample

open Swap.Sample

/-- The sample with keys that stand for PDAs. -/
noncomputable def pdaIndexContext : MakerIndexContext :=
  { makerIndexContext with wallet := .withPdas crypto }

theorem pdaIndexContext_binds : Binds pdaIndexContext.toContext where
  hashBytes := context_binds.hashBytes
  x25519FromBytes _ := rfl

/-- The maker's address with another key of the same identity. -/
def pdaAddress : ShieldedAddress := { makerAddress with signingPubkey := .other maker.1 }

theorem scanTaker_pda :
    scanTaker pdaIndexContext.toIndexContext (markedTransaction taker) takerKeypair registry =
      .ok (some (takerCandidate taker)) := by
  decide

theorem intoOrder_pda :
    (takerCandidate taker).intoOrder pdaIndexContext.toIndexContext pdaAddress viewingKey =
      .ok ((takerCandidate taker).order pdaAddress) := by
  decide

theorem scanMaker_pda :
    scanMaker pdaIndexContext (markedTransaction taker) makerKeypair registry =
      .ok (some makerOrder) := by
  decide

theorem makerOrder_pda :
    makerOrder.orderUtxo.HashesTo pdaIndexContext.toContext viewingKey INDEXED_TREE_ID
      (Fr.toBytes 102) :=
  ⟨⟨⟨Bytes.replicate 32 20, 2⟩, 7, Fr.toBytes 33,
    some ⟨.ed25519 authority, Fr.toBytes 1000, viewingKey⟩, some [], some (Fr.toBytes 1007), none,
    none⟩, by decide, by decide⟩

end Sample

open Sdk.Sample in
/-- A marker with somebody else's key does not stop the taker, who returns that key with the
order; and a claimed address with another key of the maker's identity is accepted too, so that the
order is not the maker's in every term. -/
theorem not_scans_return_real_orders :
    (¬∀ (I : IndexContext), Binds I.toContext → I.env.crypto.Ideal →
      I.wallet.Documented I.env.crypto →
      ∀ (tx : ShieldedTransaction) (keypair : ShieldedKeypair) (registry : AssetRegistry)
        (candidate : TakerOrderCandidate) (destination : ShieldedAddress)
        (viewing : X25519Pubkey) (order : TakerOrder),
        scanTaker I tx keypair registry = .ok (some candidate) →
        candidate.intoOrder I destination viewing = .ok order →
        order.orderUtxo.terms.destination.signingPubkey = .ed25519 order.makerPubkey) ∧
    ¬∀ (M : MakerIndexContext), Binds M.toContext → M.env.crypto.Ideal →
      M.wallet.Documented M.env.crypto →
      ∀ (tx : ShieldedTransaction) (takerKeypair makerKeypair : ShieldedKeypair)
        (registry : AssetRegistry) (candidate : TakerOrderCandidate)
        (destination : ShieldedAddress) (viewing : X25519Pubkey) (takerOrder : TakerOrder)
        (makerOrder : MakerOrder),
        scanTaker M.toIndexContext tx takerKeypair registry = .ok (some candidate) →
        candidate.intoOrder M.toIndexContext destination viewing = .ok takerOrder →
        scanMaker M tx makerKeypair registry = .ok (some makerOrder) →
        makerOrder.orderUtxo.HashesTo M.toContext makerOrder.takerViewingPubkey INDEXED_TREE_ID
          candidate.orderUtxoHash →
        takerOrder.orderUtxo.terms = makerOrder.orderUtxo.terms := by
  constructor
  · intro h
    have hkey := h indexContext context_binds Swap.Sample.crypto_ideal context_documented
      (markedTransaction Swap.Sample.taker) takerKeypair registry _ makerAddress viewingKey _
      scanTaker_marked intoOrder_marked
    exact absurd hkey (by decide)
  · intro h
    have hterms := h pdaIndexContext pdaIndexContext_binds Swap.Sample.crypto_ideal
      (Wallet.withPdas_documented _) (markedTransaction Swap.Sample.taker) takerKeypair makerKeypair
      registry _ pdaAddress viewingKey _ makerOrder scanTaker_pda intoOrder_pda scanMaker_pda
      makerOrder_pda
    exact absurd hterms (by decide)

end Zolana.Swap.Sdk
