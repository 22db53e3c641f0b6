import Zolana.Basic.Paging
import Zolana.Swap.Recovery

set_option autoImplicit false

/-! # Discovery of orders

`sdk/src/index`: `scan.rs`, the loop of `poll.rs` and `taker.rs`. A taker lists the
transactions under his view tag and rebuilds the order that each announces. A transaction
is skipped when no message has the tag; every other obstacle ends the pass, so what the pass
returns depends on all the transactions in the listing (`taker_pass_finds_iff`).
-/

namespace Zolana.Swap

/-- `MarkerData::try_from_slice`: all the bytes have to be read. -/
def MarkerData.tryFromSlice (bytes : List UInt8) : Option MarkerData := do
  let orderUtxoHash ← Bytes.slice bytes 0 32
  let makerPubkey ← Bytes.slice bytes 32 32
  if bytes.length = 64 then some ⟨orderUtxoHash, makerPubkey⟩ else none

/-- Reading a marker inverts writing it. -/
theorem MarkerData.tryFromSlice_eq_some {bytes : List UInt8} {marker : MarkerData} :
    MarkerData.tryFromSlice bytes = some marker ↔ bytes = marker.toVec := by
  obtain ⟨hash, maker⟩ := marker
  constructor
  · intro h
    simp only [MarkerData.tryFromSlice, Bytes.slice, Option.bind_eq_bind,
      Option.bind_eq_some_iff, Option.dite_none_right_eq_some, Option.ite_none_right_eq_some,
      Option.some.injEq, MarkerData.mk.injEq] at h
    obtain ⟨_, ⟨-, rfl⟩, _, ⟨-, rfl⟩, hlen, rfl, rfl⟩ := h
    have htail : (bytes.drop 32).take 32 = bytes.drop 32 :=
      List.take_of_length_le (by rw [List.length_drop]; omega)
    show bytes = (bytes.drop 0).take 32 ++ (bytes.drop 32).take 32
    rw [htail, List.drop_zero, List.take_append_drop]
  · rintro rfl
    have hhash : Bytes.slice (MarkerData.mk hash maker).toVec 0 32 = some hash :=
      Bytes.slice_eq_some (show _ = [] ++ hash.1 ++ maker.1 from rfl) rfl
    have hmaker : Bytes.slice (MarkerData.mk hash maker).toVec 32 32 = some maker :=
      Bytes.slice_eq_some (List.append_nil (hash.1 ++ maker.1)).symm hash.2
    have hlen : (MarkerData.mk hash maker).toVec.length = 64 := (hash.append maker).2
    simp [MarkerData.tryFromSlice, hhash, hmaker, hlen]

namespace Sdk

/-! ## Transactions -/

/-- `OutputContext`. -/
structure OutputContext where
  hash : Bytes 32
  treeId : UInt16
  leafIndex : UInt64
  deriving DecidableEq

/-- `OutputSlot`. -/
structure OutputSlot where
  viewTag : Bytes 32
  outputContext : OutputContext
  payload : List UInt8
  deriving DecidableEq

/-- `ShieldedTransaction`. -/
structure ShieldedTransaction where
  txViewingPk : Option X25519Pubkey
  salt : Option (Bytes 16)
  outputSlots : List OutputSlot
  messages : List MessageData
  nullifiers : List (Bytes 32)
  deriving DecidableEq

/-- `OutputDataEncoding`; the encodings without a ciphertext are one case. -/
inductive OutputDataEncoding
  | encrypted (blob : List UInt8)
  | other
  deriving DecidableEq

/-- `EncryptedScheme`; the schemes the SDK does not look for are one case. -/
inductive EncryptedScheme
  | confidential
  | other
  deriving DecidableEq

/-- `DataRecord`; the records that are not UTXO data are one case. -/
inductive DataRecord
  | utxoData (bytes : List UInt8)
  | other
  deriving DecidableEq

/-- `ConfidentialOutputPlaintext`, with the records of its data. -/
structure ConfidentialOutputPlaintext where
  amount : UInt64
  assetId : UInt64
  blinding : Blinding
  records : List DataRecord
  deriving DecidableEq

/-- `ShieldedKeypair`. -/
structure ShieldedKeypair where
  signingPubkey : PublicKey
  nullifierKey : Fr
  viewingKey : Bytes 32
  deriving DecidableEq

/-- `AssetRegistry`. -/
structure AssetRegistry where
  /-- `AssetRegistry::resolve`. -/
  resolve : UInt64 → Option Mint

/-- `spr_client::Rpc`, with cursors of a type of its own. -/
structure Rpc (κ : Type) where
  /-- `get_shielded_transactions_by_tags`, without limit and slot. -/
  getShieldedTransactionsByTags :
    List (Bytes 32) → Option κ → Option (Paging.Page κ ShieldedTransaction)
  /-- `resolve_registered_address`, its `address`. -/
  resolveRegisteredAddress : Address → Option ShieldedAddress

/-- The surroundings of the indexers: those of the SDK and the decoders of
`spr_transaction`. -/
structure IndexContext extends Context where
  /-- `PublicKey::confidential_view_tag`. -/
  confidentialViewTag : PublicKey → Option (Bytes 32)
  /-- `ShieldedKeypair::viewing_pubkey`. -/
  viewingPubkey : ShieldedKeypair → X25519Pubkey
  /-- `OutputSlot::output_data`. -/
  outputData : OutputSlot → Option OutputDataEncoding
  /-- `EncryptedScheme::from_byte`. -/
  encryptedScheme : UInt8 → Option EncryptedScheme
  /-- `Confidential::decode` under `DecodeCx::for_slot(viewing_key, tx, slot_index)`. -/
  decode : Bytes 32 → ShieldedTransaction → UInt32 → List UInt8 → Option ConfidentialOutputPlaintext
  /-- `SOL_ASSET_ID` and `Mint::SOL`. -/
  solAssetId : UInt64
  solMint : Mint

variable (I : IndexContext)

/-! ## Scanning

`scan.rs`. -/

/-- `resolve_mint`. -/
def resolveMint (registry : AssetRegistry) (assetId : UInt64) : SdkResult Mint :=
  if assetId = I.solAssetId then .ok I.solMint else orErr (registry.resolve assetId)

/-- The body of a confidential ciphertext: the blob after its scheme byte. -/
def confidentialBody : OutputDataEncoding → Option (List UInt8)
  | .encrypted (byte :: body) =>
      if I.encryptedScheme byte = some .confidential then some body else none
  | _ => none

/-- The slots of `unified_slots`, the next index being `next`: only the slots that carry data
are counted. -/
def unifiedSlotsFrom (next : UInt32) : List OutputSlot → List (UInt32 × OutputSlot × List UInt8)
  | [] => []
  | slot :: slots =>
      match I.outputData slot with
      | none => unifiedSlotsFrom next slots
      | some data =>
          match confidentialBody I data with
          -- a slot of another encoding or scheme takes an index too
          | none => unifiedSlotsFrom (next + 1) slots
          | some body => (next, slot, body) :: unifiedSlotsFrom (next + 1) slots

/-- `unified_slots`. -/
def unifiedSlots (tx : ShieldedTransaction) : List (UInt32 × OutputSlot × List UInt8) :=
  unifiedSlotsFrom I 0 tx.outputSlots

/-- The bytes of a UTXO data record. -/
def DataRecord.utxoBytes : DataRecord → Option (List UInt8)
  | .utxoData bytes => some bytes
  | .other => none

/-- `parse_order_data`. -/
def parseOrderData (records : List DataRecord) : SdkResult PlainTextData := do
  let orderBytes ← orMessage (records.findSome? DataRecord.utxoBytes)
    "order plaintext carries no utxo data record"
  PlainTextData.deserialize I.toContext orderBytes

/-! ## The taker's side

`taker.rs`. -/

/-- `INDEXED_TREE_ID`. -/
def INDEXED_TREE_ID : UInt16 := 0

/-- `TakerOrder`. -/
structure TakerOrder where
  orderUtxo : OrderUtxo
  makerPubkey : Address
  deriving DecidableEq

/-- `TakerOrderCandidate`. -/
structure TakerOrderCandidate where
  sourceAmount : UInt64
  sourceMint : Mint
  destinationMint : Address
  orderUtxoBlinding : Blinding
  orderData : PlainTextData
  makerPubkey : Address
  orderUtxoHash : Bytes 32
  deriving DecidableEq

/-- `scan_taker`. -/
def scanTaker (tx : ShieldedTransaction) (keypair : ShieldedKeypair) (registry : AssetRegistry) :
    SdkResult (Option TakerOrderCandidate) := do
  let takerTag ← orErr (I.confidentialViewTag keypair.signingPubkey)
  match tx.messages.find? (·.viewTag = takerTag) with
  | none => return none
  | some markerMessage =>
      -- from here on the transaction is an order for the taker or an error
      let marker ← orWrapped (MarkerData.tryFromSlice markerMessage.data) "marker payload: "
      let (slotIndex, _, body) ←
        orMessage ((unifiedSlots I tx).find? (·.2.1.outputContext.hash = marker.orderUtxoHash))
          "marker without a unified order ciphertext in the same transaction"
      let orderUtxoPlaintext ← orErr (I.decode keypair.viewingKey tx slotIndex body)
      let orderData ← parseOrderData I orderUtxoPlaintext.records
      let sourceMint ← resolveMint I registry orderUtxoPlaintext.assetId
      let destinationMint ← resolveMint I registry orderData.destinationAssetId
      return some ⟨orderUtxoPlaintext.amount, sourceMint, destinationMint.asset,
        orderUtxoPlaintext.blinding, orderData, marker.makerPubkey, marker.orderUtxoHash⟩

/-- The order of a candidate, for a destination. -/
def TakerOrderCandidate.order (candidate : TakerOrderCandidate) (destination : ShieldedAddress) :
    TakerOrder :=
  ⟨⟨⟨candidate.destinationMint, candidate.orderData.destinationAmount, destination,
      candidate.orderData.taker, candidate.orderData.expiry, candidate.orderData.takeMode⟩,
    candidate.orderUtxoBlinding, candidate.sourceMint, candidate.sourceAmount,
    candidate.orderData.destinationAssetId⟩, candidate.makerPubkey⟩

/-- `TakerOrderCandidate::into_order`. -/
def TakerOrderCandidate.intoOrder (candidate : TakerOrderCandidate) (destination : ShieldedAddress)
    (takerViewingPubkey : X25519Pubkey) : SdkResult TakerOrder := do
  let order := candidate.order destination
  let output ← order.orderUtxo.outputUtxo I.toContext takerViewingPubkey
  -- under the one indexed tree, whichever tree holds the leaf
  let orderUtxoHash ← orErr (I.wallet.outputHash output INDEXED_TREE_ID)
  if orderUtxoHash ≠ candidate.orderUtxoHash then
    throw (.message "reconstructed order utxo hash does not match the committed leaf")
  return order

/-- The scan closure of `index_taker`. -/
def indexTakerScan {κ : Type} (keypair : ShieldedKeypair) (registry : AssetRegistry) (rpc : Rpc κ)
    (tx : ShieldedTransaction) : SdkResult (Option TakerOrder) := do
  match ← scanTaker I tx keypair registry with
  | none => return none
  | some candidate =>
      let makerResolvedAddress ← orErr (rpc.resolveRegisteredAddress candidate.makerPubkey)
      let order ← candidate.intoOrder I makerResolvedAddress (I.viewingPubkey keypair)
      return some order

/-- `collect_tagged`, with fuel for the pages. -/
def collectTagged {κ β : Type} (keypair : ShieldedKeypair) (indexer : Rpc κ)
    (scan : ShieldedTransaction → SdkResult (Option β)) (fuel : ℕ) : Option (SdkResult (List β)) :=
  match orErr (I.confidentialViewTag keypair.signingPubkey) with
  | .error e => some (.error e)
  | .ok ownerTag =>
      Paging.collect (fun cursor => orErr (indexer.getShieldedTransactionsByTags [ownerTag] cursor))
        scan fuel none []

/-! ## What a pass returns -/

section Pass

variable {I} {κ : Type} {keypair : ShieldedKeypair} {registry : AssetRegistry}

/-- The first message of the transaction under the tag. -/
def ShieldedTransaction.taggedMessage (tx : ShieldedTransaction) (tag : Bytes 32) :
    Option MessageData :=
  tx.messages.find? (·.viewTag = tag)

/-- The message announces an order of the transaction: it is a marker of a unified slot that
the keypair decrypts to order data, and the order rebuilt for the registered address of the
maker has the hash in the marker. -/
structure Announcement (I : IndexContext) (keypair : ShieldedKeypair) (registry : AssetRegistry)
    (rpc : Rpc κ) (tx : ShieldedTransaction) (message : MessageData) where
  marker : MarkerData
  slotIndex : UInt32
  slot : OutputSlot
  body : List UInt8
  plaintext : ConfidentialOutputPlaintext
  orderBytes : List UInt8
  orderData : PlainTextData
  sourceMint : Mint
  destinationMint : Mint
  candidate : TakerOrderCandidate
  destination : ShieldedAddress
  output : SppProofOutputUtxo
  message_data : message.data = marker.toVec
  find_slot : (unifiedSlots I tx).find? (·.2.1.outputContext.hash = marker.orderUtxoHash) =
    some (slotIndex, slot, body)
  decode : I.decode keypair.viewingKey tx slotIndex body = some plaintext
  record : plaintext.records.findSome? DataRecord.utxoBytes = some orderBytes
  deserialize : I.plainTextData.deserializeExact orderBytes = some orderData
  source_mint : resolveMint I registry plaintext.assetId = .ok sourceMint
  destination_mint : resolveMint I registry orderData.destinationAssetId = .ok destinationMint
  candidate_eq : candidate = ⟨plaintext.amount, sourceMint, destinationMint.asset,
    plaintext.blinding, orderData, marker.makerPubkey, marker.orderUtxoHash⟩
  registered : rpc.resolveRegisteredAddress candidate.makerPubkey = some destination
  output_utxo : (candidate.order destination).orderUtxo.outputUtxo I.toContext
    (I.viewingPubkey keypair) = .ok output
  output_hash : I.wallet.outputHash output INDEXED_TREE_ID = some candidate.orderUtxoHash

/-- The transaction does not stop a pass under the tag: its first message with the tag, if
there is one, announces an order. -/
def Harmless (I : IndexContext) (keypair : ShieldedKeypair) (registry : AssetRegistry)
    (rpc : Rpc κ) (tag : Bytes 32) (tx : ShieldedTransaction) : Prop :=
  ∀ message, tx.taggedMessage tag = some message →
    Nonempty (Announcement I keypair registry rpc tx message)

theorem TakerOrderCandidate.intoOrder_eq_ok {candidate : TakerOrderCandidate}
    {destination : ShieldedAddress} {takerViewingPubkey : X25519Pubkey} {order : TakerOrder} :
    candidate.intoOrder I destination takerViewingPubkey = .ok order ↔
      order = candidate.order destination ∧
        ∃ output, order.orderUtxo.outputUtxo I.toContext takerViewingPubkey = .ok output ∧
          I.wallet.outputHash output INDEXED_TREE_ID = some candidate.orderUtxoHash := by
  simp only [TakerOrderCandidate.intoOrder, SdkResult.bind_eq_ok, orErr_eq_ok]
  constructor
  · rintro ⟨output, houtput, hash, hhash, h⟩
    split at h
    · obtain ⟨_, hthrow, -⟩ := SdkResult.bind_eq_ok.mp h
      cases hthrow
    · rename_i heq
      obtain rfl := not_not.mp heq
      obtain rfl := Except.ok.inj h
      exact ⟨rfl, output, houtput, hhash⟩
  · rintro ⟨rfl, output, houtput, hhash⟩
    exact ⟨output, houtput, _, hhash, by rw [if_neg (not_not_intro rfl)]; rfl⟩

/-- What the taker's scan reads in a transaction without a message under the tag. -/
theorem scanTaker_of_untagged {tx : ShieldedTransaction} {tag : Bytes 32}
    (htag : I.confidentialViewTag keypair.signingPubkey = some tag)
    (hmessage : tx.taggedMessage tag = none) : scanTaker I tx keypair registry = .ok none := by
  simp only [ShieldedTransaction.taggedMessage] at hmessage
  simp [scanTaker, htag, hmessage, orErr, bind, Except.bind, pure, Except.pure]

/-- What it reads in a transaction with such a message: a candidate or an error. -/
theorem scanTaker_of_tagged {tx : ShieldedTransaction} {tag : Bytes 32} {message : MessageData}
    (htag : I.confidentialViewTag keypair.signingPubkey = some tag)
    (hmessage : tx.taggedMessage tag = some message) {found : Option TakerOrderCandidate} :
    scanTaker I tx keypair registry = .ok found ↔
      ∃ marker slotIndex slot body plaintext orderBytes orderData sourceMint destinationMint,
        message.data = MarkerData.toVec marker ∧
        (unifiedSlots I tx).find? (·.2.1.outputContext.hash = marker.orderUtxoHash) =
          some (slotIndex, slot, body) ∧
        I.decode keypair.viewingKey tx slotIndex body = some plaintext ∧
        plaintext.records.findSome? DataRecord.utxoBytes = some orderBytes ∧
        I.plainTextData.deserializeExact orderBytes = some orderData ∧
        resolveMint I registry plaintext.assetId = .ok sourceMint ∧
        resolveMint I registry orderData.destinationAssetId = .ok destinationMint ∧
        found = some ⟨plaintext.amount, sourceMint, destinationMint.asset, plaintext.blinding,
          orderData, marker.makerPubkey, marker.orderUtxoHash⟩ := by
  simp only [ShieldedTransaction.taggedMessage] at hmessage
  simp only [scanTaker, SdkResult.bind_eq_ok, orErr_eq_ok, orMessage_eq_ok, orWrapped_eq_ok, htag,
    hmessage, Option.some.injEq, exists_eq_left', parseOrderData, PlainTextData.deserialize,
    MarkerData.tryFromSlice_eq_some, pure, Except.pure, Except.ok.injEq]
  constructor
  · rintro ⟨marker, hmarker, ⟨slotIndex, slot, body⟩, hslot, plaintext, hplain, orderData,
      ⟨orderBytes, hrecord, hdata⟩, sourceMint, hsource, destinationMint, hdest, rfl⟩
    exact ⟨marker, slotIndex, slot, body, plaintext, orderBytes, orderData, sourceMint,
      destinationMint, hmarker, hslot, hplain, hrecord, hdata, hsource, hdest, rfl⟩
  · rintro ⟨marker, slotIndex, slot, body, plaintext, orderBytes, orderData, sourceMint,
      destinationMint, hmarker, hslot, hplain, hrecord, hdata, hsource, hdest, rfl⟩
    exact ⟨marker, hmarker, (slotIndex, slot, body), hslot, plaintext, hplain, orderData,
      ⟨orderBytes, hrecord, hdata⟩, sourceMint, hsource, destinationMint, hdest, rfl⟩

/-- What the scan finds in a transaction without a message under the tag. -/
theorem indexTakerScan_of_untagged {rpc : Rpc κ} {tx : ShieldedTransaction} {tag : Bytes 32}
    (htag : I.confidentialViewTag keypair.signingPubkey = some tag)
    (hmessage : tx.taggedMessage tag = none) :
    indexTakerScan I keypair registry rpc tx = .ok none := by
  simp only [indexTakerScan, SdkResult.bind_eq_ok]
  exact ⟨none, scanTaker_of_untagged htag hmessage, rfl⟩

/-- The scan succeeds on a transaction with a message under the tag exactly if the first such
message announces an order, and then it finds that order. -/
theorem indexTakerScan_of_tagged {rpc : Rpc κ} {tx : ShieldedTransaction} {tag : Bytes 32}
    {message : MessageData} (htag : I.confidentialViewTag keypair.signingPubkey = some tag)
    (hmessage : tx.taggedMessage tag = some message) {found : Option TakerOrder} :
    indexTakerScan I keypair registry rpc tx = .ok found ↔
      ∃ a : Announcement I keypair registry rpc tx message,
        found = some (a.candidate.order a.destination) := by
  simp only [indexTakerScan, SdkResult.bind_eq_ok, scanTaker_of_tagged htag hmessage]
  constructor
  · rintro ⟨_, ⟨marker, slotIndex, slot, body, plaintext, orderBytes, orderData, sourceMint,
      destinationMint, hmarker, hslot, hplain, hrecord, hdata, hsource, hdest, rfl⟩, h⟩
    simp only [SdkResult.bind_eq_ok, orErr_eq_ok, pure, Except.pure, Except.ok.injEq,
      TakerOrderCandidate.intoOrder_eq_ok] at h
    obtain ⟨destination, haddress, _, ⟨rfl, output, houtput, hhash⟩, rfl⟩ := h
    exact ⟨⟨marker, slotIndex, slot, body, plaintext, orderBytes, orderData, sourceMint,
      destinationMint, _, destination, output, hmarker, hslot, hplain, hrecord, hdata, hsource,
      hdest, rfl, haddress, houtput, hhash⟩, rfl⟩
  · rintro ⟨⟨marker, slotIndex, slot, body, plaintext, orderBytes, orderData, sourceMint,
      destinationMint, _, destination, output, hmarker, hslot, hplain, hrecord, hdata, hsource,
      hdest, rfl, haddress, houtput, hhash⟩, rfl⟩
    refine ⟨_, ⟨marker, slotIndex, slot, body, plaintext, orderBytes, orderData, sourceMint,
      destinationMint, hmarker, hslot, hplain, hrecord, hdata, hsource, hdest, rfl⟩, ?_⟩
    simp only [SdkResult.bind_eq_ok, orErr_eq_ok, pure, Except.pure, Except.ok.injEq,
      TakerOrderCandidate.intoOrder_eq_ok]
    exact ⟨destination, haddress, _, ⟨rfl, output, houtput, hhash⟩, rfl⟩

/-- A harmless transaction is one on which the scan does not fail. -/
theorem exists_indexTakerScan_eq_ok {rpc : Rpc κ} {tx : ShieldedTransaction} {tag : Bytes 32}
    (htag : I.confidentialViewTag keypair.signingPubkey = some tag) :
    (∃ found, indexTakerScan I keypair registry rpc tx = .ok found) ↔
      Harmless I keypair registry rpc tag tx := by
  cases hmessage : tx.taggedMessage tag with
  | none => simp [Harmless, hmessage, indexTakerScan_of_untagged htag hmessage]
  | some message =>
      simp only [Harmless, hmessage, indexTakerScan_of_tagged htag hmessage, Option.some.injEq,
        forall_eq']
      constructor
      · rintro ⟨_, a, -⟩
        exact ⟨a⟩
      · rintro ⟨a⟩
        exact ⟨_, a, rfl⟩

/-- **When a pass finds an order.** A pass over a listing that contains an order returns that
order exactly if every listed transaction is harmless: one transaction that is not ends the
pass without a result. -/
theorem taker_pass_finds_iff {rpc indexer : Rpc κ} {tag : Bytes 32}
    (htag : I.confidentialViewTag keypair.signingPubkey = some tag)
    {pages : List (List ShieldedTransaction)}
    (hlist : Paging.Listing
      (fun cursor => orErr (indexer.getShieldedTransactionsByTags [tag] cursor)) none pages)
    {fuel : ℕ} (hfuel : pages.length ≤ fuel) {t : ShieldedTransaction} (ht : t ∈ pages.flatten)
    {order : TakerOrder} (horder : indexTakerScan I keypair registry rpc t = .ok (some order)) :
    (∃ orders, collectTagged I keypair indexer (indexTakerScan I keypair registry rpc) fuel =
        some (.ok orders) ∧ order ∈ orders) ↔
      ∀ tx ∈ pages.flatten, Harmless I keypair registry rpc tag tx := by
  have hcollect : collectTagged I keypair indexer (indexTakerScan I keypair registry rpc) fuel =
      Paging.collect (fun cursor => orErr (indexer.getShieldedTransactionsByTags [tag] cursor))
        (indexTakerScan I keypair registry rpc) fuel none [] := by
    rw [collectTagged, htag]
    rfl
  rw [hcollect]
  -- the pass succeeds as a whole or not at all, and then nothing that was scanned is missing
  simp only [← exists_indexTakerScan_eq_ok htag]
  rw [← Paging.exists_collect_eq_ok hlist hfuel]
  constructor
  · rintro ⟨orders, horders, -⟩
    exact ⟨orders, horders⟩
  · rintro ⟨orders, horders⟩
    exact ⟨orders, horders, (Paging.mem_of_collect_eq_ok hlist hfuel horders).mpr ⟨t, ht, horder⟩⟩

end Pass

/-! ## A poisoned listing

The make of the sample as its taker sees it, in front of another transaction. -/

namespace Sample

open Swap.Sample

def takerKeypair : ShieldedKeypair := ⟨.ed25519 taker, 6, Bytes.replicate 32 0⟩

noncomputable def indexContext : IndexContext where
  toContext := context
  confidentialViewTag _ := some (Bytes.replicate 32 2)
  viewingPubkey _ := viewingKey
  outputData slot := if slot.payload = [] then none else some (.encrypted slot.payload)
  encryptedScheme byte := some (if byte = 1 then .confidential else .other)
  decode _ _ _ body :=
    if body = [] then some ⟨7, 2, Fr.toBytes 33, [.utxoData []]⟩ else none
  solAssetId := 1
  solMint := ⟨Bytes.replicate 32 0, 1⟩

def registry : AssetRegistry where
  resolve assetId :=
    if assetId = 2 then some ⟨Bytes.replicate 32 20, 2⟩
    else if assetId = 3 then some ⟨Bytes.replicate 32 21, 3⟩
    else none

/-- The transaction that makes the order: its change, and the order with its ciphertext. -/
def orderTransaction : ShieldedTransaction where
  txViewingPk := some viewingKey
  salt := some (Bytes.replicate 16 0)
  outputSlots :=
    [⟨Bytes.replicate 32 1, ⟨Fr.toBytes 101, 0, 0⟩, [1, 0]⟩,
      ⟨Bytes.replicate 32 2, ⟨Fr.toBytes 102, 0, 1⟩, [1]⟩]
  messages := [⟨Bytes.replicate 32 2, makeMarker⟩]
  nullifiers := [Fr.toBytes 1014]

/-- A transaction with one message of no bytes under some tag. -/
def emptyMessage (tag : Bytes 32) : ShieldedTransaction := ⟨none, none, [], [⟨tag, []⟩], []⟩

/-- The order's page, then a page with another transaction. -/
def indexer (tx : ShieldedTransaction) : Rpc Unit where
  getShieldedTransactionsByTags _
    | none => some ⟨[orderTransaction], some ()⟩
    | some () => some ⟨[tx], none⟩
  resolveRegisteredAddress _ := none

/-- The registry of users; the maker alone is registered. -/
def rpc : Rpc Unit where
  getShieldedTransactionsByTags _ _ := none
  resolveRegisteredAddress pubkey := if pubkey = maker then some makerAddress else none

def takerOrder : TakerOrder := ⟨orderUtxo TAKE_MODE_DERIVED 33, maker⟩

theorem listing (tx : ShieldedTransaction) (tag : Bytes 32) :
    Paging.Listing
      (fun cursor => orErr ((indexer tx).getShieldedTransactionsByTags [tag] cursor)) none
      [[orderTransaction], [tx]] :=
  .more rfl (.last rfl)

theorem scan_orderTransaction :
    indexTakerScan indexContext takerKeypair registry rpc orderTransaction =
      .ok (some takerOrder) := by
  decide

end Sample

theorem taker_pass_finds_iff_sample :
    ∃ orders, collectTagged Sample.indexContext Sample.takerKeypair
        (Sample.indexer (Sample.emptyMessage (Bytes.replicate 32 3)))
        (indexTakerScan Sample.indexContext Sample.takerKeypair Sample.registry Sample.rpc) 2 =
          some (.ok orders) ∧ Sample.takerOrder ∈ orders := by
  refine (taker_pass_finds_iff rfl (Sample.listing _ _) (by decide) (by simp)
    Sample.scan_orderTransaction).mpr ?_
  intro tx htx
  rw [← exists_indexTakerScan_eq_ok rfl]
  rw [List.flatten_cons, List.flatten_singleton, List.mem_append, List.mem_singleton,
    List.mem_singleton] at htx
  rcases htx with rfl | rfl
  · exact ⟨_, Sample.scan_orderTransaction⟩
  · exact ⟨none, by decide⟩

/-- Anyone can write under the public tag of a taker: a message of no bytes in some other
transaction hides every order of the listing. -/
theorem not_taker_pass_finds :
    ¬∀ (I : IndexContext) (keypair : ShieldedKeypair) (registry : AssetRegistry)
      (rpc indexer : Rpc Unit) (tag : Bytes 32) (pages : List (List ShieldedTransaction)) (fuel : ℕ)
      (t : ShieldedTransaction) (order : TakerOrder),
      I.confidentialViewTag keypair.signingPubkey = some tag →
      Paging.Listing (fun cursor => orErr (indexer.getShieldedTransactionsByTags [tag] cursor))
        none pages →
      pages.length ≤ fuel → t ∈ pages.flatten →
      indexTakerScan I keypair registry rpc t = .ok (some order) →
      ∃ orders, collectTagged I keypair indexer (indexTakerScan I keypair registry rpc) fuel =
        some (.ok orders) ∧ order ∈ orders := by
  intro h
  obtain ⟨orders, horders, -⟩ := h Sample.indexContext Sample.takerKeypair Sample.registry
    Sample.rpc (Sample.indexer (Sample.emptyMessage (Bytes.replicate 32 2))) (Bytes.replicate 32 2)
    _ 2 Sample.orderTransaction Sample.takerOrder rfl (Sample.listing _ _) (by decide) (by simp)
    Sample.scan_orderTransaction
  have herror : collectTagged Sample.indexContext Sample.takerKeypair
      (Sample.indexer (Sample.emptyMessage (Bytes.replicate 32 2)))
      (indexTakerScan Sample.indexContext Sample.takerKeypair Sample.registry Sample.rpc) 2 =
        some (.error (.wrapped "marker payload: ")) := by
    decide
  rw [herror] at horders
  cases horders

end Sdk

end Zolana.Swap
