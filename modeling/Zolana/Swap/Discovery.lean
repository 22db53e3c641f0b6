import Zolana.Swap.MakerIndex

set_option autoImplicit false

/-! # Discovery of what a make publishes

A make writes the order into five encodings: the plaintext of the terms, a data record, the
ciphertext of a slot, the marker and the UTXO hash. Taker and maker each read the first four back
by a path of their own, and both do so for every layout of the outputs. The hash they then
compute is the one under the indexed tree, so they find the order if it was appended there.
-/

namespace Zolana.Swap.Sdk

/-! ## Making -/

/-- `OrderMarker`, of `make/instruction.rs`. -/
structure OrderMarker where
  orderUtxoHash : Bytes 32
  makerPubkey : Address
  takerAddress : ShieldedAddress
  deriving DecidableEq

/-- `OrderMarker::message`. -/
def OrderMarker.message (I : IndexContext) (marker : OrderMarker) : SdkResult MessageData := do
  let viewTag ← orErr (I.confidentialViewTag marker.takerAddress.signingPubkey)
  return ⟨viewTag, (MarkerData.mk marker.orderUtxoHash marker.makerPubkey).toVec⟩

/-- The plaintext of an output, with its data as the one record. -/
def confidentialPlaintext (output : SppProofOutputUtxo) : ConfidentialOutputPlaintext :=
  ⟨output.amount, output.asset.assetId, output.blinding,
    (output.utxoData.map DataRecord.utxoData).toList⟩

/-- The surroundings of the indexers with the encoder that they invert. -/
structure DiscoveryContext extends MakerIndexContext where
  /-- `Confidential::encode` under the transaction viewing key, for a recipient's viewing key and
  a slot index. -/
  encode : Bytes 32 → X25519Pubkey → Bytes 16 → UInt32 → ConfidentialOutputPlaintext →
    Option (List UInt8)

/-- A confidential ciphertext names its recipient, and recipient and sender decode it at the slot
index that it was made for. -/
structure DiscoveryContext.EncodesBack (D : DiscoveryContext) : Prop where
  embeddedViewingPk : ∀ {txViewingKey recipient salt slotIndex plaintext body},
    D.encode txViewingKey recipient salt slotIndex plaintext = some body →
    D.embeddedViewingPk body = some recipient
  decryptWithTxKey : ∀ {txViewingKey recipient salt slotIndex plaintext body},
    D.encode txViewingKey recipient salt slotIndex plaintext = some body →
    D.decryptWithTxKey txViewingKey body salt slotIndex = some plaintext
  decode : ∀ {txViewingKey salt slotIndex plaintext body} {keypair : ShieldedKeypair}
    {tx : ShieldedTransaction},
    D.encode txViewingKey (D.viewingPubkey keypair) salt slotIndex plaintext = some body →
    tx.txViewingPk = some (D.viewingKeyPubkey txViewingKey) → tx.salt = some salt →
    D.decode keypair.viewingKey tx slotIndex body = some plaintext

/-- The index of the slot after these: only slots that carry data are counted. -/
def slotIndex (I : IndexContext) (slots : List OutputSlot) : UInt32 :=
  UInt32.ofNat (slots.countP fun slot => (I.outputData slot).isSome)

/-- What a make of the maker for the taker publishes: an order output with its ciphertext among
other outputs, in one tree, and the marker. The outputs before it are not orders of the
maker. -/
structure Publication (D : DiscoveryContext) where
  order : OrderUtxo
  makerKeypair : ShieldedKeypair
  takerKeypair : ShieldedKeypair
  takerAddress : ShieldedAddress
  makerPubkey : Address
  treeId : UInt16
  txViewingKey : Bytes 32
  salt : Bytes 16
  firstNullifier : Bytes 32
  laterNullifiers : List (Bytes 32)
  before : List OutputSlot
  slot : OutputSlot
  after : List OutputSlot
  output : SppProofOutputUtxo
  scheme : UInt8
  body : List UInt8
  message : MessageData
  maker_address : D.shieldedAddress makerKeypair = some order.terms.destination
  taker_signing : takerKeypair.signingPubkey = takerAddress.signingPubkey
  taker_viewing : D.viewingPubkey takerKeypair = takerAddress.viewingPubkey
  viewing_key : D.getTransactionViewingKey makerKeypair firstNullifier = some txViewingKey
  output_utxo : order.outputUtxo D.toContext takerAddress.viewingPubkey = .ok output
  output_hash : D.wallet.outputHash output treeId = some slot.outputContext.hash
  output_tree : slot.outputContext.treeId = treeId
  confidential : D.encryptedScheme scheme = some .confidential
  output_data : D.outputData slot = some (.encrypted (scheme :: body))
  encoded : D.encode txViewingKey takerAddress.viewingPubkey salt (slotIndex D.toIndexContext before)
    (confidentialPlaintext output) = some body
  marker : OrderMarker.message D.toIndexContext
    ⟨slot.outputContext.hash, makerPubkey, takerAddress⟩ = .ok message
  alone : ∀ earlier ∈ before, ∀ (order' : OrderUtxo) (viewing : X25519Pubkey),
    order'.terms.destination = order.terms.destination →
    ¬order'.HashesTo D.toContext viewing INDEXED_TREE_ID earlier.outputContext.hash

/-- The transaction as the indexer returns it. -/
def Publication.transaction {D : DiscoveryContext} (P : Publication D) : ShieldedTransaction where
  txViewingPk := some (D.viewingKeyPubkey P.txViewingKey)
  salt := some P.salt
  outputSlots := P.before ++ P.slot :: P.after
  messages := [P.message]
  nullifiers := P.firstNullifier :: P.laterNullifiers

/-! ## Slots -/

section Slots

variable {I : IndexContext}

/-- The slots after some others are indexed on from these. -/
theorem unifiedSlotsFrom_append (before rest : List OutputSlot) (next : UInt32) :
    unifiedSlotsFrom I next (before ++ rest) =
      unifiedSlotsFrom I next before ++ unifiedSlotsFrom I (next + slotIndex I before) rest := by
  induction before generalizing next with
  | nil => simp [unifiedSlotsFrom, slotIndex]
  | cons slot slots ih =>
      cases hdata : I.outputData slot with
      | none =>
          have hindex : slotIndex I (slot :: slots) = slotIndex I slots := by
            simp [slotIndex, hdata]
          simp only [List.cons_append, unifiedSlotsFrom, hdata, hindex, ih]
      | some data =>
          have hindex : slotIndex I (slot :: slots) = 1 + slotIndex I slots := by
            simp [slotIndex, hdata, UInt32.ofNat_add, UInt32.add_comm]
          cases hbody : confidentialBody I data with
          | none =>
              simp only [List.cons_append, unifiedSlotsFrom, hdata, hbody, hindex, ih,
                UInt32.add_assoc]
          | some body =>
              simp only [List.cons_append, unifiedSlotsFrom, hdata, hbody, hindex, ih,
                UInt32.add_assoc]

/-- The unified slots are slots. -/
theorem mem_of_mem_unifiedSlotsFrom {slots : List OutputSlot} {next : UInt32}
    {entry : UInt32 × OutputSlot × List UInt8} (h : entry ∈ unifiedSlotsFrom I next slots) :
    entry.2.1 ∈ slots := by
  induction slots generalizing next with
  | nil => cases h
  | cons slot slots ih =>
      simp only [unifiedSlotsFrom] at h
      split at h
      · exact List.mem_cons_of_mem _ (ih h)
      · split at h
        · exact List.mem_cons_of_mem _ (ih h)
        · rcases List.mem_cons.mp h with rfl | h
          · exact List.mem_cons_self
          · exact List.mem_cons_of_mem _ (ih h)

end Slots

namespace Publication

variable {D : DiscoveryContext} (P : Publication D)

/-- The order's slot among the unified slots of the transaction. -/
theorem unifiedSlots_transaction :
    unifiedSlots D.toIndexContext P.transaction =
      unifiedSlotsFrom D.toIndexContext 0 P.before ++
        (slotIndex D.toIndexContext P.before, P.slot, P.body) ::
          unifiedSlotsFrom D.toIndexContext (slotIndex D.toIndexContext P.before + 1) P.after := by
  have hbody : confidentialBody D.toIndexContext (.encrypted (P.scheme :: P.body)) =
      some P.body := by
    simp [confidentialBody, P.confidential]
  rw [unifiedSlots, transaction, unifiedSlotsFrom_append]
  simp [unifiedSlotsFrom, P.output_data, hbody]

/-- The committed hash is that of the order, in the tree of the publication. -/
theorem hashesTo : P.order.HashesTo D.toContext P.takerAddress.viewingPubkey P.treeId
    P.slot.outputContext.hash :=
  ⟨P.output, P.output_utxo, P.output_hash⟩

/-- What the ciphertext of the order's slot contains. -/
theorem plaintext_eq : ∃ bytes,
    D.plainTextData.serialize (P.order.terms.toPlaintext P.order.destinationAssetId) = some bytes ∧
      confidentialPlaintext P.output = ⟨P.order.sourceAmount, P.order.sourceMint.assetId,
        P.order.blinding, [.utxoData bytes]⟩ := by
  have houtput := P.output_utxo
  simp only [OrderUtxo.outputUtxo, SdkResult.bind_eq_ok, orErr_eq_ok, PlainTextData.serialize, pure,
    Except.pure, Except.ok.injEq] at houtput
  obtain ⟨word, -, nullifierPubkey, -, bytes, hbytes, heq⟩ := houtput
  refine ⟨bytes, hbytes, ?_⟩
  rw [← heq]
  rfl

/-- The marker's message. -/
theorem message_eq : ∃ tag, D.confidentialViewTag P.takerKeypair.signingPubkey = some tag ∧
    P.message = ⟨tag, (MarkerData.mk P.slot.outputContext.hash P.makerPubkey).toVec⟩ := by
  have hmarker := P.marker
  simp only [OrderMarker.message, SdkResult.bind_eq_ok, orErr_eq_ok, pure, Except.pure,
    Except.ok.injEq] at hmarker
  obtain ⟨tag, htag, heq⟩ := hmarker
  exact ⟨tag, by rw [P.taker_signing]; exact htag, heq.symm⟩

/-- The asset ids of the order are those of its mints in the registry. -/
structure Registered (registry : AssetRegistry) : Prop where
  source : resolveMint D.toIndexContext registry P.order.sourceMint.assetId = .ok P.order.sourceMint
  destination : ∃ mint,
    resolveMint D.toIndexContext registry P.order.destinationAssetId = .ok mint ∧
      mint.asset = P.order.terms.destinationMint

/-- The candidate that the taker makes of the publication. -/
def candidate : TakerOrderCandidate :=
  ⟨P.order.sourceAmount, P.order.sourceMint, P.order.terms.destinationMint, P.order.blinding,
    P.order.terms.toPlaintext P.order.destinationAssetId, P.makerPubkey, P.slot.outputContext.hash⟩

variable {P} {registry : AssetRegistry}

/-- In the indexed tree no slot before the order's has its hash. -/
theorem find_slot (htree : P.treeId = INDEXED_TREE_ID) :
    (unifiedSlots D.toIndexContext P.transaction).find?
        (·.2.1.outputContext.hash = P.slot.outputContext.hash) =
      some (slotIndex D.toIndexContext P.before, P.slot, P.body) := by
  have hbefore : (unifiedSlotsFrom D.toIndexContext 0 P.before).find?
      (·.2.1.outputContext.hash = P.slot.outputContext.hash) = none := by
    rw [List.find?_eq_none]
    intro entry hentry
    rw [decide_eq_true_eq]
    intro hsame
    have hhash := P.hashesTo
    rw [htree, ← hsame] at hhash
    exact P.alone _ (mem_of_mem_unifiedSlotsFrom hentry) _ _ rfl hhash
  rw [P.unifiedSlots_transaction, List.find?_append, hbefore, Option.none_or,
    List.find?_cons_of_pos (by simp)]

/-- The taker's scan reads the order's slot. -/
theorem scanTaker_eq (henc : D.EncodesBack) (hplain : D.plainTextData.RoundTrips)
    (hregistry : P.Registered registry) (htree : P.treeId = INDEXED_TREE_ID) :
    scanTaker D.toIndexContext P.transaction P.takerKeypair registry = .ok (some P.candidate) := by
  obtain ⟨tag, htag, hmessage⟩ := P.message_eq
  obtain ⟨bytes, hbytes, hplaintext⟩ := P.plaintext_eq
  obtain ⟨mint, hmint, hasset⟩ := hregistry.destination
  have hencoded := P.encoded
  rw [← P.taker_viewing] at hencoded
  have hdecode : D.decode P.takerKeypair.viewingKey P.transaction
      (slotIndex D.toIndexContext P.before) P.body = some (confidentialPlaintext P.output) :=
    henc.decode hencoded rfl rfl
  rw [hplaintext] at hdecode
  have htagged : P.transaction.taggedMessage tag = some P.message := by
    simp [ShieldedTransaction.taggedMessage, transaction, hmessage]
  refine scanTaker_eq_ok_some.mpr ⟨tag, P.message, ⟨P.slot.outputContext.hash, P.makerPubkey⟩, _,
    P.slot, P.body, _, bytes, P.order.terms.toPlaintext P.order.destinationAssetId,
    P.order.sourceMint, mint, htag, htagged, ?_, find_slot htree, hdecode, rfl, hplain hbytes,
    hregistry.source, hmint, ?_⟩
  · rw [hmessage]
  · rw [hasset]
    rfl

/-- The taker's pass finds the order, for the maker's registered address. -/
theorem indexTakerScan_eq (henc : D.EncodesBack) (hplain : D.plainTextData.RoundTrips)
    (hregistry : P.Registered registry) {κ : Type} {rpc : Rpc κ}
    (hrpc : rpc.resolveRegisteredAddress P.makerPubkey = some P.order.terms.destination)
    (htree : P.treeId = INDEXED_TREE_ID) :
    indexTakerScan D.toIndexContext P.takerKeypair registry rpc P.transaction =
      .ok (some ⟨P.order, P.makerPubkey⟩) := by
  have hhash := P.hashesTo
  rw [htree, ← P.taker_viewing] at hhash
  have hinto : P.candidate.intoOrder D.toIndexContext P.order.terms.destination
      (D.viewingPubkey P.takerKeypair) = .ok ⟨P.order, P.makerPubkey⟩ :=
    TakerOrderCandidate.intoOrder_eq_ok.mpr ⟨rfl, hhash⟩
  simp only [indexTakerScan, SdkResult.bind_eq_ok]
  refine ⟨_, scanTaker_eq henc hplain hregistry htree, ?_⟩
  simp only [SdkResult.bind_eq_ok, orErr_eq_ok]
  exact ⟨_, hrpc, _, hinto, rfl⟩

/-- In the indexed tree the maker's loop passes the slots before the order's. -/
theorem find_before (salt : Bytes 16) :
    (unifiedSlotsFrom D.toIndexContext 0 P.before).findSome?
      (scanMakerSlot D.toMakerIndexContext registry P.order.terms.destination P.txViewingKey salt) =
        none := by
  rw [List.findSome?_eq_none_iff]
  rintro ⟨slotIndex, slot, body⟩ hentry
  rw [Option.eq_none_iff_forall_ne_some]
  intro order hround
  obtain ⟨plaintext, viewing, -, -, hcandidate, hhash⟩ := scanMakerSlot_eq_some.mp hround
  obtain ⟨_, _, _, _, -, -, -, -, rfl⟩ := makerOrderCandidate_eq_some.mp hcandidate
  refine P.alone slot (mem_of_mem_unifiedSlotsFrom hentry) _ viewing ?_ hhash
  rfl

/-- The maker's scan finds the order. -/
theorem scanMaker_eq (henc : D.EncodesBack) (hplain : D.plainTextData.RoundTrips)
    (hregistry : P.Registered registry) (htree : P.treeId = INDEXED_TREE_ID) :
    scanMaker D.toMakerIndexContext P.transaction P.makerKeypair registry =
      .ok (some ⟨P.order, P.takerAddress.viewingPubkey⟩) := by
  obtain ⟨bytes, hbytes, hplaintext⟩ := P.plaintext_eq
  obtain ⟨mint, hmint, hasset⟩ := hregistry.destination
  have hdecrypt := henc.decryptWithTxKey P.encoded
  rw [hplaintext] at hdecrypt
  have hhash := P.hashesTo
  rw [htree] at hhash
  have hcandidate : makerOrderCandidate D.toMakerIndexContext registry P.order.terms.destination
      ⟨P.order.sourceAmount, P.order.sourceMint.assetId, P.order.blinding, [.utxoData bytes]⟩
      P.takerAddress.viewingPubkey = some ⟨P.order, P.takerAddress.viewingPubkey⟩ := by
    refine makerOrderCandidate_eq_some.mpr ⟨bytes, _, P.order.sourceMint, mint, rfl, hplain hbytes,
      hregistry.source, hmint, ?_⟩
    rw [hasset]
    rfl
  have hround : scanMakerSlot D.toMakerIndexContext registry P.order.terms.destination P.txViewingKey
      P.salt (slotIndex D.toIndexContext P.before, P.slot, P.body) =
        some ⟨P.order, P.takerAddress.viewingPubkey⟩ :=
    scanMakerSlot_eq_some.mpr ⟨_, _, henc.embeddedViewingPk P.encoded, hdecrypt, hcandidate, hhash⟩
  have hkey : makerViewingKey D.toMakerIndexContext P.makerKeypair (D.viewingKeyPubkey P.txViewingKey)
      P.transaction.nullifiers = some P.txViewingKey := by
    simp [makerViewingKey, transaction, P.viewing_key]
  refine scanMaker_eq_ok_some.mpr ⟨_, P.salt, P.txViewingKey, P.order.terms.destination, rfl, rfl,
    hkey, P.maker_address, ?_⟩
  rw [P.unifiedSlots_transaction, List.findSome?_append, find_before, Option.none_or,
    List.findSome?_cons, hround]

/-- An order that the taker finds was appended to the indexed tree. -/
theorem treeId_of_indexTakerScan (hC : D.env.crypto.Ideal)
    (hW : D.wallet.Documented D.env.crypto) {κ : Type} {rpc : Rpc κ} {found : TakerOrder}
    (h : indexTakerScan D.toIndexContext P.takerKeypair registry rpc P.transaction =
      .ok (some found)) : P.treeId = INDEXED_TREE_ID := by
  simp only [indexTakerScan, SdkResult.bind_eq_ok] at h
  obtain ⟨scanned, hscan, h⟩ := h
  cases scanned with
  | none => cases h
  | some candidate =>
      simp only [SdkResult.bind_eq_ok, orErr_eq_ok] at h
      obtain ⟨destination, -, order, hinto, -⟩ := h
      have hfound := (TakerOrderCandidate.hashesTo_of_intoOrder hinto).2
      -- the only message is the marker, and it has the hash of the order's slot
      obtain ⟨message, hmem, hdata⟩ := scanTaker_marker hscan
      obtain ⟨tag, -, hmessage⟩ := P.message_eq
      rw [List.mem_singleton.mp hmem, hmessage] at hdata
      have hmarker := MarkerData.toVec_injective hdata
      rw [MarkerData.mk.injEq] at hmarker
      rw [← hmarker.1] at hfound
      exact P.hashesTo.treeId_eq hC hW hfound

/-- **Discovery inverts make in the indexed tree.** On what a make publishes, the taker, with the
maker's registered address, and the maker both find exactly the order, if and only if it was
appended to the tree that the indexers hash under. -/
theorem discovered_iff (hC : D.env.crypto.Ideal) (hW : D.wallet.Documented D.env.crypto)
    (henc : D.EncodesBack) (hplain : D.plainTextData.RoundTrips) (P : Publication D)
    {registry : AssetRegistry} (hregistry : P.Registered registry) {κ : Type} {rpc : Rpc κ}
    (hrpc : rpc.resolveRegisteredAddress P.makerPubkey = some P.order.terms.destination) :
    (indexTakerScan D.toIndexContext P.takerKeypair registry rpc P.transaction =
        .ok (some ⟨P.order, P.makerPubkey⟩) ∧
      scanMaker D.toMakerIndexContext P.transaction P.makerKeypair registry =
        .ok (some ⟨P.order, P.takerAddress.viewingPubkey⟩)) ↔ P.treeId = INDEXED_TREE_ID := by
  constructor
  · rintro ⟨htaker, -⟩
    exact treeId_of_indexTakerScan hC hW htaker
  · intro htree
    exact ⟨indexTakerScan_eq henc hplain hregistry hrpc htree,
      scanMaker_eq henc hplain hregistry htree⟩

end Publication

/-! ## The sample order in two trees

The make of the sample, appended to the indexed tree and to the next one. -/

namespace Sample

open Swap.Sample

/-- The tables of the sample with the order in tree 1. -/
def treeCrypto : Crypto :=
  { crypto with
    utxoHash := Oracle.tabulate (Fr.offset 100) (utxoTable ++ [{ order with treeId := 1 }]) }

theorem treeCrypto_ideal : treeCrypto.Ideal :=
  .of_tables rfl rfl (fun _ _ _ => rfl) rfl (by decide) (by decide) (by decide) (by decide)
    (by decide)

noncomputable def discoveryContext : DiscoveryContext where
  toMakerIndexContext :=
    { makerIndexContext with
      env := { env with crypto := treeCrypto }
      wallet := .ofCrypto treeCrypto }
  encode _ recipient _ _ plaintext :=
    if recipient = viewingKey ∧ plaintext = ⟨7, 2, Fr.toBytes 33, [.utxoData []]⟩ then some []
    else none

theorem discoveryContext_documented :
    discoveryContext.wallet.Documented discoveryContext.env.crypto :=
  Wallet.ofCrypto_documented treeCrypto

theorem discoveryContext_encodesBack : discoveryContext.EncodesBack where
  embeddedViewingPk h := by
    obtain ⟨⟨hrecipient, -⟩, -⟩ := Option.ite_none_right_eq_some.mp h
    rw [hrecipient]
    rfl
  decryptWithTxKey h := by
    obtain ⟨⟨-, hplaintext⟩, hbody⟩ := Option.ite_none_right_eq_some.mp h
    rw [hplaintext, ← Option.some.inj hbody]
    rfl
  decode h _ _ := by
    obtain ⟨⟨-, hplaintext⟩, hbody⟩ := Option.ite_none_right_eq_some.mp h
    rw [hplaintext, ← Option.some.inj hbody]
    rfl

def orderOutput : SppProofOutputUtxo :=
  ⟨⟨Bytes.replicate 32 20, 2⟩, 7, Fr.toBytes 33,
    some ⟨.ed25519 authority, Fr.toBytes 1000, viewingKey⟩, some [], some (Fr.toBytes 1007), none,
    none⟩

/-- The make, with the order under a hash that it has in a tree. -/
noncomputable def publication (treeId : UInt16) (hash : Fr)
    (hhash : discoveryContext.wallet.outputHash orderOutput treeId = some hash.toBytes) :
    Publication discoveryContext where
  order := orderUtxo TAKE_MODE_DERIVED 33
  makerKeypair := makerKeypair
  takerKeypair := takerKeypair
  takerAddress := takerAddress
  makerPubkey := maker
  treeId := treeId
  txViewingKey := Bytes.replicate 32 9
  salt := Bytes.replicate 16 0
  firstNullifier := Fr.toBytes 1014
  laterNullifiers := []
  before := [⟨Bytes.replicate 32 1, ⟨Fr.toBytes 101, treeId, 0⟩, [1, 0]⟩]
  slot := ⟨Bytes.replicate 32 2, ⟨hash.toBytes, treeId, 1⟩, [1]⟩
  after := []
  output := orderOutput
  scheme := 1
  body := []
  message := ⟨Bytes.replicate 32 2, (MarkerData.mk hash.toBytes maker).toVec⟩
  maker_address := rfl
  taker_signing := rfl
  taker_viewing := rfl
  viewing_key := rfl
  output_utxo := by decide
  output_hash := hhash
  output_tree := rfl
  confidential := rfl
  output_data := rfl
  encoded := rfl
  marker := rfl
  alone := by
    intro earlier hmem order' viewing _ hhashes
    rw [List.mem_singleton.mp hmem] at hhashes
    -- the change carries no data
    have hchange : treeCrypto.utxoHash change = some 101 := by decide
    exact hhashes.not_dataless treeCrypto_ideal discoveryContext_documented hchange ⟨rfl, rfl, rfl⟩

theorem outputHash_tree_0 :
    discoveryContext.wallet.outputHash orderOutput 0 = some (Fr.toBytes 102) := by decide

theorem outputHash_tree_1 :
    discoveryContext.wallet.outputHash orderOutput 1 = some (Fr.toBytes 114) := by decide

theorem publication_registered {treeId : UInt16} {hash : Fr}
    (hhash : discoveryContext.wallet.outputHash orderOutput treeId = some hash.toBytes) :
    (publication treeId hash hhash).Registered registry :=
  ⟨rfl, ⟨_, rfl, rfl⟩⟩

end Sample

open Sdk.Sample in
theorem Publication.discovered_iff_sample :
    indexTakerScan discoveryContext.toIndexContext Sample.takerKeypair registry rpc
        (publication 0 102 outputHash_tree_0).transaction = .ok (some takerOrder) ∧
      scanMaker discoveryContext.toMakerIndexContext (publication 0 102 outputHash_tree_0).transaction
        Sample.makerKeypair registry = .ok (some makerOrder) :=
  (Publication.discovered_iff treeCrypto_ideal discoveryContext_documented
    discoveryContext_encodesBack (Codec.tabulate_roundTrips _) (publication 0 102 outputHash_tree_0)
    (publication_registered outputHash_tree_0) rfl).mpr rfl

open Sdk.Sample in
/-- An order that was appended to tree 1 stays hidden from its taker. -/
theorem Publication.not_discovered :
    ¬∀ (D : DiscoveryContext), D.env.crypto.Ideal → D.wallet.Documented D.env.crypto →
      D.EncodesBack → D.plainTextData.RoundTrips →
      ∀ (P : Publication D) (registry : AssetRegistry), P.Registered registry →
      ∀ rpc : Rpc Unit,
        rpc.resolveRegisteredAddress P.makerPubkey = some P.order.terms.destination →
        indexTakerScan D.toIndexContext P.takerKeypair registry rpc P.transaction =
            .ok (some ⟨P.order, P.makerPubkey⟩) ∧
          scanMaker D.toMakerIndexContext P.transaction P.makerKeypair registry =
            .ok (some ⟨P.order, P.takerAddress.viewingPubkey⟩) := by
  intro h
  obtain ⟨htaker, -⟩ := h discoveryContext treeCrypto_ideal discoveryContext_documented
    discoveryContext_encodesBack (Codec.tabulate_roundTrips _)
    (publication 1 114 outputHash_tree_1) registry (publication_registered outputHash_tree_1) rpc rfl
  have htree : (1 : UInt16) = INDEXED_TREE_ID :=
    Publication.treeId_of_indexTakerScan treeCrypto_ideal discoveryContext_documented htaker
  exact absurd htree (by decide)

end Zolana.Swap.Sdk
