import Zolana.Swap.CancelDelivery
import Zolana.Swap.Polling

set_option autoImplicit false

/-! # Settling what was found

An indexer rebuilds an order from what a stranger has published, and a settlement is built from this
order and from the tree that the indexers hash under. Nothing else comes from the ledger. It is the
listed leaf that the settlement spends, so what a taker finds he can take, and what a maker finds
again he can cancel.
-/

namespace Zolana.Swap.Sdk

/-- The surroundings of someone who looks for orders and settles them. -/
structure TraderContext extends ClientContext, MakerIndexContext

/-! ## The listed leaf -/

/-- The hash is that of the UTXO and of no other. -/
def LeafOf (C : Crypto) (hash : Bytes 32) (u : Utxo) : Prop :=
  ∀ v, (C.utxoHash v).map Fr.toBytes = some hash ↔ v = u

section Leaf

variable {X : ProofContext} {order : OrderUtxo} {treeId : UInt16} {input : OrderTermsProofInput}
  {u : ProofInputUtxo} {viewing : X25519Pubkey} {hash : Bytes 32}

/-- The client reads an order as the UTXO that its output hash commits. -/
theorem OrderUtxo.OpensAt.leafOf (hC : X.env.crypto.Ideal) (hW : X.wallet.Documented X.env.crypto)
    (hL : X.client.Documented X.env.crypto X.wallet) (h : order.OpensAt X treeId input u)
    (hhash : order.HashesTo X.toContext viewing treeId hash) : LeafOf X.env.crypto hash u := by
  obtain ⟨output, houtput, hout⟩ := hhash
  obtain ⟨output', houtput', hout'⟩ := h.outputHash hW hL viewing
  have hsame : output = output' := Except.ok.inj (houtput.symm.trans houtput')
  subst hsame
  have hu : (X.env.crypto.utxoHash u).map Fr.toBytes = some hash := hout'.symm.trans hout
  intro v
  constructor
  · intro hv
    obtain ⟨d, hd, hword⟩ := Option.map_eq_some_iff.mp hv
    obtain ⟨d', hd', hword'⟩ := Option.map_eq_some_iff.mp hu
    have hdigest : d = d' := Fr.toBytes_injective (hword.trans hword'.symm)
    subst hdigest
    exact hC.utxoHash hd hd'
  · rintro rfl
    exact hu

/-- An order output with a hash can be read by the client. -/
theorem OrderUtxo.HashesTo.exists_opensAt (hW : X.wallet.Documented X.env.crypto)
    (hL : X.client.Documented X.env.crypto X.wallet)
    (h : order.HashesTo X.toContext viewing treeId hash) :
    ∃ input u, order.OpensAt X treeId input u := by
  obtain ⟨output, houtput, hhash⟩ := h
  simp only [OrderUtxo.outputUtxo, SdkResult.bind_eq_ok, orErr_eq_ok, pure, Except.pure,
    Except.ok.injEq] at houtput
  obtain ⟨word, hword, nullifierPubkey, hnullifier, data, hdata, rfl⟩ := houtput
  rw [hW.outputHash _ _ _ rfl rfl rfl] at hhash
  obtain ⟨d, hopening, -⟩ := Option.map_eq_some_iff.mp hhash
  obtain ⟨u, hu, -⟩ := Option.bind_eq_some_iff.mp hopening
  have hterms := hword
  simp only [OrderTerms.dataHash, SdkResult.bind_eq_ok] at hterms
  obtain ⟨input, hinput, -⟩ := hterms
  let owner : ShieldedAddress :=
    ⟨.ed25519 (orderAuthority X.env), nullifierPubkey, order.terms.destination.viewingPubkey⟩
  let reencrypted := (SppProofOutputUtxo.plain order.sourceMint order.sourceAmount order.blinding
    owner).withUtxoData data word
  -- the key that the output is encrypted to is not part of the owner hash
  have hread : X.client.proofInputUtxo reencrypted treeId = some u := by
    rw [hL.proofInputUtxo reencrypted owner treeId rfl rfl rfl, hW.ownerHash]
    rw [hW.ownerHash] at hu
    exact hu
  refine ⟨input, u, hinput, reencrypted, ?_, hread⟩
  simp only [OrderUtxo.outputUtxo, SdkResult.bind_eq_ok, orErr_eq_ok, pure, Except.pure,
    Except.ok.injEq]
  exact ⟨word, hword, nullifierPubkey, hnullifier, data, hdata, rfl⟩

/-- A leaf is of one UTXO. -/
theorem LeafOf.unique {C : Crypto} {v : Utxo} (hu : LeafOf C hash u) (hv : LeafOf C hash v) :
    u = v :=
  (hv u).mp ((hu u).mpr rfl)

end Leaf

/-- The order's leaf is a listed slot of the transaction. The wallet's input form of the order, at
any leaf index, has the hash in the slot, and it is the UTXO behind this hash that the client reads
the order as. -/
structure OrderUtxo.ListedIn (X : TraderContext) (order : OrderUtxo) (tx : ShieldedTransaction)
    (u : Utxo) : Prop where
  slot : ∃ entry ∈ unifiedSlots X.toIndexContext tx,
    LeafOf X.env.crypto entry.2.1.outputContext.hash u ∧
      ∀ leafIndex spend, order.toInputUtxo X.toProofContext INDEXED_TREE_ID leafIndex = .ok spend →
        spend.utxoHash = entry.2.1.outputContext.hash
  read : ∀ input u', order.OpensAt X.toProofContext INDEXED_TREE_ID input u' → u' = u

variable {X : TraderContext}

/-- An order with the hash of a slot is listed. -/
theorem OrderUtxo.HashesTo.exists_listedIn (hX : X.Documented) (hC : X.env.crypto.Ideal)
    {order : OrderUtxo} {viewing : X25519Pubkey} {tx : ShieldedTransaction} {hash : Bytes 32}
    (hslot : ∃ entry ∈ unifiedSlots X.toIndexContext tx, entry.2.1.outputContext.hash = hash)
    (h : order.HashesTo X.toContext viewing INDEXED_TREE_ID hash) :
    ∃ u, order.ListedIn X tx u := by
  obtain ⟨entry, hentry, rfl⟩ := hslot
  obtain ⟨input, u, hopens⟩ :=
    OrderUtxo.HashesTo.exists_opensAt (X := X.toProofContext) hX.wallet hX.client h
  have hleaf := hopens.leafOf hC hX.wallet hX.client h
  refine ⟨u, ⟨⟨entry, hentry, hleaf, ?_⟩, ?_⟩⟩
  · intro leafIndex spend hspend
    have hhash := hopens.spend_utxoHash hX.wallet hX.client hspend
    rw [(hleaf u).mpr rfl] at hhash
    exact (Option.some.inj hhash).symm
  · intro input' u' hopens'
    exact (hopens'.leafOf hC hX.wallet hX.client h).unique hleaf

/-! ## Takers -/

/-- The order is listed in the transaction, and, with amounts that are not zero, it can be taken:
whatever payment and outputs the taker chooses, a take that the builder accepts for the order in the
indexed tree spends the listed leaf and goes through, on the rail of the order; with verifiable
encryption, if the payment is that of the terms' taker. -/
def OrderUtxo.Takeable (X : TraderContext) (order : OrderUtxo) (tx : ShieldedTransaction) : Prop :=
  ∃ u, order.ListedIn X tx u ∧
    ∀ p : TakeProofInputParams, p.orderUtxo = order → p.inputTreeId = INDEXED_TREE_ID →
      order.sourceAmount ≠ 0 → order.terms.destinationAmount ≠ 0 →
      (∀ inputs, p.toProofInputs X.toProofContext = .ok inputs →
        inputs.orderUtxo = u ∧ inputs.GoesThrough X.toClientContext p) ∧
      (∀ inputs, TakeVerifiableEncryptionProofInputParams.toProofInputs X.toProofContext p =
          .ok inputs →
        TakeVerifiableEncryptionProofInputParams.PaidByTaker X.toProofContext p →
        inputs.orderUtxo = u ∧ inputs.GoesThrough X.toClientContext p)

/-- An order with the hash of a slot can be taken. -/
theorem OrderUtxo.HashesTo.takeable (hX : X.Documented) (hC : X.env.crypto.Ideal)
    (hct : X.env.crypto.HashesCiphertexts) {order : OrderUtxo} {viewing : X25519Pubkey}
    {tx : ShieldedTransaction} {hash : Bytes 32}
    (hslot : ∃ entry ∈ unifiedSlots X.toIndexContext tx, entry.2.1.outputContext.hash = hash)
    (h : order.HashesTo X.toContext viewing INDEXED_TREE_ID hash) : order.Takeable X tx := by
  obtain ⟨u, hlisted⟩ := h.exists_listedIn hX hC hslot
  refine ⟨u, hlisted, ?_⟩
  rintro p rfl htree hsource hdestination
  constructor
  · intro inputs hinputs
    obtain ⟨_, _, -, hbuilt, -⟩ := TakeProofInputParams.of_toProofInputs hinputs
    have hopens := hbuilt.opens
    rw [htree] at hopens
    obtain ⟨proof, hprove, hverify⟩ := p.exists_proof hX hsource hdestination hinputs
    exact ⟨hlisted.read _ _ hopens, proof, hprove,
      p.settlesWith hX hC hsource hdestination hinputs hverify⟩
  · intro inputs hinputs hpaid
    obtain ⟨_, _, _, -, hbuilt, -⟩ :=
      TakeVerifiableEncryptionProofInputParams.of_toProofInputs hinputs
    have hopens := hbuilt.opens
    rw [htree] at hopens
    obtain ⟨proof, takeProof, hprove, hinto, hverify⟩ :=
      TakeVerifiableEncryptionProofInputParams.exists_proof hX hC hct hsource hdestination hinputs
        hpaid
    exact ⟨hlisted.read _ _ hopens, proof, takeProof, hprove, hinto,
      TakeVerifiableEncryptionProofInputParams.settlesWith hX hC hct hsource hdestination hinputs
        hpaid hverify⟩

/-- An order that the taker's scan finds has the hash of a slot. -/
theorem indexTakerScan_slot {I : IndexContext} {κ : Type} {tx : ShieldedTransaction}
    {keypair : ShieldedKeypair} {registry : AssetRegistry} {rpc : Rpc κ} {found : TakerOrder}
    (h : indexTakerScan I keypair registry rpc tx = .ok (some found)) :
    ∃ hash, (∃ entry ∈ unifiedSlots I tx, entry.2.1.outputContext.hash = hash) ∧
      found.orderUtxo.HashesTo I.toContext (I.viewingPubkey keypair) INDEXED_TREE_ID hash := by
  simp only [indexTakerScan, SdkResult.bind_eq_ok] at h
  obtain ⟨scanned, hscan, h⟩ := h
  cases scanned with
  | none => cases h
  | some candidate =>
      simp only [SdkResult.bind_eq_ok, orErr_eq_ok, pure, Except.pure, Except.ok.injEq,
        Option.some.injEq] at h
      obtain ⟨destination, -, order, hinto, rfl⟩ := h
      exact ⟨_, scanTaker_slot hscan, (TakerOrderCandidate.hashesTo_of_intoOrder hinto).2⟩

/-- **What a taker finds he can take.** Every order that a wait of the taker returns is listed in a
transaction of one pass, whoever has published it, and it can be taken if its amounts are not zero,
with verifiable encryption by the taker that it names. -/
theorem indexed_orders_takeable (hX : X.Documented) (hC : X.env.crypto.Ideal)
    (hct : X.env.crypto.HashesCiphertexts) {keypair : ShieldedKeypair} (registry : AssetRegistry)
    {tag : Bytes 32} (htag : X.confidentialViewTag keypair.signingPubkey = some tag) {κ : Type}
    {indexer rpc : ℕ → Rpc κ} {listed : ℕ → List (List ShieldedTransaction)} {pages : ℕ → ℕ}
    (hlists : Lists indexer tag listed pages) {now : ℕ → ℕ} {timeout fuel : ℕ}
    {orders : List TakerOrder}
    (h : indexTaker X.toIndexContext keypair registry indexer rpc now timeout pages fuel =
      some (.ok orders)) :
    ∃ n, ∀ found ∈ orders, ∃ tx ∈ (listed n).flatten, found.orderUtxo.Takeable X tx := by
  obtain ⟨n, hcollect, -⟩ := exists_collect_of_indexUntil h
  rw [collectTagged_eq htag (hlists n).1 (hlists n).2, Option.some.injEq] at hcollect
  refine ⟨n, ?_⟩
  intro found hfound
  obtain ⟨tx, htx, hscan⟩ := (Paging.mem_filterMapM hcollect).mp hfound
  obtain ⟨hash, hslot, hhash⟩ := indexTakerScan_slot hscan
  exact ⟨tx, htx, hhash.takeable hX hC hct hslot⟩

/-! ## Makers -/

/-- The order is listed in the transaction, and, with an amount that is not zero and a Solana key to
be refunded to, it can be cancelled: a cancel that the builder accepts for the order in the indexed
tree spends the listed leaf and goes through for that key. -/
def OrderUtxo.Cancellable (X : TraderContext) (order : OrderUtxo) (tx : ShieldedTransaction) :
    Prop :=
  ∃ u, order.ListedIn X tx u ∧
    ∀ p : CancelProofInputParams, p.orderUtxo = order → p.inputTreeId = INDEXED_TREE_ID →
      order.sourceAmount ≠ 0 → ∀ maker, order.terms.destination.signingPubkey = .ed25519 maker →
      ∀ inputs, p.toProofInputs X.toProofContext = .ok inputs →
        inputs.orderUtxo = u ∧ inputs.GoesThrough X.toClientContext p maker

/-- An order with the hash of a slot can be cancelled. -/
theorem OrderUtxo.HashesTo.cancellable (hX : X.Documented) (hC : X.env.crypto.Ideal)
    {order : OrderUtxo} {viewing : X25519Pubkey} {tx : ShieldedTransaction} {hash : Bytes 32}
    (hslot : ∃ entry ∈ unifiedSlots X.toIndexContext tx, entry.2.1.outputContext.hash = hash)
    (h : order.HashesTo X.toContext viewing INDEXED_TREE_ID hash) : order.Cancellable X tx := by
  obtain ⟨u, hlisted⟩ := h.exists_listedIn hX hC hslot
  refine ⟨u, hlisted, ?_⟩
  rintro p rfl htree hamount maker hmaker inputs hinputs
  have hbuilt := CancelProofInputParams.toProofInputs_eq_ok.mp hinputs
  have hopens := hbuilt.opens
  rw [htree] at hopens
  exact ⟨hlisted.read _ _ hopens, hbuilt.goesThrough hX hamount hmaker⟩

/-- The maker's scan rebuilds orders for the maker's own address. -/
theorem scanMaker_destination {M : MakerIndexContext} {tx : ShieldedTransaction}
    {keypair : ShieldedKeypair} {registry : AssetRegistry} {makerAddress : ShieldedAddress}
    (haddress : M.shieldedAddress keypair = some makerAddress) {order : MakerOrder}
    (h : scanMaker M tx keypair registry = .ok (some order)) :
    order.orderUtxo.terms.destination = makerAddress := by
  obtain ⟨_, _, _, address, -, -, -, haddress', hfind⟩ := scanMaker_eq_ok_some.mp h
  have hsame : makerAddress = address := Option.some.inj (haddress.symm.trans haddress')
  obtain ⟨_, -, hround⟩ := List.exists_of_findSome?_eq_some hfind
  obtain ⟨_, _, -, -, hcandidate, -⟩ := scanMakerSlot_eq_some.mp hround
  obtain ⟨_, _, _, _, -, -, -, -, rfl⟩ := makerOrderCandidate_eq_some.mp hcandidate
  exact hsame.symm

/-- **What a maker finds again he can cancel.** Every order that a wait of the maker returns is
listed in a transaction of one pass, belongs to the maker's own address, and can be cancelled if
its amount is not zero and this address is of a Solana key. -/
theorem indexed_orders_cancellable (hX : X.Documented) (hC : X.env.crypto.Ideal)
    {keypair : ShieldedKeypair} (registry : AssetRegistry) {makerAddress : ShieldedAddress}
    {tag : Bytes 32} (htag : X.confidentialViewTag keypair.signingPubkey = some tag)
    (haddress : X.shieldedAddress keypair = some makerAddress) {κ : Type} {indexer : ℕ → Rpc κ}
    {listed : ℕ → List (List ShieldedTransaction)} {pages : ℕ → ℕ}
    (hlists : Lists indexer tag listed pages) {now : ℕ → ℕ} {timeout fuel : ℕ}
    {orders : List MakerOrder}
    (h : indexMaker X.toMakerIndexContext keypair registry indexer now timeout pages fuel =
      some (.ok orders)) :
    ∃ n, ∀ found ∈ orders, found.orderUtxo.terms.destination = makerAddress ∧
      ∃ tx ∈ (listed n).flatten, found.orderUtxo.Cancellable X tx := by
  obtain ⟨n, hcollect, -⟩ := exists_collect_of_indexUntil h
  rw [collectTagged_eq htag (hlists n).1 (hlists n).2, Option.some.injEq] at hcollect
  refine ⟨n, ?_⟩
  intro found hfound
  obtain ⟨tx, htx, hscan⟩ := (Paging.mem_filterMapM hcollect).mp hfound
  obtain ⟨hash, hslot, hhash⟩ := scanMaker_slot hscan
  exact ⟨scanMaker_destination haddress hscan, tx, htx, hhash.cancellable hX hC hslot⟩

/-! ## The sample order, found and settled -/

namespace Sample

/-- The sample client with the maker's keys. -/
noncomputable def traderContext : TraderContext :=
  { clientContext, makerIndexContext with
    env := clientContext.env
    wallet := clientContext.wallet
    plainTextData := clientContext.plainTextData }

theorem traderContext_documented : traderContext.Documented := clientContext_documented

theorem indexTaker_trader :
    indexTaker traderContext.toIndexContext takerKeypair registry laterIndexer (fun _ => rpc) clock
      INDEX_POLL (fun _ => 1) 3 = some (.ok [takerOrder]) := by
  decide

theorem indexMaker_trader :
    indexMaker traderContext.toMakerIndexContext makerKeypair registry laterIndexer clock INDEX_POLL
      (fun _ => 1) 3 = some (.ok [makerOrder]) := by
  decide

theorem order_opensAt : ∃ input,
    (orderUtxo TAKE_MODE_DERIVED 33).OpensAt traderContext.toProofContext 0 input
      Swap.Sample.order := by
  have hinputs : takeParams.toProofInputs traderContext.toProofContext = .ok takeInputs := by decide
  obtain ⟨_, _, -, hbuilt, -⟩ := TakeProofInputParams.of_toProofInputs hinputs
  exact ⟨_, hbuilt.opens⟩

end Sample

open Sdk.Sample in
theorem indexed_orders_takeable_sample :
    ∃ tx, (orderUtxo TAKE_MODE_DERIVED 33).ListedIn traderContext tx Swap.Sample.order ∧
      takeInputs.GoesThrough traderContext.toClientContext takeParams := by
  obtain ⟨n, horders⟩ := indexed_orders_takeable traderContext_documented Swap.Sample.crypto_ideal
    Swap.Sample.crypto_hashesCiphertexts registry rfl (laterIndexer_lists (Bytes.replicate 32 2))
    indexTaker_trader
  obtain ⟨tx, -, u, hlisted, htake⟩ := horders takerOrder List.mem_cons_self
  obtain ⟨input, hopens⟩ := order_opensAt
  obtain rfl := hlisted.read input _ hopens
  obtain ⟨hderived, -⟩ := htake takeParams rfl rfl (by decide) (by decide)
  exact ⟨tx, hlisted, (hderived takeInputs (by decide)).2⟩

open Sdk.Sample in
theorem indexed_orders_cancellable_sample :
    ∃ tx, (orderUtxo TAKE_MODE_DERIVED 33).ListedIn traderContext tx Swap.Sample.order ∧
      refundInputs.GoesThrough traderContext.toClientContext refundParams Swap.Sample.maker := by
  obtain ⟨n, horders⟩ := indexed_orders_cancellable (X := traderContext) traderContext_documented
    Swap.Sample.crypto_ideal registry rfl rfl (laterIndexer_lists (Bytes.replicate 32 2))
    indexMaker_trader
  obtain ⟨-, tx, -, u, hlisted, hcancel⟩ := horders makerOrder List.mem_cons_self
  obtain ⟨input, hopens⟩ := order_opensAt
  obtain rfl := hlisted.read input _ hopens
  exact ⟨tx, hlisted, (hcancel refundParams rfl rfl (by decide) _ rfl refundInputs (by decide)).2⟩

end Zolana.Swap.Sdk
