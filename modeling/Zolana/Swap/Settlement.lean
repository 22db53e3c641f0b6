import Zolana.Swap.Program

set_option autoImplicit false

/-! # Settling an order

The three instructions that settle an order, seen from the UTXOs that SPP moves. An accepted
instruction has a satisfying witness of its circuit; `private_tx_hash` identifies the UTXOs
of the witness with those of the transact; and the public input identifies the timestamps,
the first nullifier and the maker of the witness with those of the instruction. Put
together: either take rail pays the committed price, the verifiable rail only for the
designated taker, and a cancel returns everything to the maker after the expiry.
-/

namespace Zolana.Swap

/-! ## The exchange -/

/-- What both take rails do: the order `T` and a payment of its price go in, the order's
amount goes to the owner of the payment and the price to the maker. -/
structure Exchange (C : Crypto) (op : TxOpening) (T : OrderTerms)
    (order payment source destination : Utxo) : Prop where
  wellFormed : T.WellFormed
  carriesTerms : CarriesTerms C order T
  spent : op.spent = [order, payment]
  created : op.created = [source, destination]
  payment_pays : Pays payment T.destinationAsset T.destinationAmount payment.owner
  source_pays : Pays source order.asset order.amount payment.owner
  destination_pays : Pays destination T.destinationAsset T.destinationAmount T.makerOwnerHash

/-- The witness of `take.Core` moves the UTXOs of the transact. -/
theorem Take.Core.Satisfied.exchange {C : Crypto} (hC : C.Ideal) {f : Take.Core}
    {t : TransactIxData} {op : TxOpening} {d : Fr} (h : f.Satisfied C d)
    (hd : Fr.ofBytes t.privateTxHash = some d) (hspp : SppCommits C t op) :
    Exchange C op f.order f.orderUtxo f.takerIn f.sourceOutput f.destinationOutput := by
  obtain ⟨hspent, hcreated⟩ := hspp.binds hC hd h.privateTxHash
  exact
    { wellFormed := h.wellFormed
      carriesTerms := h.order
      spent := hspent
      created := hcreated
      payment_pays := h.takerIn
      source_pays := h.sourceOutput
      destination_pays := h.destinationOutput }

/-- A dataless UTXO carries no terms. -/
theorem CarriesTerms.not_dataless {C : Crypto} (hC : C.Ideal) {u : Utxo} {T : OrderTerms}
    (h : CarriesTerms C u T) : ¬u.Dataless := by
  intro hu
  exact OrderTerms.hash_ne_zero hC h.dataHash hu.1

/-- The order of an exchange is its only input whose data is the hash of terms, and these
agree with the terms of the exchange. -/
theorem Exchange.eq_order_of_hash {C : Crypto} (hC : C.Ideal) {op : TxOpening}
    {T T' : OrderTerms} {order payment source destination u : Utxo}
    (h : Exchange C op T order payment source destination) (hu : u ∈ op.spent)
    (hT' : T'.hash C = some u.dataHash) :
    u = order ∧ T.destinationAsset = T'.destinationAsset ∧
      T.destinationAmount = T'.destinationAmount ∧ T.makerOwnerHash = T'.makerOwnerHash ∧
      T.expiry = T'.expiry ∧ T.takerPkFe = T'.takerPkFe ∧ T.takeMode = T'.takeMode := by
  -- of the two inputs only the order carries data
  rw [h.spent, List.mem_cons, List.mem_singleton] at hu
  rcases hu with rfl | rfl
  · exact ⟨rfl, OrderTerms.hash_inj hC.poseidon h.carriesTerms.dataHash hT'⟩
  · exact absurd h.payment_pays.dataless.1 (OrderTerms.hash_ne_zero hC hT')

/-- The order of an exchange is its only input that carries terms, and the terms it carries
are those of the exchange. -/
theorem Exchange.eq_order {C : Crypto} (hC : C.Ideal) {op : TxOpening} {T T' : OrderTerms}
    {order payment source destination u : Utxo}
    (h : Exchange C op T order payment source destination) (hu : u ∈ op.spent)
    (hT' : CarriesTerms C u T') :
    u = order ∧ T.destinationAsset = T'.destinationAsset ∧
      T.destinationAmount = T'.destinationAmount ∧ T.makerOwnerHash = T'.makerOwnerHash ∧
      T.expiry = T'.expiry ∧ T.takerPkFe = T'.takerPkFe ∧ T.takeMode = T'.takeMode :=
  h.eq_order_of_hash hC hu hT'.dataHash

/-- An exchange creates nothing that carries data. -/
theorem Exchange.created_dataless {C : Crypto} {op : TxOpening} {T : OrderTerms}
    {order payment source destination u : Utxo}
    (h : Exchange C op T order payment source destination) (hu : u ∈ op.created) :
    u.Dataless := by
  rw [h.created, List.mem_cons, List.mem_singleton] at hu
  rcases hu with rfl | rfl
  · exact h.source_pays.dataless
  · exact h.destination_pays.dataless

/-! ## The derived rail -/

/-- An accepted derived take is an exchange of an order with `take_mode` 0. -/
theorem processTakeIx_exchange {E : Env} (hE : E.Secure) {now : Int64}
    {accounts : AccountIterator} {data : List UInt8} {cpi : Cpi} {t : TransactIxData}
    {op : TxOpening} (h : processTakeIx E now accounts data = .ok cpi)
    (ht : cpi.Transact E.runtime t) (hspp : SppCommits E.crypto t op) :
    ∃ T order payment source destination,
      Exchange E.crypto op T order payment source destination ∧
      T.takeMode = takeModeDerived ∧ T.expiry = Fr.ofU64 t.expiryUnixTs := by
  obtain ⟨-, w, firstInput, hw, hp, hexpiry, -, -⟩ := processTakeIx_sound hE h ht
  exact ⟨_, _, _, _, _, hw.core.exchange hE.ideal hp hspp, hw.takeMode, hexpiry⟩

/-- **A derived take pays exactly the committed price.** -/
theorem processTakeIx_pays_price {E : Env} (hE : E.Secure) {now : Int64}
    {accounts : AccountIterator} {data : List UInt8} {cpi : Cpi} {t : TransactIxData}
    {op : TxOpening} (h : processTakeIx E now accounts data = .ok cpi)
    (ht : cpi.Transact E.runtime t) (hspp : SppCommits E.crypto t op) :
    ∃ T order payment source destination,
      Exchange E.crypto op T order payment source destination ∧
      T.takeMode = takeModeDerived ∧ T.expiry.val = t.expiryUnixTs.toNat ∧
      0 ≤ now.toInt ∧ now.toInt ≤ T.expiry.val ∧
      0 < T.destinationAmount.val ∧ T.destinationAmount.val < 2 ^ 64 := by
  obtain ⟨T, order, payment, source, destination, hx, hmode, hexpiry⟩ :=
    processTakeIx_exchange hE h ht hspp
  obtain ⟨⟨hnow, hle⟩, -⟩ := processTakeIx_sound hE h ht
  have hval : T.expiry.val = t.expiryUnixTs.toNat := by rw [hexpiry, Fr.val_ofU64]
  have hpos : 0 < T.destinationAmount.val :=
    Nat.pos_of_ne_zero fun h0 => hx.wellFormed.destinationAmount_ne (Fin.ext h0)
  refine ⟨T, order, payment, source, destination, hx, hmode, hval, hnow, ?_, hpos,
    hx.wellFormed.destinationAmount_lt⟩
  omega

/-! ## A sample environment

The hypotheses above hold together: an environment in which every hash is a table of the
preimages that a few instructions evaluate. -/

/-- The UTXOs of the sample, on tree 0 and with default ring fields. -/
def sampleUtxo (owner asset amount blinding dataHash : Fr) : Utxo :=
  ⟨owner, asset, amount, blinding, dataHash, 0, 0, 0⟩

namespace Sample

/-- The account key of a party. -/
def maker : Address := Bytes.replicate 32 1
def taker : Address := Bytes.replicate 32 2
def authority : Address := Bytes.replicate 32 3

/-- Digests of the Poseidon table that the UTXOs mention. -/
def makerOwner : Fr := 1003
def takerOwner : Fr := 1004
def authorityOwner : Fr := 1005

/-- Terms of an order of 9 units of asset 21, until time 100, for the taker. -/
def terms (takeMode : Fr) : OrderTerms :=
  ⟨21, 9, makerOwner, ⟨List.replicate 33 0, by decide⟩, 100, 12, takeMode⟩

/-- The maker's funds, and the change of an order over 7 of their 8 units. -/
def funds : Utxo := sampleUtxo makerOwner 20 8 31 0
def change : Utxo := sampleUtxo makerOwner 20 1 32 0

/-- The order on the derived rail and the order on the verifiable rail. -/
def order : Utxo := sampleUtxo authorityOwner 20 7 33 1007
def verifiableOrder : Utxo := sampleUtxo authorityOwner 20 7 35 1008

/-- What a taker pays, and what goes out. -/
def payment : Utxo := sampleUtxo takerOwner 21 9 34 0
def source : Utxo := sampleUtxo takerOwner 20 7 3038 0
def destination : Utxo := sampleUtxo makerOwner 21 9 3039 0
def verifiableSource : Utxo := sampleUtxo takerOwner 20 7 36 0
def verifiableDestination : Utxo := sampleUtxo makerOwner 21 9 37 0
def refund : Utxo := sampleUtxo makerOwner 20 7 38 0

/-- What a taker who makes an order of a spent order creates. -/
def redirectedChange : Utxo := sampleUtxo takerOwner 20 6 39 0
def redirectedOrder : Utxo := sampleUtxo takerOwner 20 1 40 1010

/-- A dataless UTXO of the order authority, and what a take pays for it. -/
def authorityPayment : Utxo := sampleUtxo authorityOwner 21 9 41 0
def authoritySource : Utxo := sampleUtxo authorityOwner 20 7 3038 0

/-- The Poseidon preimages; the digest of the `i`-th one is `1000 + i`. -/
def poseidonTable : List (List Fr) :=
  [ -- nullifier keys and owner hashes
    [0], [5], [6], [11, 1001], [12, 1002], [13, 1000],
    -- the maker's address and the terms of both rails; the taker's own terms
    [1003, 22], [21, 9, 1006, 100, 12, 0], [21, 9, 1006, 100, 12, 1],
    [1004, 22], [21, 9, 1009, 100, 12, 0],
    -- the blinding seed and the shared secret of the orders
    [Take.blindingSeedDomain, 33], [35, takeEncKdfDomain],
    -- nullifiers
    [102, 33, 0], [100, 31, 5], [103, 34, 6], [106, 35, 0], [112, 41, 0],
    -- chains and public inputs
    [102, 103], [104, 105], [500, 100, 1013],
    [106, 103], [107, 108], [501, 100, 23],
    [502, 100, 11],
    [101, 102],
    [110, 111],
    [102, 112], [113, 105], [505, 100, 1013] ]

/-- The UTXOs; the hash of the `i`-th one is `100 + i`. -/
def utxoTable : List Utxo :=
  [funds, change, order, payment, source, destination, verifiableOrder, verifiableSource,
    verifiableDestination, refund, redirectedChange, redirectedOrder, authorityPayment,
    authoritySource]

/-- The key stream, a constant. -/
def stream (n : ℕ) : Bytes n := Bytes.replicate n 0xA5

/-- The destination ciphertext of the verifiable order. -/
def ciphertext : Bytes 72 :=
  Bytes.xor ⟨BigEndian.toBytesBE 8 9 ++ BigEndian.toBytesBE 32 21 ++ BigEndian.toBytesBE 32 37, by
    decide⟩ (stream 72)

/-- The byte strings hashed as variables: the viewing key and the ciphertext. -/
def gnarkTable : List (List Fr) := [List.replicate 33 0, ciphertext.1.map Fr.ofU8]

def crypto : Crypto where
  poseidon := Oracle.tabulate (Fr.offset 1000) poseidonTable
  utxoHash := Oracle.tabulate (Fr.offset 100) utxoTable
  privateTxCommit i o b := Oracle.tabulate (Fr.offset 500)
    [((1018, 1019, 2024) : Fr × Fr × Fr), (1021, 1022, 51), (102, 109, 52), (100, 1025, 53),
      (102, 1026, 54), (1027, 1028, 2024)] (i, o, b)
  hashBytes := Oracle.tabulate (Fr.offset 20)
    [List.replicate 32 20, List.replicate 32 21, List.replicate 33 0, ciphertext.1]
  gnarkHashBytes := Oracle.tabulate (Fr.offset 22) gnarkTable
  ciphertextHash ct := Oracle.tabulate (Fr.offset 22) gnarkTable (ct.1.map Fr.ofU8)
  solanaOwnerIdentity := Oracle.tabulate (Fr.offset 11) [maker, taker, authority]
  derivePrivateTxBlinding n seed := some (n + seed)
  deriveOutputBlindingSeed n seed := some (n + seed + 1)
  deriveTransactOutputBlinding n seed i := some (n + seed + Fin.ofNat modulus i.toNat)
  keyStream _ _ n := some (stream n)

theorem crypto_ideal : crypto.Ideal :=
  .of_tables rfl rfl (fun _ _ _ => rfl) rfl (by decide) (by decide) (by decide) (by decide)
    (by decide)

theorem crypto_hashesCiphertexts : crypto.HashesCiphertexts where
  gnarkHashBytes _ := rfl
  collisionFree := by
    intro ciphertext ciphertext' d h h'
    have heq := Fr.tabulate_offset_collisionFree (by decide) h h'
    exact Subtype.ext (List.map_injective_iff.mpr Fr.ofU8_injective heq)

/-- What SPP moves in each of the sample instructions. -/
def takeOpening : TxOpening :=
  ⟨[some ⟨order, 0⟩, some ⟨payment, 6⟩], [some source, some destination], 2024⟩

def takeVerifiableEncryptionOpening : TxOpening :=
  ⟨[some ⟨verifiableOrder, 0⟩, some ⟨payment, 6⟩],
    [some verifiableSource, some verifiableDestination], 51⟩

def cancelOpening : TxOpening := ⟨[some ⟨order, 0⟩, none], [some refund, none], 52⟩

def makeOpening : TxOpening := ⟨[some ⟨funds, 5⟩, none], [some change, some order], 53⟩

def remakeOpening : TxOpening :=
  ⟨[some ⟨order, 0⟩, none], [some redirectedChange, some redirectedOrder], 54⟩

def authorityTakeOpening : TxOpening :=
  ⟨[some ⟨order, 0⟩, some ⟨authorityPayment, 0⟩], [some authoritySource, some destination], 2024⟩

/-- The transact of each opening. -/
def takeTransact : TransactIxData := takeOpening.publish crypto 100 none []
def takeVerifiableEncryptionTransact : TransactIxData :=
  takeVerifiableEncryptionOpening.publish crypto 100 (some ciphertext.1) []
def cancelTransact : TransactIxData := cancelOpening.publish crypto 200 none []
def makeTransact (marker : List UInt8) : TransactIxData :=
  makeOpening.publish crypto 50 none [⟨Bytes.replicate 32 2, marker⟩]
def remakeTransact (marker : List UInt8) : TransactIxData :=
  remakeOpening.publish crypto 50 none [⟨Bytes.replicate 32 2, marker⟩]
def authorityTakeTransact : TransactIxData := authorityTakeOpening.publish crypto 100 none []

/-- The marker that a make writes for the output hash and the payer. -/
def makeMarker : List UInt8 := (MarkerData.mk (Fr.toBytes 102) maker).toVec
def remakeMarker : List UInt8 := (MarkerData.mk (Fr.toBytes 111) taker).toVec

/-- The transacts that the codecs know. -/
def transacts : List TransactIxData :=
  [takeTransact, takeVerifiableEncryptionTransact, cancelTransact, makeTransact [],
    makeTransact makeMarker, remakeTransact [], remakeTransact remakeMarker,
    authorityTakeTransact]

/-- A proof; the verifier of the sample does not look at it. -/
def plainProof : PlainProof := ⟨Bytes.replicate 32 0, Bytes.replicate 64 0, Bytes.replicate 32 0⟩

def runtime : Runtime := .tabulate authority transacts

noncomputable def env : Env where
  crypto := crypto
  groth16 := Groth16.idealVerifier (relation crypto)
  runtime := runtime
  makeIxData bytes := transacts[bytes.length]?.map fun t => ⟨plainProof, t⟩
  takeIxData bytes := transacts[bytes.length]?.map fun t => ⟨plainProof, t⟩
  takeVerifiableEncryptionIxData bytes := transacts[bytes.length]?.map fun t =>
    ⟨⟨plainProof.proofA, plainProof.proofB, plainProof.proofC, Bytes.replicate 32 0,
      Bytes.replicate 32 0⟩, t⟩
  cancelIxData bytes := transacts[bytes.length]?.map fun t => ⟨plainProof, 100, t⟩

theorem env_secure : env.Secure where
  ideal := crypto_ideal
  sound := Groth16.idealVerifier_sound
  roundTrips := Codec.tabulate_roundTrips transacts

/-- The payer of an instruction, and the accounts forwarded to SPP. -/
def accounts (signers : List Address) : AccountIterator :=
  signers.map (⟨·, true, true⟩) ++ [⟨authority, false, false⟩]

/-- The instruction data that carries the `i`-th transact. -/
def data (i : ℕ) : List UInt8 := List.replicate i 0

def cpi (signers : List Address) (i : ℕ) : Cpi := ⟨accounts signers, data i, [authority]⟩

theorem verify {proof : CompressedGroth16Proof} {publicInput : Bytes 32} {x : Fr}
    {vk : Groth16Verifyingkey CircuitId} (hshape : proof.commitment.isSome = vk.vkCommitment)
    (hx : Fr.ofBytes publicInput = some x) (h : relation crypto vk.circuit x) :
    verifyGroth16 env proof publicInput vk = .ok () :=
  Groth16.idealVerifier_ok hshape hx h

theorem take_ok :
    processTakeIx env 50 (accounts [taker, taker]) (data 0) = .ok (cpi [taker] 0) := by
  refine processTakeIx_eq_ok.mpr ⟨⟨taker, true, true⟩, accounts [taker],
    ⟨plainProof, takeTransact⟩, ⟨Fr.toBytes 1013⟩, Fr.toBytes 1020, rfl, rfl, rfl, rfl, by decide,
    by decide, by decide, verify rfl (Fr.ofBytes_toBytes 1020) ?_, ?_⟩
  · exact ⟨⟨⟨1020, 500, 1013⟩, ⟨terms 0, order, payment, source, destination, 2024⟩⟩, rfl,
      by decide⟩
  · exact forward_eq_ok.mpr ⟨data 0, by decide, by decide, by decide, rfl⟩

end Sample

open Sample in
theorem processTakeIx_pays_price_sample :
    processTakeIx env 50 (accounts [taker, taker]) (data 0) = .ok (cpi [taker] 0) ∧
      ∃ T order payment source destination,
        Exchange crypto takeOpening T order payment source destination ∧
        T.takeMode = takeModeDerived ∧ T.expiry.val = takeTransact.expiryUnixTs.toNat ∧
        0 ≤ (50 : Int64).toInt ∧ (50 : Int64).toInt ≤ T.expiry.val ∧
        0 < T.destinationAmount.val ∧ T.destinationAmount.val < 2 ^ 64 :=
  ⟨take_ok, processTakeIx_pays_price env_secure take_ok rfl (by decide)⟩

/-! ## The verifiable rail -/

/-- An accepted take with verifiable encryption is an exchange of an order with `take_mode` 1,
and the payment belongs to the taker that the terms name. -/
theorem processTakeVerifiableEncryptionIx_exchange {E : Env} (hE : E.Secure) {now : Int64}
    {accounts : AccountIterator} {data : List UInt8} {cpi : Cpi} {t : TransactIxData}
    {op : TxOpening} (h : processTakeVerifiableEncryptionIx E now accounts data = .ok cpi)
    (ht : cpi.Transact E.runtime t) (hspp : SppCommits E.crypto t op) :
    ∃ T order payment source destination,
      Exchange E.crypto op T order payment source destination ∧
      T.takeMode = takeModeVerifiable ∧ T.expiry = Fr.ofU64 t.expiryUnixTs ∧
      ∃ n, E.crypto.poseidon [T.takerPkFe, n] = some payment.owner := by
  obtain ⟨-, w, _, _, hw, hp, hexpiry, -, -, -⟩ := processTakeVerifiableEncryptionIx_sound hE h ht
  exact ⟨_, _, _, _, _, hw.core.exchange hE.ideal hp hspp, hw.takeMode, hexpiry,
    w.takerNullifierPk, hw.takerIn_owner⟩

/-- The signer of an input whose owner hash is formed from `pkField` has that identity. -/
theorem exists_signer_of_owner {C : Crypto} (hC : C.Ideal) {ledger : Ledger Utxo}
    {signers : List Address} {t : TransactIxData} {op : TxOpening}
    (hspp : SppAccepts C ledger signers t op) {u : Utxo} (hu : u ∈ op.spent) {pkField n : Fr}
    (howner : C.poseidon [pkField, n] = some u.owner) :
    ∃ s ∈ signers, C.solanaOwnerIdentity s = some pkField ∧ C.OwnedBy s u := by
  obtain ⟨s, hs, hown⟩ := hspp.exists_signer hu
  obtain ⟨m, hm⟩ := hown
  -- the owner hash opens in one way, so the signer's identity is `pkField`
  obtain ⟨pk, hpk, hhash⟩ := Crypto.ownerHash_eq_some.mp hm
  have hlist := hC.poseidon hhash howner
  simp only [List.cons.injEq, and_true] at hlist
  obtain ⟨rfl, rfl⟩ := hlist
  exact ⟨s, hs, hpk, m, hm⟩

/-- **A verifiable-encryption order is settled by the designated taker only, at the committed
price.** The first part reads an accepted take with verifiable encryption; the second
starts from an order with `take_mode` 1 that some accepted take spends, on either rail. -/
theorem takeVerifiable_designated {E : Env} (hE : E.Secure) {now : Int64}
    {accounts : AccountIterator} {data : List UInt8} {cpi : Cpi} {t : TransactIxData}
    {op : TxOpening} {ledger : Ledger Utxo} (ht : cpi.Transact E.runtime t)
    (hspp : SppAccepts E.crypto ledger cpi.signers t op) :
    (processTakeVerifiableEncryptionIx E now accounts data = .ok cpi →
      ∃ T order payment source destination,
        Exchange E.crypto op T order payment source destination ∧
        T.takeMode = takeModeVerifiable ∧ T.expiry.val = t.expiryUnixTs.toNat ∧
        0 ≤ now.toInt ∧ now.toInt ≤ T.expiry.val ∧
        (∃ n, E.crypto.poseidon [T.takerPkFe, n] = some payment.owner) ∧
        ∃ s ∈ cpi.signers, E.crypto.solanaOwnerIdentity s = some T.takerPkFe ∧
          E.crypto.OwnedBy s payment) ∧
    (∀ order T, order ∈ op.spent → CarriesTerms E.crypto order T →
      T.takeMode = takeModeVerifiable →
      processTakeIx E now accounts data ≠ .ok cpi ∧
      (processTakeVerifiableEncryptionIx E now accounts data = .ok cpi →
        (∃ s ∈ cpi.signers, E.crypto.solanaOwnerIdentity s = some T.takerPkFe) ∧
        ∃ u ∈ op.created, Pays u T.destinationAsset T.destinationAmount T.makerOwnerHash)) := by
  have hrail : processTakeVerifiableEncryptionIx E now accounts data = .ok cpi →
      ∃ T order payment source destination,
        Exchange E.crypto op T order payment source destination ∧
        T.takeMode = takeModeVerifiable ∧ T.expiry.val = t.expiryUnixTs.toNat ∧
        0 ≤ now.toInt ∧ now.toInt ≤ T.expiry.val ∧
        (∃ n, E.crypto.poseidon [T.takerPkFe, n] = some payment.owner) ∧
        ∃ s ∈ cpi.signers, E.crypto.solanaOwnerIdentity s = some T.takerPkFe ∧
          E.crypto.OwnedBy s payment := by
    intro h
    obtain ⟨T, order, payment, source, destination, hx, hmode, hexpiry, n, hn⟩ :=
      processTakeVerifiableEncryptionIx_exchange hE h ht hspp.commits
    obtain ⟨⟨hnow, hle⟩, -⟩ := processTakeVerifiableEncryptionIx_sound hE h ht
    have hval : T.expiry.val = t.expiryUnixTs.toNat := by rw [hexpiry, Fr.val_ofU64]
    have hmem : payment ∈ op.spent := by rw [hx.spent]; simp
    exact ⟨T, order, payment, source, destination, hx, hmode, hval, hnow, by omega, ⟨n, hn⟩,
      exists_signer_of_owner hE.ideal hspp hmem hn⟩
  refine ⟨hrail, ?_⟩
  intro order T hmem hT hmode
  constructor
  · -- the derived rail opens the order with `take_mode` 0, and the hash fixes the mode
    intro h
    obtain ⟨T', _, _, _, _, hx, hmode', -⟩ := processTakeIx_exchange hE h ht hspp.commits
    have heq := (hx.eq_order hE.ideal hmem hT).2.2.2.2.2.2
    rw [hmode', hmode] at heq
    exact absurd heq (by decide)
  · intro h
    obtain ⟨T', _, _, _, destination, hx, -, -, -, -, -, s, hs, hid, -⟩ := hrail h
    obtain ⟨-, hasset, hamount, howner, -, htaker, -⟩ := hx.eq_order hE.ideal hmem hT
    refine ⟨⟨s, hs, by rw [hid, htaker]⟩, destination, by rw [hx.created]; simp, ?_⟩
    rw [← hasset, ← hamount, ← howner]
    exact hx.destination_pays

open Sample in
theorem Sample.takeVerifiableEncryption_ok :
    processTakeVerifiableEncryptionIx env 50 (accounts [taker, taker]) (data 1) =
      .ok (cpi [taker] 1) := by
  refine processTakeVerifiableEncryptionIx_eq_ok.mpr ⟨⟨taker, true, true⟩, accounts [taker],
    ⟨⟨plainProof.proofA, plainProof.proofB, plainProof.proofC, Bytes.replicate 32 0,
      Bytes.replicate 32 0⟩, takeVerifiableEncryptionTransact⟩, ciphertext.1, Fr.toBytes 1023, rfl,
    rfl, rfl, rfl, by decide, rfl, by decide, verify rfl (Fr.ofBytes_toBytes 1023) ?_, ?_⟩
  · exact ⟨⟨⟨1023, 501⟩, ⟨terms 1, verifiableOrder, payment, verifiableSource,
      verifiableDestination, 51⟩, 1002⟩, rfl, by decide⟩
  · exact forward_eq_ok.mpr ⟨data 1, by decide, by decide, by decide, rfl⟩

open Sample in
theorem takeVerifiable_designated_sample :
    ∃ T order payment source destination,
      Exchange crypto takeVerifiableEncryptionOpening T order payment source destination ∧
      T.takeMode = takeModeVerifiable ∧
      T.expiry.val = takeVerifiableEncryptionTransact.expiryUnixTs.toNat ∧
      0 ≤ (50 : Int64).toInt ∧ (50 : Int64).toInt ≤ T.expiry.val ∧
      (∃ n, crypto.poseidon [T.takerPkFe, n] = some payment.owner) ∧
      ∃ s ∈ (cpi [taker] 1).signers, crypto.solanaOwnerIdentity s = some T.takerPkFe ∧
        crypto.OwnedBy s payment := by
  have hread : (cpi [taker] 1).Transact env.runtime takeVerifiableEncryptionTransact := rfl
  have hspp : SppAccepts crypto ⟨{verifiableOrder, payment}, ∅⟩ (cpi [taker] 1).signers
      takeVerifiableEncryptionTransact takeVerifiableEncryptionOpening := by decide
  exact (takeVerifiable_designated env_secure hread hspp).1 takeVerifiableEncryption_ok

/-! ## Cancel -/

/-- What a cancel does: the order alone goes in, and all of it to the maker. -/
structure Refunds (C : Crypto) (op : TxOpening) (T : OrderTerms) (order refund : Utxo) :
    Prop where
  carriesTerms : CarriesTerms C order T
  spent : op.spent = [order]
  created : op.created = [refund]
  refund_pays : Pays refund order.asset order.amount T.makerOwnerHash

/-- The witness of `cancel.Circuit` moves the UTXOs of the transact. -/
theorem Cancel.Circuit.Satisfied.refunds {C : Crypto} (hC : C.Ideal) {w : Cancel.Circuit}
    {t : TransactIxData} {op : TxOpening} (h : w.Satisfied C)
    (hd : Fr.ofBytes t.privateTxHash = some w.pub.privateTxHash) (hspp : SppCommits C t op) :
    Refunds C op w.order w.orderUtxo w.sourceOutput := by
  obtain ⟨hspent, hcreated⟩ := hspp.binds hC hd h.privateTxHash
  exact
    { carriesTerms := h.order
      spent := hspent
      created := hcreated
      refund_pays := h.sourceOutput }

/-- An accepted cancel sends an expired order back to the maker, whose key is the second account
and signs. -/
theorem processCancelIx_sendsBack {E : Env} (hE : E.Secure) {now : Int64}
    {accounts : AccountIterator} {data : List UInt8} {cpi : Cpi} {t : TransactIxData}
    {op : TxOpening} (h : processCancelIx E now accounts data = .ok cpi)
    (ht : cpi.Transact E.runtime t) (hspp : SppCommits E.crypto t op) :
    ∃ T order refund maker, Refunds E.crypto op T order refund ∧ accounts[1]? = some maker ∧
      maker.isSigner = true ∧ (∃ n, E.crypto.ownerHash maker.address n = some T.makerOwnerHash) ∧
      0 ≤ now.toInt ∧ T.expiry.val < now.toInt := by
  obtain ⟨w, maker, ix, hw, hmaker, hsigner, -, -, hp, hexpiry, hid, hnow, hafter⟩ :=
    processCancelIx_sound hE h ht
  have howner : E.crypto.ownerHash maker.address w.makerNullifierPk =
      some w.order.makerOwnerHash := Crypto.ownerHash_eq_some.mpr ⟨_, hid, hw.maker⟩
  refine ⟨w.order, w.orderUtxo, w.sourceOutput, maker, hw.refunds hE.ideal hp hspp, hmaker,
    hsigner, ⟨_, howner⟩, hnow, ?_⟩
  rw [hexpiry, Fr.val_ofU64]
  exact hafter

/-- **Cancel refunds the maker in full, only to the maker, by the maker, after expiry.** The
expiry is the one in the instruction data and not the transact's own deadline; neither the
take mode nor the destination amount matters. -/
theorem processCancelIx_refunds {E : Env} (hE : E.Secure) {now : Int64}
    {accounts : AccountIterator} {data : List UInt8} {cpi : Cpi} {t : TransactIxData}
    {op : TxOpening} (h : processCancelIx E now accounts data = .ok cpi)
    (ht : cpi.Transact E.runtime t) (hspp : SppCommits E.crypto t op) :
    ∃ T order refund maker ix, Refunds E.crypto op T order refund ∧
      accounts[1]? = some maker ∧ maker.isSigner = true ∧
      (∃ n, E.crypto.ownerHash maker.address n = some T.makerOwnerHash) ∧
      E.cancelIxData data = some ix ∧ ix.transact = t ∧
      T.expiry.val = ix.orderExpiry.toNat ∧ 0 ≤ now.toInt ∧ T.expiry.val < now.toInt := by
  obtain ⟨w, maker, ix, hw, hmaker, hsigner, hix, hixt, hp, hexpiry, hid, hnow, hafter⟩ :=
    processCancelIx_sound hE h ht
  have hval : w.order.expiry.val = ix.orderExpiry.toNat := by rw [hexpiry, Fr.val_ofU64]
  have howner : E.crypto.ownerHash maker.address w.makerNullifierPk =
      some w.order.makerOwnerHash := Crypto.ownerHash_eq_some.mpr ⟨_, hid, hw.maker⟩
  refine ⟨w.order, w.orderUtxo, w.sourceOutput, maker, ix, hw.refunds hE.ideal hp hspp, hmaker,
    hsigner, ⟨_, howner⟩, hix, hixt, hval, hnow, ?_⟩
  omega

open Sample in
theorem Sample.cancel_ok :
    processCancelIx env 150 (accounts [maker, maker, maker]) (data 2) = .ok (cpi [maker] 2) := by
  refine processCancelIx_eq_ok.mpr ⟨⟨maker, true, true⟩, ⟨maker, true, true⟩, accounts [maker], 11,
    ⟨plainProof, 100, cancelTransact⟩, Fr.toBytes 1024, rfl, rfl, rfl, rfl, by decide, rfl,
    by decide, by decide, verify rfl (Fr.ofBytes_toBytes 1024) ?_, ?_⟩
  · exact ⟨⟨⟨1024, 502⟩, terms 0, order, refund, 11, 1001, 52⟩, rfl, by decide⟩
  · exact forward_eq_ok.mpr ⟨data 2, by decide, by decide, by decide, rfl⟩

open Sample in
theorem processCancelIx_refunds_sample :
    ∃ T order refund maker ix, Refunds crypto cancelOpening T order refund ∧
      (accounts [Sample.maker, Sample.maker, Sample.maker])[1]? = some maker ∧
      maker.isSigner = true ∧
      (∃ n, crypto.ownerHash maker.address n = some T.makerOwnerHash) ∧
      env.cancelIxData (data 2) = some ix ∧ ix.transact = cancelTransact ∧
      T.expiry.val = ix.orderExpiry.toNat ∧ 0 ≤ (150 : Int64).toInt ∧
      T.expiry.val < (150 : Int64).toInt :=
  processCancelIx_refunds env_secure cancel_ok rfl (by decide)

end Zolana.Swap
