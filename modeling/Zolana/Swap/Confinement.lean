import Zolana.Spp.System
import Zolana.Swap.Settlement

set_option autoImplicit false

/-! # What the order authority's signature moves

The program signs every CPI with the order authority, whatever the instruction. Two
questions follow. Which instructions can consume an order? The three that settle one, but
also a make, because its circuit leaves the source input free: an order is confined to the
settling instructions as long as no make names one as its source. And what else does the
signature of a settling instruction move? Nothing in a cancel; in a take the payment, if it
happens to belong to the authority.
-/

namespace Zolana.Swap

/-! ## Confinement -/

/-- The swap program in the system. -/
def program (E : Env) : Program where
  crypto := E.crypto
  runtime := E.runtime
  authority := orderAuthority E
  process := processInstruction E ID

/-- The event is one of the three instructions that settle an order. -/
def Settles (e : Event) : Prop :=
  e.tag = some Tag.take ∨ e.tag = some Tag.takeVerifiableEncryption ∨ e.tag = some Tag.cancel

instance (e : Event) : Decidable (Settles e) := inferInstanceAs (Decidable (_ ∨ _ ∨ _))

/-- `u` is an order of the run: the authority owns it, it carries terms, and an accepted make
created it. -/
structure IsOrder (E : Env) (tr : List Event) (u : Utxo) : Prop where
  owned : E.crypto.OwnedBy (orderAuthority E) u
  carriesTerms : ∃ T, CarriesTerms E.crypto u T
  made : ∃ e ∈ tr, e.tag = some Tag.make ∧ u ∈ e.created

/-- If the event is a make, its source is no UTXO of the authority that carries data. -/
def SparesOrders (E : Env) (e : Event) : Prop :=
  e.tag = some Tag.make →
    ∀ u ∈ e.spent, E.crypto.OwnedBy (orderAuthority E) u → u.dataHash = 0

/-- An accepted instruction is a make or settles an order. -/
theorem make_or_settles {E : Env} {s : State} {now : Int64} {accounts : AccountIterator}
    {data : List UInt8} {cpi : Cpi} {t : TransactIxData} {op : TxOpening}
    (h : (program E).Accepts s now accounts data cpi t op) :
    Event.tag (.instruction now accounts data cpi t op) = some Tag.make ∨
      Settles (.instruction now accounts data cpi t op) := by
  have hprocess : processInstruction E ID now accounts data = .ok cpi := h.process
  obtain ⟨-, payload, hcase⟩ := processInstruction_eq_ok.mp hprocess
  rcases hcase with ⟨rfl, -⟩ | ⟨rfl, -⟩ | ⟨rfl, -⟩ | ⟨rfl, -⟩
  · exact .inl rfl
  · exact .inr (.inl rfl)
  · exact .inr (.inr (.inr rfl))
  · exact .inr (.inr (.inl rfl))

/-- **Orders are confined.** In a run whose makes spare the orders, an order is spent only by
a take on either rail or a cancel, and until then it stays on the ledger. -/
theorem orders_confined {E : Env} (hE : E.Secure) {clock : Int64} {tr : List Event} {s : State}
    (hrun : (program E).Runs (State.init clock) tr s) (hspares : ∀ e ∈ tr, SparesOrders E e)
    {u : Utxo} (hu : IsOrder E tr u) :
    (∀ e ∈ tr, u ∈ e.spent → Settles e) ∧
      (u ∈ s.ledger.unspent ∨ ∃ e ∈ tr, u ∈ e.spent ∧ Settles e) := by
  have hsettles : ∀ e ∈ tr, u ∈ e.spent → Settles e := by
    intro e he hspent
    obtain ⟨now, accounts, data, cpi, t, op, s₁, rfl, hacc, -⟩ :=
      Program.runs_accepts_of_owned hE.ideal hrun he hspent hu.owned
    rcases make_or_settles hacc with hmake | hsettle
    · -- the one instruction that leaves its input free
      obtain ⟨T, hT⟩ := hu.carriesTerms
      have hzero : u.dataHash = 0 := hspares _ he hmake u hspent hu.owned
      exact absurd hzero (OrderTerms.hash_ne_zero hE.ideal hT.dataHash)
    · exact hsettle
  refine ⟨hsettles, ?_⟩
  obtain ⟨e, he, -, hcreated⟩ := hu.made
  rcases Program.runs_unspent_or_spent hrun he hcreated with hunspent | ⟨e', he', hspent⟩
  · exact .inl hunspent
  · exact .inr ⟨e', he', hspent, hsettles e' he' hspent⟩

/-! Two runs of the sample environment. In both the maker deposits 8 units and makes an order
over 7 of them; then the maker cancels it, or the taker makes it the source of a new order. -/

namespace Sample

/-- The terms that the taker commits to. -/
def takerTerms : OrderTerms := { terms 0 with makerOwnerHash := takerOwner }

def makeEvent : Event :=
  .instruction 10 (accounts [maker, maker]) (Tag.make :: data 3) (cpi [maker] 4)
    (makeTransact makeMarker) makeOpening

def cancelEvent : Event :=
  .instruction 150 (accounts [maker, maker, maker]) (Tag.cancel :: data 2) (cpi [maker] 2)
    cancelTransact cancelOpening

def remakeEvent : Event :=
  .instruction 20 (accounts [taker, taker]) (Tag.make :: data 5) (cpi [taker] 6)
    (remakeTransact remakeMarker) remakeOpening

/-- The ledger once the order is made. -/
def orderLedger : Ledger Utxo :=
  (Ledger.empty.apply [] [funds]).apply makeOpening.spent makeOpening.created

theorem make_ok : processMakeIx env (accounts [maker, maker]) (data 3) = .ok (cpi [maker] 4) := by
  refine processMakeIx_eq_ok.mpr ⟨⟨maker, true, true⟩, accounts [maker],
    ⟨plainProof, makeTransact []⟩, makeTransact makeMarker, rfl, rfl, rfl, rfl,
    verify rfl (by decide : Fr.ofBytes _ = some 503) ?_, by decide, ?_⟩
  · exact ⟨⟨503, terms 0, order, change, 100, 53⟩, rfl, by decide⟩
  · exact forward_eq_ok.mpr ⟨data 4, by decide, by decide, by decide, rfl⟩

theorem remake_ok :
    processMakeIx env (accounts [taker, taker]) (data 5) = .ok (cpi [taker] 6) := by
  refine processMakeIx_eq_ok.mpr ⟨⟨taker, true, true⟩, accounts [taker],
    ⟨plainProof, remakeTransact []⟩, remakeTransact remakeMarker, rfl, rfl, rfl, rfl,
    verify rfl (by decide : Fr.ofBytes _ = some 504) ?_, by decide, ?_⟩
  · exact ⟨⟨504, takerTerms, redirectedOrder, redirectedChange, 102, 54⟩, rfl,
      by decide⟩
  · exact forward_eq_ok.mpr ⟨data 6, by decide, by decide, by decide, rfl⟩

theorem run_make :
    (program env).Runs (State.init 0) [.deposit funds, makeEvent] ⟨orderLedger, 10⟩ := by
  have hdeposit : (program env).Runs (State.init 0) [.deposit funds]
      ⟨Ledger.empty.apply [] [funds], 0⟩ := .snoc (.nil _) (.deposit funds)
  have hmake : processInstruction env ID 10 (accounts [maker, maker]) (Tag.make :: data 3) =
      .ok (cpi [maker] 4) := processInstruction_eq_ok.mpr ⟨rfl, data 3, .inl ⟨rfl, make_ok⟩⟩
  exact .snoc hdeposit (.instruction (by decide) hmake rfl (by decide))

theorem run_make_cancel :
    (program env).Runs (State.init 0) [.deposit funds, makeEvent, cancelEvent]
      ⟨orderLedger.apply cancelOpening.spent cancelOpening.created, 150⟩ := by
  have hcancel : processInstruction env ID 150 (accounts [maker, maker, maker])
      (Tag.cancel :: data 2) = .ok (cpi [maker] 2) :=
    processInstruction_eq_ok.mpr ⟨rfl, data 2, .inr (.inr (.inl ⟨rfl, cancel_ok⟩))⟩
  exact .snoc run_make (.instruction (by decide) hcancel rfl (by decide))

theorem run_make_remake :
    (program env).Runs (State.init 0) [.deposit funds, makeEvent, remakeEvent]
      ⟨orderLedger.apply remakeOpening.spent remakeOpening.created, 20⟩ := by
  have hremake : processInstruction env ID 20 (accounts [taker, taker]) (Tag.make :: data 5) =
      .ok (cpi [taker] 6) := processInstruction_eq_ok.mpr ⟨rfl, data 5, .inl ⟨rfl, remake_ok⟩⟩
  exact .snoc run_make (.instruction (by decide) hremake rfl (by decide))

theorem order_carriesTerms : CarriesTerms crypto order (terms 0) :=
  ⟨⟨rfl, rfl⟩, by decide, by decide⟩

theorem isOrder (tr : List Event) : IsOrder env (.deposit funds :: makeEvent :: tr) order where
  owned := ⟨1000, by decide⟩
  carriesTerms := ⟨terms 0, order_carriesTerms⟩
  made := ⟨makeEvent, by simp, rfl, by decide⟩

end Sample

open Sample in
theorem orders_confined_sample :
    (∀ e ∈ [.deposit funds, makeEvent, cancelEvent], order ∈ e.spent → Settles e) ∧
      (order ∈ (orderLedger.apply cancelOpening.spent cancelOpening.created).unspent ∨
        ∃ e ∈ [.deposit funds, makeEvent, cancelEvent], order ∈ e.spent ∧ Settles e) := by
  have hspares : ∀ e ∈ [.deposit funds, makeEvent, cancelEvent], SparesOrders env e := by
    simp only [List.forall_mem_cons, List.not_mem_nil, false_implies, implies_true, and_true]
    refine ⟨fun h => absurd h (by decide), fun _ u hu _ => ?_, fun h => absurd h (by decide)⟩
    obtain rfl : u = funds := List.mem_singleton.mp hu
    rfl
  exact orders_confined env_secure run_make_cancel hspares (isOrder [cancelEvent])

open Sample in
/-- Without the condition on makes the orders are not confined: the program's signature lets
the taker spend the order as the source of a make, whose change is the taker's. -/
theorem not_orders_confined :
    ¬∀ E : Env, E.Secure → E.groth16.Complete (relation E.crypto) → ∀ clock tr s,
      (program E).Runs (State.init clock) tr s → ∀ u, IsOrder E tr u →
        ∀ e ∈ tr, u ∈ e.spent → Settles e := by
  intro h
  have hsettles : Settles remakeEvent :=
    h env env_secure Groth16.idealVerifier_complete 0 _ _ run_make_remake order
      (isOrder [remakeEvent]) remakeEvent (by simp) (by decide)
  exact absurd hsettles (by decide)

/-! ## What else the signature moves -/

/-- The keys other than the PDAs that sign inside the CPI: the outer signers among the
forwarded accounts. -/
def outerSigners (cpi : Cpi) : List Address :=
  (cpi.accounts.filter (·.isSigner)).map (·.address)

/-- Of the inputs of the transact, the authority owns at most the order. -/
def MovesOnly (E : Env) (op : TxOpening) (order : Utxo) : Prop :=
  ∀ u ∈ op.spent, E.crypto.OwnedBy (orderAuthority E) u → u = order

/-- In an exchange the order is the only input of the authority unless the payment belongs to
it too. -/
theorem Exchange.movesOnly_iff {E : Env} (hE : E.Secure) {op : TxOpening} {T : OrderTerms}
    {order payment source destination : Utxo}
    (h : Exchange E.crypto op T order payment source destination) :
    MovesOnly E op order ↔ ¬E.crypto.OwnedBy (orderAuthority E) payment := by
  have hne : payment ≠ order := by
    rintro rfl
    exact h.carriesTerms.not_dataless hE.ideal h.payment_pays.dataless
  unfold MovesOnly
  rw [h.spent]
  constructor
  · intro hall howned
    exact hne (hall payment (by simp) howned)
  · intro hnot u hu howned
    rcases List.mem_cons.mp hu with rfl | hu
    · rfl
    · obtain rfl := List.mem_singleton.mp hu
      exact absurd howned hnot

/-- The owner of an input is an outer signer or the authority, and not both. -/
theorem not_owned_iff_exists_outerSigner {E : Env} (hE : E.Secure) {ledger : Ledger Utxo}
    {cpi : Cpi} {t : TransactIxData} {op : TxOpening}
    (hpda : cpi.pdaSigners = [orderAuthority E])
    (hspp : SppAccepts E.crypto ledger cpi.signers t op) {u : Utxo} (hu : u ∈ op.spent) :
    ¬E.crypto.OwnedBy (orderAuthority E) u ↔
      ∃ s ∈ outerSigners cpi, s ≠ orderAuthority E ∧ E.crypto.OwnedBy s u := by
  constructor
  · intro hnot
    obtain ⟨s, hs, hown⟩ := hspp.exists_signer hu
    have hne : s ≠ orderAuthority E := by
      rintro rfl
      exact hnot hown
    rw [Cpi.signers, hpda, List.mem_append, List.mem_singleton] at hs
    rcases hs with houter | hauthority
    · exact ⟨s, houter, hne, hown⟩
    · exact absurd hauthority hne
  · rintro ⟨s, -, hne, hown⟩ howned
    exact hne (hE.ideal.ownedBy_unique hown howned)

/-- A UTXO with a tagged owner belongs to the authority exactly if the tag is the authority's
identity. -/
theorem owned_iff_identity {E : Env} (hE : E.Secure) {u : Utxo} {pkField n : Fr}
    (howner : E.crypto.poseidon [pkField, n] = some u.owner) :
    E.crypto.OwnedBy (orderAuthority E) u ↔
      E.crypto.solanaOwnerIdentity (orderAuthority E) = some pkField := by
  constructor
  · rintro ⟨m, hm⟩
    obtain ⟨pk, hpk, hhash⟩ := Crypto.ownerHash_eq_some.mp hm
    have hlist := hE.ideal.poseidon hhash howner
    simp only [List.cons.injEq] at hlist
    rw [hpk, hlist.1]
  · intro hpk
    exact ⟨n, Crypto.ownerHash_eq_some.mpr ⟨pkField, hpk, howner⟩⟩

theorem pdaSigners_of_process {E : Env} {now : Int64} {accounts : AccountIterator}
    {data : List UInt8} {cpi : Cpi}
    (h : processTakeIx E now accounts data = .ok cpi ∨
      processTakeVerifiableEncryptionIx E now accounts data = .ok cpi) :
    cpi.pdaSigners = [orderAuthority E] := by
  rcases h with h | h
  · exact processInstruction_pdaSigners
      (processInstruction_eq_ok.mpr ⟨rfl, data, .inr (.inl ⟨rfl, h⟩)⟩)
  · exact processInstruction_pdaSigners
      (processInstruction_eq_ok.mpr ⟨rfl, data, .inr (.inr (.inr ⟨rfl, h⟩))⟩)

/-- **When the signature moves only the order.** A cancel moves nothing else. A derived take
moves nothing else of the authority exactly if the payment belongs to a signer of the outer
transaction, and a take with verifiable encryption exactly if the terms name a taker other
than the authority. -/
theorem signature_moves_only_order {E : Env} (hE : E.Secure) {now : Int64}
    {accounts : AccountIterator} {data : List UInt8} {cpi : Cpi} {t : TransactIxData}
    {op : TxOpening} {ledger : Ledger Utxo} (ht : cpi.Transact E.runtime t)
    (hspp : SppAccepts E.crypto ledger cpi.signers t op) :
    (processCancelIx E now accounts data = .ok cpi →
      ∃ T order refund, Refunds E.crypto op T order refund ∧ MovesOnly E op order) ∧
    (processTakeIx E now accounts data = .ok cpi →
      ∃ T order payment source destination,
        Exchange E.crypto op T order payment source destination ∧
        (MovesOnly E op order ↔
          ∃ s ∈ outerSigners cpi, s ≠ orderAuthority E ∧ E.crypto.OwnedBy s payment)) ∧
    (processTakeVerifiableEncryptionIx E now accounts data = .ok cpi →
      ∃ T order payment source destination,
        Exchange E.crypto op T order payment source destination ∧
        (MovesOnly E op order ↔
          E.crypto.solanaOwnerIdentity (orderAuthority E) ≠ some T.takerPkFe)) := by
  refine ⟨?_, ?_, ?_⟩
  · intro h
    obtain ⟨w, _, _, hw, -, -, -, -, hp, -, -, -, -⟩ := processCancelIx_sound hE h ht
    have hr : Refunds E.crypto op w.order w.orderUtxo w.sourceOutput :=
      hw.refunds hE.ideal hp hspp.commits
    refine ⟨_, _, _, hr, ?_⟩
    intro u hu _
    rw [hr.spent] at hu
    exact List.mem_singleton.mp hu
  · intro h
    obtain ⟨T, order, payment, source, destination, hx, -, -⟩ :=
      processTakeIx_exchange hE h ht hspp.commits
    have hmem : payment ∈ op.spent := by rw [hx.spent]; simp
    refine ⟨T, order, payment, source, destination, hx, ?_⟩
    rw [hx.movesOnly_iff hE]
    exact not_owned_iff_exists_outerSigner hE (pdaSigners_of_process (.inl h)) hspp hmem
  · intro h
    obtain ⟨T, order, payment, source, destination, hx, -, -, n, hn⟩ :=
      processTakeVerifiableEncryptionIx_exchange hE h ht hspp.commits
    refine ⟨T, order, payment, source, destination, hx, ?_⟩
    rw [hx.movesOnly_iff hE, owned_iff_identity hE hn]

open Sample in
theorem signature_moves_only_order_sample :
    ∃ T order payment source destination,
      Exchange crypto takeOpening T order payment source destination ∧
      (MovesOnly env takeOpening order ↔
        ∃ s ∈ outerSigners (cpi [taker] 0), s ≠ orderAuthority env ∧
          crypto.OwnedBy s payment) := by
  have hread : (cpi [taker] 0).Transact env.runtime takeTransact := rfl
  have hspp : SppAccepts crypto ⟨{order, payment}, ∅⟩ (cpi [taker] 0).signers takeTransact
      takeOpening := by decide
  exact (signature_moves_only_order env_secure hread hspp).2.1 take_ok

open Sample in
theorem Sample.authorityTake_ok :
    processTakeIx env 50 (accounts [taker]) (data 7) = .ok (cpi [] 7) := by
  refine processTakeIx_eq_ok.mpr ⟨⟨taker, true, true⟩, accounts [],
    ⟨plainProof, authorityTakeTransact⟩, ⟨Fr.toBytes 1013⟩, Fr.toBytes 1029, rfl, rfl, rfl, rfl,
    by decide, by decide, by decide, verify rfl (Fr.ofBytes_toBytes 1029) ?_, ?_⟩
  · exact ⟨⟨⟨1029, 505, 1013⟩,
      ⟨terms 0, order, authorityPayment, authoritySource, destination, 2024⟩⟩, rfl,
      by decide⟩
  · exact forward_eq_ok.mpr ⟨data 7, by decide, by decide, by decide, rfl⟩

open Sample in
/-- A take can be paid with dataless funds of the authority, which no one but the program
signs for. -/
theorem not_signature_moves_only_order :
    ¬∀ E : Env, E.Secure → ∀ ledger now accounts data cpi t op, cpi.Transact E.runtime t →
      SppAccepts E.crypto ledger cpi.signers t op → processTakeIx E now accounts data = .ok cpi →
      ∃ order ∈ op.spent, MovesOnly E op order := by
  intro h
  have hspp : SppAccepts crypto ⟨{order, authorityPayment}, ∅⟩ (cpi [] 7).signers
      authorityTakeTransact authorityTakeOpening := by decide
  obtain ⟨u, -, hmoves⟩ := h env env_secure ⟨{order, authorityPayment}, ∅⟩ 50 (accounts [taker])
    (data 7) (cpi [] 7) authorityTakeTransact authorityTakeOpening rfl hspp authorityTake_ok
  have horder : order = u := hmoves order (by decide) ⟨1000, by decide⟩
  have hpayment : authorityPayment = u :=
    hmoves authorityPayment (by decide) ⟨1000, by decide⟩
  exact absurd (horder.trans hpayment.symm) (by decide)

end Zolana.Swap
