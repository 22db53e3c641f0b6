import Zolana.Spp.Custody
import Zolana.Swap.Lifecycle

set_option autoImplicit false

/-! # Orders in custody

The swap program as a custodian. What it locks are the UTXOs of the order authority that carry
data; what releases one is a take on the rail that the terms select, until the expiry and at
the committed price, or a cancel by the maker past it. So every run of the system is one of an
order book that knows nothing of proofs, hashes or accounts, and every order is still open or
was settled exactly once, as its terms say.
-/

namespace Zolana.Swap

variable {E : Env} {C : Crypto} {T T' : OrderTerms} {order u : Utxo}

/-! ## The order book -/

/-- How an order is settled. -/
inductive Settlement
  | take (payment source destination : Utxo)
  | takeVerifiableEncryption (payment source destination : Utxo)
  | cancel (maker : Address) (refund : Utxo)

/-- At the clock value the order is exchanged for its price. -/
structure Fills (T : OrderTerms) (order : Utxo) (now : ℤ) (payment source destination : Utxo) :
    Prop where
  nonneg : 0 ≤ now
  window : now ≤ T.expiry.val
  payment_pays : Pays payment T.destinationAsset T.destinationAmount payment.owner
  source_pays : Pays source order.asset order.amount payment.owner
  destination_pays : Pays destination T.destinationAsset T.destinationAmount T.makerOwnerHash

/-- At the clock value the order goes back to its maker. -/
structure Returns (C : Crypto) (T : OrderTerms) (order : Utxo) (now : ℤ) (maker : Address)
    (refund : Utxo) : Prop where
  window : T.expiry.val < now
  maker : ∃ n, C.ownerHash maker n = some T.makerOwnerHash
  refund_pays : Pays refund order.asset order.amount T.makerOwnerHash

namespace Settlement

/-- The settlement does what the terms say. -/
def Honours (C : Crypto) (T : OrderTerms) (order : Utxo) (now : ℤ) : Settlement → Prop
  | .take payment source destination =>
      T.takeMode = takeModeDerived ∧ Fills T order now payment source destination
  | .takeVerifiableEncryption payment source destination =>
      T.takeMode = takeModeVerifiable ∧ (∃ n, C.poseidon [T.takerPkFe, n] = some payment.owner) ∧
        Fills T order now payment source destination
  | .cancel maker refund => Returns C T order now maker refund

/-- The event is an instruction that settles the order in this way, signed by the owner of the
payment or by the maker. -/
def DoneBy (C : Crypto) (e : Event) (order : Utxo) : Settlement → Prop
  | .take payment source destination =>
      e.tag = some Tag.take ∧ e.spent = [order, payment] ∧ e.created = [source, destination] ∧
        ∃ signer ∈ e.signers, C.OwnedBy signer payment
  | .takeVerifiableEncryption payment source destination =>
      e.tag = some Tag.takeVerifiableEncryption ∧ e.spent = [order, payment] ∧
        e.created = [source, destination] ∧ ∃ signer ∈ e.signers, C.OwnedBy signer payment
  | .cancel maker refund =>
      e.tag = some Tag.cancel ∧ e.spent = [order] ∧ e.created = [refund] ∧
        maker ∈ e.accountSigners

/-- What a settlement has to do depends on the hash of the terms only. -/
theorem Honours.of_hash (hC : C.Ideal) {now : ℤ} {d : Settlement}
    (hT : T.hash C = some order.dataHash) (hT' : T'.hash C = some order.dataHash)
    (h : d.Honours C T order now) : d.Honours C T' order now := by
  obtain ⟨hasset, hamount, hmaker, hexpiry, htaker, hmode⟩ :=
    OrderTerms.hash_inj hC.poseidon hT hT'
  have hfills : ∀ {payment source destination}, Fills T order now payment source destination →
      Fills T' order now payment source destination := by
    rintro payment source destination ⟨hnow, hle, hpayment, hsource, hdestination⟩
    rw [hexpiry] at hle
    rw [hasset, hamount] at hpayment hdestination
    rw [hmaker] at hdestination
    exact ⟨hnow, hle, hpayment, hsource, hdestination⟩
  cases d with
  | take payment source destination =>
      obtain ⟨hmode', hfill⟩ := h
      exact ⟨hmode ▸ hmode', hfills hfill⟩
  | takeVerifiableEncryption payment source destination =>
      obtain ⟨hmode', howner, hfill⟩ := h
      exact ⟨hmode ▸ hmode', htaker ▸ howner, hfills hfill⟩
  | cancel maker refund =>
      obtain ⟨hlt, howner, hpays⟩ := h
      rw [hexpiry] at hlt
      rw [hmaker] at howner hpays
      exact ⟨hlt, howner, hpays⟩

end Settlement

/-- The swap program as a keeper of orders. -/
def orderKeeper (E : Env) : Keeper Settlement where
  toProgram := program E
  custody := ⟨fun order d now => ∃ T, CarriesTerms E.crypto order T ∧ d.Honours E.crypto T order now⟩
  settles e order d := d.DoneBy E.crypto e order
  admits e := DataSigned E e ∧ SparesOrders E e

/-! ## Every step keeps the orders -/

/-- A make that spares the orders locks one. -/
theorem spares_of_make {ledger : Ledger Utxo} {now : Int64} {accounts : AccountIterator}
    {payload data : List UInt8} {cpi : Cpi} {t : TransactIxData} {op : TxOpening} (hE : E.Secure)
    (h : processMakeIx E accounts payload = .ok cpi) (ht : cpi.Transact E.runtime t)
    (hspp : SppAccepts E.crypto ledger cpi.signers t op) (hdata : data = Tag.make :: payload)
    (hspares : SparesOrders E (.instruction now accounts data cpi t op)) :
    (orderKeeper E).Spares (.instruction now accounts data cpi t op) := by
  obtain ⟨w, hw, hcreated⟩ := processMakeIx_created hE h ht hspp.commits
  refine Program.spares_of_created ?_ hcreated hw.change
  rintro u hu ⟨howned, hne⟩
  exact hne (hspares (by rw [hdata]; rfl) u hu howned)

/-- The order of an exchange is the only input that can be locked. -/
theorem Exchange.eq_order_of_locked {op : TxOpening} {payment source destination : Utxo}
    (h : Exchange E.crypto op T order payment source destination) (hu : u ∈ op.spent)
    (hlocked : (program E).Locks u) : u = order := by
  rw [h.spent, List.mem_cons, List.mem_singleton] at hu
  rcases hu with rfl | rfl
  · rfl
  · exact absurd h.payment_pays.dataless hlocked.not_dataless

/-- **The program keeps its orders.** Every step settles nothing, or one order as its terms
say. -/
theorem keeps_orders (hE : E.Secure) : (orderKeeper E).Keeps where
  step := by
    rintro s e s' hstep ⟨hsigned, hspares⟩
    cases hstep with
    | transact hnot hspp =>
        exact .inl (Program.Step.spares_of_direct hE.ideal (.transact hnot hspp) hsigned (by simp))
    | deposit u =>
        exact .inl (Program.Step.spares_of_direct (s := s) hE.ideal (.deposit u) hsigned (by simp))
    | @instruction now accounts data cpi t op hclock hprocess hread hspp =>
        have hok : processInstruction E ID now accounts data = .ok cpi := hprocess
        obtain ⟨-, payload, hcase⟩ := processInstruction_eq_ok.mp hok
        rcases hcase with ⟨hdata, hmake⟩ | ⟨rfl, htake⟩ | ⟨rfl, hcancel⟩ | ⟨rfl, htake⟩
        · exact .inl (spares_of_make hE hmake hread hspp hdata hspares)
        · obtain ⟨T, order, payment, source, destination, hx, hmode, hexpiry⟩ :=
            processTakeIx_exchange hE htake hread hspp.commits
          obtain ⟨⟨hnow, hle⟩, -⟩ := processTakeIx_sound hE htake hread
          have hwindow : now.toInt ≤ T.expiry.val := by
            rw [hexpiry, Fr.val_ofU64]
            exact hle
          have hsigner := hspp.exists_signer (by rw [hx.spent]; simp : payment ∈ op.spent)
          have hhonours : (Settlement.take payment source destination).Honours E.crypto T order
              now.toInt :=
            ⟨hmode, hnow, hwindow, hx.payment_pays, hx.source_pays, hx.destination_pays⟩
          have hmem : order ∈ op.spent := hx.spent ▸ List.mem_cons_self
          exact Keeper.spares_or_settled rfl hmem
            (fun _ => hx.eq_order_of_locked) (fun _ => hx.created_dataless)
            ⟨T, hx.carriesTerms, hhonours⟩ ⟨rfl, hx.spent, hx.created, hsigner⟩
        · obtain ⟨T, order, refund, maker, hr, hmaker, hsigner, howner, -, hlt⟩ :=
            processCancelIx_sendsBack hE hcancel hread hspp.commits
          have hsigners : maker.address ∈ (accounts.filter (·.isSigner)).map (·.address) :=
            List.mem_map_of_mem (List.mem_filter.mpr ⟨List.mem_of_getElem? hmaker, hsigner⟩)
          have hhonours : (Settlement.cancel maker.address refund).Honours E.crypto T order
              now.toInt := ⟨hlt, howner, hr.refund_pays⟩
          have hmem : order ∈ op.spent := hr.spent ▸ List.mem_cons_self
          refine Keeper.spares_or_settled rfl hmem ?_ ?_
            ⟨T, hr.carriesTerms, hhonours⟩ ⟨rfl, hr.spent, hr.created, hsigners⟩
          · intro u hu _
            have hu : u ∈ op.spent := hu
            rw [hr.spent] at hu
            exact List.mem_singleton.mp hu
          · intro u hu
            have hu : u ∈ op.created := hu
            rw [hr.created, List.mem_singleton] at hu
            subst hu
            exact hr.refund_pays.dataless
        · obtain ⟨T, order, payment, source, destination, hx, hmode, hexpiry, howner⟩ :=
            processTakeVerifiableEncryptionIx_exchange hE htake hread hspp.commits
          obtain ⟨⟨hnow, hle⟩, -⟩ := processTakeVerifiableEncryptionIx_sound hE htake hread
          have hwindow : now.toInt ≤ T.expiry.val := by
            rw [hexpiry, Fr.val_ofU64]
            exact hle
          have hsigner := hspp.exists_signer (by rw [hx.spent]; simp : payment ∈ op.spent)
          have hhonours : (Settlement.takeVerifiableEncryption payment source destination).Honours
              E.crypto T order now.toInt :=
            ⟨hmode, howner, hnow, hwindow, hx.payment_pays, hx.source_pays, hx.destination_pays⟩
          have hmem : order ∈ op.spent := hx.spent ▸ List.mem_cons_self
          exact Keeper.spares_or_settled rfl hmem
            (fun _ => hx.eq_order_of_locked) (fun _ => hx.created_dataless)
            ⟨T, hx.carriesTerms, hhonours⟩ ⟨rfl, hx.spent, hx.created, hsigner⟩

/-- **The program refines its order book.** Every run in which the order authority's outputs with
data have its signature and whose makes spare the orders is, event by event, a run of the custodian: an
event accepts an order, settles one as its terms permit, or does nothing to them. -/
theorem runs_refine_orderBook {s s' : State} {tr : List Event} (hE : E.Secure)
    (hrun : (program E).Runs s tr s') (hsigned : ∀ e ∈ tr, DataSigned E e)
    (hspares : ∀ e ∈ tr, SparesOrders E e) : (orderKeeper E).Custodial s tr s' :=
  (keeps_orders hE).custodial hrun fun e he => ⟨hsigned e he, hspares e he⟩

open Sample in
theorem runs_refine_orderBook_sample :
    (orderKeeper env).Custodial (State.init 0) [.deposit funds, makeEvent, cancelEvent]
      ⟨orderLedger.apply cancelOpening.spent cancelOpening.created, 150⟩ := by
  refine runs_refine_orderBook env_secure run_make_cancel ?_ ?_
  · simp only [List.forall_mem_cons, List.not_mem_nil, false_implies, implies_true, and_true]
    refine ⟨fun v hv _ hdata => ?_, fun _ _ _ _ => ?_, fun v hv _ hdata => ?_⟩
    · obtain rfl : v = funds := List.mem_singleton.mp hv
      exact absurd rfl hdata
    · exact List.mem_append_right _ (List.mem_singleton.mpr rfl)
    · obtain rfl : v = refund := List.mem_singleton.mp hv
      exact absurd rfl hdata
  · simp only [List.forall_mem_cons, List.not_mem_nil, false_implies, implies_true, and_true]
    refine ⟨fun h => absurd h (by decide), fun _ u hu _ => ?_, fun h => absurd h (by decide)⟩
    obtain rfl : u = funds := List.mem_singleton.mp hu
    rfl

end Zolana.Swap
