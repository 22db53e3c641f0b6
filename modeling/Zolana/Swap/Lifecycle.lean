import Zolana.Swap.Confinement

set_option autoImplicit false

/-! # The life of an order over a run

Two invariants of the swap program over every run of the system.

The two windows of an order exclude each other for good. A take reads the expiry from the
transact, a cancel from its own instruction data, and the public input of the proof ties
both to the expiry that the order commits. So a take of terms `T` happens while the clock is
at most `T.expiry` and a cancel once it is past it, and the clock never runs backwards.

Every UTXO of the order authority that carries data is a well-formed order. Only a make
creates one, since the outputs of the three settling instructions carry no data; `cancel`
never checks the terms, and does not have to.
-/

namespace Zolana.Swap

variable {E : Env} {T : OrderTerms} {s s' : State} {e : Event}

/-! ## The two windows -/

/-- The event spends an order that commits the terms. -/
def SpendsOrder (E : Env) (T : OrderTerms) (e : Event) : Prop :=
  ∃ u ∈ e.spent, T.hash E.crypto = some u.dataHash

/-- The event is a take, on either rail, of an order that commits the terms. -/
def Takes (E : Env) (T : OrderTerms) (e : Event) : Prop :=
  (e.tag = some Tag.take ∨ e.tag = some Tag.takeVerifiableEncryption) ∧ SpendsOrder E T e

/-- The event is a cancel of an order that commits the terms. -/
def Cancels (E : Env) (T : OrderTerms) (e : Event) : Prop :=
  e.tag = some Tag.cancel ∧ SpendsOrder E T e

/-- A take of the terms happens until their expiry. -/
theorem Takes.window (hE : E.Secure) (h : (program E).Step s e s') (ht : Takes E T e) :
    ∃ now, e.now = some now ∧ s.clock ≤ now ∧ now.toInt ≤ T.expiry.val := by
  obtain ⟨htag, u, hu, hT⟩ := ht
  cases h with
  | @instruction now accounts data cpi t op hclock hprocess hread hspp =>
      refine ⟨now, rfl, hclock, ?_⟩
      have hok : processInstruction E ID now accounts data = .ok cpi := hprocess
      obtain ⟨-, payload, hcase⟩ := processInstruction_eq_ok.mp hok
      rcases hcase with ⟨rfl, -⟩ | ⟨rfl, htake⟩ | ⟨rfl, -⟩ | ⟨rfl, htake⟩
      · have h0 : some Tag.make = some Tag.take ∨
            some Tag.make = some Tag.takeVerifiableEncryption := htag
        exact absurd h0 (by decide)
      · obtain ⟨T', _, _, _, _, hx, -, hexpiry⟩ :=
          processTakeIx_exchange hE htake hread hspp.commits
        obtain ⟨⟨-, hle⟩, -⟩ := processTakeIx_sound hE htake hread
        obtain ⟨-, -, -, -, heq, -, -⟩ := hx.eq_order_of_hash hE.ideal hu hT
        rw [← heq, hexpiry, Fr.val_ofU64]
        exact hle
      · have h0 : some Tag.cancel = some Tag.take ∨
            some Tag.cancel = some Tag.takeVerifiableEncryption := htag
        exact absurd h0 (by decide)
      · obtain ⟨T', _, _, _, _, hx, -, hexpiry, -⟩ :=
          processTakeVerifiableEncryptionIx_exchange hE htake hread hspp.commits
        obtain ⟨⟨-, hle⟩, -⟩ := processTakeVerifiableEncryptionIx_sound hE htake hread
        obtain ⟨-, -, -, -, heq, -, -⟩ := hx.eq_order_of_hash hE.ideal hu hT
        rw [← heq, hexpiry, Fr.val_ofU64]
        exact hle
  | transact _ _ => rcases htag with h0 | h0 <;> cases h0
  | deposit _ => rcases htag with h0 | h0 <;> cases h0

/-- A cancel of the terms happens after their expiry. -/
theorem Cancels.window (hE : E.Secure) (h : (program E).Step s e s') (hc : Cancels E T e) :
    ∃ now, e.now = some now ∧ s'.clock = now ∧ T.expiry.val < now.toInt := by
  obtain ⟨htag, u, hu, hT⟩ := hc
  cases h with
  | @instruction now accounts data cpi t op hclock hprocess hread hspp =>
      refine ⟨now, rfl, rfl, ?_⟩
      have hok : processInstruction E ID now accounts data = .ok cpi := hprocess
      obtain ⟨-, payload, hcase⟩ := processInstruction_eq_ok.mp hok
      rcases hcase with ⟨rfl, -⟩ | ⟨rfl, -⟩ | ⟨rfl, hcancel⟩ | ⟨rfl, -⟩
      · exact absurd htag (by decide : some Tag.make ≠ some Tag.cancel)
      · exact absurd htag (by decide : some Tag.take ≠ some Tag.cancel)
      · obtain ⟨T', order, refund, _, hr, -, -, -, -, hlt⟩ :=
          processCancelIx_sendsBack hE hcancel hread hspp.commits
        have hspent : u ∈ op.spent := hu
        rw [hr.spent, List.mem_singleton] at hspent
        subst hspent
        obtain ⟨-, -, -, heq, -, -⟩ := OrderTerms.hash_inj hE.ideal.poseidon hr.carriesTerms.dataHash hT
        rw [← heq]
        exact hlt
      · exact absurd htag (by decide : some Tag.takeVerifiableEncryption ≠ some Tag.cancel)
  | transact _ _ => cases htag
  | deposit _ => cases htag

/-- At every clock value from 0 on exactly one of the two windows is open, before that
neither. -/
theorem windows_exclusive (now : Int64) (expiry : UInt64) :
    (0 ≤ now.toInt → Xor (checkWithinWindow now expiry = .ok ())
      (checkAfterWindow now expiry = .ok ())) ∧
    (now.toInt < 0 → checkWithinWindow now expiry ≠ .ok () ∧
      checkAfterWindow now expiry ≠ .ok ()) := by
  have hwithin : checkWithinWindow now expiry = .ok () ↔
      0 ≤ now.toInt ∧ now.toInt ≤ (expiry.toNat : ℤ) := withinWindow_eq_ok
  have hafter : checkAfterWindow now expiry = .ok () ↔
      0 ≤ now.toInt ∧ (expiry.toNat : ℤ) < now.toInt := afterWindow_eq_ok
  constructor
  · intro hnow
    rw [hwithin, hafter]
    by_cases hle : now.toInt ≤ (expiry.toNat : ℤ)
    · exact .inl ⟨⟨hnow, hle⟩, by omega⟩
    · exact .inr ⟨⟨hnow, by omega⟩, by omega⟩
  · intro hnow
    rw [Ne, Ne, hwithin, hafter]
    constructor
    · omega
    · omega

/-- No take of the terms follows a cancel of them. -/
theorem pairwise_not_takes (hE : E.Secure) {tr : List Event} (T : OrderTerms)
    (hrun : (program E).Runs s tr s') :
    tr.Pairwise fun d e => Cancels E T d → ¬Takes E T e := by
  -- a cancel leaves the clock past the expiry, where it stays
  refine hrun.pairwise (fun d s => Cancels E T d → (T.expiry.val : ℤ) < s.clock.toInt)
    ?_ ?_ ?_
  · intro s e s' hstep hcancel
    obtain ⟨now, -, hclock, hlt⟩ := hcancel.window hE hstep
    rw [hclock]
    exact hlt
  · intro d s e s' hmark hstep hcancel
    have hlt : (T.expiry.val : ℤ) < s.clock.toInt := hmark hcancel
    have hle : s.clock.toInt ≤ s'.clock.toInt := Int64.le_iff_toInt_le.mp hstep.clock_le
    omega
  · intro d s e s' hmark hstep hcancel htake
    have hlt : (T.expiry.val : ℤ) < s.clock.toInt := hmark hcancel
    obtain ⟨now, -, hclock, hle⟩ := htake.window hE hstep
    have hnow : s.clock.toInt ≤ now.toInt := Int64.le_iff_toInt_le.mp hclock
    omega

/-- **Take and cancel windows never overlap and never reopen.** In every run, for all terms:
no take and cancel of them happen at one clock value, no take follows a cancel, exactly one
window is open at a time, and no UTXO is spent twice. -/
theorem windows_never_overlap (hE : E.Secure) {clock : Int64} {tr : List Event}
    (hrun : (program E).Runs (State.init clock) tr s) (T : OrderTerms) :
    (∀ d ∈ tr, ∀ e ∈ tr, Takes E T d → Cancels E T e → d.now ≠ e.now) ∧
    tr.Pairwise (fun d e => Cancels E T d → ¬Takes E T e) ∧
    (∀ (now : Int64) (expiry : UInt64), T.expiry = Fr.ofU64 expiry →
      (0 ≤ now.toInt → Xor (checkWithinWindow now expiry = .ok ())
        (checkAfterWindow now expiry = .ok ())) ∧
      (now.toInt < 0 → checkWithinWindow now expiry ≠ .ok () ∧
        checkAfterWindow now expiry ≠ .ok ())) ∧
    (tr.flatMap Event.spent).Nodup := by
  refine ⟨?_, pairwise_not_takes hE T hrun, ?_, Program.runs_nodup_spent hrun⟩
  · intro d hd e he htake hcancel heq
    obtain ⟨_, _, s₁, s₂, -, -, hstep, -⟩ := hrun.exists_step_of_mem hd
    obtain ⟨_, _, s₃, s₄, -, -, hstep', -⟩ := hrun.exists_step_of_mem he
    obtain ⟨now, hnow, -, hle⟩ := htake.window hE hstep
    obtain ⟨now', hnow', -, hlt⟩ := hcancel.window hE hstep'
    rw [hnow, hnow', Option.some.injEq] at heq
    subst heq
    omega
  · intro now expiry _
    exact windows_exclusive now expiry

open Sample in
theorem windows_never_overlap_sample :
    Cancels env (terms 0) cancelEvent ∧ [.deposit funds, makeEvent, cancelEvent].Pairwise
        (fun d e => Cancels env (terms 0) d → ¬Takes env (terms 0) e) ∧
      ([.deposit funds, makeEvent, cancelEvent].flatMap Event.spent).Nodup := by
  obtain ⟨-, hpairwise, -, hnodup⟩ := windows_never_overlap env_secure run_make_cancel (terms 0)
  exact ⟨⟨rfl, order, by decide, by decide⟩, hpairwise, hnodup⟩

/-! ## Every order is well-formed -/

/-- SPP's rule for data: an output of the order authority that carries data needs the order
authority's signature. -/
def DataSigned (E : Env) (e : Event) : Prop :=
  ∀ u ∈ e.created, E.crypto.OwnedBy (orderAuthority E) u → u.dataHash ≠ 0 →
    orderAuthority E ∈ e.signers

/-- The UTXO opens as an order with the terms: what the circuits of both take rails and of
`cancel` ask of the order input holds. -/
structure OpensAsOrder (C : Crypto) (u : Utxo) (T : OrderTerms) : Prop where
  wellFormed : T.WellFormed
  carriesTerms : CarriesTerms C u T
  check : T.check = some ()
  take : ∀ f : Take.Core, f.order = T → f.orderUtxo = u →
    ∃ a h, f.order.makerAddressFE C = some a ∧ f.checkOrderInputUtxo C a = some h
  cancel : ∀ c : Cancel.Circuit, c.order = T → c.orderUtxo = u →
    ∃ a h, c.order.makerAddressFE C = some a ∧ c.checkOrderInputUtxo C a = some h

/-- A UTXO with a hash that carries well-formed terms opens as an order with them. -/
theorem CarriesTerms.opensAsOrder {C : Crypto} {u : Utxo} {h : Fr} (hT : CarriesTerms C u T)
    (hwf : T.WellFormed) (hu : C.utxoHash u = some h) : OpensAsOrder C u T := by
  obtain ⟨a, ha, hd⟩ := OrderTerms.hash_eq_some.mp hT.dataHash
  -- take and cancel make the same check of the order input
  have hcheck : C.checkDataUtxo u u.dataHash = some h :=
    Crypto.checkDataUtxo_eq_some.mpr ⟨hT.defaultRing, rfl, hT.amount_ne, hu⟩
  refine ⟨hwf, hT, OrderTerms.check_eq_some.mpr hwf, ?_, ?_⟩
  · rintro f rfl rfl
    exact ⟨a, h, ha, Option.bind_eq_some_iff.mpr ⟨_, hd, hcheck⟩⟩
  · rintro c rfl rfl
    exact ⟨a, h, ha, Option.bind_eq_some_iff.mpr ⟨_, hd, hcheck⟩⟩

/-- The outputs of an accepted make: the change and the order of its witness. -/
theorem processMakeIx_created (hE : E.Secure) {accounts : AccountIterator} {data : List UInt8}
    {cpi : Cpi} {t : TransactIxData} {op : TxOpening}
    (h : processMakeIx E accounts data = .ok cpi) (ht : cpi.Transact E.runtime t)
    (hspp : SppCommits E.crypto t op) :
    ∃ w : Make.Circuit, w.Satisfied E.crypto ∧ op.created = [w.change, w.orderUtxo] := by
  obtain ⟨w, hw, hp⟩ := processMakeIx_sound hE h ht
  obtain ⟨outs, houts, hcommit⟩ := hw.privateTxHash
  exact ⟨w, hw, hspp.binds_created hE.ideal hp ⟨outs, houts, hcommit⟩⟩

/-- The order that a make's witness describes opens as an order. -/
theorem Make.Circuit.Satisfied.opensAsOrder {C : Crypto} {w : Make.Circuit}
    (hw : w.Satisfied C) : OpensAsOrder C w.orderUtxo w.order := by
  obtain ⟨outs, houts, -⟩ := hw.privateTxHash
  simp only [List.mapM_cons, List.mapM_nil, Option.bind_eq_bind, Option.bind_eq_some_iff,
    Option.pure_def, Option.some.injEq] at houts
  obtain ⟨_, -, _, ⟨h, hh, -⟩, -⟩ := houts
  exact hw.order.opensAsOrder hw.wellFormed hh

/-- What an accepted instruction creates either carries no data or opens as an order. -/
theorem created_dataless_or_opensAsOrder (hE : E.Secure) {now : Int64}
    {accounts : AccountIterator} {data : List UInt8} {cpi : Cpi} {t : TransactIxData}
    {op : TxOpening} (h : (program E).Accepts s now accounts data cpi t op) {u : Utxo}
    (hu : u ∈ op.created) : u.Dataless ∨ ∃ T, OpensAsOrder E.crypto u T := by
  have hprocess : processInstruction E ID now accounts data = .ok cpi := h.process
  have hspp : SppCommits E.crypto t op := h.spp.commits
  have hread : cpi.Transact E.runtime t := h.transact
  obtain ⟨-, payload, hcase⟩ := processInstruction_eq_ok.mp hprocess
  rcases hcase with ⟨-, hmake⟩ | ⟨-, htake⟩ | ⟨-, hcancel⟩ | ⟨-, htake⟩
  · obtain ⟨w, hw, hcreated⟩ := processMakeIx_created hE hmake hread hspp
    rw [hcreated, List.mem_cons, List.mem_singleton] at hu
    rcases hu with rfl | rfl
    · exact .inl hw.change
    · exact .inr ⟨w.order, hw.opensAsOrder⟩
  · obtain ⟨_, _, _, _, _, hx, -, -⟩ := processTakeIx_exchange hE htake hread hspp
    exact .inl (hx.created_dataless hu)
  · obtain ⟨_, _, _, _, hr, -⟩ := processCancelIx_sendsBack hE hcancel hread hspp
    rw [hr.created, List.mem_singleton] at hu
    subst hu
    exact .inl hr.refund_pays.dataless
  · obtain ⟨_, _, _, _, _, hx, -, -, -⟩ :=
      processTakeVerifiableEncryptionIx_exchange hE htake hread hspp
    exact .inl (hx.created_dataless hu)

/-- A step creates no other UTXO of the order authority with data than an order. -/
theorem opensAsOrder_of_created (hE : E.Secure) (h : (program E).Step s e s')
    (hsigned : DataSigned E e) {u : Utxo} (hu : u ∈ e.created)
    (howned : E.crypto.OwnedBy (orderAuthority E) u) (hdata : u.dataHash ≠ 0) :
    ∃ T, OpensAsOrder E.crypto u T := by
  have hauthority : orderAuthority E ∈ e.signers := hsigned u hu howned hdata
  cases h with
  | @instruction now accounts data cpi t op hclock hprocess hread hspp =>
      have hacc : (program E).Accepts s now accounts data cpi t op :=
        ⟨hclock, hprocess, hread, hspp⟩
      rcases created_dataless_or_opensAsOrder hE hacc hu with hplain | horder
      · exact absurd hplain.1 hdata
      · exact horder
  | transact hnot _ => exact absurd hauthority hnot
  | deposit _ => cases hauthority

/-- **Every order on the ledger is well-formed.** In every state that a run from the empty
ledger reaches, an unspent UTXO of the order authority that carries data commits well-formed
terms and passes every check that the settling circuits make on the order input. -/
theorem ledger_orders_wellFormed (hE : E.Secure) {clock : Int64} {tr : List Event}
    (hrun : (program E).Runs (State.init clock) tr s) (hsigned : ∀ e ∈ tr, DataSigned E e)
    {u : Utxo} (hu : u ∈ s.ledger.unspent) (howned : E.crypto.OwnedBy (orderAuthority E) u)
    (hdata : u.dataHash ≠ 0) : ∃ T, OpensAsOrder E.crypto u T := by
  have hleaf : u ∈ s.ledger.leaves := (Ledger.mem_unspent.mp hu).1
  rcases (Program.actsOn.mem_leaves hrun).mp hleaf with hinit | ⟨e, he, hcreated⟩
  · cases hinit
  · obtain ⟨_, _, s₁, s₂, -, -, hstep, -⟩ := hrun.exists_step_of_mem he
    exact opensAsOrder_of_created hE hstep (hsigned e he) hcreated howned hdata

open Sample in
theorem ledger_orders_wellFormed_sample :
    order ∈ orderLedger.unspent ∧ ∃ T, OpensAsOrder crypto order T := by
  have hu : order ∈ orderLedger.unspent := by
    rw [Ledger.mem_unspent]
    exact ⟨by decide, by decide⟩
  have hsigned : ∀ e ∈ [.deposit funds, makeEvent], DataSigned env e := by
    simp only [List.forall_mem_cons, List.not_mem_nil, false_implies, implies_true, and_true]
    constructor
    · intro v hv _ hdata
      obtain rfl : v = funds := List.mem_singleton.mp hv
      exact absurd rfl hdata
    · intro _ _ _ _
      exact List.mem_append_right _ (List.mem_singleton.mpr rfl)
  exact ⟨hu, ledger_orders_wellFormed env_secure run_make hsigned hu ⟨1000, by decide⟩
    (by decide)⟩

end Zolana.Swap
