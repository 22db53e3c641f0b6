import Zolana.Spp.Custody
import Zolana.TimelockEscrow.Timelock

set_option autoImplicit false

/-! # Escrows in custody

The escrow program as a custodian: what it locks are the UTXOs of the escrow authority that
carry data, and the one way of releasing an escrow is a withdraw by its creator past the unlock
time. An escrow cannot be settled in any other way, and not twice.
-/

namespace Zolana.TimelockEscrow

variable {E : Env} {C : Crypto} {terms terms' : EscrowTerms} {escrow u : Utxo} {s s' : State}
  {e : Event}

/-! ## The vault -/

/-- The one settlement of an escrow. -/
structure Withdrawal where
  creator : Address
  refund : Utxo

namespace Withdrawal

/-- At the clock value the escrow goes back to the owner in the terms. -/
structure Honours (C : Crypto) (terms : EscrowTerms) (escrow : Utxo) (now : ℤ) (d : Withdrawal) :
    Prop where
  unlocked : terms.unlock.val < now
  creator : ∃ n, C.ownerHash d.creator n = some terms.ownerHash
  refund_pays : Pays d.refund escrow.asset escrow.amount terms.ownerHash

/-- The event is a withdraw of the escrow, signed by the creator. -/
structure DoneBy (e : Event) (escrow : Utxo) (d : Withdrawal) : Prop where
  tag : e.tag = some Tag.withdraw
  spent : e.spent = [escrow]
  created : e.created = [d.refund]
  signed : d.creator ∈ e.accountSigners

end Withdrawal

/-- The escrow program as a keeper of escrows. -/
def escrowKeeper (E : Env) : Keeper Withdrawal where
  toProgram := program E
  custody := ⟨fun escrow d now =>
    ∃ terms, CarriesTerms E.crypto escrow terms ∧ d.Honours E.crypto terms escrow now⟩
  settles e escrow d := d.DoneBy e escrow
  admits e := (program E).DataSigned e ∧ SparesEscrows E e

/-! ## Every step keeps the escrows -/

/-- Every CPI of the program is signed by the escrow authority and by no other PDA. -/
theorem processInstruction_pdaSigners {programId : Address} {now : Int64}
    {accounts : AccountIterator} {instructionData : List UInt8} {cpi : Cpi}
    (h : processInstruction E programId now accounts instructionData = .ok cpi) :
    cpi.pdaSigners = [escrowAuthority E] := by
  have hforward : ∃ iter transact, forward E iter transact = .ok cpi := by
    obtain ⟨-, data, ⟨-, h⟩ | ⟨-, h⟩⟩ := processInstruction_eq_ok.mp h
    · obtain ⟨_, iter, ix, -, -, -, -, -, hf⟩ := processEscrowIx_eq_ok.mp h
      exact ⟨iter, ix.transact, hf⟩
    · obtain ⟨_, _, iter, _, ix, _, -, -, -, -, -, -, -, -, -, hf⟩ := processWithdrawIx_eq_ok.mp h
      exact ⟨iter, ix.transact, hf⟩
  obtain ⟨iter, transact, hf⟩ := hforward
  obtain ⟨bytes, -, -, -, rfl⟩ := forward_eq_ok.mp hf
  rfl

/-- The outputs of an accepted escrow instruction: the change and the escrow of its witness. -/
theorem processEscrowIx_created (hE : E.Secure) {accounts : AccountIterator} {data : List UInt8}
    {cpi : Cpi} {t : TransactIxData} {op : TxOpening}
    (h : processEscrowIx E accounts data = .ok cpi) (ht : cpi.Transact E.runtime t)
    (hspp : SppCommits E.crypto t op) :
    ∃ w : Escrow.Circuit, w.Satisfied E.crypto ∧ op.created = [w.change, w.escrowUtxo] := by
  obtain ⟨w, hw, hp⟩ := processEscrowIx_sound hE h ht
  obtain ⟨outs, houts, hcommit⟩ := hw.privateTxHash
  exact ⟨w, hw, hspp.binds_created hE.ideal hp ⟨outs, houts, hcommit⟩⟩

/-- An accepted withdraw sends an unlocked escrow back to its creator, whose key is the second
account and signs. -/
theorem processWithdrawIx_sendsBack (hE : E.Secure) {now : Int64} {accounts : AccountIterator}
    {data : List UInt8} {cpi : Cpi} {t : TransactIxData} {op : TxOpening}
    (h : processWithdrawIx E now accounts data = .ok cpi) (ht : cpi.Transact E.runtime t)
    (hspp : SppCommits E.crypto t op) :
    ∃ terms escrow, ∃ d : Withdrawal, Refunds E.crypto op terms escrow d.refund ∧
      d.Honours E.crypto terms escrow now.toInt ∧
      d.creator ∈ (accounts.filter (·.isSigner)).map (·.address) := by
  obtain ⟨w, creator, ix, hw, hcreator, hsigner, -, -, hp, hunlock, hid, -, hafter⟩ :=
    processWithdrawIx_sound hE h ht
  have hr : Refunds E.crypto op w.terms w.escrowUtxo w.sourceOutput := hw.refunds hE.ideal hp hspp
  refine ⟨w.terms, w.escrowUtxo, ⟨creator.address, w.sourceOutput⟩, hr,
    { unlocked := ?_
      creator := ⟨_, Crypto.ownerHash_eq_some.mpr ⟨_, hid, hw.owner⟩⟩
      refund_pays := hr.refund_pays },
    List.mem_map_of_mem (List.mem_filter.mpr ⟨List.mem_of_getElem? hcreator, hsigner⟩)⟩
  rw [hunlock, Fr.val_ofU64]
  exact hafter

/-- **The program keeps its escrows.** Every step settles nothing, or one escrow as its terms
say. -/
theorem keeps_escrows (hE : E.Secure) : (escrowKeeper E).Keeps where
  step := by
    rintro s e s' hstep ⟨hsigned, hspares⟩
    cases hstep with
    | transact hnot hspp =>
        exact .inl (Program.Step.spares_of_direct hE.ideal (.transact hnot hspp) hsigned (by simp))
    | deposit u =>
        exact .inl (Program.Step.spares_of_direct (s := s) hE.ideal (.deposit u) hsigned (by simp))
    | @instruction now accounts data cpi t op hclock hprocess hread hspp =>
        have hok : processInstruction E ID now accounts data = .ok cpi := hprocess
        obtain ⟨-, payload, hcase⟩ := processInstruction_eq_ok.mp hok
        rcases hcase with ⟨rfl, hescrow⟩ | ⟨rfl, hwithdraw⟩
        · obtain ⟨w, hw, hcreated⟩ := processEscrowIx_created hE hescrow hread hspp.commits
          refine .inl (Program.spares_of_created ?_ hcreated hw.change)
          rintro u hu ⟨howned, hne⟩
          exact hne (hspares rfl u hu howned)
        · obtain ⟨terms, escrow, d, hr, hhonours, hsigners⟩ :=
            processWithdrawIx_sendsBack hE hwithdraw hread hspp.commits
          have hmem : escrow ∈ op.spent := hr.spent ▸ List.mem_cons_self
          refine Keeper.spares_or_settled rfl hmem ?_ ?_
            ⟨terms, hr.carriesTerms, hhonours⟩ ⟨rfl, hr.spent, hr.created, hsigners⟩
          · intro u hu _
            have hu : u ∈ op.spent := hu
            rw [hr.spent] at hu
            exact List.mem_singleton.mp hu
          · intro u hu
            have hu : u ∈ op.created := hu
            rw [hr.created, List.mem_singleton] at hu
            subst hu
            exact hr.refund_pays.dataless

/-- A step creates no other UTXO of the escrow authority with data than an escrow. -/
theorem carriesTerms_of_created (hE : E.Secure) (h : (program E).Step s e s')
    (hsigned : (program E).DataSigned e) (hu : u ∈ e.created) (hlocked : (program E).Locks u) :
    ∃ terms, CarriesTerms E.crypto u terms := by
  have hauthority : escrowAuthority E ∈ e.signers := hsigned u hu hlocked.1 hlocked.2
  cases h with
  | transact hnot _ => exact absurd hauthority hnot
  | deposit _ => cases hauthority
  | @instruction now accounts data cpi t op hclock hprocess hread hspp =>
      have hok : processInstruction E ID now accounts data = .ok cpi := hprocess
      have hu : u ∈ op.created := hu
      obtain ⟨-, payload, hcase⟩ := processInstruction_eq_ok.mp hok
      rcases hcase with ⟨-, hescrow⟩ | ⟨-, hwithdraw⟩
      · obtain ⟨w, hw, hcreated⟩ := processEscrowIx_created hE hescrow hread hspp.commits
        rw [hcreated, List.mem_cons, List.mem_singleton] at hu
        rcases hu with rfl | rfl
        · exact absurd hw.change hlocked.not_dataless
        · exact ⟨w.terms, hw.escrow⟩
      · obtain ⟨terms, escrow, d, hr, -, -⟩ :=
          processWithdrawIx_sendsBack hE hwithdraw hread hspp.commits
        rw [hr.created, List.mem_singleton] at hu
        subst hu
        exact absurd hr.refund_pays.dataless hlocked.not_dataless

/-- **The program refines its vault.** Every run in which the escrow authority's outputs with data
have its signature and whose escrow instructions spare the escrows is, event by event, a run of the
custodian: an event accepts an escrow, returns one past its unlock time, or does nothing to them. -/
theorem runs_refine_vault {tr : List Event} (hE : E.Secure) (hrun : (program E).Runs s tr s')
    (hsigned : ∀ e ∈ tr, (program E).DataSigned e) (hspares : ∀ e ∈ tr, SparesEscrows E e) :
    (escrowKeeper E).Custodial s tr s' :=
  (keeps_escrows hE).custodial hrun fun e he => ⟨hsigned e he, hspares e he⟩

open Sample in
theorem runs_refine_vault_sample :
    (escrowKeeper env).Custodial (State.init 0) [.deposit funds, escrowEvent, withdrawEvent]
      ⟨escrowLedger.apply withdrawOpening.spent withdrawOpening.created, 150⟩ := by
  refine runs_refine_vault env_secure run_escrow_withdraw ?_ ?_
  · simp only [List.forall_mem_cons, List.not_mem_nil, false_implies, implies_true, and_true]
    refine ⟨fun v hv _ hdata => ?_, fun _ _ _ _ => ?_, fun v hv _ hdata => ?_⟩
    · obtain rfl : v = funds := List.mem_singleton.mp hv
      exact absurd rfl hdata
    · exact List.mem_append_right _ (List.mem_singleton.mpr rfl)
    · obtain rfl : v = refund := List.mem_singleton.mp hv
      exact absurd rfl hdata
  · simp only [List.forall_mem_cons, List.not_mem_nil, false_implies, implies_true, and_true]
    refine ⟨fun h => absurd h (by decide), fun _ u hu _ => ?_, fun h => absurd h (by decide)⟩
    obtain rfl : u = funds := List.mem_singleton.mp hu
    rfl

end Zolana.TimelockEscrow
