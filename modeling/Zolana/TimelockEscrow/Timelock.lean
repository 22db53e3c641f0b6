import Zolana.Spp.System
import Zolana.TimelockEscrow.Program

set_option autoImplicit false

/-! # The timelock

What a withdraw pays, and when an escrow can leave the ledger. A withdraw returns exactly
the locked funds to their creator, after the unlock time. The other instruction checks no
time, is signed by the same authority and leaves its source input free; so the lock holds
over a run as long as no escrow instruction names an escrow as its source.
-/

namespace Zolana.TimelockEscrow

/-! ## Withdraw -/

/-- What a withdraw does: the escrow alone goes in, and all of it to the owner in the terms. -/
structure Refunds (C : Crypto) (op : TxOpening) (terms : EscrowTerms) (escrow refund : Utxo) :
    Prop where
  carriesTerms : CarriesTerms C escrow terms
  spent : op.spent = [escrow]
  created : op.created = [refund]
  refund_pays : Pays refund escrow.asset escrow.amount terms.ownerHash

/-- The witness of `withdraw.Circuit` moves the UTXOs of the transact. -/
theorem Withdraw.Circuit.Satisfied.refunds {C : Crypto} (hC : C.Ideal) {w : Withdraw.Circuit}
    {t : TransactIxData} {op : TxOpening} (h : w.Satisfied C)
    (hd : Fr.ofBytes t.privateTxHash = some w.pub.privateTxHash) (hspp : SppCommits C t op) :
    Refunds C op w.terms w.escrowUtxo w.sourceOutput := by
  obtain ⟨hspent, hcreated⟩ := hspp.binds hC hd h.privateTxHash
  exact
    { carriesTerms := h.escrow
      spent := hspent
      created := hcreated
      refund_pays := h.sourceOutput }

/-- **Withdraw returns exactly the locked funds to their creator**, who signs, after the
unlock time of the instruction data; the transact's own deadline plays no part. -/
theorem processWithdrawIx_refunds {E : Env} (hE : E.Secure) {now : Int64}
    {accounts : AccountIterator} {data : List UInt8} {cpi : Cpi} {t : TransactIxData}
    {op : TxOpening} (h : processWithdrawIx E now accounts data = .ok cpi)
    (ht : cpi.Transact E.runtime t) (hspp : SppCommits E.crypto t op) :
    ∃ terms escrow refund creator ix, Refunds E.crypto op terms escrow refund ∧
      accounts[1]? = some creator ∧ creator.isSigner = true ∧
      (∃ n, E.crypto.ownerHash creator.address n = some terms.ownerHash) ∧
      E.withdrawIxData data = some ix ∧ ix.transact = t ∧
      terms.unlock.val = ix.unlockTimestamp.toNat ∧ 0 ≤ now.toInt ∧
      terms.unlock.val < now.toInt := by
  obtain ⟨w, creator, ix, hw, hcreator, hsigner, hix, hixt, hp, hunlock, hid, hnow, hafter⟩ :=
    processWithdrawIx_sound hE h ht
  have hval : w.terms.unlock.val = ix.unlockTimestamp.toNat := by rw [hunlock, Fr.val_ofU64]
  have howner : E.crypto.ownerHash creator.address w.nullifierPk = some w.terms.ownerHash :=
    Crypto.ownerHash_eq_some.mpr ⟨_, hid, hw.owner⟩
  refine ⟨w.terms, w.escrowUtxo, w.sourceOutput, creator, ix, hw.refunds hE.ideal hp hspp,
    hcreator, hsigner, ⟨_, howner⟩, hix, hixt, hval, hnow, ?_⟩
  omega

/-! ## A sample environment

As for the swap program: the hashes are tables of the preimages that three instructions
evaluate. -/

namespace Sample

def creator : Address := Bytes.replicate 32 1
def authority : Address := Bytes.replicate 32 3

/-- Digests of the Poseidon table that the UTXOs mention. -/
def creatorOwner : Fr := 1002
def authorityOwner : Fr := 1003

/-- The creator locks funds until time `unlock`. -/
def terms (unlock : Fr) : EscrowTerms := ⟨creatorOwner, unlock⟩

/-- The creator's funds, the change and the escrow of 7 of their 8 units until time 100. -/
def funds : Utxo := ⟨creatorOwner, 20, 8, 31, 0, 0, 0, 0⟩
def change : Utxo := ⟨creatorOwner, 20, 1, 32, 0, 0, 0, 0⟩
def escrow : Utxo := ⟨authorityOwner, 20, 7, 33, 1004, 0, 0, 0⟩
def refund : Utxo := ⟨creatorOwner, 20, 7, 34, 0, 0, 0, 0⟩

/-- What the creator gets for escrowing an escrow: all but one unit as change. -/
def earlyChange : Utxo := ⟨creatorOwner, 20, 6, 35, 0, 0, 0, 0⟩
def earlyEscrow : Utxo := ⟨creatorOwner, 20, 1, 36, 1005, 0, 0, 0⟩

/-- The Poseidon preimages; the digest of the `i`-th one is `1000 + i`. -/
def poseidonTable : List (List Fr) :=
  [ -- nullifier keys, owner hashes and terms
    [0], [5], [11, 1001], [12, 1000], [1002, 100], [1002, 0],
    -- nullifiers, chains and the public input
    [100, 31, 5], [102, 33, 0], [101, 102], [501, 100, 11], [104, 105] ]

/-- The UTXOs; the hash of the `i`-th one is `100 + i`. -/
def utxoTable : List Utxo := [funds, change, escrow, refund, earlyChange, earlyEscrow]

def crypto : Crypto where
  poseidon := Oracle.tabulate (Fr.offset 1000) poseidonTable
  utxoHash := Oracle.tabulate (Fr.offset 100) utxoTable
  privateTxCommit i o b := Oracle.tabulate (Fr.offset 500)
    [((100, 1008, 50) : Fr × Fr × Fr), (102, 103, 51), (102, 1010, 52)] (i, o, b)
  hashBytes _ := none
  gnarkHashBytes _ := none
  ciphertextHash _ := none
  solanaOwnerIdentity := Oracle.tabulate (Fr.offset 11) [creator, authority]
  derivePrivateTxBlinding _ _ := none
  deriveOutputBlindingSeed _ _ := none
  deriveTransactOutputBlinding _ _ _ := none
  keyStream _ _ _ := none

theorem crypto_ideal : crypto.Ideal :=
  .of_tables rfl rfl (fun _ _ _ => rfl) rfl (by decide) (by decide) (by decide) (by decide)
    (by decide)

/-- What SPP moves in each of the sample instructions. -/
def escrowOpening : TxOpening := ⟨[some ⟨funds, 5⟩, none], [some change, some escrow], 50⟩

def withdrawOpening : TxOpening := ⟨[some ⟨escrow, 0⟩, none], [some refund, none], 51⟩

def earlyOpening : TxOpening :=
  ⟨[some ⟨escrow, 0⟩, none], [some earlyChange, some earlyEscrow], 52⟩

/-- The transacts that the codecs know. -/
def transacts : List TransactIxData :=
  [escrowOpening, withdrawOpening, earlyOpening].map (·.publish crypto 500 none [])

def plainProof : PlainProof := ⟨Bytes.replicate 32 0, Bytes.replicate 64 0, Bytes.replicate 32 0⟩

def runtime : Runtime := .tabulate authority transacts

noncomputable def env : Env where
  crypto := crypto
  groth16 := Groth16.idealVerifier (relation crypto)
  runtime := runtime
  escrowIxData bytes := transacts[bytes.length]?.map fun t => ⟨plainProof, t⟩
  withdrawIxData bytes := transacts[bytes.length]?.map fun t => ⟨plainProof, 100, t⟩

theorem env_secure : env.Secure where
  ideal := crypto_ideal
  sound := Groth16.idealVerifier_sound
  roundTrips := Codec.tabulate_roundTrips transacts

/-- The signers of an instruction, and the authority. -/
def accounts (signers : List Address) : AccountIterator :=
  signers.map (⟨·, true, true⟩) ++ [⟨authority, false, false⟩]

/-- The instruction data that carries the `i`-th transact. -/
def data (i : ℕ) : List UInt8 := List.replicate i 0

def cpi (i : ℕ) : Cpi := ⟨accounts [creator], data i, [authority]⟩

theorem verify {proof : CompressedGroth16Proof} {publicInput : Bytes 32} {x : Fr}
    {vk : Groth16Verifyingkey CircuitId} (hshape : proof.commitment.isSome = vk.vkCommitment)
    (hx : Fr.ofBytes publicInput = some x) (h : relation crypto vk.circuit x) :
    verifyGroth16 env proof publicInput vk = .ok () :=
  Groth16.idealVerifier_ok hshape hx h

theorem withdraw_ok :
    processWithdrawIx env 150 (accounts [creator, creator, creator]) (data 1) = .ok (cpi 1) := by
  refine processWithdrawIx_eq_ok.mpr ⟨⟨creator, true, true⟩, ⟨creator, true, true⟩,
    accounts [creator], 11, ⟨plainProof, 100, withdrawOpening.publish crypto 500 none []⟩,
    Fr.toBytes 1009, rfl, rfl, rfl, rfl, by decide, rfl, by decide, by decide,
    verify rfl (Fr.ofBytes_toBytes 1009) ?_, ?_⟩
  · exact ⟨⟨⟨1009, 501⟩, terms 100, escrow, refund, 11, 1001, 51⟩, rfl, by decide⟩
  · exact forward_eq_ok.mpr ⟨data 1, by decide, by decide, by decide, rfl⟩

end Sample

open Sample in
theorem processWithdrawIx_refunds_sample :
    ∃ terms escrow refund creator ix, Refunds crypto withdrawOpening terms escrow refund ∧
      (accounts [Sample.creator, Sample.creator, Sample.creator])[1]? = some creator ∧
      creator.isSigner = true ∧
      (∃ n, crypto.ownerHash creator.address n = some terms.ownerHash) ∧
      env.withdrawIxData (data 1) = some ix ∧
      ix.transact = withdrawOpening.publish crypto 500 none [] ∧
      terms.unlock.val = ix.unlockTimestamp.toNat ∧ 0 ≤ (150 : Int64).toInt ∧
      terms.unlock.val < (150 : Int64).toInt :=
  processWithdrawIx_refunds env_secure withdraw_ok rfl (by decide)

/-! ## The lock over runs -/

/-- The escrow program in the system. -/
def program (E : Env) : Program where
  crypto := E.crypto
  runtime := E.runtime
  authority := escrowAuthority E
  process := processInstruction E ID

/-- `u` is an escrow of the run with these terms: the authority owns it, it carries the terms,
and an accepted escrow instruction created it. -/
structure IsEscrow (E : Env) (tr : List Event) (u : Utxo) (terms : EscrowTerms) : Prop where
  owned : E.crypto.OwnedBy (escrowAuthority E) u
  carriesTerms : CarriesTerms E.crypto u terms
  made : ∃ e ∈ tr, e.tag = some Tag.escrow ∧ u ∈ e.created

/-- If the event is an escrow instruction, its source is no UTXO of the authority that carries
data. -/
def SparesEscrows (E : Env) (e : Event) : Prop :=
  e.tag = some Tag.escrow →
    ∀ u ∈ e.spent, E.crypto.OwnedBy (escrowAuthority E) u → u.dataHash = 0

/-- An accepted instruction that is no escrow instruction is a withdraw, and it spends an
escrow only after the unlock time of its terms. -/
theorem escrow_or_unlocked {E : Env} (hE : E.Secure) {s : State} {now : Int64}
    {accounts : AccountIterator} {data : List UInt8} {cpi : Cpi} {t : TransactIxData}
    {op : TxOpening} (h : (program E).Accepts s now accounts data cpi t op) {u : Utxo}
    {terms : EscrowTerms} (hu : u ∈ op.spent) (hterms : CarriesTerms E.crypto u terms) :
    Event.tag (.instruction now accounts data cpi t op) = some Tag.escrow ∨
      (data.head? = some Tag.withdraw ∧ terms.unlock.val < now.toInt) := by
  have hprocess : processInstruction E ID now accounts data = .ok cpi := h.process
  obtain ⟨-, payload, hcase⟩ := processInstruction_eq_ok.mp hprocess
  rcases hcase with ⟨rfl, -⟩ | ⟨rfl, hwithdraw⟩
  · exact .inl rfl
  · refine .inr ⟨rfl, ?_⟩
    obtain ⟨w, _, ix, hw, -, -, -, -, hp, hunlock, -, -, hafter⟩ :=
      processWithdrawIx_sound hE hwithdraw h.transact
    have hr : Refunds E.crypto op w.terms w.escrowUtxo w.sourceOutput :=
      hw.refunds hE.ideal hp h.spp.commits
    -- the one input is the escrow of the witness, so its terms are the terms of `u`
    rw [hr.spent, List.mem_singleton] at hu
    subst hu
    obtain rfl : terms = w.terms :=
      EscrowTerms.dataHash_inj hE.ideal hterms.dataHash hr.carriesTerms.dataHash
    have hval : w.terms.unlock.val = ix.unlockTimestamp.toNat := by rw [hunlock, Fr.val_ofU64]
    omega

/-- **The timelock.** In a run whose escrow instructions spare the escrows, an escrow is spent
only by a withdraw at a clock value past its unlock time, and it stays on the ledger while
the clock has not passed it. -/
theorem escrows_locked {E : Env} (hE : E.Secure) {clock : Int64} {tr : List Event} {s : State}
    (hrun : (program E).Runs (State.init clock) tr s) (hspares : ∀ e ∈ tr, SparesEscrows E e)
    {u : Utxo} {terms : EscrowTerms} (hu : IsEscrow E tr u terms) :
    (∀ e ∈ tr, u ∈ e.spent → ∃ now accounts data cpi t op,
      e = .instruction now accounts data cpi t op ∧ data.head? = some Tag.withdraw ∧
        terms.unlock.val < now.toInt) ∧
      (s.clock.toInt ≤ terms.unlock.val → u ∈ s.ledger.unspent) := by
  have hspender : ∀ e ∈ tr, u ∈ e.spent → ∃ now accounts data cpi t op,
      e = .instruction now accounts data cpi t op ∧ data.head? = some Tag.withdraw ∧
        terms.unlock.val < now.toInt ∧ now ≤ s.clock := by
    intro e he hspent
    obtain ⟨now, accounts, data, cpi, t, op, s₁, rfl, hacc, hclock⟩ :=
      Program.runs_accepts_of_owned hE.ideal hrun he hspent hu.owned
    rcases escrow_or_unlocked hE hacc hspent hu.carriesTerms with htag | ⟨htag, hafter⟩
    · -- the one instruction that leaves its input free and checks no time
      have hzero : u.dataHash = 0 := hspares _ he htag u hspent hu.owned
      exact absurd hzero (hu.carriesTerms.dataHash_ne_zero hE.ideal)
    · exact ⟨now, accounts, data, cpi, t, op, rfl, htag, hafter, hclock⟩
  constructor
  · intro e he hspent
    obtain ⟨now, accounts, data, cpi, t, op, heq, htag, hafter, -⟩ := hspender e he hspent
    exact ⟨now, accounts, data, cpi, t, op, heq, htag, hafter⟩
  · intro hearly
    obtain ⟨e, he, -, hcreated⟩ := hu.made
    rcases Program.runs_unspent_or_spent hrun he hcreated with hunspent | ⟨e', he', hspent⟩
    · exact hunspent
    · obtain ⟨now, _, _, _, _, _, -, -, hafter, hclock⟩ := hspender e' he' hspent
      have hle : now.toInt ≤ s.clock.toInt := Int64.le_iff_toInt_le.mp hclock
      omega

/-! Two runs of the sample environment. In both the creator deposits 8 units and locks 7 of
them until time 100; then the creator withdraws them at time 150, or escrows the escrow at
time 20. -/

namespace Sample

def escrowEvent : Event :=
  .instruction 10 (accounts [creator, creator]) (Tag.escrow :: data 0) (cpi 0)
    (escrowOpening.publish crypto 500 none []) escrowOpening

def withdrawEvent : Event :=
  .instruction 150 (accounts [creator, creator, creator]) (Tag.withdraw :: data 1) (cpi 1)
    (withdrawOpening.publish crypto 500 none []) withdrawOpening

def earlyEvent : Event :=
  .instruction 20 (accounts [creator, creator]) (Tag.escrow :: data 2) (cpi 2)
    (earlyOpening.publish crypto 500 none []) earlyOpening

/-- The ledger once the escrow is made. -/
def escrowLedger : Ledger Utxo :=
  (Ledger.empty.apply [] [funds]).apply escrowOpening.spent escrowOpening.created

theorem escrow_ok : processEscrowIx env (accounts [creator, creator]) (data 0) = .ok (cpi 0) := by
  refine processEscrowIx_eq_ok.mpr ⟨⟨creator, true, true⟩, accounts [creator],
    ⟨plainProof, escrowOpening.publish crypto 500 none []⟩, rfl, rfl, rfl, rfl,
    verify rfl (by decide : Fr.ofBytes _ = some 500) ?_, ?_⟩
  · exact ⟨⟨500, terms 100, escrow, change, 100, 50⟩, rfl, by decide⟩
  · exact forward_eq_ok.mpr ⟨data 0, by decide, by decide, by decide, rfl⟩

theorem early_ok : processEscrowIx env (accounts [creator, creator]) (data 2) = .ok (cpi 2) := by
  refine processEscrowIx_eq_ok.mpr ⟨⟨creator, true, true⟩, accounts [creator],
    ⟨plainProof, earlyOpening.publish crypto 500 none []⟩, rfl, rfl, rfl, rfl,
    verify rfl (by decide : Fr.ofBytes _ = some 502) ?_, ?_⟩
  · exact ⟨⟨502, terms 0, earlyEscrow, earlyChange, 102, 52⟩, rfl, by decide⟩
  · exact forward_eq_ok.mpr ⟨data 2, by decide, by decide, by decide, rfl⟩

theorem run_escrow :
    (program env).Runs (State.init 0) [.deposit funds, escrowEvent] ⟨escrowLedger, 10⟩ := by
  have hdeposit : (program env).Runs (State.init 0) [.deposit funds]
      ⟨Ledger.empty.apply [] [funds], 0⟩ := .snoc (.nil _) (.deposit funds)
  have hescrow : processInstruction env ID 10 (accounts [creator, creator])
      (Tag.escrow :: data 0) = .ok (cpi 0) :=
    processInstruction_eq_ok.mpr ⟨rfl, data 0, .inl ⟨rfl, escrow_ok⟩⟩
  exact .snoc hdeposit (.instruction (by decide) hescrow rfl (by decide))

theorem run_escrow_withdraw :
    (program env).Runs (State.init 0) [.deposit funds, escrowEvent, withdrawEvent]
      ⟨escrowLedger.apply withdrawOpening.spent withdrawOpening.created, 150⟩ := by
  have hwithdraw : processInstruction env ID 150 (accounts [creator, creator, creator])
      (Tag.withdraw :: data 1) = .ok (cpi 1) :=
    processInstruction_eq_ok.mpr ⟨rfl, data 1, .inr ⟨rfl, withdraw_ok⟩⟩
  exact .snoc run_escrow (.instruction (by decide) hwithdraw rfl (by decide))

theorem run_escrow_early :
    (program env).Runs (State.init 0) [.deposit funds, escrowEvent, earlyEvent]
      ⟨escrowLedger.apply earlyOpening.spent earlyOpening.created, 20⟩ := by
  have hearly : processInstruction env ID 20 (accounts [creator, creator])
      (Tag.escrow :: data 2) = .ok (cpi 2) :=
    processInstruction_eq_ok.mpr ⟨rfl, data 2, .inl ⟨rfl, early_ok⟩⟩
  exact .snoc run_escrow (.instruction (by decide) hearly rfl (by decide))

theorem isEscrow (tr : List Event) :
    IsEscrow env (.deposit funds :: escrowEvent :: tr) escrow (terms 100) where
  owned := ⟨1000, by decide⟩
  carriesTerms := ⟨⟨rfl, rfl⟩, by decide, by decide⟩
  made := ⟨escrowEvent, by simp, rfl, by decide⟩

end Sample

open Sample in
theorem escrows_locked_sample :
    (∀ e ∈ [.deposit funds, escrowEvent, withdrawEvent], escrow ∈ e.spent →
      ∃ now accounts data cpi t op, e = .instruction now accounts data cpi t op ∧
        data.head? = some Tag.withdraw ∧ (terms 100).unlock.val < now.toInt) ∧
      ((150 : Int64).toInt ≤ (terms 100).unlock.val →
        escrow ∈ (escrowLedger.apply withdrawOpening.spent withdrawOpening.created).unspent) := by
  have hspares : ∀ e ∈ [.deposit funds, escrowEvent, withdrawEvent], SparesEscrows env e := by
    simp only [List.forall_mem_cons, List.not_mem_nil, false_implies, implies_true, and_true]
    refine ⟨fun h => absurd h (by decide), fun _ u hu _ => ?_, fun h => absurd h (by decide)⟩
    obtain rfl : u = funds := List.mem_singleton.mp hu
    rfl
  exact escrows_locked env_secure run_escrow_withdraw hspares (isEscrow [withdrawEvent])

open Sample in
/-- Without the condition on escrow instructions the lock does not hold: the creator gets most
of the funds back as the change of a second escrow, long before the unlock time. -/
theorem not_escrows_locked :
    ¬∀ E : Env, E.Secure → E.groth16.Complete (relation E.crypto) → ∀ clock tr s,
      (program E).Runs (State.init clock) tr s → ∀ u terms, IsEscrow E tr u terms →
        ∀ now accounts data cpi t op, .instruction now accounts data cpi t op ∈ tr →
          u ∈ op.spent → (terms.unlock.val : ℤ) < now.toInt := by
  intro h
  have hmem : earlyEvent ∈ [.deposit funds, escrowEvent, earlyEvent] := by simp
  have hafter : ((terms 100).unlock.val : ℤ) < (20 : Int64).toInt :=
    h env env_secure Groth16.idealVerifier_complete 0 _ _ run_escrow_early escrow (terms 100)
      (isEscrow [earlyEvent]) 20 _ _ _ _ earlyOpening hmem (by decide)
  exact absurd hafter (by decide)

end Zolana.TimelockEscrow
