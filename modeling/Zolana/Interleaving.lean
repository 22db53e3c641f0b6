import Zolana.Spp.Deployment
import Zolana.Swap.Custody
import Zolana.TimelockEscrow.Custody

set_option autoImplicit false

/-! # Both programs on one ledger

The swap program and the timelock escrow program run side by side: their instructions
interleave with each other and with everything else that SPP executes. They share the hashes,
the runtime and the ledger, and nothing else: each signs with a PDA of its own. So neither can
move what the other one has locked, and what holds of each alone holds of both together.
-/

namespace Zolana

/-- The surroundings of both programs. Their PDAs differ, as those of different programs do. -/
structure Platform where
  swap : Swap.Env
  escrow : TimelockEscrow.Env
  crypto_eq : escrow.crypto = swap.crypto
  runtime_eq : escrow.runtime = swap.runtime
  authority_ne : Swap.orderAuthority swap ≠ TimelockEscrow.escrowAuthority escrow

/-- The programs of the repository. -/
inductive ProgramId
  | swap
  | timelockEscrow
  deriving DecidableEq

namespace Platform

/-- The program with this id. -/
def program (A : Platform) : ProgramId → Program
  | .swap => Swap.program A.swap
  | .timelockEscrow => TimelockEscrow.program A.escrow

/-- The two programs share SPP. -/
def deployment (A : Platform) : Deployment ProgramId where
  program := A.program
  crypto := A.swap.crypto
  runtime := A.swap.runtime
  crypto_eq
    | .swap => rfl
    | .timelockEscrow => A.crypto_eq
  runtime_eq
    | .swap => rfl
    | .timelockEscrow => A.runtime_eq
  authority_injective := by
    intro i j h
    cases i with
    | swap =>
        cases j with
        | swap => rfl
        | timelockEscrow => exact absurd h A.authority_ne
    | timelockEscrow =>
        cases j with
        | swap => exact absurd h.symm A.authority_ne
        | timelockEscrow => rfl
  pdaSigners := by
    intro i now accounts data cpi h
    cases i with
    | swap =>
        have hok : Swap.processInstruction A.swap Swap.ID now accounts data = .ok cpi := h
        exact Swap.processInstruction_pdaSigners hok
    | timelockEscrow =>
        have hok : TimelockEscrow.processInstruction A.escrow TimelockEscrow.ID now accounts data =
            .ok cpi := h
        exact TimelockEscrow.processInstruction_pdaSigners hok

/-- The assumptions on the external code, for both programs. -/
structure Secure (A : Platform) : Prop where
  swap : A.swap.Secure
  escrow : A.escrow.Secure

variable {A : Platform} {clock : Int64} {tr : List (JointEvent ProgramId)} {s : State} {u : Utxo}

/-! ## Isolation -/

/-- What a run of both programs is for one of them. -/
structure Isolated (A : Platform) (clock : Int64) (tr : List (JointEvent ProgramId)) (s : State)
    (i : ProgramId) : Prop where
  run : ∃ s', (A.program i).Runs (State.init clock) (tr.map (·.view i)) s' ∧
    s'.ledger = s.ledger ∧ s'.clock ≤ s.clock
  moves : ∀ e ∈ tr, ∀ u ∈ e.spent, A.swap.crypto.OwnedBy (A.program i).authority u →
    ∃ now accounts data cpi t op, e = .instruction i now accounts data cpi t op

/-- An event that a program sees as its own instruction is one. -/
theorem eq_instruction_of_view {i : ProgramId} {e : JointEvent ProgramId} {now : Int64}
    {accounts : AccountIterator} {data : List UInt8} {cpi : Cpi} {t : TransactIxData}
    {op : TxOpening} (h : e.view i = .instruction now accounts data cpi t op) :
    e = .instruction i now accounts data cpi t op := by
  cases e with
  | instruction j now' accounts' data' cpi' t' op' =>
      simp only [JointEvent.view] at h
      split at h
      · rename_i hji
        cases h
        rw [hji]
      · cases h
  | transact signers t op => cases h
  | deposit u => cases h

/-- **The programs do not interfere.** A run of both, interleaved with anything else, is for each
of them a run of its own over the same ledger; what the authority of one owns only its own
instructions move; and nothing is spent twice. -/
theorem programs_isolated (hA : A.Secure) (hrun : A.deployment.Runs (State.init clock) tr s) :
    (∀ i, A.Isolated clock tr s i) ∧ (tr.flatMap JointEvent.spent).Nodup := by
  constructor
  · intro i
    refine ⟨Deployment.view_runs i hrun, ?_⟩
    intro e he u hu howned
    obtain ⟨s', hrun', -, -⟩ := Deployment.view_runs i hrun
    have hcrypto : (A.deployment.program i).crypto = A.swap.crypto := A.deployment.crypto_eq i
    have hideal : (A.deployment.program i).crypto.Ideal := by
      rw [hcrypto]
      exact hA.swap.ideal
    rw [← hcrypto] at howned
    obtain ⟨now, accounts, data, cpi, t, op, s₁, hview, -, -⟩ :=
      Program.runs_accepts_of_owned hideal hrun' (List.mem_map_of_mem he)
        (by rw [JointEvent.view_spent]; exact hu) howned
    exact ⟨now, accounts, data, cpi, t, op, eq_instruction_of_view hview⟩
  · obtain ⟨s', hrun', -, -⟩ := Deployment.view_runs .swap hrun
    have hnodup := Program.runs_nodup_spent hrun'
    simpa [List.flatMap_map] using hnodup

/-! ## Orders and escrows -/

/-- A UTXO on the ledger was created by an event of the run. -/
theorem exists_created (i : ProgramId) (hrun : A.deployment.Runs (State.init clock) tr s)
    (hleaf : u ∈ s.ledger.leaves) :
    ∃ e ∈ tr, ∃ s₁ s₂, (A.program i).Step s₁ (e.view i) s₂ ∧ u ∈ (e.view i).created := by
  obtain ⟨s', hrun', hledger, -⟩ := Deployment.view_runs i hrun
  rw [← hledger] at hleaf
  have hprogram : A.deployment.program i = A.program i := rfl
  rw [hprogram] at hrun'
  rcases (Program.actsOn.mem_leaves hrun').mp hleaf with hinit | ⟨v, hv, hcreated⟩
  · cases hinit
  · obtain ⟨e, he, rfl⟩ := List.mem_map.mp hv
    obtain ⟨_, _, s₁, s₂, -, -, hstep, -⟩ := hrun'.exists_step_of_mem hv
    exact ⟨e, he, s₁, s₂, hstep, hcreated⟩

/-- One event of the run settles the order as its terms say, and no other one spends it. -/
def OrderSettledOnce (A : Platform) (tr : List (JointEvent ProgramId)) (s : State) (u : Utxo)
    (T : Swap.OrderTerms) : Prop :=
  ∃ tr₁ e tr₂ now, ∃ d : Swap.Settlement, tr = tr₁ ++ e :: tr₂ ∧ (e.view .swap).now = some now ∧
    now ≤ s.clock ∧ d.DoneBy A.swap.crypto (e.view .swap) u ∧
    d.Honours A.swap.crypto T u now.toInt ∧ ∀ e' ∈ tr₁ ++ tr₂, u ∉ e'.spent

/-- **Orders settle fairly, and once.** In an interleaved run of the two programs where the order
authority's outputs with data have its signature and no make spends a UTXO of it with data, every
UTXO of the order authority with data is a well-formed order; it is unspent and was never spent, or
exactly one event of the run spent it: the take that its terms select, in time, for the full price,
or past the expiry a cancel that the maker signed and that returned all of it. -/
theorem orders_settle_once (hA : A.Secure) (hrun : A.deployment.Runs (State.init clock) tr s)
    (hsigned : ∀ e ∈ tr, Swap.DataSigned A.swap (e.view .swap))
    (hspares : ∀ e ∈ tr, Swap.SparesOrders A.swap (e.view .swap)) (hleaf : u ∈ s.ledger.leaves)
    (howned : A.swap.crypto.OwnedBy (Swap.orderAuthority A.swap) u) (hdata : u.dataHash ≠ 0) :
    ∃ T, Swap.OpensAsOrder A.swap.crypto u T ∧
      ((u ∈ s.ledger.unspent ∧ ∀ e ∈ tr, u ∉ e.spent) ∨ A.OrderSettledOnce tr s u T) := by
  obtain ⟨e, he, s₁, s₂, hstep, hcreated⟩ := exists_created .swap hrun hleaf
  obtain ⟨T, hT⟩ :=
    Swap.opensAsOrder_of_created hA.swap hstep (hsigned e he) hcreated howned hdata
  refine ⟨T, hT, ?_⟩
  rcases Deployment.unspent_or_settledOnce (i := .swap) (Swap.keeps_orders hA.swap) rfl hrun
      (fun e he => ⟨hsigned e he, hspares e he⟩) hleaf ⟨howned, hdata⟩ with
    hunspent | ⟨tr₁, e, tr₂, now, d, hsplit, hnow, hle, hdone, ⟨T', hT', hhonours⟩, hnone⟩
  · exact .inl hunspent
  · exact .inr ⟨tr₁, e, tr₂, now, d, hsplit, hnow, hle, hdone,
      hhonours.of_hash hA.swap.ideal hT'.dataHash hT.carriesTerms.dataHash, hnone⟩

/-- One event of the run withdraws the escrow as its terms say, and no other one spends it. -/
def EscrowWithdrawnOnce (A : Platform) (tr : List (JointEvent ProgramId)) (s : State) (u : Utxo)
    (terms : TimelockEscrow.EscrowTerms) : Prop :=
  ∃ tr₁ e tr₂ now, ∃ d : TimelockEscrow.Withdrawal, tr = tr₁ ++ e :: tr₂ ∧
    (e.view .timelockEscrow).now = some now ∧ now ≤ s.clock ∧ d.DoneBy (e.view .timelockEscrow) u ∧
    d.Honours A.swap.crypto terms u now.toInt ∧ ∀ e' ∈ tr₁ ++ tr₂, u ∉ e'.spent

/-- **Escrows come back whole, and once.** In an interleaved run of the two programs where the
escrow authority's outputs with data have its signature and no escrow instruction spends a UTXO of
it with data, every UTXO of the escrow authority with data is an escrow; it is unspent and was never spent,
or exactly one event of the run spent it: past the unlock time a withdraw that the creator signed
and that returned all of it. -/
theorem escrows_withdraw_once (hA : A.Secure) (hrun : A.deployment.Runs (State.init clock) tr s)
    (hsigned : ∀ e ∈ tr, (TimelockEscrow.program A.escrow).DataSigned (e.view .timelockEscrow))
    (hspares : ∀ e ∈ tr, TimelockEscrow.SparesEscrows A.escrow (e.view .timelockEscrow))
    (hleaf : u ∈ s.ledger.leaves)
    (howned : A.swap.crypto.OwnedBy (TimelockEscrow.escrowAuthority A.escrow) u)
    (hdata : u.dataHash ≠ 0) :
    ∃ terms, TimelockEscrow.CarriesTerms A.swap.crypto u terms ∧
      ((u ∈ s.ledger.unspent ∧ ∀ e ∈ tr, u ∉ e.spent) ∨ A.EscrowWithdrawnOnce tr s u terms) := by
  have hlocked : (TimelockEscrow.program A.escrow).Locks u := by
    refine ⟨?_, hdata⟩
    show A.escrow.crypto.OwnedBy _ u
    rw [A.crypto_eq]
    exact howned
  obtain ⟨e, he, s₁, s₂, hstep, hcreated⟩ := exists_created .timelockEscrow hrun hleaf
  obtain ⟨terms, hterms⟩ :=
    TimelockEscrow.carriesTerms_of_created hA.escrow hstep (hsigned e he) hcreated hlocked
  refine ⟨terms, by rw [← A.crypto_eq]; exact hterms, ?_⟩
  rcases Deployment.unspent_or_settledOnce (i := .timelockEscrow)
      (TimelockEscrow.keeps_escrows hA.escrow) rfl hrun
      (fun e he => ⟨hsigned e he, hspares e he⟩) hleaf hlocked with
    hunspent | ⟨tr₁, e, tr₂, now, d, hsplit, hnow, hle, hdone, ⟨terms', hterms', hhonours⟩, hnone⟩
  · exact .inl hunspent
  · obtain rfl : terms' = terms := TimelockEscrow.EscrowTerms.dataHash_inj hA.escrow.ideal
      hterms'.dataHash hterms.dataHash
    refine .inr ⟨tr₁, e, tr₂, now, d, hsplit, hnow, hle, hdone, ?_, hnone⟩
    rw [← A.crypto_eq]
    exact hhonours

/-! ## A sample run

The maker of the swap's sample order is also the creator of an escrow. Four instructions
alternate between the programs: make, escrow, take, withdraw. -/

namespace Sample

open Swap.Sample

/-- The PDA of the escrow program. -/
def vault : Address := Bytes.replicate 32 4

/-- The creator's savings, the escrow of 7 of their 8 units until time 100, and what comes back. -/
def savings : Utxo := Swap.sampleUtxo makerOwner 20 8 42 0
def rest : Utxo := Swap.sampleUtxo makerOwner 20 1 43 0
def escrow : Utxo := Swap.sampleUtxo 1030 20 7 44 1031
def payout : Utxo := Swap.sampleUtxo makerOwner 20 7 45 0

/-- The hashes of the swap's sample with those that the escrow needs. -/
def crypto : Crypto where
  poseidon := Oracle.tabulate (Fr.offset 1000) (poseidonTable ++
    [[14, 1000], [1003, 100], [114, 42, 5], [116, 44, 0], [115, 116], [507, 100, 11]])
  utxoHash := Oracle.tabulate (Fr.offset 100) (utxoTable ++ [savings, rest, escrow, payout])
  privateTxCommit i o b := Oracle.tabulate (Fr.offset 500)
    [((1018, 1019, 2024) : Fr × Fr × Fr), (1021, 1022, 51), (102, 109, 52), (100, 1025, 53),
      (102, 1026, 54), (1027, 1028, 2024), (114, 1034, 61), (116, 117, 62)] (i, o, b)
  hashBytes := Swap.Sample.crypto.hashBytes
  gnarkHashBytes := Swap.Sample.crypto.gnarkHashBytes
  ciphertextHash := Swap.Sample.crypto.ciphertextHash
  solanaOwnerIdentity := Oracle.tabulate (Fr.offset 11) [maker, taker, authority, vault]
  derivePrivateTxBlinding := Swap.Sample.crypto.derivePrivateTxBlinding
  deriveOutputBlindingSeed := Swap.Sample.crypto.deriveOutputBlindingSeed
  deriveTransactOutputBlinding := Swap.Sample.crypto.deriveTransactOutputBlinding
  keyStream := Swap.Sample.crypto.keyStream

theorem crypto_ideal : crypto.Ideal :=
  .of_tables rfl rfl (fun _ _ _ => rfl) rfl (by decide) (by decide) (by decide) (by decide)
    (by decide)

def escrowOpening : TxOpening := ⟨[some ⟨savings, 5⟩, none], [some rest, some escrow], 61⟩
def withdrawOpening : TxOpening := ⟨[some ⟨escrow, 0⟩, none], [some payout, none], 62⟩

/-- The transacts in the order of the run; SPP reads the make with its marker. -/
def transacts : List TransactIxData :=
  [makeOpening.publish crypto 50 none [⟨Bytes.replicate 32 2, []⟩],
    makeOpening.publish crypto 50 none [⟨Bytes.replicate 32 2, makeMarker⟩],
    escrowOpening.publish crypto 500 none [], takeOpening.publish crypto 100 none [],
    withdrawOpening.publish crypto 500 none []]

/-- Each program has its own PDA. -/
def runtime : Runtime :=
  { Runtime.tabulate authority transacts with
    findProgramAddress := fun _ programId => (if programId = Swap.ID then authority else vault, 255) }

noncomputable def platform : Platform where
  swap :=
    { crypto := crypto
      groth16 := Groth16.idealVerifier (Swap.relation crypto)
      runtime := runtime
      makeIxData := fun bytes => transacts[bytes.length]?.map fun t => ⟨plainProof, t⟩
      takeIxData := fun bytes => transacts[bytes.length]?.map fun t => ⟨plainProof, t⟩
      takeVerifiableEncryptionIxData := fun _ => none
      cancelIxData := fun _ => none }
  escrow :=
    { crypto := crypto
      groth16 := Groth16.idealVerifier (TimelockEscrow.relation crypto)
      runtime := runtime
      escrowIxData := fun bytes => transacts[bytes.length]?.map fun t => ⟨plainProof, t⟩
      withdrawIxData := fun bytes => transacts[bytes.length]?.map fun t => ⟨plainProof, 100, t⟩ }
  crypto_eq := rfl
  runtime_eq := rfl
  authority_ne := by decide

theorem platform_secure : platform.Secure where
  swap :=
    { ideal := crypto_ideal
      sound := Groth16.idealVerifier_sound
      roundTrips := Codec.tabulate_roundTrips transacts }
  escrow :=
    { ideal := crypto_ideal
      sound := Groth16.idealVerifier_sound
      roundTrips := Codec.tabulate_roundTrips transacts }

/-- The accounts of an instruction and the CPI that it makes. -/
def accounts (signers : List Address) (pda : Address) : AccountIterator :=
  signers.map (⟨·, true, true⟩) ++ [⟨pda, false, false⟩]

def cpi (signer pda : Address) (i : ℕ) : Cpi := ⟨accounts [signer] pda, data i, [pda]⟩

/-- The instructions of the run. -/
def makeEvent : JointEvent ProgramId :=
  .instruction .swap 10 (accounts [maker, maker] authority) (Swap.Tag.make :: data 0)
    (cpi maker authority 1) (makeOpening.publish crypto 50 none [⟨Bytes.replicate 32 2, makeMarker⟩])
    makeOpening

def escrowEvent : JointEvent ProgramId :=
  .instruction .timelockEscrow 20 (accounts [maker, maker] vault)
    (TimelockEscrow.Tag.escrow :: data 2) (cpi maker vault 2)
    (escrowOpening.publish crypto 500 none []) escrowOpening

def takeEvent : JointEvent ProgramId :=
  .instruction .swap 50 (accounts [taker, taker] authority) (Swap.Tag.take :: data 3)
    (cpi taker authority 3) (takeOpening.publish crypto 100 none []) takeOpening

def withdrawEvent : JointEvent ProgramId :=
  .instruction .timelockEscrow 150 (accounts [maker, maker, maker] vault)
    (TimelockEscrow.Tag.withdraw :: data 4) (cpi maker vault 4)
    (withdrawOpening.publish crypto 500 none []) withdrawOpening

def trace : List (JointEvent ProgramId) :=
  [.deposit funds, .deposit payment, .deposit savings, makeEvent, escrowEvent, takeEvent,
    withdrawEvent]

/-- The ledger after the deposits and after each of the instructions. -/
def deposits : Ledger Utxo :=
  ((Ledger.empty.apply [] [funds]).apply [] [payment]).apply [] [savings]

def made : Ledger Utxo := deposits.apply makeOpening.spent makeOpening.created
def escrowed : Ledger Utxo := made.apply escrowOpening.spent escrowOpening.created
def taken : Ledger Utxo := escrowed.apply takeOpening.spent takeOpening.created
def withdrawn : Ledger Utxo := taken.apply withdrawOpening.spent withdrawOpening.created

theorem make_ok :
    Swap.processInstruction platform.swap Swap.ID 10 (accounts [maker, maker] authority)
      (Swap.Tag.make :: data 0) = .ok (cpi maker authority 1) := by
  refine Swap.processInstruction_eq_ok.mpr ⟨rfl, data 0, .inl ⟨rfl, ?_⟩⟩
  refine Swap.processMakeIx_eq_ok.mpr ⟨⟨maker, true, true⟩, accounts [maker] authority, _, _, rfl,
    rfl, rfl, rfl, Groth16.idealVerifier_ok rfl (by decide : Fr.ofBytes _ = some 503) ?_,
    Swap.writeMarker_eq_ok.mpr ⟨_, _, rfl, rfl, rfl, rfl⟩, ?_⟩
  · exact ⟨⟨503, terms 0, order, change, 100, 53⟩, rfl, by decide⟩
  · exact Swap.forward_eq_ok.mpr ⟨data 1, by decide, by decide, by decide, rfl⟩

theorem escrow_ok :
    TimelockEscrow.processInstruction platform.escrow TimelockEscrow.ID 20
      (accounts [maker, maker] vault) (TimelockEscrow.Tag.escrow :: data 2) =
        .ok (cpi maker vault 2) := by
  refine TimelockEscrow.processInstruction_eq_ok.mpr ⟨rfl, data 2, .inl ⟨rfl, ?_⟩⟩
  refine TimelockEscrow.processEscrowIx_eq_ok.mpr ⟨⟨maker, true, true⟩, accounts [maker] vault, _,
    rfl, rfl, rfl, rfl, Groth16.idealVerifier_ok rfl (by decide : Fr.ofBytes _ = some 506) ?_, ?_⟩
  · exact ⟨⟨506, ⟨makerOwner, 100⟩, escrow, rest, 114, 61⟩, rfl, by decide⟩
  · exact TimelockEscrow.forward_eq_ok.mpr ⟨data 2, by decide, by decide, by decide, rfl⟩

theorem take_ok :
    Swap.processInstruction platform.swap Swap.ID 50 (accounts [taker, taker] authority)
      (Swap.Tag.take :: data 3) = .ok (cpi taker authority 3) := by
  refine Swap.processInstruction_eq_ok.mpr ⟨rfl, data 3, .inr (.inl ⟨rfl, ?_⟩)⟩
  refine Swap.processTakeIx_eq_ok.mpr ⟨⟨taker, true, true⟩, accounts [taker] authority, _,
    ⟨Fr.toBytes 1013⟩, Fr.toBytes 1020, rfl, rfl, rfl, rfl, by decide, by decide, by decide,
    Groth16.idealVerifier_ok rfl (Fr.ofBytes_toBytes 1020) ?_, ?_⟩
  · exact ⟨⟨⟨1020, 500, 1013⟩, ⟨terms 0, order, payment, source, destination, 2024⟩⟩, rfl,
      by decide⟩
  · exact Swap.forward_eq_ok.mpr ⟨data 3, by decide, by decide, by decide, rfl⟩

theorem withdraw_ok :
    TimelockEscrow.processInstruction platform.escrow TimelockEscrow.ID 150
      (accounts [maker, maker, maker] vault) (TimelockEscrow.Tag.withdraw :: data 4) =
        .ok (cpi maker vault 4) := by
  refine TimelockEscrow.processInstruction_eq_ok.mpr ⟨rfl, data 4, .inr ⟨rfl, ?_⟩⟩
  refine TimelockEscrow.processWithdrawIx_eq_ok.mpr ⟨⟨maker, true, true⟩, ⟨maker, true, true⟩,
    accounts [maker] vault, 11, _, Fr.toBytes 1035, rfl, rfl, rfl, rfl, by decide, rfl, by decide,
    by decide, Groth16.idealVerifier_ok rfl (Fr.ofBytes_toBytes 1035) ?_, ?_⟩
  · exact ⟨⟨⟨1035, 507⟩, ⟨makerOwner, 100⟩, escrow, payout, 11, 1001, 62⟩, rfl, by decide⟩
  · exact TimelockEscrow.forward_eq_ok.mpr ⟨data 4, by decide, by decide, by decide, rfl⟩

/-- Neither PDA signs for itself. -/
theorem not_isAuthority {key : Address} (h : key ≠ authority) (h' : key ≠ vault) :
    ¬platform.deployment.IsAuthority key := by
  rintro ⟨i, hi⟩
  cases i with
  | swap => exact h hi.symm
  | timelockEscrow => exact h' hi.symm

theorem outer_ok {signer pda : Address} {i : ℕ} (h : signer ≠ authority) (h' : signer ≠ vault) :
    ∀ a ∈ (cpi signer pda i).accounts, a.isSigner = true →
      ¬platform.deployment.IsAuthority a.address := by
  intro a ha hsigner
  rcases List.mem_append.mp ha with hfirst | hlast
  · obtain rfl := List.mem_singleton.mp hfirst
    exact not_isAuthority h h'
  · obtain rfl := List.mem_singleton.mp hlast
    cases hsigner

theorem run_trace : platform.deployment.Runs (State.init 0) trace ⟨withdrawn, 150⟩ := by
  have hdeposits : platform.deployment.Runs (State.init 0)
      [.deposit funds, .deposit payment, .deposit savings] ⟨deposits, 0⟩ :=
    (((Run.nil (State.init 0)).snoc (.deposit funds)).snoc (.deposit payment)).snoc
      (.deposit savings)
  have hmake : platform.deployment.Step ⟨deposits, 0⟩ makeEvent ⟨made, 10⟩ :=
    .instruction (by decide) make_ok (outer_ok (by decide) (by decide)) rfl (by decide)
  have hescrow : platform.deployment.Step ⟨made, 10⟩ escrowEvent ⟨escrowed, 20⟩ :=
    .instruction (by decide) escrow_ok (outer_ok (by decide) (by decide)) rfl (by decide)
  have htake : platform.deployment.Step ⟨escrowed, 20⟩ takeEvent ⟨taken, 50⟩ :=
    .instruction (by decide) take_ok (outer_ok (by decide) (by decide)) rfl (by decide)
  have hwithdraw : platform.deployment.Step ⟨taken, 50⟩ withdrawEvent ⟨withdrawn, 150⟩ :=
    .instruction (by decide) withdraw_ok (outer_ok (by decide) (by decide)) rfl (by decide)
  exact (((hdeposits.snoc hmake).snoc hescrow).snoc htake).snoc hwithdraw

/-- No UTXO belongs to both PDAs. -/
theorem not_owned {pda pda' : Address} (hne : pda ≠ pda') {u : Utxo} (h : crypto.OwnedBy pda u) :
    ¬crypto.OwnedBy pda' u := fun h' => hne (crypto_ideal.ownedBy_unique h h')

theorem order_owned : crypto.OwnedBy authority order := ⟨1000, by decide⟩

theorem escrow_owned : crypto.OwnedBy vault escrow := ⟨1000, by decide⟩

theorem dataSigned_swap : ∀ e ∈ trace, Swap.DataSigned platform.swap (e.view .swap) := by
  simp only [trace, List.forall_mem_cons, List.not_mem_nil, false_implies, implies_true, and_true]
  refine ⟨fun u hu _ hdata => ?_, fun u hu _ hdata => ?_, fun u hu _ hdata => ?_, fun _ _ _ _ => ?_,
    fun u hu howned hdata => ?_, fun _ _ _ _ => ?_, fun u hu _ hdata => ?_⟩
  · exact absurd (List.mem_singleton.mp hu ▸ rfl) hdata
  · exact absurd (List.mem_singleton.mp hu ▸ rfl) hdata
  · exact absurd (List.mem_singleton.mp hu ▸ rfl) hdata
  · exact List.mem_append_right _ (List.mem_singleton.mpr rfl)
  · have hu : u ∈ [rest, escrow] := hu
    rcases List.mem_cons.mp hu with rfl | hu
    · exact absurd rfl hdata
    · obtain rfl := List.mem_singleton.mp hu
      exact absurd howned (not_owned (by decide) escrow_owned)
  · exact List.mem_append_right _ (List.mem_singleton.mpr rfl)
  · have hu : u ∈ [payout] := hu
    exact absurd (List.mem_singleton.mp hu ▸ rfl) hdata

theorem dataSigned_escrow : ∀ e ∈ trace,
    (TimelockEscrow.program platform.escrow).DataSigned (e.view .timelockEscrow) := by
  simp only [trace, List.forall_mem_cons, List.not_mem_nil, false_implies, implies_true, and_true]
  refine ⟨fun u hu _ hdata => ?_, fun u hu _ hdata => ?_, fun u hu _ hdata => ?_,
    fun u hu howned hdata => ?_, fun _ _ _ _ => ?_, fun u hu _ hdata => ?_, fun _ _ _ _ => ?_⟩
  · exact absurd (List.mem_singleton.mp hu ▸ rfl) hdata
  · exact absurd (List.mem_singleton.mp hu ▸ rfl) hdata
  · exact absurd (List.mem_singleton.mp hu ▸ rfl) hdata
  · have hu : u ∈ [change, order] := hu
    rcases List.mem_cons.mp hu with rfl | hu
    · exact absurd rfl hdata
    · obtain rfl := List.mem_singleton.mp hu
      exact absurd howned (not_owned (by decide) order_owned)
  · exact List.mem_append_right _ (List.mem_singleton.mpr rfl)
  · have hu : u ∈ [source, destination] := hu
    rcases List.mem_cons.mp hu with rfl | hu
    · exact absurd rfl hdata
    · exact absurd (List.mem_singleton.mp hu ▸ rfl) hdata
  · exact List.mem_append_right _ (List.mem_singleton.mpr rfl)

theorem spares_swap : ∀ e ∈ trace, Swap.SparesOrders platform.swap (e.view .swap) := by
  intro e he htag u hu _
  have hmake : e = makeEvent := by
    simp only [trace, List.mem_cons, List.not_mem_nil, or_false] at he
    rcases he with rfl | rfl | rfl | rfl | rfl | rfl | rfl
    case inr.inr.inr.inl => rfl
    all_goals exact absurd htag (by decide)
  subst hmake
  obtain rfl : u = funds := List.mem_singleton.mp hu
  rfl

theorem spares_escrow : ∀ e ∈ trace,
    TimelockEscrow.SparesEscrows platform.escrow (e.view .timelockEscrow) := by
  intro e he htag u hu _
  have hescrow : e = escrowEvent := by
    simp only [trace, List.mem_cons, List.not_mem_nil, or_false] at he
    rcases he with rfl | rfl | rfl | rfl | rfl | rfl | rfl
    case inr.inr.inr.inr.inl => rfl
    all_goals exact absurd htag (by decide)
  subst hescrow
  obtain rfl : u = savings := List.mem_singleton.mp hu
  rfl

end Sample

open Platform.Sample in
theorem programs_isolated_sample :
    (∀ i, platform.Isolated 0 trace ⟨withdrawn, 150⟩ i) ∧
      (trace.flatMap JointEvent.spent).Nodup :=
  programs_isolated platform_secure run_trace

open Platform.Sample in
theorem orders_settle_once_sample :
    ∃ T, Swap.OpensAsOrder crypto Swap.Sample.order T ∧
      platform.OrderSettledOnce trace ⟨withdrawn, 150⟩ Swap.Sample.order T := by
  obtain ⟨T, hT, ⟨-, hnone⟩ | honce⟩ := orders_settle_once platform_secure run_trace
    dataSigned_swap spares_swap (by decide : Swap.Sample.order ∈ withdrawn.leaves) order_owned
    (by decide)
  · exact absurd (by decide : Swap.Sample.order ∈ takeEvent.spent) (hnone takeEvent (by simp [trace]))
  · exact ⟨T, hT, honce⟩

open Platform.Sample in
theorem escrows_withdraw_once_sample :
    ∃ terms, TimelockEscrow.CarriesTerms crypto Sample.escrow terms ∧
      platform.EscrowWithdrawnOnce trace ⟨withdrawn, 150⟩ Sample.escrow terms := by
  obtain ⟨terms, hterms, ⟨-, hnone⟩ | honce⟩ := escrows_withdraw_once platform_secure run_trace
    dataSigned_escrow spares_escrow (by decide : Sample.escrow ∈ withdrawn.leaves) escrow_owned
    (by decide)
  · exact absurd (by decide : Sample.escrow ∈ withdrawEvent.spent)
      (hnone withdrawEvent (by simp [trace]))
  · exact ⟨terms, hterms, honce⟩

end Platform

end Zolana
