import Zolana.Accounts
import Zolana.Spp.Prover
import Zolana.TimelockEscrow.Agreement

set_option autoImplicit false

/-! # Proving and sending

`prover/src/proof.rs` and `sdk/src` of the escrow program: the proofs of the two circuits, neither
of which has a commitment, and the instructions that carry them.
-/

namespace Zolana.TimelockEscrow

/-- The circuits of `timelock_escrow_prover`. -/
def circuits (C : Crypto) : Circuits CircuitId where
  Witness
    | .escrow => Escrow.Circuit
    | .withdraw => Withdraw.Circuit
  Satisfied
    | .escrow, (w : Escrow.Circuit) => w.define C = some ()
    | .withdraw, (w : Withdraw.Circuit) => w.define C = some ()
  publicInput
    | .escrow, (w : Escrow.Circuit) => w.privateTxHash
    | .withdraw, (w : Withdraw.Circuit) => w.pub.publicInputHash
  verifyingkey
    | .escrow => escrowVerifyingkey
    | .withdraw => withdrawVerifyingkey

/-- A satisfying witness puts its public input into the relation of its circuit. -/
theorem relation_of_satisfied {C : Crypto} (id : CircuitId) (w : (circuits C).Witness id)
    (h : (circuits C).Satisfied id w) : relation C id ((circuits C).publicInput id w) := by
  cases id with
  | escrow => exact ⟨w, rfl, h⟩
  | withdraw => exact ⟨w, rfl, h⟩

/-- Each key is the one of its circuit. -/
theorem circuit_verifyingkey {C : Crypto} (id : CircuitId) :
    ((circuits C).verifyingkey id).circuit = id := by
  cases id <;> rfl

namespace Sdk

/-! ## Proofs -/

/-- `TimelockProof`. -/
structure TimelockProof where
  proofA : Bytes 32
  proofB : Bytes 64
  proofC : Bytes 32
  deriving DecidableEq

/-- `From<CompressedProof> for TimelockProof`; a commitment is dropped. -/
def TimelockProof.from (proof : CompressedProof) : TimelockProof :=
  ⟨proof.proofA, proof.proofB, proof.proofC⟩

/-- `From<TimelockProof>` for `EscrowProof` and `WithdrawProof`. -/
def TimelockProof.into (proof : TimelockProof) : PlainProof :=
  ⟨proof.proofA, proof.proofB, proof.proofC⟩

/-- Without a commitment nothing is lost. -/
theorem TimelockProof.compressed_into {proof : CompressedProof} (h : proof.commitment = none) :
    (TimelockProof.from proof).into.compressed = proof.groth16 := by
  rw [CompressedProof.groth16, h]
  rfl

/-! ## Proving

`prover.rs`. -/

section

variable {C : Crypto} (prover : Prover (circuits C))

/-- `EscrowProverClient::prove_escrow`. -/
def proveEscrow (inputs : EscrowProofInputs) : SdkResult TimelockProof :=
  orErr ((prover.prove .escrow inputs.witness).toOption.map .from)

/-- `EscrowProverClient::prove_withdraw`. -/
def proveWithdraw (inputs : WithdrawProofInputs) : SdkResult TimelockProof :=
  orErr ((prover.prove .withdraw inputs.witness).toOption.map .from)

end

section

variable {E : Env} {prover : Prover (circuits E.crypto)}

/-- What is proved for either circuit passes the program. -/
theorem exists_proof (hprover : prover.Complete E.groth16) (id : CircuitId)
    {w : (circuits E.crypto).Witness id} (hsat : (circuits E.crypto).Satisfied id w)
    {publicInput : Bytes 32}
    (hpublic : Fr.ofBytes publicInput = some ((circuits E.crypto).publicInput id w)) :
    ∃ proof, orErr ((prover.prove id w).toOption.map TimelockProof.from) = .ok proof ∧
      verifyGroth16 E proof.into.compressed publicInput ((circuits E.crypto).verifyingkey id) =
        .ok () := by
  have hkey : ((circuits E.crypto).verifyingkey id).vkCommitment = false := by cases id <;> rfl
  obtain ⟨proof, hprove, hnone, hverify⟩ := hprover.exists_plain hkey hsat hpublic
  refine ⟨.from proof, by rw [hprove]; rfl, ?_⟩
  rw [TimelockProof.compressed_into hnone]
  exact hverify _

/-- The proof of an escrow. -/
theorem exists_proveEscrow (hprover : prover.Complete E.groth16) {inputs : EscrowProofInputs}
    (hsat : inputs.witness.Satisfied E.crypto) {d : Fr}
    (hword : Fr.ofBytes inputs.privateTxHash = some d) :
    ∃ proof, proveEscrow prover inputs = .ok proof ∧
      verifyGroth16 E proof.into.compressed inputs.privateTxHash escrowVerifyingkey = .ok () :=
  exists_proof hprover .escrow (Escrow.Circuit.define_eq_some.mpr hsat)
    (hword.trans (congrArg some (decimal_of_ofBytes hword).symm))

/-- The proof of a withdraw. -/
theorem exists_proveWithdraw (hprover : prover.Complete E.groth16) {inputs : WithdrawProofInputs}
    (hsat : inputs.witness.Satisfied E.crypto) {d : Fr}
    (hword : Fr.ofBytes inputs.publicInputHash = some d) :
    ∃ proof, proveWithdraw prover inputs = .ok proof ∧
      verifyGroth16 E proof.into.compressed inputs.publicInputHash withdrawVerifyingkey = .ok () :=
  exists_proof hprover .withdraw (Withdraw.Circuit.define_eq_some.mpr hsat)
    (hword.trans (congrArg some (decimal_of_ofBytes hword).symm))

end

/-! ## Surroundings -/

open Swap.Sdk (AccountMeta Instruction)

/-- Everything that a client of the program works with. -/
structure ClientContext extends ProofContext where
  /-- `wincode::serialize` at `EscrowIxData`. -/
  serializeEscrowIxData : EscrowIxData → Option (List UInt8)
  /-- `wincode::serialize` at `WithdrawIxData`. -/
  serializeWithdrawIxData : WithdrawIxData → Option (List UInt8)
  /-- `nullifier_pda_accounts(tree, nullifier_hashes)`. -/
  nullifierPdaAccounts : Address → List (Bytes 32) → List AccountMeta
  /-- `SHIELDED_POOL_PROGRAM_ID`. -/
  shieldedPoolProgramId : Address
  /-- `PROVER`. -/
  prover : Prover (circuits env.crypto)

/-- How the SDK lays out the accounts for SPP. -/
def ClientContext.layout (X : ClientContext) : SppLayout :=
  ⟨X.nullifierPdaAccounts, X.shieldedPoolProgramId, escrowAuthority X.env⟩

/-- The libraries do what their documentation says: the program reads back what the SDK writes and
accepts the accounts for SPP. -/
structure ClientContext.Documented (X : ClientContext) : Prop where
  wallet : X.wallet.Documented X.env.crypto
  client : X.client.Documented X.env.crypto X.wallet
  prover : X.prover.Complete X.env.groth16
  escrow : ∀ ⦃ix bytes⦄, X.serializeEscrowIxData ix = some bytes → X.env.escrowIxData bytes = some ix
  withdraw : ∀ ⦃ix bytes⦄, X.serializeWithdrawIxData ix = some bytes →
    X.env.withdrawIxData bytes = some ix
  transact : X.env.runtime.transact.RoundTrips
  accounts : X.layout.Accepted X.env.runtime

/-! ## Instructions

`escrow/instruction.rs` and `withdraw/instruction.rs`. -/

/-- `Escrow`. -/
structure Escrow where
  payer : Address
  tree : Address
  escrowProof : EscrowProof
  sppProof : TransactIxData
  deriving DecidableEq

/-- `Escrow::instruction`. -/
def Escrow.instruction (X : ClientContext) (escrow : Escrow) : SdkResult Instruction := do
  let serializedIx ← orErr (X.serializeEscrowIxData ⟨escrow.escrowProof, escrow.sppProof⟩)
  let accounts := .new escrow.payer true ::
    X.layout.accounts escrow.payer escrow.tree escrow.sppProof
  return ⟨ID, accounts, Tag.escrow :: serializedIx⟩

/-- `Withdraw`. -/
structure Withdraw where
  creator : Address
  payer : Address
  tree : Address
  withdrawProof : WithdrawProof
  unlockTimestamp : UInt64
  sppProof : TransactIxData
  deriving DecidableEq

/-- `Withdraw::instruction`. -/
def Withdraw.instruction (X : ClientContext) (withdraw : Withdraw) : SdkResult Instruction := do
  let serializedIx ← orErr (X.serializeWithdrawIxData
    ⟨withdraw.withdrawProof, withdraw.unlockTimestamp, withdraw.sppProof⟩)
  -- the creator signs right after the fee payer
  let accounts := .new withdraw.payer true :: .newReadonly withdraw.creator true ::
    X.layout.accounts withdraw.payer withdraw.tree withdraw.sppProof
  return ⟨ID, accounts, Tag.withdraw :: serializedIx⟩

section

variable {X : ClientContext} {ins : Instruction} {accounts : List AccountView}

/-- What an instruction leaves for SPP is forwarded, and the payer and the escrow authority sign
it. -/
theorem forward_eq_ok_of_passed (hX : X.Documented) {payer tree : Address}
    {transact : TransactIxData}
    (h : PassedFor (X.layout.accounts payer tree transact) accounts)
    (hroom : accounts.length ≤ cpiRoom) {bytes : List UInt8}
    (hbytes : X.env.runtime.transact.serialize transact = some bytes) :
    ∃ cpi, forward X.env accounts transact = .ok cpi ∧ cpi.Transact X.env.runtime transact ∧
      payer ∈ cpi.signers ∧ escrowAuthority X.env ∈ cpi.signers := by
  rw [← List.append_nil (SppLayout.accounts ..)] at h
  obtain ⟨hne, haccounts, hpayer, hauthority⟩ := hX.accounts.cpi h hroom bytes
  exact ⟨_, forward_eq_ok.mpr ⟨bytes, hbytes, hne, haccounts, rfl⟩, hX.transact hbytes, hpayer,
    hauthority⟩

/-- An escrow reaches its handler past the proof, on the transact that the client sent. -/
theorem Escrow.processInstruction_eq (hX : X.Documented) {escrow : Escrow}
    (hins : escrow.instruction X = .ok ins) (hpassed : ins.Passes accounts) (now : Int64) :
    processInstruction X.env ins.programId now accounts ins.data = (do
      verifyGroth16 X.env escrow.escrowProof.compressed escrow.sppProof.privateTxHash
        escrowVerifyingkey
      forward X.env accounts.tail escrow.sppProof) := by
  simp only [instruction, SdkResult.bind_eq_ok, orErr_eq_ok, pure, Except.pure,
    Except.ok.injEq] at hins
  obtain ⟨bytes, hbytes, rfl⟩ := hins
  have hread : X.env.escrowIxData bytes = some ⟨escrow.escrowProof, escrow.sppProof⟩ :=
    hX.escrow hbytes
  obtain ⟨payer, iter, rfl, -, hsigner, hwritable, -⟩ := PassedFor.payer hpassed
  have hpayer : AccountIterator.nextSignerMut (payer :: iter) = .ok (payer, iter) :=
    AccountIterator.nextSignerMut_eq_ok.mpr ⟨rfl, hsigner, hwritable⟩
  show processInstruction X.env ID now (payer :: iter) (Tag.escrow :: bytes) = _
  simp only [processInstruction, processEscrowIx, hpayer, hread, okOr, bind, Except.bind, ne_eq,
    not_true_eq_false, if_false, if_true, List.tail_cons]

/-- A withdraw likewise, past the unlock time, with the creator's account taken off first. -/
theorem Withdraw.processInstruction_eq (hX : X.Documented) {withdraw : Withdraw}
    (hins : withdraw.instruction X = .ok ins) (hpassed : ins.Passes accounts) (now : Int64)
    {pk : Fr} {publicInput : Bytes 32}
    (hpk : X.env.crypto.solanaOwnerIdentity withdraw.creator = some pk)
    (hpublic : WithdrawPublicInput.hash X.env.crypto ⟨withdraw.sppProof.privateTxHash,
      withdraw.unlockTimestamp, pk.toBytes⟩ = .ok publicInput) :
    processInstruction X.env ins.programId now accounts ins.data = (do
      checkAfterWindow now withdraw.unlockTimestamp
      verifyGroth16 X.env withdraw.withdrawProof.compressed publicInput withdrawVerifyingkey
      forward X.env accounts.tail.tail withdraw.sppProof) := by
  simp only [instruction, SdkResult.bind_eq_ok, orErr_eq_ok, pure, Except.pure,
    Except.ok.injEq] at hins
  obtain ⟨bytes, hbytes, rfl⟩ := hins
  have hread : X.env.withdrawIxData bytes =
      some ⟨withdraw.withdrawProof, withdraw.unlockTimestamp, withdraw.sppProof⟩ :=
    hX.withdraw hbytes
  obtain ⟨payer, rest, rfl, -, hsigner, hwritable, hrest⟩ := PassedFor.payer hpassed
  obtain ⟨creator, iter, rfl, haddress, hcreator, -⟩ := PassedFor.signer hrest
  have htag : Tag.withdraw ≠ Tag.escrow := by decide
  show processInstruction X.env ID now (payer :: creator :: iter) (Tag.withdraw :: bytes) = _
  rw [processInstruction, if_neg (not_not_intro rfl)]
  simp only [htag, if_false, if_true]
  exact processWithdrawIx_of_publicInput hsigner hwritable hcreator (by rw [haddress]; exact hpk)
    hread hpublic

end

end Sdk

end Zolana.TimelockEscrow
