import Zolana.Spp.Transact
import Zolana.TimelockEscrow.Circuits

set_option autoImplicit false

/-! # The timelock escrow program

`program/src` of the escrow program: the errors, the two instructions and the dispatcher.
As in the swap program an instruction returns the CPI that it makes into SPP.
-/

namespace Zolana.TimelockEscrow

/-! ## Errors

`error.rs`. -/

/-- `TimelockEscrowError`. -/
inductive TimelockEscrowError
  | proofVerificationFailed
  | invalidInstructionData
  | invalidShieldedPoolProgram
  | missingEscrowAuthority
  | hashingFailed
  | notYetUnlocked
  deriving DecidableEq

/-- `error as u32`. -/
def TimelockEscrowError.code : TimelockEscrowError → UInt32
  | .proofVerificationFailed => 9000
  | .invalidInstructionData => 9001
  | .invalidShieldedPoolProgram => 9002
  | .missingEscrowAuthority => 9003
  | .hashingFailed => 9004
  | .notYetUnlocked => 9005

/-- `From<TimelockEscrowError> for ProgramError`. -/
def TimelockEscrowError.into (error : TimelockEscrowError) : ProgramError := .custom error.code

instance : Coe TimelockEscrowError ProgramError := ⟨TimelockEscrowError.into⟩

/-! ## Instruction data -/

/-- `EscrowProof`. -/
abbrev EscrowProof := PlainProof

/-- `WithdrawProof`. -/
abbrev WithdrawProof := PlainProof

/-- `EscrowIxData`. -/
structure EscrowIxData where
  proof : EscrowProof
  transact : TransactIxData
  deriving DecidableEq

/-- `WithdrawIxData`. -/
structure WithdrawIxData where
  proof : WithdrawProof
  unlockTimestamp : UInt64
  transact : TransactIxData
  deriving DecidableEq

/-! ## What the program calls -/

/-- The external code: the hashes, the verifier, the runtime, and
`wincode::deserialize_exact` at the types of the instruction data. -/
structure Env where
  crypto : Crypto
  groth16 : Groth16 CircuitId
  runtime : Runtime
  escrowIxData : List UInt8 → Option EscrowIxData
  withdrawIxData : List UInt8 → Option WithdrawIxData

/-- The assumptions on the external code. -/
structure Env.Secure (E : Env) : Prop where
  ideal : E.crypto.Ideal
  sound : E.groth16.Sound (relation E.crypto)
  roundTrips : E.runtime.transact.RoundTrips

/-- `escrow::VERIFYINGKEY`. -/
def escrowVerifyingkey : Groth16Verifyingkey CircuitId := ⟨.escrow, false⟩

/-- `withdraw::VERIFYINGKEY`. -/
def withdrawVerifyingkey : Groth16Verifyingkey CircuitId := ⟨.withdraw, false⟩

/-- `crate::ID`. -/
def ID : Address :=
  ⟨[24, 132, 127, 59, 252, 22, 18, 234, 157, 121, 84, 184, 13, 187, 218, 87, 235, 221, 163, 129, 10,
    64, 2, 167, 57, 49, 146, 61, 5, 194, 135, 155], by decide⟩

/-- `ESCROW_AUTHORITY_PDA_SEED`, the ASCII bytes `escrow_authority`. -/
def escrowAuthorityPdaSeed : List UInt8 :=
  [101, 115, 99, 114, 111, 119, 95, 97, 117, 116, 104, 111, 114, 105, 116, 121]

/-! ## Shared

`shared.rs` and `verifier.rs`. -/

/-- `check_after_window`. -/
def checkAfterWindow (now : Int64) (unlockUnixTs : UInt64) : ProgramResult Unit :=
  afterWindow TimelockEscrowError.notYetUnlocked now unlockUnixTs

/-- `transact_accounts_error`. -/
def transactAccountsError : TransactAccountsError → ProgramError
  | .invalidSppProgram => TimelockEscrowError.invalidShieldedPoolProgram
  | .missingPdaSigner => TimelockEscrowError.missingEscrowAuthority
  | .notEnoughAccounts => .notEnoughAccountKeys

section Shared

variable (E : Env)

/-- The escrow-authority PDA. -/
def escrowAuthority : Address := (E.runtime.findProgramAddress [escrowAuthorityPdaSeed] ID).1

/-- `verify_groth16`, with this program's `PROOF_ERR`. -/
def verifyGroth16 (proof : CompressedGroth16Proof) (publicInputHash : Bytes 32)
    (verifyingKey : Groth16Verifyingkey CircuitId) : ProgramResult Unit :=
  Zolana.verifyGroth16 E.groth16 TimelockEscrowError.proofVerificationFailed proof
    publicInputHash verifyingKey

/-- `cpi_spp_transact_signed`. -/
def cpiSppTransactSigned (sppAccounts : List AccountView) (transactBytes : List UInt8) :
    ProgramResult Cpi :=
  Zolana.cpiSppTransactSigned E.runtime ID escrowAuthorityPdaSeed transactAccountsError
    sppAccounts transactBytes

/-- The common end of the two instructions. -/
def forward (iter : AccountIterator) (transact : TransactIxData) : ProgramResult Cpi :=
  Zolana.forward E.runtime TimelockEscrowError.invalidInstructionData (cpiSppTransactSigned E)
    iter transact

variable {E}

theorem forward_eq_ok {iter : AccountIterator} {transact : TransactIxData} {cpi : Cpi} :
    forward E iter transact = .ok cpi ↔
      ∃ bytes, E.runtime.transact.serialize transact = some bytes ∧ iter ≠ [] ∧
        E.runtime.sppTransactAccounts iter [escrowAuthority E] = .ok () ∧
          cpi = ⟨iter, bytes, [escrowAuthority E]⟩ := Zolana.forward_eq_ok

theorem forwards_of_forward (hE : E.Secure) {iter : AccountIterator} {transact : TransactIxData}
    {cpi : Cpi} (h : forward E iter transact = .ok cpi) :
    Forwards E.runtime (escrowAuthority E) iter transact cpi :=
  Zolana.forwards_of_forward hE.roundTrips h

theorem of_verifyGroth16 (hE : E.Secure) {proof : CompressedGroth16Proof}
    {publicInput : Bytes 32} {vk : Groth16Verifyingkey CircuitId} {u : Unit}
    (h : verifyGroth16 E proof publicInput vk = .ok u) :
    ∃ x, Fr.ofBytes publicInput = some x ∧ relation E.crypto vk.circuit x :=
  hE.sound.of_verifyGroth16 h

end Shared

/-! ## Escrow

`escrow.rs`. -/

/-- `process_escrow_ix`. -/
def processEscrowIx (E : Env) (accounts : AccountIterator) (data : List UInt8) :
    ProgramResult Cpi := do
  let (_creator, iter) ← accounts.nextSignerMut
  let ix ← okOr (E.escrowIxData data) TimelockEscrowError.invalidInstructionData
  verifyGroth16 E ix.proof.compressed ix.transact.privateTxHash escrowVerifyingkey
  forward E iter ix.transact

theorem processEscrowIx_eq_ok {E : Env} {accounts : AccountIterator} {data : List UInt8}
    {cpi : Cpi} :
    processEscrowIx E accounts data = .ok cpi ↔
      ∃ creator iter ix, accounts = creator :: iter ∧ creator.isSigner = true ∧
        creator.isWritable = true ∧ E.escrowIxData data = some ix ∧
        verifyGroth16 E ix.proof.compressed ix.transact.privateTxHash escrowVerifyingkey =
          .ok () ∧
        forward E iter ix.transact = .ok cpi := by
  simp only [processEscrowIx, bind_eq_ok, okOr_eq_ok]
  constructor
  · rintro ⟨⟨creator, iter⟩, hcreator, ix, hix, _, hverify, hforward⟩
    obtain ⟨rfl, hsigner, hwritable⟩ := AccountIterator.nextSignerMut_eq_ok.mp hcreator
    exact ⟨creator, iter, ix, rfl, hsigner, hwritable, hix, hverify, hforward⟩
  · rintro ⟨creator, iter, ix, rfl, hsigner, hwritable, hix, hverify, hforward⟩
    exact ⟨(creator, iter), AccountIterator.nextSignerMut_eq_ok.mpr ⟨rfl, hsigner, hwritable⟩, ix,
      hix, (), hverify, hforward⟩

/-- An accepted escrow: its public input is the transact's own `private_tx_hash`. -/
theorem processEscrowIx_sound {E : Env} (hE : E.Secure) {accounts : AccountIterator}
    {data : List UInt8} {cpi : Cpi} {t : TransactIxData}
    (h : processEscrowIx E accounts data = .ok cpi) (ht : cpi.Transact E.runtime t) :
    ∃ w : Escrow.Circuit, w.Satisfied E.crypto ∧
      Fr.ofBytes t.privateTxHash = some w.privateTxHash := by
  obtain ⟨creator, iter, ix, -, -, -, -, hverify, hforward⟩ := processEscrowIx_eq_ok.mp h
  obtain rfl := (forwards_of_forward hE hforward).transact ht
  obtain ⟨x, hx, w, rfl, hw⟩ := of_verifyGroth16 hE hverify
  exact ⟨w, Escrow.Circuit.define_eq_some.mp hw, hx⟩

/-! ## Withdraw

`withdraw.rs`. -/

/-- `WithdrawPublicInput`. -/
structure WithdrawPublicInput where
  privateTxHash : Bytes 32
  unlock : UInt64
  ownerPkField : Bytes 32
  deriving DecidableEq

/-- `WithdrawPublicInput::hash`. -/
def WithdrawPublicInput.hash (C : Crypto) (p : WithdrawPublicInput) : ProgramResult (Bytes 32) :=
  publicInputHash C TimelockEscrowError.hashingFailed p.privateTxHash p.unlock p.ownerPkField

/-- `process_withdraw_ix`. -/
def processWithdrawIx (E : Env) (now : Int64) (accounts : AccountIterator) (data : List UInt8) :
    ProgramResult Cpi := do
  let (_caller, iter) ← accounts.nextSignerMut
  let (creator, iter) ← iter.nextSigner
  let ownerPkField ← okOr (E.crypto.solanaOwnerIdentity creator.address)
    TimelockEscrowError.hashingFailed
  let ix ← okOr (E.withdrawIxData data) TimelockEscrowError.invalidInstructionData
  -- the unlock time comes from the instruction data, not from the transact
  checkAfterWindow now ix.unlockTimestamp
  let publicInput ← WithdrawPublicInput.hash E.crypto
    ⟨ix.transact.privateTxHash, ix.unlockTimestamp, ownerPkField.toBytes⟩
  verifyGroth16 E ix.proof.compressed publicInput withdrawVerifyingkey
  forward E iter ix.transact

theorem processWithdrawIx_eq_ok {E : Env} {now : Int64} {accounts : AccountIterator}
    {data : List UInt8} {cpi : Cpi} :
    processWithdrawIx E now accounts data = .ok cpi ↔
      ∃ caller creator iter ownerPkField ix publicInput, accounts = caller :: creator :: iter ∧
        caller.isSigner = true ∧ caller.isWritable = true ∧ creator.isSigner = true ∧
        E.crypto.solanaOwnerIdentity creator.address = some ownerPkField ∧
        E.withdrawIxData data = some ix ∧ checkAfterWindow now ix.unlockTimestamp = .ok () ∧
        WithdrawPublicInput.hash E.crypto ⟨ix.transact.privateTxHash, ix.unlockTimestamp,
          ownerPkField.toBytes⟩ = .ok publicInput ∧
        verifyGroth16 E ix.proof.compressed publicInput withdrawVerifyingkey = .ok () ∧
        forward E iter ix.transact = .ok cpi := by
  simp only [processWithdrawIx, bind_eq_ok, okOr_eq_ok]
  constructor
  · rintro ⟨⟨caller, rest⟩, hcaller, ⟨creator, iter⟩, hcreator, pk, hpk, ix, hix, _, hwindow, b, hb,
      _, hverify, hforward⟩
    obtain ⟨rfl, hsigner, hwritable⟩ := AccountIterator.nextSignerMut_eq_ok.mp hcaller
    obtain ⟨rfl, hcsigner⟩ := AccountIterator.nextSigner_eq_ok.mp hcreator
    exact ⟨caller, creator, iter, pk, ix, b, rfl, hsigner, hwritable, hcsigner, hpk, hix, hwindow,
      hb, hverify, hforward⟩
  · rintro ⟨caller, creator, iter, pk, ix, b, rfl, hsigner, hwritable, hcsigner, hpk, hix, hwindow,
      hb, hverify, hforward⟩
    exact ⟨(caller, creator :: iter),
      AccountIterator.nextSignerMut_eq_ok.mpr ⟨rfl, hsigner, hwritable⟩, (creator, iter),
      AccountIterator.nextSigner_eq_ok.mpr ⟨rfl, hcsigner⟩, pk, hpk, ix, hix, (), hwindow, b, hb,
      (), hverify, hforward⟩

/-- An accepted withdraw: the public input ties the witness to the transact's
`private_tx_hash`, the unlock time in the instruction data and the identity of the second
account. -/
theorem processWithdrawIx_sound {E : Env} (hE : E.Secure) {now : Int64}
    {accounts : AccountIterator} {data : List UInt8} {cpi : Cpi} {t : TransactIxData}
    (h : processWithdrawIx E now accounts data = .ok cpi) (ht : cpi.Transact E.runtime t) :
    ∃ (w : Withdraw.Circuit) (creator : AccountView) (ix : WithdrawIxData),
      w.Satisfied E.crypto ∧ accounts[1]? = some creator ∧ creator.isSigner = true ∧
      E.withdrawIxData data = some ix ∧ ix.transact = t ∧
      Fr.ofBytes t.privateTxHash = some w.pub.privateTxHash ∧
      w.terms.unlock = Fr.ofU64 ix.unlockTimestamp ∧
      E.crypto.solanaOwnerIdentity creator.address = some w.ownerPkField ∧
      0 ≤ now.toInt ∧ ix.unlockTimestamp.toNat < now.toInt := by
  obtain ⟨caller, creator, iter, pk, ix, publicInput, rfl, -, -, hcreator, hpk, hix, hwindow, hhash,
    hverify, hforward⟩ := processWithdrawIx_eq_ok.mp h
  obtain rfl := (forwards_of_forward hE hforward).transact ht
  obtain ⟨x, hx, w, rfl, hw⟩ := of_verifyGroth16 hE hverify
  have hsat : w.Satisfied E.crypto := Withdraw.Circuit.define_eq_some.mp hw
  obtain ⟨hp, hunlock, hthird⟩ := publicInputHash_binds hE.ideal hhash hx hsat.publicInputHash
  rw [Fr.ofBytes_toBytes, Option.some.injEq] at hthird
  subst hthird
  obtain ⟨hnow, hafter⟩ := afterWindow_eq_ok.mp hwindow
  exact ⟨w, creator, ix, hsat, rfl, hcreator, hix, rfl, hp, hunlock, hpk, hnow, hafter⟩

/-! ## The dispatcher

`lib.rs`. -/

/-- `tag::ESCROW`. -/
def Tag.escrow : UInt8 := 0

/-- `tag::WITHDRAW`. -/
def Tag.withdraw : UInt8 := 1

/-- `process_instruction`, at the clock value `now` that `Clock::get` returns. -/
def processInstruction (E : Env) (programId : Address) (now : Int64) (accounts : AccountIterator)
    (instructionData : List UInt8) : ProgramResult Cpi :=
  if programId ≠ ID then .error .incorrectProgramId
  else
    match instructionData with
    | [] => .error .invalidInstructionData
    | tag :: data =>
        if tag = Tag.escrow then processEscrowIx E accounts data
        else if tag = Tag.withdraw then processWithdrawIx E now accounts data
        else .error .invalidInstructionData

/-- An accepted instruction is one of the two, according to its tag. -/
theorem processInstruction_eq_ok {E : Env} {programId : Address} {now : Int64}
    {accounts : AccountIterator} {instructionData : List UInt8} {cpi : Cpi} :
    processInstruction E programId now accounts instructionData = .ok cpi ↔
      programId = ID ∧ ∃ data,
        (instructionData = Tag.escrow :: data ∧ processEscrowIx E accounts data = .ok cpi) ∨
        (instructionData = Tag.withdraw :: data ∧
          processWithdrawIx E now accounts data = .ok cpi) := by
  have hne : Tag.withdraw ≠ Tag.escrow := by decide
  unfold processInstruction
  by_cases hid : programId = ID
  · rw [if_neg (not_not_intro hid)]
    cases instructionData with
    | nil => simp
    | cons tag data =>
        constructor
        · intro h
          refine ⟨hid, data, ?_⟩
          simp only at h
          split at h
          · rename_i htag
            exact .inl ⟨by rw [htag], h⟩
          split at h
          · rename_i htag
            exact .inr ⟨by rw [htag], h⟩
          · cases h
        · rintro ⟨-, data', h⟩
          rcases h with ⟨heq, h⟩ | ⟨heq, h⟩
          · obtain ⟨rfl, rfl⟩ := List.cons.inj heq
            simpa using h
          · obtain ⟨rfl, rfl⟩ := List.cons.inj heq
            simpa [hne] using h
  · rw [if_pos hid]
    simp [hid]

end Zolana.TimelockEscrow
