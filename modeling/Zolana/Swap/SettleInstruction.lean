import Zolana.Accounts
import Zolana.Swap.Prover

set_option autoImplicit false

/-! # The settling instructions

`take/instruction.rs`, `take_verifiable_encryption/instruction.rs` and `cancel/instruction.rs`. The
program reads back what the SDK writes: each instruction reaches its handler with its own proof and
transact, and SPP gets the accounts behind the ones that the handler takes.
-/

namespace Zolana.Swap.Sdk

/-! ## Surroundings -/

/-- The surroundings of all four instructions. -/
structure SettleContext extends InstructionContext where
  /-- `wincode::serialize` at `TakeIxData`. -/
  serializeTakeIxData : TakeIxData → Option (List UInt8)
  /-- `wincode::serialize` at `TakeVerifiableEncryptionIxData`. -/
  serializeTakeVerifiableEncryptionIxData : TakeVerifiableEncryptionIxData → Option (List UInt8)
  /-- `wincode::serialize` at `CancelIxData`. -/
  serializeCancelIxData : CancelIxData → Option (List UInt8)

/-- How the SDK lays out the accounts for SPP. -/
def InstructionContext.layout (I : InstructionContext) : SppLayout :=
  ⟨I.nullifierPdaAccounts, I.shieldedPoolProgramId, orderAuthority I.env⟩

/-- What the SDK relies on: the program reads back what it writes, and accepts the accounts for
SPP. -/
structure SettleContext.Documented (I : SettleContext) : Prop where
  make : I.RoundTrips
  take : ∀ ⦃ix bytes⦄, I.serializeTakeIxData ix = some bytes → I.env.takeIxData bytes = some ix
  takeVerifiableEncryption : ∀ ⦃ix bytes⦄,
    I.serializeTakeVerifiableEncryptionIxData ix = some bytes →
      I.env.takeVerifiableEncryptionIxData bytes = some ix
  cancel : ∀ ⦃ix bytes⦄, I.serializeCancelIxData ix = some bytes →
    I.env.cancelIxData bytes = some ix
  transact : I.env.runtime.transact.RoundTrips
  accounts : I.layout.Accepted I.env.runtime

/-! ## Instructions -/

/-- `Take`. -/
structure Take where
  payer : Address
  tree : Address
  takeProof : TakeProof
  sppProof : TransactIxData
  deriving DecidableEq

/-- `Take::instruction`. -/
def Take.instruction (I : SettleContext) (take : Take) : SdkResult Instruction := do
  let serializedIx ← orErr (I.serializeTakeIxData ⟨take.takeProof, take.sppProof⟩)
  -- the order is the first input, the taker's own note the second
  let accounts := .new take.payer true :: I.layout.accounts take.payer take.tree take.sppProof ++
    [.newReadonly take.payer true]
  return ⟨ID, accounts, Tag.take :: serializedIx⟩

/-- `TakeVerifiableEncryption`. -/
structure TakeVerifiableEncryption where
  payer : Address
  tree : Address
  takeProof : TakeVerifiableEncryptionProof
  sppProof : TransactIxData
  deriving DecidableEq

/-- `TakeVerifiableEncryption::instruction`. -/
def TakeVerifiableEncryption.instruction (I : SettleContext) (take : TakeVerifiableEncryption) :
    SdkResult Instruction := do
  let serializedIx ← orErr
    (I.serializeTakeVerifiableEncryptionIxData ⟨take.takeProof, take.sppProof⟩)
  let accounts := .new take.payer true :: I.layout.accounts take.payer take.tree take.sppProof ++
    [.newReadonly take.payer true]
  return ⟨ID, accounts, Tag.takeVerifiableEncryption :: serializedIx⟩

/-- `Cancel`. -/
structure Cancel where
  maker : Address
  payer : Address
  tree : Address
  cancelProof : CancelProof
  orderExpiry : UInt64
  sppProof : TransactIxData
  deriving DecidableEq

/-- `Cancel::instruction`. -/
def Cancel.instruction (I : SettleContext) (cancel : Cancel) : SdkResult Instruction := do
  let serializedIx ← orErr
    (I.serializeCancelIxData ⟨cancel.cancelProof, cancel.orderExpiry, cancel.sppProof⟩)
  -- the maker signs right after the fee payer
  let accounts := .new cancel.payer true :: .newReadonly cancel.maker true ::
    I.layout.accounts cancel.payer cancel.tree cancel.sppProof
  return ⟨ID, accounts, Tag.cancel :: serializedIx⟩

/-! ## What the program does with them -/

/-- What an instruction leaves for SPP is forwarded, and the payer and the order authority sign
it. -/
theorem forward_eq_ok_of_passed {I : SettleContext} (hI : I.Documented) {payer tree : Address}
    {transact : TransactIxData} {owners : List AccountMeta} {accounts : List AccountView}
    (h : PassedFor (I.layout.accounts payer tree transact ++ owners) accounts)
    (hroom : accounts.length ≤ cpiRoom) {bytes : List UInt8}
    (hbytes : I.env.runtime.transact.serialize transact = some bytes) :
    ∃ cpi, forward I.env accounts transact = .ok cpi ∧ cpi.Transact I.env.runtime transact ∧
      payer ∈ cpi.signers ∧ orderAuthority I.env ∈ cpi.signers := by
  obtain ⟨hne, haccounts, hpayer, hauthority⟩ := hI.accounts.cpi h hroom bytes
  exact ⟨_, forward_eq_ok.mpr ⟨bytes, hbytes, hne, haccounts, rfl⟩, hI.transact hbytes, hpayer,
    hauthority⟩

section

variable {I : SettleContext} {ins : Instruction} {accounts : List AccountView}

/-- A derived take reaches its handler past the window and the proof, on the transact that the
client sent. -/
theorem Take.processInstruction_eq (hI : I.Documented) {take : Take}
    (hins : take.instruction I = .ok ins) (hpassed : ins.Passes accounts) (now : Int64)
    {firstInput : TransactInput} {publicInput : Bytes 32}
    (hfirst : take.sppProof.inputs.head? = some firstInput)
    (hpublic : TakePublicInput.hash I.env.crypto ⟨take.sppProof.privateTxHash,
      take.sppProof.expiryUnixTs, firstInput.nullifierHash⟩ = .ok publicInput) :
    processInstruction I.env ins.programId now accounts ins.data = (do
      checkWithinWindow now take.sppProof.expiryUnixTs
      verifyGroth16 I.env take.takeProof.compressed publicInput takeVerifyingkey
      forward I.env accounts.tail take.sppProof) := by
  simp only [instruction, SdkResult.bind_eq_ok, orErr_eq_ok, pure, Except.pure,
    Except.ok.injEq] at hins
  obtain ⟨bytes, hbytes, rfl⟩ := hins
  have hread : I.env.takeIxData bytes = some ⟨take.takeProof, take.sppProof⟩ := hI.take hbytes
  obtain ⟨payer, iter, rfl, -, hsigner, hwritable, -⟩ := PassedFor.payer hpassed
  have hpayer : AccountIterator.nextSignerMut (payer :: iter) = .ok (payer, iter) :=
    AccountIterator.nextSignerMut_eq_ok.mpr ⟨rfl, hsigner, hwritable⟩
  have htag : Tag.take ≠ Tag.make := by decide
  show processInstruction I.env ID now (payer :: iter) (Tag.take :: bytes) = _
  simp only [processInstruction, processTakeIx, hpayer, hread, hfirst, hpublic, htag, okOr, bind,
    Except.bind, ne_eq, not_true_eq_false, if_false, if_true, List.tail_cons]

/-- A take with verifiable encryption likewise, with the data of the last output. -/
theorem TakeVerifiableEncryption.processInstruction_eq (hI : I.Documented)
    {take : TakeVerifiableEncryption} (hins : take.instruction I = .ok ins)
    (hpassed : ins.Passes accounts) (now : Int64) {ciphertext : List UInt8}
    {publicInput : Bytes 32}
    (hlast : take.sppProof.outputs.getLast?.bind (·.data) = some ciphertext)
    (hpublic : TakeVerifiableEncryptionPublicInput.hash I.env.crypto
      ⟨take.sppProof.privateTxHash, take.sppProof.expiryUnixTs, ciphertext⟩ = .ok publicInput) :
    processInstruction I.env ins.programId now accounts ins.data = (do
      checkWithinWindow now take.sppProof.expiryUnixTs
      verifyGroth16 I.env take.takeProof.compressed publicInput
        takeVerifiableEncryptionVerifyingkey
      forward I.env accounts.tail take.sppProof) := by
  simp only [instruction, SdkResult.bind_eq_ok, orErr_eq_ok, pure, Except.pure,
    Except.ok.injEq] at hins
  obtain ⟨bytes, hbytes, rfl⟩ := hins
  have hread : I.env.takeVerifiableEncryptionIxData bytes =
      some ⟨take.takeProof, take.sppProof⟩ := hI.takeVerifiableEncryption hbytes
  obtain ⟨payer, iter, rfl, -, hsigner, hwritable, -⟩ := PassedFor.payer hpassed
  have hpayer : AccountIterator.nextSignerMut (payer :: iter) = .ok (payer, iter) :=
    AccountIterator.nextSignerMut_eq_ok.mpr ⟨rfl, hsigner, hwritable⟩
  have hmake : Tag.takeVerifiableEncryption ≠ Tag.make := by decide
  have htake : Tag.takeVerifiableEncryption ≠ Tag.take := by decide
  have hcancel : Tag.takeVerifiableEncryption ≠ Tag.cancel := by decide
  show processInstruction I.env ID now (payer :: iter) (Tag.takeVerifiableEncryption :: bytes) = _
  simp only [processInstruction, processTakeVerifiableEncryptionIx, hpayer, hread, hlast, hpublic,
    hmake, htake, hcancel, okOr, bind, Except.bind, ne_eq, not_true_eq_false, if_false, if_true,
    List.tail_cons]

/-- A cancel likewise, with the expiry of its own and the maker's account taken off first. -/
theorem Cancel.processInstruction_eq (hI : I.Documented) {cancel : Cancel}
    (hins : cancel.instruction I = .ok ins) (hpassed : ins.Passes accounts) (now : Int64)
    {pk : Fr} {publicInput : Bytes 32} (hpk : I.env.crypto.solanaOwnerIdentity cancel.maker = some pk)
    (hpublic : CancelPublicInput.hash I.env.crypto ⟨cancel.sppProof.privateTxHash,
      cancel.orderExpiry, pk.toBytes⟩ = .ok publicInput) :
    processInstruction I.env ins.programId now accounts ins.data = (do
      checkAfterWindow now cancel.orderExpiry
      verifyGroth16 I.env cancel.cancelProof.compressed publicInput cancelVerifyingkey
      forward I.env accounts.tail.tail cancel.sppProof) := by
  simp only [instruction, SdkResult.bind_eq_ok, orErr_eq_ok, pure, Except.pure,
    Except.ok.injEq] at hins
  obtain ⟨bytes, hbytes, rfl⟩ := hins
  have hread : I.env.cancelIxData bytes =
      some ⟨cancel.cancelProof, cancel.orderExpiry, cancel.sppProof⟩ := hI.cancel hbytes
  obtain ⟨payer, rest, rfl, -, hsigner, hwritable, hrest⟩ := PassedFor.payer hpassed
  obtain ⟨maker, iter, rfl, haddress, hmaker, -⟩ := PassedFor.signer hrest
  have hmake : Tag.cancel ≠ Tag.make := by decide
  have htake : Tag.cancel ≠ Tag.take := by decide
  show processInstruction I.env ID now (payer :: maker :: iter) (Tag.cancel :: bytes) = _
  rw [processInstruction, if_neg (not_not_intro rfl)]
  simp only [hmake, htake, if_false, if_true]
  exact processCancelIx_of_publicInput hsigner hwritable hmaker (by rw [haddress]; exact hpk)
    hread hpublic

end

end Zolana.Swap.Sdk
