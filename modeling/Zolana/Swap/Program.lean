import Zolana.Spp.Transact
import Zolana.Swap.Circuits

set_option autoImplicit false

/-! # The swap program

`program/src`: the errors, the four instructions and the dispatcher. An instruction returns
the CPI that it makes into SPP. Each one comes with the exact condition under which it
accepts, and with what an accepted instruction says about the transact that SPP then reads:
a satisfying witness of the instruction's circuit whose public inputs are the transact's.
-/

namespace Zolana.Swap

/-! ## Errors

`error.rs`. -/

/-- `SwapError`. -/
inductive SwapError
  | expired
  | notYetExpired
  | proofVerificationFailed
  | invalidInstructionData
  | invalidShieldedPoolProgram
  | missingOrderAuthority
  | invalidMarkerMessage
  | markerDataNotEmpty
  | hashingFailed
  deriving DecidableEq

/-- `error as u32`. -/
def SwapError.code : SwapError → UInt32
  | .expired => 8005
  | .notYetExpired => 8006
  | .proofVerificationFailed => 8007
  | .invalidInstructionData => 8011
  | .invalidShieldedPoolProgram => 8012
  | .missingOrderAuthority => 8013
  | .invalidMarkerMessage => 8014
  | .markerDataNotEmpty => 8015
  | .hashingFailed => 8016

/-- `From<SwapError> for ProgramError`. -/
def SwapError.into (error : SwapError) : ProgramError := .custom error.code

instance : Coe SwapError ProgramError := ⟨SwapError.into⟩

/-! ## Instruction data -/

/-- `MakeProof`. -/
abbrev MakeProof := PlainProof

/-- `TakeProof`. -/
abbrev TakeProof := PlainProof

/-- `CancelProof`. -/
abbrev CancelProof := PlainProof

/-- `TakeVerifiableEncryptionProof`. -/
structure TakeVerifiableEncryptionProof where
  proofA : Bytes 32
  proofB : Bytes 64
  proofC : Bytes 32
  commitment : Bytes 32
  commitmentPok : Bytes 32
  deriving DecidableEq

/-- The proof as `verify_groth16` takes it, with its commitment. -/
def TakeVerifiableEncryptionProof.compressed (proof : TakeVerifiableEncryptionProof) :
    CompressedGroth16Proof :=
  ⟨proof.proofA, proof.proofB, proof.proofC, some (proof.commitment, proof.commitmentPok)⟩

/-- `MakeIxData`. -/
structure MakeIxData where
  proof : MakeProof
  transact : TransactIxData
  deriving DecidableEq

/-- `TakeIxData`. -/
structure TakeIxData where
  proof : TakeProof
  transact : TransactIxData
  deriving DecidableEq

/-- `TakeVerifiableEncryptionIxData`. -/
structure TakeVerifiableEncryptionIxData where
  proof : TakeVerifiableEncryptionProof
  transact : TransactIxData
  deriving DecidableEq

/-- `CancelIxData`. -/
structure CancelIxData where
  proof : CancelProof
  orderExpiry : UInt64
  transact : TransactIxData
  deriving DecidableEq

/-! ## What the program calls -/

/-- The external code: the hashes, the verifier, the runtime, and
`wincode::deserialize_exact` at the types of the instruction data. -/
structure Env where
  crypto : Crypto
  groth16 : Groth16 CircuitId
  runtime : Runtime
  makeIxData : List UInt8 → Option MakeIxData
  takeIxData : List UInt8 → Option TakeIxData
  takeVerifiableEncryptionIxData : List UInt8 → Option TakeVerifiableEncryptionIxData
  cancelIxData : List UInt8 → Option CancelIxData

/-- The assumptions on the external code: hashes without collisions, a sound proof system,
and a transact encoding that SPP reads back as it was written. -/
structure Env.Secure (E : Env) : Prop where
  ideal : E.crypto.Ideal
  sound : E.groth16.Sound (relation E.crypto)
  roundTrips : E.runtime.transact.RoundTrips

/-- `make::VERIFYINGKEY`. -/
def makeVerifyingkey : Groth16Verifyingkey CircuitId := ⟨.make, false⟩

/-- `take::VERIFYINGKEY`. -/
def takeVerifyingkey : Groth16Verifyingkey CircuitId := ⟨.take, false⟩

/-- `take_verifiable_encryption::VERIFYINGKEY`, the only one with `vk_commitment: Some`. -/
def takeVerifiableEncryptionVerifyingkey : Groth16Verifyingkey CircuitId :=
  ⟨.takeVerifiableEncryption, true⟩

/-- `cancel::VERIFYINGKEY`. -/
def cancelVerifyingkey : Groth16Verifyingkey CircuitId := ⟨.cancel, false⟩

/-- `crate::ID`. -/
def ID : Address := Bytes.replicate 32 7

/-- `ORDER_AUTHORITY_PDA_SEED`, the ASCII bytes `order_authority`. -/
def orderAuthorityPdaSeed : List UInt8 :=
  [111, 114, 100, 101, 114, 95, 97, 117, 116, 104, 111, 114, 105, 116, 121]

/-! ## Shared

`shared.rs` and `verifier.rs`. -/

/-- `check_within_window`. -/
def checkWithinWindow (now : Int64) (expiryUnixTs : UInt64) : ProgramResult Unit :=
  withinWindow SwapError.expired now expiryUnixTs

/-- `check_after_window`. -/
def checkAfterWindow (now : Int64) (expiryUnixTs : UInt64) : ProgramResult Unit :=
  afterWindow SwapError.notYetExpired now expiryUnixTs

/-- `transact_accounts_error`. -/
def transactAccountsError : TransactAccountsError → ProgramError
  | .invalidSppProgram => SwapError.invalidShieldedPoolProgram
  | .missingPdaSigner => SwapError.missingOrderAuthority
  | .notEnoughAccounts => .notEnoughAccountKeys

section Shared

variable (E : Env)

/-- The order-authority PDA. -/
def orderAuthority : Address := (E.runtime.findProgramAddress [orderAuthorityPdaSeed] ID).1

/-- `verify_groth16`, with this program's `PROOF_ERR`. -/
def verifyGroth16 (proof : CompressedGroth16Proof) (publicInputHash : Bytes 32)
    (verifyingKey : Groth16Verifyingkey CircuitId) : ProgramResult Unit :=
  Zolana.verifyGroth16 E.groth16 SwapError.proofVerificationFailed proof publicInputHash
    verifyingKey

/-- `cpi_spp_transact_signed`. -/
def cpiSppTransactSigned (sppAccounts : List AccountView) (transactBytes : List UInt8) :
    ProgramResult Cpi :=
  Zolana.cpiSppTransactSigned E.runtime ID orderAuthorityPdaSeed transactAccountsError
    sppAccounts transactBytes

/-- The common end of the four instructions. -/
def forward (iter : AccountIterator) (transact : TransactIxData) : ProgramResult Cpi :=
  Zolana.forward E.runtime SwapError.invalidInstructionData (cpiSppTransactSigned E) iter transact

variable {E}

theorem forward_eq_ok {iter : AccountIterator} {transact : TransactIxData} {cpi : Cpi} :
    forward E iter transact = .ok cpi ↔
      ∃ bytes, E.runtime.transact.serialize transact = some bytes ∧ iter ≠ [] ∧
        E.runtime.sppTransactAccounts iter [orderAuthority E] = .ok () ∧
          cpi = ⟨iter, bytes, [orderAuthority E]⟩ := Zolana.forward_eq_ok

theorem forwards_of_forward (hE : E.Secure) {iter : AccountIterator} {transact : TransactIxData}
    {cpi : Cpi} (h : forward E iter transact = .ok cpi) :
    Forwards E.runtime (orderAuthority E) iter transact cpi :=
  Zolana.forwards_of_forward hE.roundTrips h

theorem of_verifyGroth16 (hE : E.Secure) {proof : CompressedGroth16Proof}
    {publicInput : Bytes 32} {vk : Groth16Verifyingkey CircuitId} {u : Unit}
    (h : verifyGroth16 E proof publicInput vk = .ok u) :
    ∃ x, Fr.ofBytes publicInput = some x ∧ relation E.crypto vk.circuit x :=
  hE.sound.of_verifyGroth16 h

end Shared

/-! ## Make

`make.rs`. -/

/-- `MarkerData`. -/
structure MarkerData where
  orderUtxoHash : Bytes 32
  makerPubkey : Bytes 32
  deriving DecidableEq

/-- `borsh::to_vec`. -/
def MarkerData.toVec (marker : MarkerData) : List UInt8 :=
  marker.orderUtxoHash.1 ++ marker.makerPubkey.1

/-- The hash and the key can be read back from a marker. -/
theorem MarkerData.toVec_injective : Function.Injective MarkerData.toVec := by
  intro a b h
  have hlen : a.orderUtxoHash.1.length = b.orderUtxoHash.1.length := by
    rw [a.orderUtxoHash.2, b.orderUtxoHash.2]
  have hparts := List.append_inj h hlen
  have hhash : a.orderUtxoHash = b.orderUtxoHash := Subtype.ext hparts.1
  have hkey : a.makerPubkey = b.makerPubkey := Subtype.ext hparts.2
  cases a
  cases b
  rw [MarkerData.mk.injEq]
  exact ⟨hhash, hkey⟩

/-- `ORDER_OUTPUT_INDEX`. -/
def orderOutputIndex : ℕ := 1

/-- The middle of `process_make_ix`: the marker is written into the single message of the
transact, whose data has to be empty before. -/
def writeMarker (makerPubkey : Address) (transact : TransactIxData) :
    ProgramResult TransactIxData := do
  let orderOutput ← okOr (transact.outputs[orderOutputIndex]?) SwapError.invalidInstructionData
  match transact.messages with
  | [markerMessage] =>
      if markerMessage.data = [] then
        let marker : MarkerData := ⟨orderOutput.utxoHash, makerPubkey⟩
        .ok { transact with messages := [{ markerMessage with data := marker.toVec }] }
      else .error SwapError.markerDataNotEmpty
  | _ => .error SwapError.invalidMarkerMessage

theorem writeMarker_eq_ok {makerPubkey : Address} {transact transact' : TransactIxData} :
    writeMarker makerPubkey transact = .ok transact' ↔
      ∃ o m, transact.outputs[orderOutputIndex]? = some o ∧ transact.messages = [m] ∧
        m.data = [] ∧ transact' = { transact with
          messages := [{ m with data := (MarkerData.mk o.utxoHash makerPubkey).toVec }] } := by
  simp only [writeMarker, bind_eq_ok, okOr_eq_ok]
  constructor
  · rintro ⟨o, ho, h⟩
    split at h
    · rename_i m hm
      by_cases hempty : m.data = []
      · rw [if_pos hempty, Except.ok.injEq] at h
        exact ⟨o, m, ho, hm, hempty, h.symm⟩
      · rw [if_neg hempty] at h
        cases h
    · cases h
  · rintro ⟨o, m, ho, hm, hempty, rfl⟩
    refine ⟨o, ho, ?_⟩
    rw [hm]
    simp only [hempty, if_true]

/-- `process_make_ix`. -/
def processMakeIx (E : Env) (accounts : AccountIterator) (data : List UInt8) :
    ProgramResult Cpi := do
  let (payer, iter) ← accounts.nextSignerMut
  let ix ← okOr (E.makeIxData data) SwapError.invalidInstructionData
  verifyGroth16 E ix.proof.compressed ix.transact.privateTxHash makeVerifyingkey
  -- the marker is written after the proof is checked, over a message left empty for it
  let transact ← writeMarker payer.address ix.transact
  forward E iter transact

theorem processMakeIx_eq_ok {E : Env} {accounts : AccountIterator} {data : List UInt8}
    {cpi : Cpi} :
    processMakeIx E accounts data = .ok cpi ↔
      ∃ payer iter ix transact, accounts = payer :: iter ∧ payer.isSigner = true ∧
        payer.isWritable = true ∧ E.makeIxData data = some ix ∧
        verifyGroth16 E ix.proof.compressed ix.transact.privateTxHash makeVerifyingkey = .ok () ∧
        writeMarker payer.address ix.transact = .ok transact ∧
        forward E iter transact = .ok cpi := by
  simp only [processMakeIx, bind_eq_ok, okOr_eq_ok]
  constructor
  · rintro ⟨⟨payer, iter⟩, hpayer, ix, hix, _, hverify, transact, hmarker, hforward⟩
    obtain ⟨rfl, hsigner, hwritable⟩ := AccountIterator.nextSignerMut_eq_ok.mp hpayer
    exact ⟨payer, iter, ix, transact, rfl, hsigner, hwritable, hix, hverify, hmarker, hforward⟩
  · rintro ⟨payer, iter, ix, transact, rfl, hsigner, hwritable, hix, hverify, hmarker, hforward⟩
    exact ⟨(payer, iter), AccountIterator.nextSignerMut_eq_ok.mpr ⟨rfl, hsigner, hwritable⟩, ix,
      hix, (), hverify, transact, hmarker, hforward⟩

/-- An accepted make: its public input is the transact's own `private_tx_hash`, which the
marker leaves unchanged. -/
theorem processMakeIx_sound {E : Env} (hE : E.Secure) {accounts : AccountIterator}
    {data : List UInt8} {cpi : Cpi} {t : TransactIxData}
    (h : processMakeIx E accounts data = .ok cpi) (ht : cpi.Transact E.runtime t) :
    ∃ w : Make.Circuit, w.Satisfied E.crypto ∧
      Fr.ofBytes t.privateTxHash = some w.privateTxHash := by
  obtain ⟨payer, iter, ix, transact, -, -, -, -, hverify, hmarker, hforward⟩ :=
    processMakeIx_eq_ok.mp h
  obtain ⟨o, m, -, -, -, rfl⟩ := writeMarker_eq_ok.mp hmarker
  obtain rfl := (forwards_of_forward hE hforward).transact ht
  obtain ⟨x, hx, w, rfl, hw⟩ := of_verifyGroth16 hE hverify
  exact ⟨w, Make.Circuit.define_eq_some.mp hw, hx⟩

/-! ## Take

`take.rs`. -/

/-- `TakePublicInput`. -/
structure TakePublicInput where
  privateTxHash : Bytes 32
  expiry : UInt64
  firstNullifier : Bytes 32
  deriving DecidableEq

/-- `TakePublicInput::hash`. -/
def TakePublicInput.hash (C : Crypto) (p : TakePublicInput) : ProgramResult (Bytes 32) :=
  publicInputHash C SwapError.hashingFailed p.privateTxHash p.expiry p.firstNullifier

/-- `process_take_ix`. -/
def processTakeIx (E : Env) (now : Int64) (accounts : AccountIterator) (data : List UInt8) :
    ProgramResult Cpi := do
  let (_payer, iter) ← accounts.nextSignerMut
  let ix ← okOr (E.takeIxData data) SwapError.invalidInstructionData
  checkWithinWindow now ix.transact.expiryUnixTs
  -- the first published nullifier, whichever input it belongs to
  let firstInput ← okOr ix.transact.inputs.head? SwapError.invalidInstructionData
  let publicInput ← TakePublicInput.hash E.crypto
    ⟨ix.transact.privateTxHash, ix.transact.expiryUnixTs, firstInput.nullifierHash⟩
  verifyGroth16 E ix.proof.compressed publicInput takeVerifyingkey
  forward E iter ix.transact

theorem processTakeIx_eq_ok {E : Env} {now : Int64} {accounts : AccountIterator}
    {data : List UInt8} {cpi : Cpi} :
    processTakeIx E now accounts data = .ok cpi ↔
      ∃ payer iter ix firstInput publicInput, accounts = payer :: iter ∧
        payer.isSigner = true ∧ payer.isWritable = true ∧ E.takeIxData data = some ix ∧
        checkWithinWindow now ix.transact.expiryUnixTs = .ok () ∧
        ix.transact.inputs.head? = some firstInput ∧
        TakePublicInput.hash E.crypto ⟨ix.transact.privateTxHash, ix.transact.expiryUnixTs,
          firstInput.nullifierHash⟩ = .ok publicInput ∧
        verifyGroth16 E ix.proof.compressed publicInput takeVerifyingkey = .ok () ∧
        forward E iter ix.transact = .ok cpi := by
  simp only [processTakeIx, bind_eq_ok, okOr_eq_ok]
  constructor
  · rintro ⟨⟨payer, iter⟩, hpayer, ix, hix, _, hwindow, i, hi, b, hb, _, hverify, hforward⟩
    obtain ⟨rfl, hsigner, hwritable⟩ := AccountIterator.nextSignerMut_eq_ok.mp hpayer
    exact ⟨payer, iter, ix, i, b, rfl, hsigner, hwritable, hix, hwindow, hi, hb, hverify, hforward⟩
  · rintro ⟨payer, iter, ix, i, b, rfl, hsigner, hwritable, hix, hwindow, hi, hb, hverify, hforward⟩
    exact ⟨(payer, iter), AccountIterator.nextSignerMut_eq_ok.mpr ⟨rfl, hsigner, hwritable⟩, ix,
      hix, (), hwindow, i, hi, b, hb, (), hverify, hforward⟩

/-- An accepted take: the public input ties the witness to the transact's `private_tx_hash`,
its expiry and its first published nullifier. -/
theorem processTakeIx_sound {E : Env} (hE : E.Secure) {now : Int64} {accounts : AccountIterator}
    {data : List UInt8} {cpi : Cpi} {t : TransactIxData}
    (h : processTakeIx E now accounts data = .ok cpi) (ht : cpi.Transact E.runtime t) :
    (0 ≤ now.toInt ∧ now.toInt ≤ t.expiryUnixTs.toNat) ∧
      ∃ (w : Take.Circuit) (firstInput : TransactInput), w.Satisfied E.crypto ∧
        Fr.ofBytes t.privateTxHash = some w.pub.privateTxHash ∧
        w.core.order.expiry = Fr.ofU64 t.expiryUnixTs ∧ t.inputs.head? = some firstInput ∧
        Fr.ofBytes firstInput.nullifierHash = some w.pub.firstNullifier := by
  obtain ⟨payer, iter, ix, firstInput, publicInput, -, -, -, -, hwindow, hfirst, hhash, hverify,
    hforward⟩ := processTakeIx_eq_ok.mp h
  obtain rfl := (forwards_of_forward hE hforward).transact ht
  obtain ⟨x, hx, w, rfl, hw⟩ := of_verifyGroth16 hE hverify
  have hsat : w.Satisfied E.crypto := Take.Circuit.define_eq_some.mp hw
  obtain ⟨hp, hexpiry, hnullifier⟩ :=
    publicInputHash_binds hE.ideal hhash hx hsat.publicInputHash
  exact ⟨withinWindow_eq_ok.mp hwindow, w, firstInput, hsat, hp, hexpiry, hfirst, hnullifier⟩

/-! ## Take with verifiable encryption

`take_verifiable_encryption.rs`. -/

/-- `TakeVerifiableEncryptionPublicInput`. -/
structure TakeVerifiableEncryptionPublicInput where
  privateTxHash : Bytes 32
  expiry : UInt64
  destinationCiphertext : List UInt8
  deriving DecidableEq

/-- `TakeVerifiableEncryptionPublicInput::hash`. -/
def TakeVerifiableEncryptionPublicInput.hash (C : Crypto)
    (p : TakeVerifiableEncryptionPublicInput) : ProgramResult (Bytes 32) :=
  if hlen : p.destinationCiphertext.length = 72 then do
    let ctHash ← okOr (C.ciphertextHash ⟨p.destinationCiphertext, hlen⟩) SwapError.hashingFailed
    publicInputHash C SwapError.hashingFailed p.privateTxHash p.expiry ctHash.toBytes
  else .error SwapError.invalidInstructionData

theorem TakeVerifiableEncryptionPublicInput.hash_eq_ok {C : Crypto}
    {p : TakeVerifiableEncryptionPublicInput} {b : Bytes 32} :
    p.hash C = .ok b ↔
      ∃ (hlen : p.destinationCiphertext.length = 72) (ctHash : Fr),
        C.ciphertextHash ⟨p.destinationCiphertext, hlen⟩ = some ctHash ∧
        publicInputHash C SwapError.hashingFailed p.privateTxHash p.expiry ctHash.toBytes =
          .ok b := by
  rw [hash]
  split
  · rename_i hlen
    simp only [bind_eq_ok, okOr_eq_ok]
    constructor
    · rintro ⟨ctHash, hct, h⟩
      exact ⟨hlen, ctHash, hct, h⟩
    · rintro ⟨_, ctHash, hct, h⟩
      exact ⟨ctHash, hct, h⟩
  · rename_i hlen
    simp only [reduceCtorEq, false_iff]
    rintro ⟨h, -⟩
    exact hlen h

/-- `process_take_verifiable_encryption_ix`. -/
def processTakeVerifiableEncryptionIx (E : Env) (now : Int64) (accounts : AccountIterator)
    (data : List UInt8) : ProgramResult Cpi := do
  let (_payer, iter) ← accounts.nextSignerMut
  let ix ← okOr (E.takeVerifiableEncryptionIxData data) SwapError.invalidInstructionData
  checkWithinWindow now ix.transact.expiryUnixTs
  -- the proof speaks of the data of the last output and of no other
  let destinationCiphertext ← okOr (ix.transact.outputs.getLast?.bind (·.data))
    SwapError.invalidInstructionData
  let publicInput ← TakeVerifiableEncryptionPublicInput.hash E.crypto
    ⟨ix.transact.privateTxHash, ix.transact.expiryUnixTs, destinationCiphertext⟩
  verifyGroth16 E ix.proof.compressed publicInput takeVerifiableEncryptionVerifyingkey
  forward E iter ix.transact

theorem processTakeVerifiableEncryptionIx_eq_ok {E : Env} {now : Int64}
    {accounts : AccountIterator} {data : List UInt8} {cpi : Cpi} :
    processTakeVerifiableEncryptionIx E now accounts data = .ok cpi ↔
      ∃ payer iter ix ciphertext publicInput, accounts = payer :: iter ∧
        payer.isSigner = true ∧ payer.isWritable = true ∧
        E.takeVerifiableEncryptionIxData data = some ix ∧
        checkWithinWindow now ix.transact.expiryUnixTs = .ok () ∧
        ix.transact.outputs.getLast?.bind (·.data) = some ciphertext ∧
        TakeVerifiableEncryptionPublicInput.hash E.crypto
          ⟨ix.transact.privateTxHash, ix.transact.expiryUnixTs, ciphertext⟩ = .ok publicInput ∧
        verifyGroth16 E ix.proof.compressed publicInput takeVerifiableEncryptionVerifyingkey =
          .ok () ∧
        forward E iter ix.transact = .ok cpi := by
  simp only [processTakeVerifiableEncryptionIx, bind_eq_ok, okOr_eq_ok]
  constructor
  · rintro ⟨⟨payer, iter⟩, hpayer, ix, hix, _, hwindow, ct, hct, b, hb, _, hverify, hforward⟩
    obtain ⟨rfl, hsigner, hwritable⟩ := AccountIterator.nextSignerMut_eq_ok.mp hpayer
    exact ⟨payer, iter, ix, ct, b, rfl, hsigner, hwritable, hix, hwindow, hct, hb, hverify,
      hforward⟩
  · rintro ⟨payer, iter, ix, ct, b, rfl, hsigner, hwritable, hix, hwindow, hct, hb, hverify,
      hforward⟩
    exact ⟨(payer, iter), AccountIterator.nextSignerMut_eq_ok.mpr ⟨rfl, hsigner, hwritable⟩, ix,
      hix, (), hwindow, ct, hct, b, hb, (), hverify, hforward⟩

/-- An accepted take with verifiable encryption: the public input ties the witness to the
transact's `private_tx_hash`, its expiry and the data of its last output. -/
theorem processTakeVerifiableEncryptionIx_sound {E : Env} (hE : E.Secure) {now : Int64}
    {accounts : AccountIterator} {data : List UInt8} {cpi : Cpi} {t : TransactIxData}
    (h : processTakeVerifiableEncryptionIx E now accounts data = .ok cpi)
    (ht : cpi.Transact E.runtime t) :
    (0 ≤ now.toInt ∧ now.toInt ≤ t.expiryUnixTs.toNat) ∧
      ∃ (w : TakeVerifiableEncryption.Circuit) (ciphertext : Bytes 72) (ctHash : Fr),
        w.Satisfied E.crypto ∧ Fr.ofBytes t.privateTxHash = some w.pub.privateTxHash ∧
        w.core.order.expiry = Fr.ofU64 t.expiryUnixTs ∧
        t.outputs.getLast?.bind (·.data) = some ciphertext.1 ∧
        E.crypto.ciphertextHash ciphertext = some ctHash ∧
        w.checkVerifiableEncryption E.crypto = some ctHash := by
  obtain ⟨payer, iter, ix, ciphertext, publicInput, -, -, -, -, hwindow, hlast, hhash, hverify,
    hforward⟩ := processTakeVerifiableEncryptionIx_eq_ok.mp h
  obtain rfl := (forwards_of_forward hE hforward).transact ht
  obtain ⟨hlen, ctHash, hct, hhash⟩ := TakeVerifiableEncryptionPublicInput.hash_eq_ok.mp hhash
  obtain ⟨x, hx, w, rfl, hw⟩ := of_verifyGroth16 hE hverify
  have hsat : w.Satisfied E.crypto := TakeVerifiableEncryption.Circuit.define_eq_some.mp hw
  obtain ⟨ctHash', hct', hpublic⟩ := hsat.publicInputHash
  obtain ⟨hp, hexpiry, hthird⟩ := publicInputHash_binds hE.ideal hhash hx hpublic
  rw [Fr.ofBytes_toBytes, Option.some.injEq] at hthird
  subst hthird
  exact ⟨withinWindow_eq_ok.mp hwindow, w, ⟨ciphertext, hlen⟩, ctHash, hsat, hp, hexpiry, hlast,
    hct, hct'⟩

/-! ## Cancel

`cancel.rs`. -/

/-- `CancelPublicInput`. -/
structure CancelPublicInput where
  privateTxHash : Bytes 32
  expiry : UInt64
  makerOwnerPkField : Bytes 32
  deriving DecidableEq

/-- `CancelPublicInput::hash`. -/
def CancelPublicInput.hash (C : Crypto) (p : CancelPublicInput) : ProgramResult (Bytes 32) :=
  publicInputHash C SwapError.hashingFailed p.privateTxHash p.expiry p.makerOwnerPkField

/-- `process_cancel_ix`. -/
def processCancelIx (E : Env) (now : Int64) (accounts : AccountIterator) (data : List UInt8) :
    ProgramResult Cpi := do
  let (_payer, iter) ← accounts.nextSignerMut
  let (maker, iter) ← iter.nextSigner
  let makerOwnerPkField ← okOr (E.crypto.solanaOwnerIdentity maker.address)
    SwapError.hashingFailed
  let ix ← okOr (E.cancelIxData data) SwapError.invalidInstructionData
  -- the expiry comes from the instruction data, not from the transact
  checkAfterWindow now ix.orderExpiry
  let publicInput ← CancelPublicInput.hash E.crypto
    ⟨ix.transact.privateTxHash, ix.orderExpiry, makerOwnerPkField.toBytes⟩
  verifyGroth16 E ix.proof.compressed publicInput cancelVerifyingkey
  forward E iter ix.transact

theorem processCancelIx_eq_ok {E : Env} {now : Int64} {accounts : AccountIterator}
    {data : List UInt8} {cpi : Cpi} :
    processCancelIx E now accounts data = .ok cpi ↔
      ∃ payer maker iter makerOwnerPkField ix publicInput, accounts = payer :: maker :: iter ∧
        payer.isSigner = true ∧ payer.isWritable = true ∧ maker.isSigner = true ∧
        E.crypto.solanaOwnerIdentity maker.address = some makerOwnerPkField ∧
        E.cancelIxData data = some ix ∧ checkAfterWindow now ix.orderExpiry = .ok () ∧
        CancelPublicInput.hash E.crypto ⟨ix.transact.privateTxHash, ix.orderExpiry,
          makerOwnerPkField.toBytes⟩ = .ok publicInput ∧
        verifyGroth16 E ix.proof.compressed publicInput cancelVerifyingkey = .ok () ∧
        forward E iter ix.transact = .ok cpi := by
  simp only [processCancelIx, bind_eq_ok, okOr_eq_ok]
  constructor
  · rintro ⟨⟨payer, rest⟩, hpayer, ⟨maker, iter⟩, hmaker, pk, hpk, ix, hix, _, hwindow, b, hb, _,
      hverify, hforward⟩
    obtain ⟨rfl, hsigner, hwritable⟩ := AccountIterator.nextSignerMut_eq_ok.mp hpayer
    obtain ⟨rfl, hmsigner⟩ := AccountIterator.nextSigner_eq_ok.mp hmaker
    exact ⟨payer, maker, iter, pk, ix, b, rfl, hsigner, hwritable, hmsigner, hpk, hix, hwindow, hb,
      hverify, hforward⟩
  · rintro ⟨payer, maker, iter, pk, ix, b, rfl, hsigner, hwritable, hmsigner, hpk, hix, hwindow, hb,
      hverify, hforward⟩
    exact ⟨(payer, maker :: iter),
      AccountIterator.nextSignerMut_eq_ok.mpr ⟨rfl, hsigner, hwritable⟩, (maker, iter),
      AccountIterator.nextSigner_eq_ok.mpr ⟨rfl, hmsigner⟩, pk, hpk, ix, hix, (), hwindow, b, hb, (),
      hverify, hforward⟩

/-- An accepted cancel: the public input ties the witness to the transact's
`private_tx_hash`, the expiry in the instruction data and the identity of the second
account. -/
theorem processCancelIx_sound {E : Env} (hE : E.Secure) {now : Int64} {accounts : AccountIterator}
    {data : List UInt8} {cpi : Cpi} {t : TransactIxData}
    (h : processCancelIx E now accounts data = .ok cpi) (ht : cpi.Transact E.runtime t) :
    ∃ (w : Cancel.Circuit) (maker : AccountView) (ix : CancelIxData), w.Satisfied E.crypto ∧
      accounts[1]? = some maker ∧ maker.isSigner = true ∧ E.cancelIxData data = some ix ∧
      ix.transact = t ∧ Fr.ofBytes t.privateTxHash = some w.pub.privateTxHash ∧
      w.order.expiry = Fr.ofU64 ix.orderExpiry ∧
      E.crypto.solanaOwnerIdentity maker.address = some w.makerOwnerPkField ∧
      0 ≤ now.toInt ∧ ix.orderExpiry.toNat < now.toInt := by
  obtain ⟨payer, maker, iter, pk, ix, publicInput, rfl, -, -, hmaker, hpk, hix, hwindow, hhash,
    hverify, hforward⟩ := processCancelIx_eq_ok.mp h
  obtain rfl := (forwards_of_forward hE hforward).transact ht
  obtain ⟨x, hx, w, rfl, hw⟩ := of_verifyGroth16 hE hverify
  have hsat : w.Satisfied E.crypto := Cancel.Circuit.define_eq_some.mp hw
  obtain ⟨hp, hexpiry, hthird⟩ := publicInputHash_binds hE.ideal hhash hx hsat.publicInputHash
  rw [Fr.ofBytes_toBytes, Option.some.injEq] at hthird
  subst hthird
  obtain ⟨hnow, hafter⟩ := afterWindow_eq_ok.mp hwindow
  exact ⟨w, maker, ix, hsat, rfl, hmaker, hix, rfl, hp, hexpiry, hpk, hnow, hafter⟩

/-! ## The dispatcher

`lib.rs`. -/

/-- `tag::MAKE`. -/
def Tag.make : UInt8 := 2

/-- `tag::TAKE`. -/
def Tag.take : UInt8 := 3

/-- `tag::CANCEL`. -/
def Tag.cancel : UInt8 := 4

/-- `tag::TAKE_VERIFIABLE_ENCRYPTION`. -/
def Tag.takeVerifiableEncryption : UInt8 := 5

/-- `process_instruction`, at the clock value `now` that `Clock::get` returns. -/
def processInstruction (E : Env) (programId : Address) (now : Int64) (accounts : AccountIterator)
    (instructionData : List UInt8) : ProgramResult Cpi :=
  if programId ≠ ID then .error .incorrectProgramId
  else
    match instructionData with
    | [] => .error .invalidInstructionData
    | tag :: data =>
        if tag = Tag.make then processMakeIx E accounts data
        else if tag = Tag.take then processTakeIx E now accounts data
        else if tag = Tag.cancel then processCancelIx E now accounts data
        else if tag = Tag.takeVerifiableEncryption then
          processTakeVerifiableEncryptionIx E now accounts data
        else .error .invalidInstructionData

/-- An accepted instruction is one of the four, according to its tag. -/
theorem processInstruction_eq_ok {E : Env} {programId : Address} {now : Int64}
    {accounts : AccountIterator} {instructionData : List UInt8} {cpi : Cpi} :
    processInstruction E programId now accounts instructionData = .ok cpi ↔
      programId = ID ∧ ∃ data,
        (instructionData = Tag.make :: data ∧ processMakeIx E accounts data = .ok cpi) ∨
        (instructionData = Tag.take :: data ∧ processTakeIx E now accounts data = .ok cpi) ∨
        (instructionData = Tag.cancel :: data ∧ processCancelIx E now accounts data = .ok cpi) ∨
        (instructionData = Tag.takeVerifiableEncryption :: data ∧
          processTakeVerifiableEncryptionIx E now accounts data = .ok cpi) := by
  have h23 : Tag.take ≠ Tag.make := by decide
  have h24 : Tag.cancel ≠ Tag.make := by decide
  have h25 : Tag.takeVerifiableEncryption ≠ Tag.make := by decide
  have h34 : Tag.cancel ≠ Tag.take := by decide
  have h35 : Tag.takeVerifiableEncryption ≠ Tag.take := by decide
  have h45 : Tag.takeVerifiableEncryption ≠ Tag.cancel := by decide
  -- the tags are tried in order, so a branch is reached only past the earlier ones
  unfold processInstruction
  by_cases hid : programId = ID
  · rw [if_neg (not_not_intro hid)]
    cases instructionData with
    | nil => simp
    | cons tag data =>
        constructor
        · intro h
          refine ⟨hid, data, ?_⟩
          simp only at h
          split at h
          · rename_i htag
            exact .inl ⟨by rw [htag], h⟩
          split at h
          · rename_i htag
            exact .inr (.inl ⟨by rw [htag], h⟩)
          split at h
          · rename_i htag
            exact .inr (.inr (.inl ⟨by rw [htag], h⟩))
          split at h
          · rename_i htag
            exact .inr (.inr (.inr ⟨by rw [htag], h⟩))
          · cases h
        · rintro ⟨-, data', h⟩
          rcases h with ⟨heq, h⟩ | ⟨heq, h⟩ | ⟨heq, h⟩ | ⟨heq, h⟩
          · obtain ⟨rfl, rfl⟩ := List.cons.inj heq
            simpa using h
          · obtain ⟨rfl, rfl⟩ := List.cons.inj heq
            simpa [h23] using h
          · obtain ⟨rfl, rfl⟩ := List.cons.inj heq
            simpa [h24, h34] using h
          · obtain ⟨rfl, rfl⟩ := List.cons.inj heq
            simpa [h25, h35, h45] using h
  · rw [if_pos hid]
    simp [hid]

/-- Every CPI of the program is signed by the order authority and by no other PDA. -/
theorem processInstruction_pdaSigners {E : Env} {programId : Address} {now : Int64}
    {accounts : AccountIterator} {instructionData : List UInt8} {cpi : Cpi}
    (h : processInstruction E programId now accounts instructionData = .ok cpi) :
    cpi.pdaSigners = [orderAuthority E] := by
  have hforward : ∃ iter transact, forward E iter transact = .ok cpi := by
    obtain ⟨-, data, ⟨-, h⟩ | ⟨-, h⟩ | ⟨-, h⟩ | ⟨-, h⟩⟩ := processInstruction_eq_ok.mp h
    · obtain ⟨_, iter, _, transact, -, -, -, -, -, -, hf⟩ := processMakeIx_eq_ok.mp h
      exact ⟨iter, transact, hf⟩
    · obtain ⟨_, iter, ix, _, _, -, -, -, -, -, -, -, -, hf⟩ := processTakeIx_eq_ok.mp h
      exact ⟨iter, ix.transact, hf⟩
    · obtain ⟨_, _, iter, _, ix, _, -, -, -, -, -, -, -, -, -, hf⟩ := processCancelIx_eq_ok.mp h
      exact ⟨iter, ix.transact, hf⟩
    · obtain ⟨_, iter, ix, _, _, -, -, -, -, -, -, -, -, hf⟩ :=
        processTakeVerifiableEncryptionIx_eq_ok.mp h
      exact ⟨iter, ix.transact, hf⟩
  obtain ⟨iter, transact, hf⟩ := hforward
  obtain ⟨bytes, -, -, -, rfl⟩ := forward_eq_ok.mp hf
  rfl

end Zolana.Swap
