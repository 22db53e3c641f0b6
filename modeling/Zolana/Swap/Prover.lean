import Zolana.Spp.Prover
import Zolana.Swap.Agreement
import Zolana.Swap.WitnessEncryption

set_option autoImplicit false

/-! # The swap prover

`prover/src` and `sdk/src/prover.rs`. The four circuits have one proof type, `OrderProof`, with
the commitment that only the take with verifiable encryption is registered with. A proof of
another circuit loses it on the way into its instruction; the conversion for the verifiable take
fails without one.
-/

namespace Zolana.Swap

/-- The circuits of `swap_prover`. -/
def circuits (C : Crypto) : Circuits CircuitId where
  Witness
    | .make => Make.Circuit
    | .cancel => Cancel.Circuit
    | .take => Take.Circuit
    | .takeVerifiableEncryption => TakeVerifiableEncryption.Circuit
  Satisfied
    | .make, (w : Make.Circuit) => w.define C = some ()
    | .cancel, (w : Cancel.Circuit) => w.define C = some ()
    | .take, (w : Take.Circuit) => w.define C = some ()
    | .takeVerifiableEncryption, (w : TakeVerifiableEncryption.Circuit) => w.define C = some ()
  publicInput
    | .make, (w : Make.Circuit) => w.privateTxHash
    | .cancel, (w : Cancel.Circuit) => w.pub.publicInputHash
    | .take, (w : Take.Circuit) => w.pub.publicInputHash
    | .takeVerifiableEncryption, (w : TakeVerifiableEncryption.Circuit) => w.pub.publicInputHash
  verifyingkey
    | .make => makeVerifyingkey
    | .cancel => cancelVerifyingkey
    | .take => takeVerifyingkey
    | .takeVerifiableEncryption => takeVerifiableEncryptionVerifyingkey

/-- A satisfying witness puts its public input into the relation of its circuit. -/
theorem relation_of_satisfied {C : Crypto} (id : CircuitId) (w : (circuits C).Witness id)
    (h : (circuits C).Satisfied id w) : relation C id ((circuits C).publicInput id w) := by
  cases id with
  | make => exact ⟨w, rfl, h⟩
  | cancel => exact ⟨w, rfl, h⟩
  | take => exact ⟨w, rfl, h⟩
  | takeVerifiableEncryption => exact ⟨w, rfl, h⟩

/-- Each key is the one of its circuit. -/
theorem circuit_verifyingkey {C : Crypto} (id : CircuitId) :
    ((circuits C).verifyingkey id).circuit = id := by
  cases id <;> rfl

namespace Sdk

/-! ## Proofs

`prover/src/proof.rs`. -/

/-- `OrderProof`. -/
structure OrderProof where
  proofA : Bytes 32
  proofB : Bytes 64
  proofC : Bytes 32
  commitment : Option (Bytes 32 × Bytes 32)
  deriving DecidableEq

/-- `From<CompressedProof> for OrderProof`. -/
def OrderProof.from (proof : CompressedProof) : OrderProof :=
  ⟨proof.proofA, proof.proofB, proof.proofC, proof.commitment⟩

/-- `From<OrderProof>` for `MakeProof`, `TakeProof` and `CancelProof`. -/
def OrderProof.into (proof : OrderProof) : PlainProof :=
  ⟨proof.proofA, proof.proofB, proof.proofC⟩

/-- `TryFrom<OrderProof> for TakeVerifiableEncryptionProof`. -/
def OrderProof.tryInto (proof : OrderProof) : Except ProverError TakeVerifiableEncryptionProof :=
  match proof.commitment with
  | none => .error .missingCommitment
  | some (commitment, commitmentPok) =>
      .ok ⟨proof.proofA, proof.proofB, proof.proofC, commitment, commitmentPok⟩

/-- Without a commitment nothing is lost. -/
theorem OrderProof.compressed_into {proof : CompressedProof} (h : proof.commitment = none) :
    (OrderProof.from proof).into.compressed = proof.groth16 := by
  rw [CompressedProof.groth16, h]
  rfl

/-- With one, the conversion succeeds and keeps it. -/
theorem OrderProof.exists_tryInto {proof : CompressedProof} (h : proof.commitment.isSome = true) :
    ∃ takeProof, (OrderProof.from proof).tryInto = .ok takeProof ∧
      takeProof.compressed = proof.groth16 := by
  obtain ⟨⟨commitment, commitmentPok⟩, hcommitment⟩ := Option.isSome_iff_exists.mp h
  refine ⟨⟨proof.proofA, proof.proofB, proof.proofC, commitment, commitmentPok⟩, ?_, ?_⟩
  · simp only [OrderProof.tryInto, OrderProof.from, hcommitment]
  · rw [CompressedProof.groth16, hcommitment]
    rfl

/-! ## Proving

`prove` of the proof inputs, behind the methods of `SwapProverClient`. -/

section

variable {C : Crypto} (prover : Prover (circuits C))

/-- `SwapProverClient::prove_make`. -/
def proveMake (inputs : MakeProofInputs) : SdkResult OrderProof :=
  orErr ((prover.prove .make inputs.witness).toOption.map .from)

/-- `SwapProverClient::prove_take`. -/
def proveTake (inputs : TakeProofInputs) : SdkResult OrderProof :=
  orErr ((prover.prove .take inputs.witness).toOption.map .from)

/-- `SwapProverClient::prove_cancel`. -/
def proveCancel (inputs : CancelProofInputs) : SdkResult OrderProof :=
  orErr ((prover.prove .cancel inputs.witness).toOption.map .from)

/-- `SwapProverClient::prove_take_verifiable_encryption`. -/
def proveTakeVerifiableEncryption (inputs : TakeVerifiableEncryptionProofInputs) :
    SdkResult OrderProof :=
  orErr ((prover.prove .takeVerifiableEncryption inputs.witness).toOption.map .from)

end

section

variable {E : Env} {prover : Prover (circuits E.crypto)}

/-- What is proved for a circuit without a commitment passes the program. -/
theorem exists_plain_proof (hprover : prover.Complete E.groth16) (id : CircuitId)
    {w : (circuits E.crypto).Witness id}
    (hkey : ((circuits E.crypto).verifyingkey id).vkCommitment = false)
    (hsat : (circuits E.crypto).Satisfied id w) {publicInput : Bytes 32}
    (hpublic : Fr.ofBytes publicInput = some ((circuits E.crypto).publicInput id w)) :
    ∃ proof, orErr ((prover.prove id w).toOption.map OrderProof.from) = .ok proof ∧
      verifyGroth16 E proof.into.compressed publicInput ((circuits E.crypto).verifyingkey id) =
        .ok () := by
  obtain ⟨proof, hprove, hnone, hverify⟩ := hprover.exists_plain hkey hsat hpublic
  refine ⟨.from proof, by rw [hprove]; rfl, ?_⟩
  rw [OrderProof.compressed_into hnone]
  exact hverify _

/-- The proof of a make. -/
theorem exists_proveMake (hprover : prover.Complete E.groth16) {inputs : MakeProofInputs}
    (hsat : inputs.witness.Satisfied E.crypto) {d : Fr}
    (hword : Fr.ofBytes inputs.privateTxHash = some d) :
    ∃ proof, proveMake prover inputs = .ok proof ∧
      verifyGroth16 E proof.into.compressed inputs.privateTxHash makeVerifyingkey = .ok () :=
  exists_plain_proof hprover .make rfl (Make.Circuit.define_eq_some.mpr hsat)
    (hword.trans (congrArg some (decimal_of_ofBytes hword).symm))

/-- The proof of a derived take. -/
theorem exists_proveTake (hprover : prover.Complete E.groth16) {inputs : TakeProofInputs}
    (hsat : inputs.witness.Satisfied E.crypto) {d : Fr}
    (hword : Fr.ofBytes inputs.publicInputHash = some d) :
    ∃ proof, proveTake prover inputs = .ok proof ∧
      verifyGroth16 E proof.into.compressed inputs.publicInputHash takeVerifyingkey = .ok () :=
  exists_plain_proof hprover .take rfl (Take.Circuit.define_eq_some.mpr hsat)
    (hword.trans (congrArg some (decimal_of_ofBytes hword).symm))

/-- The proof of a cancel. -/
theorem exists_proveCancel (hprover : prover.Complete E.groth16) {inputs : CancelProofInputs}
    (hsat : inputs.witness.Satisfied E.crypto) {d : Fr}
    (hword : Fr.ofBytes inputs.publicInputHash = some d) :
    ∃ proof, proveCancel prover inputs = .ok proof ∧
      verifyGroth16 E proof.into.compressed inputs.publicInputHash cancelVerifyingkey = .ok () :=
  exists_plain_proof hprover .cancel rfl (Cancel.Circuit.define_eq_some.mpr hsat)
    (hword.trans (congrArg some (decimal_of_ofBytes hword).symm))

/-- The proof of a take with verifiable encryption converts, commitment included. -/
theorem exists_proveTakeVerifiableEncryption (hprover : prover.Complete E.groth16)
    {inputs : TakeVerifiableEncryptionProofInputs} (hsat : inputs.witness.Satisfied E.crypto)
    {d : Fr} (hword : Fr.ofBytes inputs.publicInputHash = some d) :
    ∃ proof takeProof, proveTakeVerifiableEncryption prover inputs = .ok proof ∧
      proof.tryInto = .ok takeProof ∧
      verifyGroth16 E takeProof.compressed inputs.publicInputHash
        takeVerifiableEncryptionVerifyingkey = .ok () := by
  have hdefine : (circuits E.crypto).Satisfied .takeVerifiableEncryption inputs.witness :=
    TakeVerifiableEncryption.Circuit.define_eq_some.mpr hsat
  obtain ⟨proof, hprove, hshape, hverify⟩ := hprover hdefine
  obtain ⟨takeProof, hinto, hcompressed⟩ := OrderProof.exists_tryInto hshape
  refine ⟨.from proof, takeProof, ?_, hinto, ?_⟩
  · rw [proveTakeVerifiableEncryption, hprove]
    rfl
  · have hpublic : inputs.publicInputHash = Fr.toBytes (decimal inputs.publicInputHash) := by
      rw [decimal_of_ofBytes hword]
      exact (Fr.toBytes_of_ofBytes hword).symm
    rw [hcompressed, hpublic]
    exact hverify _

end

end Sdk

end Zolana.Swap
