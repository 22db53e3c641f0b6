import Zolana.Spp.Program

set_option autoImplicit false

/-! # The gnark prover

`spr_gnark_ffi_prover`, which both prover crates instantiate with their circuits. A proof that it
makes is compressed into the points that go on chain; the on-chain verifier accepts it as long as
it is checked against the public input of its own witness and the key of its own circuit.
-/

namespace Zolana

/-- `spr_gnark_ffi_prover::Error`, as far as the repository tells its cases apart. -/
inductive ProverError
  | missingCommitment
  | failed
  deriving DecidableEq

/-- `spr_gnark_ffi_prover::CompressedProof`. -/
structure CompressedProof where
  proofA : Bytes 32
  proofB : Bytes 64
  proofC : Bytes 32
  commitment : Option (Bytes 32 × Bytes 32)
  deriving DecidableEq

/-- The points in the order in which `verify_groth16` takes them. -/
def CompressedProof.groth16 (proof : CompressedProof) : CompressedGroth16Proof :=
  ⟨proof.proofA, proof.proofB, proof.proofC, proof.commitment⟩

/-- The circuits of a prover crate. A witness, a map from names to numbers in the source, is of
the circuit's own type. -/
structure Circuits (K : Type) where
  Witness : K → Type
  /-- `Define`, without an error. -/
  Satisfied : (id : K) → Witness id → Prop
  /-- The one public variable. -/
  publicInput : (id : K) → Witness id → Fr
  /-- `VERIFYINGKEY`. -/
  verifyingkey : K → Groth16Verifyingkey K

/-- `PROVER`: `prove(id, witness)?.compress()?`. -/
structure Prover {K : Type} (circuits : Circuits K) where
  prove : (id : K) → circuits.Witness id → Except ProverError CompressedProof

/-- The prover proves every satisfying witness, in a form that the verifier accepts. -/
def Prover.Complete {K : Type} {circuits : Circuits K} (prover : Prover circuits) (G : Groth16 K) :
    Prop :=
  ∀ ⦃id w⦄, circuits.Satisfied id w →
    ∃ proof, prover.prove id w = .ok proof ∧
      proof.commitment.isSome = (circuits.verifyingkey id).vkCommitment ∧
      ∀ proofErr : ProgramError, verifyGroth16 G proofErr proof.groth16
        (circuits.publicInput id w).toBytes (circuits.verifyingkey id) = .ok ()

/-- What is proved for a circuit without a commitment is accepted at the word of its public
input. -/
theorem Prover.Complete.exists_plain {K : Type} {circuits : Circuits K} {prover : Prover circuits}
    {G : Groth16 K} (h : prover.Complete G) {id : K} {w : circuits.Witness id}
    (hkey : (circuits.verifyingkey id).vkCommitment = false) (hsat : circuits.Satisfied id w)
    {publicInput : Bytes 32} (hpublic : Fr.ofBytes publicInput = some (circuits.publicInput id w)) :
    ∃ proof, prover.prove id w = .ok proof ∧ proof.commitment = none ∧
      ∀ proofErr : ProgramError, verifyGroth16 G proofErr proof.groth16 publicInput
        (circuits.verifyingkey id) = .ok () := by
  obtain ⟨proof, hprove, hshape, hverify⟩ := h hsat
  rw [hkey] at hshape
  refine ⟨proof, hprove, ?_, ?_⟩
  · rw [← Option.not_isSome_iff_eq_none, hshape]
    exact Bool.false_ne_true
  · rw [← Fr.toBytes_of_ofBytes hpublic]
    exact hverify

/-- The prover that writes zeros for points. -/
def Prover.zeros {K : Type} (circuits : Circuits K) : Prover circuits where
  prove id _ := .ok ⟨Bytes.replicate 32 0, Bytes.replicate 64 0, Bytes.replicate 32 0,
    if (circuits.verifyingkey id).vkCommitment then some (Bytes.replicate 32 0, Bytes.replicate 32 0)
    else none⟩

/-- It will do where the verifier looks at the public input alone. -/
theorem Prover.zeros_complete {K : Type} {circuits : Circuits K} {relation : K → Fr → Prop}
    (hkey : ∀ id, (circuits.verifyingkey id).circuit = id)
    (hrelation : ∀ id w, circuits.Satisfied id w → relation id (circuits.publicInput id w)) :
    (Prover.zeros circuits).Complete (Groth16.idealVerifier relation) := by
  intro id w hw
  have hshape : (if (circuits.verifyingkey id).vkCommitment
      then some (Bytes.replicate 32 0, Bytes.replicate 32 0) else none).isSome =
        (circuits.verifyingkey id).vkCommitment := by
    cases (circuits.verifyingkey id).vkCommitment <;> rfl
  refine ⟨_, rfl, hshape, fun proofErr => ?_⟩
  refine Groth16.idealVerifier_ok hshape (Fr.ofBytes_toBytes _) ?_
  rw [hkey]
  exact hrelation id w hw

end Zolana
