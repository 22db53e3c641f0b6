import Zolana.Spp.Crypto

set_option autoImplicit false

/-! # What both programs run on

Accounts and `AccountIterator`, the error type, Groth16 verification and the CPI into SPP,
as far as the swap program and the timelock escrow program share them. The two programs
carry their own copies of `verifier.rs` and `shared.rs` that differ in the error enum only;
the copies are stated here once, with the error as a parameter.
-/

namespace Zolana

/-! ## Errors -/

/-- `spr_account_checks::AccountError`, as far as the iterator returns it. -/
inductive AccountError
  | notEnoughAccountKeys
  | invalidSigner
  | accountNotMutable
  deriving DecidableEq

/-- `pinocchio::error::ProgramError`, as far as the programs return it. -/
inductive ProgramError
  | custom (code : UInt32)
  | account (error : AccountError)
  | incorrectProgramId
  | invalidInstructionData
  | notEnoughAccountKeys
  deriving DecidableEq

/-- `ProgramResult` with a value. -/
abbrev ProgramResult (α : Type) := Except ProgramError α

/-- `.map_err(|_| error)?` and `.ok_or(error)?`. -/
def okOr {α : Type} (x : Option α) (error : ProgramError) : ProgramResult α :=
  match x with
  | some a => .ok a
  | none => .error error

@[simp] theorem okOr_eq_ok {α : Type} {x : Option α} {error : ProgramError} {a : α} :
    okOr x error = .ok a ↔ x = some a := by
  cases x <;> simp [okOr]

theorem bind_eq_ok {α β : Type} {x : ProgramResult α} {f : α → ProgramResult β} {b : β} :
    (x >>= f) = .ok b ↔ ∃ a, x = .ok a ∧ f a = .ok b := by
  cases x with
  | error e => simp [bind, Except.bind]
  | ok a => simp [bind, Except.bind]

/-! ## The clock

`check_within_window` and `check_after_window` of both programs' `shared.rs`. -/

/-- `now >= 0 && (now as u64) <= timestamp`. -/
def withinWindow (error : ProgramError) (now : Int64) (timestamp : UInt64) : ProgramResult Unit :=
  if 0 ≤ now ∧ now.toUInt64 ≤ timestamp then .ok () else .error error

/-- `now >= 0 && (now as u64) > timestamp`. -/
def afterWindow (error : ProgramError) (now : Int64) (timestamp : UInt64) : ProgramResult Unit :=
  if 0 ≤ now ∧ timestamp < now.toUInt64 then .ok () else .error error

/-- The cast of a nonnegative clock value keeps the value. -/
theorem toNat_toUInt64 {now : Int64} (h : 0 ≤ now) : (now.toUInt64.toNat : ℤ) = now.toInt := by
  have hle : (0 : ℤ) ≤ now.toInt := Int64.le_iff_toInt_le.mp h
  rw [Int64.toNat_toUInt64_of_le h]
  show ((now.toInt.toNat : ℕ) : ℤ) = now.toInt
  omega

theorem withinWindow_eq_ok {error : ProgramError} {now : Int64} {timestamp : UInt64} {u : Unit} :
    withinWindow error now timestamp = .ok u ↔
      0 ≤ now.toInt ∧ now.toInt ≤ (timestamp.toNat : ℤ) := by
  have hnow : 0 ≤ now ↔ 0 ≤ now.toInt := Int64.le_iff_toInt_le
  have hcast : 0 ≤ now → (now.toUInt64.toNat : ℤ) = now.toInt := toNat_toUInt64
  simp only [withinWindow, UInt64.le_iff_toNat_le]
  -- a negative clock value would wrap to a large one, but the first check stops it
  split
  · rename_i h
    have hv := hcast h.1
    exact ⟨fun _ => ⟨hnow.mp h.1, by omega⟩, fun _ => rfl⟩
  · rename_i h
    simp only [reduceCtorEq, false_iff]
    rintro ⟨h0, hle⟩
    have hv := hcast (hnow.mpr h0)
    exact h ⟨hnow.mpr h0, by omega⟩

theorem afterWindow_eq_ok {error : ProgramError} {now : Int64} {timestamp : UInt64} {u : Unit} :
    afterWindow error now timestamp = .ok u ↔
      0 ≤ now.toInt ∧ (timestamp.toNat : ℤ) < now.toInt := by
  have hnow : 0 ≤ now ↔ 0 ≤ now.toInt := Int64.le_iff_toInt_le
  have hcast : 0 ≤ now → (now.toUInt64.toNat : ℤ) = now.toInt := toNat_toUInt64
  simp only [afterWindow, UInt64.lt_iff_toNat_lt]
  split
  · rename_i h
    have hv := hcast h.1
    exact ⟨fun _ => ⟨hnow.mp h.1, by omega⟩, fun _ => rfl⟩
  · rename_i h
    simp only [reduceCtorEq, false_iff]
    rintro ⟨h0, hlt⟩
    have hv := hcast (hnow.mpr h0)
    exact h ⟨hnow.mpr h0, by omega⟩

/-! ## Accounts -/

/-- `pinocchio::AccountView`. -/
structure AccountView where
  address : Address
  isSigner : Bool
  isWritable : Bool
  deriving DecidableEq

/-- `AccountIterator`, the accounts not consumed yet. -/
abbrev AccountIterator := List AccountView

namespace AccountIterator

/-- `next_signer`. -/
def nextSigner (iter : AccountIterator) : ProgramResult (AccountView × AccountIterator) :=
  match iter with
  | [] => .error (.account .notEnoughAccountKeys)
  | a :: rest => if a.isSigner then .ok (a, rest) else .error (.account .invalidSigner)

/-- `next_signer_mut`. -/
def nextSignerMut (iter : AccountIterator) : ProgramResult (AccountView × AccountIterator) := do
  let (a, rest) ← iter.nextSigner
  if a.isWritable then .ok (a, rest) else .error (.account .accountNotMutable)

/-- `remaining`. -/
def remaining (iter : AccountIterator) : ProgramResult (List AccountView) :=
  match iter with
  | [] => .error (.account .notEnoughAccountKeys)
  | a :: rest => .ok (a :: rest)

theorem nextSigner_eq_ok {iter rest : AccountIterator} {a : AccountView} :
    iter.nextSigner = .ok (a, rest) ↔ iter = a :: rest ∧ a.isSigner = true := by
  cases iter with
  | nil => simp [nextSigner]
  | cons b t =>
      simp only [nextSigner]
      split
      · rename_i hb
        simp only [Except.ok.injEq, Prod.mk.injEq, List.cons.injEq]
        constructor
        · rintro ⟨rfl, rfl⟩
          exact ⟨⟨rfl, rfl⟩, hb⟩
        · rintro ⟨⟨rfl, rfl⟩, -⟩
          exact ⟨rfl, rfl⟩
      · rename_i hb
        simp only [reduceCtorEq, List.cons.injEq, false_iff]
        rintro ⟨⟨rfl, -⟩, ha⟩
        exact hb ha

theorem nextSignerMut_eq_ok {iter rest : AccountIterator} {a : AccountView} :
    iter.nextSignerMut = .ok (a, rest) ↔
      iter = a :: rest ∧ a.isSigner = true ∧ a.isWritable = true := by
  rw [nextSignerMut, bind_eq_ok]
  constructor
  · rintro ⟨⟨b, t⟩, hb, h⟩
    obtain ⟨rfl, hs⟩ := nextSigner_eq_ok.mp hb
    by_cases hw : b.isWritable = true
    · simp only [hw, if_true, Except.ok.injEq, Prod.mk.injEq] at h
      obtain ⟨rfl, rfl⟩ := h
      exact ⟨rfl, hs, hw⟩
    · simp [hw] at h
  · rintro ⟨rfl, hs, hw⟩
    exact ⟨(a, rest), nextSigner_eq_ok.mpr ⟨rfl, hs⟩, by simp [hw]⟩

theorem remaining_eq_ok {iter : AccountIterator} {accounts : List AccountView} :
    iter.remaining = .ok accounts ↔ accounts = iter ∧ iter ≠ [] := by
  cases iter with
  | nil => simp [remaining]
  | cons a t => simp [remaining, eq_comm]

end AccountIterator

/-! ## Groth16 -/

/-- `CompressedGroth16Proof`. -/
structure CompressedGroth16Proof where
  a : Bytes 32
  b : Bytes 64
  c : Bytes 32
  commitment : Option (Bytes 32 × Bytes 32)
  deriving DecidableEq

/-- `MakeProof`, `TakeProof`, `CancelProof`, `EscrowProof`, `WithdrawProof`: a proof without a
commitment. -/
structure PlainProof where
  proofA : Bytes 32
  proofB : Bytes 64
  proofC : Bytes 32
  deriving DecidableEq

/-- The proof as `verify_groth16` takes it, with `commitment: None`. -/
def PlainProof.compressed (proof : PlainProof) : CompressedGroth16Proof :=
  ⟨proof.proofA, proof.proofB, proof.proofC, none⟩

/-- `Groth16Verifyingkey`: the circuit it was set up for stands for the curve points, and
`vkCommitment` records whether `vk_commitment` is `Some`. -/
structure Groth16Verifyingkey (K : Type) where
  circuit : K
  vkCommitment : Bool
  deriving DecidableEq

/-- `groth16_solana`: point decompression, and `Groth16Verifier::new` or
`new_with_commitment` followed by `verify`. -/
structure Groth16 (K : Type) where
  decompressG1 : Bytes 32 → Option (Bytes 64)
  decompressG2 : Bytes 64 → Option (Bytes 128)
  verify : Bytes 64 → Bytes 128 → Bytes 64 → Option (Bytes 64 × Bytes 64) → Bytes 32 →
    Groth16Verifyingkey K → Bool

/-- `verify_groth16`, with the program's `PROOF_ERR`. -/
def verifyGroth16 {K : Type} (G : Groth16 K) (proofErr : ProgramError)
    (proof : CompressedGroth16Proof) (publicInputHash : Bytes 32) (vk : Groth16Verifyingkey K) :
    ProgramResult Unit := do
  let proofA ← okOr (G.decompressG1 proof.a) proofErr
  let proofB ← okOr (G.decompressG2 proof.b) proofErr
  let proofC ← okOr (G.decompressG1 proof.c) proofErr
  match proof.commitment, vk.vkCommitment with
  | some (commitment, commitmentPok), true =>
      let commitment ← okOr (G.decompressG1 commitment) proofErr
      let commitmentPok ← okOr (G.decompressG1 commitmentPok) proofErr
      if G.verify proofA proofB proofC (some (commitment, commitmentPok)) publicInputHash vk then
        .ok ()
      else .error proofErr
  | none, false =>
      if G.verify proofA proofB proofC none publicInputHash vk then .ok () else .error proofErr
  -- a commitment that the key does not expect is refused, and so is a missing one
  | _, _ => .error proofErr

namespace Groth16

variable {K : Type} (G : Groth16 K) (relation : K → Fr → Prop)

/-- A verified public input is a field element for which the circuit has a satisfying
witness. -/
def Sound : Prop :=
  ∀ ⦃a b c commitment publicInputHash vk⦄, G.verify a b c commitment publicInputHash vk = true →
    ∃ x, Fr.ofBytes publicInputHash = some x ∧ relation vk.circuit x

/-- A satisfying witness has a proof that `verify_groth16` accepts, of the shape the
verifying key asks for. -/
def Complete : Prop :=
  ∀ ⦃vk x⦄ (proofErr : ProgramError), relation vk.circuit x →
    ∃ proof : CompressedGroth16Proof, proof.commitment.isSome = vk.vkCommitment ∧
      verifyGroth16 G proofErr proof x.toBytes vk = .ok ()

variable {G relation}

/-- What an accepted proof says about its public input. -/
theorem Sound.of_verifyGroth16 (hG : G.Sound relation) {proofErr : ProgramError}
    {proof : CompressedGroth16Proof} {publicInputHash : Bytes 32} {vk : Groth16Verifyingkey K}
    {u : Unit} (h : verifyGroth16 G proofErr proof publicInputHash vk = .ok u) :
    ∃ x, Fr.ofBytes publicInputHash = some x ∧ relation vk.circuit x := by
  simp only [verifyGroth16, bind_eq_ok, okOr_eq_ok] at h
  obtain ⟨proofA, -, proofB, -, proofC, -, h⟩ := h
  split at h
  · simp only [bind_eq_ok, okOr_eq_ok] at h
    obtain ⟨cm, -, pok, -, h⟩ := h
    split at h
    · rename_i hv
      exact hG hv
    · cases h
  · split at h
    · rename_i hv
      exact hG hv
    · cases h
  · cases h

/-- The verifier that accepts exactly the public inputs with a satisfying witness, whatever
the proof points. -/
noncomputable def idealVerifier (relation : K → Fr → Prop) : Groth16 K where
  decompressG1 _ := some (Bytes.replicate 64 0)
  decompressG2 _ := some (Bytes.replicate 128 0)
  verify _ _ _ _ publicInputHash vk :=
    @decide (∃ x, Fr.ofBytes publicInputHash = some x ∧ relation vk.circuit x)
      (Classical.propDecidable _)

theorem idealVerifier_sound : (idealVerifier relation).Sound relation := by
  intro a b c commitment publicInputHash vk h
  simpa only [idealVerifier, decide_eq_true_eq] using h

theorem idealVerifier_ok {proofErr : ProgramError} {proof : CompressedGroth16Proof}
    {publicInputHash : Bytes 32} {x : Fr} {vk : Groth16Verifyingkey K}
    (hshape : proof.commitment.isSome = vk.vkCommitment)
    (hx : Fr.ofBytes publicInputHash = some x) (h : relation vk.circuit x) :
    verifyGroth16 (idealVerifier relation) proofErr proof publicInputHash vk = .ok () := by
  have hv : ∃ x, Fr.ofBytes publicInputHash = some x ∧ relation vk.circuit x := ⟨x, hx, h⟩
  cases hc : proof.commitment with
  | none =>
      have hvk : vk.vkCommitment = false := by rw [← hshape, hc]; rfl
      simp [verifyGroth16, hc, hvk, idealVerifier, okOr, hv, bind, Except.bind]
  | some cm =>
      have hvk : vk.vkCommitment = true := by rw [← hshape, hc]; rfl
      simp [verifyGroth16, hc, hvk, idealVerifier, okOr, hv, bind, Except.bind]

theorem idealVerifier_complete : (idealVerifier relation).Complete relation := by
  intro vk x proofErr h
  have hshape : (if vk.vkCommitment then some (Bytes.replicate 32 0, Bytes.replicate 32 0)
      else none).isSome = vk.vkCommitment := by
    cases vk.vkCommitment <;> simp
  exact ⟨⟨Bytes.replicate 32 0, Bytes.replicate 64 0, Bytes.replicate 32 0, _⟩, hshape,
    idealVerifier_ok hshape (Fr.ofBytes_toBytes x) h⟩

end Groth16

/-! ## Public inputs

`TakePublicInput`, `TakeVerifiableEncryptionPublicInput`, `CancelPublicInput` and
`WithdrawPublicInput` hash three words: `private_tx_hash`, a timestamp and a third one. -/

/-- `hash` of the public input structs. -/
def publicInputHash (C : Crypto) (error : ProgramError) (privateTxHash : Bytes 32)
    (timestamp : UInt64) (third : Bytes 32) : ProgramResult (Bytes 32) :=
  okOr (C.hashv [privateTxHash, u64RightAlign timestamp, third]) error

theorem publicInputHash_eq_ok {C : Crypto} {error : ProgramError}
    {privateTxHash third b : Bytes 32} {timestamp : UInt64} :
    publicInputHash C error privateTxHash timestamp third = .ok b ↔
      ∃ p y d, Fr.ofBytes privateTxHash = some p ∧ Fr.ofBytes third = some y ∧
        C.poseidon [p, Fr.ofU64 timestamp, y] = some d ∧ b = d.toBytes := by
  simp only [publicInputHash, okOr_eq_ok, Crypto.hashv_eq_some, List.mapM_cons, List.mapM_nil,
    ofBytes_u64RightAlign, Option.bind_eq_bind, Option.bind_eq_some_iff, Option.pure_def,
    Option.some.injEq]
  constructor
  · rintro ⟨fes, d, ⟨p, hp, _, ⟨x, rfl, _, ⟨y, hy, _, rfl, rfl⟩, rfl⟩, rfl⟩, hd, rfl⟩
    exact ⟨p, y, d, hp, hy, hd, rfl⟩
  · rintro ⟨p, y, d, hp, hy, hd, rfl⟩
    exact ⟨_, d, ⟨p, hp, _, ⟨_, rfl, _, ⟨y, hy, _, rfl, rfl⟩, rfl⟩, rfl⟩, hd, rfl⟩

/-- **A public input binds its three words.** If a circuit computes the program's public
input from `p`, `x` and `y`, then these are the field elements of the program's words. -/
theorem publicInputHash_binds {C : Crypto} (hC : C.Ideal) {error : ProgramError}
    {privateTxHash third b : Bytes 32} {timestamp : UInt64} {p x y d : Fr}
    (h : publicInputHash C error privateTxHash timestamp third = .ok b)
    (hb : Fr.ofBytes b = some d) (hcircuit : C.poseidon [p, x, y] = some d) :
    Fr.ofBytes privateTxHash = some p ∧ x = Fr.ofU64 timestamp ∧ Fr.ofBytes third = some y := by
  obtain ⟨p', y', d', hp', hy', hd', rfl⟩ := publicInputHash_eq_ok.mp h
  rw [Fr.ofBytes_toBytes, Option.some.injEq] at hb
  subst hb
  -- one preimage, read as field elements by the circuit and as words by the program
  have hlist := hC.poseidon hcircuit hd'
  simp only [List.cons.injEq, and_true] at hlist
  obtain ⟨rfl, rfl, rfl⟩ := hlist
  exact ⟨hp', rfl, hy'⟩

end Zolana
