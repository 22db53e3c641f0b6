import Zolana.Spp.Field

set_option autoImplicit false

/-! # The gnark frontend

The methods of gnark's `frontend.API` that the circuits call. A circuit is a computation in
`Option`: it fails as soon as a constraint is violated, and a witness satisfies the circuit
when `define` returns `some ()`. The lemmas turn a satisfied constraint into the proposition
it states.
-/

namespace Zolana.Gnark

/-- `api.AssertIsEqual`. -/
def assertIsEqual (a b : Fr) : Option Unit := if a = b then some () else none

/-- `api.AssertIsDifferent`. -/
def assertIsDifferent (a b : Fr) : Option Unit := if a ≠ b then some () else none

/-- `api.AssertIsBoolean`. -/
def assertIsBoolean (a : Fr) : Option Unit := if a = 0 ∨ a = 1 then some () else none

/-- `api.ToBinary(a, n)` for `n` below the bit length of the field, its bits unused: the
decomposition exists exactly for the elements below `2 ^ n`. -/
def toBinary (a : Fr) (n : ℕ) : Option Unit := if a.val < 2 ^ n then some () else none

/-- `FieldToBytesBE(api, a, n)`: the `n` big-endian bytes of an element that fits in them. -/
def fieldToBytesBE (a : Fr) (n : ℕ) : Option (Bytes n) :=
  if a.val < 256 ^ n then
    some ⟨BigEndian.toBytesBE n a.val, BigEndian.length_toBytesBE n a.val⟩
  else none

@[simp] theorem assertIsEqual_eq_some {a b : Fr} {u : Unit} :
    assertIsEqual a b = some u ↔ a = b := by
  simp [assertIsEqual]

@[simp] theorem assertIsDifferent_eq_some {a b : Fr} {u : Unit} :
    assertIsDifferent a b = some u ↔ a ≠ b := by
  simp [assertIsDifferent]

@[simp] theorem assertIsBoolean_eq_some {a : Fr} {u : Unit} :
    assertIsBoolean a = some u ↔ a = 0 ∨ a = 1 := by
  rw [assertIsBoolean]
  split <;> simp [*]

@[simp] theorem toBinary_eq_some {a : Fr} {n : ℕ} {u : Unit} :
    toBinary a n = some u ↔ a.val < 2 ^ n := by
  simp [toBinary]

theorem fieldToBytesBE_eq_some {a : Fr} {n : ℕ} {bs : Bytes n} :
    fieldToBytesBE a n = some bs ↔ a.val < 256 ^ n ∧ bs.1 = BigEndian.toBytesBE n a.val := by
  rw [fieldToBytesBE]
  split
  · rename_i h
    simp only [Option.some.injEq, h, true_and, Subtype.ext_iff]
    exact eq_comm
  · rename_i h
    simp [h]

/-- On 32 bytes the gadget is the canonical encoding. -/
theorem fieldToBytesBE_word {a : Fr} {bs : Bytes 32} :
    fieldToBytesBE a 32 = some bs ↔ bs = a.toBytes := by
  rw [fieldToBytesBE_eq_some, Subtype.ext_iff]
  exact and_iff_right a.val_lt

/-- On eight bytes the gadget encodes the 64-bit integers. -/
theorem fieldToBytesBE_u64 {a : Fr} {bs : Bytes 8} :
    fieldToBytesBE a 8 = some bs ↔ ∃ value : UInt64, a = Fr.ofU64 value ∧ bs = u64ToBeBytes value := by
  rw [fieldToBytesBE_eq_some]
  constructor
  · rintro ⟨hlt, hbs⟩
    obtain ⟨value, hval⟩ : ∃ value : UInt64, value.toNat = a.val :=
      ⟨UInt64.ofNat a.val, UInt64.toNat_ofNat_of_lt' hlt⟩
    refine ⟨value, Fin.ext hval.symm, Subtype.ext ?_⟩
    rw [hbs, ← hval]
    rfl
  · rintro ⟨value, rfl, rfl⟩
    exact ⟨value.toNat_lt, rfl⟩

end Zolana.Gnark
