import Mathlib.Data.ZMod.Defs
import Zolana.Basic.BigEndian
import Zolana.Basic.Oracle

set_option autoImplicit false

/-! # Field elements and 32-byte words

The circuits compute over the BN254 scalar field and the programs over big-endian 32-byte
words. A word denotes a field element only if it is below the modulus; `Fr.ofBytes` is that
check, and a word that passes it is the only encoding of its element.
-/

namespace Zolana

open BigEndian

/-- The order of the BN254 scalar field. -/
def modulus : ℕ :=
  21888242871839275222246405745257275088548364400416034343698204186575808495617

instance : NeZero modulus := ⟨by decide⟩

/-- A field element, gnark's `frontend.Variable`. -/
abbrev Fr := Fin modulus

/-- `[u8; n]`. -/
abbrev Bytes (n : ℕ) := {bs : List UInt8 // bs.length = n}

/-- A Solana account address. -/
abbrev Address := Bytes 32

namespace Bytes

/-- `[b; n]`. -/
def replicate (n : ℕ) (b : UInt8) : Bytes n := ⟨List.replicate n b, List.length_replicate⟩

/-- One array after the other. -/
def append {m n : ℕ} (a : Bytes m) (b : Bytes n) : Bytes (m + n) :=
  ⟨a.1 ++ b.1, by rw [List.length_append, a.2, b.2]⟩

/-- XOR of two arrays, byte by byte. -/
def xor {n : ℕ} (a b : Bytes n) : Bytes n :=
  ⟨List.zipWith (· ^^^ ·) a.1 b.1, by rw [List.length_zipWith, a.2, b.2, Nat.min_self]⟩

/-- `bs.get(i..i + k)`, converted to an array. -/
def slice (bs : List UInt8) (i k : ℕ) : Option (Bytes k) :=
  if h : i + k ≤ bs.length then
    some ⟨(bs.drop i).take k, by rw [List.length_take, List.length_drop]; omega⟩
  else none

theorem zipWith_xor_cancel (bs : List UInt8) :
    ∀ {as : List UInt8}, as.length = bs.length →
      List.zipWith (· ^^^ ·) (List.zipWith (· ^^^ ·) as bs) bs = as := by
  induction bs with
  | nil =>
      intro as h
      rw [List.length_eq_zero_iff.mp h]
      rfl
  | cons b bs ih =>
      intro as h
      cases as with
      | nil => cases h
      | cons a as =>
          have hlen : as.length = bs.length := Nat.succ.inj h
          rw [List.zipWith_cons_cons, List.zipWith_cons_cons, ih hlen, UInt8.xor_assoc,
            UInt8.xor_self, UInt8.xor_zero]

/-- XOR with one stream twice does nothing. -/
@[simp] theorem xor_xor {n : ℕ} (a b : Bytes n) : (a.xor b).xor b = a :=
  Subtype.ext (zipWith_xor_cancel b.1 (by rw [a.2, b.2]))

/-- A slice reads back the array that stands at its offset. -/
theorem slice_eq_some {bs before after : List UInt8} {i k : ℕ} {b : Bytes k}
    (hbs : bs = before ++ b.1 ++ after) (hi : before.length = i) : slice bs i k = some b := by
  obtain ⟨b, rfl⟩ := b
  subst hbs hi
  have hle : before.length + b.length ≤ (before ++ b ++ after).length := by
    simp only [List.length_append]
    omega
  have htake : ((before ++ b ++ after).drop before.length).take b.length = b := by
    rw [List.append_assoc, List.drop_left, List.take_left]
  rw [slice, dif_pos hle]
  exact congrArg some (Subtype.ext htake)

end Bytes

namespace Fr

/-- The field element of an unsigned 64-bit integer. -/
def ofU64 (x : UInt64) : Fr := ⟨x.toNat, lt_trans x.toNat_lt (by decide)⟩

@[simp] theorem val_ofU64 (x : UInt64) : (ofU64 x).val = x.toNat := rfl

@[simp] theorem ofU64_inj {x y : UInt64} : ofU64 x = ofU64 y ↔ x = y := by
  rw [Fin.ext_iff, val_ofU64, val_ofU64, UInt64.toNat_inj]

/-- The field element of a byte. -/
def ofU8 (x : UInt8) : Fr := ⟨x.toNat, lt_trans x.toNat_lt (by decide)⟩

theorem ofU8_injective : Function.Injective ofU8 := by
  intro x y h
  have hval : (ofU8 x).val = (ofU8 y).val := congrArg Fin.val h
  exact UInt8.toNat_inj.mp hval

/-- The field element `k + i`; distinct indices give distinct elements below the modulus. -/
def offset (k i : ℕ) : Fr := Fin.ofNat modulus (k + i)

theorem tabulate_offset_collisionFree {α : Type} [DecidableEq α] {k : ℕ} {xs : List α}
    (hk : k + xs.length ≤ modulus) : Oracle.CollisionFree (Oracle.tabulate (offset k) xs) := by
  refine Oracle.tabulate_collisionFree fun i hi j hj h => ?_
  have hval : (k + i) % modulus = (k + j) % modulus := congrArg Fin.val h
  rw [Nat.mod_eq_of_lt (by omega), Nat.mod_eq_of_lt (by omega)] at hval
  omega

/-- The big-endian encoding of a field element. -/
def toBytes (x : Fr) : Bytes 32 := ⟨toBytesBE 32 x.val, length_toBytesBE 32 x.val⟩

/-- The field element a word denotes; words from the modulus on denote none. -/
def ofBytes (b : Bytes 32) : Option Fr :=
  if h : ofBytesBE b.1 < modulus then some ⟨ofBytesBE b.1, h⟩ else none

theorem val_lt (x : Fr) : x.val < 256 ^ 32 := lt_trans x.isLt (by decide)

theorem ofBytes_eq_some {b : Bytes 32} {x : Fr} : ofBytes b = some x ↔ ofBytesBE b.1 = x.val := by
  unfold ofBytes
  split
  · rw [Option.some.injEq, Fin.ext_iff]
  · rename_i h
    simp only [reduceCtorEq, false_iff]
    intro heq
    exact h (heq ▸ x.isLt)

theorem ofBytesBE_toBytes (x : Fr) : ofBytesBE (toBytes x).1 = x.val := by
  rw [toBytes]
  exact ofBytesBE_toBytesBE (val_lt x)

@[simp] theorem ofBytes_toBytes (x : Fr) : ofBytes (toBytes x) = some x :=
  ofBytes_eq_some.mpr (ofBytesBE_toBytes x)

theorem toBytes_of_ofBytes {b : Bytes 32} {x : Fr} (h : ofBytes b = some x) : toBytes x = b := by
  have hval : ofBytesBE b.1 = x.val := ofBytes_eq_some.mp h
  apply Subtype.ext
  apply ofBytesBE_inj
  · rw [(toBytes x).2, b.2]
  · rw [hval, ofBytesBE_toBytes]

theorem toBytes_injective : Function.Injective toBytes := by
  intro x y h
  have hx := ofBytes_toBytes x
  rw [h, ofBytes_toBytes] at hx
  exact (Option.some.inj hx).symm

end Fr

/-! ## 64-bit integers as bytes

`u64_right_align` of both programs' `shared.rs`, and the two conversions of `u64`. -/

/-- `u64::to_be_bytes`. -/
def u64ToBeBytes (value : UInt64) : Bytes 8 :=
  ⟨toBytesBE 8 value.toNat, length_toBytesBE 8 value.toNat⟩

/-- `u64::from_be_bytes`. -/
def u64FromBeBytes (bytes : Bytes 8) : UInt64 := UInt64.ofNat (ofBytesBE bytes.1)

@[simp] theorem u64FromBeBytes_toBeBytes (value : UInt64) :
    u64FromBeBytes (u64ToBeBytes value) = value := by
  have hval : ofBytesBE (u64ToBeBytes value).1 = value.toNat := ofBytesBE_toBytesBE value.toNat_lt
  rw [u64FromBeBytes, hval, UInt64.ofNat_toNat]

/-- `u64_right_align`: 24 zero bytes, then the integer in big-endian order. -/
def u64RightAlign (value : UInt64) : Bytes 32 := (Bytes.replicate 24 0).append (u64ToBeBytes value)

/-- Right alignment of a 64-bit integer encodes that integer, with no aliasing. -/
@[simp] theorem ofBytes_u64RightAlign (value : UInt64) :
    Fr.ofBytes (u64RightAlign value) = some (Fr.ofU64 value) := by
  rw [Fr.ofBytes_eq_some, Fr.val_ofU64]
  calc ofBytesBE (u64RightAlign value).1
      = ofBytesBE (u64ToBeBytes value).1 := ofBytesBE_zeros_append 24 _
    _ = value.toNat := ofBytesBE_toBytesBE value.toNat_lt

end Zolana
