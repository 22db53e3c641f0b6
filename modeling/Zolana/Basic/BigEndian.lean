import Mathlib.Data.List.Induction
import Mathlib.Tactic.Ring
import Mathlib.Tactic.NormNum

set_option autoImplicit false

/-! # Big-endian byte strings

`ofBytesBE` reads a byte string as a number, most significant byte first, and `toBytesBE k`
writes a number into `k` bytes. They are inverse to each other on numbers that fit, and
leading zero bytes do not change the value, which is what right-aligning a short integer in
a wider buffer relies on.
-/

namespace Zolana.BigEndian

/-- The number a byte string encodes, most significant byte first. -/
def ofBytesBE (bs : List UInt8) : ℕ := bs.foldl (fun acc b => acc * 256 + b.toNat) 0

/-- The `k` low bytes of `n`, most significant first. -/
def toBytesBE : ℕ → ℕ → List UInt8
  | 0, _ => []
  | k + 1, n => toBytesBE k (n / 256) ++ [UInt8.ofNat n]

@[simp] theorem ofBytesBE_concat (bs : List UInt8) (b : UInt8) :
    ofBytesBE (bs ++ [b]) = ofBytesBE bs * 256 + b.toNat := by
  simp [ofBytesBE]

@[simp] theorem length_toBytesBE (k n : ℕ) : (toBytesBE k n).length = k := by
  induction k generalizing n with
  | zero => rfl
  | succ k ih => simp [toBytesBE, ih]

/-- Reading back a number that fits returns it. -/
theorem ofBytesBE_toBytesBE {k n : ℕ} (h : n < 256 ^ k) : ofBytesBE (toBytesBE k n) = n := by
  induction k generalizing n with
  | zero =>
      have hn : n = 0 := by omega
      subst hn
      rfl
  | succ k ih =>
      have hdiv : n / 256 < 256 ^ k := by
        rw [pow_succ] at h
        exact Nat.div_lt_of_lt_mul (by omega)
      rw [toBytesBE, ofBytesBE_concat, ih hdiv, UInt8.toNat_ofNat']
      omega

/-- Writing back the number a byte string encodes returns the string. -/
theorem toBytesBE_ofBytesBE (bs : List UInt8) : toBytesBE bs.length (ofBytesBE bs) = bs := by
  -- the last byte is the least significant one, and the one that is written last
  induction bs using List.reverseRecOn with
  | nil => rfl
  | append_singleton bs b ih =>
      have hb : b.toNat < 256 := b.toNat_lt
      have hdiv : (ofBytesBE bs * 256 + b.toNat) / 256 = ofBytesBE bs := by omega
      have hlast : UInt8.ofNat (ofBytesBE bs * 256 + b.toNat) = b := by
        apply UInt8.toNat_inj.mp
        rw [UInt8.toNat_ofNat']
        omega
      rw [ofBytesBE_concat, List.length_append, List.length_singleton, toBytesBE, hdiv, ih, hlast]

theorem ofBytesBE_inj {bs cs : List UInt8} (hlen : bs.length = cs.length)
    (h : ofBytesBE bs = ofBytesBE cs) : bs = cs := by
  rw [← toBytesBE_ofBytesBE bs, ← toBytesBE_ofBytesBE cs, hlen, h]

/-- Leading zero bytes do not change the value. -/
@[simp] theorem ofBytesBE_zeros_append (k : ℕ) (bs : List UInt8) :
    ofBytesBE (List.replicate k 0 ++ bs) = ofBytesBE bs := by
  induction bs using List.reverseRecOn with
  | nil =>
      induction k with
      | zero => rfl
      | succ k ih =>
          rw [List.append_nil] at ih
          rw [List.append_nil, List.replicate_succ', ofBytesBE_concat, ih]
          rfl
  | append_singleton bs b ih => rw [← List.append_assoc, ofBytesBE_concat, ih, ofBytesBE_concat]

end Zolana.BigEndian
