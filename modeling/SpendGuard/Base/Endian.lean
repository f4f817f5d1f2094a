import Mathlib.Data.Nat.Notation
import Mathlib.Tactic.Common
import Mathlib.Tactic.Ring

/-!
Numbers in a fixed number of bytes, the least significant byte first or last.
-/

namespace SpendGuard.Base

def toLE : ℕ → ℕ → List UInt8
  | 0, _ => []
  | w + 1, n => UInt8.ofNat n :: toLE w (n / 256)

def ofLE : List UInt8 → ℕ
  | [] => 0
  | b :: bs => b.toNat + 256 * ofLE bs

def toBE (w n : ℕ) : List UInt8 := (toLE w n).reverse

def ofBE (bs : List UInt8) : ℕ := ofLE bs.reverse

@[simp] theorem length_toLE (w n : ℕ) : (toLE w n).length = w := by
  induction w generalizing n with
  | zero => rfl
  | succ w ih => rw [toLE, List.length_cons, ih]

@[simp] theorem length_toBE (w n : ℕ) : (toBE w n).length = w := by
  rw [toBE, List.length_reverse, length_toLE]

theorem ofLE_toLE {w n : ℕ} (h : n < 256 ^ w) : ofLE (toLE w n) = n := by
  induction w generalizing n with
  | zero =>
    rw [Nat.pow_zero] at h
    rw [toLE, ofLE]
    omega
  | succ w ih =>
    have hdiv : n / 256 < 256 ^ w := Nat.div_lt_of_lt_mul (by rwa [Nat.pow_succ'] at h)
    rw [toLE, ofLE, ih hdiv, UInt8.toNat_ofNat']
    exact Nat.mod_add_div n 256

theorem toLE_ofLE (bs : List UInt8) : toLE bs.length (ofLE bs) = bs := by
  induction bs with
  | nil => rfl
  | cons b bs ih =>
    have hlt := b.toNat_lt
    have hdiv : (b.toNat + 256 * ofLE bs) / 256 = ofLE bs := by omega
    have hbyte : UInt8.ofNat (b.toNat + 256 * ofLE bs) = b := by
      apply UInt8.toNat_inj.mp
      rw [UInt8.toNat_ofNat']
      omega
    rw [List.length_cons, ofLE, toLE, hdiv, hbyte, ih]

theorem ofBE_toBE {w n : ℕ} (h : n < 256 ^ w) : ofBE (toBE w n) = n := by
  rw [ofBE, toBE, List.reverse_reverse, ofLE_toLE h]

theorem toBE_ofBE {w : ℕ} {bs : List UInt8} (h : bs.length = w) : toBE w (ofBE bs) = bs := by
  have hlen : w = bs.reverse.length := by rw [List.length_reverse, h]
  rw [toBE, ofBE, hlen, toLE_ofLE, List.reverse_reverse]

end SpendGuard.Base
