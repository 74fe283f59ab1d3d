import Mathlib.Data.Nat.Bitwise
import TmsCores.Arithmetic.Word

namespace TmsCores.Word

theorem nat_and_bit_ne_zero {bit : Nat} {i : Nat} (hbit : bit = 2 ^ i) (n : Nat) :
    n &&& bit ≠ 0 ↔ n.testBit i = true := by
  rw [hbit, Nat.and_two_pow]
  cases n.testBit i with
  | false => simp
  | true => simp

theorem and_bit_ne_zero {bit : UInt16} {i : Nat} (hbit : bit.toNat = 2 ^ i) (w : UInt16) :
    (w &&& bit != 0) = w.toNat.testBit i := by
  rw [Bool.eq_iff_iff, bne_iff_ne, ← nat_and_bit_ne_zero hbit, ne_eq, ← UInt16.toNat_inj]
  rfl

theorem byte_and_bit_ne_zero {bit : UInt8} {i : Nat} (hbit : bit.toNat = 2 ^ i) (b : UInt8) :
    (b &&& bit != 0) = b.toNat.testBit i := by
  rw [Bool.eq_iff_iff, bne_iff_ne, ← nat_and_bit_ne_zero hbit, ne_eq, ← UInt8.toNat_inj]
  rfl

theorem or_and_distrib (a b c : UInt16) : (a ||| b) &&& c = (a &&& c) ||| (b &&& c) := by
  apply UInt16.toNat_inj.mp
  simp only [UInt16.toNat_and, UInt16.toNat_or, Nat.and_or_distrib_right]

theorem or_and_of_disjoint {a b c : UInt16} (h : b &&& c = 0) : (a ||| b) &&& c = a &&& c := by
  rw [or_and_distrib, h, UInt16.or_zero]

theorem not_and_of_disjoint {b c : UInt16} (h : b &&& c = 0) : ~~~b &&& c = c := by
  have hsplit : (~~~b ||| b) &&& c = (~~~b &&& c) ||| (b &&& c) := or_and_distrib _ _ _
  have hall : ~~~b ||| b = -1 := by
    apply UInt16.toBitVec_inj.mp
    ext i hi
    simp
  rw [hall, h, UInt16.or_zero] at hsplit
  rw [← hsplit]
  exact UInt16.neg_one_and

theorem and_of_and_not {w mask : UInt16} (h : w &&& ~~~mask = 0) : w &&& mask = w := by
  have hkept : ~~~(~~~mask) &&& w = w := not_and_of_disjoint ((UInt16.and_comm _ _).trans h)
  rw [UInt16.not_not, UInt16.and_comm] at hkept
  exact hkept

theorem andNot_and_of_disjoint {a b c : UInt16} (h : b &&& c = 0) :
    (a &&& ~~~b) &&& c = a &&& c := by
  rw [UInt16.and_assoc, not_and_of_disjoint h]

theorem withBit_and {bit c : UInt16} (h : bit &&& c = 0) (w : UInt16) (set : Bool) :
    withBit w bit set &&& c = w &&& c := by
  cases set with
  | false => exact andNot_and_of_disjoint h
  | true => exact or_and_of_disjoint h

theorem withBit_and_self (w bit : UInt16) (set : Bool) :
    withBit w bit set &&& bit = if set then bit else 0 := by
  cases set with
  | false =>
      change (w &&& ~~~bit) &&& bit = 0
      rw [UInt16.and_assoc, UInt16.not_and_self, UInt16.and_zero]
  | true =>
      apply UInt16.toBitVec_inj.mp
      ext i hi
      simpa [withBit] using Or.inr

theorem toNat_even_mod_two (w : UInt16) : (even w).toNat % 2 = 0 := by
  have hmod := Nat.and_mod_two_pow (a := w.toNat) (b := 0xFFFE) (n := 1)
  rw [even, UInt16.toNat_and]
  simpa using hmod

end TmsCores.Word
