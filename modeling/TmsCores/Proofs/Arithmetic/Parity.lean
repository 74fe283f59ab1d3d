import TmsCores.Proofs.Arithmetic.Mask

namespace TmsCores.Word

theorem and_one_cases (w : UInt16) : w &&& 1 = 0 ∨ w &&& 1 = 1 := by
  have hbit : (w &&& 1).toNat = w.toNat % 2 := by
    rw [UInt16.toNat_and]
    exact Nat.and_one_is_mod w.toNat
  rcases Nat.mod_two_eq_zero_or_one w.toNat with hzero | hone
  · left
    exact UInt16.toNat_inj.mp (hbit.trans hzero)
  · right
    exact UInt16.toNat_inj.mp (hbit.trans hone)

theorem toNat_shiftRight_one (w : UInt16) : (w >>> 1).toNat = w.toNat / 2 := by
  rw [UInt16.toNat_shiftRight, Nat.shiftRight_eq_div_pow]
  rfl

theorem and_one_ne (w : UInt16) : (w &&& 1 != 0) = w.toNat.testBit 0 := by
  rw [Bool.eq_iff_iff, bne_iff_ne, ne_eq, ← UInt16.toNat_inj, UInt16.toNat_and, Nat.testBit_zero]
  simp only [UInt16.reduceToNat, Nat.and_one_is_mod, decide_eq_true_eq]
  omega

theorem testBit_shiftRight_one (w : UInt16) (i : Nat) :
    (w >>> 1).toNat.testBit i = w.toNat.testBit (i + 1) := by
  rw [toNat_shiftRight_one, Nat.testBit_succ]

theorem even_or_and_one (w : UInt16) : even w ||| (w &&& 1) = w := by
  have hsplit : (0xFFFE ||| 1) &&& w = (0xFFFE &&& w) ||| (1 &&& w) := or_and_distrib _ _ _
  rw [even, UInt16.and_comm w, UInt16.and_comm w, ← hsplit]
  exact UInt16.neg_one_and

theorem even_of_and_one {w : UInt16} (h : w &&& 1 = 0) : even w = w := by
  have hsplit := even_or_and_one w
  rw [h, UInt16.or_zero] at hsplit
  exact hsplit

theorem even_of_toNat_mod_two {w : UInt16} (h : w.toNat % 2 = 0) : even w = w := by
  refine even_of_and_one (UInt16.toNat_inj.mp ?_)
  rw [UInt16.toNat_and]
  exact (Nat.and_one_is_mod w.toNat).trans h

theorem even_or_one {w : UInt16} (h : w &&& 1 ≠ 0) : even w ||| 1 = w := by
  have hsplit := even_or_and_one w
  rw [(and_one_cases w).resolve_left h] at hsplit
  exact hsplit

theorem even_and_one (w : UInt16) : even w &&& 1 = 0 := by
  rw [even, UInt16.and_assoc]
  exact UInt16.and_zero

theorem even_even (w : UInt16) : even (even w) = even w :=
  even_of_and_one (even_and_one w)

theorem toNat_even_div_two (w : UInt16) : (even w).toNat / 2 = w.toNat / 2 := by
  have hdiv := Nat.and_div_two_pow (a := w.toNat) (b := 0xFFFE) (n := 1)
  have hmask := Nat.and_two_pow_sub_one_eq_mod (w.toNat / 2) 15
  have hlt := w.toNat_lt
  rw [even, UInt16.toNat_and]
  simp only [Nat.reducePow, Nat.reduceSub, Nat.reduceDiv] at hdiv hmask
  change (w.toNat &&& 65534) / 2 = w.toNat / 2
  omega

theorem even_even_or_one (w : UInt16) : even (even w ||| 1) = even w := by
  have hsplit : even (even w ||| 1) = even (even w) ||| even 1 := or_and_distrib _ _ _
  rw [hsplit, even_even]
  exact UInt16.or_zero

theorem toNat_even_or_one (w : UInt16) : (even w ||| 1).toNat = (even w).toNat + 1 := by
  have hdiv := toNat_even_div_two (even w ||| 1)
  have heven := toNat_even_mod_two w
  have hodd : (even w ||| 1).toNat % 2 = 1 := by
    have hbit := congrArg UInt16.toNat (or_and_distrib (even w) 1 1)
    rw [even_and_one, UInt16.toNat_and] at hbit
    exact (Nat.and_one_is_mod _).symm.trans hbit
  rw [even_even_or_one] at hdiv
  omega

theorem masked_ne {mask : UInt16} (h : mask &&& 1 = 1) (w : UInt16) :
    even w &&& mask ≠ (even w ||| 1) &&& mask := by
  intro hsame
  have hbit := congrArg (· &&& 1) hsame
  simp only [UInt16.and_assoc, h, even_and_one, or_and_distrib] at hbit
  exact absurd hbit (by decide)

end TmsCores.Word
