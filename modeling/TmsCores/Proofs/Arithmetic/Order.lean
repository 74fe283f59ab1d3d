import TmsCores.Proofs.Arithmetic.Overflow

namespace TmsCores

namespace Width

/-- The unsigned number in the lowest bits of a word. -/
def unsigned (width : Width) (w : UInt16) : Nat :=
  w.toNat % width.size

variable (width : Width)

theorem unsigned_zero : width.unsigned 0 = 0 :=
  Nat.zero_mod _

theorem signed_eq_zero_iff (w : UInt16) : width.signed w = 0 ↔ width.unsigned w = 0 := by
  rw [unsigned]
  rcases width.signed_cases w with ⟨_, _, hsigned⟩ | ⟨_, _, hlt, hsigned⟩
  · omega
  · omega

theorem signed_zero : width.signed 0 = 0 :=
  (width.signed_eq_zero_iff 0).mpr width.unsigned_zero

theorem signed_pos_iff {w : UInt16} (h : width.signed w ≠ 0) :
    0 < width.signed w ↔ width.isNegative w = false := by
  rcases width.signed_cases w with ⟨hsign, _, hsigned⟩ | ⟨hsign, _, hlt, hsigned⟩
  · exact iff_of_true (by omega) hsign
  · exact iff_of_false (by omega) fun hfalse => absurd (hsign.symm.trans hfalse) nofun

theorem signed_eq_iff (a b : UInt16) :
    width.signed a = width.signed b ↔ width.unsigned a = width.unsigned b := by
  rw [unsigned, unsigned]
  rcases width.signed_cases a with ⟨_, hla, hsa⟩ | ⟨_, hla, hlta, hsa⟩ <;>
    rcases width.signed_cases b with ⟨_, hlb, hsb⟩ | ⟨_, hlb, hltb, hsb⟩ <;>
      omega

theorem and_mask_eq_iff (a b : UInt16) :
    a &&& width.mask = b &&& width.mask ↔ width.unsigned a = width.unsigned b := by
  rw [← UInt16.toNat_inj, toNat_and_mask, toNat_and_mask]
  rfl

theorem half_size : width.size = 2 * 2 ^ (width.bits - 1) := by
  cases width with
  | byte => rfl
  | word => rfl

theorem two_pow_add_xor {n k : Nat} (h : n < 2 ^ k) : (2 ^ k + n) ^^^ 2 ^ k = n := by
  have hor : 2 ^ k + n = 2 ^ k ||| n := by
    simpa using Nat.two_pow_add_eq_or_of_lt h 1
  apply Nat.eq_of_testBit_eq
  intro i
  rw [hor, Nat.testBit_xor, Nat.testBit_or]
  by_cases hi : k = i
  · subst hi
    rw [Nat.testBit_two_pow_self, Nat.testBit_lt_two_pow h]
    rfl
  · rw [Nat.testBit_two_pow_of_ne hi, Bool.false_or, Bool.xor_false]

theorem xor_two_pow {n k : Nat} (h : n < 2 ^ k) : n ^^^ 2 ^ k = 2 ^ k + n := by
  have hback := congrArg (· ^^^ 2 ^ k) (two_pow_add_xor h)
  simpa [Nat.xor_assoc] using hback.symm

/-- With their sign bits turned over, signed numbers have the order of unsigned ones. -/
theorem toNat_and_mask_xor_signBit (w : UInt16) :
    (((w &&& width.mask) ^^^ width.signBit).toNat : Int) =
      width.signed w + (2 ^ (width.bits - 1) : Nat) := by
  have hhalf := width.half_size
  rw [UInt16.toNat_xor, toNat_and_mask, toNat_signBit]
  rcases width.signed_cases w with ⟨_, hlt, hsigned⟩ | ⟨_, hle, hlt, hsigned⟩
  · rw [xor_two_pow (by omega), hsigned]
    omega
  · have hsign : 2 ^ (width.bits - 1) ≤ w.toNat % width.size := by omega
    obtain ⟨n, hn⟩ := Nat.exists_eq_add_of_le hsign
    rw [hn, two_pow_add_xor (by omega), hsigned, hn]
    omega

end Width

theorem Word.toNat_signExtend_low (w : UInt16) :
    ((signExtend (low w)).toNat : Int) = Width.byte.signed w % 0x10000 := by
  have hlow : (low w).toNat = w.toNat % Width.byte.size := toNat_low w
  have hsign : low w &&& 0x80 = 0 ↔ Width.byte.isNegative w = false := by
    rw [← UInt8.toNat_inj, UInt8.toNat_and, toNat_low, Width.isNegative]
    change w.toNat % 2 ^ 8 &&& 2 ^ 7 = 0 ↔ w.toNat.testBit 7 = false
    rw [Nat.and_two_pow, Nat.testBit_mod_two_pow]
    cases w.toNat.testBit 7 with
    | false => decide
    | true => decide
  rw [signExtend]
  rcases Width.byte.signed_cases w with ⟨hw, _, hsigned⟩ | ⟨hw, hle, hlt, hsigned⟩
  · rw [if_pos (hsign.mpr hw), UInt8.toNat_toUInt16, hlow, hsigned]
    simp only [Width.size, Width.bits] at *
    omega
  · have hnegative : ¬low w &&& 0x80 = 0 := fun hzero =>
      Bool.false_ne_true ((hsign.mp hzero).symm.trans hw)
    have hor : (low w).toNat ||| 0xFF00 = 0xFF00 + (low w).toNat := by
      rw [Nat.or_comm]
      exact (Nat.two_pow_add_eq_or_of_lt (low w).toNat_lt 0xFF).symm
    rw [if_neg hnegative, UInt16.toNat_or, UInt8.toNat_toUInt16]
    change (((low w).toNat ||| 0xFF00 : Nat) : Int) = _
    rw [hor, hlow, hsigned]
    simp only [Width.size, Width.bits] at *
    omega

end TmsCores
