import Mathlib.Data.Nat.Bitwise
import TmsCores.Arithmetic.Flags

namespace TmsCores

namespace Width

/-- How many values an operand can have. -/
def size (width : Width) : Nat :=
  2 ^ width.bits

/-- The two's complement number in the lowest bits of a word. -/
def signed (width : Width) (w : UInt16) : Int :=
  (w.toNat : Int).bmod width.size

/-- The two's complement numbers of a width. -/
def Fits (width : Width) (n : Int) : Prop :=
  -(width.size : Int) ≤ 2 * n ∧ 2 * n < width.size

instance (width : Width) (n : Int) : Decidable (width.Fits n) :=
  inferInstanceAs (Decidable (_ ∧ _))

def isNegative (width : Width) (w : UInt16) : Bool :=
  w.toNat.testBit (width.bits - 1)

variable (width : Width)

theorem toNat_signBit : width.signBit.toNat = 2 ^ (width.bits - 1) := by
  cases width with
  | byte => rfl
  | word => rfl

theorem signBit_and_ne (w : UInt16) : (w &&& width.signBit != 0) = width.isNegative w := by
  rw [Bool.eq_iff_iff, bne_iff_ne, ne_eq, ← UInt16.toNat_inj, UInt16.toNat_and, toNat_signBit,
    Nat.and_two_pow, isNegative]
  cases w.toNat.testBit (width.bits - 1) with
  | false => simp
  | true => simp

theorem isNegative_xor (a b : UInt16) :
    width.isNegative (a ^^^ b) = (width.isNegative a ^^ width.isNegative b) := by
  rw [isNegative, UInt16.toNat_xor, Nat.testBit_xor]
  rfl

theorem isNegative_and (a b : UInt16) :
    width.isNegative (a &&& b) = (width.isNegative a && width.isNegative b) := by
  rw [isNegative, UInt16.toNat_and, Nat.testBit_and]
  rfl

theorem isNegative_iff (w : UInt16) :
    width.isNegative w = true ↔ width.size ≤ 2 * (w.toNat % width.size) := by
  rw [isNegative, Nat.testBit_eq_decide_div_mod_eq, decide_eq_true_iff]
  cases width with
  | byte =>
      simp only [size, bits]
      omega
  | word =>
      simp only [size, bits]
      omega

theorem size_even : 2 * (width.size / 2) = width.size := by
  cases width with
  | byte => rfl
  | word => rfl

theorem signed_cases (w : UInt16) :
    width.isNegative w = false ∧ 2 * (w.toNat % width.size) < width.size ∧
      width.signed w = (w.toNat % width.size : Nat) ∨
    width.isNegative w = true ∧ width.size ≤ 2 * (w.toNat % width.size) ∧
      w.toNat % width.size < width.size ∧
      width.signed w = (w.toNat % width.size : Nat) - (width.size : Int) := by
  have heven := width.size_even
  have hlt : w.toNat % width.size < width.size := Nat.mod_lt _ (Nat.two_pow_pos _)
  rw [signed, Int.bmod_def]
  cases hsign : width.isNegative w with
  | false =>
      have hsmall := mt (width.isNegative_iff w).mpr (Bool.eq_false_iff.mp hsign)
      exact .inl ⟨rfl, by omega, if_pos (by omega)⟩
  | true =>
      have hlarge := (width.isNegative_iff w).mp hsign
      exact .inr ⟨rfl, hlarge, hlt, if_neg (by omega)⟩

theorem toNat_and_mask (w : UInt16) : (w &&& width.mask).toNat = w.toNat % width.size := by
  rw [UInt16.toNat_and]
  cases width with
  | byte => exact Nat.and_two_pow_sub_one_eq_mod w.toNat 8
  | word => exact Nat.and_two_pow_sub_one_eq_mod w.toNat 16

theorem toNat_add (a b : UInt16) :
    (a + b).toNat % width.size = (a.toNat + b.toNat) % width.size := by
  rw [UInt16.toNat_add]
  cases width with
  | byte => exact Nat.mod_mod_of_dvd _ (by decide)
  | word => exact Nat.mod_mod _ _

theorem toNat_sub (a b : UInt16) :
    a.toNat % width.size = ((a - b).toNat + b.toNat) % width.size := by
  rw [← width.toNat_add, UInt16.sub_add_cancel]

theorem toNat_add_and_mask (a b : UInt16) :
    ((a + b) &&& width.mask).toNat % width.size = (a.toNat + b.toNat) % width.size := by
  rw [toNat_and_mask, Nat.mod_mod, toNat_add]

theorem toNat_sub_and_mask (a b : UInt16) :
    a.toNat % width.size = (((a - b) &&& width.mask).toNat + b.toNat) % width.size := by
  rw [toNat_and_mask, Nat.mod_add_mod, ← toNat_sub]

theorem fits_signed (w : UInt16) : width.Fits (width.signed w) := by
  have heven := width.size_even
  rw [Fits]
  rcases width.signed_cases w with ⟨_, hlt, hsigned⟩ | ⟨_, hle, hlt, hsigned⟩
  · omega
  · omega

end Width

theorem Word.toSigned_eq (w : UInt16) : toSigned w = Width.word.signed w := by
  have hsign : w &&& 0x8000 = 0 ↔ Width.word.isNegative w = false := by
    rw [← Width.word.signBit_and_ne, bne_eq_false_iff_eq]
    rfl
  have hmod : w.toNat % Width.word.size = w.toNat := Nat.mod_eq_of_lt w.toNat_lt
  rw [toSigned]
  rcases Width.word.signed_cases w with ⟨hw, _, hsigned⟩ | ⟨hw, _, _, hsigned⟩
  · rw [if_pos (hsign.mpr hw), hsigned, hmod]
  · rw [if_neg (fun hzero => absurd (hw.symm.trans (hsign.mp hzero)) nofun), hsigned, hmod]
    rfl

namespace FlagSet

theorem add_mod_cases {n x y z carry : Nat} (hcarry : carry ≤ 1)
    (h : z % n = (x + y + carry) % n) (hn : 0 < n) :
    z % n = x % n + y % n + carry ∨ z % n + n = x % n + y % n + carry := by
  have hx : x % n < n := Nat.mod_lt _ hn
  have hy : y % n < n := Nat.mod_lt _ hn
  rw [h, Nat.add_mod, Nat.add_mod x, Nat.mod_add_mod, Nat.add_mod_mod]
  by_cases hlt : x % n + y % n + carry < n
  · exact .inl (Nat.mod_eq_of_lt hlt)
  · have hle : n ≤ x % n + y % n + carry := Nat.not_lt.mp hlt
    rw [Nat.mod_eq_sub_mod hle, Nat.mod_eq_of_lt (by omega)]
    exact .inr (by omega)

variable {width : Width} {a b result : UInt16} {carry : Nat}

/-- An addition overflows when the exact sum of the signed operands, and of a carry, does not
fit. -/
theorem overflow_ofAdd (hcarry : carry ≤ 1)
    (hresult : result.toNat % width.size = (a.toNat + b.toNat + carry) % width.size) :
    (ofAdd a b result width).overflow = true ↔
      ¬width.Fits (width.signed a + width.signed b + carry) := by
  have hflag : (ofAdd a b result width).overflow =
      ((width.isNegative a ^^ width.isNegative result) &&
        (width.isNegative b ^^ width.isNegative result)) := by
    rw [← width.isNegative_xor, ← width.isNegative_xor, ← width.isNegative_and,
      ← width.signBit_and_ne]
    rfl
  have hsum := add_mod_cases hcarry hresult (Nat.two_pow_pos _)
  have heven := width.size_even
  rw [hflag, Width.Fits]
  rcases width.signed_cases a with ⟨ha, hla, hsa⟩ | ⟨ha, hla, hlta, hsa⟩ <;>
    rcases width.signed_cases b with ⟨hb, hlb, hsb⟩ | ⟨hb, hlb, hltb, hsb⟩ <;>
      rcases width.signed_cases result with ⟨hr, hlr, _⟩ | ⟨hr, hlr, hltr, _⟩ <;>
        rw [ha, hb, hr, hsa, hsb] <;> simp <;> omega

theorem overflow_ofSub (hcarry : carry ≤ 1)
    (hresult : a.toNat % width.size = (result.toNat + b.toNat + carry) % width.size) :
    (ofSub a b result width).overflow = true ↔
      ¬width.Fits (width.signed a - width.signed b - carry) := by
  have hflag : (ofSub a b result width).overflow =
      ((width.isNegative a ^^ width.isNegative b) &&
        (width.isNegative a ^^ width.isNegative result)) := by
    rw [← width.isNegative_xor, ← width.isNegative_xor, ← width.isNegative_and,
      ← width.signBit_and_ne]
    rfl
  have hsum := add_mod_cases hcarry hresult (Nat.two_pow_pos _)
  have heven := width.size_even
  rw [hflag, Width.Fits]
  rcases width.signed_cases a with ⟨ha, hla, hsa⟩ | ⟨ha, hla, hlta, hsa⟩ <;>
    rcases width.signed_cases b with ⟨hb, hlb, hsb⟩ | ⟨hb, hlb, hltb, hsb⟩ <;>
      rcases width.signed_cases result with ⟨hr, hlr, _⟩ | ⟨hr, hlr, hltr, _⟩ <;>
        rw [ha, hb, hr, hsa, hsb] <;> simp <;> omega

end FlagSet

end TmsCores
