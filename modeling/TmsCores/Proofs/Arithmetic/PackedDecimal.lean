import Mathlib.Data.Nat.Bitwise
import TmsCores.Arithmetic.PackedDecimal
import TmsCores.Proofs.Arithmetic.Mask

namespace TmsCores.PackedDecimal

/-- The addition of two words carries into a bit. -/
def carriesInto (i : Nat) (x y : UInt16) : Bool :=
  2 ^ i ≤ x.toNat % 2 ^ i + y.toNat % 2 ^ i

theorem testBit_add_xor {i : Nat} (hi : i < 16) (x y : UInt16) :
    ((x + y) ^^^ (x ^^^ y)).toNat.testBit i = carriesInto i x y := by
  have hadd := BitVec.getLsbD_add hi x.toBitVec y.toBitVec
  change (x + y).toNat.testBit i = (x.toNat.testBit i ^^ (y.toNat.testBit i ^^ carriesInto i x y))
    at hadd
  rw [UInt16.toNat_xor, UInt16.toNat_xor, Nat.testBit_xor, Nat.testBit_xor, hadd]
  cases x.toNat.testBit i <;> cases y.toNat.testBit i <;> simp

theorem bit_and_not {bit : UInt16} {i : Nat} (hi : i < 16) (hbit : bit.toNat = 2 ^ i)
    (w : UInt16) : bit &&& ~~~w = if w.toNat.testBit i then 0 else bit := by
  have hnot : (~~~w).toNat.testBit i = !w.toNat.testBit i := by
    change (~~~w.toBitVec).getLsbD i = !w.toBitVec.getLsbD i
    rw [BitVec.getLsbD_not, decide_eq_true hi, Bool.true_and]
  apply UInt16.toNat_inj.mp
  rw [UInt16.toNat_and, hbit, Nat.two_pow_and, hnot]
  cases w.toNat.testBit i with
  | false => simp [hbit]
  | true => simp

/-- The bias that is left in the digits that produced no decimal carry. -/
def remainingBias (ones tens hundreds : Bool) : UInt16 :=
  (if ones then 0 else 0x006) + (if tens then 0 else 0x060) + (if hundreds then 0 else 0x600)

theorem toNat_remainingBias (ones tens hundreds : Bool) :
    (remainingBias ones tens hundreds).toNat + 6 * ones.toNat + 96 * tens.toNat +
      1536 * hundreds.toNat = 1638 := by
  cases ones <;> cases tens <;> cases hundreds <;> rfl

/-- Of the biased sum of two words, the digits that carried nothing give their bias back. -/
theorem correct_add (x y : UInt16) : correct (x + y) (x ^^^ y) =
    x + y - remainingBias (carriesInto 4 x y) (carriesInto 8 x y) (carriesInto 12 x y) := by
  have hmask : (0x1110 : UInt16) = 0x0010 ||| 0x0100 ||| 0x1000 := by decide
  rw [correct, UInt16.and_comm, hmask, Word.or_and_distrib, Word.or_and_distrib,
    bit_and_not (i := 4) (by decide) rfl, bit_and_not (i := 8) (by decide) rfl,
    bit_and_not (i := 12) (by decide) rfl, testBit_add_xor (by decide),
    testBit_add_xor (by decide), testBit_add_xor (by decide)]
  congr 1
  cases carriesInto 4 x y <;> cases carriesInto 8 x y <;> cases carriesInto 12 x y <;> rfl

theorem toNat_add_of_lt {a b : UInt16} (h : a.toNat + b.toNat < 65536) :
    (a + b).toNat = a.toNat + b.toNat := by
  rw [UInt16.toNat_add]
  exact Nat.mod_eq_of_lt h

theorem decide_eq_of_toNat (set : Bool) {p : Prop} [Decidable p] (h : p ↔ set.toNat = 1) :
    decide p = set := by
  rw [← decide_eq_decide.mpr h.symm]
  cases set <;> rfl

/-- A word is made of three digits, which may be biased. -/
structure HasDigits (w : UInt16) (hundreds tens ones : Nat) : Prop where
  toNat_eq : w.toNat = 256 * hundreds + 16 * tens + ones
  hundreds_lt : hundreds < 16
  tens_lt : tens < 16
  ones_lt : ones < 16

namespace HasDigits

variable {x y z : UInt16} {h₁ t₁ u₁ h₂ t₂ u₂ h₃ t₃ u₃ : Nat}

theorem mod (hx : HasDigits x h₁ t₁ u₁) :
    x.toNat % 16 = u₁ ∧ x.toNat % 256 = 16 * t₁ + u₁ ∧ x.toNat % 4096 = x.toNat := by
  obtain ⟨hx, hh, ht, hu⟩ := hx
  refine ⟨?_, ?_, ?_⟩ <;> omega

theorem carriesInto_eq (hx : HasDigits x h₁ t₁ u₁) (hy : HasDigits y h₂ t₂ u₂) :
    carriesInto 4 x y = decide (16 ≤ u₁ + u₂) ∧
    carriesInto 8 x y = decide (256 ≤ (16 * t₁ + u₁) + (16 * t₂ + u₂)) ∧
    carriesInto 12 x y = decide (4096 ≤ x.toNat + y.toNat) := by
  obtain ⟨hx16, hx256, hx4096⟩ := hx.mod
  obtain ⟨hy16, hy256, hy4096⟩ := hy.mod
  simp only [carriesInto, Nat.reducePow, hx16, hx256, hx4096, hy16, hy256, hy4096, and_self]

theorem biased (hx : HasDigits x h₁ t₁ u₁) (hh : h₁ < 10) (ht : t₁ < 10) (hu : u₁ < 10) :
    HasDigits (x + 0x0666) (h₁ + 6) (t₁ + 6) (u₁ + 6) where
  toNat_eq := by
    have hsum := toNat_add_of_lt (a := x) (b := 0x0666)
    simp only [hx.toNat_eq, UInt16.reduceToNat] at hsum
    omega
  hundreds_lt := by omega
  tens_lt := by omega
  ones_lt := by omega

theorem add (hx : HasDigits x h₁ t₁ u₁) (hy : HasDigits y h₂ t₂ u₂) (ht₁ : t₁ < 10) (hu₁ : u₁ < 10)
    {ones tens : Bool} (hu : u₃ + 10 * ones.toNat = u₁ + u₂) (hu₃ : u₃ < 10)
    (ht : t₃ + 10 * tens.toNat = t₁ + t₂ + ones.toNat) (ht₃ : t₃ < 10)
    (hh : h₃ = h₁ + h₂ + tens.toNat) (hh₃ : h₃ < 10) :
    HasDigits (PackedDecimal.add x y) h₃ t₃ u₃ := by
  have hbiased := hx.biased (by omega) ht₁ hu₁
  have hones_le := ones.toNat_le
  have htens_le := tens.toNat_le
  obtain ⟨h4, h8, h12⟩ := hbiased.carriesInto_eq hy
  have hx' := hbiased.toNat_eq
  have hy' := hy.toNat_eq
  rw [decide_eq_of_toNat ones (by omega)] at h4
  rw [decide_eq_of_toNat tens (by omega)] at h8
  rw [decide_eq_false (by omega)] at h12
  -- The biased digits carry like decimal ones, and those that do not give their six back.
  have hbias := toNat_remainingBias ones tens false
  rw [Bool.toNat_false, Nat.mul_zero, Nat.add_zero] at hbias
  have hsum := toNat_add_of_lt (a := x + 0x0666) (b := y) (by omega)
  have hdifference := UInt16.toNat_sub_of_le (x + 0x0666 + y) (remainingBias ones tens false)
    (UInt16.le_iff_toNat_le.mpr (by omega))
  rw [PackedDecimal.add, correct_add, h4, h8, h12]
  exact ⟨by omega, by omega, by omega, by omega⟩

end HasDigits

/-- The packed decimal form of a number of three digits. -/
structure Represents (w : UInt16) (n : Nat) : Prop where
  toNat_eq : w.toNat = 256 * (n / 100) + 16 * (n / 10 % 10) + n % 10
  lt : n < 1000

namespace Represents

variable {x y z : UInt16} {m n : Nat}

theorem of_digits {h t u : Nat} (hx : x.toNat = 256 * h + 16 * t + u) (hh : h < 10) (ht : t < 10)
    (hu : u < 10) (hn : n = 100 * h + 10 * t + u) : Represents x n where
  toNat_eq := by
    have hhundreds : n / 100 = h := by omega
    have htens : n / 10 % 10 = t := by omega
    have hones : n % 10 = u := by omega
    rw [hx, hhundreds, htens, hones]
  lt := by omega

theorem hasDigits (h : Represents x n) : HasDigits x (n / 100) (n / 10 % 10) (n % 10) where
  toNat_eq := h.toNat_eq
  hundreds_lt := by
    have hlt := h.lt
    omega
  tens_lt := by omega
  ones_lt := by omega

/-- Two numbers add up digit by digit, with a carry where ten is reached. -/
theorem exists_carries (m n : Nat) : ∃ ones tens : Bool,
    (m + n) % 10 + 10 * ones.toNat = m % 10 + n % 10 ∧
    (m + n) / 10 % 10 + 10 * tens.toNat = m / 10 % 10 + n / 10 % 10 + ones.toNat ∧
    (m + n) / 100 = m / 100 + n / 100 + tens.toNat := by
  refine ⟨decide (10 ≤ m % 10 + n % 10), decide (100 ≤ m % 100 + n % 100), ?_, ?_, ?_⟩
  · by_cases hones : 10 ≤ m % 10 + n % 10 <;> simp [hones] <;> omega
  · by_cases hones : 10 ≤ m % 10 + n % 10 <;> by_cases htens : 100 ≤ m % 100 + n % 100 <;>
      simp [hones, htens] <;> omega
  · by_cases htens : 100 ≤ m % 100 + n % 100 <;> simp [htens] <;> omega

theorem add (hx : Represents x m) (hy : Represents y n) (hsum : m + n < 1000) :
    Represents (PackedDecimal.add x y) (m + n) := by
  obtain ⟨ones, tens, hones, htens, hhundreds⟩ := exists_carries m n
  have hdigits := hx.hasDigits.add hy.hasDigits (Nat.mod_lt _ (by decide))
    (Nat.mod_lt _ (by decide)) hones (Nat.mod_lt _ (by decide)) htens (Nat.mod_lt _ (by decide))
    hhundreds (Nat.div_lt_of_lt_mul hsum)
  exact ⟨hdigits.toNat_eq, hsum⟩

theorem toNat_negated_low (y bias : UInt16) : ((0 - y - bias) &&& 0xFF).toNat =
    (65536 - bias.toNat + (65536 - y.toNat)) % 256 := by
  rw [UInt16.toNat_and, UInt16.toNat_sub, UInt16.toNat_sub]
  refine (Nat.and_two_pow_sub_one_eq_mod _ 8).trans ?_
  change (65536 - bias.toNat + (65536 - y.toNat + 0) % 65536) % 65536 % 256 = _
  omega

theorem tenComplement (hy : Represents y n) (hn : n < 100) :
    Represents (PackedDecimal.tenComplement y &&& 0xFF) ((100 - n) % 100) := by
  have hnegated : 0 - y = (0xFFFF - y) + 1 := by grind
  have hx : (0xFFFF - y).toNat = 65535 - y.toNat :=
    UInt16.toNat_sub_of_le _ _ (UInt16.le_iff_toNat_le.mpr (Nat.le_of_lt_succ y.toNat_lt))
  obtain ⟨t, u, ht, hu, hntu⟩ : ∃ t u, t < 10 ∧ u < 10 ∧ n = 10 * t + u :=
    ⟨n / 10, n % 10, by omega, by omega, by omega⟩
  have hy' : y.toNat = 16 * t + u := by
    rw [hy.toNat_eq]
    omega
  have hone : (1 : UInt16).toNat = 1 := rfl
  -- Nothing but zeros below a digit lets the one that is added reach it.
  have h4 : carriesInto 4 (0xFFFF - y) 1 = decide (u = 0) := by
    rw [carriesInto, hx, decide_eq_decide, hone]
    omega
  have h8 : carriesInto 8 (0xFFFF - y) 1 = decide (n = 0) := by
    rw [carriesInto, hx, decide_eq_decide, hone]
    omega
  have h12 : carriesInto 12 (0xFFFF - y) 1 = decide (n = 0) := by
    rw [carriesInto, hx, decide_eq_decide, hone]
    omega
  have hvalue : (PackedDecimal.tenComplement y &&& 0xFF).toNat =
      (65536 - (remainingBias (decide (u = 0)) (decide (n = 0)) (decide (n = 0))).toNat +
        (65536 - (16 * t + u))) % 256 := by
    rw [PackedDecimal.tenComplement, hnegated, correct_add, h4, h8, h12, ← hnegated,
      toNat_negated_low, hy']
  have hfalse : (remainingBias false false false).toNat = 1638 := rfl
  have hones : (remainingBias true false false).toNat = 1632 := rfl
  have htrue : (remainingBias true true true).toNat = 0 := rfl
  by_cases hu0 : u = 0
  · rw [decide_eq_true hu0] at hvalue
    by_cases hn0 : n = 0
    · rw [decide_eq_true hn0, htrue] at hvalue
      refine of_digits (h := 0) (t := 0) (u := 0) ?_ ?_ ?_ ?_ ?_ <;> omega
    · rw [decide_eq_false hn0, hones] at hvalue
      refine of_digits (h := 0) (t := 10 - t) (u := 0) ?_ ?_ ?_ ?_ ?_ <;> omega
  · rw [decide_eq_false hu0, decide_eq_false (by omega), hfalse] at hvalue
    refine of_digits (h := 0) (t := 9 - t) (u := 10 - u) ?_ ?_ ?_ ?_ ?_ <;> omega

/-- A number is subtracted by the addition of its complement. -/
theorem sub (hx : Represents x m) (hy : Represents y n) (hm : m < 100) (hn : n < 100) :
    Represents (PackedDecimal.sub x y) (m + (100 - n) % 100) :=
  hx.add (hy.tenComplement hn) (by omega)

end Represents

/-- Both digits of a byte are decimal. -/
def IsPacked (byte : UInt8) : Prop :=
  byte.toNat / 16 < 10 ∧ byte.toNat % 16 < 10

instance (byte : UInt8) : Decidable (IsPacked byte) :=
  inferInstanceAs (Decidable (_ ∧ _))

/-- The number that the two digits of a byte stand for. -/
def value (byte : UInt8) : Nat :=
  10 * (byte.toNat / 16) + byte.toNat % 16

theorem IsPacked.value_lt {byte : UInt8} (h : IsPacked byte) : value byte < 100 := by
  obtain ⟨htens, hones⟩ := h
  rw [value]
  omega

theorem IsPacked.represents {byte : UInt8} (h : IsPacked byte) :
    Represents byte.toUInt16 (value byte) := by
  obtain ⟨htens, hones⟩ := h
  have hdigits := Nat.div_add_mod byte.toNat 16
  exact .of_digits (h := 0) (by rw [UInt8.toNat_toUInt16]; omega) (by omega) htens hones
    (by rw [value]; omega)

theorem value_inj {a b : UInt8} (ha : IsPacked a) (hb : IsPacked b) (h : value a = value b) :
    a = b := by
  obtain ⟨hatens, haones⟩ := ha
  obtain ⟨hbtens, hbones⟩ := hb
  apply UInt8.toNat_inj.mp
  simp only [value] at h
  omega

namespace Represents

variable {w : UInt16} {n : Nat}

theorem toNat_toUInt8 (h : Represents w n) :
    w.toUInt8.toNat = 16 * (n / 10 % 10) + n % 10 := by
  obtain ⟨hw, hlt⟩ := h
  rw [UInt16.toNat_toUInt8, hw]
  omega

theorem isPacked (h : Represents w n) : IsPacked w.toUInt8 := by
  have hlow := h.toNat_toUInt8
  constructor
  · omega
  · omega

theorem value_toUInt8 (h : Represents w n) : value w.toUInt8 = n % 100 := by
  have hlow := h.toNat_toUInt8
  rw [value, hlow]
  omega

theorem gt_iff (h : Represents w n) : w > 0xFF ↔ 100 ≤ n := by
  obtain ⟨hw, hlt⟩ := h
  change 0xFF < w.toNat ↔ 100 ≤ n
  omega

theorem hundred_ne_zero (h : Represents w n) (hn : n < 200) :
    (w &&& 0x100 != 0) = decide (100 ≤ n) := by
  obtain ⟨hw, hlt⟩ := h
  have hbit : (w &&& 0x100).toNat = (w.toNat.testBit 8).toNat * 256 := by
    rw [UInt16.toNat_and]
    exact Nat.and_two_pow w.toNat 8
  have hhundreds : w.toNat / 2 ^ 8 = n / 100 := by omega
  have htest : w.toNat.testBit 8 = decide (100 ≤ n) := by
    rw [Nat.testBit_eq_decide_div_mod_eq, hhundreds, decide_eq_decide]
    omega
  rw [Bool.eq_iff_iff, bne_iff_ne, ne_eq, ← UInt16.toNat_inj, hbit, htest]
  cases decide (100 ≤ n) <;> simp

end Represents

end TmsCores.PackedDecimal
