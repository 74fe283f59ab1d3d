import TmsCores.Proofs.Arithmetic.Overflow
import TmsCores.Tms9900.Arithmetic

namespace TmsCores.Tms9900

/-- What an instruction computes whose result may not fit, with its operands. -/
inductive Computation
  | sum (width : Width) (a b : UInt16)
  | difference (width : Width) (a b : UInt16)
  | absolute (value : UInt16)
  | shiftLeft (value : UInt16) (count : Nat)
  | quotient (hi lo divisor : UInt16)
  | signedQuotient (hi lo divisor : UInt16)
  deriving DecidableEq

namespace Computation

/-- The exact result does not fit, or there is none. -/
def Overflows : Computation → Prop
  | sum width a b => ¬width.Fits (width.signed a + width.signed b)
  | difference width a b => ¬width.Fits (width.signed a - width.signed b)
  | absolute value => ¬Width.word.Fits (Width.word.signed value).natAbs
  | shiftLeft value count => ¬Width.word.Fits (Width.word.signed value * 2 ^ count)
  | quotient hi lo divisor =>
      divisor = 0 ∨ 0x10000 ≤ Division.joinWords hi lo / divisor.toNat
  | signedQuotient hi lo divisor =>
      divisor = 0 ∨
        ¬Width.word.Fits ((Division.joinSigned hi lo).tdiv (Width.word.signed divisor))

instance : DecidablePred Overflows
  | sum _ _ _ | difference _ _ _ | absolute _ | shiftLeft _ _ => inferInstanceAs (Decidable (¬_))
  | quotient _ _ _ | signedQuotient _ _ _ => inferInstanceAs (Decidable (_ ∨ _))

end Computation

namespace Shifted

theorem toNat_shiftLeft_one (v : UInt16) : (v <<< 1).toNat = v.toNat * 2 % 65536 := by
  rw [UInt16.toNat_shiftLeft, Nat.shiftLeft_eq]
  rfl

theorem overflow_shiftOnce (shifted : Shifted) :
    (shifted.shiftOnce .sla).overflow = true ↔ shifted.overflow = true ∨
      ¬Width.word.Fits (Width.word.signed shifted.value * 2) := by
  have hlt : shifted.value.toNat < 65536 := shifted.value.toNat_lt
  have hdoubled := toNat_shiftLeft_one shifted.value
  have hflag : (shifted.shiftOnce .sla).overflow = (shifted.overflow ||
      (Width.word.isNegative (shifted.value <<< 1) ^^ Width.word.isNegative shifted.value)) := by
    rw [← Width.word.isNegative_xor, ← Width.word.signBit_and_ne]
    rfl
  rw [hflag, Bool.or_eq_true, Width.Fits]
  refine or_congr_right ?_
  rcases Width.word.signed_cases shifted.value with ⟨hv, hlv, hsv⟩ | ⟨hv, hlv, hltv, hsv⟩ <;>
    rcases Width.word.signed_cases (shifted.value <<< 1) with ⟨hd, hld, _⟩ | ⟨hd, hld, hltd, _⟩ <;>
      rw [hv, hd, hsv] <;> simp only [Width.size, Width.bits] at * <;> simp <;> omega

theorem signed_shiftOnce {shifted : Shifted}
    (h : Width.word.Fits (Width.word.signed shifted.value * 2)) :
    Width.word.signed (shifted.shiftOnce .sla).value = Width.word.signed shifted.value * 2 := by
  have hlt : shifted.value.toNat < 65536 := shifted.value.toNat_lt
  have hdoubled := toNat_shiftLeft_one shifted.value
  change Width.word.signed (shifted.value <<< 1) = _
  rw [Width.Fits] at h
  rcases Width.word.signed_cases shifted.value with ⟨hv, hlv, hsv⟩ | ⟨hv, hlv, hltv, hsv⟩ <;>
    rcases Width.word.signed_cases (shifted.value <<< 1) with ⟨_, _, hsd⟩ | ⟨_, _, _, hsd⟩ <;>
      rw [hsv] at h ⊢ <;> rw [hsd] <;> simp only [Width.size, Width.bits] at * <;> omega

theorem not_fits_mul {n : Int} (h : ¬Width.word.Fits n) (count : Nat) :
    ¬Width.word.Fits (n * 2 ^ count) := by
  induction count with
  | zero => rwa [Int.pow_zero, Int.mul_one]
  | succ count ih =>
      rw [Int.pow_succ, ← Int.mul_assoc]
      rw [Width.Fits] at ih ⊢
      omega

theorem overflow_shift (count : Nat) (shifted : Shifted) :
    (shift .sla count shifted).overflow = true ↔ shifted.overflow = true ∨
      ¬Width.word.Fits (Width.word.signed shifted.value * 2 ^ count) := by
  induction count generalizing shifted with
  | zero =>
      rw [shift, Int.pow_zero, Int.mul_one]
      exact (or_iff_left (not_not_intro (Width.word.fits_signed shifted.value))).symm
  | succ count ih =>
      have hpow (n : Int) : n * 2 ^ (count + 1) = n * 2 * 2 ^ count := by
        rw [Int.pow_succ, Int.mul_comm (2 ^ count), Int.mul_assoc]
      rw [shift, ih, overflow_shiftOnce, hpow, or_assoc]
      refine or_congr_right ?_
      by_cases hfits : Width.word.Fits (Width.word.signed shifted.value * 2)
      · rw [signed_shiftOnce hfits]
        exact or_iff_right (not_not_intro hfits)
      · exact iff_of_true (.inl hfits) (not_fits_mul hfits count)

end Shifted

theorem Division.le_hi_iff (hi lo divisor : UInt16) :
    divisor ≤ hi ↔ (Computation.quotient hi lo divisor).Overflows := by
  have hlo : lo.toNat < 0x10000 := lo.toNat_lt
  rw [Computation.Overflows, UInt16.le_iff_toNat_le]
  by_cases hzero : divisor = 0
  · subst hzero
    exact iff_of_true (Nat.zero_le _) (.inl rfl)
  · have hpos : 0 < divisor.toNat := UInt16.pos_iff_ne_zero.mpr hzero
    rw [Nat.le_div_iff_mul_le hpos, joinWords, or_iff_right hzero]
    omega

theorem Division.signedQuotient?_eq_none_iff (hi lo divisor : UInt16) :
    signedQuotient? hi lo divisor = none ↔
      (Computation.signedQuotient hi lo divisor).Overflows := by
  rw [signedQuotient?, Computation.Overflows, Width.Fits, ← Word.toSigned_eq]
  split
  · next h =>
      refine iff_of_false (Option.some_ne_none _) ?_
      simp only [Width.size, Width.bits]
      rintro (hzero | hfits)
      · exact h.1 hzero
      · omega
  · next h =>
      refine iff_of_true rfl ?_
      simp only [Width.size, Width.bits]
      by_cases hzero : divisor = 0
      · exact .inl hzero
      · exact .inr fun hfits => h ⟨hzero, by omega, by omega⟩

example : Division.signedQuotient? 0x8000 0 0xFFFF = none ∧
    (Computation.signedQuotient 0x8000 0 0xFFFF).Overflows := by
  decide

namespace Computation

theorem sum_overflows_iff {width : Width} {a b result : UInt16}
    (hresult : result.toNat % width.size = (a.toNat + b.toNat) % width.size) :
    (FlagSet.ofAdd a b result width).overflow = true ↔ (sum width a b).Overflows := by
  have hexact := FlagSet.overflow_ofAdd (Nat.zero_le 1) hresult
  rwa [Int.natCast_zero, Int.add_zero] at hexact

theorem difference_overflows_iff {width : Width} {a b result : UInt16}
    (hresult : a.toNat % width.size = (result.toNat + b.toNat) % width.size) :
    (FlagSet.ofSub a b result width).overflow = true ↔ (difference width a b).Overflows := by
  have hexact := FlagSet.overflow_ofSub (Nat.zero_le 1) hresult
  rwa [Int.natCast_zero, Int.sub_zero] at hexact

theorem absolute_overflows_iff (value : UInt16) :
    value = 0x8000 ↔ (absolute value).Overflows := by
  have hlt : value.toNat < 65536 := value.toNat_lt
  have hvalue : value = 0x8000 ↔ value.toNat = 32768 := UInt16.toNat_inj.symm
  rw [hvalue, Overflows, Width.Fits]
  rcases Width.word.signed_cases value with ⟨_, hv, hsigned⟩ | ⟨_, hv, _, hsigned⟩
  · rw [hsigned]
    simp only [Width.size, Width.bits] at *
    omega
  · rw [hsigned]
    simp only [Width.size, Width.bits] at *
    omega

theorem shiftLeft_overflows_iff (value : UInt16) (count : Nat) :
    (Shifted.shift .sla count { value := value }).overflow = true ↔
      (shiftLeft value count).Overflows :=
  (Shifted.overflow_shift count _).trans (or_iff_right nofun)

end Computation

end TmsCores.Tms9900
