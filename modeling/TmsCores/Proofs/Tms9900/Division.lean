import TmsCores.Proofs.Tms9900.Computation
import TmsCores.Proofs.Tms9900.Status

namespace TmsCores.Tms9900

open Word

/-- The comparison bits compare a signed number with zero. -/
structure Status.TellsSign (st : UInt16) (n : Int) : Prop where
  logicalGreater : has st logicalGreater = true ↔ n ≠ 0
  arithmeticGreater : has st arithmeticGreater = true ↔ 0 < n
  equal : has st equal = true ↔ n = 0

namespace Status

theorem has_and {bits bit : UInt16} (h : bits &&& bit = bit) (st : UInt16) :
    has (st &&& bits) bit = has st bit := by
  rw [has, has, UInt16.and_assoc, h]

theorem has_congr {bits bit before after : UInt16} (hbit : bits &&& bit = bit)
    (h : after &&& bits = before &&& bits) : has after bit = has before bit := by
  rw [← has_and hbit, h, has_and hbit]

theorem TellsSign.congr {before after : UInt16} {n : Int} (h : TellsSign before n)
    (hcomparison : after &&& comparison = before &&& comparison) : TellsSign after n := by
  constructor
  case logicalGreater =>
    rw [has_congr (by decide) hcomparison]
    exact h.logicalGreater
  case arithmeticGreater =>
    rw [has_congr (by decide) hcomparison]
    exact h.arithmeticGreater
  case equal =>
    rw [has_congr (by decide) hcomparison]
    exact h.equal

theorem compareSigned_and_comparison (st : UInt16) (n : Int) :
    compareSigned st n &&& comparison = compareSigned 0 n &&& comparison := by
  have hrest (bits : UInt16) : ((st &&& ~~~comparison) ||| bits) &&& comparison =
      ((0 &&& ~~~comparison) ||| bits) &&& comparison := by
    rw [or_and_distrib, or_and_distrib, UInt16.and_assoc, UInt16.and_assoc, UInt16.not_and_self,
      UInt16.and_zero, UInt16.and_zero]
  unfold compareSigned
  dsimp only
  split
  · exact hrest equal
  · split
    · rw [UInt16.or_assoc, UInt16.or_assoc]
      exact hrest (logicalGreater ||| arithmeticGreater)
    · exact hrest logicalGreater

theorem tellsSign_compareSigned (st : UInt16) (n : Int) : TellsSign (compareSigned st n) n := by
  suffices h : TellsSign (compareSigned 0 n) n from h.congr (compareSigned_and_comparison st n)
  rcases Int.lt_trichotomy n 0 with hneg | rfl | hpos
  · have hst : compareSigned 0 n = logicalGreater := by
      rw [compareSigned, if_neg (by omega), if_neg (by omega)]
      rfl
    rw [hst]
    exact ⟨iff_of_true rfl (by omega), iff_of_false nofun (by omega), iff_of_false nofun (by omega)⟩
  · exact ⟨by decide, by decide, by decide⟩
  · have hst : compareSigned 0 n = logicalGreater ||| arithmeticGreater := by
      rw [compareSigned, if_neg (by omega), if_pos hpos]
      rfl
    rw [hst]
    exact ⟨iff_of_true rfl (by omega), iff_of_true rfl hpos, iff_of_false nofun (by omega)⟩

end Status

namespace Division

/-- The words divide a number, with a remainder that is less than the divisor. -/
structure Divides (division : Division) (n d : Nat) : Prop where
  exact : division.quotient.toNat * d + division.remainder.toNat = n
  remainder_lt : division.remainder.toNat < d

/-- The words, as signed numbers, divide a number towards zero: what remains has its sign. -/
structure DividesSigned (division : Division) (n d : Int) : Prop where
  exact : toSigned division.quotient * d + toSigned division.remainder = n
  remainder_lt : (toSigned division.remainder).natAbs < d.natAbs
  sign : toSigned division.remainder = 0 ∨ (toSigned division.remainder).sign = n.sign

theorem joinWords_ofNat {n : Nat} (h : n < 0x100000000) :
    joinWords (UInt16.ofNat (n / 0x10000)) (UInt16.ofNat n) = n := by
  rw [joinWords, UInt16.toNat_ofNat', UInt16.toNat_ofNat']
  omega

theorem joinWords_product (a b : UInt16) :
    joinWords (UInt16.ofNat (a.toNat * b.toNat / 0x10000)) (UInt16.ofNat (a.toNat * b.toNat)) =
      a.toNat * b.toNat :=
  joinWords_ofNat (Nat.mul_lt_mul'' a.toNat_lt b.toNat_lt)

theorem toNat_wordOfInt (n : Int) : ((wordOfInt n).toNat : Int) = n % 0x10000 := by
  rw [wordOfInt, UInt16.toNat_ofNat']
  omega

theorem toSigned_cases (w : UInt16) :
    w.toNat < 0x8000 ∧ toSigned w = w.toNat ∨
      0x8000 ≤ w.toNat ∧ w.toNat < 0x10000 ∧ toSigned w = w.toNat - 0x10000 := by
  have hlt : w.toNat < 0x10000 := w.toNat_lt
  rw [toSigned_eq]
  rcases Width.word.signed_cases w with ⟨_, hsmall, hsigned⟩ | ⟨_, hlarge, _, hsigned⟩
  · rw [hsigned]
    simp only [Width.size, Width.bits] at *
    omega
  · rw [hsigned]
    simp only [Width.size, Width.bits] at *
    omega

theorem toSigned_eq_zero_iff {w : UInt16} : toSigned w = 0 ↔ w = 0 := by
  have hzero : w = 0 ↔ w.toNat = 0 := UInt16.toNat_inj.symm
  rw [hzero]
  rcases toSigned_cases w with h | h
  · omega
  · omega

theorem toSigned_bounds (w : UInt16) : -0x8000 ≤ toSigned w ∧ toSigned w < 0x8000 := by
  rcases toSigned_cases w with h | h
  · omega
  · omega

theorem toSigned_wordOfInt {n : Int} (hle : -0x8000 ≤ n) (hlt : n < 0x8000) :
    toSigned (wordOfInt n) = n := by
  have hword := toNat_wordOfInt n
  rcases toSigned_cases (wordOfInt n) with ⟨_, hsigned⟩ | ⟨_, _, hsigned⟩
  · omega
  · omega

theorem joinSigned_wordOfInt {n : Int} (hle : -0x80000000 ≤ n) (hlt : n < 0x80000000) :
    joinSigned (wordOfInt (n / 0x10000)) (wordOfInt n) = n := by
  rw [joinSigned, toSigned_wordOfInt (by omega) (by omega), toNat_wordOfInt]
  omega

theorem joinSigned_product (a b : UInt16) :
    joinSigned (wordOfInt (toSigned a * toSigned b / 0x10000))
      (wordOfInt (toSigned a * toSigned b)) = toSigned a * toSigned b := by
  have ha := toSigned_bounds a
  have hb := toSigned_bounds b
  have hproduct : (toSigned a * toSigned b).natAbs ≤ 0x8000 * 0x8000 := by
    rw [Int.natAbs_mul]
    exact Nat.mul_le_mul (by omega) (by omega)
  exact joinSigned_wordOfInt (by omega) (by omega)

variable {hi lo divisor : UInt16}

theorem divides_unsigned (h : hi < divisor) :
    (unsigned hi lo divisor).Divides (joinWords hi lo) divisor.toNat := by
  have hoverflow := mt (le_hi_iff hi lo divisor).mpr (UInt16.not_le.mpr h)
  obtain ⟨hzero, hquotient⟩ := not_or.mp hoverflow
  have hpos : 0 < divisor.toNat := UInt16.pos_iff_ne_zero.mpr hzero
  have hlt : divisor.toNat < 0x10000 := divisor.toNat_lt
  have hremainder := Nat.mod_lt (joinWords hi lo) hpos
  have hdivision := Nat.div_add_mod' (joinWords hi lo) divisor.toNat
  have hq : (unsigned hi lo divisor).quotient.toNat = joinWords hi lo / divisor.toNat :=
    UInt16.toNat_ofNat_of_lt (Nat.not_le.mp hquotient)
  have hr : (unsigned hi lo divisor).remainder.toNat = joinWords hi lo % divisor.toNat :=
    UInt16.toNat_ofNat_of_lt (hremainder.trans hlt)
  constructor
  · rw [hq, hr]
    exact hdivision
  · rw [hr]
    exact hremainder

theorem not_divides (h : divisor ≤ hi) (division : Division) :
    ¬division.Divides (joinWords hi lo) divisor.toNat := by
  rintro ⟨hexact, hlt⟩
  have hquotient : division.quotient.toNat < 0x10000 := division.quotient.toNat_lt
  have hpos := Nat.zero_lt_of_lt hlt
  rcases (le_hi_iff hi lo divisor).mp h with hzero | hlarge
  · rw [hzero] at hpos
    exact absurd hpos (by decide)
  · rw [Nat.add_comm, Nat.mul_comm] at hexact
    have hquotientEq := ((Nat.div_mod_unique hpos).mpr ⟨hexact, hlt⟩).1
    omega

/-- There is one way only to divide towards zero. -/
theorem eq_tdiv_of_sign {n d q r : Int} (hexact : q * d + r = n) (hlt : r.natAbs < d.natAbs)
    (hsign : r = 0 ∨ r.sign = n.sign) : q = n.tdiv d := by
  have hd : d ≠ 0 := by omega
  have hsum : r + d * q = n := by rw [Int.add_comm, Int.mul_comm, hexact]
  rcases Int.le_total 0 n with hn | hn
  · have hr : 0 ≤ r := by
      rcases hsign with rfl | hsign
      · exact Int.le_refl 0
      · exact Int.sign_nonneg_iff.mp (hsign ▸ Int.sign_nonneg_iff.mpr hn)
    exact ((Int.tdiv_tmod_unique hn hd).mpr ⟨hsum, hr, by omega⟩).1.symm
  · have hr : r ≤ 0 := by
      rcases hsign with rfl | hsign
      · exact Int.le_refl 0
      · exact Int.sign_nonpos_iff.mp (hsign ▸ Int.sign_nonpos_iff.mpr hn)
    exact ((Int.tdiv_tmod_unique' hn hd).mpr ⟨hsum, by omega, hr⟩).1.symm

theorem dividesSigned_of_signedQuotient? {quotient : Int}
    (h : signedQuotient? hi lo divisor = some quotient) :
    (Division.mk (wordOfInt quotient)
      (wordOfInt (signedRemainder hi lo divisor))).DividesSigned (joinSigned hi lo)
        (toSigned divisor) ∧ toSigned (wordOfInt quotient) = quotient := by
  obtain ⟨⟨hzero, hle, hlt⟩, hquotient⟩ := Option.ite_none_right_eq_some.mp h
  obtain rfl := Option.some.inj hquotient
  have hsize := toSigned_bounds divisor
  have hd : toSigned divisor ≠ 0 := mt toSigned_eq_zero_iff.mp hzero
  have hremainder : (signedRemainder hi lo divisor).natAbs < (toSigned divisor).natAbs := by
    rw [signedRemainder, Int.natAbs_tmod]
    exact Nat.mod_lt _ (Int.natAbs_pos.mpr hd)
  have hq : toSigned (wordOfInt ((joinSigned hi lo).tdiv (toSigned divisor))) =
      (joinSigned hi lo).tdiv (toSigned divisor) := toSigned_wordOfInt hle hlt
  have hr : toSigned (wordOfInt (signedRemainder hi lo divisor)) =
      signedRemainder hi lo divisor := toSigned_wordOfInt (by omega) (by omega)
  refine ⟨⟨?_, ?_, ?_⟩, hq⟩
  · rw [hq, hr]
    exact Int.tdiv_mul_add_tmod _ _
  · rw [hr]
    exact hremainder
  · rw [hr, signedRemainder, Int.sign_tmod]
    split
    · next hdvd => exact .inl (Int.tmod_eq_zero_of_dvd hdvd)
    · exact .inr rfl

theorem not_dividesSigned (h : signedQuotient? hi lo divisor = none) (division : Division) :
    ¬division.DividesSigned (joinSigned hi lo) (toSigned divisor) := by
  rintro ⟨hexact, hlt, hsign⟩
  have hquotient := eq_tdiv_of_sign hexact hlt hsign
  have hzero : divisor ≠ 0 := by
    rintro rfl
    exact absurd hlt (Nat.not_lt_zero _)
  obtain ⟨hle, hfits⟩ := toSigned_bounds division.quotient
  rw [hquotient] at hle hfits
  rw [signedQuotient?, if_pos ⟨hzero, hle, hfits⟩] at h
  exact absurd h (Option.some_ne_none _)

end Division

end TmsCores.Tms9900
