import TmsCores.Clock

namespace TmsCores

namespace CycleCount

theorem advance_advance (count : CycleCount) (first second : Nat) :
    (count.advance first).advance second = count.advance (first + second) := by
  simp [advance, UInt64.ofNat_add, UInt64.add_assoc]

theorem advance_zero (count : CycleCount) : count.advance 0 = count := by
  simp [advance]

end CycleCount

namespace TickDivider

theorem divisor_ofDivisor (divisor : UInt32) :
    (ofDivisor divisor).divisor.toNat = max 1 divisor.toNat := by
  unfold ofDivisor
  split
  · next hzero =>
      rw [hzero]
      rfl
  · next hpositive =>
      have hpositive := UInt32.lt_iff_toNat_lt.mp (UInt32.pos_iff_ne_zero.mpr hpositive)
      exact (Nat.max_eq_right hpositive).symm

theorem advance_eq (divider : TickDivider) (cycles : Nat) :
    divider.advance cycles =
      ((divider.total cycles / divider.divisor).toNat,
        { divider with accumulated := divider.total cycles % divider.divisor }) := by
  have hdivide : (divider.divide? cycles).getD (0, divider.total cycles) =
      (divider.total cycles / divider.divisor, divider.total cycles % divider.divisor) := by
    unfold divide?
    split
    · next h => rw [Option.getD_none, h, UInt32.div_zero, UInt32.mod_zero]
    · rfl
  rw [advance, hdivide]

theorem isSome_divide? {divider : TickDivider} (h : divider.divisor ≠ 0) (cycles : Nat) :
    (divider.divide? cycles).isSome = true := by
  rw [divide?, if_neg h]
  rfl

theorem reset_eq {divider other : TickDivider} (h : divider.divisor = other.divisor) :
    divider.reset = other.reset := by
  rw [reset, h, reset]

/-- While the sum fits, the ticks and what is carried over make up for all cycles. -/
theorem toNat_advance {divider : TickDivider} {cycles : Nat}
    (hsum : divider.accumulated.toNat + cycles < UInt32.size) :
    divider.divisor.toNat * (divider.advance cycles).1 +
        (divider.advance cycles).2.accumulated.toNat =
      divider.accumulated.toNat + cycles := by
  have htotal : (divider.total cycles).toNat = divider.accumulated.toNat + cycles := by
    have hcycles : cycles < UInt32.size := Nat.lt_of_le_of_lt (Nat.le_add_left _ _) hsum
    rw [total, UInt32.toNat_add, UInt32.toNat_ofNat', Nat.mod_eq_of_lt hcycles,
      Nat.mod_eq_of_lt hsum]
  simp only [advance_eq, UInt32.toNat_div, UInt32.toNat_mod, htotal, Nat.div_add_mod]

/-- Less than a whole tick is carried over. -/
def InPhase (divider : TickDivider) : Prop :=
  divider.accumulated < divider.divisor

theorem ofDivisor_inPhase (divisor : UInt32) : (ofDivisor divisor).InPhase := by
  unfold InPhase ofDivisor
  split
  · decide
  · exact UInt32.pos_iff_ne_zero.mpr ‹_›

namespace InPhase

variable {divider : TickDivider}

theorem toNat_lt (h : divider.InPhase) : divider.accumulated.toNat < divider.divisor.toNat :=
  UInt32.lt_iff_toNat_lt.mp h

theorem divisor_ne_zero (h : divider.InPhase) : divider.divisor ≠ 0 :=
  UInt32.pos_iff_ne_zero.mp (UInt32.lt_of_le_of_lt UInt32.zero_le h)

theorem advance (h : divider.InPhase) (cycles : Nat) : (divider.advance cycles).2.InPhase := by
  have hpositive : 0 < divider.divisor.toNat := Nat.zero_lt_of_lt h.toNat_lt
  rw [InPhase, UInt32.lt_iff_toNat_lt]
  simp only [advance_eq, UInt32.toNat_mod]
  exact Nat.mod_lt _ hpositive

theorem reset (h : divider.InPhase) : divider.reset.InPhase := by
  have hpositive : 0 < divider.divisor.toNat := Nat.zero_lt_of_lt h.toNat_lt
  exact UInt32.lt_iff_toNat_lt.mpr hpositive

theorem advance_zero (h : divider.InPhase) : divider.advance 0 = (0, divider) := by
  have hzero : divider.total 0 = divider.accumulated := UInt32.add_zero divider.accumulated
  have hquotient : divider.accumulated / divider.divisor = 0 := by
    rw [← UInt32.toNat_inj, UInt32.toNat_div]
    exact Nat.div_eq_of_lt h.toNat_lt
  have hremainder : divider.accumulated % divider.divisor = divider.accumulated := by
    rw [← UInt32.toNat_inj, UInt32.toNat_mod]
    exact Nat.mod_eq_of_lt h.toNat_lt
  simp only [advance_eq, hzero, hquotient, hremainder, UInt32.toNat_zero]

theorem untilNext_eq (h : divider.InPhase) :
    divider.untilNext = divider.divisor.toNat - divider.accumulated.toNat := by
  rw [untilNext, UInt32.toNat_sub_of_le _ _ (UInt32.le_of_lt h)]

theorem toNat_total (h : divider.InPhase) {cycles : Nat} (hcycles : cycles < divider.untilNext) :
    (divider.total cycles).toNat = divider.accumulated.toNat + cycles := by
  have hsmall : cycles < 2 ^ 32 :=
    Nat.lt_trans hcycles (divider.divisor - divider.accumulated).toNat_lt
  have hbound : divider.divisor.toNat < 2 ^ 32 := divider.divisor.toNat_lt
  rw [h.untilNext_eq] at hcycles
  rw [total, UInt32.toNat_add, UInt32.toNat_ofNat', Nat.mod_eq_of_lt hsmall]
  exact Nat.mod_eq_of_lt (by omega)

theorem advance_of_lt (h : divider.InPhase) {cycles : Nat} (hcycles : cycles < divider.untilNext) :
    divider.advance cycles = (0, { divider with accumulated := divider.total cycles }) := by
  have htotal := h.toNat_total hcycles
  rw [h.untilNext_eq] at hcycles
  have hbelow : (divider.total cycles).toNat < divider.divisor.toNat := by omega
  rw [advance_eq, Prod.mk.injEq]
  constructor
  · rw [UInt32.toNat_div, Nat.div_eq_of_lt hbelow]
  · congr 1
    exact UInt32.toNat_inj.mp (by rw [UInt32.toNat_mod, Nat.mod_eq_of_lt hbelow])

theorem untilNext_advance (h : divider.InPhase) {cycles : Nat}
    (hcycles : cycles < divider.untilNext) :
    (divider.advance cycles).2.untilNext = divider.untilNext - cycles := by
  have hphase := (h.advance cycles).untilNext_eq
  have htotal := h.toNat_total hcycles
  rw [hphase, h.advance_of_lt hcycles, h.untilNext_eq]
  dsimp only
  rw [htotal, Nat.sub_add_eq]

theorem untilNext_pos (h : divider.InPhase) : 0 < divider.untilNext := by
  rw [h.untilNext_eq]
  exact Nat.sub_pos_of_lt h.toNat_lt

theorem advance_untilNext (h : divider.InPhase) :
    divider.advance divider.untilNext = (1, divider.reset) := by
  have hpositive : 0 < divider.divisor.toNat := Nat.zero_lt_of_lt h.toNat_lt
  have htotal : divider.total divider.untilNext = divider.divisor := by
    rw [total, untilNext, UInt32.ofNat_toNat, UInt32.add_comm, UInt32.sub_add_cancel]
  have hone : divider.divisor / divider.divisor = 1 := by
    rw [← UInt32.toNat_inj, UInt32.toNat_div, Nat.div_self hpositive]
    rfl
  have hzero : divider.divisor % divider.divisor = 0 := by
    rw [← UInt32.toNat_inj, UInt32.toNat_mod, Nat.mod_self]
    rfl
  simp only [advance_eq, htotal, hone, hzero]
  rfl

theorem advance_advance (h : divider.InPhase) {first : Nat} (hfirst : first < divider.untilNext)
    (second : Nat) :
    (divider.advance first).2.advance second = divider.advance (first + second) := by
  rw [h.advance_of_lt hfirst]
  simp [advance_eq, total, UInt32.ofNat_add, UInt32.add_assoc]

end InPhase

theorem untilNext_reset (divider : TickDivider) :
    divider.reset.untilNext = divider.divisor.toNat := by
  rw [untilNext, reset, UInt32.sub_zero]

end TickDivider

end TmsCores
