import TmsCores.Proofs.Tms9900.Consistency

namespace TmsCores.Tms9900

namespace Decrementer

/-- Some counts in a row: how often zero is reached, and the decrementer after them. -/
def clocks (decrementer : Decrementer) : Nat → Nat × Decrementer
  | 0 => (0, decrementer)
  | count + 1 =>
      let (expired, next) := decrementer.clock
      let (rest, last) := next.clocks count
      (expired.toNat + rest, last)

/-- How often zero is reached within some counts. -/
def expirations (decrementer : Decrementer) (count : Nat) : Nat :=
  if decrementer.start = 0 ∨ count < decrementer.count.toNat then 0
  else 1 + (count - decrementer.count.toNat) / decrementer.start.toNat

/-- What a running decrementer is left with after some counts. -/
def leftAfter (decrementer : Decrementer) (count : Nat) : Nat :=
  if count < decrementer.count.toNat then decrementer.count.toNat - count
  else decrementer.start.toNat - (count - decrementer.count.toNat) % decrementer.start.toNat

variable {decrementer : Decrementer}

theorem clock_of_stopped (h : decrementer.start = 0) :
    decrementer.clock = (false, decrementer) := by
  rw [clock, if_pos h]

theorem IsConsistent.count_pos (h : decrementer.IsConsistent) (hstart : decrementer.start ≠ 0) :
    0 < decrementer.count.toNat :=
  UInt16.lt_iff_toNat_lt.mp (UInt16.pos_iff_ne_zero.mpr fun hzero => hstart (h.2.mp hzero))

theorem IsConsistent.clock_of_running (h : decrementer.IsConsistent)
    (hstart : decrementer.start ≠ 0) :
    decrementer.clock.1 = decide (decrementer.count.toNat = 1) ∧
      decrementer.clock.2.start = decrementer.start ∧
      decrementer.clock.2.count.toNat =
        if decrementer.count.toNat = 1 then decrementer.start.toNat
        else decrementer.count.toNat - 1 := by
  have hpos := h.count_pos hstart
  have hone : decrementer.count = 1 ↔ decrementer.count.toNat = 1 := UInt16.toNat_inj.symm
  rw [Decrementer.clock, if_neg hstart]
  by_cases hlast : decrementer.count.toNat = 1
  · simp [hone.mpr hlast]
  · have hsub : (decrementer.count - 1).toNat = decrementer.count.toNat - 1 :=
      UInt16.toNat_sub_of_le _ _ (UInt16.le_iff_toNat_le.mpr hpos)
    simp [hone, hlast, hsub]

theorem clocks_of_stopped (h : decrementer.start = 0) (count : Nat) :
    decrementer.clocks count = (0, decrementer) := by
  induction count with
  | zero => rfl
  | succ count ih =>
      simp only [clocks, clock_of_stopped h, ih]
      rfl

theorem clocks_add (decrementer : Decrementer) (first second : Nat) :
    decrementer.clocks (first + second) =
      ((decrementer.clocks first).1 + ((decrementer.clocks first).2.clocks second).1,
        ((decrementer.clocks first).2.clocks second).2) := by
  induction first generalizing decrementer with
  | zero => simp [clocks]
  | succ first ih => simp [Nat.succ_add, clocks, ih, Nat.add_assoc]

theorem start_pos (hstart : decrementer.start ≠ 0) : 0 < decrementer.start.toNat :=
  UInt16.lt_iff_toNat_lt.mp (UInt16.pos_iff_ne_zero.mpr hstart)

theorem IsConsistent.expirations_succ (h : decrementer.IsConsistent)
    (hstart : decrementer.start ≠ 0) (count : Nat) :
    decrementer.expirations (count + 1) =
      decrementer.clock.1.toNat + decrementer.clock.2.expirations count := by
  obtain ⟨hexpired, hkept, hnext⟩ := h.clock_of_running hstart
  have hpos := h.count_pos hstart
  simp only [expirations, hkept, hnext, hexpired, hstart, false_or]
  by_cases hlast : decrementer.count.toNat = 1
  · have hdiv := Nat.div_eq count decrementer.start.toNat
    have hmore : ¬count + 1 < 1 := by omega
    simp only [hlast, hmore, if_true, if_false, decide_true, Bool.toNat_true, Nat.add_sub_cancel]
    rw [hdiv]
    by_cases hless : count < decrementer.start.toNat
    · rw [if_pos hless, if_neg (by omega)]
    · rw [if_neg hless, if_pos ⟨start_pos hstart, by omega⟩, Nat.add_comm 1 (_ / _)]
  · have hshift : count + 1 - decrementer.count.toNat = count - (decrementer.count.toNat - 1) := by
      omega
    have hiff : count + 1 < decrementer.count.toNat ↔ count < decrementer.count.toNat - 1 := by
      omega
    simp only [hlast, hiff, hshift, if_false, decide_false, Bool.toNat_false, Nat.zero_add]

theorem IsConsistent.leftAfter_succ (h : decrementer.IsConsistent)
    (hstart : decrementer.start ≠ 0) (count : Nat) :
    decrementer.leftAfter (count + 1) = decrementer.clock.2.leftAfter count := by
  obtain ⟨-, hkept, hnext⟩ := h.clock_of_running hstart
  have hpos := h.count_pos hstart
  simp only [leftAfter, hkept, hnext]
  by_cases hlast : decrementer.count.toNat = 1
  · have hmod := Nat.mod_eq count decrementer.start.toNat
    have hmore : ¬count + 1 < 1 := by omega
    simp only [hlast, hmore, if_true, if_false, Nat.add_sub_cancel]
    rw [hmod]
    by_cases hless : count < decrementer.start.toNat
    · rw [if_pos hless, if_neg (by omega)]
    · rw [if_neg hless, if_pos ⟨start_pos hstart, by omega⟩]
  · have hshift : count + 1 - decrementer.count.toNat = count - (decrementer.count.toNat - 1) := by
      omega
    have hiff : count + 1 < decrementer.count.toNat ↔ count < decrementer.count.toNat - 1 := by
      omega
    have hsub : decrementer.count.toNat - (count + 1) = decrementer.count.toNat - 1 - count := by
      omega
    simp only [hlast, hiff, hshift, hsub, if_false]

/-- The closed form of a running decrementer: zero is reached first when the count is used up, and
then whenever the start value is. -/
theorem IsConsistent.clocks_of_running (h : decrementer.IsConsistent)
    (hstart : decrementer.start ≠ 0) (count : Nat) :
    (decrementer.clocks count).1 = decrementer.expirations count ∧
      (decrementer.clocks count).2.start = decrementer.start ∧
      (decrementer.clocks count).2.count.toNat = decrementer.leftAfter count := by
  induction count generalizing decrementer with
  | zero =>
      have hpos := h.count_pos hstart
      simp [clocks, expirations, leftAfter, hpos]
  | succ count ih =>
      obtain ⟨-, hkept, -⟩ := h.clock_of_running hstart
      obtain ⟨hexpirations, hsame, hleft⟩ := ih h.clock (by rwa [hkept])
      refine ⟨?_, hsame.trans hkept, ?_⟩
      · rw [h.expirations_succ hstart, ← hexpirations]
        rfl
      · rw [h.leftAfter_succ hstart, ← hleft]
        rfl

end Decrementer

namespace Cpu

variable {cpu : Cpu}

theorem clockDecrementer_of_quiet (h : cpu.chip.decrementer.clock.1 = false) :
    cpu.clockDecrementer =
      { cpu with chip.decrementer := cpu.chip.decrementer.clock.2 } := by
  unfold clockDecrementer
  dsimp only
  rw [h]
  rfl

theorem clockDecrementer_of_expired (h : cpu.chip.decrementer.clock.1 = true) :
    cpu.clockDecrementer =
      { cpu with
        chip.decrementer := cpu.chip.decrementer.clock.2
        interrupts := cpu.interrupts.setLatch decrementerLine true } := by
  unfold clockDecrementer
  dsimp only
  rw [h]
  rfl

end Cpu

end TmsCores.Tms9900
