import TmsCores.Proofs.Interrupt.Priority
import TmsCores.Proofs.Tms7000.Consistency

namespace TmsCores.Tms7000.Cpu

def request (number : UInt8) : PendingLine :=
  ⟨number, number + 1⟩

/-- A line requests an interrupt that is enabled, by itself in IOCNT0 and with all others in the
status register. -/
def Eligible (cpu : Cpu) (number : UInt8) : Prop :=
  Status.has cpu.st Status.interruptEnable = true ∧
    cpu.peripherals.isEnabled number = true ∧
    (cpu.interrupts.isLatched number = true ∨ cpu.interrupts.state number = .asserted)

/-- Of all lines that may be serviced this one has the lowest number. -/
def Foremost (cpu : Cpu) (number : UInt8) : Prop :=
  cpu.Eligible number ∧ ∀ other, cpu.Eligible other → number ≤ other

namespace IsConsistent

variable {config : Config} {cpu : Cpu} {number : UInt8} {line : InterruptLine}

theorem exists_line? (h : cpu.IsConsistent config) (hnumber : number ∈ inputLines) :
    ∃ line, cpu.interrupts.line? number = some line := by
  have hsize : number.toNat < cpu.interrupts.lines.length :=
    Nat.lt_of_lt_of_eq (mem_inputLines_iff.mp hnumber) h.size_interrupts.symm
  exact ⟨_, List.getElem?_eq_getElem hsize⟩

theorem toLineConfig_eq (h : cpu.IsConsistent config)
    (hline : cpu.interrupts.line? number = some line) :
    number ∈ inputLines ∧ line.toLineConfig = ⟨number + 1, true, .edgeLatched⟩ := by
  have hconfig : lineConfigs[number.toNat]? = some line.toLineConfig := by
    rw [← h.configs_eq, InterruptController.configs, List.getElem?_map]
    exact congrArg (Option.map _) hline
  have hnumber : number ∈ inputLines :=
    mem_inputLines_iff.mpr (List.getElem?_eq_some_iff.mp hconfig).1
  refine ⟨hnumber, ?_⟩
  obtain rfl | rfl | rfl : number = int1 ∨ number = int2 ∨ number = int3 := by
    simpa [inputLines] using hnumber
  · exact (Option.some.inj hconfig).symm
  · exact (Option.some.inj hconfig).symm
  · exact (Option.some.inj hconfig).symm

theorem isEligible_iff (h : cpu.IsConsistent config)
    (hline : cpu.interrupts.line? number = some line) :
    line.isEligible cpu.interrupts.compare 0xFF = true ↔
      cpu.peripherals.isEnabled number = true ∧
        (cpu.interrupts.isLatched number = true ∨ cpu.interrupts.state number = .asserted) := by
  obtain ⟨hinput, hfixed⟩ := h.toLineConfig_eq hline
  have hpolicy : line.policy = .edgeLatched := congrArg LineConfig.policy hfixed
  have hadmitted : line.level ≤ 255 :=
    UInt8.le_iff_toNat_le.mpr (Nat.le_of_lt_succ line.level.toNat_lt)
  have henabled : line.enabled = cpu.peripherals.isEnabled number := by
    rw [← h.enables_synced number hinput, InterruptController.isEnabled, hline, Option.any_some]
  have hlatched : cpu.interrupts.isLatched number = line.latched := by
    rw [InterruptController.isLatched, hline, Option.any_some]
  have hstate : cpu.interrupts.state number = line.state := by
    rw [InterruptController.state, hline]
    rfl
  rw [hlatched, hstate]
  simp [InterruptLine.isEligible, InterruptLine.isActive, MaskCompare.admits, h.compare_eq,
    henabled, hpolicy, hadmitted]

theorem line?_of_eligible (h : cpu.Eligible number) :
    ∃ line, cpu.interrupts.line? number = some line := by
  cases hline : cpu.interrupts.line? number with
  | some line => exact ⟨line, rfl⟩
  | none =>
      obtain ⟨_, _, hrequest⟩ := h
      rw [InterruptController.isLatched, InterruptController.state, hline] at hrequest
      rcases hrequest with hrequest | hrequest
      · exact absurd hrequest nofun
      · exact absurd hrequest nofun

theorem mem_inputLines (h : cpu.IsConsistent config) (heligible : cpu.Eligible number) :
    number ∈ inputLines := by
  obtain ⟨line, hline⟩ := line?_of_eligible heligible
  exact (h.toLineConfig_eq hline).1

theorem size_interrupts_le (h : cpu.IsConsistent config) : cpu.interrupts.size ≤ 256 := by
  rw [h.size_interrupts]
  decide

theorem mem_eligible_iff (h : cpu.IsConsistent config)
    (henable : Status.has cpu.st Status.interruptEnable = true) {pending : PendingLine} :
    pending ∈ cpu.interrupts.eligible 0xFF ↔
      cpu.Eligible pending.line ∧ pending = request pending.line := by
  obtain ⟨number, level⟩ := pending
  simp only [InterruptController.mem_eligible_iff h.size_interrupts_le, request,
    PendingLine.mk.injEq, true_and]
  constructor
  · rintro ⟨line, hline, heligible, rfl⟩
    refine ⟨⟨henable, (h.isEligible_iff hline).mp heligible⟩, ?_⟩
    exact congrArg LineConfig.level (h.toLineConfig_eq hline).2
  · rintro ⟨heligible, rfl⟩
    obtain ⟨line, hline⟩ := line?_of_eligible heligible
    refine ⟨line, hline, (h.isEligible_iff hline).mpr heligible.2, ?_⟩
    exact (congrArg LineConfig.level (h.toLineConfig_eq hline).2).symm

theorem request_precedes_iff (h : cpu.IsConsistent config) {other : UInt8}
    (hnumber : cpu.Eligible number) (hother : cpu.Eligible other) :
    (request number).Precedes (request other) ↔ number ≤ other := by
  have hlevel {line : UInt8} (heligible : cpu.Eligible line) :
      (line + 1).toNat = line.toNat + 1 := by
    have hlow := mem_inputLines_iff.mp (h.mem_inputLines heligible)
    simp only [UInt8.toNat_add, UInt8.reduceToNat]
    omega
  simp only [request, PendingLine.Precedes, UInt8.lt_iff_toNat_lt, UInt8.le_iff_toNat_le,
    ← UInt8.toNat_inj, hlevel hnumber, hlevel hother]
  omega

/-- The interrupt that is due is that of the foremost line. -/
theorem pending_eq_some_iff (h : cpu.IsConsistent config) {pending : PendingLine} :
    cpu.pending = some pending ↔
      cpu.Foremost pending.line ∧ pending = request pending.line := by
  rw [Cpu.pending, Option.ite_none_right_eq_some,
    InterruptController.pending_eq_some_iff h.size_interrupts_le]
  constructor
  · rintro ⟨henable, hmem, hfirst⟩
    obtain ⟨heligible, hrequest⟩ := (h.mem_eligible_iff henable).mp hmem
    refine ⟨⟨heligible, fun other hother => ?_⟩, hrequest⟩
    rw [← h.request_precedes_iff heligible hother, ← hrequest]
    exact hfirst _ ((h.mem_eligible_iff henable).mpr ⟨hother, rfl⟩)
  · rintro ⟨⟨heligible, hlowest⟩, hrequest⟩
    have henable := heligible.1
    refine ⟨henable, (h.mem_eligible_iff henable).mpr ⟨heligible, hrequest⟩, fun other hother => ?_⟩
    obtain ⟨hother, hotherRequest⟩ := (h.mem_eligible_iff henable).mp hother
    rw [hrequest, hotherRequest, h.request_precedes_iff heligible hother]
    exact hlowest _ hother

end IsConsistent

end TmsCores.Tms7000.Cpu
