import TmsCores.Proofs.Interrupt.Priority
import TmsCores.Proofs.Tms9900.Reachability

namespace TmsCores.Tms9900

namespace Config

/-- The level of a line.  LOAD counts as level 0. -/
def level (config : Config) (number : UInt8) : UInt8 :=
  if number = config.loadLine then 0 else number

def request (config : Config) (number : UInt8) : PendingLine :=
  ⟨number, config.level number⟩

end Config

namespace Cpu

def mask (cpu : Cpu) : UInt8 :=
  (cpu.st &&& Status.mask).toUInt8

/-- A line requests an interrupt, and the mask lets it through.  LOAD is never masked. -/
def Eligible (cpu : Cpu) (number : UInt8) : Prop :=
  ∃ line, cpu.interrupts.line? number = some line ∧ line.isActive = true ∧
    (number = cpu.config.loadLine ∨ cpu.config.level number ≤ cpu.mask)

/-- Of all lines that may be serviced this one is the first by level and then by number. -/
def Foremost (cpu : Cpu) (number : UInt8) : Prop :=
  cpu.Eligible number ∧
    ∀ other, cpu.Eligible other → (cpu.config.request number).Precedes (cpu.config.request other)

namespace IsConsistent

variable {config : Config} {cpu : Cpu} {number : UInt8}

theorem toLineConfig_eq (h : cpu.IsConsistent config) {line : InterruptLine}
    (hline : cpu.interrupts.line? number = some line) :
    line.toLineConfig = ⟨config.level number, number ≠ config.loadLine, config.latch⟩ := by
  have hconfig : (lineConfigs config)[number.toNat]? = some line.toLineConfig := by
    rw [← h.configs_eq, InterruptController.configs, List.getElem?_map]
    exact congrArg (Option.map _) hline
  have hload : number = config.loadLine ↔ number.toNat = config.levels.toNat :=
    UInt8.toNat_inj.symm
  rw [lineConfigs, List.getElem?_append, List.length_map, List.length_range] at hconfig
  split at hconfig
  · next hlevel =>
      have hmaskable : number ≠ config.loadLine := fun heq => by
        rw [hload] at heq
        omega
      rw [List.getElem?_map, List.getElem?_range hlevel, Option.map_some, UInt8.ofNat_toNat,
        Option.some.injEq] at hconfig
      simp [← hconfig, Config.level, hmaskable]
  · rw [List.getElem?_singleton, Option.ite_none_right_eq_some, Option.some.injEq] at hconfig
    obtain ⟨hlast, hconfig⟩ := hconfig
    have hload : number = config.loadLine := hload.mpr (by omega)
    simp [← hconfig, Config.level, hload]

theorem exists_line? (h : cpu.IsConsistent config) (hnumber : number.toNat ≤ config.levels.toNat) :
    ∃ line, cpu.interrupts.line? number = some line := by
  have hsize : number.toNat < cpu.interrupts.size := by
    rw [h.size_interrupts]
    exact Nat.lt_succ_of_le hnumber
  exact ⟨_, List.getElem?_eq_getElem hsize⟩

/-- On chips that latch edges a line requests service by its latch, or by the level that it is held
at. -/
theorem isActive_iff (h : cpu.IsConsistent config) (hlatch : config.latch = .edgeLatched)
    {line : InterruptLine} (hline : cpu.interrupts.line? number = some line) :
    line.isActive = true ↔
      cpu.interrupts.isLatched number = true ∨ cpu.interrupts.state number = .asserted := by
  have hpolicy : line.policy = .edgeLatched :=
    (congrArg LineConfig.policy (h.toLineConfig_eq hline)).trans hlatch
  rw [InterruptController.isLatched, InterruptController.state, hline]
  simp [InterruptLine.isActive, hpolicy]

theorem isEligible_iff (h : cpu.IsConsistent config) {line : InterruptLine}
    (hline : cpu.interrupts.line? number = some line) :
    line.isEligible cpu.interrupts.compare cpu.mask = true ↔
      line.isActive = true ∧ (number = config.loadLine ∨ config.level number ≤ cpu.mask) := by
  have hfixed := h.toLineConfig_eq hline
  have hlevel : line.level = config.level number := congrArg LineConfig.level hfixed
  have hmaskable : line.maskable = decide (number ≠ config.loadLine) :=
    congrArg LineConfig.maskable hfixed
  have henabled : line.enabled = true := h.allEnabled line (List.mem_of_getElem? hline)
  simp [InterruptLine.isEligible, henabled, hlevel, hmaskable, h.compare_eq, MaskCompare.admits]

theorem mem_eligible_iff (h : cpu.IsConsistent config) {pending : PendingLine} :
    pending ∈ cpu.interrupts.eligible cpu.mask ↔
      cpu.Eligible pending.line ∧ pending = config.request pending.line := by
  obtain ⟨number, level⟩ := pending
  simp only [InterruptController.mem_eligible_iff h.size_interrupts_le, Eligible, Config.request,
    PendingLine.mk.injEq, true_and, h.config_eq]
  constructor
  · rintro ⟨line, hline, heligible, rfl⟩
    obtain ⟨hactive, hmask⟩ := (h.isEligible_iff hline).mp heligible
    exact ⟨⟨line, hline, hactive, hmask⟩, congrArg LineConfig.level (h.toLineConfig_eq hline)⟩
  · rintro ⟨⟨line, hline, hactive, hmask⟩, rfl⟩
    refine ⟨line, hline, (h.isEligible_iff hline).mpr ⟨hactive, hmask⟩, ?_⟩
    exact (congrArg LineConfig.level (h.toLineConfig_eq hline)).symm

/-- The interrupt that is due is that of the foremost line. -/
theorem pending_eq_some_iff (h : cpu.IsConsistent config) {pending : PendingLine} :
    cpu.pending = some pending ↔
      cpu.Foremost pending.line ∧ pending = config.request pending.line := by
  rw [Cpu.pending, InterruptController.pending_eq_some_iff h.size_interrupts_le]
  change pending ∈ cpu.interrupts.eligible cpu.mask ∧
    (∀ other ∈ cpu.interrupts.eligible cpu.mask, pending.Precedes other) ↔ _
  rw [h.mem_eligible_iff, Foremost, h.config_eq]
  constructor
  · rintro ⟨⟨heligible, hrequest⟩, hfirst⟩
    refine ⟨⟨heligible, fun other hother => ?_⟩, hrequest⟩
    rw [← hrequest]
    exact hfirst _ (h.mem_eligible_iff.mpr ⟨hother, rfl⟩)
  · rintro ⟨⟨heligible, hfirst⟩, hrequest⟩
    refine ⟨⟨heligible, hrequest⟩, fun other hother => ?_⟩
    obtain ⟨hother, hrequested⟩ := h.mem_eligible_iff.mp hother
    rw [hrequest, hrequested]
    exact hfirst _ hother

theorem pending_eq_none_iff (h : cpu.IsConsistent config) :
    cpu.pending = none ↔ ∀ number, ¬cpu.Eligible number := by
  rw [Cpu.pending, InterruptController.pending_eq_none_iff]
  constructor
  · intro hnone number heligible
    have hmem : config.request number ∈ cpu.interrupts.eligible cpu.mask :=
      h.mem_eligible_iff.mpr ⟨heligible, rfl⟩
    exact hnone _ hmem
  · intro hnone pending hpending
    exact hnone _ (h.mem_eligible_iff.mp hpending).1

end IsConsistent

end Cpu

end TmsCores.Tms9900
