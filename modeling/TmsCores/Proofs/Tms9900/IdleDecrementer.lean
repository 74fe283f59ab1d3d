import TmsCores.Proofs.Countdown
import TmsCores.Proofs.Interrupt.Latch
import TmsCores.Proofs.Tms9900.Decrementer
import TmsCores.Proofs.Tms9900.InterruptDiscipline
import TmsCores.Proofs.Tms9900.TimeSlicing

namespace TmsCores.Tms9900

/-- The chip has a decrementer, whose line latches its requests and has a level of its own. -/
structure Config.HasDecrementer (config : Config) : Prop where
  onChip : config.onChip = true
  latch : config.latch = .edgeLatched
  levels : decrementerLine < config.levels

namespace Cpu

variable {cpu : Cpu} {config : Config}

/-- Idle until the decrementer reaches zero, with nothing else that could end it. -/
structure AwaitsDecrementer (config : Config) (cpu : Cpu) : Prop where
  consistent : cpu.IsConsistent config
  idle : cpu.idle = true
  released : cpu.suppress = false
  admitted : decrementerLine ≤ cpu.mask
  quiet : ∀ line,
    ¬(cpu.interrupts.isLatched line = true ∨ cpu.interrupts.state line = .asserted)
  counting : cpu.chip.countsTime = true
  started : cpu.chip.decrementer.start ≠ 0

namespace AwaitsDecrementer

variable (hconfig : config.HasDecrementer) (h : cpu.AwaitsDecrementer config)

include hconfig h

theorem resting : cpu.Resting := by
  refine ⟨h.idle, h.released, h.consistent.pending_eq_none_iff.mpr ?_⟩
  rintro number ⟨line, hline, hactive, -⟩
  rw [h.consistent.isActive_iff hconfig.latch hline] at hactive
  exact absurd hactive (h.quiet number)

omit hconfig in
theorem advance (cycles : Nat) : (cpu.advance cycles).2.AwaitsDecrementer config :=
  { h with consistent := (isConsistent_hostStable config).advance h.consistent cycles }

theorem tick_eq : cpu.tick = cpu.clockDecrementer := by
  rw [tick, h.consistent.config_eq, hconfig.onChip, h.counting]
  rfl

theorem tick (hmore : 1 < cpu.chip.decrementer.count.toNat) :
    cpu.tick.AwaitsDecrementer config ∧
      cpu.tick.chip.decrementer.count.toNat = cpu.chip.decrementer.count.toNat - 1 := by
  obtain ⟨hexpired, hstart, hcount⟩ :=
    h.consistent.decrementer.clock_of_running h.started
  have hnot : ¬cpu.chip.decrementer.count.toNat = 1 := Nat.ne_of_gt hmore
  rw [decide_eq_false hnot] at hexpired
  rw [if_neg hnot] at hcount
  have hconsistent := h.consistent.tick
  rw [h.tick_eq hconfig, clockDecrementer_of_quiet hexpired] at hconsistent ⊢
  have hstarted : cpu.chip.decrementer.clock.2.start ≠ 0 := hstart ▸ h.started
  exact ⟨{ h with consistent := hconsistent, started := hstarted }, hcount⟩

theorem pending_tick (hlast : cpu.chip.decrementer.count.toNat ≤ 1) :
    cpu.tick.pending = some (config.request decrementerLine) := by
  have hlevels := UInt8.lt_iff_toNat_lt.mp hconfig.levels
  have hline : decrementerLine.toNat < cpu.interrupts.size := by
    rw [h.consistent.size_interrupts]
    exact Nat.lt_succ_of_lt hlevels
  have hlatched (number : UInt8) :
      (cpu.interrupts.setLatch decrementerLine true).isLatched number =
        if decrementerLine = number then true else cpu.interrupts.isLatched number :=
    InterruptController.isLatched_setLatch_of_lt hline true number
  obtain ⟨hexpired, -⟩ := h.consistent.decrementer.clock_of_running h.started
  rw [decide_eq_true (Nat.le_antisymm hlast (h.consistent.decrementer.count_pos h.started))]
    at hexpired
  have hconsistent := h.consistent.tick
  rw [h.tick_eq hconfig, clockDecrementer_of_expired hexpired] at hconsistent ⊢
  -- No other line requests anything, so that the latch of this one is all that is active.
  have hactive {number : UInt8} {line : InterruptLine}
      (hnumber : (cpu.interrupts.setLatch decrementerLine true).line? number = some line) :
      line.isActive = true ↔ decrementerLine = number := by
    rw [hconsistent.isActive_iff hconfig.latch hnumber]
    change (cpu.interrupts.setLatch decrementerLine true).isLatched number = true ∨
      (cpu.interrupts.setLatch decrementerLine true).state number = .asserted ↔ _
    rw [hlatched, InterruptController.state_setLatch]
    by_cases hsame : decrementerLine = number
    · simp [hsame]
    · rw [if_neg hsame]
      exact ⟨fun hrequest => absurd hrequest (h.quiet number), fun heq => absurd heq hsame⟩
  obtain ⟨line, hinput⟩ := hconsistent.exists_line? (Nat.le_of_lt hlevels)
  have hlevel : config.level decrementerLine = decrementerLine := by
    rw [Config.level, if_neg]
    intro hload
    exact UInt8.lt_irrefl _ (hload ▸ hconfig.levels)
  have hadmitted : cpu.config.level decrementerLine ≤ cpu.mask := by
    rw [h.consistent.config_eq, hlevel]
    exact h.admitted
  refine hconsistent.pending_eq_some_iff.mpr
    ⟨⟨⟨line, hinput, (hactive hinput).mpr rfl, .inr hadmitted⟩, ?_⟩, rfl⟩
  rintro other ⟨otherLine, hother, hotherActive, -⟩
  obtain rfl := (hactive hother).mp hotherActive
  exact .refl _

end AwaitsDecrementer

end Cpu

variable {β : Type} [Bus β] {config : Config}

namespace Machine

/-- An iteration takes the interrupt of a line, whatever its limit, and ends the idle state. -/
def Takes (line : UInt8) (machine : Machine (RecordedBus β)) : Prop :=
  (∀ limit, machine.Acknowledges limit [line]) ∧ machine.checked.cpu.idle = false

theorem takes_of_pending {machine : Machine (RecordedBus β)} {line : UInt8}
    (hsuppress : machine.cpu.suppress = false)
    (h : machine.cpu.pending = some (config.request line)) : machine.Takes line := by
  have hreleased : machine.released.cpu.pending = some (config.request line) := h
  refine ⟨fun limit => acknowledges_iff.mpr ?_, ?_⟩
  · exact acknowledged_eq_singleton_iff.mpr ⟨hsuppress, _, h, rfl⟩
  · rw [checked_eq, hsuppress, if_neg Bool.false_ne_true]
    exact Exec.serviceInterrupt_leads _ machine.released hreleased

/-- Idle until the decrementer reaches zero, on a bus that leaves it at that. -/
def AwaitsDecrementer (config : Config) (machine : Machine β) : Prop :=
  machine.cpu.AwaitsDecrementer config ∧ Bus.Silent machine.bus

end Machine

namespace Exec

theorem pass_untilNext {machine : Machine β} (h : machine.cpu.divider.InPhase)
    (hsilent : Bus.Silent machine.bus) :
    pass machine.cpu.divider.untilNext machine =
      { (clearLeftovers machine).2 with
        cpu := (machine.cpu.advance machine.cpu.divider.untilNext).2.tick
        bus := (Bus.tick machine.bus).2 } := by
  let clocked : Machine β :=
    { (clearLeftovers machine).2 with
      cpu := (machine.cpu.advance machine.cpu.divider.untilNext).2.tick }
  have hticks : (machine.cpu.advance machine.cpu.divider.untilNext).1 = 1 := by
    simp only [Cpu.advance, h.advance_untilNext]
  have hbus : Bus.tick clocked.bus = (none, (Bus.tick machine.bus).2) := hsilent.tick_eq
  rw [pass_eq h, hticks]
  exact congrArg Prod.snd (tickBus_of_quiet hbus)

variable (hconfig : config.HasDecrementer)

include hconfig

/-- An idle processor with enough time left rests until the decrementer counts. -/
theorem iterate_of_tick {machine : Machine β} (h : machine.AwaitsDecrementer config)
    {limit : Nat} (htick : machine.cpu.divider.untilNext ≤ limit) :
    iterate limit machine =
      (machine.cpu.divider.untilNext,
        { (clearLeftovers machine).2 with
          cpu := (machine.cpu.advance machine.cpu.divider.untilNext).2.tick
          bus := (Bus.tick machine.bus).2 }) := by
  have hpos := h.1.consistent.inPhase.untilNext_pos
  have hcycles : max 1 (min machine.cpu.divider.untilNext limit) =
      machine.cpu.divider.untilNext := by
    omega
  rw [iterate_of_resting (h.1.resting hconfig), hcycles,
    pass_untilNext h.1.consistent.inPhase h.2]

/-- An idle processor counts down to the interrupt of its decrementer. -/
theorem iterate_countdown :
    RunLoop.Countdown (iterate (β := RecordedBus β)) (Machine.AwaitsDecrementer config)
      (Machine.Takes decrementerLine) (TickDivider.ofDivisor config.tickDivider).divisor.toNat
      (·.cpu.divider.untilNext) (·.cpu.chip.decrementer.count.toNat) where
  untilNext_pos machine h := h.1.consistent.inPhase.untilNext_pos
  between limit machine h hlimit hbetween := by
    have hphase := h.1.consistent.inPhase
    have hcycles : max 1 (min machine.cpu.divider.untilNext limit) = limit := by
      omega
    rw [iterate_of_resting (h.1.resting hconfig), hcycles, pass_of_lt hphase hbetween]
    exact ⟨rfl, ⟨h.1.advance limit, h.2⟩, hphase.untilNext_advance hbetween, rfl⟩
  tick limit machine h htick hmore := by
    have hcharged := h.1.advance machine.cpu.divider.untilNext
    obtain ⟨hawaits, hremaining⟩ := hcharged.tick hconfig hmore
    have hdivider : (machine.cpu.advance machine.cpu.divider.untilNext).2.tick.divider =
        machine.cpu.divider.reset := by
      rw [Cpu.eq_of_core (·.divider) (fun _ => rfl) (Cpu.core_tick _)]
      exact congrArg Prod.snd h.1.consistent.inPhase.advance_untilNext
    rw [iterate_of_tick hconfig h htick]
    refine ⟨rfl, ⟨hawaits, h.2.tick⟩, ?_, hremaining⟩
    rw [hdivider, TickDivider.untilNext_reset, h.1.consistent.divisor_eq]
  last limit machine h htick hlast := by
    have hcharged := h.1.advance machine.cpu.divider.untilNext
    have hpending := hcharged.pending_tick hconfig hlast
    have hsuppress : (machine.cpu.advance machine.cpu.divider.untilNext).2.tick.suppress = false :=
      (Cpu.eq_of_core (·.suppress) (fun _ => rfl) (Cpu.core_tick _)).trans h.1.released
    rw [iterate_of_tick hconfig h htick]
    exact ⟨rfl, Machine.takes_of_pending hsuppress hpending⟩

end Exec

end TmsCores.Tms9900
