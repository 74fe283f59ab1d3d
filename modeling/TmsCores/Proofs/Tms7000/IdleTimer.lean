import TmsCores.Proofs.Countdown
import TmsCores.Proofs.Tms7000.InterruptDiscipline
import TmsCores.Proofs.Tms7000.TimeSlicing
import TmsCores.Proofs.Tms7000.TimerPeriod

namespace TmsCores.Tms7000

variable {β : Type} [Bus β] {config : Config}

namespace Cpu

/-- Idle until timer 1 runs out, with nothing else that could end it. -/
structure AwaitsTimer (config : Config) (cpu : Cpu) : Prop where
  consistent : cpu.IsConsistent config
  idle : cpu.idle = true
  accepts : Status.has cpu.st Status.interruptEnable = true
  enabled : cpu.peripherals.isEnabled int2 = true
  quiet : ∀ line,
    ¬(cpu.interrupts.isLatched line = true ∨ cpu.interrupts.state line = .asserted)
  running : cpu.peripherals.timer.isRunning = true

variable {cpu : Cpu}

theorem clockTimer_of_quiet (h : cpu.peripherals.timer.clock.1 = false) :
    cpu.clockTimer = { cpu with peripherals.timer := cpu.peripherals.timer.clock.2 } := by
  unfold Cpu.clockTimer
  dsimp only
  rw [h]
  rfl

theorem clockTimer_of_expired (h : cpu.peripherals.timer.clock.1 = true) :
    cpu.clockTimer =
      { cpu with
        peripherals.timer := cpu.peripherals.timer.clock.2
        interrupts := cpu.interrupts.setLatch int2 true } := by
  unfold Cpu.clockTimer
  dsimp only
  rw [h]
  rfl

namespace AwaitsTimer

variable (h : cpu.AwaitsTimer config)

include h

theorem resting : cpu.Resting := by
  refine ⟨h.idle, ?_⟩
  cases hpending : cpu.pending with
  | none => rfl
  | some pending =>
      obtain ⟨⟨⟨-, -, hrequest⟩, -⟩, -⟩ := h.consistent.pending_eq_some_iff.mp hpending
      exact absurd hrequest (h.quiet _)

theorem advance (cycles : Nat) : (cpu.advance cycles).2.AwaitsTimer config :=
  { h with consistent := (isConsistent_stable config).advance h.consistent cycles }

theorem clockTimer (hmore : 1 < cpu.peripherals.timer.remaining) :
    cpu.clockTimer.AwaitsTimer config ∧
      cpu.clockTimer.peripherals.timer.remaining = cpu.peripherals.timer.remaining - 1 := by
  obtain ⟨hexpired, hrunning, -, hremaining⟩ := Timer.clock_of_running h.running
  have hnot : ¬cpu.peripherals.timer.remaining = 1 := Nat.ne_of_gt hmore
  rw [decide_eq_false hnot] at hexpired
  rw [if_neg hnot] at hremaining
  have hconsistent := h.consistent.clockTimer
  rw [clockTimer_of_quiet hexpired] at hconsistent ⊢
  exact ⟨{ h with consistent := hconsistent, running := hrunning }, hremaining⟩

theorem pending_clockTimer (hlast : cpu.peripherals.timer.remaining ≤ 1) :
    cpu.clockTimer.pending = some (request int2) := by
  have hlatch : int2.toNat < cpu.interrupts.size := by
    rw [h.consistent.size_interrupts]
    decide
  obtain ⟨hexpired, -⟩ := Timer.clock_of_running h.running
  rw [decide_eq_true (Nat.le_antisymm hlast cpu.peripherals.timer.remaining_pos)] at hexpired
  have hconsistent := h.consistent.clockTimer
  rw [clockTimer_of_expired hexpired] at hconsistent ⊢
  refine hconsistent.pending_eq_some_iff.mpr ⟨⟨⟨h.accepts, h.enabled, .inl ?_⟩, ?_⟩, rfl⟩
  · change (cpu.interrupts.setLatch int2 true).isLatched int2 = true
    rw [InterruptController.isLatched_setLatch_of_lt hlatch, if_pos rfl]
  · rintro other ⟨-, -, hrequest⟩
    change (cpu.interrupts.setLatch int2 true).isLatched other = true ∨
      (cpu.interrupts.setLatch int2 true).state other = .asserted at hrequest
    rw [InterruptController.isLatched_setLatch_of_lt hlatch,
      InterruptController.state_setLatch] at hrequest
    by_cases hother : int2 = other
    · exact UInt8.le_of_eq hother
    · rw [if_neg hother] at hrequest
      exact absurd hrequest (h.quiet other)

end AwaitsTimer

end Cpu

namespace Machine

/-- An iteration takes the interrupt of a line, whatever its limit, and ends the idle state. -/
def Takes (line : UInt8) (machine : Machine (RecordedBus β)) : Prop :=
  (∀ limit, machine.Acknowledges limit [line]) ∧ machine.checked.cpu.idle = false

theorem takes_of_pending {machine : Machine (RecordedBus β)} {line : UInt8}
    (h : machine.cpu.pending = some (Cpu.request line)) : machine.Takes line := by
  refine ⟨fun limit => acknowledges_iff.mpr ?_, ?_⟩
  · exact acknowledged_eq_singleton_iff.mpr ⟨_, h, rfl⟩
  · exact Exec.serviceInterrupt_leads _ (Exec.clearLeftovers machine).2 h

/-- Idle until timer 1 runs out, on a bus that leaves it at that. -/
def AwaitsTimer (config : Config) (machine : Machine β) : Prop :=
  machine.cpu.AwaitsTimer config ∧ Bus.Silent machine.bus

end Machine

namespace Exec

theorem pass_untilNext {machine : Machine β} (h : machine.cpu.divider.InPhase)
    (hsilent : Bus.Silent machine.bus) :
    pass machine.cpu.divider.untilNext machine =
      { (clearLeftovers machine).2 with
        cpu := (machine.cpu.advance machine.cpu.divider.untilNext).2.clockTimer
        bus := (Bus.tick machine.bus).2 } := by
  let clocked : Machine β :=
    { (clearLeftovers machine).2 with
      cpu := (machine.cpu.advance machine.cpu.divider.untilNext).2.clockTimer }
  have hticks : (machine.cpu.advance machine.cpu.divider.untilNext).1 = 1 := by
    simp only [Cpu.advance, h.advance_untilNext]
  have hbus : Bus.tick clocked.bus = (none, (Bus.tick machine.bus).2) := hsilent.tick_eq
  rw [pass_eq h, hticks]
  exact congrArg Prod.snd (tickBus_of_quiet hbus)

/-- An idle processor with enough time left rests until the next clock of its timer. -/
theorem iterate_of_tick {machine : Machine β} (h : machine.AwaitsTimer config) {limit : Nat}
    (htick : machine.cpu.divider.untilNext ≤ limit) :
    iterate limit machine =
      (machine.cpu.divider.untilNext,
        { (clearLeftovers machine).2 with
          cpu := (machine.cpu.advance machine.cpu.divider.untilNext).2.clockTimer
          bus := (Bus.tick machine.bus).2 }) := by
  have hpos := h.1.consistent.inPhase.untilNext_pos
  have hcycles : max 1 (min machine.cpu.divider.untilNext limit) =
      machine.cpu.divider.untilNext := by
    omega
  rw [iterate_of_resting h.1.resting, hcycles, pass_untilNext h.1.consistent.inPhase h.2]

/-- An idle processor counts down to the interrupt of its timer. -/
theorem iterate_countdown :
    RunLoop.Countdown (iterate (β := RecordedBus β)) (Machine.AwaitsTimer config)
      (Machine.Takes int2) (TickDivider.ofDivisor config.tickDivider).divisor.toNat
      (·.cpu.divider.untilNext) (·.cpu.peripherals.timer.remaining) where
  untilNext_pos machine h := h.1.consistent.inPhase.untilNext_pos
  between limit machine h hlimit hbetween := by
    have hphase := h.1.consistent.inPhase
    have hcycles : max 1 (min machine.cpu.divider.untilNext limit) = limit := by
      omega
    rw [iterate_of_resting h.1.resting, hcycles, pass_of_lt hphase hbetween]
    exact ⟨rfl, ⟨h.1.advance limit, h.2⟩, hphase.untilNext_advance hbetween, rfl⟩
  tick limit machine h htick hmore := by
    obtain ⟨hawaits, hremaining⟩ :=
      (h.1.advance machine.cpu.divider.untilNext).clockTimer hmore
    have hdivider : (machine.cpu.advance machine.cpu.divider.untilNext).2.clockTimer.divider =
        machine.cpu.divider.reset :=
      congrArg Prod.snd h.1.consistent.inPhase.advance_untilNext
    rw [iterate_of_tick h htick]
    refine ⟨rfl, ⟨hawaits, h.2.tick⟩, ?_, hremaining⟩
    rw [hdivider, TickDivider.untilNext_reset, h.1.consistent.divisor_eq]
  last limit machine h htick hlast := by
    have hpending := (h.1.advance machine.cpu.divider.untilNext).pending_clockTimer hlast
    rw [iterate_of_tick h htick]
    exact ⟨rfl, Machine.takes_of_pending hpending⟩

end Exec

end TmsCores.Tms7000
