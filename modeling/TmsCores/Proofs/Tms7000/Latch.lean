import TmsCores.Proofs.Arithmetic.Mask
import TmsCores.Proofs.Interrupt.Latch
import TmsCores.Proofs.Tms7000.Eligibility
import TmsCores.Proofs.Tms7000.History

namespace TmsCores.Tms7000

theorem PeripheralFile.clearsLatch_eq {line : UInt8} (hline : line ∈ inputLines) (value : UInt8) :
    clearsLatch value line = value.toNat.testBit (2 * line.toNat + 1) := by
  have hbit : ∀ line ∈ inputLines, (flagBit line).toNat = 2 ^ (2 * line.toNat + 1) := by
    decide +kernel
  rw [clearsLatch, Word.byte_and_bit_ne_zero (hbit line hline)]

namespace Cpu

def Latched (line : UInt8) (cpu : Cpu) : Prop :=
  cpu.interrupts.isLatched line = true

variable {line : UInt8} {cpu : Cpu} {config : Config}

theorem latched_registerStable (line : UInt8) : RegisterStable (Latched line) where
  setRegister h _ _ := h
  setPc h _ := h
  setSp h _ := h
  setFlags _ h := h
  clearSt h := h

theorem Latched.drive (h : cpu.Latched line) (other : UInt8) (state : LineState) :
    (cpu.drive other state).Latched line := by
  have hkept : (cpu.interrupts.drive other state).2.isLatched line = true :=
    InterruptController.isLatched_drive h other state
  unfold Cpu.drive
  dsimp only
  split
  · exact hkept
  · exact hkept

theorem Latched.clockTimer (h : cpu.Latched line) : cpu.clockTimer.Latched line := by
  unfold Cpu.clockTimer
  dsimp only
  split
  · exact InterruptController.isLatched_setLatch h int2
  · exact h

theorem latched_clockStable (line : UInt8) : ClockStable (Latched line) where
  clockTimer h := h.clockTimer
  advance h _ := h
  drive h := h.drive

/-- A store to IOCNT0 clears the latches of those lines only whose flag bit it writes as one. -/
theorem Latched.writeInterruptControl (h : cpu.Latched line) {value : UInt8}
    (hvalue : PeripheralFile.clearsLatch value line = false) :
    (cpu.writeInterruptControl value).Latched line := by
  have hcleared {interrupts : InterruptController} (hinterrupts : interrupts.isLatched line = true)
      (other : UInt8) : (clearLatch value interrupts other).isLatched line = true := by
    rw [clearLatch]
    split
    · next hother =>
        refine InterruptController.isLatched_setLatch_of_ne hinterrupts (fun heq => ?_) false
        rw [heq, hvalue] at hother
        exact absurd hother nofun
    · exact hinterrupts
  have henabled {interrupts : InterruptController} (hinterrupts : interrupts.isLatched line = true)
      (peripherals : PeripheralFile) : (syncEnables peripherals interrupts).isLatched line = true :=
    InterruptController.isLatched_setEnabled (InterruptController.isLatched_setEnabled
      (InterruptController.isLatched_setEnabled hinterrupts _ _) _ _) _ _
  exact henabled (hcleared (hcleared (hcleared h int1) int2) int3) _

theorem IsConsistent.mem_inputLines_of_latched (h : cpu.IsConsistent config)
    (hlatched : cpu.Latched line) : line ∈ inputLines := by
  rw [Latched, InterruptController.isLatched] at hlatched
  cases hinput : cpu.interrupts.line? line with
  | some input => exact (h.toLineConfig_eq hinput).1
  | none =>
      rw [hinput] at hlatched
      exact absurd hlatched Bool.false_ne_true

theorem IsConsistent.latched_drive (h : cpu.IsConsistent config) (hline : line ∈ inputLines)
    (hclear : cpu.interrupts.state line = .clear) {state : LineState}
    (hactive : state.isActive = true) : (cpu.drive line state).Latched line := by
  obtain ⟨input, hinput⟩ := h.exists_line? hline
  have hpolicy : input.policy = .edgeLatched :=
    congrArg LineConfig.policy (h.toLineConfig_eq hinput).2
  have hset : (cpu.interrupts.drive line state).2.isLatched line = true :=
    InterruptController.isLatched_drive_self hinput hpolicy hclear hactive
  unfold Cpu.drive
  dsimp only
  split
  · exact hset
  · exact hset

theorem IsConsistent.latched_clockTimer (h : cpu.IsConsistent config)
    (hexpires : cpu.peripherals.timer.clock.1 = true) : cpu.clockTimer.Latched int2 := by
  have hline : int2 ∈ inputLines := by decide
  obtain ⟨input, hinput⟩ := h.exists_line? hline
  unfold Cpu.clockTimer
  dsimp only
  rw [if_pos hexpires]
  exact InterruptController.isLatched_setLatch_self hinput

theorem state_clockTimer (cpu : Cpu) (line : UInt8) :
    cpu.clockTimer.interrupts.state line = cpu.interrupts.state line := by
  unfold Cpu.clockTimer
  dsimp only
  split
  · exact InterruptController.state_setLatch _ int2 line true
  · rfl

end Cpu

variable {β : Type} [Bus β] {config : Config} {machine : Machine β} {line : UInt8}

namespace Machine

theorem latched_checked (hline : line ∉ machine.acknowledged) (h : machine.cpu.Latched line) :
    machine.checked.cpu.Latched line := by
  have hstable := (Cpu.latched_registerStable line).machine (β := β)
  cases hpending : machine.cpu.pending with
  | none =>
      rw [checked_of_none hpending]
      exact h
  | some pending =>
      have hother : pending.line ≠ line := by
        rintro rfl
        exact hline (by simp [acknowledged, hpending])
      have henter : ((Exec.enterHandler pending.line (Exec.clearLeftovers machine).2).2).cpu.Latched
          line := Exec.enterHandler_keeps hstable (fun _ hstate => hstate) _ h
      have hacknowledge : (Exec.acknowledge pending.line
          (Exec.enterHandler pending.line (Exec.clearLeftovers machine).2).2).2.cpu.Latched line :=
        InterruptController.isLatched_acknowledge_of_ne henter hother
      have hleave : Keeps (Machine.Has (Cpu.Latched line) : Machine β → Prop)
          (Exec.setIdle false) := fun _ hstate => hstate
      rw [checked_of_some hpending]
      exact Exec.wake_keeps hleave _ hacknowledge

theorem latched_worked (hstores : ∀ value, machine.stores = some (.interruptControl, value) →
      PeripheralFile.clearsLatch value line = false)
    (h : machine.checked.cpu.Latched line) : machine.worked.cpu.Latched line := by
  have hstable := (Cpu.latched_registerStable line).machine (β := β)
  refine hstable.worked (fun _ _ hstate => hstate) (fun _ _ _ _ _ hstate => hstate) ?_ h
  rintro ⟨location, value⟩ hoperands state hstate
  -- The latches have a single address.
  cases location with
  | interruptControl => exact hstate.writeInterruptControl (hstores value hoperands)
  | register | timerData | timerControl | port | memory => exact hstate

theorem latched_account (cycles : Nat) (h : machine.cpu.Latched line) :
    (Exec.account cycles machine).2.cpu.Latched line :=
  corresponds_self_iff.mp ((Cpu.latched_clockStable line).simulation.account cycles) machine h

theorem latched_ticking {limit first last : Nat} (hle : first ≤ last)
    (h : (machine.ticking limit first).cpu.Latched line) :
    (machine.ticking limit last).cpu.Latched line := by
  induction hle with
  | refl => exact h
  | step _ ih =>
      have hsimulation := (Cpu.latched_clockStable line).simulation (β := β)
      rw [ticking_succ]
      exact corresponds_self_iff.mp (hsimulation.ticks 1) _ ih

theorem latched_iterate_of_tick {limit count : Nat} (hcount : count < machine.tickTotal limit)
    (h : (Exec.tick (machine.ticking limit count)).2.cpu.Latched line) :
    (Exec.iterate limit machine).2.cpu.Latched line := by
  rw [← ticking_succ] at h
  rw [iterate_snd_eq_ticking]
  exact latched_ticking hcount h

theorem isConsistent_ticking (h : machine.cpu.IsConsistent config) (limit count : Nat) :
    (machine.ticking limit count).cpu.IsConsistent config :=
  (Cpu.isConsistent_stable config).ticking h limit count

/-- When timer 1 runs out, the request is there at the end of the iteration. -/
theorem latched_iterate_of_expired (hconsistent : machine.cpu.IsConsistent config)
    {limit count : Nat} (hcount : count < machine.tickTotal limit)
    (hexpires : (machine.ticking limit count).cpu.peripherals.timer.clock.1 = true) :
    (Exec.iterate limit machine).2.cpu.Latched int2 := by
  have hset := (isConsistent_ticking hconsistent limit count).latched_clockTimer hexpires
  refine latched_iterate_of_tick hcount ?_
  exact (Cpu.latched_clockStable int2).toTickStable.tickBus_keeps
    { machine.ticking limit count with cpu := (machine.ticking limit count).cpu.clockTimer } hset

theorem latched_iterate_of_driven (hconsistent : machine.cpu.IsConsistent config)
    (hline : line ∈ inputLines) {limit count : Nat} (hcount : count < machine.tickTotal limit)
    {state : LineState}
    (hdriven : (Bus.tick (machine.ticking limit count).bus).1 = some (line, state))
    (hclear : (machine.ticking limit count).cpu.interrupts.state line = .clear)
    (hactive : state.isActive = true) : (Exec.iterate limit machine).2.cpu.Latched line := by
  have hclocked := (isConsistent_ticking hconsistent limit count).clockTimer
  have hstate : (machine.ticking limit count).cpu.clockTimer.interrupts.state line = .clear := by
    rw [Cpu.state_clockTimer, hclear]
  have hset := hclocked.latched_drive hline hstate hactive
  let clocked : Machine β :=
    { machine.ticking limit count with cpu := (machine.ticking limit count).cpu.clockTimer }
  have htick : Bus.tick clocked.bus = (some (line, state), (Bus.tick clocked.bus).2) :=
    Prod.ext hdriven rfl
  refine latched_iterate_of_tick hcount ?_
  change (Exec.tickBus clocked).2.cpu.Latched line
  rw [Exec.tickBus_of_driven htick]
  exact hset

end Machine

end TmsCores.Tms7000
