import TmsCores.Bus.Flat
import TmsCores.Proofs.Tms7000.IdleTimer
import TmsCores.Proofs.Tms9900.IdleDecrementer

namespace TmsCores

/-- An idle processor with nothing but its own timer to wake it rests for just the cycles that the
timer needs to run out, and then takes its interrupt.  It does so step by step and in runs with any
budgets. -/
theorem timer_wakes_on_time :
    (∀ {β : Type} [Bus β] {config : Tms7000.Config} {machine : Tms7000.Machine (RecordedBus β)},
      machine.Reachable config → machine.cpu.idle = true →
        (∀ line ∈ machine.cpu.interrupts.lines, line.isActive = false ∧ line.latched = false) →
        Bus.Silent machine.bus →
        Tms7000.Status.has machine.cpu.st Tms7000.Status.interruptEnable = true →
        machine.cpu.peripherals.isEnabled Tms7000.int2 = true →
        machine.cpu.peripherals.timer.isRunning = true →
          let timer := machine.cpu.peripherals.timer
          RunLoop.ComesDue Tms7000.Exec.iterate (·.cpu.Resting) (·.Takes Tms7000.int2)
            (machine.cpu.divider.untilNext +
              (timer.prescaler.toNat + timer.decrementer.toNat * (timer.prescale + 1)) *
                machine.cpu.divider.divisor.toNat)
            machine) ∧
    (∀ {β : Type} [Bus β] {config : Tms9900.Config} {machine : Tms9900.Machine (RecordedBus β)},
      config.HasDecrementer → machine.Reachable config → machine.cpu.idle = true →
        (∀ line ∈ machine.cpu.interrupts.lines, line.isActive = false ∧ line.latched = false) →
        Bus.Silent machine.bus → Tms9900.decrementerLine ≤ machine.cpu.mask →
        machine.cpu.chip.countsTime = true → machine.cpu.chip.decrementer.start ≠ 0 →
          RunLoop.ComesDue Tms9900.Exec.iterate (·.cpu.Resting)
            (·.Takes Tms9900.decrementerLine)
            (machine.cpu.divider.untilNext +
              (machine.cpu.chip.decrementer.count.toNat - 1) *
                machine.cpu.divider.divisor.toNat)
            machine) := by
  constructor
  · intro β _ config machine hreachable hidle hquiet hsilent haccepts henabled hrunning timer
    have hawaits : machine.AwaitsTimer config :=
      ⟨{ consistent := hreachable.isConsistent
         idle := hidle
         accepts := haccepts
         enabled := henabled
         quiet := machine.cpu.interrupts.not_requested_of_lines hquiet
         running := hrunning }, hsilent⟩
    have hdue := Tms7000.Exec.iterate_countdown.comesDue hawaits
    rw [← hreachable.isConsistent.divisor_eq] at hdue
    have hclocks : timer.remaining - 1 =
        timer.prescaler.toNat + timer.decrementer.toNat * (timer.prescale + 1) := by
      rw [Tms7000.Timer.remaining, Nat.add_right_comm, Nat.add_sub_cancel]
    rw [hclocks] at hdue
    exact hdue.imp fun _ h => h.1.resting
  · intro β _ config machine hconfig hreachable hidle hquiet hsilent hadmitted hcounting hstarted
    have hawaits : machine.AwaitsDecrementer config :=
      ⟨{ consistent := hreachable.isConsistent
         idle := hidle
         released := Bool.eq_false_iff.mpr fun hsuppress => hreachable.wakeable ⟨hidle, hsuppress⟩
         admitted := hadmitted
         quiet := machine.cpu.interrupts.not_requested_of_lines hquiet
         counting := hcounting
         started := hstarted }, hsilent⟩
    have hdue := (Tms9900.Exec.iterate_countdown hconfig).comesDue hawaits
    rw [← hreachable.isConsistent.divisor_eq] at hdue
    exact hdue.imp fun _ h => h.1.resting hconfig

/-- A TMS7000 with a program that starts the timer and goes to sleep. -/
def Tms7000.Machine.beforeSleep : Tms7000.Machine (RecordedBus FlatBus) :=
  let program : List UInt8 :=
    [0xA2, 0x04, 0x00, 0xA2, 0x02, 0x02, 0xA2, 0x83, 0x03, 0x05, 0x01]
  let memory := program.zipIdx.foldl
    (fun memory (byte, offset) => memory.poke (0x1000 + UInt16.ofNat offset) byte)
    (Memory.zero.poke 0xFFFE 0x10)
  ⟨.ofConfig Tms7000.Variant.tms7000.config, { memory := memory }, []⟩

-- Irreducible, so that unification does not run the program.
@[irreducible]
def Tms7000.Machine.asleep : Tms7000.Machine (RecordedBus FlatBus) :=
  (RunLoop.steps Tms7000.Exec.step 5 (Tms7000.Exec.reset .beforeSleep).2).2

theorem Tms7000.Machine.reachable_asleep :
    Tms7000.Machine.asleep.Reachable Tms7000.Variant.tms7000.config := by
  have hnew : Tms7000.Machine.beforeSleep.Reachable Tms7000.Variant.tms7000.config := .create
  have hstep (machine : Tms7000.Machine (RecordedBus FlatBus))
      (h : machine.Reachable Tms7000.Variant.tms7000.config) :
      (Tms7000.Exec.step machine).2.Reachable Tms7000.Variant.tms7000.config := h.step
  unfold Tms7000.Machine.asleep
  exact RunLoop.steps_keeps hstep hnew.reset 5

/-- A TMS9995 with a program that starts the decrementer and goes to sleep. -/
def Tms9900.Machine.beforeSleep : Tms9900.Machine (RecordedBus FlatBus) :=
  let program : List (UInt16 × UInt16) :=
    [(0x0000, 0xFFFA), (0x0002, 0x0100), (0x0012, 0x1EE0), (0x0100, 0x0200), (0x0102, 0x0009),
      (0x0104, 0x1D01), (0x0106, 0x0300), (0x0108, 0x0003), (0x010A, 0x0340)]
  let memory := program.foldl (fun memory (address, word) => memory.pokeWord address word) .zero
  ⟨.ofConfig Tms9900.Variant.tms9995.config, { memory := memory }, []⟩

-- Irreducible for the same reason.
@[irreducible]
def Tms9900.Machine.asleep : Tms9900.Machine (RecordedBus FlatBus) :=
  (RunLoop.steps Tms9900.Exec.step 4 (Tms9900.Exec.reset .beforeSleep).2).2

theorem Tms9900.Machine.reachable_asleep :
    Tms9900.Machine.asleep.Reachable Tms9900.Variant.tms9995.config := by
  have hnew : Tms9900.Machine.beforeSleep.Reachable Tms9900.Variant.tms9995.config := .create
  have hstep (machine : Tms9900.Machine (RecordedBus FlatBus))
      (h : machine.Reachable Tms9900.Variant.tms9995.config) :
      (Tms9900.Exec.step machine).2.Reachable Tms9900.Variant.tms9995.config := h.step
  unfold Tms9900.Machine.asleep
  exact RunLoop.steps_keeps hstep hnew.reset 4

/-- A TMS7000 sleeps for eleven clocks of its timer, and a TMS9995 for four of its decrementer. -/
theorem timer_wakes_on_time_from_sleep :
    (∃ count,
      let slept := RunLoop.steps (Tms7000.Exec.iterate RunLoop.cycleCap) count
        Tms7000.Machine.asleep
      (slept.1 = 4 + 10 * 16 ∧ slept.2.Takes Tms7000.int2)) ∧
    (∃ count,
      let slept := RunLoop.steps (Tms9900.Exec.iterate RunLoop.cycleCap) count
        Tms9900.Machine.asleep
      (slept.1 = 1 + 3 * 4 ∧ slept.2.Takes Tms9900.decrementerLine)) := by
  constructor
  · have hidle : Tms7000.Machine.asleep.cpu.idle = true := by decide +kernel
    have hdue := timer_wakes_on_time.1 Tms7000.Machine.reachable_asleep hidle (by decide +kernel)
      (.of_forall (fun _ => rfl) _) (by decide +kernel) (by decide +kernel) (by decide +kernel)
    obtain ⟨count, hsum, -, htakes⟩ := hdue.by_steps
    exact ⟨count, hsum.trans (by decide +kernel), htakes⟩
  · have hconfig : Tms9900.Variant.tms9995.config.HasDecrementer := ⟨rfl, rfl, by decide⟩
    have hidle : Tms9900.Machine.asleep.cpu.idle = true := by decide +kernel
    have hdue := timer_wakes_on_time.2 hconfig Tms9900.Machine.reachable_asleep hidle
      (by decide +kernel) (.of_forall (fun _ => rfl) _) (by decide +kernel) (by decide +kernel)
      (by decide +kernel)
    obtain ⟨count, hsum, -, htakes⟩ := hdue.by_steps
    exact ⟨count, hsum.trans (by decide +kernel), htakes⟩

end TmsCores
