import TmsCores.Proofs.Bus.Waits
import TmsCores.Proofs.Tms7000.TimeSlicing

namespace TmsCores.Tms7000.Machine

variable {β γ : Type} [Bus β] [Bus γ]

/-- Two machines in the same state, which have called their buses alike since `before` and have met
the wait states of those calls. -/
structure Alike (S : β → γ → Prop) (before : RecordedBus β × RecordedBus γ)
    (m : Machine (RecordedBus β)) (n : Machine (RecordedBus γ)) : Prop where
  cpu_eq : m.cpu = n.cpu
  calledAlike : RecordedBus.CalledAlike S 0 before m.bus n.bus m.wait n.wait

namespace Alike

variable {S : β → γ → Prop} {before : RecordedBus β × RecordedBus γ}

omit [Bus β] [Bus γ] in
theorem modifyCpu (change : Cpu → Cpu) :
    Corresponds (Alike S before) (Exec.modifyCpu change) (Exec.modifyCpu change) :=
  fun _ _ h => ⟨rfl, congrArg change h.cpu_eq, h.calledAlike⟩

omit [Bus β] [Bus γ] in
theorem require {α : Type} (found : Option α) (otherwise : α) :
    Corresponds (Alike S before) (Exec.require found otherwise) (Exec.require found otherwise) :=
  fun _ _ h => ⟨rfl, h.cpu_eq, h.calledAlike⟩

omit [Bus β] [Bus γ] in
theorem writeFile (number : Nat) (value : UInt8) :
    Corresponds (Alike S before) (Exec.writeFile number value) (Exec.writeFile number value) :=
  fun _ _ h => ⟨rfl, congrArg (·.setRegister number value) h.cpu_eq, h.calledAlike⟩

omit [Bus β] [Bus γ] in
theorem inspect {α : Type} {f : Cpu → Exec (RecordedBus β) α} {g : Cpu → Exec (RecordedBus γ) α}
    (hfg : ∀ cpu, Corresponds (Alike S before) (f cpu) (g cpu)) :
    Corresponds (Alike S before) (Exec.cpu >>= f) (Exec.cpu >>= g) :=
  Exec.corresponds_cpu (·.cpu_eq) fun _ n _ => hfg n.cpu

variable (hS : Bus.SameData S)

include hS

theorem readAt (location : Location) :
    Corresponds (Alike S before) (Exec.readAt location) (Exec.readAt location) := by
  cases location with
  | register number => exact inspect fun _ => require _ 0
  | interruptControl => exact inspect fun _ => .pure _
  | timerData => exact inspect fun _ => .pure _
  | timerControl => exact inspect fun _ => .pure _
  | port number =>
      intro m n h
      obtain ⟨hdata, hnext⟩ := h.calledAlike.ioRead hS number.toUInt32
      exact ⟨hdata, h.cpu_eq, hnext⟩
  | memory address =>
      intro m n h
      obtain ⟨hdata, hnext⟩ := h.calledAlike.read hS address.toUInt32
      exact ⟨hdata, h.cpu_eq, hnext⟩

theorem writeAt (location : Location) (value : UInt8) :
    Corresponds (Alike S before) (Exec.writeAt location value) (Exec.writeAt location value) := by
  cases location with
  | register number => exact writeFile number value
  | interruptControl => exact modifyCpu (·.writeInterruptControl value)
  | timerData => exact modifyCpu _
  | timerControl => exact modifyCpu _
  | port number =>
      exact fun _ _ h => ⟨rfl, h.cpu_eq, h.calledAlike.ioWrite hS number.toUInt32 value⟩
  | memory address =>
      exact fun _ _ h => ⟨rfl, h.cpu_eq, h.calledAlike.write hS address.toUInt32 value⟩

theorem setIdle (idle : Bool) :
    Corresponds (Alike S before) (Exec.setIdle idle) (Exec.setIdle idle) := by
  intro m n h
  refine ⟨rfl, ?_, h.calledAlike.idleChanged hS idle⟩
  exact congrArg (fun cpu : Cpu => { cpu with idle := idle }) h.cpu_eq

theorem simulation : Simulation (Alike S before) where
  sameCpu h := h.cpu_eq
  read _ := inspect fun _ => readAt hS _
  readPeripheral _ := readAt hS _
  setPc _ := modifyCpu _
  setSp _ := modifyCpu _
  readAccumulator _ := inspect fun _ => require _ 0
  writeAccumulator _ value := writeFile _ value
  write _ value := inspect fun _ => writeAt hS _ value
  writePeripheral _ value := writeAt hS _ value
  modifySt _ := modifyCpu _

theorem interruptSimulation : InterruptSimulation (Alike S before) where
  toRegisterSimulation := (simulation hS).toRegisterSimulation
  interruptVector _ _ := require _ 0
  leaveIdle := setIdle hS false
  acknowledge line := by
    intro m n h
    refine ⟨rfl, ?_, h.calledAlike.acknowledge hS line⟩
    exact congrArg
      (fun cpu : Cpu => { cpu with interrupts := cpu.interrupts.acknowledge line }) h.cpu_eq

end Alike

/-- What an iteration takes when no access waits. -/
def ownCycles (limit : Nat) (machine : Machine β) : Nat :=
  if machine.checked.cpu.idle then max 1 (min machine.checked.cpu.divider.untilNext limit)
  else (Exec.serviceInterrupt (Exec.clearLeftovers machine).2).1 +
    (Exec.execute machine.checked).1

theorem checked_of_idle {machine : Machine β} (h : machine.checked.cpu.idle = true) :
    machine.checked = (Exec.clearLeftovers machine).2 := by
  cases hpending : machine.cpu.pending with
  | none => exact checked_of_none hpending
  | some pending =>
      have hawake := Exec.serviceInterrupt_leads pending (Exec.clearLeftovers machine).2 hpending
      exact absurd (hawake.symm.trans h) nofun

theorem iterate_fst (limit : Nat) (machine : Machine β) :
    (Exec.iterate limit machine).1 = machine.ownCycles limit + machine.worked.wait := by
  change ((if machine.checked.cpu.idle then Exec.rest limit
      else Exec.work (Exec.serviceInterrupt (Exec.clearLeftovers machine).2).1 : Exec β Nat)
      machine.checked).1 = _
  rw [ownCycles, worked]
  split
  · next hidle =>
      rw [checked_of_idle hidle]
      rfl
  · rfl

section

variable {S : β → γ → Prop} {m : Machine (RecordedBus β)} {n : Machine (RecordedBus γ)}
  (hS : Bus.SameData S) (hcpu : m.cpu = n.cpu) (hinner : S m.bus.inner n.bus.inner)

include hS hcpu hinner

theorem alike_service :
    (Exec.serviceInterrupt (Exec.clearLeftovers m).2).1 =
        (Exec.serviceInterrupt (Exec.clearLeftovers n).2).1 ∧
      Alike S (m.bus, n.bus) m.checked n.checked :=
  (Alike.interruptSimulation hS).serviceInterrupt (Exec.clearLeftovers m).2
    (Exec.clearLeftovers n).2 ⟨hcpu, RecordedBus.calledAlike_refl hinner⟩

theorem alike_execute :
    (Exec.execute m.checked).1 = (Exec.execute n.checked).1 ∧
      Alike S (m.bus, n.bus) (Exec.execute m.checked).2 (Exec.execute n.checked).2 :=
  (Alike.simulation hS).execute (Alike.setIdle hS true) m.checked n.checked
    (alike_service hS hcpu hinner).2

theorem alike_worked : Alike S (m.bus, n.bus) m.worked n.worked := by
  have hchecked := (alike_service hS hcpu hinner).2
  rw [worked, worked, ← hchecked.cpu_eq]
  split
  · exact hchecked
  · exact (alike_execute hS hcpu hinner).2

theorem ownCycles_eq (limit : Nat) : m.ownCycles limit = n.ownCycles limit := by
  obtain ⟨hservice, hchecked⟩ := alike_service hS hcpu hinner
  rw [ownCycles, ownCycles, ← hchecked.cpu_eq, hservice, (alike_execute hS hcpu hinner).1]

/-- The bill for an iteration on either bus. -/
theorem iterate_fst_of_alike (limit : Nat) : ∃ calls calls',
    m.bus.Called m.worked.bus calls ∧ n.bus.Called n.worked.bus calls' ∧
      calls.map BusEvent.unwaited = calls'.map BusEvent.unwaited ∧
      (Exec.iterate limit m).1 = m.ownCycles limit + BusEvent.waits calls ∧
      (Exec.iterate limit n).1 = m.ownCycles limit + BusEvent.waits calls' := by
  obtain ⟨calls, calls', hcalled, hcalled', hsame, hwait, hwait'⟩ :=
    (alike_worked hS hcpu hinner).calledAlike.calls
  refine ⟨calls, calls', hcalled, hcalled', hsame, ?_, ?_⟩
  · rw [iterate_fst, hwait, Nat.zero_mul, Nat.add_zero]
  · rw [iterate_fst, hwait', Nat.zero_mul, Nat.add_zero, ownCycles_eq hS hcpu hinner]

end

end TmsCores.Tms7000.Machine
