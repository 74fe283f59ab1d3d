import TmsCores.Proofs.Tms7000.Store

namespace TmsCores.Tms7000

variable {β : Type} [Bus β]

namespace Exec

variable {machine : Machine β}

theorem serviceInterrupt_of_none (h : machine.cpu.pending = none) :
    serviceInterrupt machine = (0, machine) := by
  rw [serviceInterrupt, cpu_bind, h]
  rfl

/-- The way into an interrupt handler: the old context goes onto the stack, and the status register
is cleared. -/
def enterHandler (line : UInt8) : Exec β Unit := do
  push (← cpu).st
  pushPc
  modifySt fun _ => 0
  setPc (← readWord (← interruptVector line))

theorem serviceInterrupt_snd {pending : PendingLine} (h : machine.cpu.pending = some pending) :
    (serviceInterrupt machine).2 =
      (wake (acknowledge pending.line (enterHandler pending.line machine).2).2).2 := by
  have hservice : serviceInterrupt machine = (do
      enterHandler pending.line
      acknowledge pending.line
      wake
      return serviceCycles machine.cpu.idle : Exec β Nat) machine := by
    rw [serviceInterrupt, cpu_bind, h, enterHandler]
    simp only [bind_assoc]
    rw [cpu_bind]
  have hparts (enter : Exec β Unit) :
      ((do
        enter
        acknowledge pending.line
        wake
        return serviceCycles machine.cpu.idle : Exec β Nat) machine).2 =
      (wake (acknowledge pending.line (enter machine).2).2).2 := by
    rw [bind_snd, bind_snd, bind_snd, pure_snd]
  rw [hservice, hparts]

theorem enterHandler_keeps {I : Machine β → Prop} (h : Machine.RegisterStable I) {line : UInt8}
    (hvector : Keeps I (interruptVector line)) : Keeps I (enterHandler line) := by
  refine cpu_keeps.bind fun before => ?_
  refine (corresponds_self_iff.mp (h.simulation.push before.st)).seq ?_
  refine (corresponds_self_iff.mp h.simulation.pushPc).seq ?_
  refine (corresponds_self_iff.mp h.simulation.clearSt).seq ?_
  refine hvector.bind fun vector => ?_
  refine (corresponds_self_iff.mp (h.simulation.readWord vector)).bind fun pc => ?_
  exact corresponds_self_iff.mp (h.simulation.setPc pc)

theorem readWord_keeps (P : Cpu → Prop) (address : UInt16) :
    Keeps (Machine.Has P : Machine β → Prop) (readWord address) := by
  have hread (location : Location) :
      Keeps (Machine.Has P : Machine β → Prop) (readAt location) := by
    cases location with
    | interruptControl | timerData | timerControl => exact cpu_keeps.bind fun _ => .pure _
    | register | port | memory => exact fun _ hmachine => hmachine
  refine Keeps.bind (cpu_keeps.bind fun _ => hread _) fun hi => ?_
  exact Keeps.bind (cpu_keeps.bind fun _ => hread _) fun lo => .pure _

theorem enterHandler_leads (line : UInt8) :
    Leads (fun _ => True) (Machine.Has (·.st = 0)) (enterHandler (β := β) line) := by
  refine Leads.after _ fun before => ?_
  refine Leads.after _ fun _ => ?_
  refine Leads.after _ fun _ => ?_
  have hclear : Leads (fun _ => True) (Machine.Has (·.st = 0))
      (modifySt (β := β) fun _ => 0) := fun _ _ => rfl
  have hvector : Keeps (Machine.Has (·.st = 0) : Machine β → Prop) (interruptVector line) :=
    fun _ hstate => hstate
  refine hclear.bind fun _ => ?_
  refine hvector.bind fun vector => ?_
  exact (readWord_keeps (·.st = 0) vector).bind fun pc => fun _ hstate => hstate

theorem ticks_succ (count : Nat) (machine : Machine β) :
    (ticks (count + 1) machine).2 = (tick (ticks count machine).2).2 := by
  induction count generalizing machine with
  | zero => rfl
  | succ count ih => exact ih (tick machine).2

theorem wake_keeps {I : Machine β → Prop} (h : Keeps I (setIdle false)) : Keeps I wake := by
  refine cpu_keeps.bind fun cpu => ?_
  split
  · exact h
  · exact .pure ()

end Exec

namespace Machine

/-- The machine after the interrupt check at the start of an iteration. -/
def checked (machine : Machine β) : Machine β :=
  (Exec.serviceInterrupt (Exec.clearLeftovers machine).2).2

theorem checked_of_none {machine : Machine β} (h : machine.cpu.pending = none) :
    machine.checked = (Exec.clearLeftovers machine).2 := by
  have hcleared : (Exec.clearLeftovers machine).2.cpu.pending = none := h
  rw [checked, Exec.serviceInterrupt_of_none hcleared]

theorem checked_of_some {machine : Machine β} {pending : PendingLine}
    (h : machine.cpu.pending = some pending) :
    machine.checked =
      (Exec.wake (Exec.acknowledge pending.line
        (Exec.enterHandler pending.line (Exec.clearLeftovers machine).2).2).2).2 := by
  have hcleared : (Exec.clearLeftovers machine).2.cpu.pending = some pending := h
  rw [checked, Exec.serviceInterrupt_snd hcleared]

/-- The opcode that an iteration fetches, and the machine after that. -/
def fetched (machine : Machine β) : UInt8 × Machine β :=
  Exec.fetch machine.checked

/-- The instruction that an iteration executes.  There is none when the processor rests or meets an
illegal opcode. -/
def executes (machine : Machine β) : Option Instruction :=
  if machine.checked.cpu.idle then none
  else (Instruction.ofOpcode? machine.fetched.1).map (·.operation)

/-- What the program stores in an iteration, and where, if it uses an instruction that can store to
the peripheral file. -/
def stores (machine : Machine β) : Option (Location × UInt8) :=
  machine.executes.bind fun instruction =>
    (Exec.storeOperands instruction).map fun find => (find machine.fetched.2).1

/-- The machine at the end of an iteration, before the cycles are accounted for. -/
def worked (machine : Machine β) : Machine β :=
  if machine.checked.cpu.idle then machine.checked else (Exec.execute machine.checked).2

variable {machine : Machine β}

theorem worked_of_idle (h : machine.checked.cpu.idle = true) :
    machine.worked = machine.checked := by
  rw [worked, if_pos h]

theorem worked_of_awake (h : machine.checked.cpu.idle = false) :
    machine.worked = (Exec.execute machine.checked).2 := by
  rw [worked, h]
  rfl

theorem awake_of_executes {instruction : Instruction} (h : instruction ∈ machine.executes) :
    machine.checked.cpu.idle = false := by
  cases hidle : machine.checked.cpu.idle with
  | false => rfl
  | true =>
      rw [executes, if_pos hidle] at h
      exact absurd h nofun

theorem worked_of_executes {instruction : Instruction}
    (h : machine.executes = some instruction) :
    machine.worked = (Exec.perform instruction machine.fetched.2).2 := by
  rw [executes, Option.ite_none_left_eq_some, Option.map_eq_some_iff] at h
  obtain ⟨hawake, entry, hentry, rfl⟩ := h
  rw [fetched] at hentry
  rw [worked, if_neg hawake, Exec.execute, bind_snd, hentry, bind_snd, pure_snd, fetched]

theorem worked_of_not_executes (h : machine.executes = none) :
    machine.worked = machine.checked ∨ machine.worked = (Exec.illegal machine.fetched.2).2 := by
  rw [worked]
  split
  · exact .inl rfl
  · next hawake =>
      rw [executes, if_neg hawake, Option.map_eq_none_iff, fetched] at h
      right
      rw [Exec.execute, bind_snd, h, fetched]

theorem iterate_snd (machine : Machine β) (limit : Nat) :
    (Exec.iterate limit machine).2 =
      (Exec.account (Exec.iterate limit machine).1 machine.worked).2 := by
  change ((if machine.checked.cpu.idle then Exec.rest limit
      else Exec.work (Exec.serviceInterrupt (Exec.clearLeftovers machine).2).1 : Exec β Nat)
      machine.checked).2 =
    (Exec.account ((if machine.checked.cpu.idle then Exec.rest limit
      else Exec.work (Exec.serviceInterrupt (Exec.clearLeftovers machine).2).1 : Exec β Nat)
      machine.checked).1 machine.worked).2
  rw [worked]
  split
  · rfl
  · rfl

def tickTotal (limit : Nat) (machine : Machine β) : Nat :=
  (machine.worked.cpu.divider.advance (Exec.iterate limit machine).1).1

/-- The machine after some of the ticks that end an iteration. -/
def ticking (limit : Nat) (machine : Machine β) (count : Nat) : Machine β :=
  (Exec.ticks count (Exec.charge (Exec.iterate limit machine).1 machine.worked).2).2

theorem ticking_succ (limit : Nat) (machine : Machine β) (count : Nat) :
    machine.ticking limit (count + 1) = (Exec.tick (machine.ticking limit count)).2 :=
  Exec.ticks_succ count _

theorem iterate_snd_eq_ticking (limit : Nat) (machine : Machine β) :
    (Exec.iterate limit machine).2 = machine.ticking limit (machine.tickTotal limit) :=
  machine.iterate_snd limit

end Machine

namespace Machine.RegisterStable

variable {I J : Machine β → Prop} {machine : Machine β} (h : RegisterStable I)

include h

theorem fetched (hchecked : I machine.checked) : I machine.fetched.2 :=
  corresponds_self_iff.mp h.simulation.fetch machine.checked hchecked

theorem worked_of_stores (hnext : RegisterStable J) {location : Location} {value : UInt8}
    (hstores : machine.stores = some (location, value))
    (hwrite : Leads I J (Exec.writeAt location value)) (hchecked : I machine.checked) :
    J machine.worked := by
  rw [stores, Option.bind_eq_some_iff] at hstores
  obtain ⟨instruction, hexecutes, hoperands⟩ := hstores
  rw [Option.map_eq_some_iff] at hoperands
  obtain ⟨find, hfind, hoperands⟩ := hoperands
  have hfound := h.storeOperands_keeps hfind machine.fetched.2 (h.fetched hchecked)
  have hwritten := hwrite _ hfound
  have hstore : Keeps J (Exec.modifySt (Status.logical · value)) :=
    corresponds_self_iff.mp (hnext.simulation.setLogical value)
  rw [worked_of_executes hexecutes, Exec.perform_of_storeOperands hfind]
  change J (Exec.store (find machine.fetched.2).1 (find machine.fetched.2).2).2
  rw [hoperands]
  exact hstore _ hwritten

/-- What an iteration executes keeps a stable property, if its store does and the instructions that
are apart. -/
theorem worked (hidle : machine.executes = some .idle → Keeps I (Exec.setIdle true))
    (hload : ∀ instruction ∈ machine.executes, instruction.LoadsStatus → ∀ st,
      Keeps I (Exec.modifySt fun _ => st &&& Status.mask))
    (hstore : ∀ operands ∈ machine.stores, Keeps I (Exec.writeAt operands.1 operands.2))
    (hchecked : I machine.checked) : I machine.worked := by
  -- A store is the last thing that its instruction does.  Without one, registers and flags are all
  -- that is written.
  cases hstores : machine.stores with
  | some operands => exact h.worked_of_stores h hstores (hstore operands hstores) hchecked
  | none =>
      cases hexecutes : machine.executes with
      | none =>
          rcases worked_of_not_executes hexecutes with hworked | hworked
          · rw [hworked]
            exact hchecked
          · rw [hworked]
            exact corresponds_self_iff.mp h.simulation.illegal _ (h.fetched hchecked)
      | some instruction =>
          have hquiet : Exec.storeOperands (β := β) instruction = none := by
            rw [stores, hexecutes, Option.bind_some, Option.map_eq_none_iff] at hstores
            exact hstores
          have hperform := h.simulation.perform
            (fun heq => corresponds_self_iff.mpr (hidle (heq ▸ hexecutes)))
            (fun hloads st => corresponds_self_iff.mpr (hload instruction hexecutes hloads st))
            (fun hstores => absurd hstores (Exec.not_stores_of_storeOperands hquiet))
          rw [worked_of_executes hexecutes]
          exact corresponds_self_iff.mp hperform _ (h.fetched hchecked)

theorem reset (hwake : Keeps I Exec.wake)
    (hmachine : I { machine with cpu := machine.cpu.powerUp, wait := 0 }) :
    I (Exec.reset machine).2 := by
  have hread := corresponds_self_iff.mp (h.simulation.readWord 0xFFFE)
  have hrest : Keeps I (do
      Exec.wake
      Exec.setPc (← Exec.readWord 0xFFFE)) := by
    refine hwake.seq (hread.bind fun pc => ?_)
    exact corresponds_self_iff.mp (h.simulation.setPc pc)
  exact hrest _ hmachine

end Machine.RegisterStable

theorem Cpu.ServiceStable.checked {P : Cpu → Prop} (h : ServiceStable P) {machine : Machine β}
    (hmachine : P machine.cpu) : P machine.checked.cpu :=
  corresponds_self_iff.mp h.simulation.serviceInterrupt (Exec.clearLeftovers machine).2 hmachine

/-- What nothing destroys holds all through an iteration. -/
theorem Cpu.Stable.ticking {P : Cpu → Prop} (h : Stable P) {machine : Machine β}
    (hmachine : P machine.cpu) (limit count : Nat) : P (machine.ticking limit count).cpu := by
  have hchecked : P machine.checked.cpu := h.toServiceStable.checked hmachine
  have hworked : P machine.worked.cpu := by
    refine h.toRegisterStable.machine.worked (fun _ _ hstate => h.setIdle hstate true)
      (fun _ _ _ st => Exec.modifyCpu_keeps fun hcpu => h.setSt hcpu (.mask st)) ?_ hchecked
    exact fun operands _ => h.toStoreStable.writeAt_keeps operands.1 operands.2
  exact h.toTickStable.ticks_keeps count
    (Exec.charge (Exec.iterate limit machine).1 machine.worked).2
    (h.advance hworked (Exec.iterate limit machine).1)

end TmsCores.Tms7000
