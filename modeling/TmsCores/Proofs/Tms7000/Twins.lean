import TmsCores.Proofs.Bus.Behaviour
import TmsCores.Proofs.Tms7000.Reachability

namespace TmsCores.Tms7000.Machine

variable {β γ : Type} [Bus β] [Bus γ] {S : β → γ → Prop} {m : Machine β} {n : Machine γ}

/-- Two machines in the same state, on buses that are related. -/
structure Twins (S : β → γ → Prop) (m : Machine β) (n : Machine γ) : Prop where
  cpu_eq : m.cpu = n.cpu
  wait_eq : m.wait = n.wait
  bus : S m.bus n.bus

namespace Twins

omit [Bus β] [Bus γ] in
theorem modifyCpu (change : Cpu → Cpu) :
    Corresponds (Twins S) (Exec.modifyCpu change) (Exec.modifyCpu change) :=
  fun _ _ h => ⟨rfl, congrArg change h.cpu_eq, h.wait_eq, h.bus⟩

omit [Bus β] [Bus γ] in
theorem require {α : Type} (found : Option α) (otherwise : α) :
    Corresponds (Twins S) (Exec.require found otherwise) (Exec.require found otherwise) :=
  fun _ _ h => ⟨rfl, h.cpu_eq, h.wait_eq, h.bus⟩

omit [Bus β] [Bus γ] in
theorem inspect {α : Type} {f : Cpu → Exec β α} {g : Cpu → Exec γ α}
    (hfg : ∀ cpu, Corresponds (Twins S) (f cpu) (g cpu)) :
    Corresponds (Twins S) (Exec.cpu >>= f) (Exec.cpu >>= g) :=
  Exec.corresponds_cpu (·.cpu_eq) fun _ n _ => hfg n.cpu

omit [Bus β] [Bus γ] in
theorem writeFile (number : Nat) (value : UInt8) :
    Corresponds (Twins S) (Exec.writeFile number value) (Exec.writeFile number value) :=
  fun _ _ h => ⟨rfl, congrArg (·.setRegister number value) h.cpu_eq, h.wait_eq, h.bus⟩

omit [Bus β] [Bus γ] in
theorem busRead {access : β → Reading UInt8 × β} {access' : γ → Reading UInt8 × γ}
    (haccess : ∀ {b c}, S b c → (access b).1 = (access' c).1 ∧ S (access b).2 (access' c).2) :
    Corresponds (Twins S) (Exec.busRead access) (Exec.busRead access') := by
  intro m n h
  obtain ⟨hreading, hbus⟩ := haccess h.bus
  refine ⟨congrArg Reading.data hreading, h.cpu_eq, ?_, hbus⟩
  change m.wait + (access m.bus).1.wait.toNat = n.wait + (access' n.bus).1.wait.toNat
  rw [h.wait_eq, hreading]

omit [Bus β] [Bus γ] in
theorem busWrite {access : β → UInt8 × β} {access' : γ → UInt8 × γ}
    (haccess : ∀ {b c}, S b c → (access b).1 = (access' c).1 ∧ S (access b).2 (access' c).2) :
    Corresponds (Twins S) (Exec.busWrite access) (Exec.busWrite access') := by
  intro m n h
  obtain ⟨hwait, hbus⟩ := haccess h.bus
  refine ⟨rfl, h.cpu_eq, ?_, hbus⟩
  change m.wait + (access m.bus).1.toNat = n.wait + (access' n.bus).1.toNat
  rw [h.wait_eq, hwait]

variable (hS : Bus.SameBehaviour S)

include hS

theorem readAt (location : Location) :
    Corresponds (Twins S) (Exec.readAt location) (Exec.readAt location) := by
  cases location with
  | register number => exact inspect fun _ => require _ 0
  | interruptControl => exact inspect fun _ => .pure _
  | timerData => exact inspect fun _ => .pure _
  | timerControl => exact inspect fun _ => .pure _
  | port number => exact busRead fun hbus => hS.ioRead hbus number.toUInt32
  | memory address => exact busRead fun hbus => hS.read hbus address.toUInt32

theorem writeAt (location : Location) (value : UInt8) :
    Corresponds (Twins S) (Exec.writeAt location value) (Exec.writeAt location value) := by
  cases location with
  | register number => exact writeFile number value
  | interruptControl => exact modifyCpu (·.writeInterruptControl value)
  | timerData => exact modifyCpu _
  | timerControl => exact modifyCpu _
  | port number => exact busWrite fun hbus => hS.ioWrite hbus number.toUInt32 value
  | memory address => exact busWrite fun hbus => hS.write hbus address.toUInt32 value

theorem tickBus : Corresponds (Twins S) Exec.tickBus Exec.tickBus := by
  intro m n h
  obtain ⟨hdriven, hbus⟩ := hS.tick h.bus
  rcases htick : Bus.tick m.bus with ⟨driven, bus⟩
  rcases htick' : Bus.tick n.bus with ⟨driven', bus'⟩
  rw [htick, htick'] at hdriven hbus
  obtain rfl : driven = driven' := hdriven
  rcases driven with _ | ⟨line, state⟩
  · rw [Exec.tickBus_of_quiet htick, Exec.tickBus_of_quiet htick']
    exact ⟨rfl, h.cpu_eq, h.wait_eq, hbus⟩
  · rw [Exec.tickBus_of_driven htick, Exec.tickBus_of_driven htick']
    exact ⟨rfl, congrArg (·.drive line state) h.cpu_eq, h.wait_eq, hbus⟩

theorem hostSimulation : HostSimulation (Twins S) where
  sameCpu h := h.cpu_eq
  sameWait h := h.wait_eq
  read _ := inspect fun _ => readAt hS _
  readPeripheral _ := readAt hS _
  setPc _ := modifyCpu _
  setSp _ := modifyCpu _
  readAccumulator _ := inspect fun _ => require _ 0
  writeAccumulator _ value := writeFile _ value
  write _ value := inspect fun _ => writeAt hS _ value
  writePeripheral _ value := writeAt hS _ value
  modifySt _ := modifyCpu _
  interruptVector _ _ := require _ 0
  clearLeftovers _ _ h := ⟨rfl, h.cpu_eq, rfl, h.bus⟩
  setIdle idle _ _ h := by
    refine ⟨rfl, ?_, h.wait_eq, hS.idleChanged h.bus idle⟩
    exact congrArg (fun cpu : Cpu => { cpu with idle := idle }) h.cpu_eq
  acknowledge line _ _ h := by
    refine ⟨rfl, ?_, h.wait_eq, hS.acknowledge h.bus line⟩
    exact congrArg
      (fun cpu : Cpu => { cpu with interrupts := cpu.interrupts.acknowledge line }) h.cpu_eq
  clockTimer := modifyCpu _
  tickBus := tickBus hS
  charge cycles _ _ h :=
    ⟨congrArg (fun cpu : Cpu => (cpu.advance cycles).1) h.cpu_eq,
      congrArg (fun cpu : Cpu => (cpu.advance cycles).2) h.cpu_eq, h.wait_eq, h.bus⟩
  drive _ _ := modifyCpu _
  powerUp := modifyCpu _
  write? register value m n h := by
    unfold write?
    rw [h.cpu_eq]
    split
    · exact ⟨rfl, rfl, h.wait_eq, h.bus⟩
    · exact ⟨rfl, h⟩

theorem perform (operation : Operation Register) (h : Twins S m n) :
    SameOutcome (Twins S) (m.perform operation) (n.perform operation) := by
  cases operation with
  | save => exact .some ⟨congrArg (fun cpu : Cpu => Answer.saved cpu.save) h.cpu_eq, h⟩
  | restore bytes =>
      cases hrestore : n.cpu.restore bytes with
      | ok saved =>
          have hrestore' : m.cpu.restore bytes = .ok saved := by
            rw [h.cpu_eq, hrestore]
          rw [perform_restore_ok hrestore, perform_restore_ok hrestore']
          exact .some ⟨rfl, rfl, h.wait_eq, h.bus⟩
      | error error =>
          have hrestore' : m.cpu.restore bytes = .error error := by
            rw [h.cpu_eq, hrestore]
          rw [perform_restore_error hrestore, perform_restore_error hrestore']
          exact .some ⟨rfl, h⟩
  | reset | step | run | drive | setPc | read | write | query =>
      exact (hostSimulation hS).perform (by nofun) (by nofun) h

theorem act {move : HostMove Register β} {move' : HostMove Register γ}
    (hmove : HostMove.Same S move move') (h : Twins S m n) :
    SameOutcome (Twins S) (m.act move) (n.act move') := by
  cases hmove with
  | call operation => exact perform hS operation h
  | touch hchange => exact .some ⟨rfl, h.cpu_eq, h.wait_eq, hchange _ _ h.bus⟩

end Twins

/-- Whatever hosts do with two machines, they get the same answers, the same calls are made to both
buses, and the machines end in the same state. -/
def Indistinguishable (S : β → γ → Prop) (m : Machine (RecordedBus β))
    (n : Machine (RecordedBus γ)) : Prop :=
  ∀ moves moves',
    List.Forall₂ (HostMove.Same (RecordedBus.CalledSame S (m.bus, n.bus))) moves moves' →
      SameOutcome
        (fun m' n' => m'.cpu = n'.cpu ∧ RecordedBus.CalledSame S (m.bus, n.bus) m'.bus n'.bus)
        (session act moves m) (session act moves' n)

theorem Twins.indistinguishable (hS : Bus.SameBehaviour S)
    {before : RecordedBus β × RecordedBus γ} {m : Machine (RecordedBus β)}
    {n : Machine (RecordedBus γ)} (h : Twins (RecordedBus.CalledSame S before) m n) :
    Indistinguishable S m n := by
  intro moves moves' hmoves
  have hsame := RecordedBus.calledSame_sameBehaviour hS (m.bus, n.bus)
  have hstart : Twins (RecordedBus.CalledSame S (m.bus, n.bus)) m n :=
    ⟨h.cpu_eq, h.wait_eq, RecordedBus.calledSame_refl h.bus.inner⟩
  have hact (move move') (hmove : HostMove.Same (RecordedBus.CalledSame S (m.bus, n.bus))
      move move') (s t) (h : Twins (RecordedBus.CalledSame S (m.bus, n.bus)) s t) :=
    act hsame hmove h
  exact (SameOutcome.sessions hact hmoves hstart).mono fun _ _ h => ⟨h.cpu_eq, h.bus⟩

end TmsCores.Tms7000.Machine
