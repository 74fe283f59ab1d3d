import TmsCores.Proofs.Bus.Behaviour
import TmsCores.Proofs.Tms9900.Reachability

namespace TmsCores.Tms9900.Machine

variable {β γ : Type} [Bus β] [Bus γ] {S : β → γ → Prop} {m : Machine β} {n : Machine γ}

/-- Two machines in the same state, on buses that are related. -/
structure Twins (S : β → γ → Prop) (m : Machine β) (n : Machine γ) : Prop where
  cpu_eq : m.cpu = n.cpu
  wait_eq : m.wait = n.wait
  operandWord_eq : m.operandWord = n.operandWord
  bus : S m.bus n.bus

namespace Twins

omit [Bus β] [Bus γ] in
theorem modifyCpu (change : Cpu → Cpu) :
    Corresponds (Twins S) (Exec.modifyCpu change) (Exec.modifyCpu change) :=
  fun _ _ h => ⟨rfl, congrArg change h.cpu_eq, h.wait_eq, h.operandWord_eq, h.bus⟩

variable (hS : Bus.SameBehaviour S)

include hS

theorem accessSimulation : AccessSimulation (Twins S) where
  sameCpu h := h.cpu_eq
  sameOperandWord h := h.operandWord_eq
  busRead := by
    rintro ⟨⟨⟨cpu, _⟩, wait, operandWord⟩, bus⟩ ⟨⟨⟨_, _⟩, _, _⟩, bus'⟩ address
      ⟨rfl, rfl, rfl, h⟩ _
    obtain ⟨hreading, hbus⟩ := hS.read h (cpu.config.busAddress address)
    refine ⟨congrArg Reading.data hreading, rfl, ?_, rfl, hbus⟩
    exact congrArg (fun reading : Reading UInt8 =>
      wait + (reading.wait.toNat + cpu.config.byteAccessCycles.toNat)) hreading
  busWrite := by
    rintro ⟨⟨⟨cpu, _⟩, wait, operandWord⟩, bus⟩ ⟨⟨⟨_, _⟩, _, _⟩, bus'⟩ address
      ⟨rfl, rfl, rfl, h⟩ _ value
    obtain ⟨hwait, hbus⟩ := hS.write h (cpu.config.busAddress address) value
    refine ⟨rfl, ?_, rfl, hbus⟩
    exact congrArg (fun wait' : UInt8 =>
      wait + (wait'.toNat + cpu.config.byteAccessCycles.toNat)) hwait
  cruRead := by
    rintro ⟨⟨⟨cpu, _⟩, wait, operandWord⟩, bus⟩ ⟨⟨⟨_, _⟩, _, _⟩, bus'⟩ bit
      ⟨rfl, rfl, rfl, h⟩ hbit
    obtain ⟨hreading, hbus⟩ := hS.ioRead h (bit &&& 0x0FFF).toUInt32
    rw [Exec.cruRead, Exec.cruRead, get_bind, get_bind, hbit]
    refine ⟨congrArg (fun reading : Reading UInt8 => reading.data &&& 1 != 0) hreading, rfl, ?_,
      rfl, hbus⟩
    exact congrArg (fun reading : Reading UInt8 => wait + reading.wait.toNat) hreading
  cruWrite := by
    rintro ⟨⟨⟨cpu, _⟩, wait, operandWord⟩, bus⟩ ⟨⟨⟨_, _⟩, _, _⟩, bus'⟩ bit value
      ⟨rfl, rfl, rfl, h⟩ hbit
    obtain ⟨hwait, hbus⟩ := hS.ioWrite h (bit &&& 0x0FFF).toUInt32 value.toUInt8
    rw [Exec.cruWrite, Exec.cruWrite, get_bind, get_bind, hbit]
    exact ⟨rfl, congrArg (fun wait' : UInt8 => wait + wait'.toNat) hwait, rfl, hbus⟩
  expect h _ := ⟨h.cpu_eq, h.wait_eq, h.operandWord_eq, h.bus⟩
  remember h _ := ⟨h.cpu_eq, h.wait_eq, rfl, h.bus⟩
  evolve h _ := ⟨rfl, h.wait_eq, h.operandWord_eq, h.bus⟩

theorem setIdle (idle : Bool) :
    Corresponds (Twins S) (Exec.setIdle idle) (Exec.setIdle idle) := by
  intro m n h
  refine ⟨rfl, ?_, h.wait_eq, h.operandWord_eq, hS.idleChanged h.bus idle⟩
  exact congrArg (fun cpu : Cpu => { cpu with idle := idle }) h.cpu_eq

theorem tickBus : Corresponds (Twins S) Exec.tickBus Exec.tickBus := by
  intro m n h
  obtain ⟨hdriven, hbus⟩ := hS.tick h.bus
  rcases htick : Bus.tick m.bus with ⟨driven, bus⟩
  rcases htick' : Bus.tick n.bus with ⟨driven', bus'⟩
  rw [htick, htick'] at hdriven hbus
  obtain rfl : driven = driven' := hdriven
  rcases driven with _ | ⟨line, state⟩
  · rw [Exec.tickBus_of_quiet htick, Exec.tickBus_of_quiet htick']
    exact ⟨rfl, h.cpu_eq, h.wait_eq, h.operandWord_eq, hbus⟩
  · rw [Exec.tickBus_of_driven htick, Exec.tickBus_of_driven htick']
    exact ⟨rfl, congrArg (·.drive line state) h.cpu_eq, h.wait_eq, h.operandWord_eq, hbus⟩

theorem hostSimulation : HostSimulation (Twins S) where
  toFlagSimulation := (accessSimulation hS).simulation
  sameWait h := h.wait_eq
  setSt _ := modifyCpu _
  modifySt _ := modifyCpu _
  releaseInterrupts := modifyCpu _
  leaveIdle := setIdle hS false
  serviceStatus _ _ := modifyCpu _
  acknowledge line _ _ h := by
    refine ⟨rfl, ?_, h.wait_eq, h.operandWord_eq, hS.acknowledge h.bus line⟩
    exact congrArg
      (fun cpu : Cpu => { cpu with interrupts := cpu.interrupts.acknowledge line }) h.cpu_eq
  clearLeftovers _ _ h := ⟨rfl, h.cpu_eq, rfl, rfl, h.bus⟩
  tickCpu := modifyCpu _
  tickBus := tickBus hS
  charge cycles _ _ h :=
    ⟨congrArg (fun cpu : Cpu => (cpu.advance cycles).1) h.cpu_eq,
      congrArg (fun cpu : Cpu => (cpu.advance cycles).2) h.cpu_eq, h.wait_eq, h.operandWord_eq,
      h.bus⟩
  drive _ _ := modifyCpu _
  powerUp := modifyCpu _
  endReset _ := modifyCpu _

theorem iterate (limit : Nat) : Corresponds (Twins S) (Exec.iterate limit) (Exec.iterate limit) :=
  (hostSimulation hS).iterate (modifyCpu _) (setIdle hS true) limit

theorem perform (operation : Operation Register) (h : Twins S m n) :
    SameOutcome (Twins S) (m.perform operation) (n.perform operation) := by
  cases operation with
  | save => exact .some ⟨congrArg (fun cpu : Cpu => Answer.saved cpu.save) h.cpu_eq, h⟩
  | restore bytes =>
      cases hrestore : n.cpu.restore bytes with
      | ok saved =>
          have hrestore' : m.cpu.restore bytes = .ok saved := by
            rw [h.cpu_eq, hrestore]
          rw [perform_restore_ok hrestore, perform_restore_ok hrestore']
          exact .some ⟨rfl, rfl, h.wait_eq, h.operandWord_eq, h.bus⟩
      | error error =>
          have hrestore' : m.cpu.restore bytes = .error error := by
            rw [h.cpu_eq, hrestore]
          rw [perform_restore_error hrestore, perform_restore_error hrestore']
          exact .some ⟨rfl, h⟩
  | reset | step | run | drive | setPc | read | write | query =>
      exact (hostSimulation hS).perform (iterate hS) (by nofun) (by nofun) h

theorem act {move : HostMove Register β} {move' : HostMove Register γ}
    (hmove : HostMove.Same S move move') (h : Twins S m n) :
    SameOutcome (Twins S) (m.act move) (n.act move') := by
  cases hmove with
  | call operation => exact perform hS operation h
  | touch hchange => exact .some ⟨rfl, h.cpu_eq, h.wait_eq, h.operandWord_eq, hchange _ _ h.bus⟩

end Twins

/-- Whatever hosts do with two machines, they get the same answers, the same calls are made to both
buses, and the machines end in the same state. -/
def Indistinguishable (S : β → γ → Prop) (m : Machine (RecordedBus β))
    (n : Machine (RecordedBus γ)) : Prop :=
  ∀ moves moves',
    List.Forall₂ (HostMove.Same (RecordedBus.CalledSame S (m.bus, n.bus))) moves moves' →
      SameOutcome
        (fun m' n' => m'.cpu = n'.cpu ∧ RecordedBus.CalledSame S (m.bus, n.bus) m'.bus n'.bus)
        (session act moves m) (session act moves' n)

theorem Twins.indistinguishable (hS : Bus.SameBehaviour S)
    {before : RecordedBus β × RecordedBus γ} {m : Machine (RecordedBus β)}
    {n : Machine (RecordedBus γ)} (h : Twins (RecordedBus.CalledSame S before) m n) :
    Indistinguishable S m n := by
  intro moves moves' hmoves
  have hsame := RecordedBus.calledSame_sameBehaviour hS (m.bus, n.bus)
  have hstart : Twins (RecordedBus.CalledSame S (m.bus, n.bus)) m n :=
    ⟨h.cpu_eq, h.wait_eq, h.operandWord_eq, RecordedBus.calledSame_refl h.bus.inner⟩
  have hact (move move') (hmove : HostMove.Same (RecordedBus.CalledSame S (m.bus, n.bus))
      move move') (s t) (h : Twins (RecordedBus.CalledSame S (m.bus, n.bus)) s t) :=
    act hsame hmove h
  exact (SameOutcome.sessions hact hmoves hstart).mono fun _ _ h => ⟨h.cpu_eq, h.bus⟩

end TmsCores.Tms9900.Machine
