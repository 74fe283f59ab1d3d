import TmsCores.Proofs.Bus.Waits
import TmsCores.Proofs.Tms9900.ProgramView
import TmsCores.Proofs.Tms9900.TimeSlicing

namespace TmsCores.Tms9900

variable {β γ : Type} [Bus β] [Bus γ]

theorem Cpu.config_flagStable (config : Config) : FlagStable (·.config = config) where
  setByte h _ _ := h
  setDecrementer h _ := h
  setInternalBit h hchanged := (config_setInternalBit? hchanged).trans h
  skip h _ := h
  setPc h _ := h
  setWp h _ := h
  setFlags _ h := h
  clearMask h := h
  overflowTrap {cpu} h := cpu.config_overflowTrap.trans h
  illegalTrap h := h

namespace Machine

/-- Two machines in the same state, which have called their buses alike since `before` and have met
what wait states those calls account for. -/
structure Alike (S : β → γ → Prop) (config : Config) (before : RecordedBus β × RecordedBus γ)
    (m : Machine (RecordedBus β)) (n : Machine (RecordedBus γ)) : Prop where
  cpu_eq : m.cpu = n.cpu
  operandWord_eq : m.operandWord = n.operandWord
  config_eq : m.cpu.config = config
  calledAlike : RecordedBus.CalledAlike S config.byteAccessCycles.toNat before m.bus n.bus
    m.wait n.wait

namespace Alike

variable {S : β → γ → Prop} {config : Config} {before : RecordedBus β × RecordedBus γ}

omit [Bus β] [Bus γ] in
theorem modifyCpu {change : Cpu → Cpu} (hchange : ∀ cpu : Cpu, (change cpu).config = cpu.config) :
    Corresponds (Alike S config before) (Exec.modifyCpu change) (Exec.modifyCpu change) := by
  intro m n h
  exact ⟨rfl, congrArg change h.cpu_eq, h.operandWord_eq, (hchange m.cpu).trans h.config_eq,
    h.calledAlike⟩

variable (hS : Bus.SameData S)

include hS

theorem accessSimulation : AccessSimulation (Alike S config before) where
  sameCpu h := h.cpu_eq
  sameOperandWord h := h.operandWord_eq
  busRead := by
    rintro ⟨⟨⟨cpu, fault⟩, wait, operandWord⟩, bus⟩ ⟨⟨⟨_, fault'⟩, wait', _⟩, bus'⟩ address
      ⟨rfl, rfl, rfl, h⟩ _
    obtain ⟨hdata, hnext⟩ := h.read hS (cpu.config.busAddress address)
    exact ⟨hdata, rfl, rfl, rfl, hnext⟩
  busWrite := by
    rintro ⟨⟨⟨cpu, fault⟩, wait, operandWord⟩, bus⟩ ⟨⟨⟨_, fault'⟩, wait', _⟩, bus'⟩ address
      ⟨rfl, rfl, rfl, h⟩ _ value
    exact ⟨rfl, rfl, rfl, h.write hS (cpu.config.busAddress address) value⟩
  cruRead := by
    rintro ⟨⟨⟨cpu, fault⟩, wait, operandWord⟩, bus⟩ ⟨⟨⟨_, fault'⟩, wait', _⟩, bus'⟩ bit
      ⟨rfl, rfl, rfl, h⟩ hbit
    obtain ⟨hdata, hnext⟩ := h.ioRead hS (bit &&& 0x0FFF).toUInt32
    rw [Exec.cruRead, Exec.cruRead, get_bind, get_bind, hbit]
    exact ⟨congrArg (fun data : UInt8 => data &&& 1 != 0) hdata, rfl, rfl, rfl, hnext⟩
  cruWrite := by
    rintro ⟨⟨⟨cpu, fault⟩, wait, operandWord⟩, bus⟩ ⟨⟨⟨_, fault'⟩, wait', _⟩, bus'⟩ bit value
      ⟨rfl, rfl, rfl, h⟩ hbit
    rw [Exec.cruWrite, Exec.cruWrite, get_bind, get_bind, hbit]
    exact ⟨rfl, rfl, rfl, h.ioWrite hS (bit &&& 0x0FFF).toUInt32 value.toUInt8⟩
  expect h _ := ⟨h.cpu_eq, h.operandWord_eq, h.config_eq, h.calledAlike⟩
  remember h _ := ⟨h.cpu_eq, rfl, h.config_eq, h.calledAlike⟩
  evolve h hevolves :=
    ⟨rfl, h.operandWord_eq, hevolves _ (Cpu.config_flagStable config) h.config_eq, h.calledAlike⟩

theorem setIdle (idle : Bool) :
    Corresponds (Alike S config before) (Exec.setIdle idle) (Exec.setIdle idle) := by
  intro m n h
  refine ⟨rfl, ?_, h.operandWord_eq, h.config_eq, h.calledAlike.idleChanged hS idle⟩
  exact congrArg (fun cpu : Cpu => { cpu with idle := idle }) h.cpu_eq

theorem simulation : InterruptSimulation (Alike S config before) where
  toFlagSimulation := (accessSimulation hS).simulation
  setSt _ := modifyCpu fun _ => rfl
  modifySt _ := modifyCpu fun _ => rfl
  releaseInterrupts := modifyCpu fun _ => rfl
  leaveIdle := setIdle hS false
  serviceStatus _ _ := modifyCpu fun _ => rfl
  acknowledge line := by
    intro m n h
    refine ⟨rfl, ?_, h.operandWord_eq, h.config_eq, h.calledAlike.acknowledge hS line⟩
    exact congrArg
      (fun cpu : Cpu => { cpu with interrupts := cpu.interrupts.acknowledge line }) h.cpu_eq

end Alike

/-- What an iteration takes when no access waits and none of them costs anything. -/
def ownCycles (limit : Nat) (machine : Machine β) : Nat :=
  if machine.checked.cpu.idle then max 1 (min machine.checked.cpu.divider.untilNext limit)
  else (Exec.serviceUnlessSuppressed (Exec.clearLeftovers machine).2).1 +
    (Exec.execute machine.checked).1

theorem checked_of_idle {machine : Machine β} (h : machine.checked.cpu.idle = true) :
    machine.checked = machine.released := by
  rw [checked_eq] at h ⊢
  split at h
  · next hsuppress => rw [if_pos hsuppress]
  · next hsuppress =>
      rw [if_neg hsuppress]
      cases hpending : machine.released.cpu.pending with
      | none => rw [Exec.serviceInterrupt_of_none hpending]
      | some pending =>
          have hawake := Exec.serviceInterrupt_leads pending machine.released hpending
          exact absurd (hawake.symm.trans h) nofun

theorem iterate_fst (limit : Nat) (machine : Machine β) :
    (Exec.iterate limit machine).1 = machine.ownCycles limit + machine.worked.wait := by
  change ((if machine.checked.cpu.idle then Exec.rest limit
      else Exec.work (Exec.serviceUnlessSuppressed (Exec.clearLeftovers machine).2).1 : Exec β Nat)
      machine.checked).1 = _
  rw [ownCycles, worked]
  split
  · next hidle =>
      rw [checked_of_idle hidle]
      rfl
  · rfl

section

variable {S : β → γ → Prop} {m : Machine (RecordedBus β)} {n : Machine (RecordedBus γ)}
  (hS : Bus.SameData S) (hcpu : m.cpu = n.cpu) (hinner : S m.bus.inner n.bus.inner)

include hS hcpu hinner

theorem alike_service :
    (Exec.serviceUnlessSuppressed (Exec.clearLeftovers m).2).1 =
        (Exec.serviceUnlessSuppressed (Exec.clearLeftovers n).2).1 ∧
      Alike S m.cpu.config (m.bus, n.bus) m.checked n.checked :=
  (Alike.simulation hS).serviceUnlessSuppressed (Exec.clearLeftovers m).2
    (Exec.clearLeftovers n).2 ⟨hcpu, rfl, rfl, RecordedBus.calledAlike_refl hinner⟩

theorem alike_execute :
    (Exec.execute m.checked).1 = (Exec.execute n.checked).1 ∧
      Alike S m.cpu.config (m.bus, n.bus) (Exec.execute m.checked).2
        (Exec.execute n.checked).2 :=
  (Alike.simulation hS).execute (Alike.modifyCpu fun _ => rfl) (Alike.setIdle hS true)
    m.checked n.checked (alike_service hS hcpu hinner).2

theorem alike_worked : Alike S m.cpu.config (m.bus, n.bus) m.worked n.worked := by
  have hchecked := (alike_service hS hcpu hinner).2
  rw [worked, worked, ← hchecked.cpu_eq]
  split
  · exact hchecked
  · exact (alike_execute hS hcpu hinner).2

theorem ownCycles_eq (limit : Nat) : m.ownCycles limit = n.ownCycles limit := by
  obtain ⟨hservice, hchecked⟩ := alike_service hS hcpu hinner
  rw [ownCycles, ownCycles, ← hchecked.cpu_eq, hservice, (alike_execute hS hcpu hinner).1]

/-- The bill for an iteration on either bus. -/
theorem iterate_fst_of_alike (limit : Nat) : ∃ calls calls',
    m.bus.Called m.worked.bus calls ∧ n.bus.Called n.worked.bus calls' ∧
      calls.map BusEvent.unwaited = calls'.map BusEvent.unwaited ∧
      (Exec.iterate limit m).1 = m.ownCycles limit +
        m.cpu.config.byteAccessCycles.toNat * BusEvent.transfers calls + BusEvent.waits calls ∧
      (Exec.iterate limit n).1 = m.ownCycles limit +
        m.cpu.config.byteAccessCycles.toNat * BusEvent.transfers calls + BusEvent.waits calls' := by
  obtain ⟨calls, calls', hcalled, hcalled', hsame, hwait, hwait'⟩ :=
    (alike_worked hS hcpu hinner).calledAlike.calls
  refine ⟨calls, calls', hcalled, hcalled', hsame, ?_, ?_⟩
  · rw [iterate_fst, hwait]
    omega
  · rw [iterate_fst, hwait', ownCycles_eq hS hcpu hinner, BusEvent.transfers_eq_of_unwaited hsame]
    omega

end

end Machine

end TmsCores.Tms9900
