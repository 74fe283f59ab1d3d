import TmsCores.Proofs.RunLoop
import TmsCores.Proofs.Tms9900.Simulation
import TmsCores.Tms9900.Host

namespace TmsCores.Tms9900

variable {α β γ : Type} [Bus β] [Bus γ] {R : Machine β → Machine γ → Prop}

/-- A relation between machines that is also respected by the interrupt check. -/
structure InterruptSimulation (R : Machine β → Machine γ → Prop) : Prop extends Simulation R where
  releaseInterrupts : Corresponds R Exec.releaseInterrupts Exec.releaseInterrupts
  leaveIdle : Corresponds R (Exec.setIdle false) (Exec.setIdle false)
  serviceStatus : ∀ {m n pending}, R m n → n.cpu.pending = some pending →
    Corresponds R (Exec.modifySt (Exec.serviceStatus n.cpu.config pending))
      (Exec.modifySt (Exec.serviceStatus n.cpu.config pending))
  acknowledge : ∀ line, Corresponds R (Exec.acknowledge line) (Exec.acknowledge line)

/-- A relation between machines that is respected from the very start of an iteration to the end of
its instruction. -/
structure ServiceSimulation (R : Machine β → Machine γ → Prop) : Prop
    extends InterruptSimulation R where
  clearLeftovers : Corresponds R Exec.clearLeftovers Exec.clearLeftovers

/-- A relation between machines that the accounts at the end of an iteration respect. -/
structure ClockSimulation (R : Machine β → Machine γ → Prop) : Prop where
  tickCpu : Corresponds R (Exec.modifyCpu Cpu.tick) (Exec.modifyCpu Cpu.tick)
  tickBus : Corresponds R Exec.tickBus Exec.tickBus
  charge : ∀ cycles, Corresponds R (Exec.charge cycles) (Exec.charge cycles)

/-- A relation between machines that is respected by all that happens around the instructions:
interrupts, ticks, and what a host can ask for. -/
structure HostSimulation (R : Machine β → Machine γ → Prop) : Prop
    extends ServiceSimulation R, ClockSimulation R where
  sameWait : ∀ {m n}, R m n → m.wait = n.wait
  drive : ∀ line state,
    Corresponds R (Exec.modifyCpu (·.drive line state)) (Exec.modifyCpu (·.drive line state))
  powerUp : Corresponds R (Exec.modifyCpu Cpu.powerUp) (Exec.modifyCpu Cpu.powerUp)
  endReset : ∀ wait,
    Corresponds R (Exec.modifyCpu (·.endReset wait)) (Exec.modifyCpu (·.endReset wait))

namespace FlagSimulation

variable (h : FlagSimulation R)

include h

theorem read? (register : Register) :
    Corresponds R (Exec.read? register) (Exec.read? register) := by
  cases register with
  | pc => exact h.inspect (fun _ => rfl) fun _ => .pure _
  | wp => exact h.inspect (fun _ => rfl) fun _ => .pure _
  | st => exact h.inspect (fun _ => rfl) fun _ => .pure _
  | r number =>
      refine .ite ?_ (.pure _)
      exact (h.readRegister number.toUInt16).bind fun _ => .pure _

theorem write? {register : Register} {value : UInt16}
    (hload : register = .st →
      Corresponds R (Exec.modifyCpu (·.setSt value)) (Exec.modifyCpu (·.setSt value))) :
    Corresponds R (Exec.write? register value) (Exec.write? register value) := by
  cases register with
  | pc => exact (h.setPc value).seq (.pure _)
  | wp => exact (h.setWp value).seq (.pure _)
  | st => exact (hload rfl).seq (.pure _)
  | r number =>
      refine .ite ?_ (.pure _)
      exact (h.writeRegister number.toUInt16 value).seq (.pure _)

end FlagSimulation

namespace InterruptSimulation

variable (h : InterruptSimulation R)

include h

theorem wake : Corresponds R Exec.wake Exec.wake :=
  h.inspect (fun _ => rfl) fun _ => .ite h.leaveIdle (.pure ())

theorem serviceInterrupt : Corresponds R Exec.serviceInterrupt Exec.serviceInterrupt := by
  refine h.inspectRelated (fun _ => rfl) fun m n hmn => ?_
  cases hpending : n.cpu.pending with
  | none => exact .pure 0
  | some pending =>
      refine (h.contextSwitch _).seq ?_
      refine (h.serviceStatus hmn hpending).seq ?_
      refine (h.acknowledge pending.line).seq ?_
      exact h.wake.seq (.pure _)

theorem serviceUnlessSuppressed :
    Corresponds R Exec.serviceUnlessSuppressed Exec.serviceUnlessSuppressed := by
  refine h.inspect (fun _ => rfl) fun cpu => ?_
  exact h.releaseInterrupts.seq (.ite (.pure 0) h.serviceInterrupt)

end InterruptSimulation

namespace ClockSimulation

variable (h : ClockSimulation R)

include h

theorem ticks (count : Nat) : Corresponds R (Exec.ticks count) (Exec.ticks count) := by
  induction count with
  | zero => exact .pure ()
  | succ count ih => exact (h.tickCpu.seq h.tickBus).seq ih

theorem account (cycles : Nat) : Corresponds R (Exec.account cycles) (Exec.account cycles) :=
  (h.charge cycles).bind h.ticks

end ClockSimulation

namespace HostSimulation

variable (h : HostSimulation R)

include h

theorem inspectWait {f : Nat → Exec β α} {g : Nat → Exec γ α}
    (hfg : ∀ wait, Corresponds R (f wait) (g wait)) :
    Corresponds R (get >>= fun machine => f machine.wait)
      (get >>= fun machine => g machine.wait) := by
  intro m n hmn
  change (f m.wait m).1 = (g n.wait n).1 ∧ R (f m.wait m).2 (g n.wait n).2
  rw [h.sameWait hmn]
  exact hfg n.wait m n hmn

theorem rest (limit : Nat) : Corresponds R (Exec.rest limit) (Exec.rest limit) :=
  h.inspect (fun _ => rfl) fun _ => (h.account _).seq (.pure _)

theorem work (hhold : Corresponds R Exec.holdInterrupts Exec.holdInterrupts)
    (hidle : Corresponds R (Exec.setIdle true) (Exec.setIdle true)) (service : Nat) :
    Corresponds R (Exec.work service) (Exec.work service) := by
  refine (h.execute hhold hidle).bind fun cost => ?_
  exact h.inspectWait fun wait => (h.account _).seq (.pure _)

theorem iterate (hhold : Corresponds R Exec.holdInterrupts Exec.holdInterrupts)
    (hidle : Corresponds R (Exec.setIdle true) (Exec.setIdle true)) (limit : Nat) :
    Corresponds R (Exec.iterate limit) (Exec.iterate limit) := by
  refine h.clearLeftovers.seq ?_
  refine h.serviceUnlessSuppressed.bind fun service => ?_
  exact h.inspect (fun _ => rfl) fun cpu => .ite (h.rest limit) (h.work hhold hidle service)

theorem reset : Corresponds R Exec.reset Exec.reset := by
  refine h.clearLeftovers.seq ?_
  refine h.powerUp.seq ?_
  refine h.wake.seq ?_
  refine (h.contextSwitch 0).seq ?_
  exact h.inspectWait h.endReset

theorem query (path : String) {m : Machine β} {n : Machine γ} (hmn : R m n) :
    m.cpu.query path = n.cpu.query path := by
  have hview : ∀ cpu : Cpu, cpu.programView.query path = cpu.query path := by
    intro cpu
    refine Option.bind_congr fun question _ => ?_
    cases question <;> rfl
  rw [← hview, h.sameView hmn, hview]

theorem perform (hiterate : ∀ limit, Corresponds R (Exec.iterate limit) (Exec.iterate limit))
    {operation : Operation Register} (hsave : operation ≠ .save)
    (hrestore : ∀ bytes, operation ≠ .restore bytes) {m : Machine β} {n : Machine γ}
    (hmn : R m n) : SameOutcome R (m.perform operation) (n.perform operation) := by
  have hsome {δ : Type} {x : Exec β δ} {y : Exec γ δ} (hxy : Corresponds R x y)
      (answer : δ → Answer MissingRegister Config) :
      SameOutcome R (some (answer (x m).1, (x m).2)) (some (answer (y n).1, (y n).2)) :=
    .some ⟨congrArg answer (hxy m n hmn).1, (hxy m n hmn).2⟩
  cases operation with
  | reset => exact hsome h.reset fun _ => .done
  | step => exact hsome (hiterate _) .cycles
  | run budget =>
      refine (RunLoop.run_sameOutcome hiterate budget hmn).bind fun count s t hst => ?_
      exact .some ⟨rfl, hst⟩
  | drive line state => exact hsome (h.drive line state) fun _ => .done
  | setPc pc => exact hsome (h.setPc pc) fun _ => .done
  | read register => exact hsome (h.read? register) .value
  | write register value => exact hsome (h.write? fun _ => h.setSt value) .written
  | query path => exact .some ⟨congrArg Answer.observation (h.query path hmn), hmn⟩
  | save => exact absurd rfl hsave
  | restore bytes => exact absurd rfl (hrestore bytes)

end HostSimulation

end TmsCores.Tms9900
