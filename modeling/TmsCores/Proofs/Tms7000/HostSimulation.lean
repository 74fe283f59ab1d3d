import TmsCores.Proofs.RunLoop
import TmsCores.Proofs.Tms7000.Simulation
import TmsCores.Tms7000.Host

namespace TmsCores.Tms7000

variable {α β γ : Type} [Bus β] [Bus γ] {R : Machine β → Machine γ → Prop}

/-- A relation between machines that is also respected by the interrupt check. -/
structure InterruptSimulation (R : Machine β → Machine γ → Prop) : Prop
    extends RegisterSimulation R where
  interruptVector : ∀ {m n pending}, R m n → n.cpu.pending = some pending →
    Corresponds R (Exec.interruptVector pending.line) (Exec.interruptVector pending.line)
  leaveIdle : Corresponds R (Exec.setIdle false) (Exec.setIdle false)
  acknowledge : ∀ line, Corresponds R (Exec.acknowledge line) (Exec.acknowledge line)

/-- A relation between machines that is respected from the very start of an iteration to the end of
its interrupt check. -/
structure ServiceSimulation (R : Machine β → Machine γ → Prop) : Prop
    extends InterruptSimulation R where
  clearLeftovers : Corresponds R Exec.clearLeftovers Exec.clearLeftovers

/-- A relation between machines that the accounts at the end of an iteration respect. -/
structure ClockSimulation (R : Machine β → Machine γ → Prop) : Prop where
  clockTimer : Corresponds R (Exec.modifyCpu Cpu.clockTimer) (Exec.modifyCpu Cpu.clockTimer)
  tickBus : Corresponds R Exec.tickBus Exec.tickBus
  charge : ∀ cycles, Corresponds R (Exec.charge cycles) (Exec.charge cycles)

/-- A relation between machines that is respected by all that happens around the instructions:
interrupts, ticks, and what a host can ask for. -/
structure HostSimulation (R : Machine β → Machine γ → Prop) : Prop
    extends Simulation R, ServiceSimulation R, ClockSimulation R where
  sameWait : ∀ {m n}, R m n → m.wait = n.wait
  setIdle : ∀ idle, Corresponds R (Exec.setIdle idle) (Exec.setIdle idle)
  drive : ∀ line state,
    Corresponds R (Exec.modifyCpu (·.drive line state)) (Exec.modifyCpu (·.drive line state))
  powerUp : Corresponds R (Exec.modifyCpu Cpu.powerUp) (Exec.modifyCpu Cpu.powerUp)
  write? : ∀ register value,
    Corresponds R (Machine.write? register value) (Machine.write? register value)
  leaveIdle := setIdle false

namespace InterruptSimulation

variable (h : InterruptSimulation R)

include h

theorem wake : Corresponds R Exec.wake Exec.wake :=
  h.inspect fun _ => .ite h.leaveIdle (.pure ())

theorem serviceInterrupt : Corresponds R Exec.serviceInterrupt Exec.serviceInterrupt := by
  refine Exec.corresponds_cpu h.sameCpu fun m n hmn => ?_
  rcases hpending : n.cpu.pending with _ | pending
  · exact .pure 0
  · refine (h.push n.cpu.st).seq ?_
    refine h.pushPc.seq ?_
    refine h.clearSt.seq ?_
    refine (h.interruptVector hmn hpending).bind fun vector => ?_
    refine (h.readWord vector).bind fun pc => ?_
    refine (h.setPc pc).seq ?_
    refine (h.acknowledge pending.line).seq ?_
    exact h.wake.seq (.pure _)

end InterruptSimulation

namespace ClockSimulation

variable (h : ClockSimulation R)

include h

theorem ticks (count : Nat) : Corresponds R (Exec.ticks count) (Exec.ticks count) := by
  induction count with
  | zero => exact .pure ()
  | succ count ih => exact (h.clockTimer.seq h.tickBus).seq ih

theorem account (cycles : Nat) : Corresponds R (Exec.account cycles) (Exec.account cycles) :=
  (h.charge cycles).bind h.ticks

end ClockSimulation

namespace HostSimulation

variable (h : HostSimulation R)

include h

theorem inspectWait {f : Nat → Exec β α} {g : Nat → Exec γ α}
    (hfg : ∀ wait, Corresponds R (f wait) (g wait)) :
    Corresponds R (get >>= fun machine => f machine.wait)
      (get >>= fun machine => g machine.wait) := by
  intro m n hmn
  change (f m.wait m).1 = (g n.wait n).1 ∧ R (f m.wait m).2 (g n.wait n).2
  rw [h.sameWait hmn]
  exact hfg n.wait m n hmn

theorem rest (limit : Nat) : Corresponds R (Exec.rest limit) (Exec.rest limit) :=
  h.inspect fun _ => (h.account _).seq (.pure _)

theorem work (service : Nat) : Corresponds R (Exec.work service) (Exec.work service) := by
  refine (h.execute (h.setIdle true)).bind fun cost => ?_
  exact h.inspectWait fun wait => (h.account _).seq (.pure _)

theorem iterate (limit : Nat) : Corresponds R (Exec.iterate limit) (Exec.iterate limit) := by
  refine h.clearLeftovers.seq ?_
  refine h.serviceInterrupt.bind fun service => ?_
  exact h.inspect fun cpu => .ite (h.rest limit) (h.work service)

theorem reset : Corresponds R Exec.reset Exec.reset := by
  refine h.clearLeftovers.seq ?_
  refine h.powerUp.seq ?_
  refine h.wake.seq ?_
  exact (h.readWord 0xFFFE).bind h.setPc

theorem perform {operation : Operation Register} (hsave : operation ≠ .save)
    (hrestore : ∀ bytes, operation ≠ .restore bytes) {m : Machine β} {n : Machine γ}
    (hmn : R m n) : SameOutcome R (m.perform operation) (n.perform operation) := by
  have hsome {δ : Type} {x : Exec β δ} {y : Exec γ δ} (hxy : Corresponds R x y)
      (answer : δ → Answer MissingRegister Config) :
      SameOutcome R (some (answer (x m).1, (x m).2)) (some (answer (y n).1, (y n).2)) :=
    .some ⟨congrArg answer (hxy m n hmn).1, (hxy m n hmn).2⟩
  have hcpu : m.cpu = n.cpu := h.sameCpu hmn
  cases operation with
  | reset => exact hsome h.reset fun _ => .done
  | step => exact hsome (h.iterate _) .cycles
  | run budget =>
      refine (RunLoop.run_sameOutcome h.iterate budget hmn).bind fun count s t hst => ?_
      exact .some ⟨rfl, hst⟩
  | drive line state => exact hsome (h.drive line state) fun _ => .done
  | setPc pc => exact hsome (h.setPc pc) fun _ => .done
  | read register =>
      exact .some ⟨congrArg (fun cpu : Cpu => Answer.value (cpu.read? register)) hcpu, hmn⟩
  | write register value => exact hsome (h.write? register value) .written
  | query path =>
      exact .some ⟨congrArg (fun cpu : Cpu => Answer.observation (cpu.query path)) hcpu, hmn⟩
  | save => exact absurd rfl hsave
  | restore bytes => exact absurd rfl (hrestore bytes)

end HostSimulation

end TmsCores.Tms7000
