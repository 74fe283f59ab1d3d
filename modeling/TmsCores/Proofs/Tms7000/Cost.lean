import TmsCores.Proofs.Tms7000.Confinement
import TmsCores.Proofs.Tms7000.WaitStates

namespace TmsCores.Tms7000

/-- What an instruction can take on top of its base cost: a branch takes more if it is taken. -/
def Instruction.extraLimit : Instruction → Nat
  | .dual .btjo _ | .dual .btjz _ => Exec.takenCycles
  | .peripheral .btjo _ | .peripheral .btjz _ => Exec.takenCycles
  | .single .djnz _ | .jump _ => Exec.takenCycles
  | _ => 0

theorem Instruction.cycles_add_extraLimit_le {opcode : UInt8} {entry : Entry}
    (h : ofOpcode? opcode = some entry) :
    entry.cycles.toNat + entry.operation.extraLimit ≤ 48 := by
  have hall : ∀ opcode : Fin 256, ∀ entry ∈ ofOpcode? (UInt8.ofFin opcode),
      entry.cycles.toNat + entry.operation.extraLimit ≤ 48 := by
    decide +kernel
  exact hall opcode.toFin entry h

variable {β : Type} [Bus β]

namespace Exec

/-- However a computation starts, it returns no more than some number of cycles. -/
def CostsAtMost (limit : Nat) (x : Exec β Nat) : Prop :=
  Yields (fun _ => True) (· ≤ limit) x

namespace CostsAtMost

omit [Bus β] in
theorem free (limit : Nat) : CostsAtMost limit (pure 0 : Exec β Nat) :=
  .pure (Nat.zero_le limit)

theorem branchIf (taken : Bool) : CostsAtMost takenCycles (Exec.branchIf (β := β) taken) := by
  refine Yields.after _ fun offset => .ite ?_ (free _)
  exact Yields.after _ fun _ => .pure (Nat.le_refl takenCycles)

theorem branchOnBits (bits : UInt8) :
    CostsAtMost takenCycles (Exec.branchOnBits (β := β) bits) :=
  Yields.after _ fun _ => branchIf _

theorem binary (destination : UInt8) (combine : UInt8 → UInt8 → Outcome) :
    CostsAtMost 0 (Exec.dual.binary (β := β) destination combine) := by
  refine Yields.after _ fun d => ?_
  refine Yields.after _ fun cpu => ?_
  exact Yields.after _ fun _ => free 0

theorem dual (operation : DualOperation) (form : DualForm) :
    CostsAtMost (Instruction.dual operation form).extraLimit
      (Exec.dual (β := β) operation form) := by
  refine Yields.after _ fun operands => ?_
  cases operation with
  | mov => exact Yields.after _ fun _ => Yields.after _ fun _ => free 0
  | and | or | xor | add | adc | sub | sbb | dac | dsb => exact binary _ _
  | btjo | btjz => exact Yields.after _ fun d => branchOnBits _
  | mpy =>
      refine Yields.after _ fun d => ?_
      refine Yields.after _ fun _ => ?_
      refine Yields.after _ fun _ => ?_
      exact Yields.after _ fun _ => free 0
  | cmp => exact Yields.after _ fun d => Yields.after _ fun _ => free 0

theorem store (number value : UInt8) :
    CostsAtMost 0 (Exec.peripheral.store (β := β) number value) :=
  Yields.after _ fun _ => Yields.after _ fun _ => free 0

theorem peripheral (operation : PeripheralOperation) (source : PeripheralSource) :
    CostsAtMost (Instruction.peripheral operation source).extraLimit
      (Exec.peripheral (β := β) operation source) := by
  refine Yields.after _ fun s => ?_
  refine Yields.after _ fun number => ?_
  cases operation with
  | mov => exact store number s
  | and | or | xor => exact Yields.after _ fun v => store number _
  | btjo | btjz => exact Yields.after _ fun v => branchOnBits _

theorem unary (number : UInt8) (change : UInt8 → UInt8 → Outcome) :
    CostsAtMost 0 (Exec.single.unary (β := β) number change) := by
  refine Yields.after _ fun v => ?_
  refine Yields.after _ fun cpu => ?_
  exact Yields.after _ fun _ => free 0

theorem single (operation : SingleOperation) (target : Target) :
    CostsAtMost (Instruction.single operation target).extraLimit
      (Exec.single (β := β) operation target) := by
  refine Yields.after _ fun number => ?_
  cases operation with
  | dec | inc | inv | swap | rr | rrc | rl | rlc => exact unary number _
  | clr => exact Yields.after _ fun cpu => Yields.after _ fun _ => free 0
  | xchb =>
      refine Yields.after _ fun v => ?_
      refine Yields.after _ fun b => ?_
      refine Yields.after _ fun _ => ?_
      refine Yields.after _ fun _ => ?_
      exact Yields.after _ fun _ => free 0
  | push =>
      refine Yields.after _ fun v => ?_
      exact Yields.after _ fun _ => Yields.after _ fun _ => free 0
  | pop =>
      refine Yields.after _ fun v => ?_
      exact Yields.after _ fun cpu => Yields.after _ fun _ => free 0
  | djnz => exact Yields.after _ fun v => Yields.after _ fun _ => branchIf _
  | decd =>
      refine Yields.after _ fun v => ?_
      exact Yields.after _ fun _ => Yields.after _ fun _ => free 0

theorem perform (instruction : Instruction) :
    CostsAtMost instruction.extraLimit (Exec.perform (β := β) instruction) := by
  cases instruction with
  | nop => exact free 0
  | idle | eint | dint | setc | rets => exact Yields.after _ fun _ => free 0
  | popSt | pushSt | stsp | ldsp => exact Yields.after _ fun _ => Yields.after _ fun _ => free 0
  | reti =>
      refine Yields.after _ fun _ => ?_
      exact Yields.after _ fun st => Yields.after _ fun _ => free 0
  | dual operation form => exact dual operation form
  | movp destination =>
      refine Yields.after _ fun number => ?_
      refine Yields.after _ fun value => ?_
      exact Yields.after _ fun _ => Yields.after _ fun _ => free 0
  | peripheral operation source => exact peripheral operation source
  | extended operation mode => exact Yields.after _ fun _ => free 0
  | clrc | tstb => exact Yields.after _ fun value => Yields.after _ fun _ => free 0
  | movAB =>
      refine Yields.after _ fun a => ?_
      exact Yields.after _ fun _ => Yields.after _ fun _ => free 0
  | movToRegister source =>
      refine Yields.after _ fun number => ?_
      refine Yields.after _ fun value => ?_
      exact Yields.after _ fun _ => Yields.after _ fun _ => free 0
  | single operation target => exact single operation target
  | jump condition =>
      refine Yields.after _ fun cpu => (branchIf _).andThen fun cycles hcycles => .pure ?_
      split
      · exact Nat.zero_le takenCycles
      · exact hcycles
  | trap number => exact Yields.after _ fun _ => free 0

theorem serviceInterrupt : CostsAtMost 19 (Exec.serviceInterrupt (β := β)) := by
  refine Yields.after _ fun before => ?_
  rcases before.pending with _ | ⟨line, level⟩
  · exact free 19
  · refine Yields.after _ fun _ => ?_
    refine Yields.after _ fun _ => ?_
    refine Yields.after _ fun _ => ?_
    refine Yields.after _ fun vector => ?_
    refine Yields.after _ fun pc => ?_
    refine Yields.after _ fun _ => ?_
    refine Yields.after _ fun _ => ?_
    refine Yields.after _ fun _ => ?_
    cases before.idle with
    | false => exact .pure (Nat.le_refl 19)
    | true => exact .pure (by decide)

end CostsAtMost

theorem execute_le {config : Config}
    (hillegal : ∀ cycles, config.illegal = .ignore cycles → cycles.toNat ≤ 48) :
    Yields (Machine.Has (·.IsConsistent config)) (· ≤ 48) (execute (β := β)) := by
  have hfetch := corresponds_self_iff.mp
    ((Cpu.isConsistent_stable config).hostSimulation (β := β)).toSimulation.fetch
  refine Yields.bind hfetch fun opcode => ?_
  split
  · intro machine hmachine
    have hclamp : machine.cpu.config.illegal = config.illegal := by
      rw [hmachine.config_eq, Config.clamp]
    rw [illegal, cpu_bind, hclamp]
    cases hignore : config.illegal with
    | trap => exact (by decide : trapCycles ≤ 48)
    | ignore cycles => exact hillegal cycles hignore
  · next entry hdecode =>
      have hentry := Instruction.cycles_add_extraLimit_le hdecode
      intro machine _
      have hextra := CostsAtMost.perform entry.operation machine trivial
      exact Nat.le_trans (Nat.add_le_add_left hextra _) hentry

end Exec

namespace Machine

variable {config : Config}

theorem ownCycles_le {machine : Machine β} (hconsistent : machine.cpu.IsConsistent config)
    (hillegal : ∀ cycles, config.illegal = .ignore cycles → cycles.toNat ≤ 48)
    (hdivider : config.tickDivider.toNat ≤ 67) (limit : Nat) : machine.ownCycles limit ≤ 67 := by
  have hchecked : machine.checked.cpu.IsConsistent config :=
    (Cpu.isConsistent_stable config).toServiceStable.checked hconsistent
  rw [ownCycles]
  split
  · have hquantum : machine.checked.cpu.divider.untilNext ≤ 67 := by
      rw [hchecked.inPhase.untilNext_eq, hchecked.divisor_eq, TickDivider.divisor_ofDivisor]
      omega
    omega
  · have hservice := Exec.CostsAtMost.serviceInterrupt (Exec.clearLeftovers machine).2 trivial
    exact Nat.add_le_add hservice (Exec.execute_le hillegal machine.checked hchecked)

/-- What an iteration costs at most. -/
theorem iterate_le {machine : Machine (RecordedBus β)}
    (hconsistent : machine.cpu.IsConsistent config)
    (hillegal : ∀ cycles, config.illegal = .ignore cycles → cycles.toNat ≤ 48)
    (hdivider : config.tickDivider.toNat ≤ 67) (limit : Nat) :
    ∃ calls, machine.bus.Called (Exec.iterate limit machine).2.bus calls ∧
      (Exec.iterate limit machine).1 ≤ 67 + BusEvent.waits calls := by
  obtain ⟨calls, _, hcalled, _, _, hcost, _⟩ :=
    iterate_fst_of_alike (m := machine) (n := machine) Bus.sameData_eq rfl rfl limit
  obtain ⟨driven, _, hticks⟩ := machine.called_account limit
  refine ⟨calls ++ driven.map .tick, hcalled.trans hticks, ?_⟩
  have hown := ownCycles_le hconsistent hillegal hdivider limit
  rw [hcost, BusEvent.waits_append, BusEvent.waits_ticks]
  omega

theorem iterate_le_of_variant {variant : Variant} {machine : Machine (RecordedBus β)}
    (hconsistent : machine.cpu.IsConsistent variant.config) (limit : Nat) :
    ∃ calls, machine.bus.Called (Exec.iterate limit machine).2.bus calls ∧
      (Exec.iterate limit machine).1 ≤ 67 + BusEvent.waits calls := by
  have hdivider : variant.config.tickDivider.toNat ≤ 67 := (by decide : (16 : UInt32).toNat ≤ 67)
  refine iterate_le hconsistent (fun cycles hignore => ?_) hdivider limit
  obtain rfl := IllegalOpcode.ignore.inj hignore
  decide

theorem waits_iterate {machine : Machine (RecordedBus β)} (hprompt : Bus.NeverWaits β)
    (hconsistent : machine.cpu.IsConsistent config) (limit : Nat) :
    BusEvent.waits (Exec.iterate limit machine).2.bus.events =
      BusEvent.waits machine.bus.events := by
  have hlasting := RecordedBus.waits_lasting hprompt config.clamp.bounds
    (BusEvent.waits machine.bus.events)
  exact (Exec.iterate_keeps_and hlasting limit machine ⟨hconsistent, rfl⟩).2

end Machine

end TmsCores.Tms7000
