import TmsCores.Bus.Flat
import TmsCores.Proofs.Tms9900.Reachability
import TmsCores.Proofs.Tms9900.Signals
import TmsCores.Proofs.Tms9900.Suppression
import TmsCores.Proofs.Tms9900.Workspace

namespace TmsCores.Tms9900

namespace Cpu

variable {cpu before : Cpu}

/-- The processor without what changes by itself: the interrupt lines, the devices on the chip and
the clocks. -/
def still (cpu : Cpu) : Cpu :=
  { cpu.core with
    chip.ram := cpu.chip.ram
    divider := .ofDivisor 0
    cycles := {} }

theorem eq_of_still {α : Type} (view : Cpu → α) (hview : ∀ cpu, view cpu.still = view cpu)
    (h : cpu.still = before.still) : view cpu = view before := by
  rw [← hview, h, hview]

theorem still_of_core (hcore : cpu.core = before.core) (hram : cpu.chip.ram = before.chip.ram) :
    cpu.still = before.still := by
  rw [still, hcore, hram, still]

theorem ram_clockDecrementer (cpu : Cpu) : cpu.clockDecrementer.chip.ram = cpu.chip.ram := by
  unfold clockDecrementer
  dsimp only
  split
  · rfl
  · rfl

theorem ram_tick (cpu : Cpu) : cpu.tick.chip.ram = cpu.chip.ram := by
  unfold tick
  split
  · exact cpu.ram_clockDecrementer
  · rfl

theorem ram_drive (cpu : Cpu) (line : UInt8) (state : LineState) :
    (cpu.drive line state).chip.ram = cpu.chip.ram := by
  unfold drive
  split
  · dsimp only
    split
    · split
      · exact ram_clockDecrementer _
      · rfl
    · rfl
  · rfl

theorem still_clockStable (before : Cpu) : ClockStable (·.still = before.still) where
  tick {cpu} h := (still_of_core cpu.core_tick cpu.ram_tick).trans h
  drive {cpu} h line state :=
    (still_of_core (cpu.core_drive line state) (cpu.ram_drive line state)).trans h
  advance h _ := h

end Cpu

/-- The registers of its new workspace that a context switch writes to. -/
def Instruction.savedRegisters : Instruction → List UInt16
  | .xop => [13, 14, 15, 11]
  | _ => [13, 14, 15]

variable {β : Type} [Bus β]

namespace Machine

/-- What the next opcode of the program stands for. -/
def ahead (machine : Machine β) : Option Instruction :=
  Instruction.ofOpcode? machine.cpu.config.instructionSet (Exec.fetch machine).1

/-- The source operand of the instruction that an iteration executes, and the machine once its
address is known. -/
def resolved (machine : Machine β) : (UInt16 × Nat) × Machine β :=
  Exec.resolve (.source machine.found.1.opcode) .word machine.found.2

/-- The host drives some lines, one after the other. -/
def driven (signals : List (UInt8 × LineState)) (machine : Machine β) : Machine β :=
  { machine with
    cpu := signals.foldl (fun cpu signal => cpu.drive signal.1 signal.2) machine.cpu }

omit [Bus β] in
theorem still_driven (machine : Machine β) (signals : List (UInt8 × LineState)) :
    (machine.driven signals).cpu.still = machine.cpu.still := by
  have hdriven (cpu : Cpu) (h : cpu.still = machine.cpu.still) : (signals.foldl
      (fun cpu signal => cpu.drive signal.1 signal.2) cpu).still = machine.cpu.still := by
    induction signals generalizing cpu with
    | nil => exact h
    | cons signal rest ih =>
        exact ih _ ((Cpu.still_clockStable machine.cpu).drive h signal.1 signal.2)
  exact hdriven machine.cpu rfl

theorem still_iterate (machine : Machine β) (limit : Nat) :
    (Exec.iterate limit machine).2.cpu.still = machine.worked.cpu.still := by
  have hclock := (Cpu.still_clockStable machine.worked.cpu).simulation (β := β)
  rw [iterate_snd]
  exact corresponds_self_iff.mp (hclock.account _) machine.worked rfl

end Machine

namespace Exec

variable {machine : Machine β}

theorem chase_of_ne_x {opcode : UInt16} {instruction : Instruction}
    (h : Instruction.ofOpcode? machine.cpu.config.instructionSet opcode = some instruction)
    (hx : instruction ≠ .x) (depth : Nat) :
    chase depth opcode machine = (⟨opcode, some instruction, 0⟩, machine) := by
  rw [chase.eq_def, cpu_bind]
  dsimp only
  rw [h]
  cases instruction with
  | x => exact absurd rfl hx
  | _ => rfl

end Exec

theorem Machine.found_of_ahead {machine : Machine β} {instruction : Instruction}
    (h : machine.checked.ahead = some instruction) (hx : instruction ≠ .x) :
    machine.found = (⟨(Exec.fetch machine.checked).1, some instruction, 0⟩,
      (Exec.fetch machine.checked).2) := by
  have hconfig : (Exec.fetch machine.checked).2.cpu.config = machine.checked.cpu.config :=
    congrArg (·.config) (Exec.cpu_fetch machine.checked)
  rw [ahead, ← hconfig] at h
  exact Exec.chase_of_ne_x h hx Exec.maxExecuteDepth

variable [RamBus β]

open RamBus

namespace Machine

variable {machine next before entry : Machine β} {saved : List (UInt16 × UInt16)}

/-- Time has passed since some moment, and nothing else has happened. -/
structure TimePassed (before machine : Machine β) : Prop where
  still_eq : machine.cpu.still = before.cpu.still
  memory_eq : memory machine.bus = memory before.bus

namespace TimePassed

theorem account (h : before.TimePassed machine) (cycles : Nat) :
    before.TimePassed (Exec.account cycles machine).2 := by
  have hclock := (Cpu.still_clockStable before.cpu).simulation_and (β := β)
    (B := fun bus => memory bus = memory before.bus)
    fun hbus => (memory_tick _).trans hbus
  obtain ⟨hstill, hmemory⟩ :=
    corresponds_self_iff.mp (hclock.account cycles) machine ⟨h.still_eq, h.memory_eq⟩
  exact ⟨hstill, hmemory⟩

theorem driven (h : before.TimePassed machine) (signals : List (UInt8 × LineState)) :
    before.TimePassed (machine.driven signals) :=
  ⟨(machine.still_driven signals).trans h.still_eq, h.memory_eq⟩

theorem sameMemory (h : before.TimePassed machine) : before.SameMemory machine where
  config_eq := Cpu.eq_of_still (·.config) (fun _ => rfl) h.still_eq
  wp_eq := Cpu.eq_of_still (·.wp) (fun _ => rfl) h.still_eq
  ram_eq := Cpu.eq_of_still (·.chip.ram) (fun _ => rfl) h.still_eq
  memory_eq := h.memory_eq

theorem resumes {lent : List Cell} (h : before.TimePassed machine)
    (hbefore : entry.Resumes lent before) : entry.Resumes lent machine where
  wp_eq := h.sameMemory.wp_eq.trans hbefore.wp_eq
  pc_eq := (Cpu.eq_of_still (·.pc) (fun _ => rfl) h.still_eq).trans hbefore.pc_eq
  st_eq := (Cpu.eq_of_still (·.st) (fun _ => rfl) h.still_eq).trans hbefore.st_eq
  contents_eq cell hplain hcell :=
    (contents_of_isPlain h.sameMemory.ram_eq h.memory_eq hplain).trans
      (hbefore.contents_eq cell hplain hcell)

end TimePassed

theorem timePassed_iterate (machine : Machine β) (limit : Nat) :
    machine.worked.TimePassed (Exec.iterate limit machine).2 := by
  have hrefl : machine.worked.TimePassed machine.worked := ⟨rfl, rfl⟩
  rw [iterate_snd]
  exact hrefl.account _

theorem ahead_eq (machine : Machine β) : machine.ahead =
    Instruction.ofOpcode? machine.cpu.config.instructionSet
      (machine.heldWord machine.cpu.pc) := by
  obtain ⟨fetched, hfetch, _⟩ := Exec.fetch_spec (.refl machine)
  rw [ahead, hfetch]

theorem ahead_released (machine : Machine β) : machine.released.ahead = machine.ahead := by
  rw [ahead_eq, ahead_eq]
  rfl

omit [RamBus β] in
theorem worked_of_rtwp (hawake : machine.checked.cpu.idle = false)
    (hahead : machine.checked.ahead = some .rtwp) :
    machine.worked = (Exec.rtwp (Exec.fetch machine.checked).2).2 ∧
      machine.executes = some .rtwp := by
  have hfound := found_of_ahead hahead nofun
  have hexecutes : machine.executes = some .rtwp := by
    rw [executes_of_awake hawake, hfound]
  refine ⟨?_, hexecutes⟩
  rw [worked_of_executes hexecutes nofun, hfound]
  rfl

/-- An iteration that fetches RTWP goes back to the program that a context switch has left. -/
theorem HasSaved.resumes_iterate {config : Config} {extra : List (UInt16 × UInt16)}
    (h : entry.HasSaved (entry.frame ++ extra) machine.checked)
    (hentry : entry.cpu.IsConsistent config)
    (hmask : Status.writable &&& ~~~config.statusMask = 0)
    (hawake : machine.checked.cpu.idle = false) (hahead : machine.checked.ahead = some .rtwp)
    (limit : Nat) :
    entry.Resumes (machine.checked.cpu.registerCells ((entry.frame ++ extra).map Prod.fst))
      (Exec.iterate limit machine).2 := by
  obtain ⟨fetched, hfetch, hcpu, hmemory⟩ := Exec.fetch_spec (.refl machine.checked)
  have hsame : machine.checked.SameMemory fetched := by
    refine ⟨?_, ?_, ?_, hmemory⟩
    · exact congrArg (·.config) hcpu
    · exact congrArg (·.wp) hcpu
    · exact congrArg (·.chip.ram) hcpu
  have hst := hentry.st_masked hmask
  rw [← hentry.config_eq] at hst
  have hresumes := (h.of_sameMemory hsame).resumes_rtwp (List.subset_append_left _ _)
    hentry.pc_even hentry.wp_even hst
  rw [hsame.registerCells_eq] at hresumes
  refine (machine.timePassed_iterate limit).resumes ?_
  rw [(worked_of_rtwp hawake hahead).1, hfetch]
  exact hresumes

theorem sameMemory_service (machine : Machine β) (status : UInt16 → UInt16) (line : UInt8) :
    let served := (Exec.wake (Exec.acknowledge line (Exec.modifySt status machine).2).2).2
    machine.SameMemory served ∧ served.cpu.idle = false := by
  let acknowledged := (Exec.acknowledge line (Exec.modifySt status machine).2).2
  have hmemory : memory acknowledged.bus = memory machine.bus :=
    memory_acknowledge machine.bus line
  intro served
  have hserved : served = if acknowledged.cpu.idle then (Exec.setIdle false acknowledged).2
      else acknowledged := by
    change ((if acknowledged.cpu.idle then Exec.setIdle false else pure () : Exec β Unit)
      acknowledged).2 = _
    split
    · rfl
    · rfl
  rw [hserved]
  split
  · exact ⟨⟨rfl, rfl, rfl, (memory_idleChanged _ false).trans hmemory⟩, rfl⟩
  · next hidle => exact ⟨⟨rfl, rfl, rfl, hmemory⟩, Bool.eq_false_iff.mpr hidle⟩

theorem hasSaved_checked (hsize : machine.cpu.chip.ram.size = 0x100)
    (hmask : machine.cpu.config.addressMask &&& 0x3FFF = 0x3FFF)
    (hacknowledged : machine.acknowledged ≠ [])
    (hplain : machine.checked.cpu.HasPlain [13, 14, 15]) :
    machine.HasSaved machine.frame machine.checked ∧ machine.checked.cpu.idle = false := by
  rw [acknowledged] at hacknowledged
  cases hsuppress : machine.cpu.suppress with
  | true =>
      rw [hsuppress] at hacknowledged
      exact absurd rfl hacknowledged
  | false =>
      cases hpending : machine.cpu.pending with
      | none =>
          rw [hsuppress, hpending] at hacknowledged
          exact absurd rfl hacknowledged
      | some pending =>
          have hreleased : machine.released.cpu.pending = some pending := hpending
          rw [checked_eq, hsuppress, if_neg Bool.false_ne_true,
            Exec.serviceInterrupt_snd hreleased] at hplain ⊢
          obtain ⟨hsame, hawake⟩ := sameMemory_service (Exec.contextSwitch
            (Exec.interruptVector machine.released.cpu.config pending) machine.released).2
            (Exec.serviceStatus machine.released.cpu.config pending) pending.line
          rw [hsame.hasPlain_eq] at hplain
          have hreleasedSize : machine.released.cpu.chip.ram.size = 0x100 := hsize
          have hsaved :=
            (hasSaved_contextSwitch hreleasedSize hmask _ hplain).of_sameMemory hsame
          exact ⟨{ hsaved with }, hawake⟩

end Machine

namespace Exec

variable {machine : Machine β}

theorem xop_snd {opcode address : UInt16} {cycles : Nat} {entry : Machine β}
    (h : resolve (.source opcode) .word machine = ((address, cycles), entry)) :
    ∃ vector, (save [(11, address)] (contextSwitch vector entry).2).2.SameMemory
      (xop opcode machine).2 := by
  rw [xop, bind_of_eq h]
  dsimp only
  refine ⟨0x0040 + 4 * registerField opcode, ?_⟩
  rw [bind_snd, bind_snd]
  generalize (contextSwitch (0x0040 + 4 * registerField opcode) entry).2 = switched
  rw [save_cons, writeRegister_eq]
  generalize (writeWord (switched.cpu.registerAddress 11) address switched).2 = saved
  exact ⟨rfl, rfl, rfl, rfl⟩

theorem blwp_snd {opcode address : UInt16} {cycles : Nat} {entry : Machine β}
    (h : resolve (.source opcode) .word machine = ((address, cycles), entry)) :
    (contextSwitch address entry).2.SameMemory (single opcode .blwp machine).2 := by
  rw [single, bind_of_eq h]
  dsimp only [singleAt]
  rw [bind_snd, bind_snd]
  generalize (contextSwitch address entry).2 = switched
  exact ⟨rfl, rfl, rfl, rfl⟩

theorem hasSaved_perform {instruction : Instruction} (hholds : instruction.HoldsInterrupts)
    {opcode address : UInt16} {cycles : Nat} {entry : Machine β}
    (hresolve : resolve (.source opcode) .word machine = ((address, cycles), entry))
    (hsize : entry.cpu.chip.ram.size = 0x100)
    (hmask : entry.cpu.config.addressMask &&& 0x3FFF = 0x3FFF)
    (hplain : (perform opcode instruction machine).2.cpu.HasPlain instruction.savedRegisters) :
    ∃ extra, (entry.frame ++ extra).map Prod.fst = instruction.savedRegisters ∧
      entry.HasSaved (entry.frame ++ extra) (perform opcode instruction machine).2 := by
  rcases hholds with rfl | rfl
  · obtain ⟨vector, hsame⟩ := xop_snd hresolve
    have hperform : perform opcode .xop machine = xop opcode machine := rfl
    rw [hperform] at hplain ⊢
    rw [hsame.hasPlain_eq, Cpu.eq_of_core (·.HasPlain) (fun _ => rfl) (core_save _ _)] at hplain
    have hswitch := Machine.hasSaved_contextSwitch hsize hmask vector
      (hplain.mono (by simp [Instruction.savedRegisters]))
    have hlink : (Exec.contextSwitch vector entry).2.cpu.HasPlain
        ([(11, address)].map Prod.fst) :=
      hplain.mono (by simp [Instruction.savedRegisters])
    have hsaved := hswitch.save hmask hlink (by simp [Machine.frame]) (by simp [Machine.frame])
    exact ⟨_, rfl, hsaved.of_sameMemory hsame⟩
  · have hsame := blwp_snd hresolve
    have hperform : perform opcode (.single .blwp) machine = single opcode .blwp machine := rfl
    rw [hperform] at hplain ⊢
    rw [hsame.hasPlain_eq] at hplain
    have hswitch := Machine.hasSaved_contextSwitch hsize hmask address hplain
    refine ⟨[], rfl, ?_⟩
    rw [List.append_nil]
    exact hswitch.of_sameMemory hsame

end Exec

namespace Machine

variable {config : Config} {machine : Machine β}

omit [RamBus β] in
theorem isConsistent_resolved (h : machine.cpu.IsConsistent config) :
    machine.resolved.2.cpu.IsConsistent config := by
  have hstable := Cpu.isConsistent_hostStable config
  have hflags := hstable.toFlagStable.machine (β := β)
  exact corresponds_self_iff.mp (hflags.simulation.resolve _ _) machine.found.2
    (hflags.found (hstable.toServiceStable.checked h))

theorem hasSaved_worked (h : machine.cpu.IsConsistent config)
    (hmask : config.addressMask &&& 0x3FFF = 0x3FFF) {instruction : Instruction}
    (hexecutes : instruction ∈ machine.executes) (hholds : instruction.HoldsInterrupts)
    (hplain : machine.worked.cpu.HasPlain instruction.savedRegisters) :
    ∃ extra, (machine.resolved.2.frame ++ extra).map Prod.fst = instruction.savedRegisters ∧
      machine.resolved.2.HasSaved (machine.resolved.2.frame ++ extra) machine.worked := by
  have hresolved := isConsistent_resolved h
  have hx : instruction ≠ .x := by
    rcases hholds with rfl | rfl
    · nofun
    · nofun
  rw [worked_of_executes hexecutes hx] at hplain ⊢
  exact Exec.hasSaved_perform hholds rfl hresolved.ram_size (hresolved.config_eq ▸ hmask) hplain

omit [RamBus β] in
theorem idle_worked {instruction : Instruction} (hexecutes : instruction ∈ machine.executes)
    (hidle : instruction ≠ .idle) : machine.worked.cpu.idle = false := by
  have hstable := Cpu.stable_of_idle_suppress fun idle _ => idle = false
  refine hstable.toFlagStable.machine.worked (fun _ _ _ _ hstate => hstate) (fun hsome => ?_)
    (fun _ _ _ => hstable.simulation) (awake_of_executes hexecutes)
  exact absurd (Option.some.inj (hexecutes.symm.trans hsome)) hidle

/-- After BLWP and XOP the next iteration starts without an interrupt, whatever the lines are
like. -/
theorem checked_of_holds {instruction : Instruction} (hexecutes : instruction ∈ machine.executes)
    (hholds : instruction.HoldsInterrupts) {next : Machine β}
    (hpassed : machine.worked.TimePassed next) :
    next.acknowledged = [] ∧ next.checked = next.released ∧ next.checked.cpu.idle = false := by
  have hsuppress : next.cpu.suppress = true :=
    (Cpu.eq_of_still (·.suppress) (fun _ => rfl) hpassed.still_eq).trans
      (suppress_worked_of_holds hexecutes hholds)
  have hidle : instruction ≠ .idle := by
    rcases hholds with rfl | rfl
    · nofun
    · nofun
  have hchecked : next.checked = next.released := by
    rw [checked_eq, hsuppress, if_pos rfl]
  refine ⟨?_, hchecked, ?_⟩
  · rw [acknowledged, hsuppress, if_pos rfl]
  · rw [hchecked]
    exact (Cpu.eq_of_still (·.idle) (fun _ => rfl) hpassed.still_eq).trans
      (idle_worked hexecutes hidle)

end Machine

/-- RTWP undoes a context switch that it follows at once: the program that was left goes on with
the same workspace, program counter and status, and finds its memory as it was, but for the
registers of the other workspace.  No interrupt comes between when the switch was BLWP or XOP. -/
theorem rtwp_undoes_context_switch (variant : Variant) {machine : Machine β}
    (h : machine.Reachable variant.config) :
    (machine.acknowledged ≠ [] → machine.checked.cpu.HasPlain [13, 14, 15] →
      machine.checked.ahead = some .rtwp → ∀ limit,
        machine.Resumes (machine.checked.cpu.registerCells [13, 14, 15])
          (Exec.iterate limit machine).2) ∧
    ∀ instruction ∈ machine.executes, instruction.HoldsInterrupts → ∀ limit signals,
      let next := (Exec.iterate limit machine).2.driven signals
      next.cpu.HasPlain instruction.savedRegisters → next.ahead = some .rtwp →
        next.acknowledged = [] ∧ next.executes = some .rtwp ∧ ∀ limit',
          machine.resolved.2.Resumes (next.cpu.registerCells instruction.savedRegisters)
            (Exec.iterate limit' next).2 := by
  have hconsistent := h.isConsistent
  have hmask : variant.config.addressMask &&& 0x3FFF = 0x3FFF := by
    cases variant with
    | tms9900 | tms9980A | tms9995 => rfl
  have hwritable : Status.writable &&& ~~~variant.config.statusMask = 0 := by
    cases variant with
    | tms9900 | tms9980A | tms9995 => decide
  constructor
  · intro hacknowledged hplain hahead limit
    obtain ⟨hsaved, hawake⟩ := Machine.hasSaved_checked hconsistent.ram_size
      (hconsistent.config_eq ▸ hmask) hacknowledged hplain
    have hsaved : machine.HasSaved (machine.frame ++ []) machine.checked := hsaved
    exact hsaved.resumes_iterate hconsistent hwritable hawake hahead limit
  · intro instruction hexecutes hholds limit signals next hplain hahead
    -- Neither the clock nor the lines that are driven touch the words that have been saved.
    have hpassed : machine.worked.TimePassed next :=
      (machine.timePassed_iterate limit).driven signals
    obtain ⟨hacknowledged, hchecked, hawake⟩ :=
      Machine.checked_of_holds hexecutes hholds hpassed
    have hsame : next.SameMemory next.checked := by
      rw [hchecked]
      exact ⟨rfl, rfl, rfl, rfl⟩
    rw [hpassed.sameMemory.hasPlain_eq] at hplain
    obtain ⟨extra, hregisters, hsaved⟩ :=
      Machine.hasSaved_worked hconsistent hmask hexecutes hholds hplain
    have hsaved := (hsaved.of_sameMemory hpassed.sameMemory).of_sameMemory hsame
    rw [← Machine.ahead_released, ← hchecked] at hahead
    refine ⟨hacknowledged, (Machine.worked_of_rtwp hawake hahead).2, fun limit' => ?_⟩
    rw [← hregisters, ← hsame.registerCells_eq]
    exact hsaved.resumes_iterate (Machine.isConsistent_resolved hconsistent) hwritable hawake
      hahead limit'

/-- Before a BLWP through the vector of level 1, whose handler consists of RTWP alone. -/
def Machine.beforeSwitch : Machine FlatBus :=
  let vector := (Memory.zero.pokeWord 0x0004 0x0300).pokeWord 0x0006 0x0400
  let program := (vector.pokeWord 0x0200 0x0420).pokeWord 0x0202 0x0004
  let new : Machine FlatBus :=
    ⟨.ofConfig Variant.tms9900.config, { memory := program.pokeWord 0x0400 0x0380 }⟩
  { new with cpu := ((new.cpu.setWp 0x0100).setPc 0x0200).setSt 0x8001 }

theorem Machine.beforeSwitch_reachable : beforeSwitch.Reachable Variant.tms9900.config := by
  let new : Machine FlatBus := ⟨.ofConfig Variant.tms9900.config, beforeSwitch.bus⟩
  have hnew : new.Reachable Variant.tms9900.config := .create
  exact hnew.place 0x0100 0x0200 0x8001

/-- An interrupt through the vector is undone, and so is the BLWP although the same interrupt waits
behind it. -/
theorem rtwp_undoes_context_switch_through_vector :
    let machine := Machine.beforeSwitch
    let interrupted := { machine with cpu := machine.cpu.drive 1 .asserted }
    let next := (Exec.iterate 100 machine).2.driven [(1, .asserted)]
    interrupted.Reachable Variant.tms9900.config ∧ interrupted.acknowledged = [1] ∧
      interrupted.Resumes (interrupted.checked.cpu.registerCells [13, 14, 15])
        (Exec.iterate 100 interrupted).2 ∧
      machine.executes = some (.single .blwp) ∧ machine.resolved.2.cpu.pc = 0x0204 ∧
      next.cpu.pending = some ⟨1, 1⟩ ∧ next.executes = some .rtwp ∧
      machine.resolved.2.Resumes (next.cpu.registerCells [13, 14, 15])
        (Exec.iterate 100 next).2 := by
  intro machine interrupted next
  have hmachine : machine.Reachable Variant.tms9900.config := Machine.beforeSwitch_reachable
  have hdrive : machine.perform (.drive 1 .asserted) = some (.done, interrupted) := rfl
  have hinterrupted : interrupted.Reachable Variant.tms9900.config :=
    hmachine.perform (by nofun) hdrive
  have hacknowledged : interrupted.acknowledged = [1] := by decide +kernel
  have hexecutes : machine.executes = some (.single .blwp) := by decide +kernel
  obtain ⟨hservice, _⟩ := rtwp_undoes_context_switch .tms9900 hinterrupted
  obtain ⟨_, hswitch⟩ := rtwp_undoes_context_switch .tms9900 hmachine
  obtain ⟨_, hnext, hresumes⟩ := hswitch (.single .blwp) hexecutes (.inr rfl) 100 [(1, .asserted)]
    (Cpu.hasPlain_of_not_onChip (by decide +kernel) _) (by decide +kernel)
  refine ⟨hinterrupted, hacknowledged, ?_, hexecutes, by decide +kernel, by decide +kernel, hnext,
    hresumes 100⟩
  exact hservice (by rw [hacknowledged]; nofun)
    (Cpu.hasPlain_of_not_onChip (by decide +kernel) _) (by decide +kernel) 100

end TmsCores.Tms9900
