import TmsCores.Proofs.Tms9900.Comparison
import TmsCores.Proofs.Tms9900.Overflow
import TmsCores.Proofs.Tms9900.RegisterPair

namespace TmsCores.Tms9900

/-- What an operation with two operands leaves compared. -/
def DualOperation.comparison (operation : DualOperation) (width : Width) (s d : UInt16) :
    Comparison :=
  match operation with
  | .mov => .ofResult width s
  | .szc => .ofResult width (d &&& ~~~s)
  | .soc => .ofResult width (d ||| s)
  | .a => .ofResult width ((d + s) &&& width.mask)
  | .s => .ofResult width ((d - s) &&& width.mask)
  | .c => ⟨width, s, d⟩

/-- What an operation makes of its operand, if it compares that with zero. -/
def SingleOperation.result? : SingleOperation → Option (UInt16 → UInt16)
  | .inv => some (~~~·)
  | .neg => some (0 - ·)
  | .inc => some (· + 1)
  | .inct => some (· + 2)
  | .dec => some (· - 1)
  | .dect => some (· - 2)
  | .blwp | .b | .clr | .bl | .swpb | .seto | .abs => none

def Instruction.leavesComparison : Instruction → Bool
  | .dual _ _ | .bitwise .xor | .shift _ | .immediate _ => true
  | .single .inv | .single .neg | .single .inc | .single .inct => true
  | .single .dec | .single .dect => true
  | _ => false

/-- How far a jump goes from the word after it, in bytes. -/
def JumpCondition.distance (condition : JumpCondition) (opcode st : UInt16) : Int :=
  if condition.holds st then 2 * Width.byte.signed opcode else 0

variable {α β : Type} [Bus β]

namespace Exec

/-- What an instruction compares, if it leaves a comparison of operands or of its result.  The
operands are read as the instruction reads them. -/
def comparison (opcode : UInt16) : Instruction → Option (Exec β Comparison)
  | .dual operation width => some do
      let operands ← dualOperands opcode operation width
      return operation.comparison width operands.2 operands.1
  | .bitwise .xor => some do
      let source ← sourceWord opcode
      let d ← readRegister (registerField opcode)
      return .ofResult .word (d ^^^ source.1)
  | .shift operation => some do
      let count ← shiftCount opcode
      let value ← readRegister (opcode &&& 0xF)
      return .ofResult .word (Shifted.shift operation count.1 { value := value }).value
  | .single operation => operation.result?.map fun result => do
      return .ofResult .word (result (← singleOperand opcode))
  | .immediate .li => some (return .ofResult .word (← fetch))
  | .immediate .ai => some do
      let operand ← fetch
      return .ofResult .word ((← readRegister (opcode &&& 0xF)) + operand)
  | .immediate .andi => some do
      let operand ← fetch
      return .ofResult .word ((← readRegister (opcode &&& 0xF)) &&& operand)
  | .immediate .ori => some do
      let operand ← fetch
      return .ofResult .word ((← readRegister (opcode &&& 0xF)) ||| operand)
  | .immediate .ci => some do
      let operand ← fetch
      return ⟨.word, ← readRegister (opcode &&& 0xF), operand⟩
  | _ => none

theorem comparison_isSome (opcode : UInt16) (instruction : Instruction) :
    (comparison (β := β) opcode instruction).isSome = instruction.leavesComparison := by
  cases instruction with
  | bitwise operation | single operation | immediate operation => cases operation <;> rfl
  | _ => rfl

/-- What an instruction compares is what it leaves in the status register. -/
def LeavesCompared (find : Exec β Comparison) (x : Exec β α) : Prop :=
  Foretells (fun _ => True) (fun comparison => Machine.Has fun cpu =>
    Status.Compares cpu.st comparison) find x

theorem compared_operands (comparison : Comparison) : OperandSimulation (SameWith
    (Machine.Has (fun cpu => Status.Compares cpu.st comparison) : Machine β → Prop)) :=
  (Cpu.accessStable_of_st (Status.Compares · comparison)).machine.transfers.operands

omit [Bus β] in
theorem LeavesCompared.bind {γ : Type} {y : Exec β γ} {f : γ → Exec β Comparison}
    {g : γ → Exec β α} (h : ∀ value, LeavesCompared (f value) (g value)) :
    LeavesCompared (y >>= f) (y >>= g) :=
  Foretells.bind (fun _ _ => trivial) h

section

omit [Bus β]

theorem modifySt_compares {change : UInt16 → UInt16} {comparison : Comparison}
    (h : ∀ st, Status.Compares (change st) comparison) :
    Leads (fun _ => True) (Machine.Has (fun cpu => Status.Compares cpu.st comparison) :
      Machine β → Prop) (modifySt change) :=
  fun machine _ => h machine.cpu.st

theorem withBit_keeps_compared {bit : UInt16} (hbit : bit &&& Status.comparison = 0) (set : Bool)
    (comparison : Comparison) :
    Keeps (Machine.Has (fun cpu => Status.Compares cpu.st comparison) : Machine β → Prop)
      (modifySt (Word.withBit · bit set)) :=
  fun _ hmachine => Status.Compares.withBit hmachine hbit set

theorem overflowTrap_keeps_compared (comparison : Comparison) :
    Keeps (Machine.Has (fun cpu => Status.Compares cpu.st comparison) : Machine β → Prop)
      (modifyCpu Cpu.overflowTrap) := by
  intro machine hmachine
  change Status.Compares machine.cpu.overflowTrap.st comparison
  rw [Cpu.st_overflowTrap]
  exact hmachine

theorem setArithmetic_compares (result : UInt16) (flags : FlagSet) (width : Width) :
    Leads (fun _ => True) (Machine.Has (fun cpu =>
      Status.Compares cpu.st (.ofResult width result)) : Machine β → Prop)
      (setArithmetic result flags width) := by
  refine (modifySt_compares fun st => Status.compares_arithmetic st _ _ width).bind fun _ => ?_
  exact .ite (fun _ => overflowTrap_keeps_compared _) fun _ => Keeps.pure _

theorem combine_compares (operation : DualOperation) (width : Width) (s d : UInt16) :
    Leads (fun _ => True) (Machine.Has (fun cpu =>
      Status.Compares cpu.st (operation.comparison width s d)) : Machine β → Prop)
      (combine operation width s d) := by
  cases operation with
  | mov | szc | soc =>
      exact (modifySt_compares fun st => Status.compares_result st _ width).bind fun _ =>
        Keeps.pure _
  | a | s => exact (setArithmetic_compares _ _ width).bind fun _ => Keeps.pure _
  | c =>
      -- A byte also gives its parity away, which is none of the bits that compare.
      refine (modifySt_compares fun st => ?_).bind fun _ => Keeps.pure _
      have hcompares := Status.compares_compare st s d width
      cases width with
      | byte => exact hcompares.withBit (by decide) _
      | word => exact hcompares

end

theorem dual_compares (opcode : UInt16) (operation : DualOperation) (width : Width) :
    LeavesCompared (β := β) (do
      let operands ← dualOperands opcode operation width
      return operation.comparison width operands.2 operands.1) (dual opcode operation width) := by
  simp only [dualOperands, bind_assoc, pure_bind]
  refine .bind fun source => .bind fun s => .bind fun target => .bind fun d => ?_
  refine .pure ((combine_compares operation width s d).bind fun result => ?_)
  cases result with
  | none => exact Keeps.pure _
  | some value =>
      exact (corresponds_self_iff.mp ((compared_operands _).writeOperand _ width value)).seq
        (Keeps.pure _)

theorem xor_compares (opcode : UInt16) :
    LeavesCompared (β := β) (do
      let source ← sourceWord opcode
      let d ← readRegister (registerField opcode)
      return .ofResult .word (d ^^^ source.1)) (bitwise opcode .xor) := by
  refine .bind fun source => .bind fun d => .pure ?_
  refine (modifySt_compares fun st => Status.compares_compareZero st _ .word).bind fun _ => ?_
  exact (corresponds_self_iff.mp ((compared_operands _).writeRegister _ _)).seq (Keeps.pure _)

theorem shift_compares (opcode : UInt16) (operation : ShiftOperation) :
    LeavesCompared (β := β) (do
      let count ← shiftCount opcode
      let value ← readRegister (opcode &&& 0xF)
      return .ofResult .word (Shifted.shift operation count.1 { value := value }).value)
      (shift opcode operation) := by
  refine .bind fun count => .bind fun value => .pure ?_
  refine Leads.after _ fun _ => ?_
  refine (modifySt_compares fun st =>
    (Status.compares_compareZero st _ .word).withBit (by decide) _).bind fun _ => ?_
  -- What SLA adds comes after the comparison and must not undo it.
  refine Leads.ite (fun _ => ?_) fun _ => cpu_keeps
  refine Leads.bind (withBit_keeps_compared (by decide) _ _) fun _ => ?_
  exact .ite (fun _ => (overflowTrap_keeps_compared _).bind fun _ => cpu_keeps) fun _ => cpu_keeps

theorem single_compares {operation : SingleOperation} {result : UInt16 → UInt16}
    (hresult : operation.result? = some result) (opcode : UInt16) :
    LeavesCompared (β := β) (do return .ofResult .word (result (← singleOperand opcode)))
      (single opcode operation) := by
  simp only [singleOperand, bind_assoc]
  refine .bind fun source => ?_
  have hwrite (value : UInt16) : Keeps (Machine.Has fun cpu =>
      Status.Compares cpu.st (.ofResult .word value)) (writeWord (β := β) source.1 value) :=
    corresponds_self_iff.mp ((compared_operands _).writeWord source.1 value)
  have hincrease (step : UInt16) : LeavesCompared (do
      return .ofResult .word ((← readWord source.1) + step)) (increase (β := β) source.1 step) :=
    .bind fun v => .pure ((setArithmetic_compares _ _ .word).bind fun _ => hwrite _)
  have hdecrease (step : UInt16) : LeavesCompared (do
      return .ofResult .word ((← readWord source.1) - step)) (decrease (β := β) source.1 step) :=
    .bind fun v => .pure ((setArithmetic_compares _ _ .word).bind fun _ => hwrite _)
  suffices hat : LeavesCompared (return .ofResult .word (result (← readWord source.1)))
      (singleAt (β := β) operation source.1) from hat.andThen fun _ _ => Keeps.pure _
  cases operation with
  | blwp | b | clr | bl | swpb | seto | abs =>
      exact absurd hresult.symm (Option.some_ne_none _)
  | inv =>
      obtain rfl := Option.some.inj hresult
      refine .bind fun v => .pure ?_
      refine (modifySt_compares fun st => Status.compares_compareZero st _ .word).bind fun _ => ?_
      exact (hwrite _).seq (Keeps.pure _)
  | neg =>
      obtain rfl := Option.some.inj hresult
      refine .bind fun v => .pure ?_
      exact (setArithmetic_compares _ _ .word).bind fun _ => (hwrite _).seq (Keeps.pure _)
  | inc | inct =>
      obtain rfl := Option.some.inj hresult
      exact (hincrease _).andThen fun _ _ => Keeps.pure _
  | dec | dect =>
      obtain rfl := Option.some.inj hresult
      exact (hdecrease _).andThen fun _ _ => Keeps.pure _

theorem immediate_compares {opcode : UInt16} {operation : ImmediateOperation}
    {find : Exec β Comparison} (hfind : comparison opcode (.immediate operation) = some find) :
    LeavesCompared find (immediate opcode operation) := by
  have hwrite (number value : UInt16) : Keeps (Machine.Has fun cpu =>
      Status.Compares cpu.st (.ofResult .word value)) (writeRegister (β := β) number value) :=
    corresponds_self_iff.mp ((compared_operands _).writeRegister number value)
  have hzero (value : UInt16) : Leads (fun _ => True) (Machine.Has fun cpu =>
      Status.Compares cpu.st (.ofResult .word value))
      (modifySt (β := β) (Status.compareZero · value .word)) :=
    modifySt_compares fun st => Status.compares_compareZero st value .word
  cases operation with
  | li =>
      obtain rfl := Option.some.inj hfind
      exact .bind fun operand => .pure ((hzero _).bind fun _ => hwrite _ _)
  | ai =>
      obtain rfl := Option.some.inj hfind
      refine .bind fun operand => .bind fun v => .pure ?_
      exact (setArithmetic_compares _ _ .word).bind fun _ => hwrite _ _
  | andi | ori =>
      obtain rfl := Option.some.inj hfind
      exact .bind fun operand => .bind fun v => .pure ((hzero _).bind fun _ => hwrite _ _)
  | ci =>
      obtain rfl := Option.some.inj hfind
      refine .bind fun operand => .bind fun v => .pure ?_
      exact modifySt_compares fun st => Status.compares_compare st _ _ .word

theorem perform_compares {opcode : UInt16} {instruction : Instruction} {find : Exec β Comparison}
    (hfind : comparison opcode instruction = some find) :
    LeavesCompared find (perform opcode instruction) := by
  cases instruction with
  | dual operation width =>
      obtain rfl := Option.some.inj hfind
      exact dual_compares opcode operation width
  | bitwise operation =>
      cases operation with
      | coc | czc => exact absurd hfind nofun
      | xor =>
          obtain rfl := Option.some.inj hfind
          exact xor_compares opcode
  | shift operation =>
      obtain rfl := Option.some.inj hfind
      exact shift_compares opcode operation
  | single operation =>
      obtain ⟨result, hresult, rfl⟩ := Option.map_eq_some_iff.mp hfind
      exact single_compares hresult opcode
  | immediate operation => exact (immediate_compares hfind).andThen fun _ _ => Keeps.pure _
  | _ => exact absurd hfind nofun

omit [Bus β] in
theorem jump_snd (opcode : UInt16) (condition : JumpCondition) (machine : Machine β) :
    (jump opcode condition machine).2 =
      if condition.holds machine.cpu.st then
        { machine with cpu := machine.cpu.skip (Word.signExtend (Word.low opcode)) }
      else machine := by
  rw [jump, cpu_bind]
  split
  · rfl
  · rfl

end Exec

theorem Cpu.toNat_pc_skip (cpu : Cpu) (opcode : UInt16) :
    ((cpu.skip (Word.signExtend (Word.low opcode))).pc.toNat : Int) =
      (cpu.pc.toNat + 2 * Width.byte.signed opcode) % 0x10000 := by
  have hdisplacement := Word.toNat_signExtend_low opcode
  rw [Cpu.skip, UInt16.toNat_add, UInt16.toNat_mul]
  simp only [UInt16.reduceToNat, Nat.reducePow]
  omega

namespace Machine

/-- What an iteration compares, if it executes an instruction that leaves a comparison. -/
def compares (machine : Machine β) : Option Comparison :=
  (machine.executes.bind (Exec.comparison machine.found.1.opcode)).map fun find =>
    (find machine.found.2).1

/-- Since some moment the program has gone on at another place, and nothing has been written. -/
structure Jumps (before : Machine β) (target : Int) (machine : Machine β) : Prop where
  pc_eq : (machine.cpu.pc.toNat : Int) = target % 0x10000
  inspected : ({ before with cpu.pc := machine.cpu.pc } : Machine β).Inspected machine

variable {machine : Machine β}

theorem compares_isSome (machine : Machine β) :
    machine.compares.isSome = machine.executes.any (·.leavesComparison) := by
  rw [compares, Option.isSome_map]
  cases machine.executes with
  | none => rfl
  | some instruction => exact Exec.comparison_isSome machine.found.1.opcode instruction

theorem compares_worked {comparison : Comparison} (hcompares : comparison ∈ machine.compares) :
    Status.Compares machine.worked.cpu.st comparison ∧ machine.worked.cpu.suppress = false := by
  obtain ⟨find, hfind, rfl⟩ := Option.map_eq_some_iff.mp hcompares
  obtain ⟨instruction, hexecutes, hfind⟩ := Option.bind_eq_some_iff.mp hfind
  constructor
  · have hx : instruction ≠ .x := by
      rintro rfl
      exact absurd hfind nofun
    rw [worked_of_executes hexecutes hx]
    exact Exec.perform_compares hfind machine.found.2 trivial
  · refine suppress_worked_of_not_holds fun other hother hholds => ?_
    obtain rfl := Option.some.inj (hexecutes.symm.trans hother)
    rcases hholds with rfl | rfl
    · exact absurd hfind nofun
    · exact absurd hfind nofun

theorem jumps_of_perform {condition : JumpCondition} (opcode : UInt16) (machine : Machine β) :
    machine.Jumps (machine.cpu.pc.toNat + condition.distance opcode machine.cpu.st)
      (Exec.perform opcode (.jump condition) machine).2 := by
  have hjump : (Exec.perform opcode (.jump condition) machine).2 =
      (Exec.jump opcode condition machine).2 := rfl
  rw [hjump, Exec.jump_snd, JumpCondition.distance]
  have hlt : machine.cpu.pc.toNat < 0x10000 := machine.cpu.pc.toNat_lt
  split
  · exact ⟨machine.cpu.toNat_pc_skip opcode, rfl, .refl⟩
  · exact ⟨by omega, .refl machine⟩

/-- Without an interrupt the instruction after a comparison starts from the processor that the
comparison has left, but for its clocks and its interrupt lines. -/
theorem compares_checked {comparison : Comparison} (hcompares : comparison ∈ machine.compares)
    (limit : Nat) (signals : List (UInt8 × LineState)) {next : Machine β}
    (hnext : next = (Exec.iterate limit machine).2.driven signals)
    (hacknowledged : next.acknowledged = []) :
    next.checked.cpu = next.cpu ∧ Status.Compares next.checked.cpu.st comparison := by
  obtain ⟨hst, hreleased⟩ := compares_worked hcompares
  have hstill : next.cpu.still = machine.worked.cpu.still := by
    rw [hnext, still_driven, still_iterate]
  rw [← Cpu.eq_of_still (·.st) (fun _ => rfl) hstill] at hst
  rw [← Cpu.eq_of_still (·.suppress) (fun _ => rfl) hstill] at hreleased
  have hpending : next.cpu.pending = none := by
    rw [acknowledged, hreleased, if_neg Bool.false_ne_true, List.map_eq_nil_iff] at hacknowledged
    exact Option.toList_eq_nil_iff.mp hacknowledged
  have hchecked : next.checked.cpu = next.cpu := by
    have hnone : next.released.cpu.pending = none := hpending
    rw [checked_eq, hreleased, if_neg Bool.false_ne_true, Exec.serviceInterrupt_of_none hnone]
    change { next.cpu with suppress := false } = next.cpu
    rw [← hreleased]
  exact ⟨hchecked, hchecked ▸ hst⟩

theorem jumps_worked {condition : JumpCondition}
    (hexecutes : machine.executes = some (.jump condition)) :
    machine.found.2.Jumps (machine.found.2.cpu.pc.toNat +
      condition.distance machine.found.1.opcode machine.checked.cpu.st) machine.worked := by
  have hst : machine.found.2.cpu.st = machine.checked.cpu.st :=
    (Cpu.accessStable_of_st (· = machine.checked.cpu.st)).machine.found rfl
  rw [worked_of_executes hexecutes nofun, ← hst]
  exact jumps_of_perform _ _

theorem jumps_of_ahead {condition : JumpCondition}
    (hexecutes : machine.executes = some (.jump condition))
    (hahead : machine.checked.ahead = some (.jump condition)) :
    machine.checked.Jumps (machine.checked.cpu.pc.toNat + 2 +
      condition.distance (Exec.fetch machine.checked).1 machine.checked.cpu.st) machine.worked := by
  -- The fetch has moved on to the next word, and has done nothing else but read.
  obtain ⟨hpc, hinspected⟩ := jumps_worked hexecutes
  have hfetched := Exec.fetch_inspects machine.checked
  rw [found_of_ahead hahead nofun] at hpc hinspected
  rw [Exec.cpu_fetch] at hpc
  constructor
  case pc_eq =>
    have hskip : (machine.checked.cpu.skip 1).pc.toNat =
        (machine.checked.cpu.pc.toNat + 2) % 0x10000 :=
      UInt16.toNat_add _ _
    rw [hpc, hskip]
    dsimp only
    omega
  case inspected =>
    constructor
    case cpu_eq =>
      rw [hinspected.cpu_eq, Exec.cpu_fetch]
      rfl
    case onlyRead => exact hfetched.onlyRead.trans hinspected.onlyRead

end Machine

/-- A conditional jump after a comparison goes by the order of what has been compared, unless an
interrupt comes in between.  Any jump moves the program counter and does nothing else; a jump that X
leads to starts from the end of that X. -/
theorem jumps_by_order (machine : Machine β) (limit : Nat) (signals : List (UInt8 × LineState)) :
    let next := (Exec.iterate limit machine).2.driven signals
    let st := next.checked.cpu.st
    machine.compares.isSome = machine.executes.any (·.leavesComparison) ∧
    ∀ condition, next.executes = some (.jump condition) →
      (next.acknowledged = [] → ∀ comparison ∈ machine.compares, next.checked.cpu = next.cpu ∧
        ∀ relation ∈ condition.relation?, condition.holds st = true ↔ relation comparison) ∧
      next.found.2.Jumps
        (next.found.2.cpu.pc.toNat + condition.distance next.found.1.opcode st) next.worked ∧
      (next.checked.ahead = some (.jump condition) → next.checked.Jumps
        (next.checked.cpu.pc.toNat + 2 + condition.distance (Exec.fetch next.checked).1 st)
        next.worked) ∧
      ∀ limit', (Exec.iterate limit' next).2.cpu.still = next.worked.cpu.still := by
  intro next st
  refine ⟨machine.compares_isSome, fun condition hexecutes => ⟨?_, ?_, ?_, next.still_iterate⟩⟩
  · intro hacknowledged comparison hcompares
    obtain ⟨hchecked, hst⟩ := Machine.compares_checked hcompares limit signals rfl hacknowledged
    exact ⟨hchecked, fun relation hrelation => hst.holds_iff hrelation⟩
  · exact Machine.jumps_worked hexecutes
  · exact Machine.jumps_of_ahead hexecutes

/-- Before a comparison of -1 with 1, and a jump back by two words if the former is less. -/
def Machine.beforeComparison : Machine FlatBus :=
  let program := (Memory.zero.pokeWord 0x0200 0x8081).pokeWord 0x0202 0x11FD
  let operands := (program.pokeWord 0x0102 0xFFFF).pokeWord 0x0104 0x0001
  let new : Machine FlatBus := ⟨.ofConfig Variant.tms9900.config, { memory := operands }⟩
  { new with cpu := ((new.cpu.setWp 0x0100).setPc 0x0200).setSt 0 }

theorem Machine.beforeComparison_reachable :
    beforeComparison.Reachable Variant.tms9900.config := by
  let new : Machine FlatBus := ⟨.ofConfig Variant.tms9900.config, beforeComparison.bus⟩
  have hnew : new.Reachable Variant.tms9900.config := .create
  exact hnew.place 0x0100 0x0200 0

/-- The jump is taken although the operand is greater as an unsigned number, and not even the
request of a masked interrupt comes in between. -/
theorem jumps_by_order_of_signed_operands :
    let machine := Machine.beforeComparison
    let next := (Exec.iterate 100 machine).2.driven [(1, .asserted)]
    machine.Reachable Variant.tms9900.config ∧ machine.compares = some ⟨.word, 0xFFFF, 1⟩ ∧
      next.acknowledged = [] ∧ next.executes = some (.jump .jlt) ∧
      next.checked.ahead = some (.jump .jlt) ∧
      JumpCondition.jlt.holds next.checked.cpu.st = true ∧ next.checked.cpu.pc = 0x0202 ∧
      (next.worked.cpu.pc.toNat : Int) = 0x0202 + 2 + 2 * -3 := by
  intro machine next
  have hcompares : machine.compares = some ⟨.word, 0xFFFF, 1⟩ := by decide +kernel
  have hacknowledged : next.acknowledged = [] := by decide +kernel
  have hexecutes : next.executes = some (.jump .jlt) := by decide +kernel
  have hahead : next.checked.ahead = some (.jump .jlt) := by decide +kernel
  have hpc : next.checked.cpu.pc = 0x0202 := by decide +kernel
  have hopcode : (Exec.fetch next.checked).1 = 0x11FD := by decide +kernel
  obtain ⟨_, hjump⟩ := jumps_by_order machine 100 [(1, .asserted)]
  obtain ⟨horder, _, hdirect, _⟩ := hjump .jlt hexecutes
  have hless : JumpCondition.jlt.holds next.checked.cpu.st = true :=
    ((horder hacknowledged _ hcompares).2 _ rfl).mpr (by decide)
  have hlanding := (hdirect hahead).pc_eq
  change _ = (next.checked.cpu.pc.toNat + 2 + JumpCondition.jlt.distance
    (Exec.fetch next.checked).1 next.checked.cpu.st : Int) % 0x10000 at hlanding
  rw [JumpCondition.distance, if_pos hless, hopcode, hpc] at hlanding
  exact ⟨Machine.beforeComparison_reachable, hcompares, hacknowledged, hexecutes, hahead, hless,
    hpc, hlanding.trans (by decide +kernel)⟩

end TmsCores.Tms9900
