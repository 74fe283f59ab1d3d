import TmsCores.Proofs.Tms7000.Stability

namespace TmsCores.Tms7000

variable {β : Type} [Bus β]

namespace Exec

/-- How an instruction on the peripheral file finds its destination and what to store there. -/
def combined (source : PeripheralSource) (combine : UInt8 → UInt8 → UInt8) :
    Exec β (Location × UInt8) := do
  let s ← peripheralSource source
  let number ← fetch
  return (.ofPeripheral number, combine s (← readPeripheral number))

/-- How an instruction that can store to the peripheral file finds the location and the value.  All
other instructions write to registers and to the stack only. -/
def storeOperands : Instruction → Option (Exec β (Location × UInt8))
  | .peripheral .mov source => some do
      let s ← peripheralSource source
      return (.ofPeripheral (← fetch), s)
  | .peripheral .and source => some (combined source (· &&& ·))
  | .peripheral .or source => some (combined source (· ||| ·))
  | .peripheral .xor source => some (combined source (· ^^^ ·))
  | .extended .sta mode => some do
      let operand ← extendedOperand mode
      let value ← readAccumulator .a
      return (.ofAddress (← cpu).config operand, value)
  | _ => none

/-- What is left to do for a store once its operands are found. -/
def store (operands : Location × UInt8) : Exec β Nat := do
  writeAt operands.1 operands.2
  modifySt (Status.logical · operands.2)
  return 0

variable {instruction : Instruction}

theorem perform_of_storeOperands {find : Exec β (Location × UInt8)}
    (h : storeOperands instruction = some find) : perform instruction = find >>= store := by
  revert h
  fun_cases storeOperands (β := β) instruction with
  | case1 | case2 | case3 | case4 | case5 =>
      rintro ⟨⟩
      rfl
  | case6 => exact nofun

theorem not_stores_of_storeOperands (h : storeOperands (β := β) instruction = none) :
    ¬instruction.Stores := by
  cases instruction with
  | peripheral operation source =>
      cases operation with
      | mov | and | or | xor => exact absurd h nofun
      | btjo | btjz => exact id
  | extended operation mode =>
      cases operation with
      | sta => exact absurd h nofun
      | movd | lda | br | cmpa | call => exact id
  | _ => exact id

end Exec

namespace Machine.RegisterStable

open Exec

variable {I : Machine β → Prop} (h : RegisterStable I)

include h

theorem storeOperands_keeps {instruction : Instruction} {find : Exec β (Location × UInt8)}
    (hfind : storeOperands instruction = some find) : Keeps I find := by
  have hcombined (source : PeripheralSource) (combine : UInt8 → UInt8 → UInt8) :
      Keeps I (combined source combine) := by
    refine (corresponds_self_iff.mp (h.simulation.peripheralSource source)).bind fun s => ?_
    refine (corresponds_self_iff.mp h.simulation.fetch).bind fun number => ?_
    exact (corresponds_self_iff.mp (h.simulation.readPeripheral number)).bind fun _ => .pure _
  revert hfind
  fun_cases storeOperands (β := β) instruction with
  | case1 source =>
      rintro ⟨⟩
      refine (corresponds_self_iff.mp (h.simulation.peripheralSource source)).bind fun s => ?_
      exact (corresponds_self_iff.mp h.simulation.fetch).bind fun number => .pure _
  | case2 source | case3 source | case4 source =>
      rintro ⟨⟩
      exact hcombined source _
  | case5 mode =>
      rintro ⟨⟩
      refine (corresponds_self_iff.mp (h.simulation.extendedOperand mode)).bind fun operand => ?_
      refine (corresponds_self_iff.mp (h.simulation.readAccumulator .a)).bind fun value => ?_
      exact cpu_keeps.bind fun _ => .pure _
  | case6 => exact nofun

end Machine.RegisterStable

end TmsCores.Tms7000
