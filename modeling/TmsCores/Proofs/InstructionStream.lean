import TmsCores.Bus.Flat
import TmsCores.Proofs.Tms7000.InstructionLength
import TmsCores.Proofs.Tms7000.Reachability
import TmsCores.Proofs.Tms9900.InstructionStream

namespace TmsCores

/-- Whatever an opcode comes to do, the program goes on behind the words or bytes that belong to it,
or at an offset from there, unless the instruction takes it elsewhere.  Their number does not depend
on anything but the opcode. -/
theorem instruction_stream_keeps_step {β : Type} [Bus β] (limit : Nat) :
    (∀ machine : Tms9900.Machine β, machine.checked.cpu.idle = false →
      machine.KeepsStep (Tms9900.Exec.iterate limit machine).2) ∧
    (∀ machine : Tms7000.Machine β, machine.checked.cpu.idle = false →
      machine.KeepsStep (Tms7000.Exec.iterate limit machine).2) :=
  ⟨fun _ hawake => Tms9900.keepsStep_iterate hawake limit,
    fun _ hawake => Tms7000.keepsStep_iterate hawake limit⟩

/-- Before an X whose operand is in memory, as is the addition that it executes.  Both operands of
that are in memory as well. -/
def Tms9900.Machine.beforeChain : Tms9900.Machine FlatBus :=
  let program : List (UInt16 × UInt16) :=
    [(0x0000, 0x0100), (0x0002, 0x0200), (0x0200, 0x04A0), (0x0202, 0x0300), (0x0204, 0x0402),
      (0x0206, 0x0404), (0x0300, 0xA820)]
  let memory := program.foldl (fun memory (address, word) => memory.pokeWord address word) .zero
  (Tms9900.Exec.reset ⟨.ofConfig Tms9900.Variant.tms9900.config, { memory := memory }⟩).2

theorem Tms9900.Machine.reachable_beforeChain :
    Tms9900.Machine.beforeChain.Reachable Tms9900.Variant.tms9900.config :=
  .reset .create

/-- Before a DJNZ that jumps to itself. -/
def Tms7000.Machine.beforeLoop : Tms7000.Machine FlatBus :=
  let memory := ((Memory.zero.poke 0xFFFE 0x10).poke 0x1000 0xBA).poke 0x1001 0xFE
  (Tms7000.Exec.reset ⟨.ofConfig Tms7000.Variant.tms7000.config, { memory := memory }⟩).2

theorem Tms7000.Machine.reachable_beforeLoop :
    Tms7000.Machine.beforeLoop.Reachable Tms7000.Variant.tms7000.config :=
  .reset .create

/-- The X takes up two words, and the addition two more behind these.  The loop goes on. -/
theorem instruction_stream_keeps_step_of_chain_and_loop :
    let chained := Tms9900.Machine.beforeChain
    let looping := Tms7000.Machine.beforeLoop
    (chained.Reachable Tms9900.Variant.tms9900.config ∧ chained.checked.ahead = some .x ∧
      chained.executes = some (.dual .a .word) ∧ chained.cpu.pc = 0x0200 ∧
      (Tms9900.Exec.iterate 100 chained).2.cpu.pc = 0x0208) ∧
    (looping.Reachable Tms7000.Variant.tms7000.config ∧
      looping.executes = some (.single .djnz .a) ∧
      (Tms7000.Exec.iterate 100 looping).2.cpu.pc = looping.cpu.pc) := by
  intro chained looping
  constructor
  · have hawake : chained.checked.cpu.idle = false := by decide +kernel
    have hahead : chained.checked.ahead = some .x := by decide +kernel
    have hexecutes : chained.executes = some (.dual .a .word) := by decide +kernel
    have hpc : chained.cpu.pc = 0x0200 := by decide +kernel
    have hsteps := (instruction_stream_keeps_step 100).1 chained hawake
    have hnext := hsteps.chained fun instruction hinstruction => by
      rw [hexecutes] at hinstruction
      obtain rfl := Option.some.inj hinstruction
      rfl
    rw [hsteps.checked (by decide +kernel), hpc] at hnext
    exact ⟨Tms9900.Machine.reachable_beforeChain, hahead, hexecutes, hpc,
      hnext.trans (by decide +kernel)⟩
  · have hawake : looping.checked.cpu.idle = false := by decide +kernel
    have hexecutes : looping.executes = some (.single .djnz .a) := by decide +kernel
    have hsteps := (instruction_stream_keeps_step 100).2 looping hawake
    obtain ⟨test, htest, -, hnext⟩ := hsteps.offset _ hexecutes rfl
    obtain rfl := Option.some.inj htest
    rw [hsteps.checked (by decide +kernel)] at hnext
    exact ⟨Tms7000.Machine.reachable_beforeLoop, hexecutes, hnext.trans (by decide +kernel)⟩

end TmsCores
