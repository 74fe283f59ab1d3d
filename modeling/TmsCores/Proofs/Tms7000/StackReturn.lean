import TmsCores.Proofs.Tms7000.StackFrame

namespace TmsCores.Tms7000

variable {β : Type} [Bus β]

namespace Machine

variable {ram : Ram β} {machine next before after : Machine β} {frame : Frame}
  {destination : Option UInt16}

/-- A frame has been taken from the stack, and nothing else has changed that only keeps what is
written to it. -/
structure TakenBack (ram : Ram β) (frame : Frame) (destination : Option UInt16)
    (before after : Machine β) : Prop where
  config_eq : after.cpu.config = before.cpu.config
  sp_eq : after.cpu.sp = before.cpu.sp - UInt8.ofNat frame.size
  byteAt_eq : ∀ {address}, ram.Keeps before.cpu.config address → address ∉ destination →
    ram.byteAt after address = ram.byteAt before address
  hasBack : after.HasBack frame destination

theorem TakenBack.of_sameMemory (hmemory : ram.SameMemory before after)
    (hsp : after.cpu.sp = before.cpu.sp - UInt8.ofNat frame.size)
    (hback : after.HasBack frame none) : TakenBack ram frame none before after where
  config_eq := hmemory.config_eq
  sp_eq := hsp
  byteAt_eq hkeeps _ := hmemory.byteAt_eq hkeeps
  hasBack := hback

section Returning

variable (hpage : ram.CoversPage before.cpu.config)

include hpage

theorem takenBack_reti {pc : UInt16} {st : UInt8} (hahead : before.ahead = some .reti)
    (hstack : ram.stack before 3 = [Word.low pc, Word.high pc, st])
    (hstored : Status.IsStored st) :
    TakenBack ram (.context pc st) none before (Exec.execute before).2 := by
  simp only [Ram.stack, Ram.bytesDown, List.cons.injEq, and_true] at hstack
  obtain ⟨hlo, hhi, hst⟩ := hstack
  obtain ⟨_, fetched, -, hfetched, hexecute⟩ := execute_of_ahead ram hahead
  obtain ⟨returned, hpopPc, hreturned⟩ := Exec.popPc_spec hfetched hpage
  obtain ⟨popped, hpop, hpopped⟩ := Exec.pop_spec hreturned hpage
  rw [hexecute, Exec.perform, bind_of_eq hpopPc, bind_of_eq hpop, seq_snd, pure_snd]
  have hmemory := hpopped.sameMemory.of_withSp.of_withPc.of_withSp.of_withPc
  refine .of_sameMemory ⟨hmemory.config_eq, hmemory.file_eq, hmemory.byte_eq⟩ ?_ ⟨?_, ?_⟩
  · change popped.cpu.sp = before.cpu.sp - 3
    rw [hpopped.cpu_eq]
    change before.cpu.sp - 1 - 1 - 1 = before.cpu.sp - 3
    grind
  · change popped.cpu.pc = pc
    rw [hpopped.cpu_eq]
    change Word.ofBytes (ram.byteAt before (before.cpu.sp - 1).toUInt16)
      (ram.byteAt before before.cpu.sp.toUInt16) = pc
    rw [hlo, hhi, Word.ofBytes_high_low]
  · change ram.byteAt before (before.cpu.sp - 1 - 1).toUInt16 &&& Status.mask = st
    rw [hst, hstored.and_mask]

theorem takenBack_rets {pc : UInt16} (hahead : before.ahead = some .rets)
    (hstack : ram.stack before 2 = [Word.low pc, Word.high pc]) :
    TakenBack ram (.address pc) none before (Exec.execute before).2 := by
  simp only [Ram.stack, Ram.bytesDown, List.cons.injEq, and_true] at hstack
  obtain ⟨hlo, hhi⟩ := hstack
  obtain ⟨_, fetched, -, hfetched, hexecute⟩ := execute_of_ahead ram hahead
  obtain ⟨returned, hpopPc, hreturned⟩ := Exec.popPc_spec hfetched hpage
  rw [hexecute, Exec.perform, bind_of_eq hpopPc, pure_snd]
  refine .of_sameMemory hreturned.sameMemory.of_withPc.of_withSp.of_withPc ?_ ?_
  · change returned.cpu.sp = before.cpu.sp - 2
    rw [hreturned.cpu_eq]
    change before.cpu.sp - 1 - 1 = before.cpu.sp - 2
    grind
  · change returned.cpu.pc = pc
    rw [hreturned.cpu_eq]
    change Word.ofBytes (ram.byteAt before (before.cpu.sp - 1).toUInt16)
      (ram.byteAt before before.cpu.sp.toUInt16) = pc
    rw [hlo, hhi, Word.ofBytes_high_low]

theorem takenBack_popSt {st : UInt8} (hahead : before.ahead = some .popSt)
    (hstack : ram.stack before 1 = [st]) (hstored : Status.IsStored st) :
    TakenBack ram (.status st) none before (Exec.execute before).2 := by
  simp only [Ram.stack, Ram.bytesDown, List.cons.injEq, and_true] at hstack
  obtain ⟨_, fetched, -, hfetched, hexecute⟩ := execute_of_ahead ram hahead
  obtain ⟨popped, hpop, hpopped⟩ := Exec.pop_spec hfetched hpage
  rw [hexecute, Exec.perform, bind_of_eq hpop, seq_snd, pure_snd]
  have hmemory := hpopped.sameMemory.of_withSp.of_withPc
  refine .of_sameMemory ⟨hmemory.config_eq, hmemory.file_eq, hmemory.byte_eq⟩ ?_ ?_
  · change popped.cpu.sp = before.cpu.sp - 1
    rw [hpopped.cpu_eq]
    rfl
  · change ram.byteAt before before.cpu.sp.toUInt16 &&& Status.mask = st
    rw [hstack, hstored.and_mask]

theorem takenBack_pop {value : UInt8} {target : Target}
    (hahead : before.ahead = some (.single .pop target))
    (hfile : before.cpu.config.registerCount.toNat ≤ before.cpu.file.size)
    (hstack : ram.stack before 1 = [value]) :
    TakenBack ram (.byte value) (some (before.targetAddress target)) before
      (Exec.execute before).2 := by
  simp only [Ram.stack, Ram.bytesDown, List.cons.injEq, and_true] at hstack
  obtain ⟨_, fetched, hfetch, hfetched, hexecute⟩ := execute_of_ahead ram hahead
  obtain ⟨number, pc, numbered, hnumber, hnumbered⟩ := Exec.targetNumber_spec hfetched target
  obtain ⟨popped, hpop, hpopped⟩ := Exec.pop_spec hnumbered hpage
  have hvalue : ram.byteAt ((before.withPc (before.cpu.pc + 1)).withPc pc)
      ((before.withPc (before.cpu.pc + 1)).withPc pc).cpu.sp.toUInt16 = value := hstack
  rw [hvalue] at hpop
  have htarget : before.targetAddress target = number.toUInt16 := by
    rw [targetAddress, hfetch, hnumber]
  rw [hexecute, Exec.perform, Exec.single, bind_of_eq hnumber]
  dsimp only
  rw [bind_of_eq hpop, Exec.cpu_bind, seq_snd, pure_snd, htarget]
  obtain ⟨file, -, hcpu, hbyteAt⟩ :=
    Exec.storeOutcome_spec hpopped hfile number (.logical popped.cpu.st value)
  generalize (Exec.storeOutcome number (.logical popped.cpu.st value) popped).2 = stored
    at hcpu hbyteAt ⊢
  have hconfig : stored.cpu.config = before.cpu.config := congrArg (·.config) hcpu
  have hstored : (Exec.read number.toUInt16 stored).1 = value := by
    rw [Exec.read_fst (hconfig.symm ▸ hpage number), hbyteAt (hpage number), if_pos rfl]
    rfl
  refine ⟨hconfig, congrArg (·.sp) hcpu, fun hkeeps haddress => ?_, number.toUInt16, rfl, hstored⟩
  exact (hbyteAt hkeeps.1).trans (if_neg fun h => haddress (congrArg some h))

end Returning

theorem TakesBack.takenBack (h : TakesBack frame destination before after)
    (hfile : before.cpu.config.registerCount.toNat ≤ before.cpu.file.size)
    (hpage : ram.CoversPage before.cpu.config) (hstored : frame.IsStored)
    (hstack : ram.stack before frame.size = frame.bytes) :
    TakenBack ram frame destination before after := by
  cases h with
  | reti hahead => exact takenBack_reti hpage hahead hstack hstored
  | rets hahead => exact takenBack_rets hpage hahead hstack
  | popSt hahead => exact takenBack_popSt hpage hahead hstack hstored
  | pop hahead => exact takenBack_pop hpage hahead hfile hstack

end Machine

/-- The peripherals and the interrupt controller are the same. -/
def Cpu.SamePeripherals (before cpu : Cpu) : Prop :=
  cpu.peripherals = before.peripherals ∧ cpu.interrupts = before.interrupts

theorem Cpu.samePeripherals_stable (before : Cpu) : RegisterStable before.SamePeripherals where
  setRegister h _ _ := h
  setPc h _ := h
  setSp h _ := h
  setFlags _ h := h
  clearSt h := h

theorem Cpu.peripherals_stable (before : Cpu) :
    ServiceStable fun cpu => cpu.peripherals = before.peripherals where
  setRegister h _ _ := h
  setPc h _ := h
  setSp h _ := h
  setFlags _ h := h
  clearSt h := h
  leaveIdle h := h
  acknowledge h _ := h

namespace Machine

variable {ram : Ram β} {machine next before after : Machine β} {frame : Frame}
  {destination : Option UInt16}

/-- An instruction that neither stores to the peripheral file nor rests leaves it as it is. -/
theorem samePeripherals_execute {instruction : Instruction}
    (hahead : machine.ahead = some instruction) (hidle : instruction ≠ .idle)
    (hstores : ¬instruction.Stores) : machine.cpu.SamePeripherals (Exec.execute machine).2.cpu := by
  have h := machine.cpu.samePeripherals_stable.machine.simulation (β := β)
  have hkeeps : Corresponds _ (Exec.perform instruction) (Exec.perform instruction) :=
    h.perform (absurd · hidle)
      (fun _ st => corresponds_self_iff.mpr (Exec.modifyCpu_keeps fun hcpu => hcpu))
      (absurd · hstores)
  have hfetched := corresponds_self_iff.mp h.fetch machine ⟨rfl, rfl⟩
  rw [ahead, Option.map_eq_some_iff] at hahead
  obtain ⟨entry, hentry, rfl⟩ := hahead
  rw [Exec.execute, bind_snd, hentry, bind_snd, pure_snd]
  exact corresponds_self_iff.mp hkeeps (Exec.fetch machine).2 hfetched

theorem samePeripherals_execute_of_illegal (hahead : machine.ahead = none) :
    machine.cpu.SamePeripherals (Exec.execute machine).2.cpu := by
  have h := machine.cpu.samePeripherals_stable.machine.simulation (β := β)
  have hfetched := corresponds_self_iff.mp h.fetch machine ⟨rfl, rfl⟩
  rw [ahead, Option.map_eq_none_iff] at hahead
  rw [Exec.execute, bind_snd, hahead]
  exact corresponds_self_iff.mp h.illegal (Exec.fetch machine).2 hfetched

theorem byteAt_eq_of_peripherals (hconfig : next.cpu.config = machine.cpu.config)
    (hperipherals : next.cpu.peripherals = machine.cpu.peripherals) {address : UInt16}
    (hinterrupts : address = 0x0100 → next.cpu.interrupts = machine.cpu.interrupts)
    (hplain : ¬(Location.ofAddress machine.cpu.config address).IsPlain) :
    ram.byteAt next address = ram.byteAt machine address := by
  have haddress := Location.address_ofAddress machine.cpu.config address
  rw [Ram.byteAt, Ram.byteAt, hconfig]
  cases hlocation : Location.ofAddress machine.cpu.config address with
  | register | port | memory =>
      rw [hlocation] at hplain
      exact absurd trivial hplain
  | interruptControl =>
      rw [hlocation] at haddress
      have hinterrupts := hinterrupts haddress.symm
      have hrequests : next.cpu.requests = machine.cpu.requests := by
        funext line
        rw [Cpu.requests, Cpu.requests, hinterrupts]
      change next.cpu.interruptControl = machine.cpu.interruptControl
      rw [Cpu.interruptControl, Cpu.interruptControl, hperipherals, hrequests]
  | timerData => exact congrArg (·.timer.decrementer) hperipherals
  | timerControl => exact congrArg (·.timer.capture) hperipherals

theorem Saves.samePeripherals (h : Saves frame before after)
    (hframe : ∀ pc st, frame ≠ .context pc st) : before.cpu.SamePeripherals after.cpu := by
  cases h with
  | interrupt => exact absurd rfl (hframe _ _)
  | call hahead | trap hahead | pushSt hahead | push hahead =>
      exact samePeripherals_execute hahead nofun nofun
  | illegal hahead => exact samePeripherals_execute_of_illegal hahead

theorem Saves.peripherals_eq (h : Saves frame before after) :
    after.cpu.peripherals = before.cpu.peripherals := by
  by_cases hframe : ∃ pc st, frame = .context pc st
  · obtain ⟨pc, st, rfl⟩ := hframe
    cases h with
    | interrupt =>
        exact corresponds_self_iff.mp before.cpu.peripherals_stable.simulation.serviceInterrupt
          before rfl
  · exact (h.samePeripherals fun pc st hcontext => hframe ⟨pc, st, hcontext⟩).1

theorem TakesBack.samePeripherals (h : TakesBack frame destination before after) :
    before.cpu.SamePeripherals after.cpu := by
  cases h with
  | reti hahead | rets hahead | popSt hahead | pop hahead =>
      exact samePeripherals_execute hahead nofun nofun

theorem Saves.byteAt_eq (h : Saves frame before after)
    (hfile : before.cpu.config.registerCount.toNat ≤ before.cpu.file.size)
    (hpage : ram.CoversPage before.cpu.config) {address : UInt16}
    (hcovers : ram.Covers (.ofAddress before.cpu.config address))
    (hwindow : ¬InWindow before.cpu.sp frame.size address)
    (hcontrol : address = 0x0100 → ∀ pc st, frame ≠ .context pc st) :
    ram.byteAt after address = ram.byteAt before address := by
  have hpushed := h.pushed hfile hpage
  by_cases hplain : (Location.ofAddress before.cpu.config address).IsPlain
  · exact hpushed.byteAt_eq ⟨hcovers, hplain⟩ hwindow
  · exact byteAt_eq_of_peripherals hpushed.config_eq h.peripherals_eq
      (fun haddress => (h.samePeripherals (hcontrol haddress)).2) hplain

theorem TakesBack.byteAt_eq (h : TakesBack frame destination before after)
    (htaken : TakenBack ram frame destination before after) {address : UInt16}
    (hcovers : ram.Covers (.ofAddress before.cpu.config address))
    (haddress : address ∉ destination) :
    ram.byteAt after address = ram.byteAt before address := by
  by_cases hplain : (Location.ofAddress before.cpu.config address).IsPlain
  · exact htaken.byteAt_eq ⟨hcovers, hplain⟩ haddress
  · exact byteAt_eq_of_peripherals htaken.config_eq h.samePeripherals.1
      (fun _ => h.samePeripherals.2) hplain

theorem Saves.isStored (h : Saves frame before after) (hst : Status.IsStored before.cpu.st) :
    frame.IsStored := by
  cases h with
  | interrupt | pushSt => exact hst
  | call | trap | illegal | push => trivial

end Machine

end TmsCores.Tms7000
