import TmsCores.Bus.Flat
import TmsCores.Proofs.Tms7000.Consistency
import TmsCores.Proofs.Tms7000.StackReturn

namespace TmsCores.Tms7000

variable {β : Type} [Bus β]

/-- A push or a return, with the machine before and after it. -/
inductive StackStep (β : Type)
  | save (frame : Frame) (before after : Machine β)
  /-- The address is the destination of a POP. -/
  | takeBack (frame : Frame) (destination : Option UInt16) (before after : Machine β)

namespace StackStep

def before : StackStep β → Machine β
  | .save _ machine _ | .takeBack _ _ machine _ => machine

def after : StackStep β → Machine β
  | .save _ _ machine | .takeBack _ _ _ machine => machine

/-- A frame has been put on top of the stack, or has been taken from there and is back in place. -/
def IsExact (ram : Ram β) : StackStep β → Prop
  | .save frame before after =>
      after.cpu.sp = before.cpu.sp + UInt8.ofNat frame.size ∧
        ram.stack after frame.size = frame.bytes
  | .takeBack frame destination before after =>
      after.cpu.sp = before.cpu.sp - UInt8.ofNat frame.size ∧ after.HasBack frame destination

/-- What a step changes besides the stack.  The interrupt control no longer shows an interrupt that
is taken, and a POP has a destination. -/
def Touches : StackStep β → UInt16 → Prop
  | .save (.context _ _) _ _, address => address = 0x0100
  | .save _ _ _, _ => False
  | .takeBack _ destination _ _, address => address ∈ destination

def ChangesOnly (ram : Ram β) (window : UInt16 → Prop) (step : StackStep β) : Prop :=
  ∀ {address}, ram.Covers (.ofAddress step.before.cpu.config address) → ¬window address →
    ¬step.Touches address → ram.byteAt step.after address = ram.byteAt step.before address

end StackStep

namespace Machine

/-- The address is that of one of the topmost bytes of the stack. -/
def Holds (machine : Machine β) (count : Nat) (address : UInt16) : Prop :=
  ∃ index < count, address = (machine.cpu.sp - UInt8.ofNat index).toUInt16

/-- Whatever has happened, the stack pointer and the topmost bytes of the stack are the same. -/
structure KeepsStack (ram : Ram β) (config : Config) (held : Nat) (before next : Machine β) :
    Prop where
  isConsistent : next.cpu.IsConsistent config
  sp_eq : next.cpu.sp = before.cpu.sp
  stack_eq : ram.stack next held = ram.stack before held

/-- A run in which what goes onto the stack is taken back in reverse order.  `held` bytes are there
already, and there are never more than `depth`.  In between anything may happen that keeps the
stack. -/
inductive Nested (ram : Ram β) (config : Config) (depth : Nat) :
    Nat → Machine β → List (StackStep β) → Machine β → Prop
  | done {held : Nat} {machine : Machine β} : Nested ram config depth held machine [] machine
  | between {held : Nat} {before next final : Machine β} {log : List (StackStep β)}
      (hkeeps : KeepsStack ram config held before next)
      (hrest : Nested ram config depth held next log final) :
      Nested ram config depth held before log final
  | pair {held : Nat} {frame : Frame} {destination : Option UInt16}
      {before entered left returned final : Machine β} {inner rest : List (StackStep β)}
      (hsaves : Saves frame before entered) (hdepth : held + frame.size ≤ depth)
      (hinner : Nested ram config depth (held + frame.size) entered inner left)
      (htakes : TakesBack frame destination left returned)
      (hfree : ∀ address ∈ destination, ¬returned.Holds held address)
      (hrest : Nested ram config depth held returned rest final) :
      Nested ram config depth held before
        (.save frame before entered ::
          (inner ++ .takeBack frame destination left returned :: rest)) final

end Machine

theorem Cpu.IsConsistent.registerCount_le {config : Config} {cpu : Cpu}
    (h : cpu.IsConsistent config) : cpu.config.registerCount.toNat ≤ cpu.file.size := by
  rw [h.config_eq]
  exact Nat.le_of_eq h.file_size.symm

theorem Ram.CoversPage.of_isConsistent {ram : Ram β} {config : Config} {cpu : Cpu}
    (hpage : ram.CoversPage config.clamp) (h : cpu.IsConsistent config) :
    ram.CoversPage cpu.config :=
  h.config_eq.symm ▸ hpage

namespace Machine

variable {ram : Ram β} {config : Config} {depth held : Nat} {frame : Frame}
  {destination : Option UInt16} {machine before after next final : Machine β}
  {log : List (StackStep β)}

theorem isConsistent_execute (h : machine.cpu.IsConsistent config) :
    (Exec.execute machine).2.cpu.IsConsistent config := by
  have hhost := (Cpu.isConsistent_stable config).hostSimulation (β := β)
  exact corresponds_self_iff.mp (hhost.execute (hhost.setIdle true)) machine h

theorem Saves.isConsistent (h : Saves frame before after)
    (hbefore : before.cpu.IsConsistent config) : after.cpu.IsConsistent config := by
  cases h with
  | interrupt =>
      have hhost := (Cpu.isConsistent_stable config).hostSimulation (β := β)
      exact corresponds_self_iff.mp hhost.serviceInterrupt before hbefore
  | call | trap | illegal | pushSt | push => exact isConsistent_execute hbefore

theorem TakesBack.isConsistent (h : TakesBack frame destination before after)
    (hbefore : before.cpu.IsConsistent config) : after.cpu.IsConsistent config := by
  cases h with
  | reti | rets | popSt | pop => exact isConsistent_execute hbefore

theorem KeepsStack.trans (h : KeepsStack ram config held before next)
    (hnext : KeepsStack ram config held next final) : KeepsStack ram config held before final where
  isConsistent := hnext.isConsistent
  sp_eq := hnext.sp_eq.trans h.sp_eq
  stack_eq := hnext.stack_eq.trans h.stack_eq

section Run

variable (hpage : ram.CoversPage config.clamp)

include hpage

theorem Saves.isExact (h : Saves frame before after) (hbefore : before.cpu.IsConsistent config)
    (hsize : frame.size ≤ 256) : (StackStep.save frame before after).IsExact ram := by
  have hpushed := h.pushed hbefore.registerCount_le (hpage.of_isConsistent hbefore)
  exact ⟨hpushed.sp_eq, hpushed.stack_top hsize⟩

theorem Saves.changesOnly (h : Saves frame before after) (hbefore : before.cpu.IsConsistent config)
    (hdepth : held + frame.size ≤ depth) :
    (StackStep.save frame before after).ChangesOnly ram
      (InWindow (before.cpu.sp - UInt8.ofNat held) depth) := by
  intro address hcovers hwindow htouches
  refine h.byteAt_eq hbefore.registerCount_le (hpage.of_isConsistent hbefore) hcovers
    (fun h => hwindow (h.shift hdepth)) ?_
  rintro haddress pc st rfl
  exact htouches haddress

theorem TakenBack.stack_eq (h : TakenBack ram frame destination before after)
    (hbefore : before.cpu.IsConsistent config)
    (hfree : ∀ address ∈ destination, ¬after.Holds held address) :
    ram.stack after held =
      ram.bytesDown before (before.cpu.sp - UInt8.ofNat frame.size) held := by
  rw [Ram.stack, h.sp_eq]
  refine Ram.bytesDown_congr fun index hindex => ?_
  refine h.byteAt_eq ((hpage.of_isConsistent hbefore).keeps _) fun hdestination => ?_
  rw [← h.sp_eq] at hdestination
  exact hfree _ hdestination ⟨index, hindex, rfl⟩

/-- A frame comes back as it was saved, and what lies below it on the stack is as it was. -/
theorem Saves.takenBack (h : Saves frame before after) (hbefore : before.cpu.IsConsistent config)
    (hroom : held + frame.size ≤ 256)
    (hkeeps : KeepsStack ram config (held + frame.size) after next)
    (htakes : TakesBack frame destination next final)
    (hfree : ∀ address ∈ destination, ¬final.Holds held address) :
    TakenBack ram frame destination next final ∧ KeepsStack ram config held before final := by
  have hnext := hkeeps.isConsistent
  have hpushed := h.pushed hbefore.registerCount_le (hpage.of_isConsistent hbefore)
  have hstack : ram.stack next (held + frame.size) = frame.bytes ++ ram.stack before held :=
    hkeeps.stack_eq.trans (hpushed.stack_eq hroom)
  obtain ⟨htop, hbelow⟩ := Ram.stack_append_inv hstack
  have htaken := htakes.takenBack hnext.registerCount_le (hpage.of_isConsistent hnext)
    (h.isStored hbefore.st_stored) htop
  refine ⟨htaken, htakes.isConsistent hnext, ?_, (htaken.stack_eq hpage hnext hfree).trans hbelow⟩
  rw [htaken.sp_eq, hkeeps.sp_eq, hpushed.sp_eq, ← Frame.size]
  grind

/-- What a nested run does to the stack in the end, and all that its pushes and returns do. -/
theorem Nested.keepsStack (hdepth : depth ≤ 256)
    (h : Nested ram config depth held machine log final)
    (hmachine : machine.cpu.IsConsistent config) :
    KeepsStack ram config held machine final ∧ ∀ step ∈ log, step.IsExact ram ∧
      step.ChangesOnly ram (InWindow (machine.cpu.sp - UInt8.ofNat held) depth) := by
  induction h with
  | done => exact ⟨⟨hmachine, rfl, rfl⟩, fun _ hstep => absurd hstep List.not_mem_nil⟩
  | between hkeeps _ ih =>
      obtain ⟨hfinal, hlog⟩ := ih hkeeps.isConsistent
      rw [hkeeps.sp_eq] at hlog
      exact ⟨hkeeps.trans hfinal, hlog⟩
  | @pair held frame _ before entered left returned final inner rest hsaves hroom _ htakes hfree _
      ihInner ihRest =>
      have hsize := Nat.le_trans hroom hdepth
      have hpushed := hsaves.pushed hmachine.registerCount_le (hpage.of_isConsistent hmachine)
      obtain ⟨hleft, hinner⟩ := ihInner (hsaves.isConsistent hmachine)
      obtain ⟨htaken, hreturned⟩ := hsaves.takenBack hpage hmachine hsize hleft htakes hfree
      obtain ⟨hfinal, hrest⟩ := ihRest hreturned.isConsistent
      -- The window is the same for all: it starts where the stack of the whole run does.
      have hbase : entered.cpu.sp - UInt8.ofNat (held + frame.size) =
          before.cpu.sp - UInt8.ofNat held := by
        rw [hpushed.sp_eq, UInt8.ofNat_add, ← Frame.size]
        grind
      rw [hbase] at hinner
      rw [hreturned.sp_eq] at hrest
      refine ⟨hreturned.trans hfinal, fun step hstep => ?_⟩
      rw [List.mem_cons, List.mem_append, List.mem_cons] at hstep
      rcases hstep with rfl | hstep | rfl | hstep
      · exact ⟨hsaves.isExact hpage hmachine (by omega), hsaves.changesOnly hpage hmachine hroom⟩
      · exact hinner step hstep
      · refine ⟨⟨htaken.sp_eq, htaken.hasBack⟩, fun hcovers _ htouches => ?_⟩
        exact htakes.byteAt_eq htaken hcovers htouches
      · exact hrest step hstep

end Run

end Machine

theorem Exec.sameStack_account {ram : Ram β} (machine : Machine β) (cycles : Nat) :
    ram.SameStack machine (account cycles machine).2 := by
  let P (cpu : Cpu) : Prop :=
    cpu.config = machine.cpu.config ∧ cpu.file = machine.cpu.file ∧ cpu.sp = machine.cpu.sp
  have hP : Cpu.ClockStable P := {
    clockTimer := fun h => h
    drive := fun {cpu} h line state => by
      unfold Cpu.drive
      split
      split
      · exact h
      · exact h
    advance := fun h _ => h }
  let B (bus : β) : Prop :=
    ∀ {location}, ram.Holds location → ram.byte bus location = ram.byte machine.bus location
  have hclock := hP.simulation_and (B := B) fun hbus _ hholds =>
    (ram.byte_tick _ hholds).trans (hbus hholds)
  have hkeeps := corresponds_self_iff.mp (hclock.account cycles)
  obtain ⟨⟨hconfig, hfile, hsp⟩, hbyte⟩ := hkeeps machine ⟨⟨rfl, rfl, rfl⟩, fun _ => rfl⟩
  exact ⟨⟨hconfig, hfile, hbyte⟩, hsp⟩

namespace Machine

variable {ram : Ram β} {config : Config} {machine next : Machine β}
  (hpage : ram.CoversPage config.clamp)

include hpage

theorem KeepsStack.of_sameStack (hmachine : machine.cpu.IsConsistent config)
    (h : ram.SameStack machine next) (hnext : next.cpu.IsConsistent config) (held : Nat) :
    KeepsStack ram config held machine next :=
  ⟨hnext, h.sp_eq, congrFun (h.stack_eq (hpage.of_isConsistent hmachine)) held⟩

theorem KeepsStack.clearLeftovers (h : machine.cpu.IsConsistent config) (held : Nat) :
    KeepsStack ram config held machine (Exec.clearLeftovers machine).2 := by
  have hsame : ram.SameStack machine (Exec.clearLeftovers machine).2 :=
    ⟨⟨rfl, rfl, fun _ => rfl⟩, rfl⟩
  exact .of_sameStack hpage h hsame h held

theorem KeepsStack.of_worked (h : machine.worked.cpu.IsConsistent config) (limit held : Nat) :
    KeepsStack ram config held machine.worked
      (Exec.clearLeftovers (Exec.iterate limit machine).2).2 := by
  have hhost := (Cpu.isConsistent_stable config).hostSimulation (β := β)
  rw [iterate_snd]
  generalize (Exec.iterate limit machine).1 = cycles
  have hnext : (Exec.account cycles machine.worked).2.cpu.IsConsistent config :=
    corresponds_self_iff.mp (hhost.account cycles) machine.worked h
  have hkeeps := KeepsStack.of_sameStack hpage h (Exec.sameStack_account machine.worked cycles)
    hnext held
  exact hkeeps.trans (.clearLeftovers hpage hnext held)

end Machine

/-- The stack gives back in reverse order what it is given, wherever it lies.  Each return of a
nested run brings back what the matching push has saved, the stack pointer ends where it has
started, and the pushes and returns themselves write nothing but the bytes right above it. -/
theorem stack_last_in_first_out {ram : Ram β} {config : Config}
    (hpage : ram.CoversPage config.clamp) {depth : Nat} (hdepth : depth ≤ 256)
    {machine final : Machine β} {log : List (StackStep β)}
    (hmachine : machine.cpu.IsConsistent config)
    (h : Machine.Nested ram config depth 0 machine log final) :
    final.cpu.sp = machine.cpu.sp ∧ ∀ step ∈ log,
      step.IsExact ram ∧ step.ChangesOnly ram (InWindow machine.cpu.sp depth) := by
  obtain ⟨hkeeps, hlog⟩ := h.keepsStack hpage hdepth hmachine
  have hbase : machine.cpu.sp - UInt8.ofNat 0 = machine.cpu.sp := UInt8.sub_zero _
  rw [hbase] at hlog
  exact ⟨hkeeps.sp_eq, hlog⟩

/-- A machine at the end of the register page, about to take an interrupt whose handler is a trap
and a RETI. -/
def Machine.beforeHandler : Machine FlatBus where
  cpu :=
    { ((Cpu.ofConfig ⟨128, .trap, 16⟩).writeInterruptControl 0x01).drive int1 .held with
      pc := 0x1234
      sp := 0xFE
      st := 0x90 }
  bus :=
    { memory := (((((Memory.zero.poke 0xFFFC 0x20).poke 0xFFFA 0x30).poke 0x2000 0xFD).poke
        0x2001 0x0B).poke 0x3000 0x0A) }

/-- The stack of an interrupt and of a trap in its handler begins in memory, at the end of the
register page, and goes on in the registers. -/
theorem stack_last_in_first_out_around_handler :
    let config : Config := ⟨128, .trap, 16⟩
    let machine := Machine.beforeHandler
    let begun := (Exec.clearLeftovers machine).2
    let trapped := (Exec.iterate 100 machine).2
    let returned := (Exec.iterate 100 trapped).2
    let log : List (StackStep FlatBus) :=
      [.save (.context 0x1234 0x90) begun machine.checked,
        .save (.address 0x2001) machine.checked machine.worked,
        .takeBack (.address 0x2001) none trapped.checked trapped.worked,
        .takeBack (.context 0x1234 0x90) none returned.checked returned.worked]
    machine.cpu.IsConsistent config ∧
      Machine.Nested Ram.flat config 5 0 machine log returned.worked ∧
      returned.worked.cpu.sp = 0xFE ∧
      ∀ step ∈ log, step.IsExact Ram.flat ∧ step.ChangesOnly Ram.flat (InWindow 0xFE 5) := by
  intro config machine begun trapped returned log
  have hstable := Cpu.isConsistent_stable config
  have hmachine : machine.cpu.IsConsistent config :=
    hstable.setSt (hstable.setSp (hstable.setPc (hstable.drive
      (hstable.writeInterruptControl (Cpu.ofConfig_isConsistent config) 0x01) int1 .held)
      0x1234) 0xFE) (by decide)
  have hpending : begun.cpu.pending = some ⟨0, 1⟩ := by decide +kernel
  have hquiet : trapped.cpu.pending = none ∧ returned.cpu.pending = none := by decide +kernel
  have hawake : machine.checked.cpu.idle = false ∧ trapped.checked.cpu.idle = false ∧
      returned.checked.cpu.idle = false := by decide +kernel
  have hahead : machine.checked.ahead = some (.trap 2) ∧ trapped.checked.ahead = some .rets ∧
      returned.checked.ahead = some .reti := by decide +kernel
  have hpc : machine.checked.cpu.pc + 1 = 0x2001 := by decide +kernel
  have hinterrupt : Machine.Saves (.context 0x1234 0x90) begun machine.checked :=
    .interrupt hpending
  have htrap : Machine.Saves (.address 0x2001) machine.checked machine.worked := by
    rw [Machine.worked_of_awake hawake.1, ← hpc]
    exact .trap hahead.1
  have hrets : Machine.TakesBack (.address 0x2001) none trapped.checked trapped.worked := by
    rw [Machine.worked_of_awake hawake.2.1]
    exact .rets hahead.2.1
  have hreti : Machine.TakesBack (.context 0x1234 0x90) none returned.checked returned.worked := by
    rw [Machine.worked_of_awake hawake.2.2]
    exact .reti hahead.2.2
  have hpage : Ram.flat.CoversPage config.clamp := Ram.flat_coversPage config.clamp
  have hbegun := Machine.KeepsStack.clearLeftovers hpage hmachine 0
  have hfirst : Machine.KeepsStack Ram.flat config 5 machine.worked trapped.checked := by
    rw [Machine.checked_of_none hquiet.1]
    exact .of_worked hpage (htrap.isConsistent (hinterrupt.isConsistent hbegun.isConsistent)) 100 5
  have hsecond : Machine.KeepsStack Ram.flat config 3 trapped.worked returned.checked := by
    rw [Machine.checked_of_none hquiet.2]
    exact .of_worked hpage (hrets.isConsistent hfirst.isConsistent) 100 3
  have hinner : Machine.Nested Ram.flat config 5 3 machine.checked
      [.save (.address 0x2001) machine.checked machine.worked,
        .takeBack (.address 0x2001) none trapped.checked trapped.worked] returned.checked :=
    .pair htrap (by decide) (.between hfirst .done) hrets (by nofun) (.between hsecond .done)
  have hnested : Machine.Nested Ram.flat config 5 0 machine log returned.worked :=
    .between hbegun (.pair hinterrupt (by decide) hinner hreti (by nofun) .done)
  exact ⟨hmachine, hnested, stack_last_in_first_out hpage (by decide) hmachine hnested⟩

end TmsCores.Tms7000
