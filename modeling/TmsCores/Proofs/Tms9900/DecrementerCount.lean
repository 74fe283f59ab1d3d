import TmsCores.Bus.Flat
import TmsCores.Proofs.Interrupt.Latch
import TmsCores.Proofs.Stepping
import TmsCores.Proofs.Tms9900.BusAccess
import TmsCores.Proofs.Tms9900.Decrementer
import TmsCores.Proofs.Tms9900.Ledger

namespace TmsCores.Tms9900

namespace OnChip

/-- The flags that choose what the decrementer counts: time if they are 2, and edges if they are
3. -/
def mode (chip : OnChip) : UInt16 :=
  chip.flags &&& 0x0003

/-- The decrementer and its flags are as they were. -/
structure Spared (before after : OnChip) : Prop where
  decrementer_eq : after.decrementer = before.decrementer
  mode_eq : after.mode = before.mode

/-- Nothing has been written to the decrementer or to its flags: the one is not back at a start
value, unless it was there before, and the others are as they were. -/
structure Unwritten (before after : OnChip) : Prop where
  decrementer_eq : after.decrementer.count = after.decrementer.start →
    after.decrementer = before.decrementer
  mode_eq : after.mode = before.mode

variable {chip : OnChip}

theorem mode_cases (chip : OnChip) :
    chip.mode = 0 ∨ chip.mode = 1 ∨ chip.mode = 2 ∨ chip.mode = 3 := by
  have hmode : chip.mode.toNat = chip.flags.toNat % 4 := by
    rw [mode, UInt16.toNat_and]
    exact Nat.and_two_pow_sub_one_eq_mod chip.flags.toNat 2
  have hless : chip.mode.toNat < 4 := hmode ▸ Nat.mod_lt _ (by decide)
  simp only [← UInt16.toNat_inj, UInt16.reduceToNat]
  omega

theorem isEnabled_eq : chip.isEnabled = (chip.mode &&& enableFlag != 0) := by
  rw [mode, UInt16.and_assoc]
  rfl

theorem countsEvents_eq : chip.countsEvents = (chip.mode &&& eventFlag != 0) := by
  rw [mode, UInt16.and_assoc]
  rfl

theorem countsTime_eq : chip.countsTime = (chip.mode == 2) := by
  rw [countsTime, isEnabled_eq, countsEvents_eq]
  rcases chip.mode_cases with h | h | h | h <;> rw [h] <;> decide

theorem countsEdges_eq : (chip.countsEvents && chip.isEnabled) = (chip.mode == 3) := by
  rw [isEnabled_eq, countsEvents_eq]
  rcases chip.mode_cases with h | h | h | h <;> rw [h] <;> decide

end OnChip

/-- What can make the decrementer count. -/
inductive Pulse
  | tick
  | drive (line : UInt8) (state : LineState)

structure Moment where
  cpu : Cpu
  pulse : Pulse

def Pulse.drives (line : UInt8) : Pulse → Bool
  | .tick => false
  | .drive driven _ => driven == line

def Cpu.answer (cpu : Cpu) : Pulse → Cpu
  | .tick => cpu.tick
  | .drive line state => cpu.drive line state

namespace Moment

def isTick : Moment → Bool
  | ⟨_, .tick⟩ => true
  | ⟨_, .drive _ _⟩ => false

/-- INT4 is driven to an active level, and its level was low until then. -/
def isEdge : Moment → Bool
  | ⟨_, .tick⟩ => false
  | ⟨cpu, .drive line state⟩ => line == int4 && (state.isActive && !cpu.chip.int4Level)

/-- The decrementer counts the pulse if this is its mode. -/
def isCounted (mode : UInt16) (moment : Moment) : Bool :=
  mode == 2 && moment.isTick || mode == 3 && moment.isEdge

/-- The decrementer sets the latch of its line.  This is seen by dropping the latch right before, at
a pulse that does not drive the line itself. -/
def expires (moment : Moment) : Bool :=
  !moment.pulse.drives decrementerLine &&
    ((moment.cpu.setLatch decrementerLine false).answer moment.pulse).interrupts.isLatched
      decrementerLine

theorem countP_isCounted (mode : UInt16) (moments : List Moment) :
    moments.countP (isCounted mode) =
      if mode = 2 then moments.countP isTick
      else if mode = 3 then moments.countP isEdge
      else 0 := by
  by_cases htime : mode = 2
  · rw [if_pos htime]
    exact List.countP_congr fun moment _ => by simp [isCounted, htime]
  · rw [if_neg htime]
    by_cases hedges : mode = 3
    · rw [if_pos hedges]
      exact List.countP_congr fun moment _ => by simp [isCounted, hedges]
    · rw [if_neg hedges]
      exact List.countP_eq_zero.mpr fun moment _ => by simp [isCounted, htime, hedges]

end Moment

namespace Cpu

/-- All that a pulse does to a processor but for making its decrementer count. -/
def meet (cpu : Cpu) : Pulse → Cpu
  | .tick => cpu
  | .drive line state =>
      { cpu with
        chip.int4Level := if line == int4 then state.isActive else cpu.chip.int4Level
        interrupts :=
          if line == int4 && cpu.chip.countsEvents then cpu.interrupts
          else (cpu.interrupts.drive line state).2 }

variable {cpu : Cpu}

theorem isLatched_clockDecrementer (hline : decrementerLine.toNat < cpu.interrupts.size) :
    cpu.clockDecrementer.interrupts.isLatched decrementerLine =
      (cpu.chip.decrementer.clock.1 || cpu.interrupts.isLatched decrementerLine) := by
  cases hexpired : cpu.chip.decrementer.clock.1 with
  | false =>
      rw [clockDecrementer_of_quiet hexpired]
      rfl
  | true =>
      rw [clockDecrementer_of_expired hexpired, Bool.true_or]
      exact (InterruptController.isLatched_setLatch_of_lt hline true decrementerLine).trans
        (if_pos rfl)

theorem chip_clockDecrementer :
    cpu.clockDecrementer.chip = { cpu.chip with decrementer := cpu.chip.decrementer.clock.2 } := by
  cases hexpired : cpu.chip.decrementer.clock.1 with
  | false => rw [clockDecrementer_of_quiet hexpired]
  | true => rw [clockDecrementer_of_expired hexpired]

/-- A pulse clocks the decrementer just if it is counted. -/
theorem answer_eq (honChip : cpu.config.onChip = true) (pulse : Pulse) :
    cpu.answer pulse =
      if Moment.isCounted cpu.chip.mode ⟨cpu, pulse⟩ then (cpu.meet pulse).clockDecrementer
      else cpu.meet pulse := by
  cases pulse with
  | tick =>
      have hcounted : Moment.isCounted cpu.chip.mode ⟨cpu, .tick⟩ = cpu.chip.countsTime := by
        rw [OnChip.countsTime_eq, Moment.isCounted, Moment.isTick, Moment.isEdge, Bool.and_true,
          Bool.and_false, Bool.or_false]
      rw [hcounted, answer, tick, honChip, Bool.true_and]
      rfl
  | drive line state =>
      have hcounted : Moment.isCounted cpu.chip.mode ⟨cpu, .drive line state⟩ =
          (line == int4 && (state.isActive && !cpu.chip.int4Level) &&
            (cpu.chip.countsEvents && cpu.chip.isEnabled)) := by
        rw [OnChip.countsEdges_eq, Moment.isCounted, Moment.isTick, Moment.isEdge, Bool.and_false,
          Bool.false_or, Bool.and_comm]
      rw [hcounted, answer, drive, honChip, Bool.true_and]
      have hsees (level : Bool) :
          { cpu.chip with int4Level := level }.countsEvents = cpu.chip.countsEvents := rfl
      have henables (level : Bool) :
          { cpu.chip with int4Level := level }.isEnabled = cpu.chip.isEnabled := rfl
      cases hline : line == int4 with
      | false => simp [hline, meet]
      | true =>
          cases hevents : cpu.chip.countsEvents with
          | false => simp [hline, hevents, hsees, meet]
          | true => simp [hline, hevents, hsees, henables, meet]

theorem meet_spared (cpu : Cpu) (pulse : Pulse) : cpu.chip.Spared (cpu.meet pulse).chip := by
  cases pulse with
  | tick => exact ⟨rfl, rfl⟩
  | drive line state => exact ⟨rfl, rfl⟩

theorem size_meet (cpu : Cpu) (pulse : Pulse) :
    (cpu.meet pulse).interrupts.size = cpu.interrupts.size := by
  cases pulse with
  | tick => rfl
  | drive line state =>
      rw [meet]
      dsimp only
      split
      · rfl
      · exact InterruptController.size_modifyLine ..

theorem isLatched_meet {pulse : Pulse} (hother : pulse.drives decrementerLine = false) :
    (cpu.meet pulse).interrupts.isLatched decrementerLine =
      cpu.interrupts.isLatched decrementerLine := by
  cases pulse with
  | tick => rfl
  | drive line state =>
      have hne : line ≠ decrementerLine := beq_eq_false_iff_ne.mp hother
      rw [meet]
      dsimp only
      split
      · rfl
      · rw [InterruptController.drive, InterruptController.isLatched_modifyLine, if_neg hne]

theorem not_counted_of_drives {mode : UInt16} {pulse : Pulse}
    (h : pulse.drives decrementerLine = true) :
    Moment.isCounted mode ⟨cpu, pulse⟩ = false := by
  cases pulse with
  | tick => exact absurd h nofun
  | drive line state =>
      obtain rfl : line = decrementerLine := beq_iff_eq.mp h
      simp [Moment.isCounted, Moment.isTick, Moment.isEdge, decrementerLine, int4]

theorem isLatched_answer (honChip : cpu.config.onChip = true)
    (hline : decrementerLine.toNat < cpu.interrupts.size) {pulse : Pulse}
    (hother : pulse.drives decrementerLine = false) :
    (cpu.answer pulse).interrupts.isLatched decrementerLine =
      (Moment.isCounted cpu.chip.mode ⟨cpu, pulse⟩ && cpu.chip.decrementer.clock.1 ||
        cpu.interrupts.isLatched decrementerLine) := by
  have hsize : decrementerLine.toNat < (cpu.meet pulse).interrupts.size := by
    rw [cpu.size_meet]
    exact hline
  rw [answer_eq honChip]
  cases Moment.isCounted cpu.chip.mode ⟨cpu, pulse⟩ with
  | false => exact isLatched_meet hother
  | true =>
      rw [if_pos rfl, isLatched_clockDecrementer hsize, (cpu.meet_spared pulse).decrementer_eq,
        isLatched_meet hother, Bool.true_and]

theorem expires_eq (honChip : cpu.config.onChip = true)
    (hline : decrementerLine.toNat < cpu.interrupts.size) (pulse : Pulse) :
    Moment.expires ⟨cpu, pulse⟩ =
      (Moment.isCounted cpu.chip.mode ⟨cpu, pulse⟩ && cpu.chip.decrementer.clock.1) := by
  rw [Moment.expires]
  cases hdrives : pulse.drives decrementerLine with
  | true => rw [not_counted_of_drives hdrives, Bool.not_true, Bool.false_and, Bool.false_and]
  | false =>
      let dropped := cpu.setLatch decrementerLine false
      have hchip : dropped.config.onChip = true := honChip
      have hsize : decrementerLine.toNat < dropped.interrupts.size :=
        Nat.lt_of_lt_of_eq hline (InterruptController.size_modifyLine ..).symm
      have hclear : dropped.interrupts.isLatched decrementerLine = false :=
        (InterruptController.isLatched_setLatch_of_lt hline false decrementerLine).trans
          (if_pos rfl)
      have hcounted : Moment.isCounted dropped.chip.mode ⟨dropped, pulse⟩ =
          Moment.isCounted cpu.chip.mode ⟨cpu, pulse⟩ := by
        cases pulse with
        | tick => rfl
        | drive line state => rfl
      have hlatched : (dropped.answer pulse).interrupts.isLatched decrementerLine =
          (Moment.isCounted dropped.chip.mode ⟨dropped, pulse⟩ && cpu.chip.decrementer.clock.1 ||
            dropped.interrupts.isLatched decrementerLine) :=
        isLatched_answer hchip hsize hdrives
      rw [hclear, hcounted, Bool.or_false] at hlatched
      exact hlatched

/-- The decrementer is the same or has got a new start value. -/
def Restarts (decrementer : Decrementer) (cpu : Cpu) : Prop :=
  cpu.chip.decrementer = decrementer ∨ cpu.chip.decrementer.count = cpu.chip.decrementer.start

theorem restarts_serviceStable (decrementer : Decrementer) :
    ServiceStable (Restarts decrementer) where
  setByte h _ _ := h
  setDecrementer _ _ := .inr rfl
  setInternalBit {cpu changed bit value} h hchanged := by
    unfold setInternalBit? at hchanged
    split at hchanged
    · exact absurd hchanged nofun
    · split at hchanged
      · exact Option.some.inj hchanged ▸ h
      · obtain ⟨number, _, rfl⟩ := Option.map_eq_some_iff.mp hchanged
        dsimp only
        split
        · exact h
        · exact h
  skip h _ := h
  setPc h _ := h
  setWp h _ := h
  setSt h _ := h
  modifySt _ h := h
  overflowTrap {cpu} h := by
    unfold overflowTrap
    split
    · exact h
    · exact h
  illegalTrap h := h
  release h := h
  leaveIdle h := h
  serviceStatus _ _ h := h
  acknowledge h _ := h

theorem Restarts.spared {before after : Cpu} (h : after.Restarts before.chip.decrementer)
    (hunwritten : before.chip.Unwritten after.chip) : before.chip.Spared after.chip := by
  refine ⟨?_, hunwritten.mode_eq⟩
  rcases h with hsame | hstart
  · exact hsame
  · exact hunwritten.decrementer_eq hstart

/-- From one moment to another a decrementer has counted the pulses of its mode, and these only. -/
structure Counts (before : Cpu) (moments : List Moment) (after : Cpu) : Prop where
  mode_eq : after.chip.mode = before.chip.mode
  expirations_eq : moments.countP Moment.expires =
    (before.chip.decrementer.clocks (moments.countP (Moment.isCounted before.chip.mode))).1
  decrementer_eq : after.chip.decrementer =
    (before.chip.decrementer.clocks (moments.countP (Moment.isCounted before.chip.mode))).2

namespace Counts

variable {before after last : Cpu} {moments more : List Moment}

theorem of_spared (h : before.chip.Spared after.chip) : before.Counts [] after :=
  ⟨h.mode_eq, rfl, h.decrementer_eq⟩

theorem trans (h : before.Counts moments after) (hmore : after.Counts more last) :
    before.Counts (moments ++ more) last := by
  obtain ⟨hmode, hexpirations, hdecrementer⟩ := hmore
  rw [h.mode_eq, h.decrementer_eq] at hexpirations hdecrementer
  constructor
  · exact hmode.trans h.mode_eq
  · rw [List.countP_append, List.countP_append, Decrementer.clocks_add, h.expirations_eq,
      hexpirations]
  · rw [List.countP_append, Decrementer.clocks_add, hdecrementer]

theorem answer (honChip : cpu.config.onChip = true)
    (hline : decrementerLine.toNat < cpu.interrupts.size) (pulse : Pulse) :
    cpu.Counts [⟨cpu, pulse⟩] (cpu.answer pulse) := by
  obtain ⟨hdecrementer, hmode⟩ := cpu.meet_spared pulse
  have hexpires := expires_eq honChip hline pulse
  have hanswer := answer_eq honChip pulse
  cases hcounted : Moment.isCounted cpu.chip.mode ⟨cpu, pulse⟩ with
  | false =>
      rw [hcounted, Bool.false_and] at hexpires
      rw [hcounted, if_neg Bool.false_ne_true] at hanswer
      rw [hanswer]
      refine ⟨hmode, ?_, ?_⟩
      · simp [hexpires, hcounted, Decrementer.clocks]
      · simp [hcounted, Decrementer.clocks, hdecrementer]
  | true =>
      rw [hcounted, Bool.true_and] at hexpires
      rw [hcounted, if_pos rfl] at hanswer
      rw [hanswer]
      refine ⟨?_, ?_, ?_⟩
      · rw [chip_clockDecrementer]
        exact hmode
      · cases hexpired : cpu.chip.decrementer.clock.1 with
        | false => simp [hexpires, hcounted, Decrementer.clocks, hexpired]
        | true => simp [hexpires, hcounted, Decrementer.clocks, hexpired]
      · simp [hcounted, Decrementer.clocks, chip_clockDecrementer, hdecrementer]

end Counts

end Cpu

variable {β : Type} [Bus β]

namespace Machine

/-- A tick, and the line that a device on the bus may drive at it. -/
def tickMoments (machine : Machine β) : List Moment :=
  ⟨machine.cpu, .tick⟩ :: (Bus.tick machine.bus).1.toList.map fun (line, state) =>
    ⟨machine.cpu.tick, .drive line state⟩

def ticksMoments : Nat → Machine β → List Moment
  | 0, _ => []
  | count + 1, machine => tickMoments machine ++ ticksMoments count (Exec.tick machine).2

/-- The machine when an iteration has charged its cycles, before the ticks that they complete. -/
def charged (limit : Nat) (machine : Machine β) : Machine β :=
  (Exec.charge (Exec.iterate limit machine).1 machine.worked).2

def tickTotal (limit : Nat) (machine : Machine β) : Nat :=
  (machine.worked.cpu.divider.advance (Exec.iterate limit machine).1).1

def turnMoments : Turn Register β → Machine (RecordedBus β) → List Moment
  | .iterate limit, machine => ticksMoments (machine.tickTotal limit) (machine.charged limit)
  | .drive line state, machine => [⟨machine.cpu, .drive line state⟩]
  | _, _ => []

def moments : List (Turn Register β) → Machine (RecordedBus β) → List Moment
  | [], _ => []
  | turn :: rest, machine => turnMoments turn machine ++ moments rest (take turn machine).2

/-- In a turn nothing is written to the decrementer or to its flags. -/
def Spares : Turn Register β → Machine (RecordedBus β) → Prop
  | .iterate _, machine => machine.cpu.chip.Unwritten machine.worked.cpu.chip
  | .write register value, machine =>
      machine.cpu.chip.Unwritten (Exec.write? register value machine).2.cpu.chip
  | _, _ => True

theorem restarts_worked (machine : Machine β) :
    machine.worked.cpu.Restarts machine.cpu.chip.decrementer := by
  have hstable := Cpu.restarts_serviceStable machine.cpu.chip.decrementer
  exact hstable.toFlagStable.machine.worked (fun _ _ _ _ hstate => hstate)
    (fun _ _ hstate => hstate) (fun _ _ _ => hstable.toStable.simulation)
    (hstable.checked (.inl rfl))

theorem restarts_write? (register : Register) (value : UInt16) (machine : Machine β) :
    (Exec.write? register value machine).2.cpu.Restarts machine.cpu.chip.decrementer := by
  have hstable := (Cpu.restarts_serviceStable machine.cpu.chip.decrementer).toStable
  have hsimulation := hstable.simulation (β := β)
  exact corresponds_self_iff.mp
    (hsimulation.write? fun _ => hsimulation.setSt value) machine (.inl rfl)

theorem cpu_read? (register : Register) (machine : Machine β) :
    (Exec.read? register machine).2.cpu = machine.cpu := by
  cases register with
  | pc | wp | st => rfl
  | r number =>
      by_cases hnumber : number < 16
      · have hread : (Exec.read? (.r number) machine).2 =
            (Exec.readRegister number.toUInt16 machine).2 := by
          rw [Exec.read?, if_pos hnumber]
          rfl
        rw [hread]
        exact Exec.cpu_readWord _ machine
      · rw [Exec.read?, if_neg hnumber]
        rfl

theorem countP_isTick_tickMoments (machine : Machine β) :
    (tickMoments machine).countP Moment.isTick = 1 := by
  rw [tickMoments, List.countP_cons_of_pos rfl]
  simp [List.countP_map, Function.comp_def, Moment.isTick]

theorem countP_isTick_ticksMoments (count : Nat) (machine : Machine β) :
    (ticksMoments count machine).countP Moment.isTick = count := by
  induction count generalizing machine with
  | zero => rfl
  | succ count ih =>
      rw [ticksMoments, List.countP_append, ih, countP_isTick_tickMoments, Nat.add_comm]

theorem tickCount_take (turn : Turn Register β) (machine : Machine (RecordedBus β)) :
    (take turn machine).2.bus.tickCount =
      machine.bus.tickCount + (turnMoments turn machine).countP Moment.isTick := by
  cases turn with
  | iterate limit =>
      rw [turnMoments, countP_isTick_ticksMoments]
      exact (machine.heard_iterate limit).tickCount_eq
  | drive | setPc | read | write | touch => exact tickCount_intervene trivial

/-- The bus hears of every tick among the pulses. -/
theorem tickCount_after (turns : List (Turn Register β)) (machine : Machine (RecordedBus β)) :
    (machine.after turns).bus.tickCount =
      machine.bus.tickCount + (moments turns machine).countP Moment.isTick := by
  induction turns generalizing machine with
  | nil => rfl
  | cons turn rest ih =>
      refine (ih (take turn machine).2).trans ?_
      rw [tickCount_take, moments, List.countP_append, Nat.add_assoc]

variable {config : Config} (honChip : config.onChip = true)
  (hlevels : decrementerLine ≤ config.levels)

include honChip hlevels

theorem counts_answer {cpu : Cpu} (h : cpu.IsConsistent config) (pulse : Pulse) :
    cpu.Counts [⟨cpu, pulse⟩] (cpu.answer pulse) := by
  refine .answer (h.config_eq ▸ honChip) ?_ pulse
  rw [h.size_interrupts]
  exact Nat.lt_succ_of_le (UInt8.le_iff_toNat_le.mp hlevels)

theorem counts_tick {machine : Machine β} (h : machine.cpu.IsConsistent config) :
    machine.cpu.Counts (tickMoments machine) (Exec.tick machine).2.cpu := by
  let clocked : Machine β := { machine with cpu := machine.cpu.tick }
  have htick := counts_answer honChip hlevels h .tick
  change machine.cpu.Counts (⟨machine.cpu, .tick⟩ :: (Bus.tick clocked.bus).1.toList.map _)
    (Exec.tickBus clocked).2.cpu
  rcases hbus : Bus.tick clocked.bus with ⟨_ | ⟨line, state⟩, bus⟩
  · rw [Exec.tickBus_of_quiet hbus]
    exact htick
  · rw [Exec.tickBus_of_driven hbus]
    exact htick.trans (counts_answer honChip hlevels h.tick (.drive line state))

theorem counts_ticks (count : Nat) {machine : Machine β} (h : machine.cpu.IsConsistent config) :
    machine.cpu.Counts (ticksMoments count machine) (Exec.ticks count machine).2.cpu := by
  induction count generalizing machine with
  | zero => exact .of_spared ⟨rfl, rfl⟩
  | succ count ih =>
      have hnext : (Exec.tick machine).2.cpu.IsConsistent config :=
        (Cpu.isConsistent_hostStable config).toTickStable.ticks_keeps 1 machine h
      exact (counts_tick honChip hlevels h).trans (ih hnext)

theorem counts_take {machine : Machine (RecordedBus β)} (h : machine.cpu.IsConsistent config)
    {turn : Turn Register β} (hspares : Spares turn machine) :
    machine.cpu.Counts (turnMoments turn machine) (take turn machine).2.cpu := by
  cases turn with
  | iterate limit =>
      have hcharged : (machine.charged limit).cpu.IsConsistent config :=
        (Cpu.isConsistent_hostStable config).advance (isConsistent_worked h) _
      have hspared : machine.cpu.chip.Spared (machine.charged limit).cpu.chip :=
        machine.restarts_worked.spared hspares
      have hticks := counts_ticks honChip hlevels (machine.tickTotal limit) hcharged
      have hnext : (take (.iterate limit) machine).2 =
          (Exec.ticks (machine.tickTotal limit) (machine.charged limit)).2 :=
        machine.iterate_snd limit
      rw [hnext]
      exact Cpu.Counts.trans (.of_spared hspared) hticks
  | drive line state => exact counts_answer honChip hlevels h (.drive line state)
  | setPc pc => exact .of_spared ⟨rfl, rfl⟩
  | read register =>
      have hcpu : (take (.read register) machine).2.cpu = machine.cpu :=
        cpu_read? register machine
      rw [hcpu]
      exact .of_spared ⟨rfl, rfl⟩
  | write register value =>
      exact .of_spared ((restarts_write? register value machine).spared hspares)
  | touch change => exact .of_spared ⟨rfl, rfl⟩

theorem counts_after {machine : Machine (RecordedBus β)} (h : machine.cpu.IsConsistent config)
    {turns : List (Turn Register β)} (hspares : History.Throughout take Spares turns machine) :
    machine.cpu.Counts (moments turns machine) (machine.after turns).cpu := by
  induction turns generalizing machine with
  | nil => exact .of_spared ⟨rfl, rfl⟩
  | cons turn rest ih =>
      have hnext : (take turn machine).2.cpu.IsConsistent config := isConsistent_after h [turn]
      exact (counts_take honChip hlevels h hspares.1).trans (ih hnext hspares.2)

end Machine

/-- The decrementer counts just the clocks of its mode, whatever is executed and whenever lines are
driven in the meantime. -/
theorem decrementer_counts_clocks {config : Config} (honChip : config.onChip = true)
    (hlevels : decrementerLine ≤ config.levels) {machine : Machine (RecordedBus β)}
    (hreachable : machine.Reachable config) {turns : List (Turn Register β)}
    (hspares : History.Throughout Machine.take Machine.Spares turns machine) :
    let start := machine.cpu.chip.decrementer.start.toNat
    let count := machine.cpu.chip.decrementer.count.toNat
    let moments := Machine.moments turns machine
    let clocks :=
      if machine.cpu.chip.mode = 2 then moments.countP Moment.isTick
      else if machine.cpu.chip.mode = 3 then moments.countP Moment.isEdge
      else 0
    moments.countP Moment.expires =
        (if start = 0 ∨ clocks < count then 0 else 1 + (clocks - count) / start) ∧
      (0 < start → (machine.after turns).cpu.chip.decrementer.count.toNat =
        if clocks < count then count - clocks else start - (clocks - count) % start) ∧
      (machine.after turns).bus.tickCount =
        machine.bus.tickCount + moments.countP Moment.isTick := by
  intro start count moments clocks
  have hconsistent := hreachable.isConsistent
  have hclocks : moments.countP (Moment.isCounted machine.cpu.chip.mode) = clocks :=
    Moment.countP_isCounted _ moments
  obtain ⟨-, hexpirations, hdecrementer⟩ :=
    Machine.counts_after honChip hlevels hconsistent hspares
  rw [hclocks] at hexpirations hdecrementer
  rw [hexpirations, hdecrementer]
  by_cases hstopped : machine.cpu.chip.decrementer.start = 0
  · have hzero : start = 0 := congrArg UInt16.toNat hstopped
    rw [Decrementer.clocks_of_stopped hstopped, if_pos (.inl hzero)]
    exact ⟨rfl, fun hpos => absurd hzero (Nat.ne_of_gt hpos), Machine.tickCount_after turns machine⟩
  · obtain ⟨hexpired, -, hleft⟩ :=
      hconsistent.decrementer.clocks_of_running hstopped clocks
    have hiff : machine.cpu.chip.decrementer.start = 0 ↔ start = 0 := UInt16.toNat_inj.symm
    rw [Decrementer.expirations] at hexpired
    simp only [hiff] at hexpired
    exact ⟨hexpired, fun _ => hleft, Machine.tickCount_after turns machine⟩

/-- A TMS9995 with a program that makes the decrementer count the edges of INT4, two at a time. -/
def Machine.beforeEdges : Machine (RecordedBus FlatBus) :=
  let program : List (UInt16 × UInt16) :=
    [(0x0000, 0xFFFA), (0x0002, 0x0100), (0x0012, 0x1EE0), (0x0100, 0x0200), (0x0102, 0x0002),
      (0x0104, 0x1D00), (0x0106, 0x1D01), (0x0108, 0x1000)]
  let memory := program.foldl (fun memory (address, word) => memory.pokeWord address word) .zero
  ⟨.ofConfig Variant.tms9995.config, { memory := memory }, []⟩

-- Irreducible, so that unification does not run the program.
@[irreducible]
def Machine.countingEdges : Machine (RecordedBus FlatBus) :=
  (RunLoop.steps Exec.step 3 (Exec.reset .beforeEdges).2).2

theorem Machine.reachable_countingEdges :
    Machine.countingEdges.Reachable Variant.tms9995.config := by
  have hnew : Machine.beforeEdges.Reachable Variant.tms9995.config := .create
  have hstep (machine : Machine (RecordedBus FlatBus))
      (h : machine.Reachable Variant.tms9995.config) :
      (Exec.step machine).2.Reachable Variant.tms9995.config := h.step
  unfold Machine.countingEdges
  exact RunLoop.steps_keeps hstep hnew.reset 3

/-- INT4 is driven to an active level four times, and only three of these are edges. -/
theorem decrementer_counts_clocks_of_edges :
    let turns : List (Turn Register FlatBus) :=
      [.drive 4 .asserted, .drive 4 .held, .drive 4 .clear, .iterate 100, .drive 4 .held,
        .drive 4 .clear, .drive 4 .asserted]
    let final := Machine.countingEdges.after turns
    Machine.countingEdges.cpu.chip.mode = 3 ∧
      History.Throughout Machine.take Machine.Spares turns Machine.countingEdges ∧
      (Machine.moments turns Machine.countingEdges).countP Moment.expires = 1 ∧
      final.cpu.chip.decrementer.count.toNat = 1 := by
  intro turns final
  have hmode : Machine.countingEdges.cpu.chip.mode = 3 := by decide +kernel
  have hspares : History.Throughout Machine.take Machine.Spares turns Machine.countingEdges :=
    ⟨trivial, trivial, trivial, ⟨by decide +kernel, by decide +kernel⟩, trivial, trivial, trivial,
      trivial⟩
  obtain ⟨hexpirations, hleft, -⟩ := decrementer_counts_clocks rfl (by decide)
    Machine.reachable_countingEdges hspares
  refine ⟨hmode, hspares, hexpirations.trans ?_, (hleft ?_).trans ?_⟩
  · decide +kernel
  · decide +kernel
  · decide +kernel

end TmsCores.Tms9900
