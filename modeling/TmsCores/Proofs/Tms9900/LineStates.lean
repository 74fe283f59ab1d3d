import TmsCores.Proofs.Interrupt.Latch
import TmsCores.Proofs.Interrupt.State
import TmsCores.Proofs.Tms9900.InterruptDiscipline

namespace TmsCores.Tms9900

/-- What happens to the interrupt inputs. -/
inductive LineEvent
  | driven (line : UInt8) (state : LineState)
  /-- INT4 is driven while the decrementer counts its edges. -/
  | counted (state : LineState)
  | acknowledged (line : UInt8)
  deriving DecidableEq

namespace LineEvent

/-- The state of a line after an event. -/
def follow (line : UInt8) (state : LineState) : LineEvent → LineState
  | .driven other level => if other = line then level else state
  | .counted _ => state
  | .acknowledged other => if other = line ∧ state = .held then .clear else state

def ofDrive (counting : Bool) (line : UInt8) (state : LineState) : LineEvent :=
  if counting && line == int4 then .counted state else .driven line state

def ofSignal? (counting : Bool) : BusEvent → Option LineEvent
  | .acknowledge line => some (.acknowledged line)
  | .tick (some (line, state)) => some (.ofDrive counting line state)
  | _ => none

variable {line : UInt8} {events : List LineEvent}

theorem foldl_follow_of_not_driven (h : ∀ level, .driven line level ∉ events)
    (state : LineState) :
    events.foldl (follow line) state =
      if state = .held ∧ .acknowledged line ∈ events then .clear else state := by
  induction events generalizing state with
  | nil => simp
  | cons event rest ih =>
      have hrest : ∀ level, .driven line level ∉ rest :=
        fun level hlevel => h level (List.mem_cons_of_mem event hlevel)
      rw [List.foldl_cons, ih hrest]
      cases event with
      | driven other level =>
          have hother : other ≠ line := fun heq => h level (heq ▸ List.mem_cons_self)
          simp [follow, hother]
      | counted level =>
          have hmem : .acknowledged line ∈ rest ↔ .acknowledged line ∈ .counted level :: rest := by
            simp
          exact ite_congr (propext (and_congr_right' hmem)) (fun _ => rfl) (fun _ => rfl)
      | acknowledged other =>
          by_cases hheld : state = .held
          · by_cases hline : line = other
            · simp [follow, hline, hheld]
            · simp [follow, hline, Ne.symm hline, hheld]
          · simp [follow, hheld]

theorem foldl_follow_of_driven_clear
    (h : ∀ level, .driven line level ∈ events → level = .clear) :
    events.foldl (follow line) .clear = .clear := by
  induction events with
  | nil => rfl
  | cons event rest ih =>
      have hrest := ih fun level hlevel => h level (List.mem_cons_of_mem event hlevel)
      have hevent : follow line .clear event = .clear := by
        cases event with
        | driven other level =>
            rw [follow]
            split
            · next hline => exact h level (hline ▸ List.mem_cons_self)
            · rfl
        | counted level => rfl
        | acknowledged other => exact ite_self _
      rw [List.foldl_cons, hevent, hrest]

end LineEvent

namespace Cpu

/-- Edges of INT4 go to the decrementer. -/
def countsEdges (cpu : Cpu) : Bool :=
  cpu.config.onChip && cpu.chip.countsEvents

theorem state_stable (line : UInt8) (state : LineState) :
    Stable fun cpu => cpu.interrupts.state line = state where
  setByte h _ _ := h
  setDecrementer h _ := h
  setInternalBit {cpu changed bit value} h hchanged := by
    unfold setInternalBit? at hchanged
    split at hchanged
    · exact absurd hchanged nofun
    · split at hchanged
      · exact Option.some.inj hchanged ▸ h
      · obtain ⟨number, _, rfl⟩ := Option.map_eq_some_iff.mp hchanged
        dsimp only
        split
        · exact (InterruptController.state_setLatch _ _ line value).trans h
        · exact h
  skip h _ := h
  setPc h _ := h
  setWp h _ := h
  setSt h _ := h
  modifySt _ h := h
  overflowTrap {cpu} h := by
    unfold overflowTrap
    split
    · exact (InterruptController.state_setLatch _ internalLine line true).trans h
    · exact h
  illegalTrap h := (InterruptController.state_setLatch _ internalLine line true).trans h

variable (cpu : Cpu) (line : UInt8)

theorem state_clockDecrementer :
    cpu.clockDecrementer.interrupts.state line = cpu.interrupts.state line := by
  unfold clockDecrementer
  dsimp only
  split
  · exact InterruptController.state_setLatch _ decrementerLine line true
  · rfl

theorem state_tick : cpu.tick.interrupts.state line = cpu.interrupts.state line := by
  unfold tick
  split
  · exact cpu.state_clockDecrementer line
  · rfl

theorem countsEdges_clockDecrementer : cpu.clockDecrementer.countsEdges = cpu.countsEdges := by
  unfold clockDecrementer
  dsimp only
  split
  · rfl
  · rfl

theorem countsEdges_tick : cpu.tick.countsEdges = cpu.countsEdges := by
  unfold tick
  split
  · exact cpu.countsEdges_clockDecrementer
  · rfl

theorem countsEdges_drive (state : LineState) :
    (cpu.drive line state).countsEdges = cpu.countsEdges := by
  unfold drive
  split
  · dsimp only
    split
    · split
      · exact countsEdges_clockDecrementer _
      · rfl
    · rfl
  · rfl

variable {cpu line} {driven : UInt8}

theorem interrupts_drive_of_not_counting (h : ¬(cpu.countsEdges && driven == int4) = true)
    (state : LineState) :
    (cpu.drive driven state).interrupts = (cpu.interrupts.drive driven state).2 := by
  unfold drive
  split
  · next hint4 =>
      obtain ⟨honChip, hdriven⟩ := Bool.and_eq_true_iff.mp hint4
      dsimp only
      split
      · next hcounts =>
          refine absurd ?_ h
          rw [countsEdges, honChip, hdriven]
          exact Bool.and_eq_true_iff.mpr ⟨hcounts, rfl⟩
      · rfl
  · rfl

theorem state_drive_of_counting (h : (cpu.countsEdges && driven == int4) = true)
    (state : LineState) :
    (cpu.drive driven state).interrupts.state line = cpu.interrupts.state line := by
  obtain ⟨hcounting, hdriven⟩ := Bool.and_eq_true_iff.mp h
  obtain ⟨honChip, hcounts⟩ := Bool.and_eq_true_iff.mp hcounting
  unfold drive
  rw [honChip, hdriven, Bool.and_self, if_pos rfl]
  dsimp only
  split
  · split
    · exact state_clockDecrementer _ line
    · rfl
  · next hquiet => exact absurd hcounts hquiet

theorem state_drive (hline : line.toNat < cpu.interrupts.size) (driven : UInt8)
    (state : LineState) :
    (cpu.drive driven state).interrupts.state line =
      (LineEvent.ofDrive cpu.countsEdges driven state).follow line (cpu.interrupts.state line) := by
  unfold LineEvent.ofDrive
  split
  · next hcounting => exact state_drive_of_counting hcounting state
  · next hquiet =>
      rw [interrupts_drive_of_not_counting hquiet]
      exact InterruptController.state_drive hline driven state

theorem query_of_state {path : String} (hpath : Path.parse? path = some (.state line))
    {input : InterruptLine} (hinput : cpu.interrupts.line? line = some input) :
    cpu.query path = some (.name (cpu.interrupts.state line).name) := by
  have hreported : cpu.interrupts.state line = input.state := by
    rw [InterruptController.state, hinput]
    rfl
  rw [query, hpath, Option.bind_some, observe, hinput, hreported]
  rfl

end Cpu

variable {β : Type} [Bus β]

namespace Machine

/-- What happens to the interrupt inputs in a stage of a history. -/
def lineEvents : Stage Register β → Machine (RecordedBus β) → List LineEvent
  | .turn (.drive line state), machine => [.ofDrive machine.cpu.countsEdges line state]
  | stage, machine =>
      let next := (pass stage machine).2
      (next.bus.signals.drop machine.bus.signals.length).filterMap
        (LineEvent.ofSignal? next.cpu.countsEdges)

/-- What happens to the interrupt inputs in a history, from its start on. -/
def lineHistory : List (Stage Register β) → Machine (RecordedBus β) → List LineEvent
  | [], _ => []
  | stage :: rest, machine => lineEvents stage machine ++ lineHistory rest (pass stage machine).2

variable {line : UInt8} {machine : Machine (RecordedBus β)}

theorem state_intervene {turn : Turn Register β} (hturn : turn.IsIntervention)
    (hdrive : ∀ driven state, turn ≠ .drive driven state) :
    (take turn machine).2.cpu.interrupts.state line = machine.cpu.interrupts.state line := by
  have hstable := Cpu.state_stable line (machine.cpu.interrupts.state line)
  have hsimulation := hstable.simulation (β := RecordedBus β)
  cases turn with
  | iterate limit => exact absurd hturn id
  | drive driven state => exact absurd rfl (hdrive driven state)
  | setPc | touch => rfl
  | read register => exact corresponds_self_iff.mp (hsimulation.read? register) machine rfl
  | write register value =>
      exact corresponds_self_iff.mp
        (hsimulation.write? fun _ => hsimulation.setSt value) machine rfl

theorem signals_intervene {turn : Turn Register β} (hturn : turn.IsIntervention) :
    (take turn machine).2.bus.signals = machine.bus.signals := by
  have hstable := Signalled.flagStable (β := β) machine.bus.signals
  exact hstable.intervene (fun hstate _ _ => hstate) (fun hstate _ => hstate) hturn
    (fun _ _ => Signalled.modifyCpu_keeps _ _) rfl

theorem state_reset :
    (Exec.reset machine).2.cpu.interrupts.state line = machine.cpu.interrupts.state line := by
  have hstable := Cpu.state_stable line (machine.cpu.interrupts.state line)
  refine hstable.toFlagStable.machine.reset (Exec.wake_keeps fun _ hstate => hstate)
    (fun _ _ hstate => hstate) ?_
  exact InterruptController.state_reset machine.cpu.interrupts line

theorem signals_reset : (Exec.reset machine).2.bus.signals = machine.bus.signals := by
  refine (Signalled.flagStable (β := β) machine.bus.signals).reset
    (Exec.wake_keeps (Signalled.setIdle_keeps _ false)) (fun _ => Signalled.modifyCpu_keeps _ _) ?_
  rfl

theorem state_checked :
    machine.checked.cpu.interrupts.state line =
      (machine.acknowledged.map LineEvent.acknowledged).foldl (LineEvent.follow line)
        (machine.cpu.interrupts.state line) := by
  rw [checked_eq, acknowledged]
  split
  · rfl
  · cases hpending : machine.cpu.pending with
    | none =>
        have hnone : machine.released.cpu.pending = none := hpending
        rw [Exec.serviceInterrupt_of_none hnone]
        rfl
    | some pending =>
        have hreleased : machine.released.cpu.pending = some pending := hpending
        have hstable := Cpu.state_stable line (machine.cpu.interrupts.state line)
        have hswitch := corresponds_self_iff.mp
          ((hstable.simulation (β := RecordedBus β)).contextSwitch
            (Exec.interruptVector machine.cpu.config pending)) machine.released rfl
        have hacknowledge := InterruptController.state_acknowledge
          (Exec.contextSwitch (Exec.interruptVector machine.cpu.config pending)
            machine.released).2.cpu.interrupts pending.line line
        rw [hswitch] at hacknowledge
        rw [Exec.serviceInterrupt_snd hreleased]
        exact Exec.wake_keeps (I := Machine.Has (·.interrupts.state line = _))
          (fun _ hstate => hstate) _ hacknowledge

theorem state_worked :
    machine.worked.cpu.interrupts.state line = machine.checked.cpu.interrupts.state line := by
  have hstable := Cpu.state_stable line (machine.checked.cpu.interrupts.state line)
  exact hstable.toFlagStable.machine.worked (fun _ _ _ _ hstate => hstate)
    (fun _ _ hstate => hstate) (fun _ _ _ => hstable.simulation) rfl

variable {config : Config}

theorem tick_follows (hconsistent : machine.cpu.IsConsistent config)
    (hline : line.toNat ≤ config.levels.toNat) :
    (Exec.tick machine).2.cpu.countsEdges = machine.cpu.countsEdges ∧
      (Exec.tick machine).2.cpu.interrupts.state line =
        ([BusEvent.tick (Bus.tick machine.bus).1].filterMap
          (LineEvent.ofSignal? machine.cpu.countsEdges)).foldl (LineEvent.follow line)
          (machine.cpu.interrupts.state line) := by
  let clocked : Machine (RecordedBus β) := { machine with cpu := machine.cpu.tick }
  have hsize : line.toNat < clocked.cpu.interrupts.size := by
    rw [hconsistent.tick.size_interrupts]
    exact Nat.lt_succ_of_le hline
  have hcounts : clocked.cpu.countsEdges = machine.cpu.countsEdges := machine.cpu.countsEdges_tick
  have hstate : clocked.cpu.interrupts.state line = machine.cpu.interrupts.state line :=
    machine.cpu.state_tick line
  change (Exec.tickBus clocked).2.cpu.countsEdges = _ ∧
    (Exec.tickBus clocked).2.cpu.interrupts.state line =
      ([BusEvent.tick (Bus.tick clocked.bus).1].filterMap _).foldl _ _
  rcases htick : Bus.tick clocked.bus with ⟨_ | ⟨driven, state⟩, bus⟩
  · rw [Exec.tickBus_of_quiet htick]
    exact ⟨hcounts, hstate⟩
  · rw [Exec.tickBus_of_driven htick]
    refine ⟨(Cpu.countsEdges_drive _ driven state).trans hcounts, ?_⟩
    rw [Cpu.state_drive hsize, hcounts, hstate]
    rfl

theorem ticks_follow (hconsistent : machine.cpu.IsConsistent config)
    (hline : line.toNat ≤ config.levels.toNat) (count : Nat) :
    ∃ ticks : List BusEvent,
      (Exec.ticks count machine).2.bus.signals = machine.bus.signals ++ ticks ∧
      (Exec.ticks count machine).2.cpu.countsEdges = machine.cpu.countsEdges ∧
      (Exec.ticks count machine).2.cpu.interrupts.state line =
        (ticks.filterMap (LineEvent.ofSignal? machine.cpu.countsEdges)).foldl
          (LineEvent.follow line) (machine.cpu.interrupts.state line) := by
  induction count generalizing machine with
  | zero => exact ⟨[], (List.append_nil _).symm, rfl, rfl⟩
  | succ count ih =>
      obtain ⟨hcounts, hstate⟩ := tick_follows hconsistent hline
      have hnext : (Exec.tick machine).2.cpu.IsConsistent config := by
        have hclock := (Cpu.isConsistent_hostStable config).toTickStable
        exact hclock.ticks_keeps 1 machine hconsistent
      obtain ⟨ticks, hsignals, hcounts', hstate'⟩ := ih hnext
      refine ⟨.tick (Bus.tick machine.bus).1 :: ticks, ?_, hcounts'.trans hcounts, ?_⟩
      · refine hsignals.trans ?_
        rw [bus_tick, RecordedBus.signals_tick, List.append_assoc]
        rfl
      · refine hstate'.trans ?_
        rw [hcounts, hstate, ← List.foldl_append, ← List.filterMap_append]
        rfl

theorem state_iterate (hconsistent : machine.cpu.IsConsistent config)
    (hline : line.toNat ≤ config.levels.toNat) (limit : Nat) :
    (Exec.iterate limit machine).2.cpu.interrupts.state line =
      (lineEvents (.turn (.iterate limit)) machine).foldl (LineEvent.follow line)
        (machine.cpu.interrupts.state line) := by
  let charged : Machine (RecordedBus β) :=
    (Exec.charge (Exec.iterate limit machine).1 machine.worked).2
  have hcharged : charged.cpu.IsConsistent config :=
    (Cpu.isConsistent_hostStable config).advance (isConsistent_worked hconsistent) _
  obtain ⟨ticks, hsignals, hcounts, hstate⟩ := ticks_follow hcharged hline
    (machine.worked.cpu.advance (Exec.iterate limit machine).1).1
  have hnext : (Exec.iterate limit machine).2 = (Exec.ticks
      (machine.worked.cpu.advance (Exec.iterate limit machine).1).1 charged).2 :=
    machine.iterate_snd limit
  rw [← hnext] at hsignals hcounts hstate
  have hworked : charged.bus.signals =
      machine.bus.signals ++ machine.acknowledged.map BusEvent.acknowledge :=
    machine.signals_worked.trans machine.signals_checked
  have hevents : lineEvents (.turn (.iterate limit)) machine =
      machine.acknowledged.map LineEvent.acknowledged ++
        ticks.filterMap (LineEvent.ofSignal? charged.cpu.countsEdges) := by
    change ((Exec.iterate limit machine).2.bus.signals.drop _).filterMap
      (LineEvent.ofSignal? (Exec.iterate limit machine).2.cpu.countsEdges) = _
    rw [hsignals, hcounts, hworked, List.append_assoc, List.drop_left, List.filterMap_append,
      List.filterMap_map]
    exact congrArg (· ++ _) (congrFun List.filterMap_eq_map machine.acknowledged)
  -- Lines are acknowledged before the clock of the peripherals ticks and drives them again.
  have hbefore : charged.cpu.interrupts.state line =
      (machine.acknowledged.map LineEvent.acknowledged).foldl (LineEvent.follow line)
        (machine.cpu.interrupts.state line) :=
    machine.state_worked.trans machine.state_checked
  rw [hstate, hbefore, hevents, List.foldl_append]

theorem lineEvents_of_quiet {stage : Stage Register β}
    (hdrive : ∀ driven state, stage ≠ .turn (.drive driven state))
    (hsignals : (pass stage machine).2.bus.signals = machine.bus.signals) :
    lineEvents stage machine = [] := by
  have hnone : ((pass stage machine).2.bus.signals.drop machine.bus.signals.length).filterMap
      (LineEvent.ofSignal? (pass stage machine).2.cpu.countsEdges) = [] := by
    rw [hsignals, List.drop_length, List.filterMap_nil]
  cases stage with
  | reset => exact hnone
  | turn turn =>
      cases turn with
      | drive driven state => exact absurd rfl (hdrive driven state)
      | iterate | setPc | read | write | touch => exact hnone

theorem state_pass (hconsistent : machine.cpu.IsConsistent config)
    (hline : line.toNat ≤ config.levels.toNat) (stage : Stage Register β) :
    (pass stage machine).2.cpu.interrupts.state line =
      (lineEvents stage machine).foldl (LineEvent.follow line)
        (machine.cpu.interrupts.state line) := by
  cases stage with
  | reset =>
      have hsignals : (pass (.reset : Stage Register β) machine).2.bus.signals =
          machine.bus.signals := signals_reset
      rw [lineEvents_of_quiet (by nofun) hsignals]
      exact state_reset
  | turn turn =>
      rcases turn.eq_iterate_or_isIntervention with ⟨limit, rfl⟩ | hturn
      · exact state_iterate hconsistent hline limit
      · by_cases hdriven : ∃ driven state, turn = .drive driven state
        · obtain ⟨driven, state, rfl⟩ := hdriven
          refine Cpu.state_drive ?_ driven state
          rw [hconsistent.size_interrupts]
          exact Nat.lt_succ_of_le hline
        · have hdrive : ∀ driven state, turn ≠ .drive driven state :=
            fun driven state heq => hdriven ⟨driven, state, heq⟩
          rw [lineEvents_of_quiet (fun driven state heq => hdrive driven state (Stage.turn.inj heq))
            (signals_intervene hturn)]
          exact state_intervene hturn hdrive

theorem state_through (hconsistent : machine.cpu.IsConsistent config)
    (hline : line.toNat ≤ config.levels.toNat) (stages : List (Stage Register β)) :
    (machine.through stages).cpu.interrupts.state line =
      (lineHistory stages machine).foldl (LineEvent.follow line)
        (machine.cpu.interrupts.state line) := by
  induction stages generalizing machine with
  | nil => rfl
  | cons stage rest ih =>
      rw [lineHistory, List.foldl_append, ← state_pass hconsistent hline]
      exact ih (isConsistent_pass hconsistent stage)

theorem active_of_acknowledges (h : machine.cpu.IsConsistent config)
    (hlatch : config.latch = .edgeLatched) {limit : Nat}
    (hacknowledges : machine.Acknowledges limit [line]) :
    machine.cpu.interrupts.isLatched line = true ∨
      machine.cpu.interrupts.state line = .asserted := by
  rw [acknowledges_iff, acknowledged_eq_singleton_iff] at hacknowledges
  obtain ⟨_, pending, hpending, rfl⟩ := hacknowledges
  obtain ⟨⟨input, hinput, hactive, _⟩, _⟩ := (h.pending_eq_some_iff.mp hpending).1
  exact (h.isActive_iff hlatch hinput).mp hactive

/-- A line that the host has let go is serviced for its latch only. -/
theorem latched_of_acknowledges (h : machine.cpu.IsConsistent config)
    (hlatch : config.latch = .edgeLatched) (hline : line.toNat ≤ config.levels.toNat)
    (hclear : machine.cpu.interrupts.state line = .clear) {later : List (Stage Register β)}
    (hquiet : ∀ level, .driven line level ∈ lineHistory later machine → level = .clear)
    {limit : Nat} (hacknowledges : (machine.through later).Acknowledges limit [line]) :
    (machine.through later).cpu.interrupts.isLatched line = true := by
  have hlater : (machine.through later).cpu.interrupts.state line = .clear := by
    rw [state_through h hline, hclear, LineEvent.foldl_follow_of_driven_clear hquiet]
  have hactive := active_of_acknowledges (isConsistent_through h later) hlatch hacknowledges
  exact hactive.resolve_right fun hasserted => absurd (hlater.symm.trans hasserted) nofun

end Machine

/-- Every line is in the state that it was driven to last, or clear if that was an edge request and
the line has been acknowledged since.  Only INT4 stays as it is while the decrementer counts its
edges.  This state is what is reported, and what service is judged by. -/
theorem lines_follow_host {config : Config} (hlatch : config.latch = .edgeLatched)
    {start : Machine (RecordedBus β)} (hstart : start.toProcessor = .ofConfig config)
    (stages : List (Stage Register β)) {line : UInt8} (hline : line.toNat ≤ config.levels.toNat) :
    let events := Machine.lineHistory stages start
    let machine := start.through stages
    let state := machine.cpu.interrupts.state line
    ((∀ level, .driven line level ∉ events) → state = .clear) ∧
      (∀ earlier level later, events = earlier ++ .driven line level :: later →
        (∀ other, .driven line other ∉ later) →
        state = if level = .held ∧ .acknowledged line ∈ later then .clear else level) ∧
      (∀ path, Path.parse? path = some (.state line) →
        machine.cpu.query path = some (.name state.name)) ∧
      (∃ input, machine.cpu.interrupts.line? line = some input ∧
        (input.isActive = true ↔
          machine.cpu.interrupts.isLatched line = true ∨ state = .asserted)) ∧
      (∀ limit, machine.Acknowledges limit [line] →
        machine.cpu.interrupts.isLatched line = true ∨ state = .asserted) ∧
      ∀ later limit, state = .clear →
        (∀ level, .driven line level ∈ Machine.lineHistory later machine → level = .clear) →
        (machine.through later).Acknowledges limit [line] →
        (machine.through later).cpu.interrupts.isLatched line = true := by
  intro events machine state
  have hnew : start.cpu = .ofConfig config := congrArg (·.cpu) hstart
  have hfirst : start.cpu.IsConsistent config := hnew ▸ Cpu.ofConfig_isConsistent config
  have hconsistent : machine.cpu.IsConsistent config := Machine.isConsistent_through hfirst stages
  have hclear : start.cpu.interrupts.state line = .clear := by
    rw [hnew]
    exact InterruptController.state_ofLines _ _ line
  have hstate : state = events.foldl (LineEvent.follow line) .clear := by
    rw [← hclear]
    exact Machine.state_through hfirst hline stages
  obtain ⟨input, hinput⟩ := hconsistent.exists_line? hline
  refine ⟨fun hnever => ?_, fun earlier level later hsplit hlast => ?_,
    fun path hpath => Cpu.query_of_state hpath hinput,
    ⟨input, hinput, hconsistent.isActive_iff hlatch hinput⟩,
    fun limit => Machine.active_of_acknowledges hconsistent hlatch,
    fun later limit hdropped hquiet =>
      Machine.latched_of_acknowledges hconsistent hlatch hline hdropped hquiet⟩
  · rw [hstate, LineEvent.foldl_follow_of_not_driven hnever]
    exact if_neg fun h => absurd h.1 nofun
  · rw [hstate, hsplit, List.foldl_append, List.foldl_cons,
      LineEvent.foldl_follow_of_not_driven hlast, LineEvent.follow, if_pos rfl]

/-- A request that a reset leaves standing, and that the host then takes back. -/
theorem lines_follow_host_through_reset :
    let start : Machine (RecordedBus FlatBus) :=
      ⟨.ofConfig Variant.tms9995.config, { memory := Memory.zero }, []⟩
    let machine := start.through [.turn (.drive 1 .asserted), .reset, .turn (.drive 1 .clear)]
    Variant.tms9995.config.latch = .edgeLatched ∧
      machine.cpu.interrupts.state 1 = .clear ∧
      machine.cpu.query "irq.1.state" = some (.name "Clear") := by
  intro start machine
  have hlatch : Variant.tms9995.config.latch = .edgeLatched := rfl
  have hstart : start.toProcessor = .ofConfig Variant.tms9995.config := rfl
  have hline : (1 : UInt8).toNat ≤ Variant.tms9995.config.levels.toNat := by decide
  obtain ⟨_, hlast, hreport, _⟩ := lines_follow_host hlatch hstart
    [.turn (.drive 1 .asserted), .reset, .turn (.drive 1 .clear)] hline
  have hclear := hlast [.driven 1 .asserted] .clear [] (by decide +kernel) nofun
  have hreported := hreport "irq.1.state" (by decide +kernel)
  rw [hclear] at hreported
  exact ⟨hlatch, hclear, hreported⟩

/-- A TMS9995 before a program that starts to count the edges of INT4 and then lets its level through,
as the handler of INT4 does. -/
def Machine.beforeCounting : Machine (RecordedBus FlatBus) :=
  let program : List (UInt16 × UInt16) :=
    [(0x0002, 0x0100), (0x0012, 0x0102), (0x0018, 0x1EE0), (0x0100, 0x1D00), (0x0102, 0x0300),
      (0x0104, 0x0004)]
  let memory := program.foldl (fun memory (address, word) => memory.pokeWord address word) .zero
  ⟨.ofConfig Variant.tms9995.config, { memory := memory }, []⟩

/-- A request on INT4 stands for ever when the decrementer starts to count its edges: the host takes
it back, and still it is serviced time and again. -/
theorem cleared_line_stays_asserted :
    let machine := Machine.beforeCounting.through [.reset, .turn (.drive 4 .asserted),
      .turn (.iterate 100), .turn (.drive 4 .clear)]
    let serviced := machine.through [.turn (.iterate 100), .turn (.iterate 100)]
    machine.cpu.interrupts.state 4 = .asserted ∧
      serviced.cpu.interrupts.state 4 = .asserted ∧
      serviced.cpu.interrupts.isLatched 4 = false ∧
      serviced.Acknowledges 100 [4] := by
  refine ⟨by decide +kernel, by decide +kernel, by decide +kernel, ?_⟩
  exact Machine.acknowledges_iff.mpr (by decide +kernel)

end TmsCores.Tms9900
