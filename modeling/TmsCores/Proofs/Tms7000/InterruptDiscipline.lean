import TmsCores.Bus.Flat
import TmsCores.Proofs.Tms7000.Latch

namespace TmsCores.Tms7000

variable {β : Type} [Bus β] {config : Config}

namespace Cpu

/-- No interrupt is let through. -/
def Closed (cpu : Cpu) : Prop :=
  Status.has cpu.st Status.interruptEnable = false

theorem Closed.pending_eq {cpu : Cpu} (h : cpu.Closed) : cpu.pending = none := by
  rw [Cpu.pending, h, if_neg Bool.false_ne_true]

theorem closed_storeStable : StoreStable Closed where
  setRegister h _ _ := h
  setPc h _ := h
  setSp h _ := h
  setFlags hst h := by
    rw [Closed, Status.has, hst.enable_eq]
    exact h
  clearSt _ := by
    exact (by decide : Status.has 0 Status.interruptEnable = false)
  writeInterruptControl h _ := h
  setReload h _ := h
  writeTimerControl h _ := h

theorem closed_clockStable : ClockStable Closed where
  clockTimer h := h
  advance h _ := h
  drive {cpu} h line state := by
    unfold Cpu.drive
    dsimp only
    split
    · exact h
    · exact h

end Cpu

namespace Machine

/-- An iteration acknowledges these lines, before it lets the peripheral clock tick. -/
def Acknowledges (limit : Nat) (lines : List UInt8) (machine : Machine (RecordedBus β)) : Prop :=
  ∃ ticks, machine.bus.Heard (Exec.iterate limit machine).2.bus lines ticks

/-- A turn puts a new value into the status register: an instruction does, or the host. -/
def LoadsStatus : Turn Register β → Machine (RecordedBus β) → Prop
  | .iterate _, machine => ∃ instruction ∈ machine.executes, instruction.LoadsStatus
  | .write .st _, _ => True
  | _, _ => False

/-- A turn takes back the request of a line: the line is acknowledged, or the program writes a one
to its flag bit in IOCNT0. -/
def DropsLatch (line : UInt8) : Turn Register β → Machine (RecordedBus β) → Prop
  | .iterate limit, machine =>
      machine.Acknowledges limit [line] ∨
        ∃ value, machine.stores = some (.interruptControl, value) ∧
          value.toNat.testBit (2 * line.toNat + 1) = true
  | _, _ => False

variable {machine : Machine (RecordedBus β)}

theorem acknowledges_iff {limit : Nat} {lines : List UInt8} :
    machine.Acknowledges limit lines ↔ machine.acknowledged = lines := by
  constructor
  · rintro ⟨_, hheard⟩
    exact (machine.heard_iterate limit).lines_eq hheard
  · rintro rfl
    exact ⟨_, machine.heard_iterate limit⟩

omit [Bus β] in
theorem mem_acknowledged_iff (hconsistent : machine.cpu.IsConsistent config) {number : UInt8} :
    number ∈ machine.acknowledged ↔ machine.cpu.Foremost number := by
  rw [acknowledged, List.mem_map]
  simp only [Option.mem_toList, hconsistent.pending_eq_some_iff]
  constructor
  · rintro ⟨pending, ⟨hforemost, _⟩, rfl⟩
    exact hforemost
  · intro hforemost
    exact ⟨Cpu.request number, ⟨hforemost, rfl⟩, rfl⟩

omit [Bus β] in
theorem length_acknowledged_le : machine.acknowledged.length ≤ 1 := by
  rw [acknowledged, List.length_map]
  cases machine.cpu.pending with
  | none => exact Nat.zero_le 1
  | some => exact Nat.le_refl 1

omit [Bus β] in
theorem acknowledged_eq_singleton_iff {number : UInt8} :
    machine.acknowledged = [number] ↔
      ∃ pending, machine.cpu.pending = some pending ∧ pending.line = number := by
  rw [acknowledged]
  cases machine.cpu.pending <;> simp

omit [Bus β] in
theorem acknowledged_eq_of_mem {number : UInt8} (h : number ∈ machine.acknowledged) :
    machine.acknowledged = [number] := by
  rw [acknowledged_eq_singleton_iff]
  rw [acknowledged, List.mem_map] at h
  obtain ⟨pending, hpending, hline⟩ := h
  exact ⟨pending, Option.mem_toList.mp hpending, hline⟩

theorem st_checked {number : UInt8} (h : machine.acknowledged = [number]) :
    machine.checked.cpu.st = 0 := by
  obtain ⟨pending, hpending, _⟩ := acknowledged_eq_singleton_iff.mp h
  have henter := Exec.enterHandler_leads pending.line (Exec.clearLeftovers machine).2 trivial
  have hacknowledge : Keeps (Machine.Has (·.st = 0) : Machine (RecordedBus β) → Prop)
      (Exec.acknowledge pending.line) := fun _ hstate => hstate
  have hleave : Keeps (Machine.Has (·.st = 0) : Machine (RecordedBus β) → Prop)
      (Exec.setIdle false) := fun _ hstate => hstate
  have hwake := Exec.wake_keeps hleave _ (hacknowledge _ henter)
  rw [checked_of_some hpending]
  exact hwake

theorem closed_iterate {limit : Nat}
    (hload : ∀ instruction ∈ machine.executes, ¬instruction.LoadsStatus)
    (h : machine.checked.cpu.Closed) : (Exec.iterate limit machine).2.cpu.Closed := by
  have hstable := Cpu.closed_storeStable
  have hworked : machine.worked.cpu.Closed := by
    refine hstable.toRegisterStable.machine.worked (fun _ _ hstate => hstate) ?_ ?_ h
    · exact fun instruction hexecutes hloads => absurd hloads (hload instruction hexecutes)
    · exact fun operands _ => hstable.writeAt_keeps operands.1 operands.2
  rw [iterate_snd]
  exact corresponds_self_iff.mp (Cpu.closed_clockStable.simulation.account _) _ hworked

theorem closed_take {turn : Turn Register β} (hload : ¬LoadsStatus turn machine)
    (h : machine.cpu.Closed) : (take turn machine).2.cpu.Closed := by
  rcases turn.eq_iterate_or_isIntervention with ⟨limit, rfl⟩ | hturn
  · refine closed_iterate (fun instruction hexecutes hloads => ?_) ?_
    · exact hload ⟨instruction, hexecutes, hloads⟩
    · -- Nothing is due, so that the interrupt check leaves all as it is.
      rw [checked_of_none h.pending_eq]
      exact h
  · refine Cpu.closed_storeStable.toRegisterStable.intervene Cpu.closed_clockStable.drive hturn
      (fun value hst => ?_) h
    subst hst
    exact absurd trivial hload

/-- After a service none follows for as long as nothing loads the status register. -/
theorem closed_after_of_acknowledged {limit : Nat} {number : UInt8}
    (h : machine.acknowledged = [number]) {later : List (Turn Register β)}
    (hload : History.Throughout take (fun turn machine => ¬LoadsStatus turn machine)
      (.iterate limit :: later) machine) :
    (machine.after (.iterate limit :: later)).cpu.Closed := by
  have hclosed : machine.checked.cpu.Closed := by
    rw [Cpu.Closed, st_checked h]
    decide
  have hfirst : (take (.iterate limit) machine).2.cpu.Closed :=
    closed_iterate (fun instruction hexecutes hloads =>
      hload.1 ⟨instruction, hexecutes, hloads⟩) hclosed
  have hlast := hload.2.keeps (I := Machine.Has Cpu.Closed) (fun _ _ => closed_take) hfirst
  exact hlast

theorem latched_take {line : UInt8} {turn : Turn Register β} (hline : line ∈ inputLines)
    (hdrop : ¬DropsLatch line turn machine) (h : machine.cpu.Latched line) :
    (take turn machine).2.cpu.Latched line := by
  rcases turn.eq_iterate_or_isIntervention with ⟨limit, rfl⟩ | hturn
  · have hkept : line ∉ machine.acknowledged := fun hmem =>
      hdrop (.inl (acknowledges_iff.mpr (acknowledged_eq_of_mem hmem)))
    have hworked : machine.worked.cpu.Latched line := by
      refine latched_worked (fun value hstores => ?_) (latched_checked hkept h)
      rw [PeripheralFile.clearsLatch_eq hline]
      exact Bool.eq_false_iff.mpr fun hclears => hdrop (.inr ⟨value, hstores, hclears⟩)
    change (Exec.iterate limit machine).2.cpu.Latched line
    rw [iterate_snd]
    exact latched_account _ hworked
  · exact (Cpu.latched_registerStable line).intervene (Cpu.latched_clockStable line).drive hturn
      (fun _ _ _ hcpu => hcpu) h

end Machine

/-- Interrupts are serviced in the order of their lines, and none is lost.  An iteration
acknowledges the lowest of the lines that it finds eligible, and no other.  After a service the
status register is clear, and nothing is serviced until something loads it anew.  A rising edge sets
the latch of its line, and timer 1 that of INT2 when it runs out, also when this comes with a tick
at the end of an iteration.  A latch stays set until its line is acknowledged or the program clears
it. -/
theorem serviced_in_order {start : Machine (RecordedBus β)} (hstart : start.Reachable config)
    (before : List (Turn Register β)) :
    let machine := start.after before
    (∀ limit, ∃ lines, machine.Acknowledges limit lines ∧ lines.length ≤ 1 ∧
      ∀ number, number ∈ lines ↔ machine.cpu.Foremost number) ∧
    (∀ limit number, machine.Acknowledges limit [number] → machine.checked.cpu.st = 0 ∧
      ∀ later, History.Throughout Machine.take
          (fun turn machine => ¬Machine.LoadsStatus turn machine)
          (.iterate limit :: later) machine →
        ∀ limit', (machine.after (.iterate limit :: later)).Acknowledges limit' []) ∧
    (∀ line ∈ inputLines, ∀ state : LineState, state.isActive = true →
      (machine.cpu.interrupts.state line = .clear → (machine.cpu.drive line state).Latched line) ∧
      ∀ limit, ∀ count < machine.tickTotal limit,
        (Bus.tick (machine.ticking limit count).bus).1 = some (line, state) →
        (machine.ticking limit count).cpu.interrupts.state line = .clear →
        (Exec.iterate limit machine).2.cpu.Latched line) ∧
    (∀ limit, ∀ count < machine.tickTotal limit,
      (machine.ticking limit count).cpu.peripherals.timer.clock.1 = true →
      (Exec.iterate limit machine).2.cpu.Latched int2) ∧
    ∀ line, machine.cpu.Latched line →
      ∀ later, History.Throughout Machine.take
          (fun turn machine => ¬Machine.DropsLatch line turn machine) later machine →
        (machine.after later).cpu.Latched line := by
  intro machine
  have hconsistent : machine.cpu.IsConsistent config :=
    Machine.isConsistent_after hstart.isConsistent before
  refine ⟨fun limit => ?_, fun limit number hfirst => ?_, fun line hline state hactive => ?_,
    ?_, fun line hlatched later hdrop => ?_⟩
  · exact ⟨machine.acknowledged, Machine.acknowledges_iff.mpr rfl, Machine.length_acknowledged_le,
      fun number => Machine.mem_acknowledged_iff hconsistent⟩
  · rw [Machine.acknowledges_iff] at hfirst
    refine ⟨Machine.st_checked hfirst, fun later hload limit' => ?_⟩
    have hclosed := Machine.closed_after_of_acknowledged hfirst hload
    rw [Machine.acknowledges_iff, Machine.acknowledged, hclosed.pending_eq]
    rfl
  · refine ⟨fun hclear => hconsistent.latched_drive hline hclear hactive, ?_⟩
    intro limit count hcount hdriven hclear
    exact Machine.latched_iterate_of_driven hconsistent hline hcount hdriven hclear hactive
  · exact fun limit count => Machine.latched_iterate_of_expired hconsistent
  · have hline := hconsistent.mem_inputLines_of_latched hlatched
    exact hdrop.keeps (I := Machine.Has (Cpu.Latched line))
      (fun _ _ => Machine.latched_take hline) hlatched

/-- A pulse on INT1 that is over before interrupts are enabled is remembered. -/
theorem serviced_in_order_after_pulse :
    let start : Machine (RecordedBus FlatBus) :=
      ⟨.ofConfig Variant.tms7000.config, { memory := Memory.zero }, []⟩
    (start.after [.drive int1 .held, .drive int1 .clear, .iterate 100]).cpu.Latched int1 := by
  intro start
  have hstart : start.Reachable Variant.tms7000.config := .create
  obtain ⟨_, _, hedge, _, _⟩ := serviced_in_order hstart []
  have hlatched : (start.after [.drive int1 .held]).cpu.Latched int1 :=
    (hedge int1 (by decide) .held rfl).1 (by decide)
  obtain ⟨_, _, _, _, hkept⟩ := serviced_in_order hstart [.drive int1 .held]
  refine hkept int1 hlatched [.drive int1 .clear, .iterate 100] ⟨id, ?_, trivial⟩
  rintro (hacknowledged | ⟨value, hstores, _⟩)
  · rw [Machine.acknowledges_iff] at hacknowledged
    exact absurd hacknowledged (by decide +kernel)
  · have hquiet : (Machine.take (.drive int1 .clear)
        (start.after [.drive int1 .held])).2.stores = none := by
      decide +kernel
    rw [hquiet] at hstores
    exact absurd hstores nofun

end TmsCores.Tms7000
