import TmsCores.Bus.Flat
import TmsCores.Proofs.Tms9900.History
import TmsCores.Proofs.Tms9900.InterruptMask
import TmsCores.Proofs.Tms9900.Suppression

namespace TmsCores.Tms9900

variable {β : Type} [Bus β] {config : Config}

namespace Machine

/-- An iteration acknowledges these lines, before it lets the peripheral clock tick. -/
def Acknowledges (limit : Nat) (lines : List UInt8) (machine : Machine (RecordedBus β)) : Prop :=
  ∃ ticks, machine.bus.Heard (Exec.iterate limit machine).2.bus lines ticks

/-- Once a turn is over, the latest iteration is one that has executed BLWP or XOP.  For the
iterations before the turn `held` tells it. -/
def HeldAfter (held : Prop) : Turn Register β → Machine (RecordedBus β) → Prop
  | .iterate _, machine => ∃ instruction ∈ machine.executes, instruction.HoldsInterrupts
  | _, _ => held

/-- The latest iteration of a history has executed BLWP or XOP.  For the time before the history
`held` tells it. -/
def HeldOff (held : Prop) : List (Turn Register β) → Machine (RecordedBus β) → Prop
  | [], _ => held
  | turn :: rest, machine => HeldOff (HeldAfter held turn machine) rest (take turn machine).2

/-- A turn puts a new value into the interrupt mask: an instruction does, or the host. -/
def LoadsMask : Turn Register β → Machine (RecordedBus β) → Prop
  | .iterate _, machine => ∃ instruction ∈ machine.executes, instruction.LoadsMask
  | .write .st _, _ => True
  | _, _ => False

variable {machine : Machine (RecordedBus β)}

theorem acknowledges_iff {limit : Nat} {lines : List UInt8} :
    machine.Acknowledges limit lines ↔ machine.acknowledged = lines := by
  constructor
  · rintro ⟨_, hheard⟩
    exact (machine.heard_iterate limit).lines_eq hheard
  · rintro rfl
    exact ⟨_, machine.heard_iterate limit⟩

omit [Bus β] in
theorem acknowledged_eq_singleton_iff {number : UInt8} :
    machine.acknowledged = [number] ↔
      machine.cpu.suppress = false ∧
        ∃ pending, machine.cpu.pending = some pending ∧ pending.line = number := by
  rw [acknowledged]
  cases machine.cpu.suppress with
  | true => simp
  | false => cases machine.cpu.pending <;> simp

theorem idle_suppress_intervene {turn : Turn Register β} (hturn : turn.IsIntervention) :
    (take turn machine).2.cpu.idle = machine.cpu.idle ∧
      (take turn machine).2.cpu.suppress = machine.cpu.suppress := by
  have hstable := Cpu.stable_of_idle_suppress fun idle suppress =>
    idle = machine.cpu.idle ∧ suppress = machine.cpu.suppress
  refine hstable.toFlagStable.machine.intervene (fun {state} hstate line level => ?_)
    (fun hstate _ => hstate) hturn (fun value _ => ?_) ⟨rfl, rfl⟩
  · have hcore := state.cpu.core_drive line level
    exact ⟨(Cpu.eq_of_core (·.idle) (fun _ => rfl) hcore).trans hstate.1,
      (Cpu.eq_of_core (·.suppress) (fun _ => rfl) hcore).trans hstate.2⟩
  · exact Exec.modifyCpu_keeps fun hcpu => hstable.setSt hcpu value

theorem suppress_take_iff (turn : Turn Register β) :
    (take turn machine).2.cpu.suppress = true ↔
      HeldAfter (machine.cpu.suppress = true) turn machine := by
  rcases turn.eq_iterate_or_isIntervention with ⟨limit, rfl⟩ | hturn
  · exact suppress_iterate_iff limit
  · rw [(idle_suppress_intervene hturn).2]
    cases turn with
    | iterate => exact absurd hturn id
    | drive | setPc | read | write | touch => exact Iff.rfl

theorem suppress_after_iff (turns : List (Turn Register β)) :
    (machine.after turns).cpu.suppress = true ↔
      HeldOff (machine.cpu.suppress = true) turns machine := by
  induction turns generalizing machine with
  | nil => exact Iff.rfl
  | cons turn rest ih =>
      rw [HeldOff, ← propext (suppress_take_iff turn)]
      exact ih

theorem mask_take_le {turn : Turn Register β} (hconsistent : machine.cpu.IsConsistent config)
    (hload : ¬LoadsMask turn machine) : (take turn machine).2.cpu.mask ≤ machine.cpu.mask := by
  rcases turn.eq_iterate_or_isIntervention with ⟨limit, rfl⟩ | hturn
  · have hworked := mask_iterate_le limit fun instruction hexecutes hloads =>
      hload ⟨instruction, hexecutes, hloads⟩
    exact UInt8.le_trans hworked (mask_checked_le hconsistent)
  · have hclock := Cpu.maskAtMost_clockStable machine.cpu.mask
    refine (Cpu.maskAtMost_flagStable machine.cpu.mask).machine.intervene
      (fun hstate line level => hclock.drive hstate line level) (fun hstate _ => hstate) hturn
      (fun value hst => ?_) (UInt8.le_refl _)
    subst hst
    exact absurd trivial hload

theorem mask_after_le (hconsistent : machine.cpu.IsConsistent config)
    {turns : List (Turn Register β)}
    (hload : History.Throughout take (fun turn machine => ¬LoadsMask turn machine) turns machine) :
    (machine.after turns).cpu.mask ≤ machine.cpu.mask := by
  have hkept := hload.keeps (fun turn state hturn hstate => ?_)
    (I := fun state => state.cpu.IsConsistent config ∧ state.cpu.mask ≤ machine.cpu.mask)
    ⟨hconsistent, UInt8.le_refl _⟩
  · exact hkept.2
  · refine ⟨isConsistent_after hstate.1 [turn], ?_⟩
    exact UInt8.le_trans (mask_take_le hstate.1 hturn) hstate.2

theorem IsFresh.suppress_eq {machine : Machine β} (h : machine.IsFresh config) :
    machine.cpu.suppress = false := by
  rcases h with hnew | ⟨before, _, rfl⟩
  · rw [hnew]
    rfl
  · exact Cpu.released_hostStable.toServiceStable.reset (fun hcpu _ => hcpu) rfl

/-- A service of a line that is not LOAD and has not level 0 keeps this level and those above it out
for as long as nothing loads the mask. -/
theorem level_lt_of_acknowledged (hconsistent : machine.cpu.IsConsistent config) {limit : Nat}
    {number other : UInt8} (hfirst : machine.acknowledged = [number])
    (hlevel : 1 ≤ config.level number) {later : List (Turn Register β)}
    (hload : History.Throughout take (fun turn machine => ¬LoadsMask turn machine)
      (.iterate limit :: later) machine)
    (hother : (machine.after (.iterate limit :: later)).acknowledged = [other]) :
    other = config.loadLine ∨ config.level other < config.level number := by
  obtain ⟨hsuppress, pending, hpending, rfl⟩ := acknowledged_eq_singleton_iff.mp hfirst
  obtain ⟨_, hrequest⟩ := hconsistent.pending_eq_some_iff.mp hpending
  have hline : pending.line ≠ config.loadLine := by
    intro hload
    rw [Config.level, if_pos hload] at hlevel
    exact absurd hlevel (by decide)
  have hpositive : 1 ≤ pending.level.toNat := by
    rw [hrequest]
    exact UInt8.le_iff_toNat_le.mp hlevel
  -- The service takes the mask below the level of its line, and there the mask stays.
  have hbelow : (pending.level - 1).toNat = pending.level.toNat - 1 :=
    UInt8.toNat_sub_of_le _ _ (UInt8.le_iff_toNat_le.mpr hpositive)
  have hchecked := mask_checked_le_of_pending hconsistent hsuppress hpending hline
    (Nat.le_of_eq hbelow.symm)
  have hiterate := mask_iterate_le limit fun instruction hexecutes hloads =>
    hload.1 ⟨instruction, hexecutes, hloads⟩
  have hnext := isConsistent_after hconsistent [.iterate limit]
  have hlater := UInt8.le_trans (mask_after_le hnext hload.2) (UInt8.le_trans hiterate hchecked)
  obtain ⟨_, pending', hpending', rfl⟩ := acknowledged_eq_singleton_iff.mp hother
  have hfinal := isConsistent_after hnext later
  obtain ⟨⟨⟨line, _, _, hadmitted⟩, _⟩, _⟩ := hfinal.pending_eq_some_iff.mp hpending'
  rw [hfinal.config_eq] at hadmitted
  refine hadmitted.imp_right fun hmask => ?_
  have hbound := UInt8.le_iff_toNat_le.mp (UInt8.le_trans hmask hlater)
  have hsame : config.level pending.line = pending.level := congrArg PendingLine.level hrequest.symm
  rw [hsame, UInt8.lt_iff_toNat_lt]
  omega

end Machine

/-- Interrupts are serviced by their priority.  An iteration acknowledges the foremost of the lines
that it finds eligible, and no other.  It acknowledges none when the iteration before it has
executed BLWP or XOP.  Once a line above level 0 is serviced, lines of its level or above wait until
the mask is loaded anew.  Neither a service nor any other instruction lets more lines through. -/
theorem serviced_by_priority {start : Machine (RecordedBus β)} (hstart : start.Reachable config)
    (before : List (Turn Register β)) :
    let machine := start.after before
    let held := Machine.HeldOff (start.cpu.suppress = true) before start
    (start.IsFresh config → start.cpu.suppress = false) ∧
    (∀ limit,
      (held → machine.Acknowledges limit []) ∧
      (¬held → (∀ number, ¬machine.cpu.Eligible number) → machine.Acknowledges limit []) ∧
      (¬held → (∃ number, machine.cpu.Eligible number) →
        ∃ number, machine.cpu.Foremost number ∧ machine.Acknowledges limit [number])) ∧
    (∀ limit number, 1 ≤ config.level number → machine.Acknowledges limit [number] →
      ∀ later, History.Throughout Machine.take (fun turn machine => ¬Machine.LoadsMask turn machine)
          (.iterate limit :: later) machine →
        ∀ limit' other, (machine.after (.iterate limit :: later)).Acknowledges limit' [other] →
          other = config.loadLine ∨ config.level other < config.level number) ∧
    machine.checked.cpu.mask ≤ machine.cpu.mask ∧
    ∀ turn, ¬Machine.LoadsMask turn machine →
      (Machine.take turn machine).2.cpu.mask ≤ machine.cpu.mask := by
  intro machine held
  have hconsistent : machine.cpu.IsConsistent config :=
    Machine.isConsistent_after hstart.isConsistent before
  have hheld : machine.cpu.suppress = true ↔ held := Machine.suppress_after_iff before
  refine ⟨Machine.IsFresh.suppress_eq, fun limit => ⟨fun hholds => ?_, fun hfree hnone => ?_,
    fun hfree ⟨number, heligible⟩ => ?_⟩, ?_, Machine.mask_checked_le hconsistent, ?_⟩
  · rw [Machine.acknowledges_iff, Machine.acknowledged, if_pos (hheld.mpr hholds)]
  · rw [Machine.acknowledges_iff, Machine.acknowledged, hconsistent.pending_eq_none_iff.mpr hnone]
    exact ite_self _
  · cases hpending : machine.cpu.pending with
    | none => exact absurd heligible (hconsistent.pending_eq_none_iff.mp hpending number)
    | some pending =>
        refine ⟨pending.line, (hconsistent.pending_eq_some_iff.mp hpending).1, ?_⟩
        rw [Machine.acknowledges_iff, Machine.acknowledged_eq_singleton_iff]
        exact ⟨Bool.eq_false_iff.mpr fun hsuppress => hfree (hheld.mp hsuppress),
          pending, hpending, rfl⟩
  · intro limit number hlevel hfirst later hload limit' other hother
    rw [Machine.acknowledges_iff] at hfirst hother
    exact Machine.level_lt_of_acknowledged hconsistent hfirst hlevel hload hother
  · exact fun turn hload => Machine.mask_take_le hconsistent hload

/-- Two requests under mask 5.  While the handler of the first one runs, only LOAD and the levels
below it are serviced. -/
theorem serviced_by_priority_of_two :
    let start : Machine (RecordedBus FlatBus) :=
      ⟨.ofConfig Variant.tms9900.config, { memory := Memory.zero }, []⟩
    let machine := start.after [.write .st 5, .drive 3 .asserted, .drive 2 .asserted]
    machine.Acknowledges 100 [2] ∧
      ∀ limit other, (machine.after [.iterate 100]).Acknowledges limit [other] →
        other = 16 ∨ Variant.tms9900.config.level other < 2 := by
  intro start machine
  have hstart : start.Reachable Variant.tms9900.config := .create
  have hfirst : machine.Acknowledges 100 [2] :=
    Machine.acknowledges_iff.mpr (by decide +kernel)
  have hload : History.Throughout Machine.take
      (fun turn machine => ¬Machine.LoadsMask turn machine) [.iterate 100] machine := by
    have hillegal : machine.executes = none := by decide +kernel
    refine ⟨?_, trivial⟩
    rintro ⟨instruction, hexecutes, _⟩
    rw [hillegal] at hexecutes
    exact absurd hexecutes nofun
  obtain ⟨_, _, hlower, _⟩ := serviced_by_priority hstart
    [.write .st 5, .drive 3 .asserted, .drive 2 .asserted]
  exact ⟨hfirst, hlower 100 2 (by decide) hfirst [] hload⟩

end TmsCores.Tms9900
