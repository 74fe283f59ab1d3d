import Mathlib.Logic.Function.Iterate
import TmsCores.Proofs.Bus.Confinement

namespace TmsCores

namespace BusEvent

/-- An acknowledge or a tick.  All other calls are accesses, or news of the idle state. -/
def isSignal : BusEvent → Bool
  | .acknowledge _ | .tick _ => true
  | _ => false

def isTick : BusEvent → Bool
  | .tick _ => true
  | _ => false

def acknowledged? : BusEvent → Option UInt8
  | .acknowledge line => some line
  | _ => none

end BusEvent

namespace RecordedBus

variable {β : Type}

/-- The acknowledges and ticks on the bus so far, oldest first. -/
def signals (bus : RecordedBus β) : List BusEvent :=
  bus.events.filter BusEvent.isSignal

def tickCount (bus : RecordedBus β) : Nat :=
  bus.events.countP BusEvent.isTick

/-- From one moment to another the bus has heard the acknowledges of some lines, and after these
some ticks. -/
def Heard (before after : RecordedBus β) (lines : List UInt8) (ticks : Nat) : Prop :=
  ∃ driven : List (Option (UInt8 × LineState)), driven.length = ticks ∧
    after.signals =
      before.signals ++ lines.map BusEvent.acknowledge ++ driven.map BusEvent.tick

theorem signals_cons (inner : β) (event : BusEvent) (bus : RecordedBus β) :
    (⟨inner, event :: bus.record⟩ : RecordedBus β).signals =
      bus.signals ++ [event].filter BusEvent.isSignal := by
  simp [signals, events]

theorem tickCount_eq (bus : RecordedBus β) :
    bus.tickCount = bus.signals.countP BusEvent.isTick := by
  rw [tickCount, signals, List.countP_filter]
  refine List.countP_congr fun event _ => ?_
  cases event <;> simp [BusEvent.isTick, BusEvent.isSignal]

theorem Heard.tickCount_eq {before after : RecordedBus β} {lines : List UInt8} {ticks : Nat}
    (h : before.Heard after lines ticks) : after.tickCount = before.tickCount + ticks := by
  obtain ⟨driven, rfl, hsignals⟩ := h
  have hlines : (lines.map BusEvent.acknowledge).countP BusEvent.isTick = 0 := by
    simp [List.countP_map, Function.comp_def, BusEvent.isTick]
  have hdriven : (driven.map BusEvent.tick).countP BusEvent.isTick = driven.length := by
    simp [List.countP_map, Function.comp_def, BusEvent.isTick]
  rw [RecordedBus.tickCount_eq, RecordedBus.tickCount_eq, hsignals, List.countP_append,
    List.countP_append, hlines, hdriven, Nat.add_zero]

theorem Heard.lines_eq {before after : RecordedBus β} {lines others : List UInt8}
    {ticks count : Nat} (h : before.Heard after lines ticks)
    (hothers : before.Heard after others count) : lines = others := by
  have hlines (lines : List UInt8) :
      (lines.map BusEvent.acknowledge).filterMap BusEvent.acknowledged? = lines := by
    rw [List.filterMap_map]
    exact List.filterMap_some
  have hfilter (lines : List UInt8) (driven : List (Option (UInt8 × LineState))) :
      (lines.map BusEvent.acknowledge ++ driven.map BusEvent.tick).filterMap
        BusEvent.acknowledged? = lines := by
    have hdriven : (driven.map BusEvent.tick).filterMap BusEvent.acknowledged? = [] := by
      simp [BusEvent.acknowledged?]
    rw [List.filterMap_append, hlines, hdriven, List.append_nil]
  -- The two accounts of the same record may only differ in the ticks, which drop out here.
  obtain ⟨driven, _, hsignals⟩ := h
  obtain ⟨driven', _, hsignals'⟩ := hothers
  rw [hsignals, List.append_assoc, List.append_assoc] at hsignals'
  rw [← hfilter lines driven, List.append_cancel_left hsignals', hfilter]

variable [Bus β]

theorem signals_of_accessed {bounds : Bus.Bounds} {bus changed : RecordedBus β}
    (h : Bus.Accessed bounds bus changed) : changed.signals = bus.signals := by
  cases h with
  | read | write | ioRead | ioWrite => exact (signals_cons _ _ bus).trans (List.append_nil _)

theorem signals_idleChanged (bus : RecordedBus β) (idle : Bool) :
    (Bus.idleChanged bus idle).signals = bus.signals :=
  (signals_cons _ _ bus).trans (List.append_nil _)

theorem signals_acknowledge (bus : RecordedBus β) (line : UInt8) :
    (Bus.acknowledge bus line).2.signals = bus.signals ++ [.acknowledge line] :=
  signals_cons _ _ bus

theorem signals_tick (bus : RecordedBus β) :
    (Bus.tick bus).2.signals = bus.signals ++ [.tick (Bus.tick bus).1] :=
  signals_cons _ _ bus

/-- Some ticks in a row, whatever else a tick does to the machine on the bus. -/
theorem called_ticks {σ : Type} (bus : σ → RecordedBus β) (tick : σ → σ) (ticks : Nat → σ → σ)
    (hzero : ∀ state, ticks 0 state = state)
    (hsucc : ∀ count state, ticks (count + 1) state = ticks count (tick state))
    (hbus : ∀ state, bus (tick state) = (Bus.tick (bus state)).2) (count : Nat) (state : σ) :
    ∃ driven : List (Option (UInt8 × LineState)), driven.length = count ∧
      (bus state).Called (bus (ticks count state)) (driven.map BusEvent.tick) := by
  induction count generalizing state with
  | zero =>
      refine ⟨[], rfl, ?_⟩
      rw [hzero]
      exact (bus state).called_refl
  | succ count ih =>
      obtain ⟨driven, hlength, hcalled⟩ := ih (tick state)
      refine ⟨(Bus.tick (bus state)).1 :: driven, congrArg (· + 1) hlength, ?_⟩
      have hfirst : (bus state).Called (bus (tick state)) [.tick (Bus.tick (bus state)).1] := by
        rw [hbus]
        exact events_cons _ _ (bus state)
      rw [hsucc]
      exact hfirst.trans hcalled

omit [Bus β] in
theorem Called.signals_eq {before after : RecordedBus β} {calls : List BusEvent}
    (h : before.Called after calls) :
    after.signals = before.signals ++ calls.filter BusEvent.isSignal := by
  rw [signals, signals, h, List.filter_append]

omit [Bus β] in
theorem Called.signals_eq_of_ticks {before after : RecordedBus β}
    {driven : List (Option (UInt8 × LineState))}
    (h : before.Called after (driven.map BusEvent.tick)) :
    after.signals = before.signals ++ driven.map BusEvent.tick := by
  have hticks : (driven.map BusEvent.tick).filter BusEvent.isSignal = driven.map BusEvent.tick := by
    simp [List.filter_eq_self, BusEvent.isSignal]
  rw [h.signals_eq, hticks]

end RecordedBus

namespace Bus

variable {β : Type} [Bus β] {bus : β}

/-- At ticks no device drives a line, now or later. -/
def Silent (bus : β) : Prop :=
  ∀ count, (tick ((fun bus => (tick bus).2)^[count] bus)).1 = none

namespace Silent

theorem tick_eq (h : Silent bus) : Bus.tick bus = (none, (Bus.tick bus).2) :=
  Prod.ext (h 0) rfl

theorem tick (h : Silent bus) : Silent (Bus.tick bus).2 :=
  fun count => h (count + 1)

theorem of_forall (h : ∀ bus : β, (Bus.tick bus).1 = none) (bus : β) : Silent bus :=
  fun _ => h _

end Silent

end Bus

end TmsCores
