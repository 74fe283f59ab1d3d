import TmsCores.Bus.Recorded
import TmsCores.Proofs.Bus.Access

namespace TmsCores

/-- What a call tells of the idle state. -/
def BusEvent.idle? : BusEvent → Option Bool
  | .idleChanged idle => some idle
  | _ => none

namespace RecordedBus

variable {β : Type}

/-- All news of the idle state so far, oldest first. -/
def idleNews (bus : RecordedBus β) : List Bool :=
  bus.events.filterMap BusEvent.idle?

/-- True, false, true and so on. -/
def alternation (count : Nat) : List Bool :=
  (List.range count).map (· % 2 == 0)

/-- The news has taken turns, the first being that the processor is idle, and by now it says
`idle`. -/
def IsInformed (idle : Bool) (bus : RecordedBus β) : Prop :=
  ∃ count, bus.idleNews = alternation count ∧ idle = (count % 2 == 1)

theorem alternation_succ (count : Nat) :
    alternation (count + 1) = alternation count ++ [count % 2 == 0] := by
  rw [alternation, List.range_succ, List.map_append]
  rfl

theorem parity_succ (count : Nat) : ((count + 1) % 2 == 1) = (count % 2 == 0) := by
  rw [Bool.eq_iff_iff, beq_iff_eq, beq_iff_eq]
  omega

theorem getLast?_alternation (count : Nat) :
    (alternation count).getLast?.getD false = (count % 2 == 1) := by
  cases count with
  | zero => rfl
  | succ count =>
      rw [alternation_succ, List.getLast?_concat, parity_succ]
      rfl

theorem idleNews_cons (inner : β) (event : BusEvent) (bus : RecordedBus β) :
    (⟨inner, event :: bus.record⟩ : RecordedBus β).idleNews =
      bus.idleNews ++ event.idle?.toList := by
  have hsingle : [event].filterMap BusEvent.idle? = event.idle?.toList := by
    cases event <;> rfl
  rw [idleNews, events, List.reverse_cons, List.filterMap_append, hsingle]
  rfl

theorem isInformed_of_new {bus : RecordedBus β} (h : bus.record = []) : bus.IsInformed false := by
  refine ⟨0, ?_, rfl⟩
  rw [idleNews, events, h]
  rfl

namespace IsInformed

variable {idle : Bool} {bus : RecordedBus β}

/-- The processor is idle, or not, as the latest news says.  Without any it is awake. -/
theorem latest (h : bus.IsInformed idle) : idle = bus.idleNews.getLast?.getD false := by
  obtain ⟨count, hnews, hidle⟩ := h
  rw [hnews, getLast?_alternation, hidle]

theorem congr (h : bus.IsInformed idle) {changed : RecordedBus β}
    (hrecord : changed.record = bus.record) : changed.IsInformed idle := by
  rw [IsInformed, idleNews, events, hrecord]
  exact h

theorem cons (h : bus.IsInformed idle) (inner : β) {event : BusEvent}
    (hevent : event.idle? = none) : IsInformed idle ⟨inner, event :: bus.record⟩ := by
  rw [IsInformed, idleNews_cons, hevent, Option.toList_none, List.append_nil]
  exact h

variable [Bus β]

theorem access (h : bus.IsInformed idle) {bounds : Bus.Bounds} {changed : RecordedBus β}
    (haccess : Bus.Accessed bounds bus changed) : changed.IsInformed idle := by
  cases haccess with
  | read | write | ioRead | ioWrite => exact h.cons _ rfl

theorem tick (h : bus.IsInformed idle) : (Bus.tick bus).2.IsInformed idle :=
  h.cons _ rfl

theorem acknowledge (h : bus.IsInformed idle) (line : UInt8) :
    (Bus.acknowledge bus line).2.IsInformed idle :=
  h.cons _ rfl

theorem idleChanged (h : bus.IsInformed (!idle)) : (Bus.idleChanged bus idle).IsInformed idle := by
  obtain ⟨count, hnews, hidle⟩ := h
  have hnext : idle = (count % 2 == 0) := by
    rw [← Bool.not_not idle, hidle, Bool.eq_iff_iff]
    simp
  refine ⟨count + 1, ?_, ?_⟩
  · rw [alternation_succ, ← hnews, ← hnext]
    exact idleNews_cons _ _ bus
  · rw [parity_succ, hnext]

end IsInformed

end RecordedBus

end TmsCores
