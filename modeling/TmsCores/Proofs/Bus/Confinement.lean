import TmsCores.Bus.Recorded
import TmsCores.Proofs.Bus.Access

namespace TmsCores

/-- A call has an address within bounds, or none at all. -/
def BusEvent.IsWithin (bounds : Bus.Bounds) : BusEvent → Prop
  | .read address _ | .write address _ _ => bounds.memory address
  | .ioRead address _ | .ioWrite address _ _ => bounds.io address
  | .acknowledge _ | .idleChanged _ | .tick _ => True

/-- A property of buses that is destroyed neither by accesses within bounds nor by signals. -/
structure Bus.Lasting {β : Type} [Bus β] (bounds : Bus.Bounds) (B : β → Prop) : Prop where
  access : ∀ {bus changed}, B bus → Bus.Accessed bounds bus changed → B changed
  acknowledge : ∀ {bus}, B bus → ∀ line, B (Bus.acknowledge bus line).2
  idleChanged : ∀ {bus}, B bus → ∀ idle, B (Bus.idleChanged bus idle)
  tick : ∀ {bus}, B bus → B (Bus.tick bus).2

namespace RecordedBus

variable {β : Type} {bounds wider : Bus.Bounds} {before bus : RecordedBus β}

/-- From one moment to another the bus has been called so, oldest call first. -/
def Called (before after : RecordedBus β) (calls : List BusEvent) : Prop :=
  after.events = before.events ++ calls

/-- From one moment to another no call has left the bounds. -/
def CalledWithin (bounds : Bus.Bounds) (before after : RecordedBus β) : Prop :=
  ∃ calls, before.Called after calls ∧ ∀ call ∈ calls, call.IsWithin bounds

theorem events_cons (inner : β) (event : BusEvent) (bus : RecordedBus β) :
    (⟨inner, event :: bus.record⟩ : RecordedBus β).events = bus.events ++ [event] :=
  List.reverse_cons

theorem called_refl (bus : RecordedBus β) : bus.Called bus [] :=
  (List.append_nil bus.events).symm

theorem Called.trans {middle after : RecordedBus β} {calls more : List BusEvent}
    (h : before.Called middle calls) (hmore : middle.Called after more) :
    before.Called after (calls ++ more) := by
  rw [Called, hmore, h, List.append_assoc]

theorem Called.unique {after : RecordedBus β} {calls others : List BusEvent}
    (h : before.Called after calls) (hothers : before.Called after others) : calls = others :=
  List.append_cancel_left (h.symm.trans hothers)

theorem calledWithin_refl (bus : RecordedBus β) : bus.CalledWithin bounds bus :=
  ⟨[], bus.called_refl, nofun⟩

theorem CalledWithin.cons (h : before.CalledWithin bounds bus) (inner : β) {event : BusEvent}
    (hevent : event.IsWithin bounds) :
    before.CalledWithin bounds ⟨inner, event :: bus.record⟩ := by
  obtain ⟨calls, hcalls, hwithin⟩ := h
  refine ⟨calls ++ [event], ?_, fun call hcall => ?_⟩
  · rw [Called, events_cons, hcalls, List.append_assoc]
  · rcases List.mem_append.mp hcall with hold | hnew
    · exact hwithin call hold
    · rw [List.mem_singleton.mp hnew]
      exact hevent

theorem CalledWithin.mono (h : before.CalledWithin bounds bus)
    (hmemory : ∀ address, bounds.memory address → wider.memory address)
    (hio : ∀ address, bounds.io address → wider.io address) : before.CalledWithin wider bus := by
  obtain ⟨calls, hcalls, hwithin⟩ := h
  refine ⟨calls, hcalls, fun call hcall => ?_⟩
  have hcall := hwithin call hcall
  cases call with
  | read address | write address => exact hmemory address hcall
  | ioRead address | ioWrite address => exact hio address hcall
  | acknowledge | idleChanged | tick => trivial

variable [Bus β]

theorem calledWithin_lasting (bounds : Bus.Bounds) (before : RecordedBus β) :
    Bus.Lasting bounds (before.CalledWithin bounds) where
  access hbus haccess := by
    cases haccess with
    | read hmemory | write _ hmemory => exact hbus.cons _ hmemory
    | ioRead hio | ioWrite _ hio => exact hbus.cons _ hio
  acknowledge hbus _ := hbus.cons _ trivial
  idleChanged hbus _ := hbus.cons _ trivial
  tick hbus := hbus.cons _ trivial

end RecordedBus

end TmsCores
