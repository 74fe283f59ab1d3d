import TmsCores.Proofs.Bus.Confinement
import TmsCores.Proofs.Correspondence

namespace TmsCores

variable {β γ : Type} [Bus β] [Bus γ] {S : β → γ → Prop}

/-- Buses that answer the same, take the same time over it, and drive the same lines. -/
structure Bus.SameBehaviour (S : β → γ → Prop) : Prop where
  read : ∀ {b c}, S b c → ∀ address,
    (Bus.read b address).1 = (Bus.read c address).1 ∧
      S (Bus.read b address).2 (Bus.read c address).2
  write : ∀ {b c}, S b c → ∀ address value,
    (Bus.write b address value).1 = (Bus.write c address value).1 ∧
      S (Bus.write b address value).2 (Bus.write c address value).2
  ioRead : ∀ {b c}, S b c → ∀ address,
    (Bus.ioRead b address).1 = (Bus.ioRead c address).1 ∧
      S (Bus.ioRead b address).2 (Bus.ioRead c address).2
  ioWrite : ∀ {b c}, S b c → ∀ address value,
    (Bus.ioWrite b address value).1 = (Bus.ioWrite c address value).1 ∧
      S (Bus.ioWrite b address value).2 (Bus.ioWrite c address value).2
  acknowledge : ∀ {b c}, S b c → ∀ line, S (Bus.acknowledge b line).2 (Bus.acknowledge c line).2
  idleChanged : ∀ {b c}, S b c → ∀ idle, S (Bus.idleChanged b idle) (Bus.idleChanged c idle)
  tick : ∀ {b c}, S b c → (Bus.tick b).1 = (Bus.tick c).1 ∧ S (Bus.tick b).2 (Bus.tick c).2

namespace Bus

theorem sameBehaviour_eq : SameBehaviour (Eq : β → β → Prop) where
  read h address := by
    subst h
    exact ⟨rfl, rfl⟩
  write h address value := by
    subst h
    exact ⟨rfl, rfl⟩
  ioRead h address := by
    subst h
    exact ⟨rfl, rfl⟩
  ioWrite h address value := by
    subst h
    exact ⟨rfl, rfl⟩
  acknowledge h line := congrArg (fun bus => (Bus.acknowledge bus line).2) h
  idleChanged h idle := congrArg (Bus.idleChanged · idle) h
  tick h := by
    subst h
    exact ⟨rfl, rfl⟩

/-- A bus at the end of its processor's idle state, if the processor is in it. -/
def awakened (bus : β) (idle : Bool) : β :=
  if idle then Bus.idleChanged bus false else bus

end Bus

/-- The same move on two processors: the same operation, or changes of the buses that leave them
related. -/
inductive HostMove.Same {Register : Type} (S : β → γ → Prop) :
    HostMove Register β → HostMove Register γ → Prop
  | call (operation : Operation Register) : Same S (.call operation) (.call operation)
  | touch {change : β → β} {change' : γ → γ} (h : ∀ b c, S b c → S (change b) (change' c)) :
      Same S (.touch change) (.touch change')

namespace RecordedBus

/-- Two buses have got the same calls since `before`, with the same answers, and still behave the
same. -/
structure CalledSame (S : β → γ → Prop) (before : RecordedBus β × RecordedBus γ)
    (bus : RecordedBus β) (bus' : RecordedBus γ) : Prop where
  inner : S bus.inner bus'.inner
  calls : ∃ calls, before.1.Called bus calls ∧ before.2.Called bus' calls

variable {before : RecordedBus β × RecordedBus γ} {bus : RecordedBus β} {bus' : RecordedBus γ}

omit [Bus β] [Bus γ] in
theorem calledSame_refl (hinner : S bus.inner bus'.inner) :
    CalledSame S (bus, bus') bus bus' where
  inner := hinner
  calls := ⟨[], bus.called_refl, bus'.called_refl⟩

omit [Bus β] [Bus γ] in
theorem CalledSame.cons (h : CalledSame S before bus bus') {inner : β} {inner' : γ}
    (hinner : S inner inner') {call call' : BusEvent} (hcall : call = call') :
    CalledSame S before ⟨inner, call :: bus.record⟩ ⟨inner', call' :: bus'.record⟩ := by
  obtain ⟨calls, hcalled, hcalled'⟩ := h.calls
  subst hcall
  refine ⟨hinner, calls ++ [call], ?_, ?_⟩
  · exact hcalled.trans (events_cons _ _ bus)
  · exact hcalled'.trans (events_cons _ _ bus')

theorem calledSame_awakened {idle idle' : Bool}
    (h : S (Bus.awakened bus.inner idle) (Bus.awakened bus'.inner idle')) :
    CalledSame S (Bus.awakened bus idle, Bus.awakened bus' idle') (Bus.awakened bus idle)
      (Bus.awakened bus' idle') := by
  refine calledSame_refl ?_
  cases idle <;> cases idle' <;> exact h

theorem calledSame_sameBehaviour (hS : Bus.SameBehaviour S)
    (before : RecordedBus β × RecordedBus γ) : Bus.SameBehaviour (CalledSame S before) where
  read h address := by
    obtain ⟨hreading, hinner⟩ := hS.read h.inner address
    exact ⟨hreading, h.cons hinner (congrArg (BusEvent.read address) hreading)⟩
  write h address value := by
    obtain ⟨hwait, hinner⟩ := hS.write h.inner address value
    exact ⟨hwait, h.cons hinner (congrArg (BusEvent.write address value) hwait)⟩
  ioRead h address := by
    obtain ⟨hreading, hinner⟩ := hS.ioRead h.inner address
    exact ⟨hreading, h.cons hinner (congrArg (BusEvent.ioRead address) hreading)⟩
  ioWrite h address value := by
    obtain ⟨hwait, hinner⟩ := hS.ioWrite h.inner address value
    exact ⟨hwait, h.cons hinner (congrArg (BusEvent.ioWrite address value) hwait)⟩
  acknowledge h line := h.cons (hS.acknowledge h.inner line) rfl
  idleChanged h idle := h.cons (hS.idleChanged h.inner idle) rfl
  tick h := by
    obtain ⟨hdriven, hinner⟩ := hS.tick h.inner
    exact ⟨hdriven, h.cons hinner (congrArg BusEvent.tick hdriven)⟩

end RecordedBus

end TmsCores
