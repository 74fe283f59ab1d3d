import Mathlib.Algebra.GroupWithZero.Nat
import TmsCores.Proofs.Bus.Confinement

namespace TmsCores

namespace BusEvent

/-- The wait states of a call. -/
def wait : BusEvent → Nat
  | .read _ reading | .ioRead _ reading => reading.wait.toNat
  | .write _ _ wait | .ioWrite _ _ wait => wait.toNat
  | .acknowledge _ | .idleChanged _ | .tick _ => 0

/-- A call moves a byte of memory. -/
def isTransfer : BusEvent → Bool
  | .read _ _ | .write _ _ _ => true
  | _ => false

/-- A call as it is on a bus that never makes a processor wait. -/
def unwaited : BusEvent → BusEvent
  | .read address reading => .read address ⟨reading.data, 0⟩
  | .ioRead address reading => .ioRead address ⟨reading.data, 0⟩
  | .write address value _ => .write address value 0
  | .ioWrite address value _ => .ioWrite address value 0
  | call => call

/-- The wait states of some calls. -/
def waits (calls : List BusEvent) : Nat :=
  (calls.map wait).sum

/-- The bytes of memory that some calls move. -/
def transfers (calls : List BusEvent) : Nat :=
  calls.countP isTransfer

theorem waits_append (calls more : List BusEvent) :
    waits (calls ++ more) = waits calls + waits more := by
  rw [waits, List.map_append, List.sum_append, waits, waits]

theorem transfers_append (calls more : List BusEvent) :
    transfers (calls ++ more) = transfers calls + transfers more :=
  List.countP_append

theorem waits_ticks (driven : List (Option (UInt8 × LineState))) :
    waits (driven.map .tick) = 0 := by
  induction driven with
  | nil => rfl
  | cons signal rest ih => exact (Nat.zero_add (waits (rest.map .tick))).trans ih

theorem isTransfer_unwaited (call : BusEvent) : call.unwaited.isTransfer = call.isTransfer := by
  cases call <;> rfl

theorem transfers_eq_of_unwaited {calls calls' : List BusEvent}
    (h : calls.map unwaited = calls'.map unwaited) :
    transfers calls = transfers calls' := by
  have htransfers (calls : List BusEvent) :
      transfers (calls.map unwaited) = transfers calls := by
    rw [transfers, List.countP_map]
    exact List.countP_congr fun call _ => by simp [isTransfer_unwaited]
  rw [← htransfers, h, htransfers]

end BusEvent

/-- Buses that answer alike, except that they may take their time. -/
structure Bus.SameData {β γ : Type} [Bus β] [Bus γ] (S : β → γ → Prop) : Prop where
  read : ∀ {b c}, S b c → ∀ address,
    (Bus.read b address).1.data = (Bus.read c address).1.data ∧
      S (Bus.read b address).2 (Bus.read c address).2
  write : ∀ {b c}, S b c → ∀ address value,
    S (Bus.write b address value).2 (Bus.write c address value).2
  ioRead : ∀ {b c}, S b c → ∀ address,
    (Bus.ioRead b address).1.data = (Bus.ioRead c address).1.data ∧
      S (Bus.ioRead b address).2 (Bus.ioRead c address).2
  ioWrite : ∀ {b c}, S b c → ∀ address value,
    S (Bus.ioWrite b address value).2 (Bus.ioWrite c address value).2
  acknowledge : ∀ {b c}, S b c → ∀ line, S (Bus.acknowledge b line).2 (Bus.acknowledge c line).2
  idleChanged : ∀ {b c}, S b c → ∀ idle, S (Bus.idleChanged b idle) (Bus.idleChanged c idle)

theorem Bus.sameData_eq {β : Type} [Bus β] : Bus.SameData (Eq : β → β → Prop) where
  read h address := by
    subst h
    exact ⟨rfl, rfl⟩
  write h _ _ := by
    subst h
    rfl
  ioRead h address := by
    subst h
    exact ⟨rfl, rfl⟩
  ioWrite h _ _ := by
    subst h
    rfl
  acknowledge h _ := by
    subst h
    rfl
  idleChanged h _ := by
    subst h
    rfl

/-- Buses on which no access ever waits. -/
structure Bus.NeverWaits (β : Type) [Bus β] : Prop where
  read : ∀ (bus : β) address, (Bus.read bus address).1.wait = 0
  write : ∀ (bus : β) address value, (Bus.write bus address value).1 = 0
  ioRead : ∀ (bus : β) address, (Bus.ioRead bus address).1.wait = 0
  ioWrite : ∀ (bus : β) address value, (Bus.ioWrite bus address value).1 = 0

namespace RecordedBus

variable {β γ : Type}

theorem waits_events_cons (inner : β) {call : BusEvent} (bus : RecordedBus β)
    (hcall : call.wait = 0) :
    BusEvent.waits (⟨inner, call :: bus.record⟩ : RecordedBus β).events =
      BusEvent.waits bus.events := by
  have hlast : BusEvent.waits [call] = 0 := hcall
  rw [events_cons, BusEvent.waits_append, hlast, Nat.add_zero]

theorem Called.waits_eq_zero {before after : RecordedBus β} {calls : List BusEvent}
    (h : before.Called after calls)
    (hsame : BusEvent.waits after.events = BusEvent.waits before.events) :
    BusEvent.waits calls = 0 := by
  rw [h, BusEvent.waits_append] at hsame
  omega

theorem waits_lasting [Bus β] (h : Bus.NeverWaits β) (bounds : Bus.Bounds) (total : Nat) :
    Bus.Lasting bounds fun bus : RecordedBus β => BusEvent.waits bus.events = total where
  access {bus changed} hbus haccess := by
    cases haccess with
    | read | write | ioRead | ioWrite =>
        refine (waits_events_cons _ bus ?_).trans hbus
        simp only [BusEvent.wait, h.read, h.write, h.ioRead, h.ioWrite, UInt8.toNat_zero]
  acknowledge {bus} hbus _ := (waits_events_cons _ bus rfl).trans hbus
  idleChanged {bus} hbus _ := (waits_events_cons _ bus rfl).trans hbus
  tick {bus} hbus := (waits_events_cons _ bus rfl).trans hbus

/-- What two buses have been called since `before`, and how long that has made their processors wait
when each byte of memory takes `perByte` cycles besides. -/
structure CalledAlike (S : β → γ → Prop) (perByte : Nat) (before : RecordedBus β × RecordedBus γ)
    (bus : RecordedBus β) (bus' : RecordedBus γ) (wait wait' : Nat) : Prop where
  inner : S bus.inner bus'.inner
  calls : ∃ calls calls', before.1.Called bus calls ∧ before.2.Called bus' calls' ∧
    calls.map BusEvent.unwaited = calls'.map BusEvent.unwaited ∧
    wait = BusEvent.waits calls + perByte * BusEvent.transfers calls ∧
    wait' = BusEvent.waits calls' + perByte * BusEvent.transfers calls'

variable {S : β → γ → Prop} {perByte : Nat} {before : RecordedBus β × RecordedBus γ}
  {bus : RecordedBus β} {bus' : RecordedBus γ} {wait wait' : Nat}

theorem calledAlike_refl (hinner : S bus.inner bus'.inner) :
    CalledAlike S perByte (bus, bus') bus bus' 0 0 where
  inner := hinner
  calls := ⟨[], [], bus.called_refl, bus'.called_refl, rfl, rfl, rfl⟩

theorem CalledAlike.cons (h : CalledAlike S perByte before bus bus' wait wait') {inner : β}
    {inner' : γ} (hinner : S inner inner') (call call' : BusEvent)
    (hcall : call.unwaited = call'.unwaited) :
    CalledAlike S perByte before ⟨inner, call :: bus.record⟩ ⟨inner', call' :: bus'.record⟩
      (wait + (call.wait + perByte * BusEvent.transfers [call]))
      (wait' + (call'.wait + perByte * BusEvent.transfers [call'])) := by
  obtain ⟨calls, calls', hcalled, hcalled', hsame, hwait, hwait'⟩ := h.calls
  have hmore {wait : Nat} {calls : List BusEvent} {call : BusEvent}
      (hwait : wait = BusEvent.waits calls + perByte * BusEvent.transfers calls) :
      wait + (call.wait + perByte * BusEvent.transfers [call]) =
        BusEvent.waits (calls ++ [call]) + perByte * BusEvent.transfers (calls ++ [call]) := by
    have hlast : BusEvent.waits [call] = call.wait := Nat.add_zero _
    rw [hwait, BusEvent.waits_append, BusEvent.transfers_append, hlast, Nat.mul_add]
    omega
  refine ⟨hinner, calls ++ [call], calls' ++ [call'], ?_, ?_, ?_, hmore hwait, hmore hwait'⟩
  · exact hcalled.trans (events_cons _ _ bus)
  · exact hcalled'.trans (events_cons _ _ bus')
  · rw [List.map_append, List.map_append, hsame, List.map_singleton, List.map_singleton, hcall]

theorem CalledAlike.transfer (h : CalledAlike S perByte before bus bus' wait wait') {inner : β}
    {inner' : γ} (hinner : S inner inner') {call call' : BusEvent}
    (hcall : call.unwaited = call'.unwaited) (htransfer : call.isTransfer = true) :
    CalledAlike S perByte before ⟨inner, call :: bus.record⟩ ⟨inner', call' :: bus'.record⟩
      (wait + (call.wait + perByte)) (wait' + (call'.wait + perByte)) := by
  have htransfer' : call'.isTransfer = true := by
    rw [← BusEvent.isTransfer_unwaited, ← hcall, BusEvent.isTransfer_unwaited, htransfer]
  have hone {call : BusEvent} (htransfer : call.isTransfer = true) :
      perByte * BusEvent.transfers [call] = perByte := by
    rw [BusEvent.transfers, List.countP_singleton, if_pos htransfer, Nat.mul_one]
  have hcons := h.cons hinner call call' hcall
  rw [hone htransfer, hone htransfer'] at hcons
  exact hcons

theorem CalledAlike.other (h : CalledAlike S perByte before bus bus' wait wait') {inner : β}
    {inner' : γ} (hinner : S inner inner') {call call' : BusEvent}
    (hcall : call.unwaited = call'.unwaited) (hother : call.isTransfer = false) :
    CalledAlike S perByte before ⟨inner, call :: bus.record⟩ ⟨inner', call' :: bus'.record⟩
      (wait + call.wait) (wait' + call'.wait) := by
  have hother' : call'.isTransfer = false := by
    rw [← BusEvent.isTransfer_unwaited, ← hcall, BusEvent.isTransfer_unwaited, hother]
  have hzero {call : BusEvent} (hother : call.isTransfer = false) :
      perByte * BusEvent.transfers [call] = 0 := by
    rw [BusEvent.transfers, List.countP_singleton, hother, if_neg Bool.false_ne_true, Nat.mul_zero]
  have hcons := h.cons hinner call call' hcall
  rw [hzero hother, hzero hother'] at hcons
  exact hcons

section

variable [Bus β] [Bus γ] (hS : Bus.SameData S)
  (h : CalledAlike S perByte before bus bus' wait wait')

include hS h

theorem CalledAlike.read (address : UInt32) :
    (Bus.read bus address).1.data = (Bus.read bus' address).1.data ∧
      CalledAlike S perByte before (Bus.read bus address).2 (Bus.read bus' address).2
        (wait + ((Bus.read bus address).1.wait.toNat + perByte))
        (wait' + ((Bus.read bus' address).1.wait.toNat + perByte)) := by
  obtain ⟨hdata, hinner⟩ := hS.read h.inner address
  refine ⟨hdata, h.transfer hinner ?_ rfl⟩
  exact congrArg (fun data => BusEvent.read address ⟨data, 0⟩) hdata

theorem CalledAlike.write (address : UInt32) (value : UInt8) :
    CalledAlike S perByte before (Bus.write bus address value).2 (Bus.write bus' address value).2
      (wait + ((Bus.write bus address value).1.toNat + perByte))
      (wait' + ((Bus.write bus' address value).1.toNat + perByte)) :=
  h.transfer (hS.write h.inner address value) rfl rfl

theorem CalledAlike.ioRead (address : UInt32) :
    (Bus.ioRead bus address).1.data = (Bus.ioRead bus' address).1.data ∧
      CalledAlike S perByte before (Bus.ioRead bus address).2 (Bus.ioRead bus' address).2
        (wait + (Bus.ioRead bus address).1.wait.toNat)
        (wait' + (Bus.ioRead bus' address).1.wait.toNat) := by
  obtain ⟨hdata, hinner⟩ := hS.ioRead h.inner address
  refine ⟨hdata, h.other hinner ?_ rfl⟩
  exact congrArg (fun data => BusEvent.ioRead address ⟨data, 0⟩) hdata

theorem CalledAlike.ioWrite (address : UInt32) (value : UInt8) :
    CalledAlike S perByte before (Bus.ioWrite bus address value).2
      (Bus.ioWrite bus' address value).2
      (wait + (Bus.ioWrite bus address value).1.toNat)
      (wait' + (Bus.ioWrite bus' address value).1.toNat) :=
  h.other (hS.ioWrite h.inner address value) rfl rfl

theorem CalledAlike.acknowledge (line : UInt8) :
    CalledAlike S perByte before (Bus.acknowledge bus line).2 (Bus.acknowledge bus' line).2
      wait wait' :=
  h.other (hS.acknowledge h.inner line) rfl rfl

theorem CalledAlike.idleChanged (idle : Bool) :
    CalledAlike S perByte before (Bus.idleChanged bus idle) (Bus.idleChanged bus' idle)
      wait wait' :=
  h.other (hS.idleChanged h.inner idle) rfl rfl

end

end RecordedBus

end TmsCores
