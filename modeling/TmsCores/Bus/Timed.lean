import TmsCores.Bus.Basic

namespace TmsCores

/-- The four ways to reach a location through a bus. -/
inductive Access
  | read
  | write
  | ioRead
  | ioWrite
  deriving DecidableEq

/-- A bus whose accesses take the wait states that a profile gives for them. -/
structure DelayedBus (β : Type) where
  inner : β
  waits : Access → UInt32 → UInt8

instance {β : Type} [Bus β] : Bus (DelayedBus β) where
  read bus address :=
    let (reading, inner) := Bus.read bus.inner address
    (⟨reading.data, bus.waits .read address⟩, { bus with inner := inner })
  write bus address value :=
    let (_, inner) := Bus.write bus.inner address value
    (bus.waits .write address, { bus with inner := inner })
  ioRead bus address :=
    let (reading, inner) := Bus.ioRead bus.inner address
    (⟨reading.data, bus.waits .ioRead address⟩, { bus with inner := inner })
  ioWrite bus address value :=
    let (_, inner) := Bus.ioWrite bus.inner address value
    (bus.waits .ioWrite address, { bus with inner := inner })
  acknowledge bus line :=
    let (answer, inner) := Bus.acknowledge bus.inner line
    (answer, { bus with inner := inner })
  idleChanged bus idle := { bus with inner := Bus.idleChanged bus.inner idle }
  tick bus :=
    let (driven, inner) := Bus.tick bus.inner
    (driven, { bus with inner := inner })

/-- A bus on which a timer drives interrupt lines: `schedule n` is what happens at the `n`-th tick
of the peripheral clock, counted from one. -/
structure ScheduledBus (β : Type) where
  inner : β
  schedule : Nat → Option (UInt8 × LineState)
  elapsed : Nat := 0

instance {β : Type} [Bus β] : Bus (ScheduledBus β) where
  read bus address :=
    let (reading, inner) := Bus.read bus.inner address
    (reading, { bus with inner := inner })
  write bus address value :=
    let (wait, inner) := Bus.write bus.inner address value
    (wait, { bus with inner := inner })
  ioRead bus address :=
    let (reading, inner) := Bus.ioRead bus.inner address
    (reading, { bus with inner := inner })
  ioWrite bus address value :=
    let (wait, inner) := Bus.ioWrite bus.inner address value
    (wait, { bus with inner := inner })
  acknowledge bus line :=
    let (answer, inner) := Bus.acknowledge bus.inner line
    (answer, { bus with inner := inner })
  idleChanged bus idle := { bus with inner := Bus.idleChanged bus.inner idle }
  tick bus :=
    let (_, inner) := Bus.tick bus.inner
    (bus.schedule (bus.elapsed + 1), { bus with inner := inner, elapsed := bus.elapsed + 1 })

end TmsCores
