namespace TmsCores

/-- A running count of processor cycles.  It wraps after 64 bits. -/
structure CycleCount where
  value : UInt64 := 0
  deriving DecidableEq

namespace CycleCount

def advance (count : CycleCount) (cycles : Nat) : CycleCount :=
  ⟨count.value + UInt64.ofNat cycles⟩

def add (a b : CycleCount) : CycleCount :=
  ⟨a.value + b.value⟩

/-- The cycles from `b` to `a`, zero when `a` is the earlier one. -/
def sub (a b : CycleCount) : CycleCount :=
  ⟨if a.value < b.value then 0 else a.value - b.value⟩

/-- Counts are ordered as numbers. -/
def compare (a b : CycleCount) : Ordering :=
  Ord.compare a.value b.value

end CycleCount

/-- Divides processor cycles down to a peripheral clock: one tick for every `divisor` cycles, with
the cycles since the last tick carried over. -/
structure TickDivider where
  divisor : UInt32
  accumulated : UInt32 := 0
  deriving DecidableEq

namespace TickDivider

/-- A divider at the start of a tick.  A divisor of zero counts as one. -/
def ofDivisor (divisor : UInt32) : TickDivider where
  divisor := if divisor = 0 then 1 else divisor

/-- Cycles counted together with those carried over.  The sum has 32 bits. -/
def total (divider : TickDivider) (cycles : Nat) : UInt32 :=
  divider.accumulated + UInt32.ofNat cycles

/-- The whole ticks that `cycles` more cycles complete, and the cycles that are left over. -/
def divide? (divider : TickDivider) (cycles : Nat) : Option (UInt32 × UInt32) :=
  let total := divider.total cycles
  if divider.divisor = 0 then none else some (total / divider.divisor, total % divider.divisor)

/-- The whole ticks that `cycles` more cycles complete, and the divider after them. -/
def advance (divider : TickDivider) (cycles : Nat) : Nat × TickDivider :=
  let (ticks, rest) := (divider.divide? cycles).getD (0, divider.total cycles)
  (ticks.toNat, { divider with accumulated := rest })

def untilNext (divider : TickDivider) : Nat :=
  (divider.divisor - divider.accumulated).toNat

def reset (divider : TickDivider) : TickDivider :=
  { divider with accumulated := 0 }

end TickDivider

end TmsCores
