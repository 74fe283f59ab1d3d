namespace TmsCores

inductive LineState
  | clear
  /-- A level request, which stays until the host takes it back. -/
  | asserted
  /-- An edge request, which the acknowledge of the processor ends. -/
  | held
  deriving DecidableEq

def LineState.name : LineState → String
  | .clear => "Clear"
  | .asserted => "Asserted"
  | .held => "Held"

def LineState.isActive : LineState → Bool
  | .clear => false
  | .asserted | .held => true

/-- How a line remembers its request. -/
inductive LatchPolicy
  /-- The line is sampled: a pulse that ends before the processor looks is lost. -/
  | combinatorial
  /-- A rising edge sets a latch, which holds until the line is serviced or the latch cleared. -/
  | edgeLatched
  deriving DecidableEq

def LatchPolicy.name : LatchPolicy → String
  | .combinatorial => "Combinatorial"
  | .edgeLatched => "EdgeLatched"

/-- How the level of a line is compared with the interrupt mask. -/
inductive MaskCompare
  | atOrBelow
  | below
  deriving DecidableEq

def MaskCompare.name : MaskCompare → String
  | .atOrBelow => "AtOrBelow"
  | .below => "Below"

def MaskCompare.admits : MaskCompare → UInt8 → UInt8 → Bool
  | .atOrBelow, level, mask => level ≤ mask
  | .below, level, mask => level < mask

theorem MaskCompare.admits_iff {compare : MaskCompare} {level mask : UInt8} :
    compare.admits level mask = true ↔
      match compare with
      | .atOrBelow => level ≤ mask
      | .below => level < mask := by
  cases compare with
  | atOrBelow => exact decide_eq_true_iff
  | below => exact decide_eq_true_iff

/-- What is fixed about an interrupt line. -/
structure LineConfig where
  /-- Lines of a lower level are serviced first. -/
  level : UInt8
  /-- Lines that are not maskable ignore the interrupt mask. -/
  maskable : Bool
  policy : LatchPolicy
  deriving DecidableEq

structure InterruptLine extends LineConfig where
  enabled : Bool := true
  state : LineState := .clear
  latched : Bool := false
  deriving DecidableEq

namespace InterruptLine

/-- The line as letters: its state, then `l` if it is latched, then `d` if it is disabled. -/
def text (line : InterruptLine) : String :=
  (match line.state with
    | .clear => "C"
    | .asserted => "A"
    | .held => "H") ++
  (if line.latched then "l" else "") ++
  (if line.enabled then "" else "d")

/-- The line requests service.  On a latching line an edge request counts through its latch only. -/
def isActive (line : InterruptLine) : Bool :=
  match line.policy with
  | .edgeLatched => line.latched || line.state == .asserted
  | .combinatorial => line.state.isActive

/-- Driving the line to `state` is a rising edge. -/
def rises (line : InterruptLine) (state : LineState) : Bool :=
  !line.state.isActive && state.isActive

def drive (line : InterruptLine) (state : LineState) : InterruptLine :=
  { line with
    state := state
    latched := line.latched || (line.rises state && line.policy == .edgeLatched) }

/-- The line after the processor has taken it: its latch is dropped and an edge request ends. -/
def acknowledge (line : InterruptLine) : InterruptLine :=
  { line with
    state := if line.state = .held then .clear else line.state
    latched := false }

/-- The line after a reset.  The input belongs to whoever drives it, and stays. -/
def reset (line : InterruptLine) : InterruptLine :=
  { line with enabled := true, latched := false }

def isEligible (line : InterruptLine) (compare : MaskCompare) (mask : UInt8) : Bool :=
  line.enabled && line.isActive && (!line.maskable || compare.admits line.level mask)

end InterruptLine

end TmsCores
