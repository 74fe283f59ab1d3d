import TmsCores.Interrupt.Line

namespace TmsCores

structure PendingLine where
  line : UInt8
  level : UInt8
  deriving DecidableEq

structure InterruptController where
  lines : List InterruptLine
  compare : MaskCompare
  deriving DecidableEq

namespace InterruptController

/-- A controller whose lines are enabled and clear. -/
def ofLines (lines : List LineConfig) (compare : MaskCompare) : InterruptController where
  lines := lines.map fun config => { toLineConfig := config }
  compare := compare

def size (controller : InterruptController) : Nat :=
  controller.lines.length

def line? (controller : InterruptController) (line : UInt8) : Option InterruptLine :=
  controller.lines[line.toNat]?

/-- Changes one line.  A number without a line changes nothing. -/
def modifyLine (controller : InterruptController) (line : UInt8)
    (change : InterruptLine → InterruptLine) : InterruptController :=
  { controller with lines := controller.lines.modify line.toNat change }

/-- Drives a line, and tells whether this was a rising edge. -/
def drive (controller : InterruptController) (line : UInt8) (state : LineState) :
    Bool × InterruptController :=
  ((controller.line? line).any (·.rises state), controller.modifyLine line (·.drive state))

/-- The lines that may be serviced under `mask`, in order of their numbers. -/
def eligible (controller : InterruptController) (mask : UInt8) : List PendingLine :=
  controller.lines.zipIdx.filterMap fun (line, number) =>
    if line.isEligible controller.compare mask then
      some ⟨UInt8.ofNat number, line.level⟩
    else
      none

/-- The better of two lines, the earlier one unless the later has a lower level. -/
def preferred (best : Option PendingLine) (next : PendingLine) : Option PendingLine :=
  match best with
  | none => some next
  | some best => if next.level < best.level then some next else some best

/-- The line to service under `mask`: of the eligible ones the lowest level, and of those the lowest
number. -/
def pending (controller : InterruptController) (mask : UInt8) : Option PendingLine :=
  (controller.eligible mask).foldl preferred none

def acknowledge (controller : InterruptController) (line : UInt8) : InterruptController :=
  controller.modifyLine line InterruptLine.acknowledge

/-- Sets or clears a latch directly, as sources on the chip do. -/
def setLatch (controller : InterruptController) (line : UInt8) (latched : Bool) :
    InterruptController :=
  controller.modifyLine line ({ · with latched := latched })

def isLatched (controller : InterruptController) (line : UInt8) : Bool :=
  (controller.line? line).any (·.latched)

/-- Enables or disables a line.  A disabled line still latches edges and is never serviced. -/
def setEnabled (controller : InterruptController) (line : UInt8) (enabled : Bool) :
    InterruptController :=
  controller.modifyLine line ({ · with enabled := enabled })

def isEnabled (controller : InterruptController) (line : UInt8) : Bool :=
  (controller.line? line).any (·.enabled)

/-- The state of a line, clear for a number without a line. -/
def state (controller : InterruptController) (line : UInt8) : LineState :=
  ((controller.line? line).map (·.state)).getD .clear

def reset (controller : InterruptController) : InterruptController :=
  { controller with lines := controller.lines.map InterruptLine.reset }

theorem line?_modifyLine (controller : InterruptController) (line other : UInt8)
    (change : InterruptLine → InterruptLine) :
    (controller.modifyLine line change).line? other =
      if line = other then (controller.line? other).map change else controller.line? other := by
  simp only [modifyLine, line?, List.getElem?_modify]
  by_cases h : line = other
  · subst h
    simp
  · have hn : line.toNat ≠ other.toNat := fun hn => h (UInt8.toNat_inj.mp hn)
    simp [h, hn]

@[simp] theorem size_modifyLine (controller : InterruptController) (line : UInt8)
    (change : InterruptLine → InterruptLine) :
    (controller.modifyLine line change).size = controller.size := by
  simp [modifyLine, size]

end InterruptController

end TmsCores
