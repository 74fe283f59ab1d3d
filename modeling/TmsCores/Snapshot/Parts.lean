import TmsCores.Clock
import TmsCores.Interrupt.Controller
import TmsCores.MessagePack.Schema
import TmsCores.OpcodeTable

namespace TmsCores

open MessagePack

namespace CycleCount

/-- A count of cycles is stored as a bare number. -/
def toValue (count : CycleCount) : Value :=
  .unsigned count.value.toNat

def ofValue? (value : Value) : Option CycleCount :=
  value.toUInt64?.map CycleCount.mk

end CycleCount

namespace TickDivider

def fieldNames : List String :=
  ["divisor", "accumulated"]

def toValue (divider : TickDivider) : Value :=
  .record [("divisor", .unsigned divider.divisor.toNat),
    ("accumulated", .unsigned divider.accumulated.toNat)]

def ofValue? (level : Nat) (value : Value) : Option TickDivider := do
  match ← value.fields? level fieldNames with
  | [divisor, accumulated] =>
      return { divisor := ← divisor.toUInt32?, accumulated := ← accumulated.toUInt32? }
  | _ => none

end TickDivider

namespace LineState

def options : List (String × LineState) :=
  [("Clear", .clear), ("Asserted", .asserted), ("Held", .held)]

end LineState

namespace LatchPolicy

def options : List (String × LatchPolicy) :=
  [("Combinatorial", .combinatorial), ("EdgeLatched", .edgeLatched)]

end LatchPolicy

namespace MaskCompare

def options : List (String × MaskCompare) :=
  [("AtOrBelow", .atOrBelow), ("Below", .below)]

end MaskCompare

namespace InterruptLine

def fieldNames : List String :=
  ["level", "maskable", "policy", "enabled", "state", "latched"]

def toValue (line : InterruptLine) : Value :=
  .record [("level", .unsigned line.level.toNat), ("maskable", .bool line.maskable),
    ("policy", .name line.policy.name), ("enabled", .bool line.enabled),
    ("state", .name line.state.name), ("latched", .bool line.latched)]

def ofValue? (level : Nat) (value : Value) : Option InterruptLine := do
  match ← value.fields? level fieldNames with
  | [priority, maskable, policy, enabled, state, latched] =>
      return {
        level := ← priority.toUInt8?
        maskable := ← maskable.toBool?
        policy := ← policy.choice? LatchPolicy.options
        enabled := ← enabled.toBool?
        state := ← state.choice? LineState.options
        latched := ← latched.toBool? }
  | _ => none

end InterruptLine

namespace InterruptController

def fieldNames : List String :=
  ["lines", "compare"]

def toValue (controller : InterruptController) : Value :=
  .record [("lines", .array (controller.lines.map InterruptLine.toValue)),
    ("compare", .name controller.compare.name)]

def ofValue? (level : Nat) (value : Value) : Option InterruptController := do
  match ← value.fields? level fieldNames with
  | [lines, compare] =>
      return {
        lines := ← lines.toListOf? (InterruptLine.ofValue? (level + 2))
        compare := ← compare.choice? MaskCompare.options }
  | _ => none

end InterruptController

namespace IllegalOpcode

def optionNames : List String :=
  ["Ignore", "Trap"]

/-- A policy.  The one that ignores stores its cycles as a record. -/
def toValue : IllegalOpcode → Value
  | .ignore cycles => .record [("Ignore", .record [("cycles", .unsigned cycles.toNat)])]
  | .trap => .name "Trap"

def ofValue? (level : Nat) (value : Value) : Option IllegalOpcode := do
  match ← value.alternative? optionNames with
  | (0, some content) =>
      match ← content.fields? level ["cycles"] with
      | [cycles] => return .ignore (← cycles.toUInt8?)
      | _ => none
  | (1, none) | (1, some .nil) => return .trap
  | _ => none

end IllegalOpcode

inductive RestoreError (Config : Type)
  /-- The bytes are no saved state. -/
  | unreadable
  /-- The state was saved under another configuration. -/
  | mismatch (found expected : Config)
  deriving DecidableEq

/-- The words for a state that cannot be restored, given how a configuration is written. -/
def RestoreError.message {Config : Type} (text : Config → String) : RestoreError Config → String
  | .unreadable => "the context cannot be read"
  | .mismatch found expected =>
      "context was saved by a " ++ text found ++ ", cannot restore into a " ++ text expected

end TmsCores
