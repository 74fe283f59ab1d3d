import Mathlib.Logic.Relation
import TmsCores.Bus.Basic

namespace TmsCores.Bus

/-- Which addresses may be used in memory and in the I/O space. -/
structure Bounds where
  memory : UInt32 → Prop
  io : UInt32 → Prop

variable {β : Type} [Bus β]

/-- One bus becomes the other by an access of a processor to memory or to the I/O space, at an
address within bounds. -/
inductive Accessed (bounds : Bounds) : β → β → Prop
  | read (bus : β) {address : UInt32} (h : bounds.memory address) :
      Accessed bounds bus (Bus.read bus address).2
  | write (bus : β) {address : UInt32} (value : UInt8) (h : bounds.memory address) :
      Accessed bounds bus (Bus.write bus address value).2
  | ioRead (bus : β) {address : UInt32} (h : bounds.io address) :
      Accessed bounds bus (Bus.ioRead bus address).2
  | ioWrite (bus : β) {address : UInt32} (value : UInt8) (h : bounds.io address) :
      Accessed bounds bus (Bus.ioWrite bus address value).2

/-- One bus becomes the other by a read of memory or of the I/O space. -/
inductive Read : β → β → Prop
  | memory (bus : β) (address : UInt32) : Read bus (Bus.read bus address).2
  | io (bus : β) (address : UInt32) : Read bus (Bus.ioRead bus address).2

/-- One bus becomes the other by reads, any number of them. -/
def OnlyRead : β → β → Prop :=
  Relation.ReflTransGen Read

end TmsCores.Bus
