import TmsCores.Bus.Memory

namespace TmsCores

theorem ByteTree.set_get {depth : Nat} (tree : ByteTree depth) (address : Nat) :
    tree.set address (tree.get address) = tree := by
  induction tree with
  | leaf value => rfl
  | @node depth low high ihlow ihhigh =>
      cases haddress : address.testBit depth with
      | false => simp [set, get, haddress, ihlow]
      | true => simp [set, get, haddress, ihhigh]

namespace Memory

theorem poke_peek (memory : Memory) (address : UInt16) :
    memory.poke address (memory.peek address) = memory := by
  rw [poke, peek, ByteTree.set_get]

theorem poke_poke_peek (memory : Memory) {address other : UInt16} (h : address ≠ other)
    (value : UInt8) :
    (memory.poke address value).poke other (memory.peek other) = memory.poke address value := by
  have hother : (memory.poke address value).peek other = memory.peek other := by
    rw [peek_poke, if_neg h]
  rw [← hother, poke_peek]

end Memory

end TmsCores
