import TmsCores.Arithmetic.Word

namespace TmsCores

/-- The bytes at all addresses of `depth` bits, as a complete binary tree. -/
inductive ByteTree : Nat → Type
  | leaf (value : UInt8) : ByteTree 0
  | node {depth : Nat} (low high : ByteTree depth) : ByteTree (depth + 1)

namespace ByteTree

def fill (value : UInt8) : (depth : Nat) → ByteTree depth
  | 0 => .leaf value
  | depth + 1 =>
      let half := fill value depth
      .node half half

/-- The byte at an address.  Bits above the tree's depth are ignored. -/
def get : {depth : Nat} → ByteTree depth → Nat → UInt8
  | 0, .leaf value, _ => value
  | depth + 1, .node low high, address =>
      if address.testBit depth then high.get address else low.get address

def set : {depth : Nat} → ByteTree depth → Nat → UInt8 → ByteTree depth
  | 0, .leaf _, _, value => .leaf value
  | depth + 1, .node low high, address, value =>
      if address.testBit depth then
        .node low (high.set address value)
      else
        .node (low.set address value) high

/-- The bytes in address order, in front of `rest`. -/
def appendTo : {depth : Nat} → ByteTree depth → List UInt8 → List UInt8
  | 0, .leaf value, rest => value :: rest
  | _ + 1, .node low high, rest => low.appendTo (high.appendTo rest)

theorem get_fill (value : UInt8) (depth address : Nat) :
    (fill value depth).get address = value := by
  induction depth with
  | zero => rfl
  | succ depth ih => simp [fill, get, ih]

theorem get_set {depth : Nat} (tree : ByteTree depth) (address other : Nat) (value : UInt8) :
    (tree.set address value).get other =
      if ∀ i < depth, address.testBit i = other.testBit i then value else tree.get other := by
  induction tree with
  | leaf old => simp [set, get]
  | @node depth low high ihlow ihhigh =>
      have hsucc : (∀ i < depth + 1, address.testBit i = other.testBit i) ↔
          address.testBit depth = other.testBit depth ∧
            ∀ i < depth, address.testBit i = other.testBit i := by
        constructor
        · exact fun h => ⟨h depth (Nat.lt_succ_self _), fun i hi => h i (Nat.lt_succ_of_lt hi)⟩
        · rintro ⟨htop, hrest⟩ i hi
          rcases Nat.lt_succ_iff_lt_or_eq.mp hi with hlt | rfl
          · exact hrest i hlt
          · exact htop
      simp only [set, hsucc]
      cases ha : address.testBit depth <;> cases ho : other.testBit depth <;>
        simp [get, ho, ihlow, ihhigh]

end ByteTree

/-- The 64 KB of a 16-bit address space. -/
structure Memory where
  bytes : ByteTree 16

namespace Memory

def zero : Memory :=
  ⟨.fill 0 16⟩

def peek (memory : Memory) (address : UInt16) : UInt8 :=
  memory.bytes.get address.toNat

def poke (memory : Memory) (address : UInt16) (value : UInt8) : Memory :=
  ⟨memory.bytes.set address.toNat value⟩

/-- The word at an address, the more significant byte first. -/
def peekWord (memory : Memory) (address : UInt16) : UInt16 :=
  Word.ofBytes (memory.peek address) (memory.peek (address + 1))

def pokeWord (memory : Memory) (address : UInt16) (value : UInt16) : Memory :=
  (memory.poke address (Word.high value)).poke (address + 1) (Word.low value)

/-- Memory with a run of bytes replaced, wrapping at 64 KB. -/
def load (memory : Memory) (address : UInt16) : List UInt8 → Memory
  | [] => memory
  | value :: rest => (memory.poke address value).load (address + 1) rest

/-- A run of bytes, wrapping at 64 KB. -/
def dump (memory : Memory) (address : UInt16) (count : Nat) : List UInt8 :=
  (List.range count).map fun offset => memory.peek (address + UInt16.ofNat offset)

def toList (memory : Memory) : List UInt8 :=
  memory.bytes.appendTo []

/-- Splits pairs of old and new bytes, the first of them at `address`, into the maximal runs in
which they differ, each with the address where it starts. -/
def changedRuns (address : Nat) : List (UInt8 × UInt8) → List (Nat × List UInt8)
  | [] => []
  | (old, new) :: rest =>
      let runs := changedRuns (address + 1) rest
      if old = new then runs
      else
        match runs with
        | (start, bytes) :: later =>
            if start = address + 1 then (address, new :: bytes) :: later
            else (address, [new]) :: runs
        | [] => [(address, [new])]

/-- The maximal runs of bytes in which `after` differs from `before`, in address order. -/
def changes (before after : Memory) : List (Nat × List UInt8) :=
  changedRuns 0 (before.toList.zip after.toList)

@[simp] theorem peek_zero (address : UInt16) : zero.peek address = 0 :=
  ByteTree.get_fill 0 16 address.toNat

theorem peek_poke (memory : Memory) (address other : UInt16) (value : UInt8) :
    (memory.poke address value).peek other =
      if address = other then value else memory.peek other := by
  have hbits : (∀ i < 16, address.toNat.testBit i = other.toNat.testBit i) ↔
      address = other := by
    constructor
    · intro h
      apply UInt16.toNat_inj.mp
      apply Nat.eq_of_testBit_eq
      intro i
      by_cases hi : i < 16
      · exact h i hi
      · have hpow : 2 ^ 16 ≤ 2 ^ i := Nat.pow_le_pow_right (by decide) (Nat.le_of_not_lt hi)
        rw [Nat.testBit_lt_two_pow (Nat.lt_of_lt_of_le address.toNat_lt hpow),
          Nat.testBit_lt_two_pow (Nat.lt_of_lt_of_le other.toNat_lt hpow)]
    · rintro rfl i -
      rfl
  simp only [peek, poke, ByteTree.get_set, hbits]

theorem peekWord_pokeWord (memory : Memory) (address value : UInt16) :
    (memory.pokeWord address value).peekWord address = value := by
  have hne : address + 1 ≠ address := by
    intro h
    have hn := congrArg UInt16.toNat h
    have hlt := address.toNat_lt
    rw [UInt16.toNat_add] at hn
    simp only [UInt16.reduceToNat] at hn
    omega
  simp [peekWord, pokeWord, peek_poke, hne]

end Memory

end TmsCores
