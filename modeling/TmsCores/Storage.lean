namespace TmsCores.Storage

variable {α : Type}

/-- The items with one of them replaced, if it is there. -/
def set? (items : Array α) (index : Nat) (item : α) : Option (Array α) :=
  if h : index < items.size then some (items.set index item h) else none

variable {items : Array α} {index : Nat}

theorem getD_set? (items : Array α) (index : Nat) (item : α) :
    (set? items index item).getD items = items.setIfInBounds index item := by
  unfold set? Array.setIfInBounds
  split
  · rfl
  · rfl

theorem isSome_set? (h : index < items.size) (item : α) :
    (set? items index item).isSome = true := by
  rw [set?, dif_pos h]
  rfl

theorem isNone_set?_iff {item : α} :
    (set? items index item).isNone = true ↔ items.size ≤ index := by
  rw [Option.isNone_iff_eq_none, set?]
  split
  · exact iff_of_false nofun (Nat.not_le.mpr ‹_›)
  · exact iff_of_true rfl (Nat.not_lt.mp ‹_›)

theorem isSome_getElem? (h : index < items.size) : items[index]?.isSome = true := by
  rw [Array.getElem?_eq_getElem h]
  rfl

/-- What has been noted of accesses stays as it is, unless one misses before any other has. -/
theorem noted_eq {noted fault possible : Bool} (hnoted : noted = fault)
    (hpossible : fault = false → possible = true) : (!possible || noted) = fault := by
  rw [hnoted]
  cases fault with
  | true => exact Bool.or_true _
  | false =>
      rw [hpossible rfl]
      rfl

end TmsCores.Storage
