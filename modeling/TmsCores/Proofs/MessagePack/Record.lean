import TmsCores.MessagePack.Schema
import TmsCores.Proofs.MessagePack.RoundTrip

namespace TmsCores.MessagePack

theorem keyMeaning?_name {before after : List String} {name : String}
    (hdistinct : ((before ++ name :: after).map nameBytes).Nodup) :
    keyMeaning? (before ++ name :: after) (.name name) = some (.position before.length) := by
  have hbefore : before.findIdx? (nameBytes · == nameBytes name) = none := by
    rw [List.findIdx?_eq_none_iff]
    intro other hother
    rw [List.map_append, List.map_cons, List.nodup_append] at hdistinct
    have hne := hdistinct.2.2 _ (List.mem_map_of_mem hother) _ List.mem_cons_self
    exact beq_eq_false_iff_ne.mpr hne
  simp [keyMeaning?, Value.name, List.findIdx?_append, hbefore, List.findIdx?_cons]

namespace Value

/-- Entries in the order of the names fill the slots from the left. -/
theorem foldlM_fillSlot? (level : Nat) (names : List String) (todo : List (String × Value)) :
    ∀ done : List (String × Value), names = (done ++ todo).map (·.1) →
      (names.map nameBytes).Nodup →
      (todo.map fun (field, value) => (Value.name field, value)).foldlM (fillSlot? level names)
          (done.map (some ·.2) ++ List.replicate todo.length none) =
        some ((done ++ todo).map (some ·.2)) := by
  -- The slots filled so far are those of the first names, so the next entry fills the next slot.
  induction todo with
  | nil =>
      intro done _ _
      simp
  | cons entry todo ih =>
      obtain ⟨field, value⟩ := entry
      intro done hnames hdistinct
      have hkey : keyMeaning? names (.name field) = some (.position done.length) := by
        have hsplit : names = done.map (·.1) ++ field :: todo.map (·.1) := by
          simpa using hnames
        have hmeaning := keyMeaning?_name (hsplit ▸ hdistinct)
        rw [← hsplit, List.length_map] at hmeaning
        exact hmeaning
      have hslot : (done.map (some ·.2) ++ List.replicate (todo.length + 1) none)[done.length]? =
          some (none : Option Value) := by
        rw [List.getElem?_append_right (by simp)]
        simp
      have hset : (done.map (fun field : String × Value => some field.2) ++
          List.replicate (todo.length + 1) none).set done.length (some value) =
            (done ++ [(field, value)]).map (some ·.2) ++ List.replicate todo.length none := by
        rw [List.set_append_right _ _ (by simp)]
        simp [List.replicate_succ]
      have hfill : fillSlot? level names
          (done.map (some ·.2) ++ List.replicate (todo.length + 1) none) (.name field, value) =
            some ((done ++ [(field, value)]).map (some ·.2) ++
              List.replicate todo.length none) := by
        simp only [fillSlot?, hkey, hslot, hset]
      have hrest := ih (done ++ [(field, value)]) (by simpa using hnames) hdistinct
      rw [List.append_assoc, List.singleton_append] at hrest
      rw [List.map_cons, List.foldlM_cons, List.length_cons, hfill]
      exact hrest

theorem mapM_some {α β : Type} {make : α → Option β} {items : List α} {values : List β}
    (h : items.map make = values.map some) : items.mapM make = some values := by
  induction items generalizing values with
  | nil =>
      cases values with
      | nil => rfl
      | cons value values => exact absurd h (by simp)
  | cons item items ih =>
      cases values with
      | nil => exact absurd h (by simp)
      | cons value values =>
          obtain ⟨hitem, hitems⟩ := List.cons.inj h
          rw [List.mapM_cons, hitem, ih hitems]
          rfl

theorem fields?_record (level : Nat) (fields : List (String × Value)) {names : List String}
    (hnames : names = fields.map (·.1)) (hdistinct : (names.map nameBytes).Nodup) :
    (record fields).fields? level names = some (fields.map (·.2)) := by
  have hfill := foldlM_fillSlot? level names fields [] hnames hdistinct
  have hlength : names.length = fields.length := by
    rw [hnames, List.length_map]
  rw [List.map_nil, List.nil_append, List.nil_append] at hfill
  rw [record, fields?, hlength, hfill]
  exact mapM_some (by simp)

@[simp] theorem toUInt8?_unsigned (n : UInt8) : (unsigned n.toNat).toUInt8? = some n := by
  simp [toUInt8?, toNatBelow?, toNat?, Option.filter, n.toNat_lt]

@[simp] theorem toUInt16?_unsigned (n : UInt16) : (unsigned n.toNat).toUInt16? = some n := by
  simp [toUInt16?, toNatBelow?, toNat?, Option.filter, n.toNat_lt]

@[simp] theorem toUInt32?_unsigned (n : UInt32) : (unsigned n.toNat).toUInt32? = some n := by
  simp [toUInt32?, toNatBelow?, toNat?, Option.filter, n.toNat_lt]

@[simp] theorem toUInt64?_unsigned (n : UInt64) : (unsigned n.toNat).toUInt64? = some n := by
  simp [toUInt64?, toNatBelow?, toNat?, Option.filter, n.toNat_lt]

theorem toListOf?_array {α : Type} {item? : Value → Option α} {make : α → Value}
    (hitem : ∀ x, item? (make x) = some x) (items : List α) :
    (array (items.map make)).toListOf? item? = some items := by
  refine mapM_some ?_
  rw [List.map_map]
  exact List.map_congr_left fun x _ => hitem x

@[simp] theorem toListOf?_ofBytes (bytes : List UInt8) :
    (ofBytes bytes).toListOf? toUInt8? = some bytes :=
  toListOf?_array toUInt8?_unsigned bytes

@[simp] theorem toBool?_bool (value : Bool) : (bool value).toBool? = some value := rfl

namespace Fits

@[simp] theorem unsigned8 (depth : Nat) (n : UInt8) : (unsigned n.toNat).Fits depth := by
  rw [Fits.eq_def]
  exact Nat.lt_trans n.toNat_lt (by decide)

@[simp] theorem unsigned16 (depth : Nat) (n : UInt16) : (unsigned n.toNat).Fits depth := by
  rw [Fits.eq_def]
  exact Nat.lt_trans n.toNat_lt (by decide)

@[simp] theorem unsigned32 (depth : Nat) (n : UInt32) : (unsigned n.toNat).Fits depth := by
  rw [Fits.eq_def]
  exact Nat.lt_trans n.toNat_lt (by decide)

@[simp] theorem unsigned64 (depth : Nat) (n : UInt64) : (unsigned n.toNat).Fits depth := by
  rw [Fits.eq_def]
  exact n.toNat_lt

@[simp] theorem bool (depth : Nat) (value : Bool) : (Value.bool value).Fits depth := by
  rw [Fits.eq_def]
  trivial

theorem name (depth : Nat) {name : String} (h : (nameBytes name).length < 2 ^ 32) :
    (Value.name name).Fits depth := by
  rw [Value.name, Fits.eq_def]
  exact h

theorem array {depth : Nat} {items : List Value} (hlength : items.length < 2 ^ 32)
    (hitems : ∀ item ∈ items, item.Fits depth) : (Value.array items).Fits (depth + 1) := by
  rw [Fits.eq_def]
  exact ⟨hlength, hitems⟩

theorem ofBytes {depth : Nat} {bytes : List UInt8} (hlength : bytes.length < 2 ^ 32) :
    (Value.ofBytes bytes).Fits (depth + 1) := by
  refine array (by simpa using hlength) ?_
  intro item hitem
  obtain ⟨byte, _, rfl⟩ := List.mem_map.mp hitem
  exact unsigned8 depth byte

theorem record {depth : Nat} (fields : List (String × Value)) (names : List String)
    (hnames : names = fields.map (·.1)) (hlength : names.length < 2 ^ 32)
    (htexts : ∀ name ∈ names, (nameBytes name).length < 2 ^ 32)
    (hvalues : ∀ value ∈ fields.map (·.2), value.Fits depth) :
    (Value.record fields).Fits (depth + 1) := by
  subst hnames
  rw [Value.record, Fits.eq_def]
  refine ⟨by simpa using hlength, ?_⟩
  intro entry hentry
  obtain ⟨field, hfield, rfl⟩ := List.mem_map.mp hentry
  exact ⟨name depth (htexts _ (List.mem_map_of_mem hfield)),
    hvalues _ (List.mem_map_of_mem hfield)⟩

end Fits

end Value

end TmsCores.MessagePack
