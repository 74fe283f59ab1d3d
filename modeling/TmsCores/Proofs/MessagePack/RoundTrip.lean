import Mathlib.Algebra.Group.Int.Defs
import Mathlib.Algebra.Group.Nat.Defs
import TmsCores.MessagePack.Wire

namespace TmsCores

theorem BigEndian.value_bytes (width n : Nat) : value (bytes width n) = n % 256 ^ width := by
  induction width generalizing n with
  | zero => simp [bytes, value, Nat.mod_one]
  | succ width ih =>
      have hlow : (UInt8.ofNat (n % 256)).toNat = n % 256 := by simp
      have hsplit : n % 256 ^ (width + 1) = n % 256 + 256 * (n / 256 % 256 ^ width) := by
        rw [Nat.pow_succ', Nat.mod_mul]
      rw [hsplit, bytes, value_concat, hlow, ih, Nat.add_comm]

namespace MessagePack

theorem takeBytes?_append {count : Nat} {front : List UInt8} (hcount : front.length = count)
    (rest : List UInt8) : takeBytes? count (front ++ rest) = some (front, rest) := by
  subst hcount
  simp [takeBytes?]

theorem readNumber?_bytes {α : Type} (width : Nat) (make : Nat → α) {n : Nat}
    (hn : n < 256 ^ width) (rest : List UInt8) :
    readNumber? width make (BigEndian.bytes width n ++ rest) = some (make n, rest) := by
  rw [readNumber?, takeBytes?_append (BigEndian.bytes_length width n), Option.map_some]
  dsimp only
  rw [BigEndian.value_bytes, Nat.mod_eq_of_lt hn]

theorem signedValue_bytes (width : Nat) {n : Int} (hlow : -(256 ^ width : Nat) ≤ 2 * n)
    (hhigh : 2 * n < (256 ^ width : Nat)) :
    BigEndian.signedValue (BigEndian.bytes width (n % (256 ^ width : Nat)).toNat) = n := by
  have hpos : (0 : Int) < (256 ^ width : Nat) := Int.natCast_pos.mpr (Nat.pow_pos (by decide))
  have hshift : 1 <<< (8 * width) = 256 ^ width := by rw [Nat.one_shiftLeft, Nat.pow_mul]
  generalize hmodulus : (256 ^ width : Nat) = modulus at *
  have hvalue : BigEndian.value (BigEndian.bytes width (n % modulus).toNat) =
      (n % modulus).toNat := by
    have hlt := Int.emod_lt_of_pos n hpos
    rw [BigEndian.value_bytes, hmodulus, Nat.mod_eq_of_lt (by omega)]
  have hnonneg := Int.emod_nonneg n (Int.ne_of_gt hpos)
  simp only [BigEndian.signedValue, hvalue, BigEndian.bytes_length, hshift]
  by_cases hsign : 0 ≤ n
  · rw [Int.emod_eq_of_lt hsign (by omega), if_pos (by omega)]
    omega
  · rw [Int.emod_eq_add_self_emod, Int.emod_eq_of_lt (by omega) (by omega), if_neg (by omega)]
    omega

theorem readSigned?_bytes (width : Nat) {n : Int} (hlow : -(256 ^ width : Nat) ≤ 2 * n)
    (hhigh : 2 * n < (256 ^ width : Nat)) (rest : List UInt8) :
    readSigned? width (BigEndian.bytes width (n % (256 ^ width : Nat)).toNat ++ rest) =
      some (.complete (.signed n), rest) := by
  rw [readSigned?, takeBytes?_append (BigEndian.bytes_length width _), Option.map_some]
  dsimp only
  rw [signedValue_bytes width hlow hhigh]

namespace Head

theorem read?_writeUnsigned {n : Nat} (hn : n < 2 ^ 64) (rest : List UInt8) :
    read? (writeUnsigned n ++ rest) = some (.complete (.unsigned n), rest) := by
  unfold writeUnsigned
  split
  · next h =>
      have hmarker : (UInt8.ofNat n).toNat = n := by
        rw [UInt8.toNat_ofNat', Nat.mod_eq_of_lt (by omega)]
      simp [read?, hmarker, h]
  · split
    · next h => exact readNumber?_bytes 1 _ h rest
    · split
      · next h => exact readNumber?_bytes 2 _ h rest
      · split
        · next h => exact readNumber?_bytes 4 _ h rest
        · exact readNumber?_bytes 8 _ hn rest

theorem read?_writeSigned {n : Int} (hlow : -2 ^ 63 ≤ n) (hhigh : n < 2 ^ 63)
    (rest : List UInt8) :
    read? (writeSigned n ++ rest) = some (.complete (.signed n), rest) := by
  unfold writeSigned
  split
  · next h =>
      have hmarker : (UInt8.ofNat ((n + 0x100).toNat % 256)).toNat = (n + 0x100).toNat := by
        rw [UInt8.toNat_ofNat', Nat.mod_mod, Nat.mod_eq_of_lt (by omega)]
      have hvalue : ((n + 0x100).toNat : Int) - 0x100 = n := by
        omega
      simp only [BigEndian.bytes, List.nil_append, List.cons_append, read?, hmarker, hvalue]
      rw [if_neg (by omega), if_neg (by omega), if_neg (by omega), if_neg (by omega),
        if_neg (by omega)]
  · split
    · exact readSigned?_bytes 1 (by omega) (by omega) rest
    · split
      · exact readSigned?_bytes 2 (by omega) (by omega) rest
      · split
        · exact readSigned?_bytes 4 (by omega) (by omega) rest
        · exact readSigned?_bytes 8 (by omega) (by omega) rest

theorem read?_writeText {size : Nat} (hsize : size < 2 ^ 32) (rest : List UInt8) :
    read? (writeText size ++ rest) = some (.text size, rest) := by
  unfold writeText
  split
  · next h =>
      have hmarker : (UInt8.ofNat (0xA0 + size)).toNat = 0xA0 + size := by
        rw [UInt8.toNat_ofNat', Nat.mod_eq_of_lt (by omega)]
      simp only [List.cons_append, List.nil_append, read?, hmarker]
      rw [if_neg (by omega), if_neg (by omega), if_neg (by omega), if_pos (by omega),
        Nat.add_sub_cancel_left]
  · split
    · next h => exact readNumber?_bytes 1 _ h rest
    · split
      · next h => exact readNumber?_bytes 2 _ h rest
      · exact readNumber?_bytes 4 _ hsize rest

theorem read?_writeBinary {size : Nat} (hsize : size < 2 ^ 32) (rest : List UInt8) :
    read? (writeBinary size ++ rest) = some (.binary size, rest) := by
  unfold writeBinary
  split
  · next h => exact readNumber?_bytes 1 _ h rest
  · split
    · next h => exact readNumber?_bytes 2 _ h rest
    · exact readNumber?_bytes 4 _ hsize rest

theorem read?_writeExtension {size : Nat} (hsize : size < 2 ^ 32) (rest : List UInt8) :
    read? (writeExtension size ++ rest) = some (.extension size, rest) := by
  unfold writeExtension
  split
  iterate 5 rfl
  split
  · next h => exact readNumber?_bytes 1 _ h rest
  · split
    · next h => exact readNumber?_bytes 2 _ h rest
    · exact readNumber?_bytes 4 _ hsize rest

theorem read?_writeArray {size : Nat} (hsize : size < 2 ^ 32) (rest : List UInt8) :
    read? (writeArray size ++ rest) = some (.array size, rest) := by
  unfold writeArray
  split
  · next h =>
      have hmarker : (UInt8.ofNat (0x90 + size)).toNat = 0x90 + size := by
        rw [UInt8.toNat_ofNat', Nat.mod_eq_of_lt (by omega)]
      simp only [List.cons_append, List.nil_append, read?, hmarker]
      rw [if_neg (by omega), if_neg (by omega), if_pos (by omega), Nat.add_sub_cancel_left]
  · split
    · next h => exact readNumber?_bytes 2 _ h rest
    · exact readNumber?_bytes 4 _ hsize rest

theorem read?_writeMap {size : Nat} (hsize : size < 2 ^ 32) (rest : List UInt8) :
    read? (writeMap size ++ rest) = some (.map size, rest) := by
  unfold writeMap
  split
  · next h =>
      have hmarker : (UInt8.ofNat (0x80 + size)).toNat = 0x80 + size := by
        rw [UInt8.toNat_ofNat', Nat.mod_eq_of_lt (by omega)]
      simp only [List.cons_append, List.nil_append, read?, hmarker]
      rw [if_neg (by omega), if_pos (by omega), Nat.add_sub_cancel_left]
  · split
    · next h => exact readNumber?_bytes 2 _ h rest
    · exact readNumber?_bytes 4 _ hsize rest

end Head

theorem readMany_append {α : Type} {item : List UInt8 → Option (α × List UInt8)}
    {write : α → List UInt8} {items : List α}
    (hitem : ∀ x ∈ items, ∀ rest, item (write x ++ rest) = some (x, rest)) (rest : List UInt8) :
    readMany item items.length (items.flatMap write ++ rest) = some (items, rest) := by
  induction items with
  | nil => rfl
  | cons first others ih =>
      have hfirst := hitem first List.mem_cons_self
      have hothers := ih fun x hx => hitem x (List.mem_cons_of_mem first hx)
      simp [readMany, hfirst, hothers]

namespace Value

theorem writeItems_eq_flatMap (items : List Value) : writeItems items = items.flatMap write := by
  induction items with
  | nil => rfl
  | cons item rest ih => rw [writeItems, ih, List.flatMap_cons]

theorem writeEntries_eq_flatMap (entries : List (Value × Value)) :
    writeEntries entries = entries.flatMap fun (key, value) => key.write ++ value.write := by
  induction entries with
  | nil => rfl
  | cons entry rest ih => rw [writeEntries, ih, List.flatMap_cons, List.append_assoc]

/-- A value that has a form in bytes, with arrays and maps nested at most `depth` deep. -/
def Fits (depth : Nat) : Value → Prop
  | .nil | .bool _ => True
  | .unsigned n => n < 2 ^ 64
  | .signed n => -2 ^ 63 ≤ n ∧ n < 2 ^ 63
  | .float32 bits => bits < 2 ^ 32
  | .float64 bits => bits < 2 ^ 64
  | .text bytes | .binary bytes | .extension _ bytes => bytes.length < 2 ^ 32
  | .array items =>
      match depth with
      | 0 => False
      | depth + 1 => items.length < 2 ^ 32 ∧ ∀ item ∈ items, item.Fits depth
  | .map entries =>
      match depth with
      | 0 => False
      | depth + 1 =>
          entries.length < 2 ^ 32 ∧ ∀ entry ∈ entries, entry.1.Fits depth ∧ entry.2.Fits depth

/-- What has been written is read back, and nothing of what follows. -/
theorem readNested_write {depth : Nat} {value : Value} (h : value.Fits depth)
    (rest : List UInt8) : readNested depth (value.write ++ rest) = some (value, rest) := by
  rw [Fits.eq_def] at h
  rw [readNested.eq_def]
  cases value with
  | nil => rfl
  | bool value => cases value <;> rfl
  | unsigned n =>
      rw [write, Head.read?_writeUnsigned h]
      rfl
  | signed n =>
      rw [write, Head.read?_writeSigned h.1 h.2]
      rfl
  | float32 bits =>
      have hhead : Head.read? (0xCA :: (BigEndian.bytes 4 bits ++ rest)) =
          some (.complete (.float32 bits), rest) := readNumber?_bytes 4 _ h rest
      rw [write, List.cons_append, hhead]
      rfl
  | float64 bits =>
      have hhead : Head.read? (0xCB :: (BigEndian.bytes 8 bits ++ rest)) =
          some (.complete (.float64 bits), rest) := readNumber?_bytes 8 _ h rest
      rw [write, List.cons_append, hhead]
      rfl
  | text bytes =>
      rw [write, List.append_assoc, Head.read?_writeText h]
      simp [readBody, takeBytes?_append]
  | binary bytes =>
      rw [write, List.append_assoc, Head.read?_writeBinary h]
      simp [readBody, takeBytes?_append]
  | extension kind bytes =>
      have hkind : readNumber? 1 UInt8.ofNat (kind :: (bytes ++ rest)) =
          some (kind, bytes ++ rest) := by
        simp [readNumber?, takeBytes?, BigEndian.value]
      rw [write, List.append_assoc, Head.read?_writeExtension h]
      simp [readBody, hkind, takeBytes?_append]
  | array items =>
      cases depth with
      | zero => exact h.elim
      | succ depth =>
          obtain ⟨hlength, hitems⟩ := h
          have hread := readMany_append
            (fun item hitem rest => readNested_write (hitems item hitem) rest) rest
          rw [write, List.append_assoc, Head.read?_writeArray hlength, writeItems_eq_flatMap]
          simp [readBody, hread]
  | map entries =>
      cases depth with
      | zero => exact h.elim
      | succ depth =>
          obtain ⟨hlength, hentries⟩ := h
          have hentry : ∀ entry ∈ entries, ∀ rest,
              readEntry (readNested depth) (entry.1.write ++ entry.2.write ++ rest) =
                some (entry, rest) := by
            intro entry hentry rest
            obtain ⟨hkey, hvalue⟩ := hentries entry hentry
            rw [readEntry, List.append_assoc, readNested_write hkey]
            simp [readNested_write hvalue]
          have hread := readMany_append hentry rest
          rw [write, List.append_assoc, Head.read?_writeMap hlength, writeEntries_eq_flatMap]
          simp [readBody, hread]
termination_by depth

theorem read?_write {value : Value} (h : value.Fits (maxDepth + 1)) :
    read? value.write = some value := by
  have hread := readNested_write h []
  rw [List.append_nil] at hread
  rw [read?, hread]
  rfl

end Value

end MessagePack

end TmsCores
