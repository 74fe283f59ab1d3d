import TmsCores.Proofs.Tms9900.ExecuteChain
import TmsCores.Tms7000.Execution

namespace TmsCores

namespace OpcodeTable

variable {Operation σ : Type} {size : Nat}

/-- What a decoder yields when it is called once with each opcode, from zero on, and the state after
the last call.  Each call finds the state that the one before has left. -/
inductive Decodes (decode : UInt32 → StateM σ (OpcodeEntry Operation)) (before : σ) :
    {count : Nat} → Vector (OpcodeEntry Operation) count → σ → Prop
  | start : Decodes decode before #v[] before
  | next {count : Nat} {entries : Vector (OpcodeEntry Operation) count} {middle after : σ}
      {entry : OpcodeEntry Operation} (hearlier : Decodes decode before entries middle)
      (hcall : decode (UInt32.ofNat count) middle = (entry, after)) :
      Decodes decode before (entries.push entry) after

/-- A table shows these entries, both to who looks opcodes up and to who lists it. -/
structure Shows (table : OpcodeTable Operation) (entries : Vector (OpcodeEntry Operation) size) :
    Prop where
  exists_get?_eq : ∀ opcode : UInt32, ∃ entry,
    entries[opcode.toNat % size]? = some entry ∧ table.get? opcode = some entry
  toList_eq : table.toList =
    List.ofFn fun opcode : Fin size => (UInt32.ofNat opcode.val, entries[opcode])

/-- A table is what comes out for a decoder that only looks at the opcode, and serves in its
place. -/
structure Tabulates (table : OpcodeTable Operation) (size : Nat)
    (decode : UInt32 → OpcodeEntry Operation) : Prop where
  build_eq : (build size fun opcode => (pure (decode opcode) : Id _)).run = .ok table
  get?_eq : ∀ opcode, table.get? opcode = some (decode opcode)

theorem Decodes.unique {decode : UInt32 → StateM σ (OpcodeEntry Operation)} {before after last : σ}
    {entries others : Vector (OpcodeEntry Operation) size}
    (h : Decodes decode before entries after) (hothers : Decodes decode before others last) :
    entries = others ∧ after = last := by
  induction h generalizing last with
  | start =>
      cases hothers with
      | start => exact ⟨rfl, rfl⟩
  | next hearlier hcall ih =>
      cases hothers with
      | next hothers hother =>
          obtain ⟨rfl, rfl⟩ := ih hothers
          obtain ⟨rfl, rfl⟩ := Prod.mk.inj (hcall.symm.trans hother)
          exact ⟨rfl, rfl⟩

theorem decodes_ofFnM (decode : UInt32 → StateM σ (OpcodeEntry Operation)) (before : σ)
    (size : Nat) :
    let (entries, after) :=
      Vector.ofFnM (fun opcode : Fin size => decode (UInt32.ofNat opcode.val)) before
    Decodes decode before entries after := by
  -- A table of one entry more takes one call more, after all the others.
  induction size with
  | zero =>
      rw [Vector.ofFnM_zero]
      exact .start
  | succ size ih =>
      rw [Vector.ofFnM_succ]
      exact ih.next rfl

/-- The opcodes that the mask of a table lets through are the remainders. -/
theorem shows_toArray (h : size.isPowerOfTwo) (entries : Vector (OpcodeEntry Operation) size) :
    Shows ⟨entries.toArray⟩ entries := by
  obtain ⟨bits, rfl⟩ := h
  constructor
  case exists_get?_eq =>
    intro opcode
    have hlt : opcode.toNat % 2 ^ bits < 2 ^ bits := Nat.mod_lt _ (Nat.two_pow_pos bits)
    have hentry : entries[opcode.toNat % 2 ^ bits]? = some entries[opcode.toNat % 2 ^ bits] :=
      Vector.getElem?_eq_getElem hlt
    refine ⟨_, hentry, ?_⟩
    rw [get?, OpcodeTable.size, Vector.size_toArray, Nat.and_two_pow_sub_one_eq_mod,
      Vector.getElem?_toArray, hentry]
  case toList_eq =>
    apply List.ext_getElem
    · simp [toList]
    · intro opcode hlist hentries
      simp [toList]

theorem shiftLeft_log2_eq_iff (size : Nat) : 1 <<< size.log2 = size ↔ size.isPowerOfTwo := by
  rw [Nat.one_shiftLeft]
  constructor
  · intro h
    exact ⟨_, h.symm⟩
  · rintro ⟨bits, rfl⟩
    rw [Nat.log2_two_pow]

section Build

variable {m : Type → Type} [Monad m]

theorem build_of_isPowerOfTwo (h : size.isPowerOfTwo) (hsize : size < UInt32.size)
    (decode : UInt32 → m (OpcodeEntry Operation)) :
    build size decode = Except.ok <$> ofDecoderM size decode := by
  rw [build, if_pos ((shiftLeft_log2_eq_iff size).mpr h), UInt32.toNat_ofNat',
    Nat.mod_eq_of_lt hsize]

theorem build_of_not_isPowerOfTwo (h : ¬size.isPowerOfTwo)
    (decode : UInt32 → m (OpcodeEntry Operation)) :
    build size decode = pure (.error .sizeNotPowerOfTwo) := by
  rw [build, if_neg fun heq => h ((shiftLeft_log2_eq_iff size).mp heq)]

/-- A decoder that only looks at the opcode makes the table that can be had without calls. -/
theorem build_pure [LawfulMonad m] (h : size.isPowerOfTwo) (hsize : size < UInt32.size)
    (decode : UInt32 → OpcodeEntry Operation) :
    build size (fun opcode => (pure (decode opcode) : m (OpcodeEntry Operation))) =
      pure (.ok (ofDecoder size decode)) := by
  rw [build_of_isPowerOfTwo h hsize, ofDecoderM, Vector.ofFnM_pure, pure_bind, map_pure,
    Vector.toArray_ofFn]
  rfl

end Build

theorem exists_build (h : size.isPowerOfTwo) (hsize : size < UInt32.size)
    (decode : UInt32 → StateM σ (OpcodeEntry Operation)) (before : σ) :
    ∃ (table : OpcodeTable Operation) (entries : Vector (OpcodeEntry Operation) size) (after : σ),
      build size decode before = (.ok table, after) ∧ Decodes decode before entries after ∧
        table.Shows entries := by
  refine ⟨_, _, _, ?_, decodes_ofFnM decode before size, shows_toArray h _⟩
  rw [build_of_isPowerOfTwo h hsize]
  rfl

end OpcodeTable

namespace Tms7000

theorem Instruction.tabulates_table :
    table.Tabulates 0x100 fun opcode => decode opcode.toUInt8 4 where
  build_eq := OpcodeTable.build_pure ⟨8, rfl⟩ (by decide) _
  get?_eq := get?_table

namespace Exec

variable {β : Type} [Bus β]

/-- Executes what an entry of the table tells.  Returns the cost without wait states. -/
def executeEntry : OpcodeEntry (Option Instruction) → Exec β Nat
  | ⟨none, _⟩ => illegal
  | ⟨some instruction, base⟩ => do
      let extra ← perform instruction
      return base.toNat + extra

theorem execute_eq_executeEntry {machine : Machine β} {entry : OpcodeEntry (Option Instruction)}
    (h : Instruction.table.get? (fetch machine).1.toUInt32 = some entry) :
    execute machine = executeEntry entry (fetch machine).2 := by
  rw [Instruction.get?_table, UInt8.toUInt8_toUInt32, Option.some.injEq] at h
  subst h
  have hfetch : fetch machine = ((fetch machine).1, (fetch machine).2) := rfl
  rw [execute, bind_of_eq hfetch, Instruction.decode]
  cases Instruction.ofOpcode? (fetch machine).1 with
  | none => rfl
  | some entry => rfl

end Exec

end Tms7000

namespace Tms9900

theorem Instruction.tabulates_table (set : InstructionSet) :
    (table set).Tabulates 0x10000 fun opcode => decode set opcode.toUInt16 where
  build_eq := by
    rw [table_eq]
    exact OpcodeTable.build_pure ⟨16, rfl⟩ (by decide) _
  get?_eq := get?_table set

namespace Exec

variable {β : Type} [Bus β]

/-- Executes what the entry of an opcode in the table tells.  When that is X, `depth` more words are
reached, and looked up in turn.  Returns the cost without wait states. -/
def executeEntry (depth : Nat) (opcode : UInt16) : OpcodeEntry (Option Instruction) → Exec β Nat
  | ⟨none, _⟩ => illegal
  | ⟨some .x, base⟩ => do
      let (target, cycles) ← sourceWord opcode
      match depth with
      | 0 => return base.toNat + cycles
      | depth + 1 =>
          let cost ← executeOpcode depth target
          return base.toNat + cycles + cost
  | ⟨some instruction, base⟩ => do
      let extra ← perform opcode instruction
      return base.toNat + extra

theorem executeOpcode_eq_executeEntry {machine : Machine β} {opcode : UInt16}
    {entry : OpcodeEntry (Option Instruction)}
    (h : (Instruction.table machine.cpu.config.instructionSet).get? opcode.toUInt32 = some entry)
    (depth : Nat) :
    executeOpcode depth opcode machine = executeEntry depth opcode entry machine := by
  rw [Instruction.get?_table, UInt16.toUInt16_toUInt32, Option.some.injEq] at h
  subst h
  rw [executeOpcode.eq_def, cpu_bind, Instruction.decode]
  dsimp only
  cases Instruction.ofOpcode? machine.cpu.config.instructionSet opcode with
  | none => rfl
  | some instruction =>
      cases instruction with
      | _ => rfl

end Exec

end Tms9900

/-- Opcode tables are total and faithful.  A table whose size is a power of two comes from one call
of the decoder for each opcode, in increasing order, shows what the calls yield, and has an entry
for every opcode; other sizes are refused.  Both processors have such tables: what they find there
is what the opcode decodes to, and what they execute. -/
theorem opcode_tables_faithful :
    (∀ {Operation σ : Type} {size : Nat}, size.isPowerOfTwo → size ≤ 0x80000000 →
      ∀ (decode : UInt32 → StateM σ (OpcodeEntry Operation)) (before : σ),
        ∃ (table : OpcodeTable Operation) (entries : Vector (OpcodeEntry Operation) size)
            (after : σ),
          OpcodeTable.build size decode before = (.ok table, after) ∧
            OpcodeTable.Decodes decode before entries after ∧ table.Shows entries) ∧
    (∀ {Operation σ : Type} {size : Nat}, ¬size.isPowerOfTwo →
      ∀ (decode : UInt32 → StateM σ (OpcodeEntry Operation)) (before : σ),
        OpcodeTable.build size decode before = (.error .sizeNotPowerOfTwo, before)) ∧
    ((Tms7000.Instruction.table.Tabulates 0x100 fun opcode =>
        Tms7000.Instruction.decode opcode.toUInt8 4) ∧
      ∀ {β : Type} [Bus β] (machine : Tms7000.Machine β) {entry},
        Tms7000.Instruction.table.get? (Tms7000.Exec.fetch machine).1.toUInt32 = some entry →
        Tms7000.Exec.execute machine =
          Tms7000.Exec.executeEntry entry (Tms7000.Exec.fetch machine).2) ∧
    ∀ set,
      ((Tms9900.Instruction.table set).Tabulates 0x10000 fun opcode =>
        Tms9900.Instruction.decode set opcode.toUInt16) ∧
      ∀ {β : Type} [Bus β] {machine : Tms9900.Machine β},
        machine.cpu.config.instructionSet = set →
        ∀ {opcode : UInt16} {entry},
          (Tms9900.Instruction.table set).get? opcode.toUInt32 = some entry →
          ∀ depth, Tms9900.Exec.executeOpcode depth opcode machine =
            Tms9900.Exec.executeEntry depth opcode entry machine := by
  refine ⟨?_, ?_, ⟨Tms7000.Instruction.tabulates_table, ?_⟩,
    fun set => ⟨Tms9900.Instruction.tabulates_table set, ?_⟩⟩
  · intro Operation σ size h hsize
    exact OpcodeTable.exists_build h (Nat.lt_of_le_of_lt hsize (by decide))
  · intro Operation σ size h decode before
    rw [OpcodeTable.build_of_not_isPowerOfTwo h]
    rfl
  · intro β _ machine entry
    exact Tms7000.Exec.execute_eq_executeEntry
  · rintro β _ machine rfl opcode entry
    exact Tms9900.Exec.executeOpcode_eq_executeEntry

/-- A decoder that keeps a list of its calls and yields how many there have been before. -/
def OpcodeTable.recordingDecoder (opcode : UInt32) : StateM (List UInt32) (OpcodeEntry Nat) :=
  fun calls => (⟨calls.length, opcode.toUInt8⟩, calls ++ [opcode])

open OpcodeTable in
/-- Four opcodes are decoded in order, the mask leaves 2 of an opcode of 32 bits, and a table of 100
entries is refused without a call. -/
theorem opcode_tables_faithful_of_recorded_calls :
    ∃ table : OpcodeTable Nat,
      build 4 recordingDecoder [7] = (.ok table, [7, 0, 1, 2, 3]) ∧
        table.get? 0xFFFFFFFE = some ⟨3, 2⟩ ∧
        build 100 recordingDecoder [7] = (.error .sizeNotPowerOfTwo, [7]) := by
  obtain ⟨hbuild, hrefused, -, -⟩ := opcode_tables_faithful
  have hfour : Nat.isPowerOfTwo 4 := ⟨2, rfl⟩
  obtain ⟨table, entries, after, htable, hdecodes, hshows⟩ :=
    hbuild hfour (by decide) recordingDecoder [7]
  obtain ⟨rfl, rfl⟩ := hdecodes.unique
    (Decodes.start.next rfl |>.next rfl |>.next rfl |>.next rfl)
  obtain ⟨entry, hentry, hfound⟩ := hshows.exists_get?_eq 0xFFFFFFFE
  obtain rfl := Option.some.inj hentry
  have hhundred : ¬Nat.isPowerOfTwo 100 := by
    rw [← shiftLeft_log2_eq_iff]
    decide
  exact ⟨table, htable, hfound, hrefused hhundred recordingDecoder [7]⟩

end TmsCores
