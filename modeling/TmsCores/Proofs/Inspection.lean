import TmsCores.Bus.Flat
import TmsCores.Proofs.Tms7000.Inspection
import TmsCores.Proofs.Tms7000.Reachability
import TmsCores.Proofs.Tms9900.Inspection

namespace TmsCores

/-- What a debugger is shown of registers and flags, without the bus, is what the program sees of
them. -/
theorem queries_show_what_programs_see {β : Type} [Bus β] :
    (∀ machine : Tms9900.Machine β, machine.Reachable Tms9900.Variant.tms9995.config →
      machine.ShowsTruly) ∧
    (∀ (variant : Tms9900.Variant) (machine : Tms9900.Machine β), variant ≠ .tms9995 →
      machine.Reachable variant.config → machine.ShowsNothing) ∧
    (∀ (config : Tms7000.Config) (machine : Tms7000.Machine β), machine.Reachable config →
      machine.ShowsTruly) := by
  refine ⟨fun machine hmachine => ?_, fun variant machine hvariant hmachine => ?_,
    fun config machine hmachine => ?_⟩
  · exact Tms9900.Machine.showsTruly hmachine.isConsistent rfl
  · refine Tms9900.Machine.showsNothing ?_
    rw [hmachine.isConsistent.config_eq]
    cases variant with
    | tms9900 | tms9980A => rfl
    | tms9995 => exact absurd rfl hvariant
  · exact Tms7000.Machine.showsTruly hmachine.isConsistent

/-- A processor of the family with a workspace at the end of the memory that the TMS9995 has, and
INT1 driven. -/
def Tms9900.Machine.atMemoryEnd (variant : Tms9900.Variant) : Tms9900.Machine FlatBus :=
  let new : Tms9900.Machine FlatBus := ⟨.ofConfig variant.config, {}⟩
  { new with cpu := (((new.cpu.setWp 0xF0F8).setPc 0x0100).setSt 0).drive int1 .asserted }

theorem Tms9900.Machine.reachable_atMemoryEnd (variant : Tms9900.Variant) :
    (atMemoryEnd variant).Reachable variant.config := by
  let new : Tms9900.Machine FlatBus := ⟨.ofConfig variant.config, {}⟩
  have hnew : new.Reachable variant.config := .create
  have hplaced := hnew.place 0xF0F8 0x0100 0
  have hdrive : ∀ bytes, (.drive int1 .asserted : Operation Register) ≠ .restore bytes := by nofun
  exact hplaced.perform hdrive rfl

def Tms7000.Machine.new (variant : Tms7000.Variant) : Tms7000.Machine FlatBus :=
  ⟨.ofConfig variant.config, {}⟩

/-- Of the workspace only the first two registers are shown, and of the flags the latch of INT1.
Other processors show neither.  The register file of a TMS7000 ends after 128 registers. -/
theorem queries_show_what_programs_see_at_memory_end :
    let narrow := Tms9900.Machine.atMemoryEnd .tms9995
    let wide := Tms9900.Machine.atMemoryEnd .tms9900
    let small := Tms7000.Machine.new .tms7000
    (narrow.Reachable Tms9900.Variant.tms9995.config ∧
      (narrow.cpu.query "r1").isSome = true ∧ narrow.cpu.query "r2" = none ∧
      Tms9900.Exec.cruRead 0x0F72 narrow = (true, narrow)) ∧
    (wide.Reachable Tms9900.Variant.tms9900.config ∧ wide.cpu.query "r1" = none) ∧
    (small.Reachable Tms7000.Variant.tms7000.config ∧ small.cpu.query "r128" = none) := by
  intro narrow wide small
  have hnarrow := Tms9900.Machine.reachable_atMemoryEnd .tms9995
  have hwide := Tms9900.Machine.reachable_atMemoryEnd .tms9900
  have hsmall : small.Reachable Tms7000.Variant.tms7000.config := .create
  obtain ⟨hon, hoff, hfile⟩ := queries_show_what_programs_see (β := FlatBus)
  have hshows := hon narrow hnarrow
  have hshown (n : Nat) (hn : n < 16) := (hshows.registers n hn).1
  refine ⟨⟨hnarrow, (hshown 1 (by decide)).mpr (by decide), ?_, ?_⟩, ⟨hwide, ?_⟩, hsmall, ?_⟩
  · exact Option.not_isSome_iff_eq_none.mp (mt (hshown 2 (by decide)).mp (by decide))
  · obtain ⟨flags, hquery, hflags⟩ := hshows.flags
    have hword : narrow.cpu.query "flag_register" = some (.word narrow.cpu.flagRegister) :=
      Tms9900.Cpu.query_flagRegister (by decide +kernel)
    obtain rfl := Observation.word.inj (Option.some.inj (hquery.symm.trans hword))
    have hlatched : narrow.cpu.flagRegister = 0x0004 := by decide +kernel
    rw [hlatched] at hflags
    exact (hflags 2 (by decide)).1
  · exact (hoff .tms9900 wide nofun hwide).registers 1
  · have hmissing : small.cpu.read? (.r 128) = .error ⟨.r 128⟩ := by decide +kernel
    rcases (hfile _ small hsmall).registers 128 with ⟨value, -, hread⟩ | ⟨hquery, -⟩
    · exact absurd (hread.symm.trans hmissing) nofun
    · exact hquery

end TmsCores
