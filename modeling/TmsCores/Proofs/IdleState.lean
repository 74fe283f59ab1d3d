import TmsCores.Bus.Flat
import TmsCores.Proofs.Tms7000.IdleNews
import TmsCores.Proofs.Tms9900.IdleNews

namespace TmsCores

/-- From its creation on a processor tells its bus of each change of its idle state, and of nothing
else.  While it is idle it keeps off memory and I/O space and leaves its registers alone, and only
an interrupt or a reset gets it out of this state. -/
theorem idle_reported_and_honoured :
    (∀ {β : Type} [Bus β] (config : Tms9900.Config) (inner : β),
      let start : Tms9900.Machine (RecordedBus β) := ⟨.ofConfig config, inner, []⟩
      (∀ operations : List (Operation Tms9900.Register),
        (∀ operation ∈ operations, ∀ bytes, operation ≠ .restore bytes) →
          ∀ answers final,
            session Tms9900.Machine.perform operations start = some (answers, final) →
            ∃ stages, final = start.through stages) ∧
      ∀ stages : List (Stage Tms9900.Register β),
        let machine := start.through stages
        (∃ count, machine.bus.idleNews = RecordedBus.alternation count) ∧
          machine.cpu.idle = machine.bus.idleNews.getLast?.getD false ∧
          (machine.cpu.idle = true →
            (∀ limit, machine.Acknowledges limit [] →
              machine.Passive (Tms9900.Exec.iterate limit machine).2) ∧
            ∀ stage, (Tms9900.Machine.pass stage machine).2.cpu.idle = false →
              stage = .reset ∨
                ∃ limit line, stage = .turn (.iterate limit) ∧
                  machine.Acknowledges limit [line])) ∧
    (∀ {β : Type} [Bus β] (config : Tms7000.Config) (inner : β),
      let start : Tms7000.Machine (RecordedBus β) := ⟨.ofConfig config, inner, []⟩
      (∀ operations : List (Operation Tms7000.Register),
        (∀ operation ∈ operations, ∀ bytes, operation ≠ .restore bytes) →
          ∀ answers final,
            session Tms7000.Machine.perform operations start = some (answers, final) →
            ∃ stages, final = start.through stages) ∧
      ∀ stages : List (Stage Tms7000.Register β),
        let machine := start.through stages
        (∃ count, machine.bus.idleNews = RecordedBus.alternation count) ∧
          machine.cpu.idle = machine.bus.idleNews.getLast?.getD false ∧
          (machine.cpu.idle = true →
            (∀ limit, machine.Acknowledges limit [] →
              machine.Passive (Tms7000.Exec.iterate limit machine).2) ∧
            ∀ stage, (Tms7000.Machine.pass stage machine).2.cpu.idle = false →
              stage = .reset ∨
                ∃ limit line, stage = .turn (.iterate limit) ∧
                  machine.Acknowledges limit [line])) := by
  constructor
  · intro β _ config inner start
    have hstart : start.IsInformed := RecordedBus.isInformed_of_new rfl
    refine ⟨fun operations hoperations answers final hsession =>
      Tms9900.Machine.exists_through_of_session hoperations hsession, ?_⟩
    intro stages machine
    have hinformed : machine.bus.IsInformed machine.cpu.idle :=
      Tms9900.Machine.isInformed_through hstart stages
    have hlatest := hinformed.latest
    obtain ⟨count, hnews, _⟩ := hinformed
    refine ⟨⟨count, hnews⟩, hlatest, fun hidle => ⟨fun limit hquiet => ?_, ?_⟩⟩
    · exact (Tms9900.Machine.passive_iterate hidle
        (Tms9900.Machine.acknowledges_iff.mp hquiet) limit).1
    · exact fun stage => Tms9900.Machine.wakes_pass hidle
  · intro β _ config inner start
    have hstart : start.IsInformed := RecordedBus.isInformed_of_new rfl
    refine ⟨fun operations hoperations answers final hsession =>
      Tms7000.Machine.exists_through_of_session hoperations hsession, ?_⟩
    intro stages machine
    have hinformed : machine.bus.IsInformed machine.cpu.idle :=
      Tms7000.Machine.isInformed_through hstart stages
    have hlatest := hinformed.latest
    obtain ⟨count, hnews, _⟩ := hinformed
    refine ⟨⟨count, hnews⟩, hlatest, fun hidle => ⟨fun limit hquiet => ?_, ?_⟩⟩
    · exact (Tms7000.Machine.passive_iterate hidle
        (Tms7000.Machine.acknowledges_iff.mp hquiet) limit).1
    · exact fun stage => Tms7000.Machine.wakes_pass hidle

/-- A processor that has executed IDLE sleeps on, for no interrupt is due. -/
theorem idle_reported_and_honoured_in_sleep :
    (let start : Tms9900.Machine (RecordedBus FlatBus) :=
        ⟨.ofConfig Tms9900.Variant.tms9900.config, { memory := Memory.zero.pokeWord 0 0x0340 }, []⟩
      let machine := start.through [.turn (.iterate 100)]
      machine.cpu.idle = true ∧ machine.Acknowledges 100 [] ∧
        machine.Passive (Tms9900.Exec.iterate 100 machine).2) ∧
    (let start : Tms7000.Machine (RecordedBus FlatBus) :=
        ⟨.ofConfig Tms7000.Variant.tms7000.config, { memory := Memory.zero.poke 0x1000 0x01 }, []⟩
      let machine := start.through [.turn (.setPc 0x1000), .turn (.iterate 100)]
      machine.cpu.idle = true ∧ machine.Acknowledges 100 [] ∧
        machine.Passive (Tms7000.Exec.iterate 100 machine).2) := by
  constructor
  · intro start machine
    have hidle : machine.cpu.idle = true := by decide +kernel
    have hquiet : machine.Acknowledges 100 [] :=
      Tms9900.Machine.acknowledges_iff.mpr (by decide +kernel)
    obtain ⟨_, hstages⟩ :=
      idle_reported_and_honoured.1 Tms9900.Variant.tms9900.config start.bus.inner
    obtain ⟨_, _, hsleep⟩ := hstages [.turn (.iterate 100)]
    exact ⟨hidle, hquiet, (hsleep hidle).1 100 hquiet⟩
  · intro start machine
    have hidle : machine.cpu.idle = true := by decide +kernel
    have hquiet : machine.Acknowledges 100 [] :=
      Tms7000.Machine.acknowledges_iff.mpr (by decide +kernel)
    obtain ⟨_, hstages⟩ :=
      idle_reported_and_honoured.2 Tms7000.Variant.tms7000.config start.bus.inner
    obtain ⟨_, _, hsleep⟩ := hstages [.turn (.setPc 0x1000), .turn (.iterate 100)]
    exact ⟨hidle, hquiet, (hsleep hidle).1 100 hquiet⟩

end TmsCores
