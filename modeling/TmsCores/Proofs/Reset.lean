import TmsCores.Bus.Flat
import TmsCores.Proofs.Tms7000.Reset
import TmsCores.Proofs.Tms9900.Reset

namespace TmsCores

/-- A reset makes a processor forget its past.  Two processors of one kind that have been through
anything, but agree in what a reset does not touch, cannot be told apart after it, on buses that
behave the same.  No request is left then, the status register is clear, and the processor is awake.
A TMS7000 takes no interrupt before the bit I has been set and its program has enabled a line. -/
theorem reset_forgets_past {β γ : Type} [Bus β] [Bus γ] {S : β → γ → Prop}
    (hS : Bus.SameBehaviour S) :
    (∀ {config : Tms9900.Config} {m : Tms9900.Machine (RecordedBus β)}
        {n : Tms9900.Machine (RecordedBus γ)},
      m.Reachable config → n.Reachable config → m.cpu.AgreesAcrossReset n.cpu →
      S (Bus.awakened m.bus.inner m.cpu.idle) (Bus.awakened n.bus.inner n.cpu.idle) →
        (Tms9900.Exec.reset m).2.cpu = (Tms9900.Exec.reset n).2.cpu ∧
          Tms9900.Machine.Indistinguishable S (Tms9900.Exec.reset m).2
            (Tms9900.Exec.reset n).2) ∧
    (∀ m : Tms9900.Machine β,
      let cpu := (Tms9900.Exec.reset m).2.cpu
      (∀ line, cpu.interrupts.isLatched line = false) ∧ cpu.st = 0 ∧ cpu.idle = false) ∧
    (∀ {config : Tms7000.Config} {m : Tms7000.Machine (RecordedBus β)}
        {n : Tms7000.Machine (RecordedBus γ)},
      m.Reachable config → n.Reachable config → m.cpu.AgreesAcrossReset n.cpu →
      S (Bus.awakened m.bus.inner m.cpu.idle) (Bus.awakened n.bus.inner n.cpu.idle) →
        (Tms7000.Exec.reset m).2.cpu = (Tms7000.Exec.reset n).2.cpu ∧
          Tms7000.Machine.Indistinguishable S (Tms7000.Exec.reset m).2
            (Tms7000.Exec.reset n).2) ∧
    (∀ m : Tms7000.Machine β,
      let cpu := (Tms7000.Exec.reset m).2.cpu
      (∀ line, cpu.interrupts.isLatched line = false) ∧ cpu.st = 0 ∧ cpu.idle = false) ∧
    (∀ {config : Tms7000.Config} {m : Tms7000.Machine (RecordedBus β)}, m.Reachable config →
      let start := (Tms7000.Exec.reset m).2
      (∀ operations : List (Operation Tms7000.Register),
        (∀ operation ∈ operations, ∀ bytes, operation ≠ .restore bytes) →
          ∀ answers final,
            session Tms7000.Machine.perform operations start = some (answers, final) →
            ∃ stages, final = start.through stages) ∧
      ∀ stages limit line, (start.through stages).Acknowledges limit [line] →
        History.Sometime Tms7000.Machine.pass Tms7000.Machine.SetsInterruptEnable stages start ∧
          History.Sometime Tms7000.Machine.pass Tms7000.Machine.WritesEnable stages start) := by
  refine ⟨?_, ?_, ?_, ?_, ?_⟩
  · intro config m n hm hn
    exact Tms9900.Machine.indistinguishable_reset hS hm.isConsistent hn.isConsistent
  · intro m cpu
    obtain ⟨chip, wp, pc, wait, hcpu⟩ := Tms9900.Exec.cpu_reset m
    have hcpu : cpu = _ := hcpu
    rw [hcpu]
    exact ⟨m.cpu.interrupts.isLatched_reset, rfl, rfl⟩
  · intro config m n hm hn
    exact Tms7000.Machine.indistinguishable_reset hS hm.isConsistent hn.isConsistent
  · intro m cpu
    obtain ⟨pc, hcpu⟩ := Tms7000.Exec.cpu_reset m
    have hcpu : cpu = _ := hcpu
    rw [hcpu]
    exact ⟨m.cpu.isLatched_restarted, rfl, rfl⟩
  · intro config m hm start
    refine ⟨fun operations hoperations answers final hsession =>
      Tms7000.Machine.exists_through_of_session hoperations hsession, ?_⟩
    exact fun stages limit line => Tms7000.Machine.enabled_of_acknowledges hm.isConsistent

/-- One TMS9995 has met an illegal opcode, another has executed RTWP.  One TMS7000 sleeps on a
request, another has executed POP ST.  A third one has been made to take an interrupt. -/
theorem reset_forgets_past_of_sleeper :
    (let fresh : Tms9900.Machine (RecordedBus FlatBus) :=
        ⟨.ofConfig Tms9900.Variant.tms9995.config,
          { memory := Memory.zero.pokeWord 0x1002 0x0380 }, []⟩
      let place (pc : UInt16) (machine : Tms9900.Machine (RecordedBus FlatBus)) :=
        { machine with cpu := ((machine.cpu.setWp 0).setPc pc).setSt 0 }
      let m := { place 0x2000 (Tms9900.Exec.step (place 0x1000 fresh)).2 with bus := fresh.bus }
      let n := { place 0x2000 (Tms9900.Exec.step (place 0x1002 fresh)).2 with bus := fresh.bus }
      (m.cpu.chip.mid = true ∧ n.cpu.chip.mid = false) ∧
        Tms9900.Machine.Indistinguishable Eq (Tms9900.Exec.reset m).2 (Tms9900.Exec.reset n).2) ∧
    (let fresh : Tms7000.Machine (RecordedBus FlatBus) :=
        ⟨.ofConfig Tms7000.Variant.tms7000.config,
          { memory := (Memory.zero.poke 0x1000 0x01).poke 0x1001 0x08 }, []⟩
      let pulsed := (fresh.cpu.drive Tms7000.int1 .held).drive Tms7000.int1 .clear
      let m := { (Tms7000.Exec.step { fresh with cpu := pulsed.setPc 0x1000 }).2 with
        bus := fresh.bus }
      let n := { (Tms7000.Exec.step { fresh with cpu := fresh.cpu.setPc 0x1001 }).2 with
        bus := fresh.bus }
      (m.cpu.idle = true ∧ n.cpu.idle = false ∧ m.cpu.Latched Tms7000.int1 ∧
          m.cpu.sp ≠ n.cpu.sp) ∧
        Tms7000.Machine.Indistinguishable Eq (Tms7000.Exec.reset m).2 (Tms7000.Exec.reset n).2) ∧
    (let memory := (Memory.zero.load 0x1000 [0xA2, 0x01, 0x00, 0x05]).pokeWord 0xFFFE 0x1000
      let fresh : Tms7000.Machine (RecordedBus FlatBus) :=
        ⟨.ofConfig Tms7000.Variant.tms7000.config, { memory := memory }, []⟩
      let start := (Tms7000.Exec.reset fresh).2
      let stages : List (Stage Tms7000.Register FlatBus) :=
        [.turn (.iterate 100), .turn (.iterate 100), .turn (.drive Tms7000.int1 .held)]
      (start.through stages).Acknowledges 100 [Tms7000.int1] ∧
        History.Sometime Tms7000.Machine.pass Tms7000.Machine.SetsInterruptEnable stages start ∧
        History.Sometime Tms7000.Machine.pass Tms7000.Machine.WritesEnable stages start) := by
  have hforget := reset_forgets_past (Bus.sameBehaviour_eq (β := FlatBus))
  refine ⟨?_, ?_, ?_⟩
  · intro fresh place m n
    have hfresh : fresh.Reachable Tms9900.Variant.tms9995.config := .create
    have hplace (pc : UInt16) {machine : Tms9900.Machine (RecordedBus FlatBus)}
        (h : machine.Reachable Tms9900.Variant.tms9995.config) :
        (place pc machine).Reachable Tms9900.Variant.tms9995.config :=
      h.place 0 pc 0
    have hm : m.Reachable Tms9900.Variant.tms9995.config := by
      dsimp only [m]
      exact hplace 0x2000 (hplace 0x1000 hfresh).step
    have hn : n.Reachable Tms9900.Variant.tms9995.config := by
      dsimp only [n]
      exact hplace 0x2000 (hplace 0x1002 hfresh).step
    have hpast : m.cpu.chip.mid = true ∧ n.cpu.chip.mid = false := by decide +kernel
    have hpresent : m.cpu.cycles = n.cpu.cycles ∧ m.cpu.chip.ram.toList = n.cpu.chip.ram.toList ∧
        m.cpu.interrupts.lines.map (·.state) = n.cpu.interrupts.lines.map (·.state) ∧
        m.cpu.chip.int4Level = n.cpu.chip.int4Level ∧ m.cpu.wp = n.cpu.wp ∧
        m.cpu.pc = n.cpu.pc ∧ m.cpu.st = n.cpu.st ∧ m.cpu.idle = n.cpu.idle := by
      decide +kernel
    obtain ⟨hcycles, hram, hstates, hint4, hwp, hpc, hst, hidle⟩ := hpresent
    have hagrees : m.cpu.AgreesAcrossReset n.cpu :=
      ⟨hcycles, InterruptController.state_congr hstates, Array.ext' hram, hint4, hwp, hpc, hst⟩
    have hinner : Bus.awakened m.bus.inner m.cpu.idle = Bus.awakened n.bus.inner n.cpu.idle :=
      congrArg (Bus.awakened fresh.bus.inner) hidle
    exact ⟨hpast, (hforget.1 hm hn hagrees hinner).2⟩
  · intro fresh pulsed m n
    have hfresh : fresh.Reachable Tms7000.Variant.tms7000.config := .create
    have hm : m.Reachable Tms7000.Variant.tms7000.config :=
      (((hfresh.drive Tms7000.int1 .held).drive Tms7000.int1 .clear).setPc 0x1000).step
    have hn : n.Reachable Tms7000.Variant.tms7000.config := (hfresh.setPc 0x1001).step
    have hasleep : m.cpu.idle = true ∧ n.cpu.idle = false := by decide +kernel
    have hlatched : m.cpu.interrupts.isLatched Tms7000.int1 = true := by decide +kernel
    have hagrees : m.cpu.AgreesAcrossReset n.cpu :=
      ⟨by decide +kernel, InterruptController.state_congr (by decide +kernel), by decide +kernel⟩
    have hinner : Bus.awakened m.bus.inner m.cpu.idle = Bus.awakened n.bus.inner n.cpu.idle := by
      rw [hasleep.1, hasleep.2]
      rfl
    exact ⟨⟨hasleep.1, hasleep.2, hlatched, by decide +kernel⟩,
      (hforget.2.2.1 hm hn hagrees hinner).2⟩
  · intro memory fresh start stages
    have hfresh : fresh.Reachable Tms7000.Variant.tms7000.config := .create
    have hserviced : (start.through stages).Acknowledges 100 [Tms7000.int1] :=
      Tms7000.Machine.acknowledges_iff.mpr (by decide +kernel)
    exact ⟨hserviced, (hforget.2.2.2.2 hfresh).2 stages 100 Tms7000.int1 hserviced⟩

end TmsCores
