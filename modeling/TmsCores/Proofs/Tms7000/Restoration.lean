import TmsCores.Proofs.Tms7000.Twins

namespace TmsCores.Tms7000

variable {α β : Type} {m n : Machine β}

/-- Two machines that differ at most in what the latest operation has left behind. -/
def Machine.SameState (m n : Machine β) : Prop :=
  m.cpu = n.cpu ∧ m.bus = n.bus

namespace Exec

open Machine

/-- What begins by clearing the leftovers takes no notice of them. -/
theorem corresponds_of_twins {x : Exec β α} (hx : Corresponds (Twins Eq) x x)
    (hwait : ∀ machine wait, x { machine with wait := wait } = x machine) :
    Corresponds SameState x x := by
  intro m n hmn
  have htwins : Twins Eq { m with wait := n.wait } n := ⟨hmn.1, rfl, hmn.2⟩
  obtain ⟨hvalue, hnext⟩ := hx _ _ htwins
  rw [hwait] at hvalue hnext
  exact ⟨hvalue, hnext.cpu_eq, hnext.bus⟩

theorem corresponds_modifyCpu (change : Cpu → Cpu) :
    Corresponds (SameState (β := β)) (modifyCpu change) (modifyCpu change) :=
  fun _ _ hmn => ⟨rfl, congrArg change hmn.1, hmn.2⟩

variable [Bus β]

theorem corresponds_iterate (limit : Nat) :
    Corresponds (SameState (β := β)) (iterate limit) (iterate limit) :=
  corresponds_of_twins ((Twins.hostSimulation Bus.sameBehaviour_eq).iterate limit) fun _ _ => rfl

theorem corresponds_reset : Corresponds (SameState (β := β)) reset reset :=
  corresponds_of_twins (Twins.hostSimulation Bus.sameBehaviour_eq).reset fun _ _ => rfl

end Exec

namespace Machine

theorem corresponds_write? (register : Register) (value : UInt16) :
    Corresponds (SameState (β := β)) (write? register value) (write? register value) := by
  intro m n hmn
  unfold write?
  rw [hmn.1]
  split
  · exact ⟨rfl, rfl, hmn.2⟩
  · exact ⟨rfl, hmn⟩

variable [Bus β]

theorem perform_sameOutcome (operation : Operation Register) (h : SameState m n) :
    SameOutcome SameState (m.perform operation) (n.perform operation) := by
  have hsome {δ : Type} {x : Exec β δ} (hx : Corresponds SameState x x)
      (answer : δ → Answer MissingRegister Config) :
      SameOutcome SameState (some (answer (x m).1, (x m).2)) (some (answer (x n).1, (x n).2)) :=
    .some ⟨congrArg answer (hx m n h).1, (hx m n h).2⟩
  cases operation with
  | reset => exact hsome Exec.corresponds_reset fun _ => .done
  | step => exact hsome (Exec.corresponds_iterate _) .cycles
  | run budget =>
      refine (RunLoop.run_sameOutcome Exec.corresponds_iterate budget h).bind ?_
      exact fun count s t hst => .some ⟨rfl, hst⟩
  | drive line state =>
      exact hsome (Exec.corresponds_modifyCpu (·.drive line state)) fun _ => .done
  | setPc pc => exact hsome (Exec.corresponds_modifyCpu (·.setPc pc)) fun _ => .done
  | read register =>
      exact .some ⟨congrArg (fun cpu : Cpu => Answer.value (cpu.read? register)) h.1, h⟩
  | write register value => exact hsome (corresponds_write? register value) .written
  | query path =>
      exact .some ⟨congrArg (fun cpu : Cpu => Answer.observation (cpu.query path)) h.1, h⟩
  | save => exact .some ⟨congrArg (fun cpu : Cpu => Answer.saved cpu.save) h.1, h⟩
  | restore bytes =>
      cases hrestore : n.cpu.restore bytes with
      | ok saved =>
          have hrestore' : m.cpu.restore bytes = .ok saved := by
            rw [h.1, hrestore]
          rw [perform_restore_ok hrestore, perform_restore_ok hrestore']
          exact .some ⟨rfl, rfl, h.2⟩
      | error error =>
          have hrestore' : m.cpu.restore bytes = .error error := by
            rw [h.1, hrestore]
          rw [perform_restore_error hrestore, perform_restore_error hrestore']
          exact .some ⟨rfl, h⟩

theorem act_sameOutcome (move : HostMove Register β) (h : SameState m n) :
    SameOutcome SameState (m.act move) (n.act move) := by
  cases move with
  | call operation => exact perform_sameOutcome operation h
  | touch change => exact .some ⟨rfl, h.1, congrArg change h.2⟩

/-- What a host sees in a session: the answers, and in the end the state and the bus. -/
def sight (moves : List (HostMove Register β)) (machine : Machine β) :
    Option (List (Answer MissingRegister Config) × Cpu × β) :=
  (session act moves machine).map fun (answers, final) => (answers, final.cpu, final.bus)

theorem sight_eq (moves : List (HostMove Register β)) (h : SameState m n) :
    sight moves m = sight moves n := by
  have hsession : SameOutcome SameState (session act moves m) (session act moves n) :=
    .session (fun move _ _ _ => act_sameOutcome move) h
  refine hsession.map_eq fun answers s t hst => ?_
  dsimp only
  rw [hst.1, hst.2]

end Machine

namespace Processor.Reachable

variable {config config' : Config} {saved other : Processor}

theorem read?_save (h : Reachable config saved) :
    (MessagePack.Value.read? saved.cpu.save).bind Cpu.ofValue? = some saved.cpu := by
  rw [Cpu.read?_save h.isConsistent.isStorable, Option.bind_some, Cpu.ofValue?_toValue]

theorem restore_eq (hsaved : Reachable config saved) (hother : Reachable config' other) :
    other.cpu.restore saved.cpu.save =
      if saved.cpu.config = other.cpu.config then .ok saved.cpu
      else .error (.mismatch saved.cpu.config other.cpu.config) := by
  have hsame : saved.cpu.config = other.cpu.config →
      saved.cpu.file.size = other.cpu.file.size := by
    rw [hsaved.isConsistent.file_size, hother.isConsistent.file_size,
      hsaved.isConsistent.config_eq, hother.isConsistent.config_eq]
    exact congrArg fun config : Config => config.registerCount.toNat
  rw [Cpu.restore_save _ hsaved.isConsistent.isStorable]
  by_cases hconfig : saved.cpu.config = other.cpu.config
  · rw [if_pos ⟨hconfig, hsame hconfig⟩, if_pos hconfig]
  · rw [if_neg fun h => hconfig h.1, if_neg hconfig]

variable [Bus β]

theorem perform_restore_save (hsaved : Reachable config saved) (hother : Reachable config' other)
    (hconfig : saved.cpu.config = other.cpu.config) (bus : β) :
    Machine.perform (.restore saved.cpu.save) ⟨other, bus⟩ =
      some (.restored (.ok ()), ⟨{ other with cpu := saved.cpu }, bus⟩) := by
  have hrestore := hsaved.restore_eq hother
  rw [if_pos hconfig] at hrestore
  exact Machine.perform_restore_ok hrestore

theorem perform_restore_mismatch (hsaved : Reachable config saved)
    (hother : Reachable config' other) (hconfig : saved.cpu.config ≠ other.cpu.config) (bus : β) :
    Machine.perform (.restore saved.cpu.save) ⟨other, bus⟩ =
      some (.restored (.error (.mismatch saved.cpu.config other.cpu.config)), ⟨other, bus⟩) := by
  have hrestore := hsaved.restore_eq hother
  rw [if_neg hconfig] at hrestore
  exact Machine.perform_restore_error hrestore

theorem perform_restore_of_prefix (hsaved : Reachable config saved) {bytes more : List UInt8}
    (hsplit : bytes ++ more = saved.cpu.save) (hmore : more ≠ []) (machine : Machine β) :
    machine.perform (.restore bytes) = some (.restored (.error .unreadable), machine) :=
  Machine.perform_restore_error
    (Cpu.restore_of_prefix _ hsaved.isConsistent.isStorable hsplit hmore)

end Processor.Reachable

theorem Machine.eq_of_restore_error [Bus β] {bytes : List UInt8} {error : RestoreError Config}
    {machine next : Machine β}
    (h : machine.perform (.restore bytes) = some (.restored (.error error), next)) :
    next = machine := by
  cases hrestore : machine.cpu.restore bytes with
  | ok saved =>
      rw [perform_restore_ok hrestore] at h
      exact absurd (Prod.mk.inj (Option.some.inj h)).1 nofun
  | error error =>
      rw [perform_restore_error hrestore] at h
      exact (Prod.mk.inj (Option.some.inj h)).2.symm

end TmsCores.Tms7000
