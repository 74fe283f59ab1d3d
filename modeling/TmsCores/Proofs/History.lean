import TmsCores.Host

namespace TmsCores

/-- A piece of what happens to a processor between two resets or restores: an iteration, which is
told how many cycles are left, or something that the host does. -/
inductive Turn (Register β : Type)
  | iterate (limit : Nat)
  | drive (line : UInt8) (state : LineState)
  | setPc (pc : UInt16)
  | read (register : Register)
  | write (register : Register) (value : UInt16)
  | touch (change : β → β)

/-- The host does something between two iterations. -/
def Turn.IsIntervention {Register β : Type} : Turn Register β → Prop
  | .iterate _ => False
  | _ => True

theorem Turn.eq_iterate_or_isIntervention {Register β : Type} (turn : Turn Register β) :
    (∃ limit, turn = .iterate limit) ∨ turn.IsIntervention := by
  cases turn with
  | iterate limit => exact .inl ⟨limit, rfl⟩
  | drive | setPc | read | write | touch => exact .inr trivial

/-- A piece of what happens to a processor between two restores. -/
inductive Stage (Register β : Type)
  | turn (turn : Turn Register β)
  | reset

namespace History

variable {σ τ : Type} (take : τ → σ → Nat × σ)

/-- Some turns one after the other.  Returns the cycles that they take together. -/
def play : List τ → σ → Nat × σ
  | [], state => (0, state)
  | turn :: rest, state =>
      let (cycles, state) := take turn state
      let (more, state) := play rest state
      (cycles + more, state)

/-- Every turn has a property, together with the state in which it is taken. -/
def Throughout (P : τ → σ → Prop) : List τ → σ → Prop
  | [], _ => True
  | turn :: rest, state => P turn state ∧ Throughout P rest (take turn state).2

/-- Some turn has a property, together with the state in which it is taken. -/
def Sometime (P : τ → σ → Prop) : List τ → σ → Prop
  | [], _ => False
  | turn :: rest, state => P turn state ∨ Sometime P rest (take turn state).2

variable {take} {P : τ → σ → Prop} {turns : List τ} {state : σ}

theorem throughout_of_not_sometime (h : ¬Sometime take P turns state) :
    Throughout take (fun turn state => ¬P turn state) turns state := by
  induction turns generalizing state with
  | nil => trivial
  | cons turn rest ih =>
      rw [Sometime, not_or] at h
      exact ⟨h.1, ih h.2⟩

theorem Throughout.of_forall (h : ∀ turn ∈ turns, ∀ state, P turn state) (state : σ) :
    Throughout take P turns state := by
  induction turns generalizing state with
  | nil => trivial
  | cons turn rest ih =>
      refine ⟨h turn List.mem_cons_self state, ih (fun turn hturn => ?_) _⟩
      exact h turn (List.mem_cons_of_mem _ hturn)

theorem Throughout.keeps {I : σ → Prop}
    (hstep : ∀ turn state, P turn state → I state → I (take turn state).2)
    (h : Throughout take P turns state) (hstate : I state) : I (play take turns state).2 := by
  induction turns generalizing state with
  | nil => exact hstate
  | cons turn rest ih => exact ih h.2 (hstep turn state h.1 hstate)

theorem play_keeps {I : σ → Prop} (hstep : ∀ turn state, I state → I (take turn state).2)
    (hstate : I state) (turns : List τ) : I (play take turns state).2 := by
  have hall : Throughout take (fun _ _ => True) turns state :=
    .of_forall (fun _ _ _ => trivial) state
  exact hall.keeps (fun turn state _ => hstep turn state) hstate

variable (take) in
theorem play_map {ω : Type} (f : ω → τ) (items : List ω) (state : σ) :
    play take (items.map f) state = play (fun item => take (f item)) items state := by
  induction items generalizing state with
  | nil => rfl
  | cons item rest ih => simp [play, ih]

variable (take) in
theorem play_append (turns more : List τ) (state : σ) :
    play take (turns ++ more) state =
      ((play take turns state).1 + (play take more (play take turns state).2).1,
        (play take more (play take turns state).2).2) := by
  induction turns generalizing state with
  | nil => simp [play]
  | cons turn rest ih => simp [play, ih, Nat.add_assoc]

/-- When every operation of a session is some turns, so is the session. -/
theorem exists_play_of_session {ω α : Type} {act : ω → σ → Option (α × σ)} {operations : List ω}
    (hact : ∀ operation ∈ operations, ∀ state answer next,
      act operation state = some (answer, next) → ∃ turns, next = (play take turns state).2)
    {answers : List α} {final : σ} (h : session act operations state = some (answers, final)) :
    ∃ turns, final = (play take turns state).2 := by
  induction operations generalizing state answers with
  | nil =>
      obtain ⟨_, rfl⟩ := Prod.mk.inj (Option.some.inj h)
      exact ⟨[], rfl⟩
  | cons operation rest ih =>
      obtain ⟨⟨answer, next⟩, hoperation, hrest⟩ := Option.bind_eq_some_iff.mp h
      obtain ⟨⟨more, final'⟩, hsession, hfinal⟩ := Option.bind_eq_some_iff.mp hrest
      obtain ⟨_, rfl⟩ := Prod.mk.inj (Option.some.inj hfinal)
      obtain ⟨turns, rfl⟩ := hact operation List.mem_cons_self state answer next hoperation
      obtain ⟨later, rfl⟩ := ih
        (fun other hother => hact other (List.mem_cons_of_mem _ hother)) hsession
      exact ⟨turns ++ later, by rw [play_append]⟩

end History

end TmsCores
