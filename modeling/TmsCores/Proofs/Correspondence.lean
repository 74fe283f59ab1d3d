import Mathlib.Data.List.Forall2
import TmsCores.Host

namespace TmsCores

variable {σ τ α γ δ : Type}

theorem bind_of_eq {x : StateM σ α} {f : α → StateM σ γ} {s t : σ} {value : α}
    (h : x s = (value, t)) : (x >>= f) s = f value t := by
  change f (x s).1 (x s).2 = f value t
  rw [h]

theorem bind_snd (x : StateM σ α) (f : α → StateM σ γ) (s : σ) :
    ((x >>= f) s).2 = (f (x s).1 (x s).2).2 :=
  rfl

theorem seq_snd (x : StateM σ α) (y : StateM σ γ) (s : σ) :
    ((x >>= fun _ => y) s).2 = (y (x s).2).2 :=
  rfl

theorem pure_snd (value : α) (s : σ) : ((pure value : StateM σ α) s).2 = s :=
  rfl

theorem get_bind (f : σ → StateM σ γ) (s : σ) : (get >>= f) s = f s s :=
  rfl

theorem modify_apply (change : σ → σ) (s : σ) :
    (modify change : StateM σ Unit) s = ((), change s) :=
  rfl

/-- Two computations on corresponding states return the same value, and the states correspond
again. -/
def Corresponds (R : σ → τ → Prop) (x : StateM σ α) (y : StateM τ α) : Prop :=
  ∀ s t, R s t → (x s).1 = (y t).1 ∧ R (x s).2 (y t).2

/-- A computation started in a state with one property ends in a state with another. -/
def Leads (P Q : σ → Prop) (x : StateM σ α) : Prop :=
  ∀ s, P s → Q (x s).2

/-- A computation keeps a property of the state. -/
def Keeps (I : σ → Prop) (x : StateM σ α) : Prop :=
  Leads I I x

/-- A computation started in a state with one property returns a value with another. -/
def Yields (P : σ → Prop) (Q : α → Prop) (x : StateM σ α) : Prop :=
  ∀ s, P s → Q (x s).1

/-- Both states are the same, and have a property. -/
def SameWith (I : σ → Prop) (s t : σ) : Prop :=
  s = t ∧ I s

theorem corresponds_self_iff {I : σ → Prop} {x : StateM σ α} :
    Corresponds (SameWith I) x x ↔ Keeps I x := by
  constructor
  · intro h s hs
    exact (h s s ⟨rfl, hs⟩).2.2
  · rintro h s _ ⟨rfl, hs⟩
    exact ⟨rfl, rfl, h s hs⟩

theorem Leads.bind {P Q S : σ → Prop} {x : StateM σ α} {f : α → StateM σ γ}
    (hx : Leads P Q x) (hf : ∀ value, Leads Q S (f value)) : Leads P S (x >>= f) :=
  fun s hs => hf (x s).1 (x s).2 (hx s hs)

theorem Leads.ite {P Q : σ → Prop} {c : Prop} [Decidable c] {x y : StateM σ α}
    (hx : c → Leads P Q x) (hy : ¬c → Leads P Q y) : Leads P Q (if c then x else y) := by
  split
  · next hc => exact hx hc
  · next hc => exact hy hc

theorem Leads.after {P Q : σ → Prop} (x : StateM σ α) {f : α → StateM σ γ}
    (hf : ∀ value, Leads (fun _ => True) Q (f value)) : Leads P Q (x >>= f) :=
  fun s _ => hf (x s).1 (x s).2 trivial

theorem Yields.bind {P S : σ → Prop} {Q : γ → Prop} {x : StateM σ α} {f : α → StateM σ γ}
    (hx : Leads P S x) (hf : ∀ value, Yields S Q (f value)) : Yields P Q (x >>= f) :=
  fun s hs => hf (x s).1 (x s).2 (hx s hs)

theorem Yields.after {P : σ → Prop} {Q : γ → Prop} (x : StateM σ α) {f : α → StateM σ γ}
    (hf : ∀ value, Yields (fun _ => True) Q (f value)) : Yields P Q (x >>= f) :=
  fun s _ => hf (x s).1 (x s).2 trivial

theorem Yields.andThen {P : σ → Prop} {Q : α → Prop} {S : γ → Prop} {x : StateM σ α}
    {f : α → StateM σ γ} (hx : Yields P Q x)
    (hf : ∀ value, Q value → Yields (fun _ => True) S (f value)) : Yields P S (x >>= f) :=
  fun s hs => hf (x s).1 (hx s hs) (x s).2 trivial

theorem Yields.ite {P : σ → Prop} {Q : α → Prop} {c : Prop} [Decidable c] {x y : StateM σ α}
    (hx : Yields P Q x) (hy : Yields P Q y) : Yields P Q (if c then x else y) := by
  split
  · exact hx
  · exact hy

theorem Yields.pure {P : σ → Prop} {Q : α → Prop} {value : α} (h : Q value) :
    Yields P Q (Pure.pure value) :=
  fun _ _ => h

/-- A computation moves a place on by some bytes, wherever that is. -/
def Advances (place : σ → UInt16) (bytes : Nat) (x : StateM σ α) : Prop :=
  ∀ s, place (x s).2 = place s + .ofNat bytes

namespace Advances

variable {place : σ → UInt16} {bytes more : Nat} {x y : StateM σ α} {f : α → StateM σ γ}

theorem of_eq (h : ∀ s, place (x s).2 = place s) : Advances place 0 x :=
  fun s => (h s).trans (UInt16.add_zero _).symm

theorem pure (value : α) : Advances place 0 (Pure.pure value) :=
  .of_eq fun _ => rfl

theorem bind (hx : Advances place bytes x) (hf : ∀ value, Advances place more (f value)) :
    Advances place (bytes + more) (x >>= f) := by
  intro s
  rw [bind_snd, hf, hx, UInt16.add_assoc, ← UInt16.ofNat_add]

theorem after (hx : Advances place 0 x) (hf : ∀ value, Advances place bytes (f value)) :
    Advances place bytes (x >>= f) :=
  Nat.zero_add bytes ▸ hx.bind hf

theorem before (hx : Advances place bytes x) (hf : ∀ value, Advances place 0 (f value)) :
    Advances place bytes (x >>= f) :=
  hx.bind hf

theorem ite {c : Prop} [Decidable c] (hx : Advances place bytes x) (hy : Advances place bytes y) :
    Advances place bytes (if c then x else y) := by
  split
  · exact hx
  · exact hy

end Advances

/-- What one computation finds tells how another one ends that is started in the same state. -/
def Foretells (P : σ → Prop) (Q : α → σ → Prop) (find : StateM σ α) (x : StateM σ γ) : Prop :=
  ∀ s, P s → Q (find s).1 (x s).2

theorem Foretells.bind {P S : σ → Prop} {Q : α → σ → Prop} {y : StateM σ δ} {f : δ → StateM σ α}
    {g : δ → StateM σ γ} (hy : Leads P S y) (hfg : ∀ value, Foretells S Q (f value) (g value)) :
    Foretells P Q (y >>= f) (y >>= g) :=
  fun s hs => hfg (y s).1 (y s).2 (hy s hs)

theorem Foretells.andThen {P : σ → Prop} {Q : α → σ → Prop} {find : StateM σ α} {x : StateM σ γ}
    {f : γ → StateM σ δ} (hx : Foretells P Q find x)
    (hf : ∀ value result, Keeps (Q value) (f result)) : Foretells P Q find (x >>= f) :=
  fun s hs => hf (find s).1 (x s).1 (x s).2 (hx s hs)

theorem Foretells.pure {P : σ → Prop} {Q : α → σ → Prop} {value : α} {x : StateM σ γ}
    (h : Leads P (Q value) x) : Foretells P Q (Pure.pure value) x :=
  h

namespace Keeps

variable {I : σ → Prop}

theorem pure (value : α) : Keeps I (Pure.pure value) :=
  fun _ hs => hs

theorem bind {x : StateM σ α} {f : α → StateM σ γ} (hx : Keeps I x)
    (hf : ∀ value, Keeps I (f value)) : Keeps I (x >>= f) :=
  Leads.bind hx hf

theorem seq {x : StateM σ α} {f : StateM σ γ} (hx : Keeps I x) (hf : Keeps I f) :
    Keeps I (x >>= fun _ => f) :=
  hx.bind fun _ => hf

theorem inspect {f : σ → StateM σ α} (hf : ∀ s, I s → I (f s s).2) : Keeps I (get >>= f) :=
  hf

end Keeps

namespace Corresponds

variable {R : σ → τ → Prop}

theorem pure (value : α) : Corresponds R (Pure.pure value) (Pure.pure value) :=
  fun _ _ hst => ⟨rfl, hst⟩

theorem bind {x : StateM σ α} {y : StateM τ α} {f : α → StateM σ γ} {g : α → StateM τ γ}
    (hxy : Corresponds R x y) (hfg : ∀ value, Corresponds R (f value) (g value)) :
    Corresponds R (x >>= f) (y >>= g) := by
  intro s t hst
  obtain ⟨hvalue, hnext⟩ := hxy s t hst
  have hrest := hfg (x s).1 (x s).2 (y t).2 hnext
  change (f (x s).1 (x s).2).1 = (g (y t).1 (y t).2).1 ∧
    R (f (x s).1 (x s).2).2 (g (y t).1 (y t).2).2
  rw [← hvalue]
  exact hrest

theorem seq {x : StateM σ α} {y : StateM τ α} {f : StateM σ γ} {g : StateM τ γ}
    (hxy : Corresponds R x y) (hfg : Corresponds R f g) :
    Corresponds R (x >>= fun _ => f) (y >>= fun _ => g) :=
  hxy.bind fun _ => hfg

theorem iteOf {c : Prop} [Decidable c] {x x' : StateM σ α} {y y' : StateM τ α}
    (h : c → Corresponds R x y) (h' : ¬c → Corresponds R x' y') :
    Corresponds R (if c then x else x') (if c then y else y') := by
  split
  · next hc => exact h hc
  · next hc => exact h' hc

theorem ite {c : Prop} [Decidable c] {x x' : StateM σ α} {y y' : StateM τ α}
    (h : Corresponds R x y) (h' : Corresponds R x' y') :
    Corresponds R (if c then x else x') (if c then y else y') :=
  iteOf (fun _ => h) fun _ => h'

end Corresponds

/-- Two results that have the same answer and corresponding states, if they exist. -/
def SameOutcome (R : σ → τ → Prop) : Option (α × σ) → Option (α × τ) → Prop :=
  Option.Rel fun result result' => result.1 = result'.1 ∧ R result.2 result'.2

namespace SameOutcome

variable {R : σ → τ → Prop}

theorem of_forall_some {x : Option (α × σ)} {y : Option (α × τ)}
    (hxy : ∀ answer s, x = some (answer, s) → ∃ t, y = some (answer, t) ∧ R s t)
    (hyx : ∀ answer t, y = some (answer, t) → ∃ s, x = some (answer, s)) :
    SameOutcome R x y := by
  rcases x with _ | ⟨answer, s⟩
  · rcases y with _ | ⟨answer, t⟩
    · exact .none
    · obtain ⟨_, hnone⟩ := hyx answer t rfl
      exact absurd hnone nofun
  · obtain ⟨t, rfl, hst⟩ := hxy answer s rfl
    exact .some ⟨rfl, hst⟩

theorem bind {x : Option (α × σ)} {y : Option (α × τ)} (hxy : SameOutcome R x y)
    {f : α × σ → Option (γ × σ)} {g : α × τ → Option (γ × τ)}
    (hfg : ∀ answer s t, R s t → SameOutcome R (f (answer, s)) (g (answer, t))) :
    SameOutcome R (x >>= f) (y >>= g) := by
  cases hxy with
  | none => exact .none
  | @some result result' hresult =>
      obtain ⟨answer, s⟩ := result
      obtain ⟨answer', t⟩ := result'
      obtain ⟨rfl, hst⟩ := hresult
      exact hfg answer s t hst

theorem mono {Q : σ → τ → Prop} {x : Option (α × σ)} {y : Option (α × τ)} (hxy : SameOutcome R x y)
    (hRQ : ∀ s t, R s t → Q s t) : SameOutcome Q x y := by
  cases hxy with
  | none => exact .none
  | some hresult => exact .some ⟨hresult.1, hRQ _ _ hresult.2⟩

theorem map_eq {x : Option (α × σ)} {y : Option (α × τ)} (hxy : SameOutcome R x y)
    {f : α × σ → γ} {g : α × τ → γ} (hfg : ∀ answer s t, R s t → f (answer, s) = g (answer, t)) :
    x.map f = y.map g := by
  cases hxy with
  | none => rfl
  | @some result result' hresult =>
      obtain ⟨answer, s⟩ := result
      obtain ⟨answer', t⟩ := result'
      obtain ⟨rfl, hst⟩ := hresult
      exact congrArg some (hfg answer s t hst)

/-- Corresponding moves, one after the other, on corresponding states. -/
theorem sessions {ω ω' : Type} {act : ω → σ → Option (α × σ)} {act' : ω' → τ → Option (α × τ)}
    {M : ω → ω' → Prop} (hact : ∀ move move', M move move' → ∀ s t, R s t →
      SameOutcome R (act move s) (act' move' t)) {moves : List ω} {moves' : List ω'}
    (hmoves : List.Forall₂ M moves moves') {s : σ} {t : τ} (hst : R s t) :
    SameOutcome R (TmsCores.session act moves s) (TmsCores.session act' moves' t) := by
  induction hmoves generalizing s t with
  | nil => exact .some ⟨rfl, hst⟩
  | cons hmove _ ih =>
      refine (hact _ _ hmove s t hst).bind fun answer s t hst => ?_
      exact (ih hst).bind fun answers s t hst => .some ⟨rfl, hst⟩

theorem session {ω : Type} {act : ω → σ → Option (α × σ)} {act' : ω → τ → Option (α × τ)}
    {moves : List ω} (hact : ∀ move ∈ moves, ∀ s t, R s t →
      SameOutcome R (act move s) (act' move t)) {s : σ} {t : τ} (hst : R s t) :
    SameOutcome R (TmsCores.session act moves s) (TmsCores.session act' moves t) := by
  have hsame : List.Forall₂ (fun move move' => move = move' ∧ move ∈ moves) moves moves :=
    List.forall₂_same.mpr fun _ hmove => ⟨rfl, hmove⟩
  refine sessions ?_ hsame hst
  rintro move _ ⟨rfl, hmove⟩
  exact hact move hmove

end SameOutcome

end TmsCores
