import TmsCores.Proofs.Interrupt.History

namespace TmsCores

/-- The order of service among different requests. -/
def PendingLine.Before (first second : PendingLine) : Prop :=
  first.level < second.level ∨ first.level = second.level ∧ first.line < second.line

namespace PendingLine

variable {a b : PendingLine}

theorem Before.precedes (h : a.Before b) : a.Precedes b :=
  h.imp_right fun ⟨hlevel, hline⟩ => ⟨hlevel, UInt8.le_of_lt hline⟩

theorem Before.not_precedes (h : a.Before b) : ¬b.Precedes a := by
  simp only [Before, Precedes, UInt8.lt_iff_toNat_lt, UInt8.le_iff_toNat_le,
    ← UInt8.toNat_inj] at *
  omega

theorem Precedes.before_or_eq (h : a.Precedes b) : a.Before b ∨ a = b := by
  rcases h with hlevel | ⟨hlevel, hline⟩
  · exact .inl (.inl hlevel)
  · rcases UInt8.lt_or_eq_of_le hline with hless | heq
    · exact .inl (.inr ⟨hlevel, hless⟩)
    · exact .inr (by cases a; cases b; simp_all)

theorem Precedes.before (h : a.Precedes b) (hne : a ≠ b) : a.Before b :=
  h.before_or_eq.resolve_right hne

theorem Before.irrefl (a : PendingLine) : ¬a.Before a :=
  fun h => h.not_precedes h.precedes

theorem Before.trans_precedes {c : PendingLine} (hab : a.Before b) (hbc : b.Precedes c) :
    a.Before c := by
  refine (hab.precedes.trans hbc).before ?_
  rintro rfl
  exact hab.not_precedes hbc

end PendingLine

namespace InterruptController

/-- Rounds of service, in each of which the line that is pending is acknowledged.  There are `count`
of them, unless nothing is pending before.  Returns what was serviced. -/
def rounds (mask : UInt8) : Nat → InterruptController → List PendingLine × InterruptController
  | 0, controller => ([], controller)
  | count + 1, controller =>
      match controller.pending mask with
      | none => ([], controller)
      | some pending =>
          let (rest, last) := rounds mask count (controller.acknowledge pending.line)
          (pending :: rest, last)

variable {controller last : InterruptController} {mask line : UInt8} {pending other : PendingLine}

theorem rounds_succ (h : controller.pending mask = some pending) (count : Nat) :
    controller.rounds mask (count + 1) =
      (pending :: ((controller.acknowledge pending.line).rounds mask count).1,
        ((controller.acknowledge pending.line).rounds mask count).2) := by
  rw [rounds, h]

theorem rounds_add {served : List PendingLine}
    (h : controller.rounds mask served.length = (served, last)) (count : Nat) :
    controller.rounds mask (served.length + count) =
      (served ++ (last.rounds mask count).1, (last.rounds mask count).2) := by
  induction served generalizing controller with
  | nil =>
      obtain ⟨-, rfl⟩ := Prod.mk.inj h
      rw [List.length_nil, Nat.zero_add, List.nil_append]
  | cons first rest ih =>
      rw [List.length_cons, rounds] at h
      cases hpending : controller.pending mask with
      | none =>
          rw [hpending] at h
          exact absurd (congrArg Prod.fst h) nofun
      | some pending =>
          rw [hpending] at h
          obtain ⟨hserved, hlast⟩ := Prod.mk.inj h
          obtain ⟨rfl, hrest⟩ := List.cons.inj hserved
          have hnext := ih (Prod.ext hrest hlast)
          rw [List.length_cons, Nat.succ_add, rounds_succ hpending, hnext, List.cons_append]

theorem Requests.eq_of_line (h : controller.Requests mask pending)
    (hother : controller.Requests mask other) (hline : pending.line = other.line) :
    pending = other := by
  obtain ⟨config, hconfig, hlevel, -⟩ := h
  obtain ⟨config', hconfig', hlevel', -⟩ := hother
  rw [hline, hconfig', Option.some.injEq] at hconfig
  cases pending
  cases other
  simp_all

theorem size_acknowledge (controller : InterruptController) (line : UInt8) :
    (controller.acknowledge line).size = controller.size :=
  controller.size_modifyLine line _

theorem line?_acknowledge_of_ne (hne : line ≠ pending.line) :
    (controller.acknowledge line).line? pending.line = controller.line? pending.line := by
  rw [acknowledge, line?_modifyLine, if_neg hne]

theorem requests_acknowledge_of_ne (hne : line ≠ pending.line) :
    (controller.acknowledge line).Requests mask pending ↔ controller.Requests mask pending := by
  simp only [Requests, configs_acknowledge, isEnabled_acknowledge, isLatched, state,
    line?_acknowledge_of_ne hne]
  exact Iff.rfl

theorem isLatched_acknowledge (controller : InterruptController) (line : UInt8) :
    (controller.acknowledge line).isLatched line = false := by
  rw [acknowledge, isLatched_modifyLine, if_pos rfl]
  cases controller.line? line <;> rfl

theorem not_requests_acknowledge (hstate : controller.state pending.line ≠ .asserted) :
    ¬(controller.acknowledge pending.line).Requests mask pending := by
  rintro ⟨config, -, -, -, hactive, -⟩
  rw [isLatched_acknowledge, state_acknowledge] at hactive
  cases hpolicy : config.policy with
  | edgeLatched => cases hline : controller.state pending.line <;> simp_all
  | combinatorial => cases hline : controller.state pending.line <;> simp_all

theorem requests_acknowledge_iff (hrequests : controller.Requests mask pending)
    (hstate : controller.state pending.line ≠ .asserted) (other : PendingLine) :
    (controller.acknowledge pending.line).Requests mask other ↔
      controller.Requests mask other ∧ other ≠ pending := by
  by_cases hline : pending.line = other.line
  · have hended : ¬(controller.acknowledge pending.line).Requests mask other := by
      rw [hline] at hstate ⊢
      exact not_requests_acknowledge hstate
    refine ⟨fun hother => absurd hother hended, ?_⟩
    rintro ⟨hother, hne⟩
    exact absurd (hother.eq_of_line hrequests hline.symm) hne
  · rw [requests_acknowledge_of_ne hline, iff_self_and]
    rintro - rfl
    exact hline rfl

theorem pending_eq_some_iff_requests (hsize : controller.size ≤ 256) :
    controller.pending mask = some pending ↔
      controller.Requests mask pending ∧
        ∀ other, controller.Requests mask other → pending.Precedes other := by
  simp only [pending_eq_some_iff hsize, mem_eligible_iff_requests hsize]

theorem pending_eq_none_iff_requests (hsize : controller.size ≤ 256) :
    controller.pending mask = none ↔ ∀ pending, ¬controller.Requests mask pending := by
  simp only [pending_eq_none_iff, mem_eligible_iff_requests hsize]

/-- One round of service leaves one eligible line less. -/
theorem length_eligible_acknowledge (hsize : controller.size ≤ 256)
    (hrequests : controller.Requests mask pending)
    (hstate : controller.state pending.line ≠ .asserted) :
    ((controller.acknowledge pending.line).eligible mask).length + 1 =
      (controller.eligible mask).length := by
  have hsize' : (controller.acknowledge pending.line).size ≤ 256 := by
    rw [size_acknowledge]
    exact hsize
  have hmem : pending ∈ controller.eligible mask := (mem_eligible_iff_requests hsize).mpr hrequests
  have hperm : ((controller.acknowledge pending.line).eligible mask).Perm
      ((controller.eligible mask).erase pending) := by
    refine (List.perm_ext_iff_of_nodup (nodup_eligible hsize')
      ((nodup_eligible hsize).erase pending)).mpr fun other => ?_
    rw [(nodup_eligible hsize).mem_erase_iff, mem_eligible_iff_requests hsize',
      mem_eligible_iff_requests hsize, requests_acknowledge_iff hrequests hstate, and_comm]
  rw [hperm.length_eq, List.length_erase_of_mem hmem,
    Nat.sub_add_cancel (List.length_pos_of_mem hmem)]

/-- Rounds service those of the requests that are `taken`, each once and in their order, and leave
all other lines alone. -/
structure Drains (mask : UInt8) (taken : PendingLine → Prop) (controller : InterruptController)
    (served : List PendingLine) (last : InterruptController) : Prop where
  rounds_eq : controller.rounds mask served.length = (served, last)
  pairwise : served.Pairwise PendingLine.Before
  mem_iff : ∀ pending, pending ∈ served ↔ controller.Requests mask pending ∧ taken pending
  requests_iff : ∀ pending,
    last.Requests mask pending ↔ controller.Requests mask pending ∧ ¬taken pending
  line?_eq : ∀ line, (∀ pending ∈ served, pending.line ≠ line) →
    last.line? line = controller.line? line
  size_eq : last.size = controller.size

theorem Drains.nil {taken : PendingLine → Prop}
    (h : ∀ pending, controller.Requests mask pending → ¬taken pending) :
    Drains mask taken controller [] controller where
  rounds_eq := rfl
  pairwise := .nil
  mem_iff := fun pending => by simpa using h pending
  requests_iff := fun pending => by simpa using h pending
  line?_eq := fun _ _ => rfl
  size_eq := rfl

theorem Drains.cons {taken : PendingLine → Prop} {served : List PendingLine}
    (hsize : controller.size ≤ 256) (hpending : controller.pending mask = some pending)
    (htaken : taken pending) (hstate : controller.state pending.line ≠ .asserted)
    (h : Drains mask taken (controller.acknowledge pending.line) served last) :
    Drains mask taken controller (pending :: served) last := by
  obtain ⟨hrequests, hfirst⟩ := (pending_eq_some_iff_requests hsize).mp hpending
  have hleft := requests_acknowledge_iff hrequests hstate
  constructor
  · rw [List.length_cons, rounds_succ hpending, h.rounds_eq]
  · refine .cons (fun other hother => ?_) h.pairwise
    obtain ⟨hother, hne⟩ := (hleft other).mp ((h.mem_iff other).mp hother).1
    exact (hfirst other hother).before hne.symm
  · intro other
    rw [List.mem_cons, h.mem_iff, hleft]
    by_cases hother : other = pending
    · simp [hother, hrequests, htaken]
    · simp [hother]
  · intro other
    rw [h.requests_iff, hleft]
    by_cases hother : other = pending
    · simp [hother, htaken]
    · simp [hother]
  · intro line hline
    rw [List.forall_mem_cons] at hline
    rw [h.line?_eq line hline.2, acknowledge, line?_modifyLine, if_neg hline.1]
  · rw [h.size_eq, size_acknowledge]

/-- Requests that end with their acknowledge are drained, if they come before all others. -/
theorem exists_drains (hsize : controller.size ≤ 256) {taken : PendingLine → Prop}
    (hstate : ∀ pending, controller.Requests mask pending → taken pending →
      controller.state pending.line ≠ .asserted)
    (hfront : ∀ pending other, controller.Requests mask other → pending.Precedes other →
      taken other → taken pending) :
    ∃ served last, Drains mask taken controller served last := by
  -- Each round shortens the list of eligible lines.
  induction hlength : (controller.eligible mask).length generalizing controller with
  | zero =>
      refine ⟨[], controller, .nil fun pending hpending => ?_⟩
      rw [← mem_eligible_iff_requests hsize, List.length_eq_zero_iff.mp hlength] at hpending
      exact absurd hpending List.not_mem_nil
  | succ count ih =>
      cases hpending : controller.pending mask with
      | none =>
          have hnone := (pending_eq_none_iff_requests hsize).mp hpending
          exact ⟨[], controller, .nil fun pending h => absurd h (hnone pending)⟩
      | some pending =>
          obtain ⟨hrequests, hfirst⟩ := (pending_eq_some_iff_requests hsize).mp hpending
          by_cases htaken : taken pending
          · have hfree := hstate pending hrequests htaken
            have hleft := requests_acknowledge_iff hrequests hfree
            have hstate' : ∀ other,
                (controller.acknowledge pending.line).Requests mask other → taken other →
                (controller.acknowledge pending.line).state other.line ≠ .asserted := by
              intro other hother hothertaken
              rw [state_acknowledge]
              split
              · exact nofun
              · exact hstate other ((hleft other).mp hother).1 hothertaken
            have hlength' :
                ((controller.acknowledge pending.line).eligible mask).length = count := by
              have hshorter := length_eligible_acknowledge hsize hrequests hfree
              omega
            obtain ⟨served, last, hserved⟩ := ih (by rwa [size_acknowledge]) hstate'
              (fun first second hsecond => hfront first second ((hleft second).mp hsecond).1)
              hlength'
            exact ⟨pending :: served, last, .cons hsize hpending htaken hfree hserved⟩
          · refine ⟨[], controller, .nil fun other hother hothertaken => htaken ?_⟩
            exact hfront pending other hother (hfirst other hother) hothertaken

theorem requests_acknowledge_of_asserted
    (hstate : controller.state pending.line = .asserted) :
    (controller.acknowledge pending.line).Requests mask other ↔ controller.Requests mask other := by
  by_cases hline : pending.line = other.line
  · rw [hline] at hstate ⊢
    have hkept : (controller.acknowledge other.line).state other.line = .asserted := by
      simp [state_acknowledge, hstate]
    have hcompare : (controller.acknowledge other.line).compare = controller.compare := rfl
    simp only [Requests, configs_acknowledge, isEnabled_acknowledge, hkept, hstate, hcompare]
    refine exists_congr fun config => ?_
    cases config.policy with
    | edgeLatched => simp
    | combinatorial => simp
  · exact requests_acknowledge_of_ne hline

/-- Once a line that is held at its level has its turn, it has every turn. -/
theorem rounds_of_asserted (hsize : controller.size ≤ 256)
    (hpending : controller.pending mask = some pending)
    (hstate : controller.state pending.line = .asserted) (count : Nat) :
    ∃ last, controller.rounds mask count = (List.replicate count pending, last) ∧
      last.pending mask = some pending ∧
      ∀ line, pending.line ≠ line → last.line? line = controller.line? line := by
  induction count generalizing controller with
  | zero => exact ⟨controller, rfl, hpending, fun _ _ => rfl⟩
  | succ count ih =>
      have hsize' : (controller.acknowledge pending.line).size ≤ 256 := by
        rwa [size_acknowledge]
      have hpending' : (controller.acknowledge pending.line).pending mask = some pending := by
        rw [pending_eq_some_iff_requests hsize']
        simp only [requests_acknowledge_of_asserted hstate]
        exact (pending_eq_some_iff_requests hsize).mp hpending
      have hstate' : (controller.acknowledge pending.line).state pending.line = .asserted := by
        simp [state_acknowledge, hstate]
      obtain ⟨last, hrounds, hlast, hothers⟩ := ih hsize' hpending' hstate'
      refine ⟨last, ?_, hlast, fun line hline => ?_⟩
      · rw [rounds_succ hpending, hrounds, List.replicate_succ]
      · rw [hothers line hline, acknowledge, line?_modifyLine, if_neg hline]

/-- The request comes before those of all lines that are held at their level. -/
def BeforeHeld (controller : InterruptController) (mask : UInt8) (pending : PendingLine) : Prop :=
  ∀ held, controller.Requests mask held → controller.state held.line = .asserted →
    pending.Before held

theorem not_beforeHeld (hrequests : controller.Requests mask pending)
    (hstate : controller.state pending.line = .asserted) : ¬controller.BeforeHeld mask pending :=
  fun h => PendingLine.Before.irrefl pending (h pending hrequests hstate)

theorem exists_drains_beforeHeld (hsize : controller.size ≤ 256) (mask : UInt8) :
    ∃ served last, Drains mask (controller.BeforeHeld mask) controller served last := by
  refine exists_drains hsize (fun pending hrequests hbefore hstate => ?_)
    fun pending other hother hprecedes hbefore held hheld hstate => ?_
  · exact not_beforeHeld hrequests hstate hbefore
  · have hnext := hbefore held hheld hstate
    refine (hprecedes.trans hnext.precedes).before ?_
    rintro rfl
    exact hnext.not_precedes hprecedes

namespace Drains

variable {served : List PendingLine}

theorem nodup {taken : PendingLine → Prop} (h : Drains mask taken controller served last) :
    served.Nodup := by
  refine h.pairwise.imp ?_
  rintro pending _ hbefore rfl
  exact PendingLine.Before.irrefl pending hbefore

theorem mem_iff_of_free (h : Drains mask (controller.BeforeHeld mask) controller served last)
    (hfree : ∀ pending, controller.Requests mask pending →
      controller.state pending.line ≠ .asserted) :
    (∀ pending, pending ∈ served ↔ controller.Requests mask pending) ∧
      ∀ pending, ¬last.Requests mask pending := by
  have htaken : ∀ pending, controller.BeforeHeld mask pending :=
    fun pending held hheld hstate => absurd hstate (hfree held hheld)
  simp [h.mem_iff, h.requests_iff, htaken]

/-- What is left has the first of the lines at its head that are held at their level. -/
theorem exists_least_held (hsize : controller.size ≤ 256)
    (h : Drains mask (controller.BeforeHeld mask) controller served last)
    (hheld : ∃ held, controller.Requests mask held ∧ controller.state held.line = .asserted) :
    ∃ least, last.pending mask = some least ∧ controller.Requests mask least ∧
      controller.state least.line = .asserted ∧
      ∀ held, controller.Requests mask held → controller.state held.line = .asserted →
        least.Precedes held := by
  have hsize' : last.size ≤ 256 := by rwa [h.size_eq]
  have hleft : ∀ held, controller.Requests mask held →
      controller.state held.line = .asserted → last.Requests mask held :=
    fun held hrequests hstate =>
      (h.requests_iff held).mpr ⟨hrequests, not_beforeHeld hrequests hstate⟩
  obtain ⟨held, hrequests, hstate⟩ := hheld
  cases hpending : last.pending mask with
  | none =>
      have hnone := (pending_eq_none_iff_requests hsize').mp hpending held
      exact absurd (hleft held hrequests hstate) hnone
  | some least =>
      obtain ⟨hleast, hfirst⟩ := (pending_eq_some_iff_requests hsize').mp hpending
      obtain ⟨hleastrequests, hnot⟩ := (h.requests_iff least).mp hleast
      refine ⟨least, rfl, hleastrequests, ?_, fun other hother hotherstate =>
        hfirst other (hleft other hother hotherstate)⟩
      -- Not being drained, it is not before all held lines, and precedes them: it is one of them.
      by_contra hfree
      refine hnot fun other hother hotherstate => ?_
      refine (hfirst other (hleft other hother hotherstate)).before ?_
      rintro rfl
      exact hfree hotherstate

theorem mem_iff_before {least : PendingLine}
    (h : Drains mask (controller.BeforeHeld mask) controller served last)
    (hrequests : controller.Requests mask least)
    (hstate : controller.state least.line = .asserted)
    (hleast : ∀ held, controller.Requests mask held → controller.state held.line = .asserted →
      least.Precedes held) (pending : PendingLine) :
    pending ∈ served ↔ controller.Requests mask pending ∧ pending.Before least := by
  rw [h.mem_iff]
  refine and_congr_right fun _ => ⟨fun hbefore => hbefore least hrequests hstate, ?_⟩
  intro hbefore held hheld hheldstate
  exact hbefore.trans_precedes (hleast held hheld hheldstate)

end Drains

/-- Rounds of service take each request once, the first to be serviced first, and touch no other
line.  A line that is held at its level is not done with its round: the first of these takes all
rounds that are left once its turn has come. -/
theorem requests_drained_in_order (controller : InterruptController) (mask : UInt8)
    (hsize : controller.size ≤ 256) :
    ((∀ pending, controller.Requests mask pending →
        controller.state pending.line ≠ .asserted) →
      ∃ served last,
        controller.rounds mask (controller.eligible mask).length = (served, last) ∧
        served.length = (controller.eligible mask).length ∧ last.pending mask = none ∧
        served.Pairwise PendingLine.Before ∧
        (∀ pending, pending ∈ served ↔ controller.Requests mask pending) ∧
        ∀ line, (∀ pending ∈ served, pending.line ≠ line) →
          last.line? line = controller.line? line) ∧
      ((∃ held, controller.Requests mask held ∧ controller.state held.line = .asserted) →
        ∃ least drained, controller.Requests mask least ∧
          controller.state least.line = .asserted ∧
          (∀ held, controller.Requests mask held → controller.state held.line = .asserted →
            least.Precedes held) ∧
          drained.Pairwise PendingLine.Before ∧
          (∀ pending, pending ∈ drained ↔
            controller.Requests mask pending ∧ pending.Before least) ∧
          ∀ count, ∃ last,
            controller.rounds mask (drained.length + count) =
              (drained ++ List.replicate count least, last) ∧
            last.pending mask = some least ∧
            ∀ line, (∀ pending ∈ drained, pending.line ≠ line) → least.line ≠ line →
              last.line? line = controller.line? line) := by
  obtain ⟨served, last, hserved⟩ := exists_drains_beforeHeld hsize mask
  have hsize' : last.size ≤ 256 := by rwa [hserved.size_eq]
  constructor
  · intro hfree
    obtain ⟨hmem, hnone⟩ := hserved.mem_iff_of_free hfree
    have hperm : served.Perm (controller.eligible mask) := by
      refine (List.perm_ext_iff_of_nodup hserved.nodup (nodup_eligible hsize)).mpr fun pending => ?_
      rw [hmem, mem_eligible_iff_requests hsize]
    have hlength := hperm.length_eq
    exact ⟨served, last, hlength ▸ hserved.rounds_eq, hlength,
      (pending_eq_none_iff_requests hsize').mpr hnone, hserved.pairwise, hmem, hserved.line?_eq⟩
  · intro hheld
    obtain ⟨least, hpending, hrequests, hstate, hleast⟩ := hserved.exists_least_held hsize hheld
    have hmem := hserved.mem_iff_before hrequests hstate hleast
    have hothers : ∀ pending ∈ served, pending.line ≠ least.line := by
      intro pending hmember hline
      obtain ⟨hpending, hbefore⟩ := (hmem pending).mp hmember
      obtain rfl := hpending.eq_of_line hrequests hline
      exact PendingLine.Before.irrefl pending hbefore
    have hlaststate : last.state least.line = .asserted := by
      rw [InterruptController.state, hserved.line?_eq _ hothers]
      exact hstate
    refine ⟨least, served, hrequests, hstate, hleast, hserved.pairwise, hmem, fun count => ?_⟩
    obtain ⟨final, hrounds, hfinal, hkept⟩ := rounds_of_asserted hsize' hpending hlaststate count
    refine ⟨final, ?_, hfinal, fun line hdrained hline => ?_⟩
    · rw [rounds_add hserved.rounds_eq, hrounds]
    · rw [hkept line hline, hserved.line?_eq line hdrained]

/-- Four lines at two levels under the same mask: a latch after its pulse, an edge request, a level
request and a latch behind it. -/
def contended : InterruptController :=
  (ofLines [⟨1, true, .edgeLatched⟩, ⟨0, false, .combinatorial⟩, ⟨1, true, .combinatorial⟩,
    ⟨1, true, .edgeLatched⟩] .atOrBelow).after
    [.drive 0 .held, .drive 0 .clear, .drive 1 .held, .drive 2 .asserted, .drive 3 .held]

/-- Whether the rounds come to an end depends on whether the mask admits the level request. -/
theorem requests_drained_in_order_of_contended :
    contended.size ≤ 256 ∧
      (∃ last, contended.rounds 0 1 = ([⟨1, 0⟩], last) ∧ last.pending 0 = none) ∧
      ∃ drained, ⟨0, 1⟩ ∈ drained ∧
        ∀ count, ∃ last, contended.rounds 1 (drained.length + count) =
          (drained ++ List.replicate count ⟨2, 1⟩, last) := by
  have hsize : contended.size ≤ 256 := by decide
  refine ⟨hsize, ?_, ?_⟩
  · have heligible : contended.eligible 0 = [⟨1, 0⟩] := by decide
    obtain ⟨served, last, hrounds, hlength, hnone, -, hmem, -⟩ :=
      (requests_drained_in_order contended 0 hsize).1 fun pending hrequests => by
        rw [← mem_eligible_iff_requests hsize, heligible, List.mem_singleton] at hrequests
        subst hrequests
        decide
    rw [heligible] at hrounds hlength
    obtain ⟨first, rfl⟩ := List.length_eq_one_iff.mp hlength
    have hfirst := (hmem first).mp (List.mem_singleton_self first)
    rw [← mem_eligible_iff_requests hsize, heligible, List.mem_singleton] at hfirst
    subst hfirst
    exact ⟨last, hrounds, hnone⟩
  · have hheld : contended.Requests 1 ⟨2, 1⟩ := (mem_eligible_iff_requests hsize).mp (by decide)
    have hlatched : contended.Requests 1 ⟨0, 1⟩ :=
      (mem_eligible_iff_requests hsize).mp (by decide)
    obtain ⟨least, drained, hleast, hstate, -, -, hmem, hrounds⟩ :=
      (requests_drained_in_order contended 1 hsize).2 ⟨⟨2, 1⟩, hheld, by decide⟩
    have honly : ∀ pending ∈ contended.eligible 1,
        contended.state pending.line = .asserted → pending = ⟨2, 1⟩ := by decide
    obtain rfl := honly least ((mem_eligible_iff_requests hsize).mpr hleast) hstate
    refine ⟨drained, (hmem ⟨0, 1⟩).mpr ⟨hlatched, .inr ⟨rfl, by decide⟩⟩, fun count => ?_⟩
    obtain ⟨last, hlast, -⟩ := hrounds count
    exact ⟨last, hlast⟩

end InterruptController

end TmsCores
