import TmsCores.Proofs.MessagePack.RoundTrip

namespace TmsCores.MessagePack

/-- A reader that takes the same from an input with more bytes at the end, and leaves these over. -/
def LeavesRest {α : Type} (read : List UInt8 → Option (α × List UInt8)) : Prop :=
  ∀ ⦃bytes value rest⦄, read bytes = some (value, rest) →
    ∀ more, read (bytes ++ more) = some (value, rest ++ more)

theorem takeBytes?_leavesRest (count : Nat) : LeavesRest (takeBytes? count) := by
  intro bytes value rest h more
  unfold takeBytes? at h
  split at h
  · next hcount =>
      obtain ⟨rfl, rfl⟩ := Prod.mk.inj (Option.some.inj h)
      rw [takeBytes?, if_pos (by rw [List.length_append]; omega),
        List.take_append_of_le_length hcount, List.drop_append_of_le_length hcount]
  · exact absurd h (by simp)

namespace LeavesRest

variable {α γ : Type}

theorem finished (value : α) : LeavesRest fun bytes => some (value, bytes) := by
  intro bytes value rest h more
  obtain ⟨rfl, rfl⟩ := Prod.mk.inj (Option.some.inj h)
  rfl

theorem map {read : List UInt8 → Option (α × List UInt8)} (hread : LeavesRest read)
    (make : α → γ) :
    LeavesRest fun bytes => (read bytes).map fun (value, rest) => (make value, rest) := by
  intro bytes value rest h more
  obtain ⟨⟨item, left⟩, hitem, heq⟩ := Option.map_eq_some_iff.mp h
  obtain ⟨rfl, rfl⟩ := Prod.mk.inj heq
  simp [hread hitem more]

theorem ite {first second : List UInt8 → Option (α × List UInt8)} {c : Prop} [Decidable c]
    (hfirst : LeavesRest first) (hsecond : LeavesRest second) :
    LeavesRest fun bytes => if c then first bytes else second bytes := by
  by_cases h : c
  · simpa only [h, if_true] using hfirst
  · simpa only [h, if_false] using hsecond

end LeavesRest

theorem readNumber?_leavesRest {α : Type} (width : Nat) (make : Nat → α) :
    LeavesRest (readNumber? width make) :=
  (takeBytes?_leavesRest width).map fun number => make (BigEndian.value number)

theorem readSigned?_leavesRest (width : Nat) : LeavesRest (readSigned? width) :=
  (takeBytes?_leavesRest width).map fun number =>
    Head.complete (.signed (BigEndian.signedValue number))

namespace Head

theorem ofMarker?_leavesRest (marker : Nat) : LeavesRest (ofMarker? marker) := by
  intro bytes head rest h more
  unfold ofMarker? at h ⊢
  split at h
  all_goals
    first
    | exact readNumber?_leavesRest _ _ h more
    | exact readSigned?_leavesRest _ h more
    | exact LeavesRest.finished _ h more
    | exact absurd h (by simp)

theorem read?_leavesRest : LeavesRest read? := by
  intro bytes head rest h more
  cases bytes with
  | nil => exact absurd h (by simp [read?])
  | cons first bytes =>
      have hfirst : LeavesRest fun bytes => read? (first :: bytes) :=
        .ite (.finished _) <| .ite (.finished _) <| .ite (.finished _) <| .ite (.finished _) <|
          .ite (ofMarker?_leavesRest _) (.finished _)
      exact hfirst h more

end Head

theorem readMany_leavesRest {α : Type} {item : List UInt8 → Option (α × List UInt8)}
    (hitem : LeavesRest item) (count : Nat) : LeavesRest (readMany item count) := by
  induction count with
  | zero =>
      intro bytes items rest h more
      obtain ⟨rfl, rfl⟩ := Prod.mk.inj (Option.some.inj h)
      rfl
  | succ count ih =>
      intro bytes items rest h more
      simp only [readMany, bind, Option.bind_eq_some_iff, pure, Option.some.injEq,
        Prod.mk.injEq] at h
      obtain ⟨⟨first, middle⟩, hfirst, ⟨others, last⟩, hothers, rfl, rfl⟩ := h
      simp [readMany, hitem hfirst more, ih hothers more]

theorem readEntry_leavesRest {α : Type} {item : List UInt8 → Option (α × List UInt8)}
    (hitem : LeavesRest item) : LeavesRest (readEntry item) := by
  intro bytes entry rest h more
  simp only [readEntry, bind, Option.bind_eq_some_iff, pure, Option.some.injEq,
    Prod.mk.injEq] at h
  obtain ⟨⟨key, middle⟩, hkey, ⟨value, last⟩, hvalue, rfl, rfl⟩ := h
  simp [readEntry, hitem hkey more, hitem hvalue more]

namespace Value

theorem readBody_leavesRest {part? : Option (List UInt8 → Option (Value × List UInt8))}
    (hpart : ∀ part, part? = some part → LeavesRest part) (head : Head) :
    LeavesRest (readBody part? head) := by
  intro bytes value rest h more
  cases head with
  | complete value =>
      obtain ⟨rfl, rfl⟩ := Prod.mk.inj (Option.some.inj h)
      rfl
  | text size =>
      obtain ⟨⟨content, left⟩, hcontent, heq⟩ := Option.bind_eq_some_iff.mp h
      obtain ⟨rfl, rfl⟩ := Prod.mk.inj (Option.some.inj heq)
      simp [readBody, takeBytes?_leavesRest size hcontent more]
  | binary size =>
      obtain ⟨⟨content, left⟩, hcontent, heq⟩ := Option.bind_eq_some_iff.mp h
      obtain ⟨rfl, rfl⟩ := Prod.mk.inj (Option.some.inj heq)
      simp [readBody, takeBytes?_leavesRest size hcontent more]
  | extension size =>
      obtain ⟨⟨kind, middle⟩, hkind, hrest⟩ := Option.bind_eq_some_iff.mp h
      obtain ⟨⟨content, left⟩, hcontent, heq⟩ := Option.bind_eq_some_iff.mp hrest
      obtain ⟨rfl, rfl⟩ := Prod.mk.inj (Option.some.inj heq)
      simp [readBody, readNumber?_leavesRest 1 _ hkind more,
        takeBytes?_leavesRest size hcontent more]
  | array size =>
      obtain ⟨part, hsome, hrest⟩ := Option.bind_eq_some_iff.mp h
      obtain ⟨⟨items, left⟩, hitems, heq⟩ := Option.bind_eq_some_iff.mp hrest
      obtain ⟨rfl, rfl⟩ := Prod.mk.inj (Option.some.inj heq)
      simp [readBody, hsome, readMany_leavesRest (hpart part hsome) size hitems more]
  | map size =>
      obtain ⟨part, hsome, hrest⟩ := Option.bind_eq_some_iff.mp h
      obtain ⟨⟨entries, left⟩, hentries, heq⟩ := Option.bind_eq_some_iff.mp hrest
      obtain ⟨rfl, rfl⟩ := Prod.mk.inj (Option.some.inj heq)
      simp [readBody, hsome,
        readMany_leavesRest (readEntry_leavesRest (hpart part hsome)) size hentries more]

theorem readNested_leavesRest (depth : Nat) : LeavesRest (readNested depth) := by
  induction depth with
  | zero =>
      intro bytes value rest h more
      obtain ⟨⟨head, left⟩, hhead, hbody⟩ := Option.bind_eq_some_iff.mp h
      have hnone : ∀ part : List UInt8 → Option (Value × List UInt8),
          none = some part → LeavesRest part := by
        rintro part ⟨⟩
      have hbody := readBody_leavesRest hnone head hbody more
      simp [readNested, Head.read?_leavesRest hhead more, hbody]
  | succ depth ih =>
      intro bytes value rest h more
      obtain ⟨⟨head, left⟩, hhead, hbody⟩ := Option.bind_eq_some_iff.mp h
      have hpart : ∀ part, some (readNested depth) = some part → LeavesRest part := by
        rintro part ⟨⟩
        exact ih
      have hbody := readBody_leavesRest hpart head hbody more
      simp [readNested, Head.read?_leavesRest hhead more, hbody]

theorem read?_eq_none_of_prefix {value : Value} (h : value.Fits (maxDepth + 1))
    {bytes more : List UInt8} (hbytes : bytes ++ more = value.write) (hmore : more ≠ []) :
    read? bytes = none := by
  cases hread : readNested (maxDepth + 1) bytes with
  | none => rw [read?, hread, Option.map_none]
  | some result =>
      obtain ⟨other, rest⟩ := result
      have hlong := readNested_leavesRest _ hread more
      have hwhole := readNested_write h []
      rw [List.append_nil, ← hbytes, hlong, Option.some.injEq, Prod.mk.injEq] at hwhole
      exact absurd (List.append_eq_nil_iff.mp hwhole.2).2 hmore

end Value

end TmsCores.MessagePack
