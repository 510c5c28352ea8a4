import LoadBridge.Proofs.Ownership.Questions
import LoadBridge.Proofs.Ownership.Rules

/-!
# Ownership — A link lasts as long as its ends

Once an adoption, a first use or a factory has linked an Interface object with a Delegate, nothing
but the destruction of one of the two ends the link or changes who owns whom.  What else is done at
the boundary, to other objects, in vain or again, leaves the pair as it was made
(`Boundary.link_stable`).

One step keeps a link whose ends it does not free (`Roster.Moves.keeps_link`), and since the log of
freed objects only grows, so does every continuation of a run (`Roster.WellFormed.keeps_link`).
-/

namespace LoadBridge

namespace Roster

variable {r r' : Roster} {i : InterfaceHandle} {d : DelegateHandle} {o : Owner}

/-- A link is not that of the next Delegate, so the next Delegate does not take it over. -/
theorem Paired.link_join_of_link (h : r.Paired) (hl : r.link d = some (i, o))
    (j : InterfaceHandle) (o' : Owner) : (r.join j o').link d = some (i, o) := by
  have hne : d ≠ r.newDelegate := by
    rintro rfl
    cases h.link_newDelegate.symm.trans hl
  rw [link_join, if_neg hne, hl]

/-- **One step.**  A link is left as it is unless one of its ends is freed. -/
theorem Moves.keeps_link (hm : r.Moves r') (h : r.WellFormed) (hl : r.link d = some (i, o))
    (hi : .interface i ∉ r'.freed) (hd : .delegate d ∉ r'.freed) : r'.link d = some (i, o) := by
  cases hm with
  | create => exact hl
  | construct => exact h.create.paired.link_join_of_link hl _ _
  | join _ _ o' => exact h.paired.link_join_of_link hl _ _
  | @destroy x gone _ hx =>
      have hdestroys := h.destroys hx
      have hfreed : x ∈ r'.freed :=
        hdestroys.freed_eq ▸ List.mem_append_right _ hdestroys.mem_gone
      refine (hdestroys.link_iff d i o).2 ⟨hl, ?_, ?_⟩
      · rintro rfl
        exact hd hfreed
      · rintro rfl
        exact hi hfreed
  | stay => exact hl

/-- **Every continuation.**  An end that is not freed in the whole of it is freed by no step. -/
theorem WellFormed.keeps_link (h : r.WellFormed) (hl : r.link d = some (i, o))
    (later : List Operation) (hi : .interface i ∉ (later.foldl Roster.step r).freed)
    (hd : .delegate d ∉ (later.foldl Roster.step r).freed) :
    (later.foldl Roster.step r).link d = some (i, o) := by
  induction later generalizing r with
  | nil => exact hl
  | cons op rest ih =>
      have hgrows := freed_grows_foldl rest (r.step op)
      have hstep := (r.moves_step op).keeps_link h hl (fun hx => hi (hgrows.subset hx))
        fun hx => hd (hgrows.subset hx)
      exact ih (h.step op) hstep hi hd

/-- A linked object was not freed. -/
theorem WellFormed.not_freed_of_link (h : r.WellFormed) (hl : r.link d = some (i, o)) :
    .interface i ∉ r.freed ∧ .delegate d ∉ r.freed := by
  obtain ⟨hd, hi⟩ := h.live_of_link hl
  exact ⟨fun hx => (h.mem_freed.1 hx).2 hi, fun hx => (h.mem_freed.1 hx).2 hd⟩

end Roster

namespace Boundary

variable {b b' : Boundary} {i : InterfaceHandle} {d : DelegateHandle} {ownership : Ownership}

/-- The companion of an object is found again, and nothing is changed. -/
theorem materialize_of_companion (h : b.companion i = .ok (some d)) :
    b.materialize i = .ok (d, b) := by
  obtain ⟨slot, hs, hfound⟩ := bind_eq_ok.1 h
  obtain ⟨p, hp, rfl⟩ := Option.map_eq_some_iff.1 (Except.ok.inj hfound)
  simp only [materialize, hs, bind, Except.bind, hp]

/-- An object that has a companion gets no second one. -/
theorem adopt_of_companion (h : b.companion i = .ok (some d)) (a : Adoption) :
    b.adopt i a = .error (.alreadyLinked i) := by
  obtain ⟨slot, hs, hfound⟩ := bind_eq_ok.1 h
  obtain ⟨p, hp, -⟩ := Option.map_eq_some_iff.1 (Except.ok.inj hfound)
  obtain ⟨n, hn, -⟩ := Option.bind_eq_some_iff.1 hp
  simp only [adopt, hs, bind, Except.bind, hn, Option.isSome_some, if_true]

/-- `i` and `d` are linked: each finds the other, their pair is the one with this ownership, and
neither a first use nor an adoption of `i` makes another Delegate. -/
structure Linked (b : Boundary) (i : InterfaceHandle) (d : DelegateHandle)
    (ownership : Ownership) : Prop where
  companion : b.companion i = .ok (some d)
  interfaceOf : b.interfaceOf d = .ok i
  pairOf : b.pairOf d = some ⟨i, d, ownership⟩
  /-- The whole boundary is unchanged. -/
  materialize : b.materialize i = .ok (d, b)
  adopt : ∀ a, b.adopt i a = .error (.alreadyLinked i)

/-- `i` and `d` are alive and linked, and stay so whatever is done, until one of them is freed. -/
structure StaysLinked (b : Boundary) (i : InterfaceHandle) (d : DelegateHandle)
    (ownership : Ownership) : Prop where
  interface_not_freed : .interface i ∉ b.freed
  delegate_not_freed : .delegate d ∉ b.freed
  linked : ∀ later : List Operation, .interface i ∉ (later.foldl step b).freed →
    .delegate d ∉ (later.foldl step b).freed → (later.foldl step b).Linked i d ownership

end Boundary

namespace Roster.Represents

variable {b b' : Boundary} {r : Roster} {i : InterfaceHandle} {d : DelegateHandle} {o : Owner}

/-- A link of the roster is one of the boundary. -/
theorem linked (h : Represents b r) (hr : r.WellFormed) (hl : r.link d = some (i, o)) :
    b.Linked i d o.ownership := by
  obtain ⟨hd, hi⟩ := hr.live_of_link hl
  have hcompanion : b.companion i = .ok (some d) := by
    rw [h.companion hr, Roster.companion, hr.check_eq_ok_iff.2 hi,
      (companion?_eq_some_iff hr.paired).2 ⟨o, hl⟩]
    rfl
  refine ⟨hcompanion, ?_, ?_, Boundary.materialize_of_companion hcompanion,
    Boundary.adopt_of_companion hcompanion⟩
  · rw [h.interfaceOf hr, Roster.interfaceOf, hr.check_eq_ok_iff.2 hd, hl]
    rfl
  · rw [h.pairOf hr, Roster.pairOf, hl]
    rfl

theorem staysLinked (h : Represents b r) (hr : r.WellFormed) (hl : r.link d = some (i, o)) :
    b.StaysLinked i d o.ownership := by
  obtain ⟨hi, hd⟩ := hr.not_freed_of_link hl
  refine ⟨h.freed ▸ hi, h.freed ▸ hd, fun later hi hd => ?_⟩
  have hlater := h.foldl hr later
  rw [hlater.freed] at hi hd
  exact hlater.linked (hr.foldl later) (hr.keeps_link hl later hi hd)

/-- A Delegate that was just linked stays linked. -/
theorem staysLinked_join (h : Represents b' (r.join i o)) (hr : (r.join i o).WellFormed) :
    b'.StaysLinked i r.newDelegate o.ownership :=
  h.staysLinked hr (by rw [link_join, if_pos rfl])

theorem staysLinked_adopt (h : Represents b r) (hr : r.WellFormed) {a : Adoption}
    (ha : b.adopt i a = .ok (d, b')) : b'.StaysLinked i d a.ownership := by
  have hsim := h.adopt hr i a
  rw [ha] at hsim
  generalize hra : r.adopt i a = out at hsim
  cases hsim with
  | ok _ h' =>
      have hr' := hr.of_moves (moves_adopt hra)
      obtain ⟨_, -, hra⟩ := bind_eq_ok.1 hra
      split at hra
      · cases hra
      · cases hra
        have howner : a.owner.ownership = a.ownership := by cases a <;> rfl
        exact howner ▸ h'.staysLinked_join hr'

/-- A first use either links the object, which then owns its Delegate, or finds a link that
stays. -/
theorem staysLinked_materialize (h : Represents b r) (hr : r.WellFormed)
    (hm : b.materialize i = .ok (d, b')) :
    (b.companion i = .ok none ∧ b'.StaysLinked i d .interfaceSide) ∨
      b' = b ∧ ∃ ownership, b.StaysLinked i d ownership := by
  have hsim := h.materialize hr i
  rw [hm] at hsim
  generalize hrm : r.materialize i = out at hsim
  cases hsim with
  | ok _ h' =>
      have hr' := hr.of_moves (moves_materialize hrm)
      obtain ⟨_, hi, hrm⟩ := bind_eq_ok.1 hrm
      split at hrm
      · next e hc =>
        cases hrm
        obtain ⟨o, hl⟩ := (companion?_eq_some_iff hr.paired).1 hc
        have hfound := (h.linked hr hl).materialize.symm.trans hm
        exact .inr ⟨(congrArg Prod.snd (Except.ok.inj hfound)).symm, _, h.staysLinked hr hl⟩
      · next hc =>
        cases hrm
        refine .inl ⟨?_, h'.staysLinked_join hr'⟩
        rw [h.companion hr, Roster.companion, hi, hc]
        rfl

theorem staysLinked_construct (h : Represents b r) (hr : r.WellFormed) :
    b.constructViaFactory.2.StaysLinked ⟨b.interfaces.length⟩ b.constructViaFactory.1
      .delegateSide := by
  have hsim := h.perform hr .constructViaFactory
  have hr' : (r.create.join r.newInterface .delegate).WellFormed := hr.of_moves .construct
  have hnew : (⟨b.interfaces.length⟩ : InterfaceHandle) = r.newInterface :=
    congrArg InterfaceHandle.mk h.length_interfaces
  rw [Boundary.perform, Roster.perform] at hsim
  generalize b.constructViaFactory = made at hsim ⊢
  obtain ⟨d, b'⟩ := made
  cases hsim with
  | ok _ h' => exact hnew ▸ h'.staysLinked_join hr'

end Roster.Represents

/-- **A link is stable.**  A link that an adoption, a first use or a factory makes in a boundary
that a run reaches is there, with the ownership it was made with, after everything that is done
later and frees neither of its ends. -/
theorem Boundary.link_stable (ops : List Operation) :
    (∀ i a d b', (run ops).adopt i a = .ok (d, b') → b'.StaysLinked i d a.ownership) ∧
    (∀ i d b', (run ops).materialize i = .ok (d, b') →
      ((run ops).companion i = .ok none ∧ b'.StaysLinked i d .interfaceSide) ∨
        b' = run ops ∧ ∃ ownership, (run ops).StaysLinked i d ownership) ∧
    (run ops).constructViaFactory.2.StaysLinked ⟨(run ops).interfaces.length⟩
      (run ops).constructViaFactory.1 .delegateSide := by
  have h := Roster.Represents.run ops
  have hr := Roster.WellFormed.run ops
  exact ⟨fun _ _ _ _ => h.staysLinked_adopt hr, fun _ _ _ => h.staysLinked_materialize hr,
    h.staysLinked_construct hr⟩

/-- An owned object and one that was used before keep their Delegates through refused operations and
the destruction of another pair. -/
theorem Boundary.link_stable_beside_destruction :
    ∃ b b', (run [.createInterface, .constructViaFactory]).adopt ⟨0⟩ .owned = .ok (⟨1⟩, b) ∧
      ([.adopt ⟨0⟩ .borrowed, .materialize ⟨0⟩, .destroyDelegate ⟨0⟩, .createInterface].foldl step
        b).Linked ⟨0⟩ ⟨1⟩ .delegateSide ∧
      (run [.createInterface, .constructViaFactory]).materialize ⟨0⟩ = .ok (⟨1⟩, b') ∧
      ([.adopt ⟨0⟩ .owned, .destroyInterface ⟨1⟩, .materialize ⟨0⟩].foldl step
        b').Linked ⟨0⟩ ⟨1⟩ .interfaceSide := by
  obtain ⟨hadopt, hmaterialize, -⟩ := link_stable [.createInterface, .constructViaFactory]
  refine ⟨_, _, rfl, (hadopt ⟨0⟩ .owned ⟨1⟩ _ rfl).linked _ (by decide) (by decide), rfl, ?_⟩
  rcases hmaterialize ⟨0⟩ ⟨1⟩ _ rfl with ⟨-, hmade⟩ | ⟨hsame, -⟩
  · exact hmade.linked _ (by decide) (by decide)
  · exact absurd (congrArg pairs hsame) (by decide)

end LoadBridge
