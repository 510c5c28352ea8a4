import LoadBridge.Proofs.Ownership.WellFormed

/-!
# Ownership — The rules

When a roster refuses an operation, with which error, and what a destruction does.

* `check_eq_error_iff`, `perform_eq_error_iff`: an object may be used when it was made and is not
  dead, and only adoption asks for more, that the Interface object has no companion.
* `WellFormed.destroys`: a destruction frees its target and then, if the target owned it, the
  partner of the target; it ends the link of the target and touches nothing else.
-/

namespace LoadBridge

namespace Roster

/-! ### Refusals -/

/-- `x` may not be used, and this is the error. -/
inductive Denies (r : Roster) (x : Freed) : ProtocolError → Prop where
  | unknown : ¬ r.Created x → r.Denies x x.unknown
  | destroyed : r.Created x → x ∉ r.live → r.Denies x x.destroyed

/-- The operation is not allowed, and this is the error. -/
inductive Refuses (r : Roster) : Operation → ProtocolError → Prop where
  | adopt {i a e} : r.Denies (.interface i) e → r.Refuses (.adopt i a) e
  | adoptLinked {i a d o} : .interface i ∈ r.live → r.link d = some (i, o) →
      r.Refuses (.adopt i a) (.alreadyLinked i)
  | materialize {i e} : r.Denies (.interface i) e → r.Refuses (.materialize i) e
  | destroyDelegate {d e} : r.Denies (.delegate d) e → r.Refuses (.destroyDelegate d) e
  | destroyInterface {i e} : r.Denies (.interface i) e → r.Refuses (.destroyInterface i) e

variable {r : Roster}

theorem check_eq_error_iff {x : Freed} {e : ProtocolError} :
    r.check x = .error e ↔ r.Denies x e := by
  rw [check]
  refine ⟨?_, ?_⟩
  · intro h
    split at h
    · next hc =>
      split at h
      · cases h
      · next hl => cases h; exact .destroyed hc hl
    · next hc => cases h; exact .unknown hc
  · intro h
    cases h with
    | unknown hc => rw [if_neg hc]
    | destroyed hc hl => rw [if_pos hc, if_neg hl]

theorem destroy_eq_error_iff {x : Freed} {e : ProtocolError} :
    r.destroy x = .error e ↔ r.Denies x e := by
  rw [destroy, bind_eq_error_of_ok fun _ => ?_, check_eq_error_iff]
  split <;> exact ⟨_, rfl⟩

theorem materialize_eq_error_iff {i : InterfaceHandle} {e : ProtocolError} :
    r.materialize i = .error e ↔ r.Denies (.interface i) e := by
  rw [materialize, bind_eq_error_of_ok fun _ => ?_, check_eq_error_iff]
  split <;> exact ⟨_, rfl⟩

theorem adopt_eq_error_iff (h : r.WellFormed) {i : InterfaceHandle} {a : Adoption}
    {e : ProtocolError} :
    r.adopt i a = .error e ↔ r.Denies (.interface i) e ∨
      .interface i ∈ r.live ∧ (∃ d o, r.link d = some (i, o)) ∧ e = .alreadyLinked i := by
  have hlinked : (r.companion? i).isSome ↔ ∃ d o, r.link d = some (i, o) := by
    simp [Option.isSome_iff_exists, companion?_eq_some_iff h.paired]
  rw [adopt, bind_eq_error, check_eq_error_iff, ← hlinked]
  refine or_congr_right ⟨?_, ?_⟩
  · rintro ⟨_, hi, he⟩
    split at he
    · next hc => cases he; exact ⟨h.check_eq_ok_iff.1 hi, hc, rfl⟩
    · cases he
  · rintro ⟨hi, hc, rfl⟩
    exact ⟨(), h.check_eq_ok_iff.2 hi, if_pos hc⟩

/-- **When an operation fails.**  Its object was never made or is dead or, for an adoption, has a
companion. -/
theorem perform_eq_error_iff (h : r.WellFormed) {op : Operation} {e : ProtocolError} :
    r.perform op = .error e ↔ r.Refuses op e := by
  cases op with
  | createInterface => exact ⟨fun he => (nomatch he), fun he => (nomatch he)⟩
  | constructViaFactory => exact ⟨fun he => (nomatch he), fun he => (nomatch he)⟩
  | adopt i a =>
      rw [perform, map_eq_error, adopt_eq_error_iff h]
      refine ⟨?_, ?_⟩
      · rintro (he | ⟨hi, ⟨d, o, hd⟩, rfl⟩)
        · exact .adopt he
        · exact .adoptLinked hi hd
      · intro he
        cases he with
        | adopt he => exact .inl he
        | adoptLinked hi hd => exact .inr ⟨hi, ⟨_, _, hd⟩, rfl⟩
  | materialize i =>
      rw [perform, map_eq_error, materialize_eq_error_iff]
      exact ⟨.materialize, fun (.materialize he) => he⟩
  | destroyDelegate d =>
      rw [perform, map_eq_error, destroy_eq_error_iff]
      exact ⟨.destroyDelegate, fun (.destroyDelegate he) => he⟩
  | destroyInterface i =>
      rw [perform, map_eq_error, destroy_eq_error_iff]
      exact ⟨.destroyInterface, fun (.destroyInterface he) => he⟩

theorem companion_eq_error_iff {i : InterfaceHandle} {e : ProtocolError} :
    r.companion i = .error e ↔ r.Denies (.interface i) e := by
  rw [companion, bind_eq_error_of_ok fun _ => ⟨_, rfl⟩, check_eq_error_iff]

/-- Beside an object that may not be used, `interfaceOf` refuses a Delegate that is not linked. -/
theorem interfaceOf_eq_error_iff (h : r.WellFormed) {d : DelegateHandle} {e : ProtocolError} :
    r.interfaceOf d = .error e ↔ r.Denies (.delegate d) e ∨
      .delegate d ∈ r.live ∧ r.link d = none ∧ e = .notLinked d := by
  rw [interfaceOf, bind_eq_error, check_eq_error_iff]
  refine or_congr_right ⟨?_, ?_⟩
  · rintro ⟨_, hd, he⟩
    split at he
    · cases he
    · next hl => cases he; exact ⟨h.check_eq_ok_iff.1 hd, hl, rfl⟩
  · rintro ⟨hd, hl, rfl⟩
    exact ⟨(), h.check_eq_ok_iff.2 hd, by rw [hl]⟩

/-! ### Destruction -/

/-- `x` owns the object it is linked with. -/
inductive Owns (r : Roster) : Freed → Freed → Prop where
  | interface {i d} : r.link d = some (i, .interface) → r.Owns (.interface i) (.delegate d)
  | delegate {d i} : r.link d = some (i, .delegate) → r.Owns (.delegate d) (.interface i)

/-- The destruction of `x` frees `gone` and leaves `r'`. -/
structure Destroys (r : Roster) (x : Freed) (gone : List Freed) (r' : Roster) : Prop where
  /-- The target goes first, and then what it owns, if it owns anything. -/
  gone_eq : gone = [x] ∧ (∀ y, ¬ r.Owns x y) ∨ ∃ y, gone = [x, y] ∧ r.Owns x y
  freed_eq : r'.freed = r.freed ++ gone
  mem_live : ∀ y, y ∈ r'.live ↔ y ∈ r.live ∧ y ∉ gone
  /-- The links that are left are those that the target is not in. -/
  link_iff : ∀ d i o, r'.link d = some (i, o) ↔
    r.link d = some (i, o) ∧ x ≠ .delegate d ∧ x ≠ .interface i
  interfaceCount_eq : r'.interfaceCount = r.interfaceCount
  delegateCount_eq : r'.delegateCount = r.delegateCount

theorem Destroys.created_iff {r' : Roster} {x : Freed} {gone : List Freed}
    (h : r.Destroys x gone r') (y : Freed) : r'.Created y ↔ r.Created y := by
  cases y with
  | interface i => rw [Created, Created, h.interfaceCount_eq]
  | delegate d => rw [Created, Created, h.delegateCount_eq]

theorem Destroys.mem_gone {r' : Roster} {x : Freed} {gone : List Freed}
    (h : r.Destroys x gone r') : x ∈ gone := by
  rcases h.gone_eq with ⟨rfl, -⟩ | ⟨y, rfl, -⟩
  · exact List.mem_singleton_self x
  · exact List.mem_cons_self

theorem Owns.linked {x y : Freed} (h : r.Owns x y) :
    ∃ d i o, r.link d = some (i, o) ∧ (x = .delegate d ∨ x = .interface i) := by
  cases h with
  | interface hd => exact ⟨_, _, _, hd, .inr rfl⟩
  | delegate hd => exact ⟨_, _, _, hd, .inl rfl⟩

/-- The dependents of an object in a pair are what it owns. -/
theorem dependents_eq (h : r.WellFormed) {x : Freed} {p : LinkedPair}
    (hp : r.pairWith x = some p) :
    p.dependents x = [] ∧ (∀ y, ¬ r.Owns x y) ∨ ∃ y, p.dependents x = [y] ∧ r.Owns x y := by
  obtain ⟨hx, hpair⟩ := (pairWith_eq_some_iff h.paired).1 hp
  obtain ⟨i, d, ownership⟩ := p
  obtain ⟨o, hlink, -, ho⟩ := pairOf_eq_some_iff.1 hpair
  obtain rfl : ownership = o.ownership := ho
  rcases hx with rfl | rfl
  · cases o with
    | interface => exact .inr ⟨.delegate d, rfl, .interface hlink⟩
    | delegate =>
        refine .inl ⟨rfl, fun y hy => ?_⟩
        -- its only link is owned from the other side
        cases hy with
        | interface hd =>
            obtain rfl := h.link_injective hd hlink
            cases hd.symm.trans hlink
  · cases o with
    | interface =>
        refine .inl ⟨rfl, fun y hy => ?_⟩
        cases hy with
        | delegate hd => cases hd.symm.trans hlink
    | delegate => exact .inr ⟨.interface i, rfl, .delegate hlink⟩

/-- The links left when a pair ends are those that neither of its objects is in. -/
theorem link_part_iff (h : r.WellFormed) {x : Freed} {p : LinkedPair} (hp : r.pairWith x = some p)
    (d : DelegateHandle) (i : InterfaceHandle) (o : Owner) :
    (r.part p.delegate).link d = some (i, o) ↔
      r.link d = some (i, o) ∧ x ≠ .delegate d ∧ x ≠ .interface i := by
  obtain ⟨hx, hpair⟩ := (pairWith_eq_some_iff h.paired).1 hp
  refine ⟨?_, ?_⟩
  · intro hd
    exact ⟨(link_of_link_part hd).2,
      (pairWith_eq_none_iff (h.paired.part _)).1 (h.pairWith_part hpair hx) d i o hd⟩
  · rintro ⟨hd, hxd, hxi⟩
    rw [link_part, if_neg ?_, hd]
    rintro rfl
    obtain ⟨o', hlink, -, -⟩ := pairOf_eq_some_iff.1 hpair
    obtain rfl : i = p.interface := congrArg Prod.fst (Option.some.inj (hd.symm.trans hlink))
    exact hx.elim hxi hxd

/-- **What a destruction does.** -/
theorem WellFormed.destroys (h : r.WellFormed) {r' : Roster} {x : Freed} {gone : List Freed}
    (hd : r.destroy x = .ok (gone, r')) : r.Destroys x gone r' := by
  obtain ⟨_, -, hd⟩ := bind_eq_ok.1 hd
  have hlive : ∀ (gone : List Freed) (y : Freed),
      y ∈ r.live \ gone.toFinset ↔ y ∈ r.live ∧ y ∉ gone := fun gone y => by simp
  split at hd
  · next hp =>
    cases hd
    have hfree := (pairWith_eq_none_iff h.paired).1 hp
    refine ⟨.inl ⟨rfl, fun y hy => ?_⟩, rfl, hlive _, fun d i o => ?_, rfl, rfl⟩
    · obtain ⟨d, i, o, hlink, hx⟩ := hy.linked
      exact hx.elim (hfree d i o hlink).1 (hfree d i o hlink).2
    · exact ⟨fun hlink => ⟨hlink, hfree d i o hlink⟩, And.left⟩
  · next p hp =>
    cases hd
    refine ⟨?_, rfl, hlive _, link_part_iff h hp, rfl, rfl⟩
    rcases dependents_eq h hp with ⟨hdep, hno⟩ | ⟨y, hdep, hy⟩
    · exact .inl ⟨by rw [hdep], hno⟩
    · exact .inr ⟨y, by rw [hdep], hy⟩

/-- A live object may be destroyed. -/
theorem WellFormed.exists_destroy (h : r.WellFormed) {x : Freed} (hx : x ∈ r.live) :
    ∃ gone r', r.destroy x = .ok (gone, r') := by
  cases hd : r.destroy x with
  | ok a => exact ⟨a.1, a.2, rfl⟩
  | error e =>
      cases destroy_eq_error_iff.1 hd with
      | unknown hc => exact absurd (h.created_of_live hx) hc
      | destroyed _ hl => exact absurd hx hl

/-! ### The log -/

theorem freed_destroy {r' : Roster} {x : Freed} {gone : List Freed}
    (hd : r.destroy x = .ok (gone, r')) : r'.freed = r.freed ++ gone := by
  obtain ⟨_, -, hd⟩ := bind_eq_ok.1 hd
  split at hd <;> cases hd <;> rfl

/-- The log of freed objects grows at its end only. -/
theorem Moves.freed_grows {r' : Roster} (h : r.Moves r') : r.freed <+: r'.freed := by
  cases h with
  | create => exact List.prefix_rfl
  | construct => exact List.prefix_rfl
  | join hi hc o => exact List.prefix_rfl
  | destroy hd => exact freed_destroy hd ▸ List.prefix_append ..
  | stay => exact List.prefix_rfl

theorem freed_grows_foldl (ops : List Operation) (r : Roster) :
    r.freed <+: (ops.foldl step r).freed := by
  induction ops generalizing r with
  | nil => exact List.prefix_rfl
  | cons op rest ih => exact (r.moves_step op).freed_grows.trans (ih (r.step op))

end Roster

end LoadBridge
