import LoadBridge.Proofs.Ownership.Roster

/-!
# Ownership — Well-formed rosters

A roster is *well-formed* when only objects that were made are alive, links join live objects, no
Interface object is in two links, and the log of freed objects names, once each, the objects that
were made and are dead.  An operation makes an object, links one, destroys one or changes nothing
(`Moves`); each of these keeps a roster well-formed (`WellFormed.of_moves`).
-/

namespace LoadBridge

namespace Roster

structure WellFormed (r : Roster) : Prop where
  created_of_live : ∀ {x}, x ∈ r.live → r.Created x
  live_of_link : ∀ {d i o}, r.link d = some (i, o) → .delegate d ∈ r.live ∧ .interface i ∈ r.live
  link_injective : ∀ {d e i o o'}, r.link d = some (i, o) → r.link e = some (i, o') → d = e
  freed_nodup : r.freed.Nodup
  mem_freed : ∀ {x}, x ∈ r.freed ↔ r.Created x ∧ x ∉ r.live

variable {r : Roster}

namespace WellFormed

theorem paired (h : r.WellFormed) : r.Paired :=
  ⟨fun hd => h.created_of_live (h.live_of_link hd).1, h.link_injective⟩

theorem empty : ({} : Roster).WellFormed where
  created_of_live hx := by simp at hx
  live_of_link hd := by cases hd
  link_injective hd := by cases hd
  freed_nodup := List.nodup_nil
  mem_freed {x} := by cases x <;> simp [Created]

theorem create (h : r.WellFormed) : r.create.WellFormed where
  created_of_live hx := created_create.2 ((mem_live_create.1 hx).imp id h.created_of_live)
  live_of_link hd :=
    ⟨mem_live_create.2 (.inr (h.live_of_link hd).1), mem_live_create.2 (.inr (h.live_of_link hd).2)⟩
  link_injective := h.link_injective
  freed_nodup := h.freed_nodup
  mem_freed {x} := by
    have hnew : ¬ r.Created (.interface r.newInterface) := lt_irrefl _
    rw [created_create, mem_live_create, show r.create.freed = r.freed from rfl, h.mem_freed]
    by_cases hx : x = .interface r.newInterface
    · simp [hx, hnew]
    · simp [hx]

theorem join (h : r.WellFormed) {i : InterfaceHandle} (hi : .interface i ∈ r.live)
    (hc : r.companion? i = none) (o : Owner) : (r.join i o).WellFormed where
  created_of_live hx := created_join.2 ((mem_live_join.1 hx).imp id h.created_of_live)
  live_of_link {d j o'} hd := by
    rw [link_join] at hd
    split at hd
    · next hdn =>
      cases hd
      exact ⟨mem_live_join.2 (.inl (congrArg Freed.delegate hdn)), mem_live_join.2 (.inr hi)⟩
    · have hlive := h.live_of_link hd
      exact ⟨mem_live_join.2 (.inr hlive.1), mem_live_join.2 (.inr hlive.2)⟩
  link_injective := (h.paired.join hc o).link_injective
  freed_nodup := h.freed_nodup
  mem_freed {x} := by
    have hnew : ¬ r.Created (.delegate r.newDelegate) := lt_irrefl _
    rw [created_join, mem_live_join, show (r.join i o).freed = r.freed from rfl, h.mem_freed]
    by_cases hx : x = .delegate r.newDelegate
    · simp [hx, hnew]
    · simp [hx]

theorem part (h : r.WellFormed) (d : DelegateHandle) : (r.part d).WellFormed where
  created_of_live := h.created_of_live
  live_of_link he := h.live_of_link (link_of_link_part he).2
  link_injective := (h.paired.part d).link_injective
  freed_nodup := h.freed_nodup
  mem_freed := h.mem_freed

/-- Live objects that are in no link may be freed. -/
theorem release (h : r.WellFormed) {gone : List Freed} (hnodup : gone.Nodup)
    (hlive : ∀ x ∈ gone, x ∈ r.live) (hfree : ∀ x ∈ gone, r.pairWith x = none) :
    (r.release gone).WellFormed where
  created_of_live hx := h.created_of_live (Finset.mem_sdiff.1 hx).1
  live_of_link {d i o} hd := by
    have hlinked := h.live_of_link hd
    have hout : ∀ x ∈ gone, x ≠ .delegate d ∧ x ≠ .interface i := fun x hx =>
      (pairWith_eq_none_iff h.paired).1 (hfree x hx) d i o hd
    simp only [Roster.release, Finset.mem_sdiff, List.mem_toFinset]
    exact ⟨⟨hlinked.1, fun hx => (hout _ hx).1 rfl⟩, hlinked.2, fun hx => (hout _ hx).2 rfl⟩
  link_injective := h.link_injective
  freed_nodup :=
    List.nodup_append'.2 ⟨h.freed_nodup, hnodup, fun x hx hgone =>
      (h.mem_freed.1 hx).2 (hlive x hgone)⟩
  mem_freed {x} := by
    have hcreated : x ∈ gone → r.Created x := fun hx => h.created_of_live (hlive x hx)
    show x ∈ r.freed ++ gone ↔ r.Created x ∧ x ∉ r.live \ gone.toFinset
    simp only [List.mem_append, h.mem_freed, Finset.mem_sdiff, List.mem_toFinset]
    tauto

theorem check_eq_ok_iff (h : r.WellFormed) {x : Freed} : r.check x = .ok () ↔ x ∈ r.live := by
  rw [check]
  refine ⟨?_, ?_⟩
  · intro hx
    split at hx
    · split at hx
      · next hl => exact hl
      · cases hx
    · cases hx
  · intro hx
    rw [if_pos (h.created_of_live hx), if_pos hx]

/-- Once their link has ended, neither object of a pair is in one. -/
theorem pairWith_part (h : r.WellFormed) {p : LinkedPair}
    (hp : r.pairOf p.delegate = some p) {x : Freed}
    (hx : x = .interface p.interface ∨ x = .delegate p.delegate) :
    (r.part p.delegate).pairWith x = none := by
  obtain ⟨o, hlink, -, -⟩ := pairOf_eq_some_iff.1 hp
  rw [pairWith_eq_none_iff (h.paired.part _)]
  intro d i o' hd
  obtain ⟨hne, hd⟩ := link_of_link_part hd
  refine ⟨?_, ?_⟩
  · rintro rfl
    rcases hx with hx | hx
    · cases hx
    · exact hne (Freed.delegate.inj hx)
  · rintro rfl
    rcases hx with hx | hx
    · exact hne (h.link_injective (Freed.interface.inj hx ▸ hd) hlink)
    · cases hx

/-- The end of a pair, with or without the partner of the destroyed object. -/
theorem release_pair (h : r.WellFormed) {x : Freed} {p : LinkedPair} (hp : r.pairWith x = some p) :
    ((r.part p.delegate).release (x :: p.dependents x)).WellFormed := by
  obtain ⟨hx, hpair⟩ := (pairWith_eq_some_iff h.paired).1 hp
  obtain ⟨o, hlink, -, -⟩ := pairOf_eq_some_iff.1 hpair
  obtain ⟨hdlive, hilive⟩ := h.live_of_link hlink
  have hends : ∀ y ∈ x :: p.dependents x,
      y = .interface p.interface ∨ y = .delegate p.delegate := by
    intro y hy
    rcases List.mem_cons.1 hy with rfl | hy
    · exact hx
    · exact LinkedPair.end_of_mem_dependents hy
  refine (h.part _).release LinkedPair.nodup_dependents (fun y hy => ?_)
    fun y hy => h.pairWith_part hpair (hends y hy)
  rcases hends y hy with rfl | rfl
  · exact hilive
  · exact hdlive

theorem destroy {r' : Roster} (h : r.WellFormed) {x : Freed} {gone : List Freed}
    (hd : r.destroy x = .ok (gone, r')) : r'.WellFormed := by
  obtain ⟨_, hx, hd⟩ := bind_eq_ok.1 hd
  have hx := h.check_eq_ok_iff.1 hx
  split at hd
  · next hp =>
    cases hd
    exact h.release (List.nodup_singleton x) (by simpa using hx) (by simpa using hp)
  · next p hp =>
    cases hd
    exact h.release_pair hp

theorem companion?_of_not_live (h : r.WellFormed) {i : InterfaceHandle}
    (hi : .interface i ∉ r.live) : r.companion? i = none :=
  (companion?_eq_none_iff h.paired).2 fun _ _ hd => hi (h.live_of_link hd).2

theorem link_of_not_live (h : r.WellFormed) {d : DelegateHandle}
    (hd : .delegate d ∉ r.live) : r.link d = none :=
  Option.eq_none_iff_forall_ne_some.2 fun _ hl => hd (h.live_of_link hl).1

theorem not_live_newInterface (h : r.WellFormed) :
    .interface r.newInterface ∉ r.live :=
  fun hi => lt_irrefl _ (h.created_of_live hi)

/-- An Interface object has no companion when it is made. -/
theorem companion?_newInterface (h : r.WellFormed) :
    r.create.companion? r.newInterface = none :=
  h.companion?_of_not_live h.not_live_newInterface

end WellFormed

/-! ### Steps -/

/-- What an operation can do to a roster. -/
inductive Moves (r : Roster) : Roster → Prop where
  | create : r.Moves r.create
  | construct : r.Moves (r.create.join r.newInterface .delegate)
  | join {i : InterfaceHandle} (hi : r.check (.interface i) = .ok ())
      (hc : r.companion? i = none) (o : Owner) : r.Moves (r.join i o)
  | destroy {x : Freed} {gone : List Freed} {r' : Roster} (hd : r.destroy x = .ok (gone, r')) :
      r.Moves r'
  | stay : r.Moves r

theorem moves_adopt {r' : Roster} {i : InterfaceHandle} {a : Adoption} {d : DelegateHandle}
    (h : r.adopt i a = .ok (d, r')) : r.Moves r' := by
  obtain ⟨_, hi, h⟩ := bind_eq_ok.1 h
  split at h
  · cases h
  · next hc =>
    cases h
    exact .join hi (by simpa using hc) _

theorem moves_materialize {r' : Roster} {i : InterfaceHandle} {d : DelegateHandle}
    (h : r.materialize i = .ok (d, r')) : r.Moves r' := by
  obtain ⟨_, hi, h⟩ := bind_eq_ok.1 h
  split at h
  · cases h; exact .stay
  · next hc => cases h; exact .join hi hc _

theorem moves_perform {r' : Roster} {op : Operation} {reply : Reply}
    (h : r.perform op = .ok (reply, r')) : r.Moves r' := by
  cases op with
  | createInterface => cases h; exact .create
  | constructViaFactory => cases h; exact .construct
  | adopt i a =>
      obtain ⟨⟨d, r₁⟩, ha, heq⟩ := map_eq_ok.1 h
      cases heq
      exact moves_adopt ha
  | materialize i =>
      obtain ⟨⟨d, r₁⟩, hm, heq⟩ := map_eq_ok.1 h
      cases heq
      exact moves_materialize hm
  | destroyDelegate d =>
      obtain ⟨⟨gone, r₁⟩, hd, heq⟩ := map_eq_ok.1 h
      cases heq
      exact .destroy hd
  | destroyInterface i =>
      obtain ⟨⟨gone, r₁⟩, hd, heq⟩ := map_eq_ok.1 h
      cases heq
      exact .destroy hd

/-- An operation that is not allowed changes nothing. -/
theorem moves_step (r : Roster) (op : Operation) : r.Moves (r.step op) := by
  unfold step
  split
  · next h => exact moves_perform h
  · exact .stay

namespace WellFormed

/-- **What operations do keeps a roster well-formed.** -/
theorem of_moves {r' : Roster} (h : r.WellFormed) (hm : r.Moves r') : r'.WellFormed := by
  cases hm with
  | create => exact h.create
  | construct => exact h.create.join (mem_live_create.2 (.inl rfl)) h.companion?_newInterface _
  | join hi hc o => exact h.join (h.check_eq_ok_iff.1 hi) hc o
  | destroy hd => exact h.destroy hd
  | stay => exact h

theorem perform {r' : Roster} (h : r.WellFormed) {op : Operation} {reply : Reply}
    (hp : r.perform op = .ok (reply, r')) : r'.WellFormed :=
  h.of_moves (moves_perform hp)

theorem step (h : r.WellFormed) (op : Operation) : (r.step op).WellFormed :=
  h.of_moves (r.moves_step op)

theorem foldl (h : r.WellFormed) (ops : List Operation) :
    (ops.foldl Roster.step r).WellFormed := by
  induction ops generalizing r with
  | nil => exact h
  | cons op rest ih => exact ih (h.step op)

theorem run (ops : List Operation) : (Roster.run ops).WellFormed :=
  empty.foldl ops

end WellFormed

end Roster

end LoadBridge
