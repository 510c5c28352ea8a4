import LoadBridge.Proofs.Ownership.WellFormed

/-!
# Ownership — The boundary simulates the roster

A boundary keeps every link three times: in a pair, in the slot of the Interface object and in the
slot of the Delegate; and it keeps the pairs whose link has ended.  It *represents* a roster when
the slots are those the roster calls for and each pair says what the roster says of its Delegate:
the `n`th pair is that of the `n`th Delegate.

Every operation, performed on a boundary and on the roster it represents, fails with the same error
or gives the same reply and leaves a boundary that represents the roster that is left
(`Represents.perform`).  Hence every boundary that a run reaches represents a well-formed roster
(`Represents.run`), which is read off the boundary by `Boundary.roster`.
-/

namespace LoadBridge

/-- What a pair says of its Delegate: the Interface object it is linked with and who owns whom, if
the link has not ended. -/
def LinkedPair.link? (p : LinkedPair) : Option (InterfaceHandle × Owner) :=
  match p.ownership with
  | .unlinked => none
  | .interfaceSide => some (p.interface, .interface)
  | .delegateSide => some (p.interface, .delegate)

theorem LinkedPair.link?_eq_some_iff {p : LinkedPair} {i : InterfaceHandle} {o : Owner} :
    p.link? = some (i, o) ↔ p.interface = i ∧ p.ownership = o.ownership := by
  obtain ⟨j, d, ownership⟩ := p
  cases ownership <;> cases o <;> simp [link?, Owner.ownership]

/-- The roster that a boundary's slots and pairs describe. -/
def Boundary.roster (b : Boundary) : Roster where
  interfaceCount := b.interfaces.length
  delegateCount := b.delegates.length
  live := b.liveObjects.toFinset
  link d := (b.pairOf d).bind LinkedPair.link?
  freed := b.freed

namespace Roster

/-- The slot of an Interface object. -/
def interfaceSlot (r : Roster) (i : InterfaceHandle) : Slot where
  alive := decide (.interface i ∈ r.live)
  pair := (r.companion? i).map DelegateHandle.index

/-- The slot of a Delegate. -/
def delegateSlot (r : Roster) (d : DelegateHandle) : Slot where
  alive := decide (.delegate d ∈ r.live)
  pair := (r.link d).map fun _ => d.index

/-- The boundary `b` keeps the objects, links and log of `r`. -/
structure Represents (b : Boundary) (r : Roster) : Prop where
  interfaces : b.interfaces = r.interfaces.map r.interfaceSlot
  delegates : b.delegates = r.delegates.map r.delegateSlot
  pairs : b.pairs.map (fun p => (p.delegate, p.link?)) = r.delegates.map fun d => (d, r.link d)
  freed : b.freed = r.freed

/-! ### Lists indexed by handles -/

section
variable {α : Type}

theorem modify_map_range (f : Nat → α) (g : α → α) (n k : Nat) :
    ((List.range n).map f).modify k g =
      (List.range n).map fun m => if m = k then g (f m) else f m := by
  refine List.ext_getElem (by simp) fun m hm _ => ?_
  simp [List.getElem_modify, eq_comm]

theorem modify_map_interfaces (r : Roster) (f : InterfaceHandle → α) (g : α → α)
    (i : InterfaceHandle) :
    (r.interfaces.map f).modify i.index g =
      r.interfaces.map fun j => if j = i then g (f j) else f j := by
  obtain ⟨k⟩ := i
  simp only [interfaces, List.map_map, modify_map_range]
  simp [Function.comp_def]

theorem modify_map_delegates (r : Roster) (f : DelegateHandle → α) (g : α → α)
    (d : DelegateHandle) :
    (r.delegates.map f).modify d.index g =
      r.delegates.map fun e => if e = d then g (f e) else f e := by
  obtain ⟨k⟩ := d
  simp only [delegates, List.map_map, modify_map_range]
  simp [Function.comp_def]

theorem set_map_delegates (r : Roster) (f : DelegateHandle → α) (a : α) (d : DelegateHandle) :
    (r.delegates.map f).set d.index a = r.delegates.map fun e => if e = d then a else f e := by
  rw [List.set_eq_modify, modify_map_delegates]

theorem getElem?_map_interfaces (r : Roster) (f : InterfaceHandle → α) (i : InterfaceHandle) :
    (r.interfaces.map f)[i.index]? = if r.Created (.interface i) then some (f i) else none := by
  by_cases h : i.index < r.interfaceCount <;> simp [interfaces, Created, h]

theorem getElem?_map_delegates (r : Roster) (f : DelegateHandle → α) (d : DelegateHandle) :
    (r.delegates.map f)[d.index]? = if r.Created (.delegate d) then some (f d) else none := by
  by_cases h : d.index < r.delegateCount <;> simp [delegates, Created, h]

end

theorem create_interfaces (r : Roster) :
    r.create.interfaces = r.interfaces ++ [r.newInterface] := by
  simp [interfaces, create, newInterface, List.range_succ]

theorem join_delegates (r : Roster) (i : InterfaceHandle) (o : Owner) :
    (r.join i o).delegates = r.delegates ++ [r.newDelegate] := by
  simp [delegates, join, newDelegate, List.range_succ]

theorem ne_newInterface {r : Roster} {i : InterfaceHandle} (h : i ∈ r.interfaces) :
    i ≠ r.newInterface := by
  rintro rfl
  exact lt_irrefl _ (mem_interfaces.1 h)

theorem ne_newDelegate {r : Roster} {d : DelegateHandle} (h : d ∈ r.delegates) :
    d ≠ r.newDelegate := by
  rintro rfl
  exact lt_irrefl _ (mem_delegates.1 h)

/-! ### What the parts of an operation do -/

namespace Represents

variable {b : Boundary} {r : Roster}

theorem empty : Represents .empty {} := ⟨rfl, rfl, rfl, rfl⟩

theorem length_pairs (h : Represents b r) : b.pairs.length = r.delegateCount := by
  simpa [Roster.delegates] using congrArg List.length h.pairs

theorem length_interfaces (h : Represents b r) : b.interfaces.length = r.interfaceCount := by
  simp [h.interfaces, Roster.interfaces]

theorem length_delegates (h : Represents b r) : b.delegates.length = r.delegateCount := by
  simp [h.delegates, Roster.delegates]

theorem create (h : Represents b r) (hr : r.WellFormed) :
    Represents b.createInterface.2 r.create where
  interfaces := by
    have hnew : r.create.interfaceSlot r.newInterface = {} := by
      simp [interfaceSlot, hr.companion?_newInterface, mem_live_create]
    have hold : ∀ i ∈ r.interfaces, r.interfaceSlot i = r.create.interfaceSlot i := fun i hi => by
      refine congrArg₂ Slot.mk ?_ rfl
      simp [mem_live_create, ne_newInterface hi]
    rw [create_interfaces, List.map_append, ← List.map_congr_left hold, ← h.interfaces,
      List.map_singleton, hnew]
    rfl
  delegates := by
    refine h.delegates.trans (List.map_congr_left fun d _ => congrArg₂ Slot.mk ?_ rfl)
    simp [mem_live_create]
  pairs := h.pairs
  freed := h.freed

theorem join (h : Represents b r) (hr : r.WellFormed) {i : InterfaceHandle}
    (hi : r.companion? i = none) (o : Owner) :
    Represents (b.link i o.ownership).2 (r.join i o) where
  interfaces := by
    show b.interfaces.modify i.index _ = r.interfaces.map (r.join i o).interfaceSlot
    rw [h.interfaces, modify_map_interfaces, h.length_pairs]
    refine List.map_congr_left fun j _ => ?_
    simp only [interfaceSlot, companion?_join hr.paired hi, mem_live_join]
    split <;> simp [newDelegate]
  delegates := by
    show b.delegates ++ [_] = _
    rw [join_delegates, List.map_append, h.delegates, h.length_pairs]
    congr 1
    -- the slots there were, and the new one
    · refine List.map_congr_left fun d hd => ?_
      simp [delegateSlot, link_join, mem_live_join, ne_newDelegate hd]
    · simp [delegateSlot, link_join, mem_live_join, newDelegate]
  pairs := by
    show (b.pairs ++ [_]).map _ = _
    rw [join_delegates, List.map_append, List.map_append, h.pairs, h.length_delegates]
    congr 1
    -- the pairs there were, and the new one
    · refine List.map_congr_left fun d hd => ?_
      simp [link_join, ne_newDelegate hd]
    · cases o <;> simp [link_join, LinkedPair.link?, Owner.ownership, newDelegate]
  freed := h.freed

theorem killInterface (h : Represents b r) (i : InterfaceHandle) :
    Represents (b.killInterface i) { r with live := r.live.erase (.interface i) } where
  interfaces := by
    show b.interfaces.modify i.index _ = r.interfaces.map _
    rw [h.interfaces, modify_map_interfaces]
    refine List.map_congr_left fun j _ => ?_
    split
    · next hj => exact congrArg₂ Slot.mk (by simp [hj]) rfl
    · next hj => exact congrArg₂ Slot.mk (by simp [hj]) rfl
  delegates := by
    refine h.delegates.trans (List.map_congr_left fun d _ => congrArg₂ Slot.mk ?_ rfl)
    simp
  pairs := h.pairs
  freed := h.freed

theorem killDelegate (h : Represents b r) (d : DelegateHandle) :
    Represents (b.killDelegate d) { r with live := r.live.erase (.delegate d) } where
  interfaces := by
    refine h.interfaces.trans (List.map_congr_left fun i _ => congrArg₂ Slot.mk ?_ rfl)
    simp
  delegates := by
    show b.delegates.modify d.index _ = r.delegates.map _
    rw [h.delegates, modify_map_delegates]
    refine List.map_congr_left fun e _ => ?_
    split
    · next he => exact congrArg₂ Slot.mk (by simp [he]) rfl
    · next he => exact congrArg₂ Slot.mk (by simp [he]) rfl
  pairs := h.pairs
  freed := h.freed

theorem unlink (h : Represents b r) (hr : r.Paired) {p : LinkedPair}
    (hp : r.pairOf p.delegate = some p) :
    Represents (b.unlink p.delegate.index p) (r.part p.delegate) where
  interfaces := by
    obtain ⟨o, hlink, -, -⟩ := pairOf_eq_some_iff.1 hp
    show b.interfaces.modify p.interface.index _ = r.interfaces.map _
    rw [h.interfaces, modify_map_interfaces]
    refine List.map_congr_left fun j _ => ?_
    simp only [interfaceSlot, companion?_part hr hlink]
    split <;> rfl
  delegates := by
    show b.delegates.modify p.delegate.index _ = r.delegates.map _
    rw [h.delegates, modify_map_delegates]
    refine List.map_congr_left fun d _ => ?_
    simp only [delegateSlot, link_part]
    split <;> rfl
  pairs := by
    show (b.pairs.set _ _).map _ = r.delegates.map _
    rw [List.map_set, h.pairs, set_map_delegates]
    refine List.map_congr_left fun d _ => ?_
    rw [link_part]
    split
    · next hd => rw [hd]; rfl
    · rfl
  freed := h.freed

theorem record (h : Represents b r) (gone : List Freed) :
    Represents (b.record gone).2 { r with freed := r.freed ++ gone } :=
  ⟨h.interfaces, h.delegates, h.pairs, congrArg (· ++ gone) h.freed⟩

/-! ### Reading slots and pairs -/

theorem interfaceSlot (h : Represents b r) (i : InterfaceHandle) :
    b.interfaceSlot i = (r.check (.interface i)).map fun _ => r.interfaceSlot i := by
  rw [Boundary.interfaceSlot, h.interfaces, getElem?_map_interfaces, check]
  by_cases hc : r.Created (.interface i)
  · by_cases hl : .interface i ∈ r.live
    · simp [hc, hl, Roster.interfaceSlot, Except.map]
    · simp [hc, hl, Roster.interfaceSlot, Except.map, Freed.destroyed]
  · simp [hc, Except.map, Freed.unknown]

theorem delegateSlot (h : Represents b r) (d : DelegateHandle) :
    b.delegateSlot d = (r.check (.delegate d)).map fun _ => r.delegateSlot d := by
  rw [Boundary.delegateSlot, h.delegates, getElem?_map_delegates, check]
  by_cases hc : r.Created (.delegate d)
  · by_cases hl : .delegate d ∈ r.live
    · simp [hc, hl, Roster.delegateSlot, Except.map]
    · simp [hc, hl, Roster.delegateSlot, Except.map, Freed.destroyed]
  · simp [hc, Except.map, Freed.unknown]

/-- The pair of a Delegate that was made. -/
theorem getElem?_pairs (h : Represents b r) {d : DelegateHandle} (hd : r.Created (.delegate d)) :
    ∃ p, b.pairs[d.index]? = some p ∧ p.delegate = d ∧ p.link? = r.link d := by
  have hget := congrArg (·[d.index]?) h.pairs
  simp only [getElem?_map_delegates, if_pos hd] at hget
  rw [List.getElem?_map] at hget
  obtain ⟨p, hp, heq⟩ := Option.map_eq_some_iff.1 hget
  exact ⟨p, hp, congrArg Prod.fst heq, congrArg Prod.snd heq⟩

/-- The pair of a Delegate that is linked. -/
theorem getElem?_pairs_of_link (h : Represents b r) (hr : r.Paired)
    {d : DelegateHandle} {i : InterfaceHandle} {o : Owner} (hd : r.link d = some (i, o)) :
    b.pairs[d.index]? = some ⟨i, d, o.ownership⟩ := by
  obtain ⟨⟨j, e, ownership⟩, hp, rfl, hlink⟩ := h.getElem?_pairs (hr.lt_of_link hd)
  obtain ⟨rfl, rfl⟩ := LinkedPair.link?_eq_some_iff.1 (hlink.trans hd)
  exact hp

theorem pairIn_delegateSlot (h : Represents b r) (hr : r.Paired)
    (d : DelegateHandle) : b.pairIn (r.delegateSlot d) = r.pairOf d := by
  cases hd : r.link d with
  | none => simp [Boundary.pairIn, Roster.delegateSlot, pairOf, hd]
  | some l =>
      simp [Boundary.pairIn, Roster.delegateSlot, pairOf, hd, h.getElem?_pairs_of_link hr hd]

theorem pairIn_interfaceSlot (h : Represents b r) (hr : r.Paired)
    (i : InterfaceHandle) : b.pairIn (r.interfaceSlot i) = r.pairWith (.interface i) := by
  cases hc : r.companion? i with
  | none => simp [Boundary.pairIn, Roster.interfaceSlot, pairWith, hc]
  | some d =>
      obtain ⟨o, hd⟩ := (companion?_eq_some_iff hr).1 hc
      simp [Boundary.pairIn, Roster.interfaceSlot, pairWith, pairOf, hc, hd,
        h.getElem?_pairs_of_link hr hd]

end Represents

/-! ### The simulation -/

/-- The same error; or the same reply, and boundaries that represent the rosters. -/
inductive Simulated {α : Type} :
    Except ProtocolError (α × Boundary) → Except ProtocolError (α × Roster) → Prop where
  | error (e : ProtocolError) : Simulated (.error e) (.error e)
  | ok {b : Boundary} {r : Roster} (a : α) (h : Represents b r) :
      Simulated (.ok (a, b)) (.ok (a, r))

namespace Simulated
variable {α β γ : Type}

theorem map {x : Except ProtocolError (α × Boundary)} {y : Except ProtocolError (α × Roster)}
    (h : Simulated x y) (f : α → β) :
    Simulated (x.map (Prod.map f id)) (y.map (Prod.map f id)) := by
  cases h with
  | error e => exact .error e
  | ok a h => exact .ok (f a) h

/-- Both sides refuse an object that may not be used, and go on with one that may. -/
theorem of_check {r : Roster} {x : Freed} {slot : γ}
    {k : γ → Except ProtocolError (α × Boundary)} {k' : Unit → Except ProtocolError (α × Roster)}
    (hk : r.check x = .ok () → Simulated (k slot) (k' ())) :
    Simulated ((r.check x).map (fun _ => slot) >>= k) (r.check x >>= k') := by
  cases hc : r.check x with
  | error e => exact .error e
  | ok _ => exact hk hc

end Simulated

namespace Represents

variable {b : Boundary} {r : Roster}

theorem adopt (h : Represents b r) (hr : r.WellFormed) (i : InterfaceHandle) (adoption : Adoption) :
    Simulated (b.adopt i adoption) (r.adopt i adoption) := by
  rw [Boundary.adopt, Roster.adopt, h.interfaceSlot]
  refine .of_check fun _ => ?_
  cases hc : r.companion? i with
  | some d => simpa [Roster.interfaceSlot, hc] using .error _
  | none =>
      have hd : (b.link i adoption.ownership).1 = r.newDelegate :=
        congrArg DelegateHandle.mk h.length_delegates
      have howner : adoption.ownership = adoption.owner.ownership := by cases adoption <;> rfl
      have hjoin := Simulated.ok r.newDelegate (h.join hr hc adoption.owner)
      simpa [Roster.interfaceSlot, hc, ← hd, ← howner] using hjoin

theorem materialize (h : Represents b r) (hr : r.WellFormed)
    (i : InterfaceHandle) : Simulated (b.materialize i) (r.materialize i) := by
  rw [Boundary.materialize, Roster.materialize, h.interfaceSlot]
  refine .of_check fun hi => ?_
  rw [h.pairIn_interfaceSlot hr.paired]
  cases hc : r.companion? i with
  | some d =>
      obtain ⟨o, hd⟩ := (companion?_eq_some_iff hr.paired).1 hc
      simpa [pairWith, pairOf, hc, hd] using .ok d h
  | none =>
      -- from here on it is an adoption, and `hi` is its check
      have hadopt := h.adopt hr i .borrowed
      rw [Roster.adopt, hi, hc] at hadopt
      simp only [pairWith, hc, Option.bind_none]
      exact hadopt

/-- Objects that are marked as dead and noted in the log are released. -/
theorem release_one {x : Freed} (h : Represents b { r with live := r.live.erase x }) :
    Represents (b.record [x]).2 (r.release [x]) := by
  have hlive : r.live.erase x = r.live \ [x].toFinset := by ext y; simp [and_comm]
  rw [hlive] at h
  exact h.record [x]

theorem release_two {x y : Freed} (h : Represents b { r with live := (r.live.erase x).erase y }) :
    Represents (b.record [x, y]).2 (r.release [x, y]) := by
  have hlive : (r.live.erase x).erase y = r.live \ [x, y].toFinset := by
    ext z; simp only [Finset.mem_erase, Finset.mem_sdiff, List.mem_toFinset, List.mem_cons]; tauto
  rw [hlive] at h
  exact h.record [x, y]

theorem destroyDelegate (h : Represents b r) (hr : r.WellFormed)
    (d : DelegateHandle) : Simulated (b.destroyDelegate d) (r.destroy (.delegate d)) := by
  rw [Boundary.destroyDelegate, Roster.destroy, h.delegateSlot]
  refine .of_check fun _ => ?_
  -- the slot was read before its Delegate died, so it still leads to the pair
  have hdead := h.killDelegate d
  have hpair : (b.killDelegate d).pairIn (r.delegateSlot d) = r.pairOf d :=
    h.pairIn_delegateSlot hr.paired d
  dsimp only
  rw [hpair]
  cases hp : r.pairOf d with
  | none =>
      simp only [pairWith, hp]
      cases (r.delegateSlot d).pair <;> exact .ok _ hdead.release_one
  | some p =>
      obtain ⟨o, hlink, rfl, -⟩ := pairOf_eq_some_iff.1 hp
      have hparted := hdead.unlink ⟨hr.paired.lt_of_link, hr.link_injective⟩ hp
      simp only [Roster.delegateSlot, hlink, Option.map_some, pairWith, hp, LinkedPair.dependents,
        LinkedPair.ownsInterface, beq_iff_eq]
      split
      · exact .ok _ (hparted.killInterface p.interface).release_two
      · exact .ok _ hparted.release_one

theorem destroyInterface (h : Represents b r) (hr : r.WellFormed)
    (i : InterfaceHandle) : Simulated (b.destroyInterface i) (r.destroy (.interface i)) := by
  rw [Boundary.destroyInterface, Roster.destroy, h.interfaceSlot]
  refine .of_check fun _ => ?_
  have hdead := h.killInterface i
  have hpair : (b.killInterface i).pairIn (r.interfaceSlot i) = r.pairWith (.interface i) :=
    h.pairIn_interfaceSlot hr.paired i
  dsimp only
  rw [hpair]
  cases hp : r.pairWith (.interface i) with
  | none => cases (r.interfaceSlot i).pair <;> exact .ok _ hdead.release_one
  | some p =>
      obtain ⟨hi, hpd⟩ := (pairWith_eq_some_iff hr.paired).1 hp
      obtain rfl : i = p.interface := by simpa using hi
      obtain ⟨o, hlink, -, -⟩ := pairOf_eq_some_iff.1 hpd
      have hc : r.companion? p.interface = some p.delegate :=
        (companion?_eq_some_iff hr.paired).2 ⟨o, hlink⟩
      have hparted := hdead.unlink ⟨hr.paired.lt_of_link, hr.link_injective⟩ hpd
      simp only [Roster.interfaceSlot, hc, Option.map_some, LinkedPair.dependents,
        LinkedPair.deletesDelegate, beq_iff_eq]
      split
      · exact .ok _ (hparted.killDelegate p.delegate).release_two
      · exact .ok _ hparted.release_one

theorem destroy (h : Represents b r) (hr : r.WellFormed) (x : Freed) :
    Simulated (b.destroy x) (r.destroy x) := by
  cases x with
  | interface i => exact h.destroyInterface hr i
  | delegate d => exact h.destroyDelegate hr d

/-- **One operation.**  Performed on a boundary and on the roster it represents, it fails with the
same error, or gives the same reply and leaves a boundary that represents the roster left. -/
theorem perform (h : Represents b r) (hr : r.WellFormed)
    (op : Operation) : Simulated (b.perform op) (r.perform op) := by
  cases op with
  | createInterface =>
      have hi : b.createInterface.1 = r.newInterface :=
        congrArg InterfaceHandle.mk h.length_interfaces
      rw [Boundary.perform, hi]
      exact .ok _ (h.create hr)
  | constructViaFactory =>
      have hi : b.createInterface.1 = r.newInterface :=
        congrArg InterfaceHandle.mk h.length_interfaces
      have hd : b.constructViaFactory.1 = r.newDelegate :=
        congrArg DelegateHandle.mk h.length_delegates
      have hjoin := (h.create hr).join hr.create hr.companion?_newInterface .delegate
      rw [Boundary.perform, hd]
      exact .ok _ (hi ▸ hjoin)
  | adopt i adoption => exact (h.adopt hr i adoption).map _
  | materialize i => exact (h.materialize hr i).map _
  | destroyDelegate d => exact (h.destroyDelegate hr d).map _
  | destroyInterface i => exact (h.destroyInterface hr i).map _

/-! ### Runs -/

/-- An operation that is not allowed changes nothing on either side. -/
theorem step (h : Represents b r) (hr : r.WellFormed)
    (op : Operation) : Represents (b.step op) (r.step op) := by
  have hsim := h.perform hr op
  unfold Boundary.step Roster.step
  generalize b.perform op = x, r.perform op = y at hsim
  cases hsim with
  | error e => exact h
  | ok a h' => exact h'

/-- What is represented after more operations. -/
theorem foldl (h : Represents b r) (hr : r.WellFormed) (ops : List Operation) :
    Represents (ops.foldl Boundary.step b) (ops.foldl Roster.step r) := by
  induction ops generalizing b r with
  | nil => exact h
  | cons op rest ih => exact ih (h.step hr op) (hr.step op)

/-- **Every run.**  The boundary it reaches represents the roster it reaches. -/
theorem run (ops : List Operation) : Represents (Boundary.run ops) (Roster.run ops) :=
  empty.foldl .empty ops

end Represents

end Roster

end LoadBridge
