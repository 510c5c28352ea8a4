import LoadBridge.Proofs.Ownership.Questions

/-!
# Ownership — One owner for every link

In every boundary that a run reaches, the three places in which a link is kept agree: the pair, the
slot of its Interface object and the slot of its Delegate (`Boundary.Consistent`).  Exactly one of
the two objects owns the other, no object is in two links, and no dead object is in one, so that
every number in a slot is that of a pair, and every handle in a linked pair is that of an object.
-/

namespace LoadBridge

namespace LinkedPair

theorem link?_of_isLinked {p : LinkedPair} (h : p.isLinked) :
    ∃ o : Owner, p.ownership = o.ownership ∧ p.link? = some (p.interface, o) := by
  obtain ⟨i, d, ownership⟩ := p
  cases ownership with
  | unlinked => cases h
  | interfaceSide => exact ⟨.interface, rfl, rfl⟩
  | delegateSide => exact ⟨.delegate, rfl, rfl⟩

theorem isLinked_of_owner {i : InterfaceHandle} {d : DelegateHandle} (o : Owner) :
    (⟨i, d, o.ownership⟩ : LinkedPair).isLinked := by
  cases o <;> rfl

/-- In a linked pair one object owns the other, and not the other way round. -/
theorem deletesDelegate_ne_ownsInterface {p : LinkedPair} (h : p.isLinked) :
    p.deletesDelegate ≠ p.ownsInterface := by
  obtain ⟨i, d, ownership⟩ := p
  cases ownership with
  | unlinked => cases h
  | interfaceSide => exact Bool.noConfusion
  | delegateSide => exact Bool.noConfusion

end LinkedPair

/-- The pairs, the slots of the Interface objects and the slots of the Delegates agree. -/
structure Boundary.Consistent (b : Boundary) : Prop where
  /-- The objects of a linked pair are alive, exactly one owns the other, and each finds the
  other. -/
  linked : ∀ p ∈ b.pairs, p.isLinked →
    b.isInterfaceAlive p.interface ∧ b.isDelegateAlive p.delegate ∧
    p.deletesDelegate ≠ p.ownsInterface ∧
    b.companion p.interface = .ok (some p.delegate) ∧ b.interfaceOf p.delegate = .ok p.interface
  /-- The pair in the slot of a live Interface object is linked and names that object. -/
  live_interface : ∀ (i : InterfaceHandle) slot (n : Nat), b.interfaces[i.index]? = some slot →
    slot.alive → slot.pair = some n → ∃ p, b.pairs[n]? = some p ∧ p.isLinked ∧ p.interface = i
  /-- The pair in the slot of a live Delegate is linked and names that Delegate. -/
  live_delegate : ∀ (d : DelegateHandle) slot (n : Nat), b.delegates[d.index]? = some slot →
    slot.alive → slot.pair = some n → ∃ p, b.pairs[n]? = some p ∧ p.isLinked ∧ p.delegate = d
  dead_interface : ∀ (i : InterfaceHandle) slot, b.interfaces[i.index]? = some slot →
    slot.alive = false → slot.pair = none
  dead_delegate : ∀ (d : DelegateHandle) slot, b.delegates[d.index]? = some slot →
    slot.alive = false → slot.pair = none
  /-- No object is in two linked pairs. -/
  distinct : ∀ (m n : Nat) (p q : LinkedPair), b.pairs[m]? = some p → b.pairs[n]? = some q →
    p.isLinked → q.isLinked → p.interface = q.interface ∨ p.delegate = q.delegate → m = n
  /-- The numbers in slots are numbers of pairs. -/
  slot_lt : ∀ slot ∈ b.interfaces ++ b.delegates, ∀ n, slot.pair = some n → n < b.pairs.length
  /-- The handles in linked pairs are handles of objects. -/
  pair_lt : ∀ p ∈ b.pairs, p.isLinked →
    p.interface.index < b.interfaces.length ∧ p.delegate.index < b.delegates.length

namespace Roster.Represents

variable {b : Boundary} {r : Roster}

/-- The `n`th pair is that of the `n`th Delegate and says what the roster says of it. -/
theorem of_getElem?_pairs (h : Represents b r) {n : Nat} {p : LinkedPair}
    (hp : b.pairs[n]? = some p) : p.delegate = ⟨n⟩ ∧ r.link p.delegate = p.link? := by
  have hget := congrArg (·[n]?) h.pairs
  have hd := getElem?_map_delegates r (fun d => (d, r.link d)) ⟨n⟩
  simp only [List.getElem?_map, hp, Option.map_some] at hget hd
  rw [hd] at hget
  split at hget
  · obtain ⟨hdel, hlink⟩ := Prod.mk.inj (Option.some.inj hget)
    exact ⟨hdel, by rw [hdel, hlink]⟩
  · cases hget

theorem link_of_linked (h : Represents b r) {p : LinkedPair} (hp : p ∈ b.pairs)
    (hl : p.isLinked) : ∃ o : Owner, p.ownership = o.ownership ∧
      r.link p.delegate = some (p.interface, o) := by
  obtain ⟨n, hn⟩ := List.getElem?_of_mem hp
  obtain ⟨o, ho, hlink⟩ := LinkedPair.link?_of_isLinked hl
  exact ⟨o, ho, (h.of_getElem?_pairs hn).2.trans hlink⟩

theorem slot_of_interface (h : Represents b r) {i : InterfaceHandle} {slot : Slot}
    (hs : b.interfaces[i.index]? = some slot) : slot = r.interfaceSlot i := by
  rw [h.interfaces, getElem?_map_interfaces] at hs
  split at hs
  · exact (Option.some.inj hs).symm
  · cases hs

theorem slot_of_delegate (h : Represents b r) {d : DelegateHandle} {slot : Slot}
    (hs : b.delegates[d.index]? = some slot) : slot = r.delegateSlot d := by
  rw [h.delegates, getElem?_map_delegates] at hs
  split at hs
  · exact (Option.some.inj hs).symm
  · cases hs

/-- The number in the slot of an Interface object is that of a linked pair of that object. -/
theorem pair_of_interfaceSlot (h : Represents b r) (hr : r.WellFormed) {i : InterfaceHandle}
    {n : Nat} (hn : (r.interfaceSlot i).pair = some n) :
    ∃ p, b.pairs[n]? = some p ∧ p.isLinked ∧ p.interface = i := by
  obtain ⟨d, hc, rfl⟩ := Option.map_eq_some_iff.1 hn
  obtain ⟨o, hd⟩ := (companion?_eq_some_iff hr.paired).1 hc
  exact ⟨_, h.getElem?_pairs_of_link hr.paired hd, LinkedPair.isLinked_of_owner o, rfl⟩

theorem pair_of_delegateSlot (h : Represents b r) (hr : r.WellFormed) {d : DelegateHandle}
    {n : Nat} (hn : (r.delegateSlot d).pair = some n) :
    ∃ p, b.pairs[n]? = some p ∧ p.isLinked ∧ p.delegate = d := by
  obtain ⟨⟨i, o⟩, hd, rfl⟩ := Option.map_eq_some_iff.1 hn
  exact ⟨_, h.getElem?_pairs_of_link hr.paired hd, LinkedPair.isLinked_of_owner o, rfl⟩

theorem linked_alive (h : Represents b r) (hr : r.WellFormed) {p : LinkedPair} (hp : p ∈ b.pairs)
    (hl : p.isLinked) : b.isInterfaceAlive p.interface ∧ b.isDelegateAlive p.delegate := by
  obtain ⟨o, -, hlink⟩ := h.link_of_linked hp hl
  obtain ⟨hd, hi⟩ := hr.live_of_link hlink
  rw [h.isInterfaceAlive hr, h.isDelegateAlive hr]
  exact ⟨decide_eq_true hi, decide_eq_true hd⟩

/-- Either object of a linked pair finds the other. -/
theorem linked_finds (h : Represents b r) (hr : r.WellFormed) {p : LinkedPair} (hp : p ∈ b.pairs)
    (hl : p.isLinked) : b.companion p.interface = .ok (some p.delegate) ∧
      b.interfaceOf p.delegate = .ok p.interface := by
  obtain ⟨o, -, hlink⟩ := h.link_of_linked hp hl
  obtain ⟨hd, hi⟩ := hr.live_of_link hlink
  rw [h.companion hr, h.interfaceOf hr]
  rw [Roster.companion, Roster.interfaceOf, hr.check_eq_ok_iff.2 hi, hr.check_eq_ok_iff.2 hd, hlink,
    (companion?_eq_some_iff hr.paired).2 ⟨o, hlink⟩]
  exact ⟨rfl, rfl⟩

/-- Two linked pairs with an object in common are one pair. -/
theorem linked_distinct (h : Represents b r) (hr : r.WellFormed) {m n : Nat} {p q : LinkedPair}
    (hp : b.pairs[m]? = some p) (hq : b.pairs[n]? = some q) (hlp : p.isLinked) (hlq : q.isLinked)
    (hshared : p.interface = q.interface ∨ p.delegate = q.delegate) : m = n := by
  obtain ⟨o, -, hlinkp⟩ := h.link_of_linked (List.mem_of_getElem? hp) hlp
  obtain ⟨o', -, hlinkq⟩ := h.link_of_linked (List.mem_of_getElem? hq) hlq
  have hd : p.delegate = q.delegate :=
    hshared.elim (fun hi => hr.link_injective (hi ▸ hlinkp) hlinkq) id
  have hmn : (⟨m⟩ : DelegateHandle) = ⟨n⟩ :=
    (h.of_getElem?_pairs hp).1 ▸ (h.of_getElem?_pairs hq).1 ▸ hd
  exact congrArg DelegateHandle.index hmn

theorem slot_lt (h : Represents b r) (hr : r.WellFormed) {slot : Slot}
    (hs : slot ∈ b.interfaces ++ b.delegates) {n : Nat} (hn : slot.pair = some n) :
    n < b.pairs.length := by
  rw [h.interfaces, h.delegates, List.mem_append, List.mem_map, List.mem_map] at hs
  rcases hs with ⟨i, -, rfl⟩ | ⟨d, -, rfl⟩
  · obtain ⟨p, hp, -⟩ := h.pair_of_interfaceSlot hr hn
    exact (List.getElem?_eq_some_iff.1 hp).1
  · obtain ⟨p, hp, -⟩ := h.pair_of_delegateSlot hr hn
    exact (List.getElem?_eq_some_iff.1 hp).1

theorem consistent (h : Represents b r) (hr : r.WellFormed) : b.Consistent where
  linked p hp hl :=
    ⟨(h.linked_alive hr hp hl).1, (h.linked_alive hr hp hl).2,
      LinkedPair.deletesDelegate_ne_ownsInterface hl, h.linked_finds hr hp hl⟩
  live_interface i slot n hs _ hn := h.pair_of_interfaceSlot hr (h.slot_of_interface hs ▸ hn)
  live_delegate d slot n hs _ hn := h.pair_of_delegateSlot hr (h.slot_of_delegate hs ▸ hn)
  dead_interface i slot hs hdead := by
    obtain rfl := h.slot_of_interface hs
    simpa [Roster.interfaceSlot] using hr.companion?_of_not_live (of_decide_eq_false hdead)
  dead_delegate d slot hs hdead := by
    obtain rfl := h.slot_of_delegate hs
    simpa [Roster.delegateSlot] using hr.link_of_not_live (of_decide_eq_false hdead)
  distinct m n p q hp hq hlp hlq hshared := h.linked_distinct hr hp hq hlp hlq hshared
  slot_lt slot hs n hn := h.slot_lt hr hs hn
  pair_lt p hp hl := by
    obtain ⟨o, -, hlink⟩ := h.link_of_linked hp hl
    obtain ⟨hd, hi⟩ := hr.live_of_link hlink
    rw [h.length_interfaces, h.length_delegates]
    exact ⟨hr.created_of_live hi, hr.created_of_live hd⟩

end Roster.Represents

/-- **Single ownership.**  After any run the places in which links are kept agree. -/
theorem Boundary.consistent_run (ops : List Operation) : (run ops).Consistent :=
  (Roster.Represents.run ops).consistent (.run ops)

end LoadBridge
