import Mathlib.Data.Finset.Basic
import Mathlib.Logic.Function.Basic
import LoadBridge.Proofs.Outcome
import LoadBridge.Proofs.Ownership.Run

/-!
# Ownership — The roster

The boundary without slots and pair numbers: how many objects of either kind were made, which are
alive, which Delegate is linked with which Interface object and who owns whom, and what was freed.
Every operation and every question of a boundary has its counterpart here.

A Delegate has at most one link by construction.  When no Interface object is in two (`Paired`), an
object of either kind finds its pair: `companion?_eq_some_iff` and `pairWith_eq_some_iff`.
-/

namespace LoadBridge

/-- Which object of a linked pair frees the other. -/
inductive Owner where
  | interface
  | delegate
  deriving DecidableEq

def Owner.ownership : Owner → Ownership
  | .interface => .interfaceSide
  | .delegate => .delegateSide

/-- Who owns whom after an adoption. -/
def Adoption.owner : Adoption → Owner
  | .borrowed => .interface
  | .owned => .delegate

/-- The error of using an object that was never made. -/
def Freed.unknown : Freed → ProtocolError
  | .interface i => .unknownInterface i
  | .delegate d => .unknownDelegate d

/-- The error of using an object that is dead. -/
def Freed.destroyed : Freed → ProtocolError
  | .interface i => .interfaceDestroyed i
  | .delegate d => .delegateDestroyed d

/-- What goes with `x` when `x` leaves the pair `p`: its partner, if `x` owns it. -/
def LinkedPair.dependents (p : LinkedPair) : Freed → List Freed
  | .interface _ => if p.deletesDelegate then [.delegate p.delegate] else []
  | .delegate _ => if p.ownsInterface then [.interface p.interface] else []

namespace LinkedPair

/-- What goes with an object of a pair is the other object of the pair. -/
theorem end_of_mem_dependents {p : LinkedPair} {x y : Freed} (hy : y ∈ p.dependents x) :
    y = .interface p.interface ∨ y = .delegate p.delegate := by
  cases x <;> simp only [dependents] at hy <;> split at hy <;> simp_all

theorem nodup_dependents {p : LinkedPair} {x : Freed} : (x :: p.dependents x).Nodup := by
  cases x <;> simp only [dependents] <;> split <;> simp

end LinkedPair

/-- The objects that were made, those that are alive, the links between them, and the objects that
were freed, in order. -/
@[ext]
structure Roster where
  interfaceCount : Nat := 0
  delegateCount : Nat := 0
  live : Finset Freed := ∅
  /-- The Interface object a Delegate is linked with, and which of the two owns the other. -/
  link : DelegateHandle → Option (InterfaceHandle × Owner) := fun _ => none
  freed : List Freed := []

namespace Roster

def newInterface (r : Roster) : InterfaceHandle := ⟨r.interfaceCount⟩

def newDelegate (r : Roster) : DelegateHandle := ⟨r.delegateCount⟩

/-- The Interface objects that were made, oldest first. -/
def interfaces (r : Roster) : List InterfaceHandle := (List.range r.interfaceCount).map .mk

/-- The Delegates that were made, oldest first. -/
def delegates (r : Roster) : List DelegateHandle := (List.range r.delegateCount).map .mk

/-- `x` was made. -/
def Created (r : Roster) : Freed → Prop
  | .interface i => i.index < r.interfaceCount
  | .delegate d => d.index < r.delegateCount

instance (r : Roster) : DecidablePred r.Created
  | .interface _ => inferInstanceAs (Decidable (_ < _))
  | .delegate _ => inferInstanceAs (Decidable (_ < _))

/-- Whether `x` may be used. -/
def check (r : Roster) (x : Freed) : Except ProtocolError Unit :=
  if r.Created x then if x ∈ r.live then .ok () else .error x.destroyed
  else .error x.unknown

/-! ### Questions -/

/-- The Delegate that an Interface object is linked with. -/
def companion? (r : Roster) (i : InterfaceHandle) : Option DelegateHandle :=
  r.delegates.find? fun d => (r.link d).map Prod.fst = some i

/-- The pair that a Delegate is in. -/
def pairOf (r : Roster) (d : DelegateHandle) : Option LinkedPair :=
  (r.link d).map fun (i, owner) => ⟨i, d, owner.ownership⟩

/-- The pair that an object of either kind is in. -/
def pairWith (r : Roster) : Freed → Option LinkedPair
  | .interface i => (r.companion? i).bind r.pairOf
  | .delegate d => r.pairOf d

def companion (r : Roster) (i : InterfaceHandle) :
    Except ProtocolError (Option DelegateHandle) := do
  r.check (.interface i)
  .ok (r.companion? i)

def interfaceOf (r : Roster) (d : DelegateHandle) : Except ProtocolError InterfaceHandle := do
  r.check (.delegate d)
  match r.link d with
  | some (i, _) => .ok i
  | none => .error (.notLinked d)

def liveInterfaces (r : Roster) : List InterfaceHandle :=
  r.interfaces.filter fun i => .interface i ∈ r.live

def liveDelegates (r : Roster) : List DelegateHandle :=
  r.delegates.filter fun d => .delegate d ∈ r.live

/-- The pairs that are linked, in the order in which their Delegates were made. -/
def linkedPairs (r : Roster) : List LinkedPair := r.delegates.filterMap r.pairOf

/-! ### Operations -/

/-- A new Interface object. -/
def create (r : Roster) : Roster :=
  { r with
    interfaceCount := r.interfaceCount + 1
    live := insert (.interface r.newInterface) r.live }

/-- A new Delegate, linked with `i`. -/
def join (r : Roster) (i : InterfaceHandle) (owner : Owner) : Roster :=
  { r with
    delegateCount := r.delegateCount + 1
    live := insert (.delegate r.newDelegate) r.live
    link := Function.update r.link r.newDelegate (some (i, owner)) }

/-- The link of `d` ends. -/
def part (r : Roster) (d : DelegateHandle) : Roster :=
  { r with link := Function.update r.link d none }

/-- The objects `gone` are freed in this order. -/
def release (r : Roster) (gone : List Freed) : Roster :=
  { r with live := r.live \ gone.toFinset, freed := r.freed ++ gone }

/-- Destroys an object: its link ends, it is freed, and then its partner if it owned it. -/
def destroy (r : Roster) (x : Freed) : Except ProtocolError (List Freed × Roster) := do
  r.check x
  match r.pairWith x with
  | none => .ok ([x], r.release [x])
  | some p => .ok (x :: p.dependents x, (r.part p.delegate).release (x :: p.dependents x))

/-- Links an Interface object that has no companion with a new Delegate. -/
def adopt (r : Roster) (i : InterfaceHandle) (adoption : Adoption) :
    Except ProtocolError (DelegateHandle × Roster) := do
  r.check (.interface i)
  if (r.companion? i).isSome then .error (.alreadyLinked i)
  else .ok (r.newDelegate, r.join i adoption.owner)

/-- The companion of an Interface object, which owns it if it is new. -/
def materialize (r : Roster) (i : InterfaceHandle) :
    Except ProtocolError (DelegateHandle × Roster) := do
  r.check (.interface i)
  match r.companion? i with
  | some d => .ok (d, r)
  | none => .ok (r.newDelegate, r.join i .interface)

/-- Performs an operation. -/
def perform (r : Roster) : Operation → Except ProtocolError (Reply × Roster)
  | .createInterface => .ok (.interface r.newInterface, r.create)
  | .constructViaFactory => .ok (.delegate r.newDelegate, r.create.join r.newInterface .delegate)
  | .adopt i adoption => (r.adopt i adoption).map (Prod.map .delegate id)
  | .materialize i => (r.materialize i).map (Prod.map .delegate id)
  | .destroyDelegate d => (r.destroy (.delegate d)).map (Prod.map .freed id)
  | .destroyInterface i => (r.destroy (.interface i)).map (Prod.map .freed id)

/-- Performs an operation, or passes over it if it is not allowed. -/
def step (r : Roster) (op : Operation) : Roster :=
  match r.perform op with
  | .ok (_, r') => r'
  | .error _ => r

/-- The roster after these operations. -/
def run (ops : List Operation) : Roster := ops.foldl step {}

variable {r : Roster}

@[simp] theorem mem_delegates {d : DelegateHandle} :
    d ∈ r.delegates ↔ d.index < r.delegateCount := by
  refine ⟨fun h => ?_, fun h => List.mem_map.2 ⟨d.index, List.mem_range.2 h, rfl⟩⟩
  obtain ⟨n, hn, rfl⟩ := List.mem_map.1 h
  exact List.mem_range.1 hn

@[simp] theorem mem_interfaces {i : InterfaceHandle} :
    i ∈ r.interfaces ↔ i.index < r.interfaceCount := by
  refine ⟨fun h => ?_, fun h => List.mem_map.2 ⟨i.index, List.mem_range.2 h, rfl⟩⟩
  obtain ⟨n, hn, rfl⟩ := List.mem_map.1 h
  exact List.mem_range.1 hn

theorem created_create {x : Freed} :
    r.create.Created x ↔ x = .interface r.newInterface ∨ r.Created x := by
  cases x with
  | interface i =>
      obtain ⟨n⟩ := i
      simp only [Created, create, newInterface, Freed.interface.injEq, InterfaceHandle.mk.injEq]
      omega
  | delegate d => simp [Created, create]

theorem created_join {i : InterfaceHandle} {o : Owner} {x : Freed} :
    (r.join i o).Created x ↔ x = .delegate r.newDelegate ∨ r.Created x := by
  cases x with
  | interface i => simp [Created, join]
  | delegate d =>
      obtain ⟨n⟩ := d
      simp only [Created, join, newDelegate, Freed.delegate.injEq, DelegateHandle.mk.injEq]
      omega

theorem mem_live_create {x : Freed} :
    x ∈ r.create.live ↔ x = .interface r.newInterface ∨ x ∈ r.live :=
  Finset.mem_insert

theorem mem_live_join {i : InterfaceHandle} {o : Owner} {x : Freed} :
    x ∈ (r.join i o).live ↔ x = .delegate r.newDelegate ∨ x ∈ r.live :=
  Finset.mem_insert

/-! ### The links of a roster -/

/-- Every link is that of a Delegate that was made, and no Interface object is in two links. -/
structure Paired (r : Roster) : Prop where
  lt_of_link : ∀ {d i o}, r.link d = some (i, o) → d.index < r.delegateCount
  link_injective : ∀ {d e i o o'}, r.link d = some (i, o) → r.link e = some (i, o') → d = e

theorem companion?_eq_some_iff (h : r.Paired) {i : InterfaceHandle}
    {d : DelegateHandle} : r.companion? i = some d ↔ ∃ o, r.link d = some (i, o) := by
  refine ⟨?_, ?_⟩
  · intro hd
    have hfst := List.find?_some hd
    simpa using hfst
  · rintro ⟨o, hd⟩
    cases hc : r.companion? i with
    | none =>
        have hno := List.find?_eq_none.1 hc d (mem_delegates.2 (h.lt_of_link hd))
        simp [hd] at hno
    | some e =>
        have hfst := List.find?_some hc
        obtain ⟨o', he⟩ : ∃ o', r.link e = some (i, o') := by simpa using hfst
        rw [h.link_injective he hd]

theorem companion?_eq_none_iff (h : r.Paired) {i : InterfaceHandle} :
    r.companion? i = none ↔ ∀ d o, r.link d ≠ some (i, o) := by
  simp only [Option.eq_none_iff_forall_ne_some, ne_eq, companion?_eq_some_iff h, not_exists]

theorem pairOf_eq_some_iff {d : DelegateHandle} {p : LinkedPair} :
    r.pairOf d = some p ↔
      ∃ o, r.link d = some (p.interface, o) ∧ p.delegate = d ∧ p.ownership = o.ownership := by
  rw [pairOf]
  refine ⟨?_, ?_⟩
  · intro h
    obtain ⟨⟨i, o⟩, hd, rfl⟩ := Option.map_eq_some_iff.1 h
    exact ⟨o, hd, rfl, rfl⟩
  · rintro ⟨o, hd, rfl, ho⟩
    obtain ⟨i, d, ownership⟩ := p
    obtain rfl : ownership = o.ownership := ho
    simp [hd]

/-- Both objects of a pair are in that pair. -/
theorem pairWith_eq_some_iff (h : r.Paired) {x : Freed} {p : LinkedPair} :
    r.pairWith x = some p ↔
      (x = .interface p.interface ∨ x = .delegate p.delegate) ∧ r.pairOf p.delegate = some p := by
  cases x with
  | interface i =>
      simp only [pairWith, Option.bind_eq_some_iff, companion?_eq_some_iff h]
      refine ⟨?_, ?_⟩
      · rintro ⟨d, ⟨o, hd⟩, hp⟩
        obtain ⟨o', hd', rfl, -⟩ := pairOf_eq_some_iff.1 hp
        obtain ⟨rfl, -⟩ := Prod.mk.inj (Option.some.inj (hd.symm.trans hd'))
        exact ⟨.inl rfl, hp⟩
      · rintro ⟨hx, hp⟩
        obtain ⟨o, hd, -, -⟩ := pairOf_eq_some_iff.1 hp
        obtain rfl : i = p.interface := by simpa using hx
        exact ⟨p.delegate, ⟨o, hd⟩, hp⟩
  | delegate d =>
      refine ⟨?_, ?_⟩
      · intro hp
        obtain ⟨o, -, rfl, -⟩ := pairOf_eq_some_iff.1 hp
        exact ⟨.inr rfl, hp⟩
      · rintro ⟨hx, hp⟩
        obtain rfl : d = p.delegate := by simpa using hx
        exact hp

theorem pairWith_eq_none_iff (h : r.Paired) {x : Freed} :
    r.pairWith x = none ↔
      ∀ d i o, r.link d = some (i, o) → x ≠ .delegate d ∧ x ≠ .interface i := by
  rw [Option.eq_none_iff_forall_ne_some]
  simp only [ne_eq, pairWith_eq_some_iff h]
  refine ⟨?_, ?_⟩
  · intro hn d i o hd
    have hp : r.pairOf d = some ⟨i, d, o.ownership⟩ := pairOf_eq_some_iff.2 ⟨o, hd, rfl, rfl⟩
    exact ⟨fun e => hn ⟨i, d, _⟩ ⟨.inr e, hp⟩, fun e => hn ⟨i, d, _⟩ ⟨.inl e, hp⟩⟩
  · rintro hn p ⟨hx, hp⟩
    obtain ⟨o, hd, -, -⟩ := pairOf_eq_some_iff.1 hp
    obtain ⟨hnd, hni⟩ := hn _ _ _ hd
    exact hx.elim hni hnd

theorem link_join (r : Roster) (i : InterfaceHandle) (o : Owner) (d : DelegateHandle) :
    (r.join i o).link d = if d = r.newDelegate then some (i, o) else r.link d :=
  Function.update_apply ..

theorem link_part (r : Roster) (d e : DelegateHandle) :
    (r.part d).link e = if e = d then none else r.link e :=
  Function.update_apply ..

theorem Paired.link_newDelegate (h : r.Paired) : r.link r.newDelegate = none := by
  rw [Option.eq_none_iff_forall_ne_some]
  rintro ⟨i, o⟩ hd
  exact absurd (h.lt_of_link hd) (lt_irrefl _)

theorem Paired.join (h : r.Paired) {i : InterfaceHandle}
    (hi : r.companion? i = none) (o : Owner) : (r.join i o).Paired where
  lt_of_link {d j o'} hd := by
    rw [link_join] at hd
    split at hd
    · next hdn => exact hdn ▸ Nat.lt_succ_self _
    · exact Nat.lt_succ_of_lt (h.lt_of_link hd)
  link_injective {d e j o₁ o₂} hd he := by
    -- the new Delegate is the only one that is linked with `i`
    have hfree := (companion?_eq_none_iff h).1 hi
    rw [link_join] at hd he
    split at hd <;> split at he
    · next hdn hen => rw [hdn, hen]
    · cases hd; exact absurd he (hfree _ _)
    · cases he; exact absurd hd (hfree _ _)
    · exact h.link_injective hd he

/-- A link that is left was there before. -/
theorem link_of_link_part {d e : DelegateHandle} {l : InterfaceHandle × Owner}
    (he : (r.part d).link e = some l) : e ≠ d ∧ r.link e = some l := by
  rw [link_part] at he
  split at he
  · cases he
  · next hed => exact ⟨hed, he⟩

theorem Paired.part (h : r.Paired) (d : DelegateHandle) : (r.part d).Paired where
  lt_of_link he := h.lt_of_link (link_of_link_part he).2
  link_injective he hf := h.link_injective (link_of_link_part he).2 (link_of_link_part hf).2

/-- The companions after a new Delegate is linked with `i`. -/
theorem companion?_join (h : r.Paired) {i : InterfaceHandle}
    (hi : r.companion? i = none) (o : Owner) (j : InterfaceHandle) :
    (r.join i o).companion? j = if j = i then some r.newDelegate else r.companion? j := by
  have hnew := h.join hi o
  split
  · next hji =>
    rw [companion?_eq_some_iff hnew]
    exact ⟨o, by simp [link_join, hji]⟩
  · next hji =>
    ext d
    rw [companion?_eq_some_iff hnew, companion?_eq_some_iff h]
    by_cases hd : d = r.newDelegate
    · simp [link_join, hd, h.link_newDelegate, Ne.symm hji]
    · simp [link_join, hd]

/-- The companions after the link of `d` has ended. -/
theorem companion?_part (h : r.Paired) {d : DelegateHandle} {i : InterfaceHandle}
    {o : Owner} (hd : r.link d = some (i, o)) (j : InterfaceHandle) :
    (r.part d).companion? j = if j = i then none else r.companion? j := by
  have hnew := h.part d
  split
  · next hji =>
    rw [companion?_eq_none_iff hnew]
    intro e o' he
    obtain ⟨hed, he⟩ := link_of_link_part he
    exact hed (h.link_injective (hji ▸ he) hd)
  · next hji =>
    ext e
    rw [companion?_eq_some_iff hnew, companion?_eq_some_iff h]
    by_cases hed : e = d
    · simp [link_part, hed, hd, Ne.symm hji]
    · simp [link_part, hed]

end Roster

end LoadBridge
