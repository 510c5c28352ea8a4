/-!
# Ownership — The boundary

A library object, seen through its Interface, and a host object, its Delegate, form a linked pair.
One of the two owns the other.  A Delegate made through a factory owns its Interface object; one
made on demand is owned by it.  Destroying an object ends its link, and frees the other object if
the destroyed one owned it.
-/

namespace LoadBridge

/-- A library object. -/
structure InterfaceHandle where
  index : Nat
  deriving DecidableEq, Inhabited

/-- A host object. -/
structure DelegateHandle where
  index : Nat
  deriving DecidableEq, Inhabited

def InterfaceHandle.text (h : InterfaceHandle) : String := "I" ++ h.index.repr

def DelegateHandle.text (h : DelegateHandle) : String := "D" ++ h.index.repr

/-- Which end of a pair frees the other. -/
inductive Ownership where
  /-- The link has ended. -/
  | unlinked
  /-- The Interface object frees its Delegate. -/
  | interfaceSide
  /-- The Delegate frees its Interface object. -/
  | delegateSide
  deriving DecidableEq, Inhabited

/-- How a Delegate takes an Interface object that exists already. -/
inductive Adoption where
  /-- The object owns the Delegate. -/
  | borrowed
  /-- The Delegate owns the object. -/
  | owned
  deriving DecidableEq, Inhabited

/-- Who owns whom after an adoption. -/
def Adoption.ownership : Adoption → Ownership
  | .borrowed => .interfaceSide
  | .owned => .delegateSide

/-- An Interface object and a Delegate that are, or were, linked. -/
structure LinkedPair where
  interface : InterfaceHandle
  delegate : DelegateHandle
  ownership : Ownership
  deriving DecidableEq, Inhabited

namespace LinkedPair

/-- The flag on the Interface side: it frees the Delegate. -/
def deletesDelegate (p : LinkedPair) : Bool := p.ownership == .interfaceSide

/-- The flag on the Delegate side: it frees the Interface object. -/
def ownsInterface (p : LinkedPair) : Bool := p.ownership == .delegateSide

def isLinked (p : LinkedPair) : Bool := p.ownership != .unlinked

end LinkedPair

/-- An object that was freed. -/
inductive Freed where
  | interface (handle : InterfaceHandle)
  | delegate (handle : DelegateHandle)
  deriving DecidableEq, Inhabited

def Freed.text : Freed → String
  | .interface h => h.text
  | .delegate h => h.text

/-- A use of the boundary that its rules do not allow. -/
inductive ProtocolError where
  | unknownInterface (handle : InterfaceHandle)
  | unknownDelegate (handle : DelegateHandle)
  | interfaceDestroyed (handle : InterfaceHandle)
  | delegateDestroyed (handle : DelegateHandle)
  | notLinked (handle : DelegateHandle)
  | alreadyLinked (handle : InterfaceHandle)
  deriving DecidableEq

def ProtocolError.message : ProtocolError → String
  | .unknownInterface h => "no interface object " ++ h.text
  | .unknownDelegate h => "no delegate object " ++ h.text
  | .interfaceDestroyed h => "interface object " ++ h.text ++ " was already destroyed"
  | .delegateDestroyed h => "delegate object " ++ h.text ++ " was already destroyed"
  | .notLinked h => "delegate object " ++ h.text ++ " is not linked"
  | .alreadyLinked h => "interface object " ++ h.text ++ " already has a companion"

/-- What is known of one object: whether it is alive, and the number of the pair it is in. -/
structure Slot where
  alive : Bool := true
  pair : Option Nat := none
  deriving DecidableEq, Inhabited

/-- All objects on both sides, all pairs that were ever linked, and the objects freed so far. -/
structure Boundary where
  interfaces : List Slot := []
  delegates : List Slot := []
  pairs : List LinkedPair := []
  freed : List Freed := []
  deriving DecidableEq, Inhabited

namespace Boundary

/-- The boundary before anything is created. -/
def empty : Boundary := {}

/-! ### Slots -/

/-- The slot of an Interface object that is alive. -/
def interfaceSlot (b : Boundary) (h : InterfaceHandle) : Except ProtocolError Slot :=
  match b.interfaces[h.index]? with
  | none => .error (.unknownInterface h)
  | some slot => if slot.alive then .ok slot else .error (.interfaceDestroyed h)

/-- The slot of a Delegate that is alive. -/
def delegateSlot (b : Boundary) (h : DelegateHandle) : Except ProtocolError Slot :=
  match b.delegates[h.index]? with
  | none => .error (.unknownDelegate h)
  | some slot => if slot.alive then .ok slot else .error (.delegateDestroyed h)

/-- The pair that a slot is in. -/
def pairIn (b : Boundary) (slot : Slot) : Option LinkedPair := slot.pair.bind (b.pairs[·]?)

/-- Makes a Delegate and links it with an Interface object. -/
def link (b : Boundary) (i : InterfaceHandle) (ownership : Ownership) : DelegateHandle × Boundary :=
  let d : DelegateHandle := ⟨b.delegates.length⟩
  let n := b.pairs.length
  (d, { b with
    interfaces := b.interfaces.modify i.index fun slot => { slot with pair := some n }
    delegates := b.delegates ++ [{ pair := some n }]
    pairs := b.pairs ++ [⟨i, d, ownership⟩] })

/-- Ends the link of the `n`th pair `p`. -/
def unlink (b : Boundary) (n : Nat) (p : LinkedPair) : Boundary :=
  { b with
    interfaces := b.interfaces.modify p.interface.index fun slot => { slot with pair := none }
    delegates := b.delegates.modify p.delegate.index fun slot => { slot with pair := none }
    pairs := b.pairs.set n { p with ownership := .unlinked } }

/-- Marks an Interface object as dead. -/
def killInterface (b : Boundary) (h : InterfaceHandle) : Boundary :=
  { b with interfaces := b.interfaces.modify h.index fun slot => { slot with alive := false } }

/-- Marks a Delegate as dead. -/
def killDelegate (b : Boundary) (h : DelegateHandle) : Boundary :=
  { b with delegates := b.delegates.modify h.index fun slot => { slot with alive := false } }

/-- Notes what a destruction freed. -/
def record (b : Boundary) (freed : List Freed) : List Freed × Boundary :=
  (freed, { b with freed := b.freed ++ freed })

/-! ### Operations -/

/-- The library makes an object. -/
def createInterface (b : Boundary) : InterfaceHandle × Boundary :=
  (⟨b.interfaces.length⟩, { b with interfaces := b.interfaces ++ [{}] })

/-- The host makes a Delegate through a factory, which makes the library object it owns. -/
def constructViaFactory (b : Boundary) : DelegateHandle × Boundary :=
  let (i, b) := b.createInterface
  b.link i .delegateSide

/-- A Delegate is made for an Interface object that has none. -/
def adopt (b : Boundary) (i : InterfaceHandle) (adoption : Adoption) :
    Except ProtocolError (DelegateHandle × Boundary) := do
  let slot ← b.interfaceSlot i
  if slot.pair.isSome then .error (.alreadyLinked i) else .ok (b.link i adoption.ownership)

/-- The companion of an Interface object, made on first use. -/
def materialize (b : Boundary) (i : InterfaceHandle) :
    Except ProtocolError (DelegateHandle × Boundary) := do
  let slot ← b.interfaceSlot i
  match b.pairIn slot with
  | some p => .ok (p.delegate, b)
  | none => b.adopt i .borrowed

/-- Destroys a Delegate, and the Interface object it owns. -/
def destroyDelegate (b : Boundary) (d : DelegateHandle) :
    Except ProtocolError (List Freed × Boundary) := do
  let slot ← b.delegateSlot d
  let b := b.killDelegate d
  match slot.pair, b.pairIn slot with
  | some n, some p =>
    let b := b.unlink n p
    if p.ownership = .delegateSide then
      .ok ((b.killInterface p.interface).record [.delegate d, .interface p.interface])
    else .ok (b.record [.delegate d])
  | _, _ => .ok (b.record [.delegate d])

/-- Destroys an Interface object, and the Delegate it owns. -/
def destroyInterface (b : Boundary) (i : InterfaceHandle) :
    Except ProtocolError (List Freed × Boundary) := do
  let slot ← b.interfaceSlot i
  let b := b.killInterface i
  match slot.pair, b.pairIn slot with
  | some n, some p =>
    let b := b.unlink n p
    if p.ownership = .interfaceSide then
      .ok ((b.killDelegate p.delegate).record [.interface i, .delegate p.delegate])
    else .ok (b.record [.interface i])
  | _, _ => .ok (b.record [.interface i])

/-! ### Questions -/

/-- The Interface object behind a Delegate. -/
def interfaceOf (b : Boundary) (d : DelegateHandle) : Except ProtocolError InterfaceHandle := do
  let slot ← b.delegateSlot d
  match b.pairIn slot with
  | some p => .ok p.interface
  | none => .error (.notLinked d)

/-- The companion of an Interface object, if it has one. -/
def companion (b : Boundary) (i : InterfaceHandle) : Except ProtocolError (Option DelegateHandle) := do
  let slot ← b.interfaceSlot i
  pure ((b.pairIn slot).map LinkedPair.delegate)

/-- The pair a Delegate is in, if it is in one. -/
def pairOf (b : Boundary) (d : DelegateHandle) : Option LinkedPair :=
  b.delegates[d.index]?.bind b.pairIn

def isInterfaceAlive (b : Boundary) (h : InterfaceHandle) : Bool :=
  (b.interfaces[h.index]?.map Slot.alive).getD false

def isDelegateAlive (b : Boundary) (h : DelegateHandle) : Bool :=
  (b.delegates[h.index]?.map Slot.alive).getD false

/-- The Interface objects that are alive, oldest first. -/
def liveInterfaces (b : Boundary) : List InterfaceHandle :=
  ((List.range b.interfaces.length).map InterfaceHandle.mk).filter b.isInterfaceAlive

/-- The Delegates that are alive, oldest first. -/
def liveDelegates (b : Boundary) : List DelegateHandle :=
  ((List.range b.delegates.length).map DelegateHandle.mk).filter b.isDelegateAlive

/-- The pairs that are linked, oldest first. -/
def linkedPairs (b : Boundary) : List LinkedPair := b.pairs.filter LinkedPair.isLinked

end Boundary

end LoadBridge
