import LoadBridge.Name.Qualified

/-!
# Names — Affixes

Every loaded class gets two companions: an Interface and a Delegate, named by writing a configured
prefix before the short name.  Members that the library did not declare carry a configured suffix.
-/

namespace LoadBridge

/-- The texts that generated names are built from. -/
structure NameAffixes where
  interfacePrefix : String := "Abstract_"
  delegatePrefix : String := "Wrapper_"
  codeSuffix : String := "_BE"
  deriving DecidableEq, Inhabited

namespace NameAffixes

/-- A prefix as the name of a root class: its trailing underscores give way to `Base`. -/
def rootOf (mark : String) : String :=
  .ofList (mark.toList.reverse.dropWhile (· == '_')).reverse ++ "Base"

/-- The class at the root of all Interfaces. -/
def interfaceRoot (a : NameAffixes) : String := rootOf a.interfacePrefix

/-- The class at the root of all Delegates. -/
def delegateRoot (a : NameAffixes) : String := rootOf a.delegatePrefix

/-- The name of a generated member. -/
def suffixed (a : NameAffixes) (name : String) : String := name ++ a.codeSuffix

end NameAffixes

/-- The names of a loaded class and of its two companions. -/
structure GeneratedNames where
  target : QualifiedName
  interface : QualifiedName
  delegate : QualifiedName
  deriving DecidableEq, Inhabited

/-- The names of the companions of `target`. -/
def GeneratedNames.derive (a : NameAffixes) (target : QualifiedName) : GeneratedNames where
  target := target
  interface := target.marked a.interfacePrefix
  delegate := target.marked a.delegatePrefix

end LoadBridge
