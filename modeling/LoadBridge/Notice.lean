/-!
# Notices

Nothing is left out in silence: a class, function, member or parent that cannot be loaded leaves a
notice with the reason.
-/

namespace LoadBridge

/-- What a notice is about. -/
inductive NoticeKind where
  | classNotLoadable
  | functionNotLoadable
  | memberFunctionIgnored
  | memberVariableIgnored
  | parentClassIgnored
  | noFactoryFunctions
  | noPointerCopyAndAssignment
  | noInsertionPoint
  deriving DecidableEq, Inhabited

namespace NoticeKind

/-- The kinds, in order. -/
def all : List NoticeKind :=
  [.classNotLoadable, .functionNotLoadable, .memberFunctionIgnored, .memberVariableIgnored,
    .parentClassIgnored, .noFactoryFunctions, .noPointerCopyAndAssignment, .noInsertionPoint]

/-- The words of a kind. -/
def text : NoticeKind → String
  | .classNotLoadable => "class not loadable"
  | .functionNotLoadable => "function not loadable"
  | .memberFunctionIgnored => "member function ignored"
  | .memberVariableIgnored => "member variable ignored"
  | .parentClassIgnored => "parent class ignored"
  | .noFactoryFunctions => "no factory functions"
  | .noPointerCopyAndAssignment => "no pointer copy and assignment"
  | .noInsertionPoint => "no insertion point"

/-- A kind in written tables: its words joined by hyphens. -/
def label (k : NoticeKind) : String :=
  .ofList (k.text.toList.map fun c => if c = ' ' then '-' else c)

end NoticeKind

/-- One thing that was left out. -/
structure Notice where
  kind : NoticeKind
  /-- The name of what is left out. -/
  subject : String
  reason : String
  deriving DecidableEq, Inhabited

/-- The notice as one line. -/
def Notice.display (n : Notice) : String := n.kind.text ++ ": " ++ n.subject ++ " (" ++ n.reason ++ ")"

/-- The notices of one kind. -/
def noticesOf (kind : NoticeKind) (notices : List Notice) : List Notice :=
  notices.filter (fun n => n.kind == kind)

/-- Whether something left a notice of this kind. -/
def hasNotice (kind : NoticeKind) (subject : String) (notices : List Notice) : Bool :=
  (noticesOf kind notices).any (fun n => n.subject == subject)

end LoadBridge
