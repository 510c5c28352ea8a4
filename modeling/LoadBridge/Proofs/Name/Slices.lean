import LoadBridge.Name.Affixes
import LoadBridge.Proofs.Name.Key
import LoadBridge.Proofs.Text.Slices
import LoadBridge.Selector

/-!
# Names — Names are cut where they can be

A name is taken apart at the offsets of brackets: in front of its template bracket, and a selector
at its parentheses.  Here each of these readings is done with slices that may fail, in the order in
which offsets are found.  None does, and each reads what its model reads: a bracket is one byte
wide, so the text behind it starts one byte behind its offset.
-/

namespace LoadBridge

open Text
open String (utf8Len)

namespace Name

/-- `splitTemplate` with slices that may fail. -/
def splitTemplate? (s : String) : Option (String × List String) :=
  let cs := s.toList
  match find? '<' cs with
  | none => some (s, [])
  | some opening => do
    let short ← slice? cs 0 opening
    let afterOpen ← slice? cs (opening + 1) (utf8Len cs)
    some (.ofList (trimEnd short),
      (templateArguments (bracketInside afterOpen)).map .ofList)

/-- **No slice of a name fails**: the template bracket is found where it can be cut off. -/
theorem splitTemplate?_eq (s : String) : splitTemplate? s = some (splitTemplate s) := by
  rw [splitTemplate?, splitTemplate]
  rcases find?_cases '<' s.toList with ⟨hdrop, hfind⟩ | ⟨after, hdrop, hsplit, hfind⟩
  · rw [hfind, hdrop]
  · have hbehind := slice?_end (hsplit.trans (List.append_cons ..))
    rw [utf8Len_concat (by decide)] at hbehind
    rw [hfind, hdrop]
    dsimp only
    rw [slice?_start hsplit, hbehind]
    rfl

/-- A name starts with its short name. -/
theorem splitTemplate_isPrefix (s : String) : (splitTemplate s).1.toList <+: s.toList := by
  rw [splitTemplate]
  split
  · exact List.prefix_refl _
  · rw [String.toList_ofList, trimEnd_eq_rdropWhile]
    exact (List.rdropWhile_prefix _ _).trans (List.takeWhile_prefix _)

end Name

namespace QualifiedName

/-- `marked`, with the template bracket cut off and put on again. -/
def marked? (n : QualifiedName) (mark : String) : Option QualifiedName := do
  let parts ← Name.splitTemplate? n.name
  let bracket ← slice? n.name.toList (utf8Len parts.1.toList) (utf8Len n.name.toList)
  some { n with name := mark ++ parts.1 ++ .ofList bracket }

/-- **The bracket of a name is cut off behind the short name**, with the blanks between them. -/
theorem marked?_eq (n : QualifiedName) (mark : String) : n.marked? mark = some (n.marked mark) := by
  obtain ⟨bracket, hbracket⟩ := Name.splitTemplate_isPrefix n.name
  have hname : (Name.splitTemplate n.name).1 ++ .ofList bracket = n.name := by
    rw [← String.toList_inj, String.toList_append, String.toList_ofList, hbracket]
  rw [marked?, Name.splitTemplate?_eq, Option.bind_eq_bind, Option.bind_some,
    slice?_end hbracket.symm, Option.bind_eq_bind, Option.bind_some, String.append_assoc, hname]
  rfl

end QualifiedName

/-- `derive`, with names that are cut. -/
def GeneratedNames.derive? (a : NameAffixes) (target : QualifiedName) : Option GeneratedNames := do
  let interface ← target.marked? a.interfacePrefix
  let delegate ← target.marked? a.delegatePrefix
  some ⟨target, interface, delegate⟩

theorem GeneratedNames.derive?_eq (a : NameAffixes) (target : QualifiedName) :
    derive? a target = some (derive a target) := by
  rw [derive?, QualifiedName.marked?_eq, QualifiedName.marked?_eq]
  rfl

/-! ### Selectors -/

namespace Selector

/-- `ofName`, with slices that may fail. -/
def ofName? (name : List Char) (args : Option (List String)) :
    Option (Except SelectorFault Selector) :=
  if name.isEmpty then some (.error .nameless)
  else do
    let parts ← Name.splitTemplate? (.ofList name)
    if isWord parts.1.toList then some (.ok ⟨.ofList (Name.keyChars name), args⟩)
    else some (.error .severalWords)

/-- `ofChars`, with slices that may fail. -/
def ofChars? (cs : List Char) : Option (Except SelectorFault Selector) :=
  if cs.isEmpty then some (.error .empty)
  else
    match find? '(' cs with
    | none => ofName? cs none
    | some opening =>
      if cs.getLast? = some ')' then do
        let closing ← (utf8Len cs).psub 1
        let inner ← slice? cs (opening + 1) closing
        let name ← slice? cs 0 opening
        match argumentKeys (trim inner) with
        | .error fault => some (.error fault)
        | .ok args => ofName? (trim name) (some args)
      else some (.error .unclosed)

/-- `parse`, with slices that may fail. -/
def parse? (text : String) : Option (Except SelectorError Selector) :=
  (ofChars? (trim text.toList)).map fun result => result.mapError fun fault => ⟨text, fault⟩

theorem ofName?_eq (name : List Char) (args : Option (List String)) :
    ofName? name args = some (ofName name args) := by
  rw [ofName?, ofName, Name.splitTemplate?_eq]
  simp only [Option.bind_eq_bind, Option.bind_some]
  split
  · rfl
  split <;> rfl

/-- What is behind a parenthesis ends in a closing one if the whole text does. -/
theorem getLast?_eq_closing_iff {cs before after : List Char} (h : cs = before ++ '(' :: after) :
    cs.getLast? = some ')' ↔ after.getLast? = some ')' := by
  rw [h, List.getLast?_append_of_ne_nil _ (List.cons_ne_nil _ _)]
  cases after with
  | nil => decide
  | cons c after => rw [List.getLast?_cons_cons]

/-- **No slice of a selector fails**: where it ends in a closing parenthesis, the opening one stands
before that. -/
theorem ofChars?_eq (cs : List Char) : ofChars? cs = some (ofChars cs) := by
  rw [ofChars?, ofChars]
  split
  · rfl
  rcases find?_cases '(' cs with ⟨hdrop, hfind⟩ | ⟨after, hdrop, hsplit, hfind⟩
  · rw [hfind, hdrop]
    exact ofName?_eq cs none
  rw [hfind, hdrop]
  dsimp only
  by_cases hclosed : after.getLast? = some ')'
  · -- Both parentheses are one byte wide: the list starts behind the first and ends at the last.
    have hcs : cs = cs.takeWhile (· != '(') ++ ['('] ++ after.dropLast ++ [')'] := by
      rw [List.append_assoc, List.dropLast_append_getLast? _ hclosed, ← List.append_cons]
      exact hsplit
    have hclosing : (utf8Len cs).psub 1 =
        some (utf8Len (cs.takeWhile (· != '(') ++ ['('] ++ after.dropLast)) := by
      conv_lhs => rw [hcs, utf8Len_concat (by decide)]
      exact Nat.psub_eq_sub (Nat.le_add_left _ _)
    have hinner := slice?_append (cs.takeWhile (· != '(') ++ ['(']) after.dropLast [')']
    rw [← hcs, utf8Len_concat (by decide)] at hinner
    rw [if_pos hclosed, if_pos ((getLast?_eq_closing_iff hsplit).2 hclosed), hclosing]
    simp only [Option.bind_eq_bind, Option.bind_some, hinner, slice?_start hsplit]
    cases argumentKeys (trim after.dropLast) with
    | error fault => rfl
    | ok args => exact ofName?_eq _ _
  · rw [if_neg hclosed, if_neg (mt (getLast?_eq_closing_iff hsplit).1 hclosed)]

theorem parse?_eq (text : String) : parse? text = some (parse text) := by
  rw [parse?, parse, ofChars?_eq]
  cases ofChars (trim text.toList) <;> rfl

/-- A closing parenthesis before the opening one is no end. -/
example : parse? ")(" = some (.error ⟨")(", .unclosed⟩) := by cbv

end Selector

end LoadBridge
