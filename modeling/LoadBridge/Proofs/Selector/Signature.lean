import LoadBridge.Command.Listing
import LoadBridge.Proofs.Outcome
import LoadBridge.Proofs.Selector.Reading

/-!
# Selectors — Signatures

A function is listed by its signature, and its signature is a selector: it is read as the keys of
the function's name and of its argument types (`Selector.parse_signature`), and so it picks the
function and those that differ from it in spelling only (`FunctionRecord.picks_selector_iff`).

What is asked of the function is that its signature can be taken apart again: the name has no
parenthesis and one word before its template bracket, and each type can stand between commas.  A
single argument that is written `void` would be read as none.
-/

namespace LoadBridge

open Text

namespace FunctionRecord

variable {f g : FunctionRecord}

/-- The types of the arguments, as they are displayed. -/
def argumentTexts (f : FunctionRecord) : List (List Char) :=
  f.args.map fun a => a.type.display.toList

/-- A function whose signature can be taken apart. -/
structure IsSelectable (f : FunctionRecord) : Prop where
  noParenthesis : '(' ∉ f.qualifiedName.toList
  oneWord : isWord (Name.beforeBracket f.qualifiedName.toList) = true
  keyed : ∀ a ∈ f.args, Name.key a.type.display ≠ ""
  arguments : ∀ a ∈ f.args, IsArgument a.type.display.toList
  notVoid : (f.args.map fun a => trimmed a.type.display) ≠ ["void"]

/-- The selector that picks a function by its name and the types of its arguments. -/
def selector (f : FunctionRecord) : Selector :=
  ⟨Name.key f.qualifiedName, some (f.args.map fun a => Name.key a.type.display)⟩

/-- **A function's selector picks those of the same name with, one for one, the same argument
types**, in whatever spelling. -/
theorem picks_selector_iff : f.selector.picks g = true ↔
    Name.same g.qualifiedName f.qualifiedName = true ∧
      List.Forall₂ (fun a b => Name.same a.type.display b.type.display = true) g.args f.args := by
  simp only [Selector.picks, selector, Name.same, Bool.and_eq_true, beq_iff_eq]
  refine and_congr_right fun _ => ?_
  rw [eq_comm, ← List.forall₂_eq_eq_eq, List.forall₂_map_left_iff, List.forall₂_map_right_iff]

theorem picks_selector_self (f : FunctionRecord) : f.selector.picks f = true := by
  simp [Selector.picks, selector]

theorem toList_signature (f : FunctionRecord) : f.signature.toList =
    f.qualifiedName.toList ++ '(' :: (Selector.listed f.argumentTexts ++ [')']) := by
  simp [signature, describeCall, String.toList_intercalate, Selector.listed, argumentTexts,
    Function.comp_def]

namespace IsSelectable

theorem not_isVoid (h : f.IsSelectable) : ¬Selector.IsVoid f.argumentTexts := by
  intro hvoid
  refine h.notVoid ?_
  have := congrArg (List.map String.ofList) hvoid
  simpa [argumentTexts, trimmed, Function.comp_def] using this

/-- The list of the types is read as their keys. -/
theorem argumentKeys_eq (h : f.IsSelectable) :
    Selector.argumentKeys (trim (Selector.listed f.argumentTexts)) =
      .ok (f.args.map fun a => Name.key a.type.display) := by
  have hkeys : ∀ p ∈ f.argumentTexts, Name.keyChars p ≠ [] := by
    intro p hp
    obtain ⟨a, ha, rfl⟩ := List.mem_map.1 hp
    intro hempty
    exact h.keyed a ha (by rw [Name.key, hempty])
  cases hargs : f.argumentTexts with
  | nil =>
    rw [List.map_eq_nil_iff.1 hargs]
    rfl
  | cons p ps =>
    rw [← hargs]
    have harguments : ∀ q ∈ p :: ps, IsArgument q := by
      intro q hq
      obtain ⟨a, ha, rfl⟩ := List.mem_map.1 (hargs ▸ hq)
      exact h.arguments a ha
    have hpieces : ArePieces .call 0 f.argumentTexts := hargs ▸ IsArgument.arePieces harguments
    rw [Selector.argumentKeys_listed hpieces (fun p hp => Name.squeeze_ne_nil (hkeys p hp))
      h.not_isVoid, if_neg]
    · rw [argumentTexts, List.map_map]
      rfl
    · intro hempty
      obtain ⟨p, hp, hkey⟩ := List.mem_map.1 hempty
      exact hkeys p hp hkey

end IsSelectable

end FunctionRecord

namespace Selector

variable {f : FunctionRecord}

/-- **A signature is read as the selector of its function.** -/
theorem parse_signature (h : f.IsSelectable) : parse f.signature = .ok f.selector := by
  have hread : ofChars (trim f.signature.toList) = .ok f.selector := by
    rw [FunctionRecord.toList_signature, ofChars_trim_call h.noParenthesis, h.argumentKeys_eq]
    exact ofName_trim_eq_ok_iff.2 ⟨h.oneWord, rfl⟩
  rw [parse, hread]

end Selector

/-- The signatures of functions are configured as their selectors. -/
theorem Config.selectors_of_signatures {c : Config} {fs : List FunctionRecord}
    (h : ∀ f ∈ fs, f.IsSelectable) (hc : c.load.functions = fs.map FunctionRecord.signature) :
    c.selectors = .ok (fs.map FunctionRecord.selector) := by
  rw [selectors, hc, mapM_eq_ok_iff, List.forall₂_map_left_iff, List.forall₂_map_right_iff,
    List.forall₂_same]
  exact fun f hf => Selector.parse_signature (h f hf)

theorem SymbolTable.mem_listing {t : SymbolTable} {f : FunctionRecord} (h : f ∈ t.functions) :
    ⟨"function", f.signature, f.location⟩ ∈ t.listing := by
  obtain ⟨r, hr, hf⟩ := List.mem_filterMap.1 h
  refine List.mem_filterMap.2 ⟨r, hr, ?_⟩
  cases r <;> cases hf
  rfl

/-- **What is listed of a function selects it.**  The signature is read as a selector, which picks
the function and, of all others, those with the same name and the same argument types. -/
theorem FunctionRecord.signature_selects {f : FunctionRecord} (h : f.IsSelectable) :
    ∃ s, Selector.parse f.signature = .ok s ∧ s.picks f = true ∧
      (∀ g, s.picks g = true ↔ Name.same g.qualifiedName f.qualifiedName = true ∧
        List.Forall₂ (fun a b => Name.same a.type.display b.type.display = true) g.args f.args) ∧
      (∀ t : SymbolTable, f ∈ t.functions → ⟨"function", f.signature, f.location⟩ ∈ t.listing) ∧
      ∀ c : Config, c.load.functions = [f.signature] → c.selectors = .ok [s] :=
  ⟨f.selector, Selector.parse_signature h, f.picks_selector_self, fun _ => picks_selector_iff,
    fun _ => SymbolTable.mem_listing, fun _ hc => Config.selectors_of_signatures
      (List.forall_mem_singleton.2 h) hc⟩

/-- Takes a map by reference, an array, and a pointer to a function. -/
def fillFunction : FunctionRecord where
  id := ⟨"_9"⟩
  name := "fill<int, 3>"
  scope := ["lib"]
  args :=
    [{ type := { name := "map<int, std::pair<A, B>>", scope := ["std"], isReference := true,
                 cv := { isConst := true } } },
      { type := { name := "Grid<f(int, char), 2>", pointerDepth := 1, extents := [3] } },
      { type := .named "void (*)(int, double)" }]

theorem fillFunction_isSelectable : fillFunction.IsSelectable where
  noParenthesis := by decide
  oneWord := by decide
  keyed := by decide
  arguments := by decide
  notVoid := by decide

theorem signature_selects_fill : fillFunction.IsSelectable ∧
    fillFunction.signature = "lib::fill<int, 3>(const std::map<int, std::pair<A, B>>&, " ++
      "Grid<f(int, char), 2>*[3], void (*)(int, double))" ∧
    ∃ s, Selector.parse fillFunction.signature = .ok s ∧ s.picks fillFunction = true := by
  obtain ⟨s, hs, hpicks, -⟩ := fillFunction.signature_selects fillFunction_isSelectable
  exact ⟨fillFunction_isSelectable, by decide, s, hs, hpicks⟩

end LoadBridge
