import LoadBridge.Proofs.Name.Key
import LoadBridge.Proofs.Text.Balance
import LoadBridge.Proofs.Text.Scopes
import LoadBridge.Name.Affixes

/-!
# Text — Braces

A text has no brace in it (`Braceless`), or braces that are well nested (`Nested`).  What is put
together of texts without braces has none, nor has what is taken out of one: a name without its
template bracket, or a component of its scope.
-/

namespace LoadBridge.Text

/-- No brace is in the text. -/
def Braceless (s : String) : Prop := '\x7b' ∉ s.toList ∧ '\x7d' ∉ s.toList

/-- The braces in the text are balanced. -/
def Nested (s : String) : Prop := Balanced '\x7b' '\x7d' s.toList

instance (s : String) : Decidable (Braceless s) :=
  decidable_of_iff ((s.toList.all fun c => c != '\x7b' && c != '\x7d') = true) <| by
    simp only [Braceless, List.all_eq_true, Bool.and_eq_true, bne_iff_ne]
    exact ⟨fun h => ⟨fun hc => (h _ hc).1 rfl, fun hc => (h _ hc).2 rfl⟩,
      fun h c hc => ⟨ne_of_mem_of_not_mem hc h.1, ne_of_mem_of_not_mem hc h.2⟩⟩

instance (s : String) : Decidable (Nested s) := inferInstanceAs (Decidable (Balanced ..))

variable {s t sep : String} {ss : List String}

/-! ### Without braces -/

/-- All characters of the text are of a sort that no brace is of. -/
theorem braceless_of_forall {P : Char → Prop} (h : ∀ c ∈ s.toList, P c) (hopen : ¬P '\x7b')
    (hclose : ¬P '\x7d') : Braceless s := ⟨fun hs => hopen (h _ hs), fun hs => hclose (h _ hs)⟩

@[simp] theorem braceless_append : Braceless (s ++ t) ↔ Braceless s ∧ Braceless t := by
  simp only [Braceless, String.toList_append, List.mem_append, not_or]
  exact and_and_and_comm

@[simp] theorem braceless_ite {c : Prop} [Decidable c] :
    Braceless (if c then s else t) ↔ (c → Braceless s) ∧ (¬c → Braceless t) := by
  split <;> simp [*]

theorem Braceless.of_subset (h : Braceless s) (hsub : t.toList ⊆ s.toList) : Braceless t :=
  ⟨fun ht => h.1 (hsub ht), fun ht => h.2 (hsub ht)⟩

@[simp] theorem braceless_intercalate (hsep : Braceless sep) (h : ∀ s ∈ ss, Braceless s) :
    Braceless (sep.intercalate ss) := by
  induction ss with
  | nil => exact ⟨by simp, by simp⟩
  | cons s rest ih =>
    have hs := h s List.mem_cons_self
    have hrest := ih fun t ht => h t (List.mem_cons_of_mem _ ht)
    cases rest with
    | nil => simpa using hs
    | cons t rest =>
      rw [String.intercalate_cons_cons, braceless_append, braceless_append]
      exact ⟨⟨hs, hsep⟩, hrest⟩

@[simp] theorem braceless_stringJoin (h : ∀ s ∈ ss, Braceless s) : Braceless (String.join ss) := by
  constructor <;> rw [String.toList_join, List.mem_flatMap] <;> rintro ⟨s, hs, hbrace⟩
  · exact (h s hs).1 hbrace
  · exact (h s hs).2 hbrace

@[simp] theorem braceless_repr (n : Nat) : Braceless n.repr := by
  refine braceless_of_forall (P := fun c => c.isDigit = true) (fun c hc => ?_) (by decide)
    (by decide)
  rw [Nat.toList_repr] at hc
  exact Nat.isDigit_of_mem_toDigits (by decide) (by decide) hc

@[simp] theorem braceless_replicate {c : Char} (hopen : '\x7b' ≠ c) (hclose : '\x7d' ≠ c)
    (n : Nat) : Braceless (.ofList (List.replicate n c)) := by
  refine braceless_of_forall (P := (· = c)) (fun d hd => ?_) hopen hclose
  rw [String.toList_ofList] at hd
  exact List.eq_of_mem_replicate hd

/-! ### Well nested -/

@[simp] theorem Braceless.nested (h : Braceless s) : Nested s := balanced_of_not_mem h.1 h.2

@[simp] theorem Nested.append (hs : Nested s) (ht : Nested t) : Nested (s ++ t) := by
  rw [Nested, String.toList_append]
  exact Balanced.append hs ht

@[simp] theorem nested_ite {c : Prop} [Decidable c] :
    Nested (if c then s else t) ↔ (c → Nested s) ∧ (¬c → Nested t) := by
  split <;> simp [*]

theorem Nested.wrap (h : Nested s) : Nested ("\x7b" ++ s ++ "\x7d") := by
  have hwrap := Balanced.wrap (by decide) h
  rw [Nested, String.toList_append, String.toList_append]
  exact hwrap

/-- A text between one with an opening and one with a closing brace. -/
theorem Nested.between {first lead trail last head tail : String}
    (hhead : head = first ++ "\x7b" ++ lead) (htail : tail = trail ++ "\x7d" ++ last)
    (hfirst : Nested first) (h : Nested (lead ++ s ++ trail)) (hlast : Nested last) :
    Nested (head ++ s ++ tail) := by
  have hwhole := (hfirst.append h.wrap).append hlast
  rw [hhead, htail]
  simpa only [String.append_assoc] using hwhole

end LoadBridge.Text

namespace LoadBridge

open Text

variable {s mark name : String} {scope : List String}

/-! ### Names -/

@[simp] theorem braceless_join (hscope : ∀ s ∈ scope, Braceless s) (hname : Braceless name) :
    Braceless (Name.join scope name) := by
  refine braceless_intercalate (by decide) fun s hs => ?_
  rcases List.mem_append.1 hs with hs | hs
  · exact hscope s hs
  · exact List.mem_singleton.1 hs ▸ hname

@[simp] theorem braceless_absolute (h : Braceless s) : Braceless (Name.absolute s) :=
  braceless_append.2 ⟨by decide, h⟩

/-- The name before a template bracket. -/
@[simp] theorem braceless_splitTemplate (h : Braceless s) : Braceless (Name.splitTemplate s).1 := by
  rw [Name.splitTemplate]
  split
  · exact h
  · refine h.of_subset fun c hc => ?_
    rw [String.toList_ofList] at hc
    exact (List.takeWhile_prefix _).subset ((List.rdropWhile_prefix isBlank _).subset hc)

theorem braceless_of_mem_splitScope (h : Braceless s) {component : String}
    (hcomponent : component ∈ Name.splitScope s) : Braceless component := by
  obtain ⟨cs, hcs, rfl⟩ := List.mem_map.1 hcomponent
  refine h.of_subset ?_
  rw [String.toList_ofList]
  exact List.Subset.trans (subset_of_mem_scopePieces 0 _ cs (List.mem_filter.1 hcs).1)
    (trim_subset _)

/-- A prefix as the name of a root class. -/
@[simp] theorem braceless_rootOf (h : Braceless mark) : Braceless (NameAffixes.rootOf mark) := by
  refine braceless_append.2 ⟨h.of_subset fun c hc => ?_, by decide⟩
  rw [String.toList_ofList] at hc
  exact (List.rdropWhile_prefix _ _).subset hc

end LoadBridge
