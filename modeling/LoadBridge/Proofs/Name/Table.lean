import Mathlib.Data.Finset.Card
import Mathlib.Data.List.Nodup
import LoadBridge.Name.Table
import LoadBridge.Proofs.Repetition

/-!
# Names — What a name table finds

A table finds the names of the class that was registered first under the key of a name
(`get?_registerAll`).  It has one entry for each name that was registered, in order of registration
(`entries_registerAll`), and a name finds the entry that goes by it (`get?_eq_some_iff`).  No
registration changes or moves an entry, and each answers the entry of its class (`append_only`).
-/

namespace LoadBridge

theorem Name.same_iff {a b : String} : Name.same a b = true ↔ Name.key a = Name.key b := beq_iff_eq

theorem Name.same_congr {a b : String} (h : Name.key a = Name.key b) :
    Name.same a = Name.same b := by
  funext c
  rw [same, same, h]

/-- Whether two classes go by one name. -/
def QualifiedName.sameName (a b : QualifiedName) : Bool := Name.same a.long b.long

namespace NameTable

variable (t : NameTable) (target : QualifiedName) (targets : List QualifiedName) (q : String)

theorem register_affixes : (t.register target).2.affixes = t.affixes := by
  unfold register
  split <;> rfl

theorem registerAll_affixes : (t.registerAll targets).affixes = t.affixes := by
  induction targets generalizing t with
  | nil => rfl
  | cons x rest ih => exact (ih (t.register x).2).trans (t.register_affixes x)

theorem registerAll_outer : (t.registerAll targets).outer = t.outer := by
  induction targets generalizing t with
  | nil => rfl
  | cons x rest ih =>
      refine (ih (t.register x).2).trans ?_
      unfold register
      split <;> rfl

/-- Spelling does not matter. -/
theorem get?_congr {a b : String} (h : Name.key a = Name.key b) : t.get? a = t.get? b := by
  rw [get?, get?, h]

/-- A class that is registered is found under its key, unless one was found there before. -/
theorem get?_register : (t.register target).2.get? q =
    (t.get? q).or (if Name.key target.long = Name.key q then
      some (GeneratedNames.derive t.affixes target) else none) := by
  unfold register
  by_cases hkey : Name.key target.long = Name.key q
  · rw [t.get?_congr hkey]
    cases hq : t.get? q with
    | some names => exact hq
    | none =>
        rw [get?] at hq
        simp [get?, List.lookup_append, hq, hkey]
  · split
    · rw [if_neg hkey, Option.or_none]
    · have hother : (Name.key q == Name.key target.long) = false := beq_false_of_ne (Ne.symm hkey)
      simp [get?, List.lookup_append, List.lookup_cons, hother, hkey]

/-- **The first class that was registered under a key is found under it.** -/
theorem get?_registerAll : (t.registerAll targets).get? q =
    (t.get? q).or ((targets.find? fun x => Name.key x.long == Name.key q).map
      (GeneratedNames.derive t.affixes)) := by
  induction targets generalizing t with
  | nil => exact (Option.or_none).symm
  | cons x rest ih =>
      have hrest : (t.registerAll (x :: rest)).get? q =
          ((t.register x).2.registerAll rest).get? q := rfl
      rw [hrest, ih, get?_register, register_affixes, Option.or_assoc, List.find?_cons]
      by_cases hkey : Name.key x.long = Name.key q
      · simp [hkey]
      · simp [hkey, beq_false_of_ne hkey]

/-! ### The entries -/

theorem isLoaded_iff : t.isLoaded q = true ↔ Name.key q ∈ t.keyed.map (·.1) := by
  rw [isLoaded, get?, Option.isSome_iff_ne_none, ne_eq, List.lookup_eq_none_iff]
  simp

/-- What a table keeps of a class that it adds. -/
def keyedEntry (t : NameTable) (target : QualifiedName) : String × GeneratedNames :=
  (Name.key target.long, .derive t.affixes target)

theorem register_of_isLoaded (h : t.isLoaded target.long = true) : (t.register target).2 = t := by
  obtain ⟨names, hnames⟩ := Option.isSome_iff_exists.1 h
  rw [register, hnames]

theorem keyed_register (h : t.isLoaded target.long = false) :
    (t.register target).2.keyed = t.keyed ++ [t.keyedEntry target] := by
  have hnone : t.get? target.long = none := by simpa [isLoaded] using h
  rw [register, hnone]
  rfl

/-- A table that adds a class finds it under its name as well. -/
theorem isLoaded_register (h : t.isLoaded target.long = false) (other : QualifiedName) :
    (t.register target).2.isLoaded other.long =
      (t.isLoaded other.long || other.sameName target) := by
  rw [Bool.eq_iff_iff, Bool.or_eq_true, isLoaded_iff, isLoaded_iff, keyed_register t target h,
    QualifiedName.sameName, Name.same_iff]
  simp [keyedEntry]

/-- **A table keeps what it has and adds the classes of a new name**, each when its name first comes
up. -/
theorem keyed_registerAll : (t.registerAll targets).keyed =
    t.keyed ++ ((targets.filter fun x => !t.isLoaded x.long).eraseDupsBy
      QualifiedName.sameName).map t.keyedEntry := by
  refine kept_foldl (fun t x => t.isLoaded x.long) keyedEntry register_of_isLoaded keyed_register
    isLoaded_register (fun t x => ?_) t targets
  funext y
  rw [keyedEntry, keyedEntry, register_affixes]

section

variable (affixes : NameAffixes) (outer : String) {names : GeneratedNames}

theorem keyed_registerAll_new : ((new affixes outer).registerAll targets).keyed =
    (targets.eraseDupsBy QualifiedName.sameName).map (new affixes outer).keyedEntry := by
  have hnone (x : QualifiedName) : (new affixes outer).isLoaded x.long = false := rfl
  rw [keyed_registerAll, List.filter_eq_self.2 (by simp [hnone])]
  rfl

/-- **A table has one entry for each name that was registered**, derived from the class that was
registered first under it. -/
theorem entries_registerAll : ((new affixes outer).registerAll targets).entries =
    (targets.eraseDupsBy QualifiedName.sameName).map (GeneratedNames.derive affixes) := by
  rw [entries, keyed_registerAll_new, List.map_map]
  rfl

/-- No two entries go by one name. -/
theorem nodup_entries : (((new affixes outer).registerAll targets).entries.map
    fun names => Name.key names.target.long).Nodup := by
  rw [entries_registerAll, List.map_map]
  refine List.pairwise_map.2 ((pairwise_eraseDupsBy targets).imp fun {a b} hsame hkey => ?_)
  have : b.sameName a = true := Name.same_iff.2 hkey.symm
  rw [hsame] at this
  cases this

/-- **A name finds the entry that goes by it.** -/
theorem get?_eq_some_iff : ((new affixes outer).registerAll targets).get? q = some names ↔
    names ∈ ((new affixes outer).registerAll targets).entries ∧
      Name.key names.target.long = Name.key q := by
  have hfound : ∀ {names}, ((new affixes outer).registerAll targets).get? q = some names →
      names ∈ ((new affixes outer).registerAll targets).entries ∧
        Name.key names.target.long = Name.key q := by
    intro names h
    obtain ⟨before, after, hkeyed, -⟩ := List.lookup_eq_some_iff.1 h
    have hmem : (Name.key q, names) ∈ ((new affixes outer).registerAll targets).keyed :=
      hkeyed ▸ List.mem_append_right _ List.mem_cons_self
    refine ⟨List.mem_map_of_mem hmem, ?_⟩
    rw [keyed_registerAll_new] at hmem
    obtain ⟨target, -, heq⟩ := List.mem_map.1 hmem
    obtain ⟨hkey, rfl⟩ := Prod.mk.inj heq
    exact hkey
  refine ⟨hfound, fun ⟨hmem, hkey⟩ => ?_⟩
  -- the name finds some entry, and no other entry goes by it
  obtain ⟨other, hother⟩ :
      ∃ other, ((new affixes outer).registerAll targets).get? q = some other := by
    rw [entries_registerAll] at hmem
    obtain ⟨target, htarget, rfl⟩ := List.mem_map.1 hmem
    refine Option.isSome_iff_exists.1 ((isLoaded_iff _ _).2 ?_)
    rw [keyed_registerAll_new, ← hkey, List.map_map]
    exact List.mem_map_of_mem htarget
  obtain ⟨hothermem, hotherkey⟩ := hfound hother
  have hsame : other = names := List.inj_on_of_nodup_map (nodup_entries targets affixes outer)
    hothermem hmem (hotherkey.trans hkey.symm)
  rw [hother, hsame]

/-! ### Registration adds at the end -/

/-- An entry stays where it is when more classes are registered. -/
theorem entries_prefix_registerAll : t.entries <+: (t.registerAll targets).entries := by
  rw [entries, entries, keyed_registerAll, List.map_append]
  exact List.prefix_append _ _

/-- A registration answers the entry that the name finds from then on. -/
theorem get?_register_self :
    (t.register target).2.get? target.long = some (t.register target).1 := by
  unfold register
  cases h : t.get? target.long with
  | some names => exact h
  | none =>
    rw [get?] at h
    simp [get?, List.lookup_append, h]

/-- There are as many entries as names that were registered. -/
theorem length_entries : ((new affixes outer).registerAll targets).entries.length =
    (targets.map fun x => Name.key x.long).toFinset.card := by
  have hkeys : (((new affixes outer).registerAll targets).entries.map
      fun names => Name.key names.target.long).toFinset =
      (targets.map fun x => Name.key x.long).toFinset := by
    ext key
    rw [entries_registerAll, List.map_map, List.mem_toFinset, List.mem_toFinset, List.mem_map,
      List.mem_map]
    constructor
    · rintro ⟨target, htarget, rfl⟩
      exact ⟨target, mem_of_mem_eraseDupsBy htarget, rfl⟩
    · rintro ⟨target, htarget, rfl⟩
      obtain ⟨other, hother, hsame⟩ :=
        exists_mem_eraseDupsBy (r := QualifiedName.sameName) (fun _ => Name.same_iff.2 rfl) htarget
      exact ⟨other, hother, (Name.same_iff.1 hsame).symm⟩
  rw [← hkeys, List.toFinset_card_of_nodup (nodup_entries targets affixes outer), List.length_map]

theorem registerAll_concat : t.registerAll (targets ++ [target]) =
    ((t.registerAll targets).register target).2 := List.foldl_append ..

/-- A name has an entry exactly if one goes by it. -/
theorem isLoaded_registerAll_iff : ((new affixes outer).registerAll targets).isLoaded q = true ↔
    ∃ names ∈ ((new affixes outer).registerAll targets).entries,
      Name.key names.target.long = Name.key q := by
  simp only [isLoaded, Option.isSome_iff_exists, get?_eq_some_iff]

/-- A registration answers the entry that goes by the name of its class. -/
theorem register_registerAll :
    (((new affixes outer).registerAll targets).register target).1 ∈
      (((new affixes outer).registerAll targets).register target).2.entries ∧
    Name.key (((new affixes outer).registerAll targets).register target).1.target.long =
      Name.key target.long := by
  have hself := ((new affixes outer).registerAll targets).get?_register_self target
  rw [← registerAll_concat] at hself ⊢
  exact (get?_eq_some_iff _ _ affixes outer).1 hself

/-- What a table knows of the classes that were registered in it, one after the other. -/
structure Lists (affixes : NameAffixes) (targets : List QualifiedName) (t : NameTable) :
    Prop where
  /-- The entries are derived from the class that was registered first under each name, in order of
  registration. -/
  entries : t.entries =
    (targets.eraseDupsBy QualifiedName.sameName).map (GeneratedNames.derive affixes)
  /-- There are as many as names. -/
  length : t.entries.length = (targets.map fun x => Name.key x.long).toFinset.card
  /-- More registrations leave each entry as it is and where it is. -/
  stays (more : List QualifiedName) : t.entries <+: (t.registerAll more).entries
  /-- One more registration answers the entry that goes by the name of its class. -/
  answers (target : QualifiedName) : (t.register target).1 ∈ (t.register target).2.entries ∧
    Name.key (t.register target).1.target.long = Name.key target.long
  /-- However a name is spelled, it finds the entry that goes by it. -/
  finds (q : String) (names : GeneratedNames) : t.get? q = some names ↔
    names ∈ t.entries ∧ Name.key names.target.long = Name.key q
  /-- A name is loaded where there is one. -/
  loaded (q : String) : t.isLoaded q = true ↔
    ∃ names ∈ t.entries, Name.key names.target.long = Name.key q

/-- **A table is only appended to**, and finds what was put into it, whatever classes are registered
in which order and under which spellings. -/
theorem append_only : Lists affixes targets ((new affixes outer).registerAll targets) where
  entries := entries_registerAll targets affixes outer
  length := length_entries targets affixes outer
  stays := entries_prefix_registerAll _
  answers target := register_registerAll target targets affixes outer
  finds q _ := get?_eq_some_iff targets q affixes outer
  loaded q := isLoaded_registerAll_iff targets q affixes outer

end

end NameTable

end LoadBridge
