import Mathlib.Data.List.DropRight
import LoadBridge.Files.Tree
import LoadBridge.Proofs.Outcome

/-!
# Files — Writing to a tree

A path leads to a place (`FileTree.locate`).  Writing a file changes what is at its place and
nothing else, and since no directory comes or goes, every path that led somewhere leads there still
(`locate_write`).  So, of files that are written one after the other, each can be read back whose
place no later one takes (`Writes.read`).
-/

namespace LoadBridge

/-! ### The names in a path -/

theorem slashPieces_ne_nil (cs : List Char) : slashPieces cs ≠ [] := by
  induction cs with
  | nil => simp [slashPieces]
  | cons c rest ih =>
      by_cases hc : c = '/'
      · simp [hc, slashPieces]
      · rw [slashPieces]
        · simpa using ih
        · exact fun h => hc h

theorem slashPieces_cons_of_ne {c : Char} (hc : c ≠ '/') (rest : List Char) :
    slashPieces (c :: rest) = (slashPieces rest).modifyHead (c :: ·) :=
  slashPieces.eq_3 _ _ fun h => hc h

theorem slashPieces_append_slash (cs rest : List Char) :
    slashPieces (cs ++ '/' :: rest) = slashPieces cs ++ slashPieces rest := by
  induction cs with
  | nil => rfl
  | cons c cs ih =>
      by_cases hc : c = '/'
      · subst hc
        exact congrArg ([] :: ·) ih
      · rw [List.cons_append, slashPieces_cons_of_ne hc, slashPieces_cons_of_ne hc, ih]
        cases hcs : slashPieces cs with
        | nil => exact absurd hcs (slashPieces_ne_nil cs)
        | cons first others => rfl

theorem slashPieces_of_not_mem {cs : List Char} (h : '/' ∉ cs) : slashPieces cs = [cs] := by
  induction cs with
  | nil => rfl
  | cons c rest ih =>
      obtain ⟨hc, hrest⟩ := List.ne_and_not_mem_of_not_mem_cons h
      rw [slashPieces_cons_of_ne hc.symm, ih hrest, List.modifyHead_cons]

/-- The pieces are read back from the characters. -/
theorem intercalate_slashPieces (cs : List Char) : ['/'].intercalate (slashPieces cs) = cs := by
  induction cs with
  | nil => rfl
  | cons c rest ih =>
      by_cases hc : c = '/'
      · subst hc
        show ['/'].intercalate ([] :: slashPieces rest) = _
        rw [List.intercalate_cons_of_ne_nil (slashPieces_ne_nil rest), ih]
        rfl
      · rw [slashPieces_cons_of_ne hc]
        conv_rhs => rw [← ih]
        cases hrest : slashPieces rest with
        | nil => exact absurd hrest (slashPieces_ne_nil rest)
        | cons first others => cases others <;> rfl

theorem namesIn_injective : Function.Injective namesIn := by
  intro a b h
  have hpieces : slashPieces a.toList = slashPieces b.toList :=
    List.map_injective_iff.2 (fun _ _ => String.ofList_inj.1) h
  rw [← String.toList_inj, ← intercalate_slashPieces a.toList, hpieces, intercalate_slashPieces]

theorem namesIn_append_slash (directory name : String) :
    namesIn (directory ++ "/" ++ name) = namesIn directory ++ namesIn name := by
  have hslash : (directory ++ "/" ++ name).toList = directory.toList ++ '/' :: name.toList := by
    simp
  rw [namesIn, hslash, slashPieces_append_slash, List.map_append]
  rfl

theorem namesIn_of_not_mem {name : String} (h : '/' ∉ name.toList) : namesIn name = [name] := by
  rw [namesIn, slashPieces_of_not_mem h, List.map_singleton, String.ofList_toList]

namespace FileTree

variable {t t' : FileTree} {place q : Place} {path text name : String}

/-! ### What is at a place -/

theorem lookup_map_replace (entries : List (Place × FileEntry)) (place q : Place)
    (entry : FileEntry) :
    (entries.map fun e => if e.1 == place then (place, entry) else e).lookup q =
      if q = place then (entries.lookup q).map fun _ => entry else entries.lookup q := by
  induction entries with
  | nil => simp
  | cons e rest ih =>
      obtain ⟨p, old⟩ := e
      have hkey : (if p == place then (place, entry) else (p, old)) =
          (p, if p == place then entry else old) := by
        split
        · next hp => rw [eq_of_beq hp]
        · rfl
      rw [List.map_cons, hkey, List.lookup_cons, List.lookup_cons, ih]
      by_cases hqp : q = p
      · by_cases hp : p = place <;> simp [hqp, hp]
      · rw [beq_false_of_ne hqp]

/-- **What is put at a place is there, and everything else is where it was.** -/
theorem at?_put (hplace : place ≠ []) (entry : FileEntry) :
    (t.put place entry).at? q = if q = place then some entry else t.at? q := by
  by_cases hroot : q = []
  · have hq : q ≠ place := fun h => hplace (h ▸ hroot)
    rw [if_neg hq, hroot]
    rfl
  have hat (t : FileTree) : t.at? q = t.entries.lookup q := by
    rw [at?, if_neg (by simpa using hroot)]
  rw [hat, hat, put]
  split
  · next hthere =>
    rw [lookup_map_replace]
    split
    · next hq =>
      subst hq
      obtain ⟨e, he, hkey⟩ := List.any_eq_true.1 hthere
      have hsome : (t.entries.lookup q).isSome := by
        rw [List.lookup_isSome_iff]
        exact ⟨e, he, beq_iff_eq.2 (eq_of_beq hkey).symm⟩
      obtain ⟨old, hold⟩ := Option.isSome_iff_exists.1 hsome
      rw [hold]
      rfl
    · rfl
  · next hnew =>
    rw [List.lookup_append]
    have hnone : t.entries.lookup place = none := by
      rw [List.lookup_eq_none_iff]
      intro e he
      rw [bne_iff_ne]
      rintro rfl
      exact hnew (List.any_eq_true.2 ⟨e, he, by simp⟩)
    by_cases hq : q = place
    · simp [hq, hnone]
    · have hq' : (q == place) = false := beq_false_of_ne hq
      simp [hq, hq', List.lookup_cons]

/-! ### Where paths lead -/

/-- The place that a path leads to. -/
def locate (t : FileTree) (path : String) : Except FileError Place := do
  t.walk (t.origin path) (← steps path)

theorem enter_eq_ok_iff : t.enter place = .ok () ↔ t.at? place = some .directory := by
  rw [enter]
  cases t.at? place with
  | none => simp
  | some entry => cases entry <;> simp

/-- A name that stands for an entry of a directory. -/
def IsPlain (name : String) : Prop := name ≠ "" ∧ name ≠ "." ∧ name ≠ ".."

theorem isPlain_of_head? {name : String} {c : Char} (h : name.toList.head? = some c)
    (hc : c ≠ '.') : IsPlain name := by
  refine ⟨?_, ?_, ?_⟩ <;> rintro rfl
  · simp at h
  · exact hc (by simpa using h.symm)
  · exact hc (by simpa using h.symm)

theorem step_eq_of_isPlain (hname : IsPlain name) (h : t.step place name = .ok q) :
    q = place ++ [name] := by
  obtain ⟨hempty, hdot, hup⟩ := hname
  obtain ⟨_, -, h⟩ := bind_eq_ok.1 h
  rw [if_neg (by simp [hempty, hdot]), if_neg hup] at h
  split at h
  · cases h
  · exact (Except.ok.inj h).symm

theorem walk_append {names more : List String} : t.walk place (names ++ more) = .ok q ↔
    ∃ p, t.walk place names = .ok p ∧ t.walk p more = .ok q := by
  rw [walk, List.foldlM_append, bind_eq_ok]
  rfl

/-- Plain names lead down from a place. -/
theorem walk_eq_of_isPlain {names : List String} (hnames : ∀ name ∈ names, IsPlain name)
    (h : t.walk place names = .ok q) : q = place ++ names := by
  induction names generalizing place with
  | nil => exact (Except.ok.inj h).symm.trans (List.append_nil _).symm
  | cons name rest ih =>
      rw [walk, List.foldlM_cons] at h
      obtain ⟨p, hp, h⟩ := bind_eq_ok.1 h
      obtain rfl := step_eq_of_isPlain (hnames name List.mem_cons_self) hp
      rw [ih (fun n hn => hnames n (List.mem_cons_of_mem _ hn)) h, List.append_assoc]
      rfl

theorem eq_namesIn_of_steps {names : List String} (h : steps path = .ok names) :
    names = namesIn path := by
  rw [steps] at h
  split at h
  · cases h
  split at h
  · cases h
  split at h
  · cases h
  · exact (Except.ok.inj h).symm

/-- Where a path in a directory leads: through the directory to the names in it. -/
theorem exists_of_locate_in {directory : String}
    (h : t.locate (directory ++ "/" ++ name) = .ok place) : ∃ p,
    t.walk (t.origin (directory ++ "/")) (namesIn directory) = .ok p ∧
      t.walk p (namesIn name) = .ok place := by
  obtain ⟨names, hnames, hwalk⟩ := bind_eq_ok.1 h
  have horigin : t.origin (directory ++ "/" ++ name) = t.origin (directory ++ "/") := by
    have hstart : Text.startsWith (directory ++ "/" ++ name) "/" =
        Text.startsWith (directory ++ "/") "/" := by
      cases hd : directory.toList <;> simp [Text.startsWith, hd, List.isPrefixOf]
    rw [origin, origin, hstart]
  rw [horigin, eq_namesIn_of_steps hnames, namesIn_append_slash] at hwalk
  exact walk_append.1 hwalk

/-- **In one directory, paths of plain names lead to one place only when they are the same.** -/
theorem eq_of_locate_eq {directory other : String} (hname : ∀ n ∈ namesIn name, IsPlain n)
    (hother : ∀ n ∈ namesIn other, IsPlain n)
    (h : t.locate (directory ++ "/" ++ name) = .ok place)
    (h' : t.locate (directory ++ "/" ++ other) = .ok place) : name = other := by
  obtain ⟨p, hp, hwalk⟩ := exists_of_locate_in h
  obtain ⟨p', hp', hwalk'⟩ := exists_of_locate_in h'
  obtain rfl := Except.ok.inj (hp.symm.trans hp')
  have hplace := (walk_eq_of_isPlain hname hwalk).symm.trans (walk_eq_of_isPlain hother hwalk')
  exact namesIn_injective (List.append_cancel_left hplace)

/-! ### Writing -/

/-- **A file that is written is put where its path leads**, in place of a file or of nothing. -/
theorem of_write (h : t.write path text = .ok t') : ∃ place, t.locate path = .ok place ∧
    t.at? place ≠ some .directory ∧ t' = t.put place (.file text) := by
  obtain ⟨names, hnames, h⟩ := bind_eq_ok.1 h
  dsimp only at h
  split at h
  · obtain ⟨_, -, h⟩ := bind_eq_ok.1 h
    obtain ⟨_, -, h⟩ := bind_eq_ok.1 h
    cases h
  · next hbare =>
    -- the path does not end with a slash, so nothing was left out of it
    have hsame : withoutTrailing names = names := by
      have hbegins : withoutTrailing names <+: names := List.rdropWhile_prefix _ _
      exact hbegins.eq_of_length_le (not_lt.1 hbare)
    rw [hsame] at h
    obtain ⟨place, hplace, h⟩ := bind_eq_ok.1 h
    refine ⟨place, bind_eq_ok.2 ⟨names, hnames, hplace⟩, ?_⟩
    split at h
    · cases h
    · next hfree => exact ⟨hfree, (Except.ok.inj h).symm⟩

section Put

variable (hfree : t.at? place ≠ some .directory)

include hfree

theorem ne_nil_of_not_directory : place ≠ [] := by
  rintro rfl
  exact hfree rfl

/-- A directory stays one. -/
theorem enter_put (h : t.enter q = .ok ()) : (t.put place (.file text)).enter q = .ok () := by
  rw [enter_eq_ok_iff] at h ⊢
  have hne : q ≠ place := fun hq => hfree (hq ▸ h)
  rw [at?_put (ne_nil_of_not_directory hfree), if_neg hne, h]

theorem walk_put {names : List String} {p : Place} (h : t.walk p names = .ok q) :
    (t.put place (.file text)).walk p names = .ok q := by
  induction names generalizing p with
  | nil => exact h
  | cons name rest ih =>
      rw [walk, List.foldlM_cons] at h ⊢
      obtain ⟨next, hstep, h⟩ := bind_eq_ok.1 h
      obtain ⟨_, henter, hstep⟩ := bind_eq_ok.1 hstep
      exact bind_eq_ok.2 ⟨next, bind_eq_ok.2 ⟨(), enter_put hfree henter, hstep⟩, ih h⟩

end Put

/-- **A path that led somewhere leads there still.** -/
theorem locate_write (h : t.write path text = .ok t') {other : String}
    (hother : t.locate other = .ok q) : t'.locate other = .ok q := by
  obtain ⟨place, -, hfree, rfl⟩ := of_write h
  obtain ⟨names, hnames, hwalk⟩ := bind_eq_ok.1 hother
  have horigin : (t.put place (.file text)).origin other = t.origin other := by
    simp only [origin, put]
    split
    · rfl
    · split <;> rfl
  exact bind_eq_ok.2 ⟨names, hnames, horigin ▸ walk_put hfree hwalk⟩

theorem read_eq_of_locate (hpath : t.locate path = .ok place)
    (hfile : t.at? place = some (.file text)) : t.read path = .ok text := by
  obtain ⟨names, hnames, hwalk⟩ := bind_eq_ok.1 hpath
  exact bind_eq_ok.2 ⟨names, hnames, bind_eq_ok.2 ⟨place, hwalk, by rw [hfile]⟩⟩

/-! ### Writing several files -/

/-- These files, each a path and a text, are written one after the other. -/
inductive Writes : FileTree → List (String × String) → FileTree → Prop where
  | nil (t : FileTree) : Writes t [] t
  | cons {t t₁ t' : FileTree} {path text : String} {rest : List (String × String)} :
      t.write path text = .ok t₁ → Writes t₁ rest t' → Writes t ((path, text) :: rest) t'

variable {files : List (String × String)}

theorem Writes.locate (h : Writes t files t') (hpath : t.locate path = .ok place) :
    t'.locate path = .ok place := by
  induction h with
  | nil => exact hpath
  | cons hwrite _ ih => exact ih (locate_write hwrite hpath)

/-- What no file is written to is as it was. -/
theorem Writes.at?_eq (h : Writes t files t')
    (hplace : ∀ f ∈ files, t'.locate f.1 ≠ .ok place) : t'.at? place = t.at? place := by
  induction h with
  | nil => rfl
  | @cons t t₁ t' path text rest hwrite hrest ih =>
      obtain ⟨p, hp, hfree, rfl⟩ := of_write hwrite
      have hne : place ≠ p := by
        rintro rfl
        exact hplace _ List.mem_cons_self (hrest.locate (locate_write hwrite hp))
      rw [ih fun f hf => hplace f (List.mem_cons_of_mem _ hf),
        at?_put (ne_nil_of_not_directory hfree), if_neg hne]

/-- **Files at places of their own can all be read back.** -/
theorem Writes.read (h : Writes t files t')
    (hapart : files.Pairwise fun f f' => ∀ p, t'.locate f.1 = .ok p → t'.locate f'.1 ≠ .ok p) :
    ∀ f ∈ files, t'.read f.1 = .ok f.2 := by
  induction h with
  | nil => exact fun f hf => absurd hf List.not_mem_nil
  | @cons t t₁ t' path text rest hwrite hrest ih =>
      obtain ⟨hfirst, hothers⟩ := List.pairwise_cons.1 hapart
      intro f hf
      rcases List.mem_cons.1 hf with rfl | hf
      · obtain ⟨p, hp, hfree, rfl⟩ := of_write hwrite
        have hp' := hrest.locate (locate_write hwrite hp)
        refine read_eq_of_locate hp' ?_
        rw [hrest.at?_eq fun f hf => hfirst f hf p hp', at?_put (ne_nil_of_not_directory hfree),
          if_pos rfl]
      · exact ih hothers f hf

end FileTree

end LoadBridge
