import LoadBridge.Command.Run
import LoadBridge.Proofs.Bridge.Emission
import LoadBridge.Proofs.Bridge.Totality
import LoadBridge.Proofs.Files.Tree

/-!
# Command — Output files that keep apart

The paths of the files of a run are those of their names in the output directory
(`map_path_files`).  A fragment is named after its class with everything but letters and digits made
an underscore, and a header and a source after their extensions, so that files share a path when two
classes are named alike or the extensions are the same, and only then (`nodup_paths_iff`).  Where
they share none, all of them are there when all are written (`files_kept`).
-/

namespace LoadBridge

/-! ### Names in a directory -/

/-- How the paths in a directory start. -/
def directoryPrefix (directory : String) : String :=
  if directory.toList.getLast? = some '/' then directory else directory ++ "/"

theorem inDirectory_eq {name : String} (h : name.toList.head? ≠ some '/') (directory : String) :
    inDirectory directory name = directoryPrefix directory ++ name := by
  have hrelative : ¬ Text.startsWith name "/" = true := by
    cases hname : name.toList with
    | nil => simp [Text.startsWith, hname]
    | cons c rest =>
        have hc : c ≠ '/' := by simpa [hname] using h
        simp [Text.startsWith, hname, hc.symm]
  rw [inDirectory, if_neg hrelative, directoryPrefix]
  split <;> rfl

theorem exists_directoryPrefix_eq (directory : String) :
    ∃ base, directoryPrefix directory = base ++ "/" := by
  rw [directoryPrefix]
  split
  · next hslash =>
    obtain ⟨cs, hcs⟩ := List.getLast?_eq_some_iff.1 hslash
    refine ⟨.ofList cs, ?_⟩
    rw [← String.toList_inj, hcs]
    simp
  · exact ⟨directory, rfl⟩

/-! ### Stems -/

/-- A stem is made of letters, digits and underscores. -/
theorem of_mem_fileStem {target : String} {c : Char} (hc : c ∈ (fileStem target).toList) :
    c.isAlphanum = true ∨ c = '_' := by
  rw [fileStem, String.toList_ofList] at hc
  obtain ⟨x, -, rfl⟩ := List.mem_map.1 hc
  split
  · next h => exact .inl h
  · exact .inr rfl

theorem fileStem_ne_empty {target : String} (h : target ≠ "") : (fileStem target).toList ≠ [] := by
  rw [fileStem, String.toList_ofList]
  simpa using h

/-! ### Writing files -/

namespace Invocation

variable {α β : Type} {t t' : FileTree}

/-- Two steps on a tree that succeed, taken apart. -/
theorem run_bind_eq_ok {x : ExceptT CommandError (StateM FileTree) α}
    {f : α → ExceptT CommandError (StateM FileTree) β} {b : β}
    (h : (x >>= f).run t = (.ok b, t')) :
    ∃ a t₁, x.run t = (.ok a, t₁) ∧ (f a).run t₁ = (.ok b, t') := by
  have hrun : (x >>= f).run t = match x.run t with
      | (.ok a, t₁) => (f a).run t₁
      | (.error e, t₁) => (.error e, t₁) := by
    show (x.run >>= ExceptT.bindCont f) t = _
    simp only [bind, StateT.bind]
    rcases x.run t with ⟨r, t₁⟩
    cases r <;> rfl
  rw [hrun] at h
  split at h
  · next a t₁ hx => exact ⟨a, t₁, hx, h⟩
  · cases h

/-- A change to a tree that succeeds. -/
theorem run_commit_eq_ok {change : FileTree → Except FileError FileTree}
    {complain : FileError → CommandError}
    (h : ((ExceptT.mk (FileTree.commit change)).adapt complain).run t = (.ok (), t')) :
    change t = .ok t' := by
  have hrun : ((ExceptT.mk (FileTree.commit change)).adapt complain).run t =
      ((FileTree.commit change t).1.mapError complain, (FileTree.commit change t).2) := rfl
  rw [hrun, FileTree.commit] at h
  obtain ⟨hdone, htree⟩ := Prod.mk.inj h
  split at hdone
  · next changed hchange =>
    rw [hchange] at htree
    exact hchange.trans (congrArg Except.ok htree)
  · cases hdone

/-- When all files are written, each is written after those before it. -/
theorem writes_of_forM {files : List OutputFile}
    (h : (files.forM fun file => (ExceptT.mk (FileTree.access.write file.path file.text)).adapt
      (CommandError.file file.path)).run t = (.ok (), t')) :
    FileTree.Writes t (files.map fun f => (f.path, f.text)) t' := by
  induction files generalizing t with
  | nil =>
      cases h
      exact .nil _
  | cons file rest ih =>
      obtain ⟨_, t₁, hfile, hrest⟩ := run_bind_eq_ok h
      exact .cons (run_commit_eq_ok hfile) (ih hrest)

theorem writes_of_writeFiles {out : String} {files : List OutputFile}
    (h : (writeFiles FileTree.access out files).run t = (.ok (), t')) :
    ∃ t₀, FileTree.Writes t₀ (files.map fun f => (f.path, f.text)) t' := by
  obtain ⟨_, t₀, -, hfiles⟩ := run_bind_eq_ok h
  exact ⟨t₀, writes_of_forM hfiles⟩

end Invocation

namespace GenerationOutput

open Context

variable {g : GenerationOutput} {layout : OutputSection}

/-! ### The names of the files -/

/-- The names of the headers and the source. -/
def codeNames (layout : OutputSection) : List String :=
  ["dlwrap_library" ++ layout.headerExtension, "dlwrap_host" ++ layout.headerExtension,
    "dlwrap_library" ++ layout.sourceExtension]

/-- The name of a fragment in the output directory. -/
def fragmentName (layout : OutputSection) (stem : String) : String :=
  "augment/" ++ (stem ++ layout.headerExtension)

/-- The names of the tables. -/
def tableNames : List String :=
  ["factories.json", "loaded_types.json", "ledger.json", "notices.json"]

/-- The names of all files in the output directory. -/
def fileNames (g : GenerationOutput) (layout : OutputSection) : List String :=
  codeNames layout ++ (g.classes.map fun c => fragmentName layout (fileStem c.target)) ++ tableNames

theorem head?_stem_append {target : String} (h : target ≠ "") (extension : String) : ∃ c,
    (fileStem target ++ extension).toList.head? = some c ∧ (c.isAlphanum = true ∨ c = '_') := by
  cases hstem : (fileStem target).toList with
  | nil => exact absurd hstem (fileStem_ne_empty h)
  | cons c rest =>
      have hc : c ∈ (fileStem target).toList := hstem ▸ List.mem_cons_self
      exact ⟨c, by simp [hstem], of_mem_fileStem hc⟩

/-- Names of files that lie directly in the output directory. -/
theorem map_inDirectory {names : List String}
    (h : ∀ name ∈ names, name.toList.head? ≠ some '/') (out : String) :
    names.map (inDirectory out) = names.map (directoryPrefix out ++ ·) :=
  List.map_congr_left fun name hname => inDirectory_eq (h name hname) out

theorem head?_of_mem_codeNames {name : String} (h : name ∈ codeNames layout) :
    name.toList.head? = some 'd' := by
  simp only [codeNames, List.mem_cons, List.not_mem_nil, or_false] at h
  rcases h with rfl | rfl | rfl <;> simp

theorem map_path_fragmentFiles (hnamed : ∀ c ∈ g.classes, c.target ≠ "") (layout : OutputSection)
    (out : String) : (g.fragmentFiles layout out).map OutputFile.path =
      (g.classes.map fun c => fragmentName layout (fileStem c.target)).map
        (directoryPrefix out ++ ·) := by
  have haugment : directoryPrefix (fragmentDirectory out) = directoryPrefix out ++ "augment/" := by
    rw [fragmentDirectory, inDirectory_eq (by simp), directoryPrefix, if_neg (by simp)]
    simp [String.append_assoc]
  rw [fragmentFiles, List.map_map, List.map_map]
  refine List.map_congr_left fun c hc => ?_
  obtain ⟨first, hfirst, hword⟩ := head?_stem_append (hnamed c hc) layout.headerExtension
  have hrelative : (fileStem c.target ++ layout.headerExtension).toList.head? ≠ some '/' := by
    rw [hfirst]
    rintro ⟨rfl⟩
    exact absurd hword (by decide)
  show inDirectory _ _ = _
  rw [inDirectory_eq hrelative, haugment, String.append_assoc]
  rfl

/-- **Every file has its name in the output directory.** -/
theorem map_path_files (hnamed : ∀ c ∈ g.classes, c.target ≠ "") (layout : OutputSection)
    (out : String) : (g.files layout out).map OutputFile.path =
      (g.fileNames layout).map (directoryPrefix out ++ ·) := by
  have hcode : (g.codeFiles layout out).map OutputFile.path =
      (codeNames layout).map (directoryPrefix out ++ ·) := by
    rw [← map_inDirectory fun name hname => ?_]
    · rfl
    · simp [head?_of_mem_codeNames hname]
  have htables : (g.tableFiles out).map OutputFile.path =
      tableNames.map (directoryPrefix out ++ ·) := by
    rw [← map_inDirectory (by simp [tableNames])]
    rfl
  rw [files, List.map_append, List.map_append, hcode, map_path_fragmentFiles hnamed, htables,
    fileNames, List.map_append, List.map_append]

/-! ### Names that are shared -/

theorem fragmentName_injective (layout : OutputSection) :
    Function.Injective (fragmentName layout) := by
  intro a b h
  rw [fragmentName, fragmentName, String.append_right_inj] at h
  exact String.append_left_inj _ |>.1 h

theorem nodup_codeNames_iff :
    (codeNames layout).Nodup ↔ layout.headerExtension ≠ layout.sourceExtension := by
  have hlibrary (a b : String) : "dlwrap_library" ++ a ≠ "dlwrap_host" ++ b := by
    simp [← String.toList_inj]
  simp [codeNames, hlibrary, (hlibrary _ _).symm]

theorem nodup_fragmentNames_iff (layout : OutputSection) (stems : List String) :
    (stems.map (fragmentName layout)).Nodup ↔ stems.Nodup :=
  List.nodup_map_iff (fragmentName_injective layout)

/-- The names of the three sorts start with different letters. -/
theorem disjoint_fileNames (layout : OutputSection) (stems : List String) :
    (∀ a ∈ codeNames layout, ∀ b ∈ stems.map (fragmentName layout), a ≠ b) ∧
      ∀ a ∈ codeNames layout ++ stems.map (fragmentName layout), ∀ b ∈ tableNames, a ≠ b := by
  have hfragment : ∀ b ∈ stems.map (fragmentName layout), b.toList.head? = some 'a' := by
    intro b hb
    obtain ⟨stem, -, rfl⟩ := List.mem_map.1 hb
    simp [fragmentName]
  have htable : ∀ b ∈ tableNames, b.toList.head? ≠ some 'd' ∧ b.toList.head? ≠ some 'a' := by
    simp [tableNames]
  constructor
  · rintro a ha b hb rfl
    cases (head?_of_mem_codeNames ha).symm.trans (hfragment a hb)
  · rintro a ha b hb rfl
    rcases List.mem_append.1 ha with ha | ha
    · exact (htable a hb).1 (head?_of_mem_codeNames ha)
    · exact (htable a hb).2 (hfragment a ha)

/-- **Which names are shared.** -/
theorem nodup_fileNames_iff : (g.fileNames layout).Nodup ↔
    layout.headerExtension ≠ layout.sourceExtension ∧
      (g.classes.map fun c => fileStem c.target).Nodup := by
  have hstems : g.classes.map (fun c => fragmentName layout (fileStem c.target)) =
      (g.classes.map fun c => fileStem c.target).map (fragmentName layout) := by
    rw [List.map_map]
    rfl
  obtain ⟨hfragments, htables⟩ :=
    disjoint_fileNames layout (g.classes.map fun c => fileStem c.target)
  rw [fileNames, hstems, List.nodup_append, List.nodup_append, nodup_codeNames_iff,
    nodup_fragmentNames_iff]
  refine ⟨fun h => ⟨h.1.1, h.1.2.1⟩, fun h => ⟨⟨h.1, h.2, hfragments⟩, ?_, htables⟩⟩
  simp [tableNames]

theorem nodup_paths_iff (hnamed : ∀ c ∈ g.classes, c.target ≠ "") (out : String) :
    ((g.files layout out).map OutputFile.path).Nodup ↔
      layout.headerExtension ≠ layout.sourceExtension ∧
        (g.classes.map fun c => fileStem c.target).Nodup := by
  have hinjective : Function.Injective (directoryPrefix out ++ ·) := fun _ _ h =>
    (String.append_right_inj _).1 h
  rw [map_path_files hnamed, List.nodup_map_iff hinjective, nodup_fileNames_iff]

/-! ### Files on disk -/

/-- Where extensions have no slashes, the names of the files are plain, and so is the directory of
the fragments. -/
theorem isPlain_of_mem_fileNames (hnamed : ∀ c ∈ g.classes, c.target ≠ "")
    (hheader : '/' ∉ layout.headerExtension.toList)
    (hsource : '/' ∉ layout.sourceExtension.toList) {name : String}
    (h : name ∈ g.fileNames layout) : ∀ n ∈ namesIn name, FileTree.IsPlain n := by
  have hone {name : String} {c : Char} (hslash : '/' ∉ name.toList)
      (hhead : name.toList.head? = some c) (hc : c ≠ '.') :
      ∀ n ∈ namesIn name, FileTree.IsPlain n := by
    rw [namesIn_of_not_mem hslash]
    simpa using FileTree.isPlain_of_head? hhead hc
  rw [fileNames, List.mem_append, List.mem_append] at h
  rcases h with (hcode | hfragment) | htable
  · refine hone ?_ (head?_of_mem_codeNames hcode) (by decide)
    simp only [codeNames, List.mem_cons, List.not_mem_nil, or_false] at hcode
    rcases hcode with rfl | rfl | rfl <;> simp [hheader, hsource]
  · obtain ⟨c, hc, rfl⟩ := List.mem_map.1 hfragment
    obtain ⟨first, hfirst, hword⟩ := head?_stem_append (hnamed c hc) layout.headerExtension
    have hslash : '/' ∉ (fileStem c.target ++ layout.headerExtension).toList := by
      rw [String.toList_append, List.mem_append, not_or]
      exact ⟨fun hmem => absurd (of_mem_fileStem hmem) (by decide), hheader⟩
    have hdot : first ≠ '.' := by
      rintro rfl
      exact absurd hword (by decide)
    have hsplit : fragmentName layout (fileStem c.target) =
        "augment" ++ "/" ++ (fileStem c.target ++ layout.headerExtension) := rfl
    rw [hsplit, namesIn_append_slash, List.forall_mem_append]
    exact ⟨hone (by simp) rfl (by decide), hone hslash hfirst hdot⟩
  · simp only [tableNames, List.mem_cons, List.not_mem_nil, or_false] at htable
    rcases htable with rfl | rfl | rfl | rfl
    · exact hone (by simp) rfl (by decide)
    · exact hone (by simp) rfl (by decide)
    · exact hone (by simp) rfl (by decide)
    · exact hone (by simp) rfl (by decide)

/-! ### Runs -/

variable {table : SymbolTable} {config : Config}

theorem target_ne_empty (h : generate table config = .ok g)
    (hnamed : ∀ c ∈ table.classes, c.qualifiedName ≠ "") : ∀ c ∈ g.classes, c.target ≠ "" := by
  intro output houtput
  obtain ⟨c, hc, hgenerates⟩ := exists_plan_of_mem_classes h houtput
  rw [hgenerates.target]
  exact hnamed c (mem_loadSet.1 (mem_loadSet_of_mem_runOrder hc)).1

/-- **When no file overwrites another.**  The paths of the files of a run are distinct exactly when
headers and sources have different extensions and no two classes have the same stem.  Then, with
extensions that lead to no other directory, all files are on disk once all are written. -/
theorem files_kept (h : generate table config = .ok g)
    (hnamed : ∀ c ∈ table.classes, c.qualifiedName ≠ "") (out : String) :
    (((g.files config.output out).map OutputFile.path).Nodup ↔
      config.output.headerExtension ≠ config.output.sourceExtension ∧
        (g.classes.map fun c => fileStem c.target).Nodup) ∧
    (((g.files config.output out).map OutputFile.path).Nodup →
      '/' ∉ config.output.headerExtension.toList → '/' ∉ config.output.sourceExtension.toList →
      ∀ t t', (Invocation.writeFiles FileTree.access out (g.files config.output out)).run t =
        (.ok (), t') → ∀ f ∈ g.files config.output out, t'.read f.path = .ok f.text) := by
  have hnamed := target_ne_empty h hnamed
  refine ⟨nodup_paths_iff hnamed out, fun hnodup hheader hsource t t' hwritten => ?_⟩
  obtain ⟨t₀, hwrites⟩ := Invocation.writes_of_writeFiles hwritten
  obtain ⟨base, hbase⟩ := exists_directoryPrefix_eq out
  have hname : ∀ f ∈ g.files config.output out, ∃ name ∈ g.fileNames config.output,
      f.path = base ++ "/" ++ name := by
    intro f hf
    have hpath := List.mem_map_of_mem (f := OutputFile.path) hf
    rw [map_path_files hnamed] at hpath
    obtain ⟨name, hmem, heq⟩ := List.mem_map.1 hpath
    exact ⟨name, hmem, by rw [← heq, hbase]⟩
  have hapart : (g.files config.output out).Pairwise fun f f' =>
      ∀ p, t'.locate f.path = .ok p → t'.locate f'.path ≠ .ok p := by
    refine (List.pairwise_map.1 hnodup).imp_of_mem fun {f f'} hf hf' hne p hp hp' => hne ?_
    obtain ⟨name, hmem, hpath⟩ := hname f hf
    obtain ⟨name', hmem', hpath'⟩ := hname f' hf'
    rw [hpath] at hp
    rw [hpath'] at hp'
    have hsame := FileTree.eq_of_locate_eq (isPlain_of_mem_fileNames hnamed hheader hsource hmem)
      (isPlain_of_mem_fileNames hnamed hheader hsource hmem') hp hp'
    rw [hpath, hpath', hsame]
  intro f hf
  exact hwrites.read (List.pairwise_map.2 hapart) (f.path, f.text) (List.mem_map_of_mem hf)

/-! ### Classes with one stem -/

/-- Three templates without members.  The first two have the stem `Holder_int__`. -/
def holderTable : SymbolTable where
  records :=
    [.ofClass { id := ⟨"_1"⟩, name := "Holder<int*>" },
      .ofClass { id := ⟨"_2"⟩, name := "Holder<int&>" },
      .ofClass { id := ⟨"_3"⟩, name := "Holder<int>" }]
  distinct := by decide

/-- Loads these classes. -/
def holderConfig (classes : List String) : Config where
  load := { classes }

theorem holderTable_wellFormed : holderTable.WellFormed where
  members := by simp [holderTable, SymbolTable.classes, Record.asClass?]
  typed := by decide
  bases := by simp [holderTable, Record.types]

theorem exists_run_holder (classes : List String)
    (hvalid : (holderConfig classes).validate = .ok ())
    (horder : (runOrder holderTable (holderConfig classes)).map ClassRecord.qualifiedName =
      classes) : ∃ g, generate holderTable (holderConfig classes) = .ok g ∧
        g.classes.map ClassOutput.target = classes ∧ g.ledger.classesDone = classes := by
  obtain ⟨g, hg⟩ := succeeds_generate holderTable_wellFormed hvalid
  have htargets := (map_target_classes hg).trans horder
  exact ⟨g, hg, htargets, (ledger_classesDone hg).trans htargets⟩

theorem files_kept_holder : ∃ g,
    generate holderTable (holderConfig ["Holder<int*>", "Holder<int>"]) = .ok g ∧
    g.classes.map ClassOutput.target = ["Holder<int*>", "Holder<int>"] ∧
    ((g.files (holderConfig ["Holder<int*>", "Holder<int>"]).output "generated").map
      OutputFile.path).Nodup ∧
    ∀ t t', (Invocation.writeFiles FileTree.access "generated"
      (g.files (holderConfig ["Holder<int*>", "Holder<int>"]).output "generated")).run t =
        (.ok (), t') →
      ∀ f ∈ g.files (holderConfig ["Holder<int*>", "Holder<int>"]).output "generated",
        t'.read f.path = .ok f.text := by
  obtain ⟨g, hg, htargets, -⟩ := exists_run_holder ["Holder<int*>", "Holder<int>"]
    (by cbv) (by cbv)
  have hnamed : ∀ c ∈ holderTable.classes, c.qualifiedName ≠ "" := by decide
  have hstems : (g.classes.map fun c => fileStem c.target) = ["Holder_int__", "Holder_int_"] := by
    rw [← Function.comp_def fileStem, ← List.map_map, htargets]
    cbv
  obtain ⟨hpaths, hdisk⟩ := files_kept hg hnamed "generated"
  have hnodup := hpaths.2 ⟨by decide, hstems ▸ by decide⟩
  exact ⟨g, hg, htargets, hnodup, hdisk hnodup (by decide) (by decide)⟩

/-- The fragments of these classes say at their start which class they are for. -/
theorem exists_fragment_holder {classes : List String}
    (h : generate holderTable (holderConfig classes) = .ok g) {output : ClassOutput}
    (houtput : output ∈ g.classes) (width : Nat) : ∃ rest, output.augmentation.fragment width =
      "// declaration location unknown\n// Add to the base list of " ++
        (output.target ++ (":\n" ++ rest)) := by
  obtain ⟨c, hc, _, plan, hplan, rfl⟩ := exists_plan_of_mem_classes h houtput
  have hunknown : ∀ c ∈ holderTable.classes, c.location = none := by decide
  have hlocation := hunknown c (mem_loadSet.1 (mem_loadSet_of_mem_runOrder hc)).1
  obtain rfl := record_of_planClass hplan
  simp only [Augmentation.fragment, outputOf, augmentationOf, hlocation, String.append_assoc]
  exact ⟨_, rfl⟩

/-- **Two fragments that overwrite each other.**  Two classes whose names differ in a character that
is no letter have fragments of one path and of different texts.  So no tree has them all. -/
theorem files_overwritten : ∃ g,
    generate holderTable (holderConfig ["Holder<int*>", "Holder<int&>"]) = .ok g ∧
    g.isEmpty = false ∧ g.classes.map ClassOutput.target = ["Holder<int*>", "Holder<int&>"] ∧
    ¬ ((g.files (holderConfig ["Holder<int*>", "Holder<int&>"]).output "generated").map
      OutputFile.path).Nodup ∧
    ∀ t : FileTree,
      ∃ f ∈ g.files (holderConfig ["Holder<int*>", "Holder<int&>"]).output "generated",
        t.read f.path ≠ .ok f.text := by
  obtain ⟨g, hg, htargets, hdone⟩ := exists_run_holder ["Holder<int*>", "Holder<int&>"]
    (by cbv) (by cbv)
  obtain ⟨first, others, hclasses, hfirst, hothers⟩ := List.map_eq_cons_iff.1 htargets
  obtain ⟨second, rfl, hsecond⟩ := List.map_eq_singleton_iff.1 hothers
  have hpath {target : String} (h : target = "Holder<int*>" ∨ target = "Holder<int&>") :
      inDirectory (fragmentDirectory "generated") (fileStem target ++ ".hpp") =
        "generated/augment/Holder_int__.hpp" := by
    rcases h with rfl | rfl <;> decide
  have hfragments : g.fragmentFiles (holderConfig ["Holder<int*>", "Holder<int&>"]).output
      "generated" = [⟨"generated/augment/Holder_int__.hpp", first.augmentation.fragment 4⟩,
        ⟨"generated/augment/Holder_int__.hpp", second.augmentation.fragment 4⟩] := by
    rw [fragmentFiles, hclasses, List.map_cons, List.map_singleton, hfirst, hsecond]
    exact congrArg₂ (fun p q => [OutputFile.mk p _, OutputFile.mk q _]) (hpath (.inl rfl))
      (hpath (.inr rfl))
  have htexts : first.augmentation.fragment 4 ≠ second.augmentation.fragment 4 := by
    have hsecond_mem : second ∈ g.classes := by simp [hclasses]
    obtain ⟨rest, hrest⟩ := exists_fragment_holder hg (hclasses ▸ List.mem_cons_self) 4
    obtain ⟨rest', hrest'⟩ := exists_fragment_holder hg hsecond_mem 4
    rw [hrest, hrest', Ne, String.append_right_inj, hfirst, hsecond, ← String.toList_inj]
    simp
  refine ⟨g, hg, ?_, htargets, fun hnodup => ?_, fun t => ?_⟩
  · rw [GenerationOutput.isEmpty, hdone]
    rfl
  · rw [files, hfragments, List.map_append, List.map_append] at hnodup
    have hboth := hnodup.of_append_left.of_append_right
    simp at hboth
  · by_contra! hkept
    have hread : ∀ f ∈ g.fragmentFiles (holderConfig ["Holder<int*>", "Holder<int&>"]).output
        "generated", t.read f.path = .ok f.text := fun f hf =>
      hkept f (List.mem_append_left _ (List.mem_append_right _ hf))
    rw [hfragments] at hread
    obtain ⟨hread, hothers⟩ := List.forall_mem_cons.1 hread
    have hread' := List.forall_mem_singleton.1 hothers
    exact htexts (Except.ok.inj (hread.symm.trans hread'))

end GenerationOutput

end LoadBridge
