/-
RepoEvidence/Fans.lean

The counters of the import graph.

`acquire_repo_evidence` counts `fan_in` and `fan_out` in two dicts while it makes the edges, and
reads them afterwards, module by module.  `acquireCounted` is the acquisition with these dicts; its
pack is the one of `acquireRepoEvidence`, where the edges are counted in the end
(`acquire_of_counted`).  From there the sums are those of a graph whose ends are all modules
(`fans_conserved`).
-/
import Mathlib.Algebra.BigOperators.Ring.Finset
import KonohaRuntime.RepoEvidence.Imports

namespace Konoha.RepoEvidence

open Json

/-! ### The counters -/

/-- `fan_in` and `fan_out` -/
structure Fans where
  fanIn : List (String × Nat)
  fanOut : List (String × Nat)

/-- `d.get(rel, 0)` -/
def countOf (d : List (String × Nat)) (rel : String) : Nat := (find rel d).getD 0

/-- `d[rel] = d.get(rel, 0) + 1` -/
def countUp (d : List (String × Nat)) (rel : String) : List (String × Nat) :=
  assign rel (countOf d rel + 1) d

/-- `addTarget`, with the counters -/
def countTarget (tools : Tools) (index : ModuleIndex) (rel : String) (lineno : Nat)
    (state : List String × Extraction × Fans) (target : String × ModuleName) :
    List String × Extraction × Fans :=
  let (seen, s, fans) := state
  if ! worthResolving tools target.2 then (seen, s, fans)
  else
    match resolveModule target.2 index with
    | none => (seen, s.unknown rel ("unresolved_import:" ++ target.1), fans)
    | some resolved =>
        if resolved = rel ∨ resolved ∈ seen then (seen, s, fans)
        else
          (resolved :: seen,
            { s with
              provenance := s.provenance.cite (locator rel lineno lineno (s.hashOf rel) "ast")
              importsGraph := s.importsGraph ++
                [[("from_path", .str rel), ("to_path", .str resolved),
                  ("evidence_ref", .str s.provenance.nextRef)]] },
            ⟨countUp fans.fanIn resolved, countUp fans.fanOut rel⟩)

/-- `addNode`, with the counters -/
def countNode (tools : Tools) (index : ModuleIndex) (rel : String) (state : Extraction × Fans)
    (node : Node) : Extraction × Fans :=
  ((resolveImportTarget rel node).foldl (countTarget tools index rel node.lineno) ([], state)).2

/-- `addImports`, with the counters -/
def countImports (tools : Tools) (index : ModuleIndex) (state : Extraction × Fans)
    (source : String × PyModule) : Extraction × Fans :=
  source.2.walk.foldl (countNode tools index source.1) state

/-- `addModule`, from the counters -/
def countedModule (fans : Fans) (s : Extraction) (source : String × PyModule) : Extraction :=
  let rel := source.1
  let ref := s.provenance.nextRef
  { s with
    provenance := s.provenance.cite (locator rel 1 1 (s.hashOf rel) "ast")
    modules := s.modules ++
      [[("path", .str rel), ("fan_in", .int (countOf fans.fanIn rel)),
        ("fan_out", .int (countOf fans.fanOut rel)), ("evidence_ref", .str ref)]]
    testFiles := if isTestFile rel then
        s.testFiles ++ [[("path", .str rel), ("evidence_ref", .str ref)]]
      else s.testFiles }

/-- `{rel: 0 for rel in parsed}`, twice -/
def initialFans (parsed : List (String × PyModule)) : Fans where
  fanIn := parsed.map fun source => (source.1, 0)
  fanOut := parsed.map fun source => (source.1, 0)

/-- `acquire_repo_evidence`, with its counters -/
def acquireCounted (tools : Tools) (scan : Scan) : Except PyExc Pack := do
  let s ← scan.reads.foldlM (addFile tools) (initialExtraction scan)
  let (parsed, s) ← s.pySources.foldlM (parseSource tools) ([], s)
  let index := buildModuleIndex parsed
  let s := parsed.foldl addModuleBody s
  let s ← s.manifestRawText.foldlM (addManifest tools index) s
  let (s, fans) := parsed.foldl (countImports tools index) (s, initialFans parsed)
  let s := parsed.foldl (countedModule fans) s
  if maxSize < s.provenance.length then .error (.exception "MemoryError")
  else return packOf tools scan parsed s

/-! ### What the counters are -/

/-- The counters are those of the edges. -/
def Counts (s : Extraction) (fans : Fans) : Prop :=
  ∀ rel, countOf fans.fanIn rel = degree s.importsGraph "to_path" rel ∧
    countOf fans.fanOut rel = degree s.importsGraph "from_path" rel

theorem countOf_countUp (d : List (String × Nat)) (rel other : String) :
    countOf (countUp d rel) other = countOf d other + if other = rel then 1 else 0 := by
  rw [countUp]
  by_cases h : other = rel
  · rw [if_pos h, h, countOf, find_assign_self]
    rfl
  · rw [if_neg h, Nat.add_zero, countOf, find_assign_ne h]
    rfl

theorem degree_append_edge (graph : List Dict) (edge : Dict) (endKey path : String) :
    degree (graph ++ [edge]) endKey path =
      degree graph endKey path + if fieldOf edge endKey = .str path then 1 else 0 := by
  rw [degree, List.countP_append, List.countP_singleton]
  by_cases h : fieldOf edge endKey = .str path
  · rw [if_pos h, if_pos (decide_eq_true h)]
    rfl
  · rw [if_neg h, if_neg (by rw [decide_eq_false h]; decide)]
    rfl

section Loops

variable {tools : Tools} {index : ModuleIndex} {rel : String} {s : Extraction} {fans : Fans}

/-- One target: the same edge, and the counters go with it. -/
theorem countTarget_eq (lineno : Nat) (seen : List String) (h : Counts s fans)
    (target : String × ModuleName) :
    ∃ fans', countTarget tools index rel lineno (seen, s, fans) target =
        ((addTarget tools index rel lineno (seen, s) target).1,
          (addTarget tools index rel lineno (seen, s) target).2, fans') ∧
      Counts (addTarget tools index rel lineno (seen, s) target).2 fans' := by
  simp only [countTarget, addTarget]
  split_ifs with hworth
  · exact ⟨fans, rfl, h⟩
  · rcases resolveModule target.2 index with - | resolved
    · exact ⟨fans, rfl, h⟩
    · dsimp only
      split_ifs with hskip
      · exact ⟨fans, rfl, h⟩
      · refine ⟨_, rfl, fun path => ?_⟩
        dsimp only
        rw [countOf_countUp, countOf_countUp, degree_append_edge, degree_append_edge,
          (h path).1, (h path).2]
        constructor <;> congr 2 <;> simp [fieldOf, lookup, eq_comm]

theorem foldl_countTarget (lineno : Nat) (targets : List (String × ModuleName))
    (seen : List String) (h : Counts s fans) :
    ∃ fans', targets.foldl (countTarget tools index rel lineno) (seen, s, fans) =
        ((targets.foldl (addTarget tools index rel lineno) (seen, s)).1,
          (targets.foldl (addTarget tools index rel lineno) (seen, s)).2, fans') ∧
      Counts (targets.foldl (addTarget tools index rel lineno) (seen, s)).2 fans' := by
  induction targets generalizing seen s fans with
  | nil => exact ⟨fans, rfl, h⟩
  | cons target targets ih =>
      obtain ⟨fans₁, hstep, hcounts⟩ := @countTarget_eq tools index rel s fans lineno seen h target
      rw [List.foldl_cons, hstep, List.foldl_cons]
      exact ih _ hcounts

theorem foldl_countNode (walk : List Node) (h : Counts s fans) :
    ∃ fans', walk.foldl (countNode tools index rel) (s, fans) =
        (walk.foldl (addNode tools index rel) s, fans') ∧
      Counts (walk.foldl (addNode tools index rel) s) fans' := by
  induction walk generalizing s fans with
  | nil => exact ⟨fans, rfl, h⟩
  | cons node walk ih =>
      obtain ⟨fans₁, hstep, hcounts⟩ := @foldl_countTarget tools index rel s fans node.lineno
        (resolveImportTarget rel node) [] h
      have hnode : countNode tools index rel (s, fans) node =
          (addNode tools index rel s node, fans₁) := by rw [countNode, hstep, addNode]
      rw [List.foldl_cons, hnode, List.foldl_cons]
      exact ih hcounts

theorem foldl_countImports (parsed : List (String × PyModule)) (h : Counts s fans) :
    ∃ fans', parsed.foldl (countImports tools index) (s, fans) =
        (parsed.foldl (addImports tools index) s, fans') ∧
      Counts (parsed.foldl (addImports tools index) s) fans' := by
  induction parsed generalizing s fans with
  | nil => exact ⟨fans, rfl, h⟩
  | cons source parsed ih =>
      obtain ⟨fans₁, hstep, hcounts⟩ :=
        @foldl_countNode tools index source.1 s fans source.2.walk h
      have hsource : countImports tools index (s, fans) source =
          (addImports tools index s source, fans₁) := by rw [countImports, hstep, addImports]
      rw [List.foldl_cons, hsource, List.foldl_cons]
      exact ih hcounts

/-- The modules read what has been counted. -/
theorem foldl_countedModule (parsed : List (String × PyModule)) (h : Counts s fans) :
    parsed.foldl (countedModule fans) s = parsed.foldl addModule s := by
  induction parsed generalizing s with
  | nil => rfl
  | cons source parsed ih =>
      have hmodule : countedModule fans s source = addModule s source := by
        rw [countedModule, addModule, (h source.1).1, (h source.1).2]
      rw [List.foldl_cons, hmodule, List.foldl_cons]
      exact ih fun path => h path

end Loops

theorem countOf_initial (parsed : List (String × PyModule)) (rel : String) :
    countOf (parsed.map fun source => (source.1, 0)) rel = 0 := by
  induction parsed with
  | nil => rfl
  | cons source parsed ih =>
      rw [countOf, List.map_cons, find]
      split_ifs
      · rfl
      · exact ih

theorem counts_initial {s : Extraction} (h : s.importsGraph = [])
    (parsed : List (String × PyModule)) : Counts s (initialFans parsed) := by
  intro rel
  rw [h]
  exact ⟨countOf_initial parsed rel, countOf_initial parsed rel⟩

/-- **Counting while the edges are made gives the same pack as counting them in the end.** -/
theorem acquire_of_counted {tools : Tools} {scan : Scan} {pack : Pack}
    (h : acquireCounted tools scan = .ok pack) : acquireRepoEvidence tools scan = .ok pack := by
  obtain ⟨s₁, hread, h⟩ := bind_eq_ok.mp h
  obtain ⟨⟨parsed, s₂⟩, hparse, h⟩ := bind_eq_ok.mp h
  obtain ⟨s₃, hmanifest, h⟩ := bind_eq_ok.mp h
  have hcounts := counts_initial (graph_before_imports hread hparse hmanifest) parsed
  obtain ⟨fans, himports, hcounted⟩ :=
    @foldl_countImports tools (buildModuleIndex parsed) s₃ (initialFans parsed) parsed hcounts
  refine bind_eq_ok.mpr ⟨s₁, hread, bind_eq_ok.mpr ⟨(parsed, s₂), hparse,
    bind_eq_ok.mpr ⟨s₃, hmanifest, ?_⟩⟩⟩
  dsimp only at h
  rw [himports] at h
  dsimp only at h
  rw [foldl_countedModule parsed hcounted] at h
  exact h

/-! ### The modules of a pack -/

theorem modules_foldl_addModule (parsed : List (String × PyModule)) (s : Extraction) :
    (parsed.foldl addModule s).modules.map (fun m =>
        (fieldOf m "path", fieldOf m "fan_in", fieldOf m "fan_out")) =
      s.modules.map (fun m => (fieldOf m "path", fieldOf m "fan_in", fieldOf m "fan_out")) ++
        parsed.map fun source => (.str source.1, .int (degree s.importsGraph "to_path" source.1),
          .int (degree s.importsGraph "from_path" source.1)) := by
  induction parsed generalizing s with
  | nil => exact (List.append_nil _).symm
  | cons source parsed ih =>
      rw [List.foldl_cons, ih]
      show (s.modules ++ [_]).map _ ++ _ = _
      rw [List.map_append, List.append_assoc]
      rfl

theorem sum_indicator (files : List String) (rel : String) :
    (files.map fun path => if path = rel then 1 else 0).sum = files.count rel := by
  induction files with
  | nil => rfl
  | cons path files ih => rw [List.map_cons, List.sum_cons, ih, List.count_cons, Nat.add_comm]; simp

/-- Each edge of a list is counted once, over names without repetition that cover its ends. -/
theorem sum_degree {graph : List Dict} {endKey : String} {files : List String}
    (hnodup : files.Nodup)
    (hends : ∀ edge ∈ graph, ∃ rel ∈ files, fieldOf edge endKey = .str rel) :
    (files.map fun rel => degree graph endKey rel).sum = graph.length := by
  induction graph with
  | nil =>
      have hzero : (files.map fun rel => degree [] endKey rel) = files.map fun _ => 0 := rfl
      rw [hzero, List.map_const', List.sum_replicate]
      rfl
  | cons edge graph ih =>
      obtain ⟨rel, hrel, hedge⟩ := hends edge List.mem_cons_self
      have hstep (path : String) : degree (edge :: graph) endKey path =
          degree graph endKey path + if path = rel then 1 else 0 := by
        rw [degree, List.countP_cons, hedge]
        simp [degree, eq_comm]
      rw [List.map_congr_left fun path _ => hstep path, List.sum_map_add, sum_indicator,
        List.count_eq_one_of_mem hnodup hrel,
        ih fun edge hmem => hends edge (List.mem_cons_of_mem _ hmem), List.length_cons]

/-- The values of modules that are degrees sum up to the edges. -/
theorem sum_intOf_degree {modules : List Dict} {parsed : List (String × PyModule)}
    {graph : List Dict} {value : Dict → Json} {endKey : String}
    (hnodup : (parsed.map (·.1)).Nodup)
    (hvalues : modules.map value = parsed.map fun source => .int (degree graph endKey source.1))
    (hends : ∀ edge ∈ graph, ∃ rel ∈ parsed.map (·.1), fieldOf edge endKey = .str rel) :
    (modules.map fun m => intOf (value m)).sum = graph.length := by
  have hmap : (modules.map fun m => intOf (value m)) =
      ((parsed.map (·.1)).map fun rel => degree graph endKey rel).map Nat.cast := by
    have := congrArg (List.map intOf) hvalues
    rw [List.map_map, List.map_map] at this
    rw [List.map_map, List.map_map]
    exact this
  rw [hmap, ← Nat.cast_list_sum, sum_degree hnodup hends]

theorem nodup_firstOnes (seen ts : List String) : (firstOnes seen ts).Nodup := by
  induction ts generalizing seen with
  | nil => exact List.nodup_nil
  | cons t ts ih =>
      rw [firstOnes]
      split_ifs with h
      · exact ih seen
      · refine List.nodup_cons.mpr ⟨fun hmem => ?_, ih (t :: seen)⟩
        exact (mem_firstOnes.mp hmem).2 List.mem_cons_self

theorem keys_parsedFiles (tools : Tools) (scan : Scan) :
    ((parsedFiles tools scan).map (·.1)).Nodup := by
  have hsublist (sources : List (String × String)) :
      ((sources.filterMap (parsedText tools)).map (·.1)).Sublist (sources.map (·.1)) := by
    induction sources with
    | nil => exact List.Sublist.refl _
    | cons source sources ih =>
        rw [List.filterMap_cons, List.map_cons]
        rcases hfile : parsedText tools source with - | file
        · exact ih.cons _
        · rw [List.map_cons, parsedText_rel hfile]
          exact ih.cons_cons _
  exact (nodup_reads scan).sublist ((hsublist _).trans (keys_pythonText _))

/-! ### Conservation -/

/-- The counters of the modules against the edges. -/
structure FansConserved (tools : Tools) (scan : Scan) (pack : Pack) : Prop where
  /-- The modules are the files that parse, each once. -/
  modules : pack.modules.map (fieldOf · "path") =
    (parsedFiles tools scan).map fun source => .str source.1
  nodup : ((parsedFiles tools scan).map (·.1)).Nodup
  counted : ∀ m ∈ pack.modules,
    fieldOf m "fan_in" = .int (pack.importsGraph.countP fun edge =>
      fieldOf edge "to_path" = fieldOf m "path") ∧
    fieldOf m "fan_out" = .int (pack.importsGraph.countP fun edge =>
      fieldOf edge "from_path" = fieldOf m "path")
  sumIn : (pack.modules.map fun m => intOf (fieldOf m "fan_in")).sum = pack.importsGraph.length
  sumOut : (pack.modules.map fun m => intOf (fieldOf m "fan_out")).sum = pack.importsGraph.length
  noLoop : ∀ edge ∈ pack.importsGraph, fieldOf edge "from_path" ≠ fieldOf edge "to_path"
  ends : ∀ edge ∈ pack.importsGraph, (∃ m ∈ pack.modules, fieldOf m "path" = fieldOf edge "from_path") ∧
    ∃ m ∈ pack.modules, fieldOf m "path" = fieldOf edge "to_path"
  /-- The edges are those of the nodes of the files, one after another, each node with the files
  that it leads to. -/
  statements : pack.importsGraph.map edgeEnds =
    (parsedFiles tools scan).flatMap fun source => source.2.walk.flatMap fun node =>
      (statementTargets tools (buildModuleIndex (parsedFiles tools scan)) source.1 node).map
        fun t => (.str source.1, .str t)
  /-- No node leads to a file twice. -/
  distinct : ∀ rel node,
    (statementTargets tools (buildModuleIndex (parsedFiles tools scan)) rel node).Nodup
  /-- A node leads to a file only by a name that it imports, and that is found there; a node that
  is no import imports no name. -/
  imported : ∀ rel node,
    ∀ t ∈ statementTargets tools (buildModuleIndex (parsedFiles tools scan)) rel node,
      ∃ target ∈ resolveImportTarget rel node, worthResolving tools target.2 = true ∧
        LongestKnown ((parsedFiles tools scan).map (·.1)) target.2 t

/-- A file that a node leads to is another one than its own, and found by an imported name. -/
theorem of_mem_statementTargets {tools : Tools} {parsed : List (String × PyModule)} {rel t : String}
    {node : Node} (h : t ∈ statementTargets tools (buildModuleIndex parsed) rel node) :
    t ≠ rel ∧ ∃ target ∈ resolveImportTarget rel node, worthResolving tools target.2 = true ∧
      LongestKnown (parsed.map (·.1)) target.2 t := by
  obtain ⟨htarget, hseen⟩ := mem_firstOnes.mp h
  obtain ⟨target, htarget, hname⟩ := List.mem_filterMap.mp htarget
  rw [targetOf] at hname
  split_ifs at hname with hworth
  refine ⟨fun heq => hseen (heq ▸ List.mem_singleton_self _), target, htarget, hworth, ?_⟩
  exact resolveModule_eq_some_iff.mp hname

/-- The ends of an edge are two files that parse. -/
theorem ends_of_edge {tools : Tools} {scan : Scan} {pack : Pack}
    (h : acquireRepoEvidence tools scan = .ok pack) {edge : Dict} (hedge : edge ∈ pack.importsGraph) :
    ∃ rel ∈ (parsedFiles tools scan).map (·.1), ∃ t ∈ (parsedFiles tools scan).map (·.1),
      fieldOf edge "from_path" = .str rel ∧ fieldOf edge "to_path" = .str t ∧ t ≠ rel := by
  have hmem : edgeEnds edge ∈ edgesOf tools (buildModuleIndex (parsedFiles tools scan))
      (parsedFiles tools scan) := importsGraph_eq h ▸ List.mem_map_of_mem hedge
  obtain ⟨source, hsource, hmem⟩ := List.mem_flatMap.mp hmem
  obtain ⟨node, -, hmem⟩ := List.mem_flatMap.mp hmem
  obtain ⟨t, ht, hends⟩ := List.mem_map.mp hmem
  obtain ⟨hfrom, hto⟩ := Prod.mk.inj hends
  obtain ⟨hne, target, -, -, hlongest⟩ := of_mem_statementTargets ht
  obtain ⟨n, -, -, hn, -⟩ := hlongest
  exact ⟨source.1, List.mem_map_of_mem hsource, t, knownAs_mem hn, hfrom.symm, hto.symm, hne⟩

theorem foldl_addImports_modules (tools : Tools) (index : ModuleIndex)
    (parsed : List (String × PyModule)) (s : Extraction) :
    (parsed.foldl (addImports tools index) s).modules = s.modules := by
  refine List.foldlRecOn (motive := fun s' : Extraction => s'.modules = s.modules) _ _ rfl
    fun s₁ h₁ source _ => ?_
  refine List.foldlRecOn (motive := fun s' : Extraction => s'.modules = s.modules) _ _ h₁
    fun s₂ h₂ node _ => ?_
  refine List.foldlRecOn (motive := fun state : List String × Extraction =>
    state.2.modules = s.modules) _ _ h₂ fun state h₃ target _ => ?_
  obtain ⟨seen, s₃⟩ := state
  rw [addTarget]
  split_ifs
  · exact h₃
  · split
    · exact h₃
    · split_ifs
      · exact h₃
      · exact h₃

/-- What a pack has of its modules. -/
theorem modules_of_acquire {tools : Tools} {scan : Scan} {pack : Pack}
    (h : acquireRepoEvidence tools scan = .ok pack) :
    pack.modules.map (fun m => (fieldOf m "path", fieldOf m "fan_in", fieldOf m "fan_out")) =
      (parsedFiles tools scan).map fun source => (.str source.1,
        .int (degree pack.importsGraph "to_path" source.1),
        .int (degree pack.importsGraph "from_path" source.1)) := by
  obtain ⟨s₁, s₂, s₃, stages⟩ := acquire_stages h
  have hempty : s₃.modules = [] :=
    congrArg Prod.snd (later_before_imports stages.read stages.parse stages.manifest)
  rw [stages.pack]
  show List.map _ (List.foldl addModule _ _).modules = List.map (fun source => (_,
    Json.int (degree (List.foldl addModule _ _).importsGraph "to_path" _),
    Json.int (degree (List.foldl addModule _ _).importsGraph "from_path" _))) _
  rw [modules_foldl_addModule, foldl_addImports_modules, hempty, foldl_addModule_graph]
  rfl

/-- **The counters of the modules are the degrees of the graph, and both sum up to its edges.** -/
theorem fans_conserved {tools : Tools} {scan : Scan} {pack : Pack}
    (h : acquireCounted tools scan = .ok pack) : FansConserved tools scan pack := by
  have hacquired := acquire_of_counted h
  have hrows := modules_of_acquire hacquired
  have hnodup := keys_parsedFiles tools scan
  have hvalues (f : Json × Json × Json → Json) :
      pack.modules.map (fun m => f (fieldOf m "path", fieldOf m "fan_in", fieldOf m "fan_out")) =
        (parsedFiles tools scan).map fun source => f (.str source.1,
          .int (degree pack.importsGraph "to_path" source.1),
          .int (degree pack.importsGraph "from_path" source.1)) := by
    have := congrArg (List.map f) hrows
    rwa [List.map_map, List.map_map] at this
  have hpaths : pack.modules.map (fieldOf · "path") =
      (parsedFiles tools scan).map fun source => .str source.1 := hvalues Prod.fst
  -- the paths of files are those of modules
  have hmodule {rel : String} (hrel : rel ∈ (parsedFiles tools scan).map (·.1)) :
      ∃ m ∈ pack.modules, fieldOf m "path" = .str rel := by
    obtain ⟨source, hsource, rfl⟩ := List.mem_map.mp hrel
    have hpath : Json.str source.1 ∈ pack.modules.map (fieldOf · "path") :=
      hpaths ▸ List.mem_map_of_mem hsource
    exact List.mem_map.mp hpath
  refine ⟨hpaths, hnodup, fun m hm => ?_, ?_, ?_, fun edge hedge => ?_, fun edge hedge => ?_,
    importsGraph_eq hacquired, fun rel node => nodup_firstOnes _ _,
    fun rel node t ht => (of_mem_statementTargets ht).2⟩
  · have hrow : (fieldOf m "path", fieldOf m "fan_in", fieldOf m "fan_out") ∈
        (parsedFiles tools scan).map fun source => (Json.str source.1,
          Json.int (degree pack.importsGraph "to_path" source.1),
          Json.int (degree pack.importsGraph "from_path" source.1)) :=
      hrows ▸ List.mem_map_of_mem hm
    obtain ⟨source, -, hrow⟩ := List.mem_map.mp hrow
    obtain ⟨hpath, hfans⟩ := Prod.mk.inj hrow
    obtain ⟨hin, hout⟩ := Prod.mk.inj hfans
    rw [← hpath]
    exact ⟨hin.symm, hout.symm⟩
  · refine sum_intOf_degree hnodup (hvalues (·.2.1)) fun edge hedge => ?_
    obtain ⟨-, -, t, ht, -, hto, -⟩ := ends_of_edge hacquired hedge
    exact ⟨t, ht, hto⟩
  · refine sum_intOf_degree hnodup (hvalues (·.2.2)) fun edge hedge => ?_
    obtain ⟨rel, hrel, -, -, hfrom, -⟩ := ends_of_edge hacquired hedge
    exact ⟨rel, hrel, hfrom⟩
  · obtain ⟨rel, -, t, -, hfrom, hto, hne⟩ := ends_of_edge hacquired hedge
    rw [hfrom, hto]
    exact fun heq => hne (Json.str.inj heq).symm
  · obtain ⟨rel, hrel, t, ht, hfrom, hto, -⟩ := ends_of_edge hacquired hedge
    rw [hfrom, hto]
    exact ⟨hmodule hrel, hmodule ht⟩

theorem strayFans_conserved : ∃ pack, acquireCounted strayTools strayScan = .ok pack ∧
    FansConserved strayTools strayScan pack :=
  have hpack : acquireCounted strayTools strayScan = .ok _ := rfl
  ⟨_, hpack, fans_conserved hpack⟩

end Konoha.RepoEvidence
