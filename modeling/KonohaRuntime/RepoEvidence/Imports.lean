/-
RepoEvidence/Imports.lean

The edges of the import graph that relative imports make, against Python's rule for them.

The rule goes by directories: a file is in the package of its directory, every level after the
first leaves one directory, and an import that leaves them all fails.  The code forms dotted
names by a slice of the package, which does not fail (`importBase_eq`), and looks for the
longest beginning of each that names a file (`resolveModule_eq_some_iff`).
-/
import KonohaRuntime.RepoEvidence.View

namespace Konoha.RepoEvidence

open Json

/-! ### Python's rule -/

/-- The directories of a file: its package. -/
def packageDir (rel : String) : List String := (pathParts rel).dropLast

/-- `__init__.py` of a package -/
def isPackage (rel : String) : Bool := fileName rel = "__init__.py"

/-- A relative import. -/
structure RelativeImport where
  level : Nat
  module : Option ModuleName
  names : List String

/-- The modules that an import under a package may name: `module`, and the names in it. -/
def RelativeImport.under (i : RelativeImport) (package : ModuleName) : List ModuleName :=
  (package ++ i.module.getD []) :: i.names.map fun name => package ++ i.module.getD [] ++ [name]

/-- The modules that a relative import of a file names: each level but the first leaves one
directory. -/
def RelativeImport.denoted (i : RelativeImport) (rel : String) : List ModuleName :=
  i.under ((packageDir rel).take ((packageDir rel).length - (i.level - 1)))

/-- The file of a module; a package goes before a module of the same name. -/
def FileOf (files : List String) (name : ModuleName) (t : String) : Prop :=
  t ∈ files ∧ moduleParts t = name ∧
    (isPackage t = true ∨ ∀ u ∈ files, moduleParts u = name → isPackage u = false)

/-- The file of one of the modules, or of a package that one of them is in. -/
def OnTheWay (files : List String) (i : RelativeImport) (rel t : String) : Prop :=
  ∃ name ∈ i.denoted rel,
    FileOf files name t ∨ (t ∈ files ∧ isPackage t = true ∧ moduleParts t <+: name)

/-- By the rule of Python the import leads to the file. -/
def Denotes (files : List String) (i : RelativeImport) (rel t : String) : Prop :=
  i.level ≤ (packageDir rel).length ∧ OnTheWay files i rel t

/-- A statement imports by this. -/
def Node.relative : Node → Option RelativeImport
  | .importFrom level module names _ => if level = 0 then none else some ⟨level, module, names⟩
  | _ => none

/-! ### Names of files -/

/-- The file that the index has for a name: the last one of that name, or else the first one
that has the name under `src/`. -/
def knownAs (files : List String) (name : ModuleName) : Option String :=
  if name.isBlank then none
  else
    match (files.filter fun rel => moduleName rel = some name).getLast? with
    | some rel => some rel
    | none => files.find? fun rel => aliasName rel = some name

/-- The longest beginning of a name that is one of a file, and the file. -/
def LongestKnown (files : List String) (name : ModuleName) (t : String) : Prop :=
  ∃ n, 0 < n ∧ n ≤ name.length ∧ knownAs files (name.take n) = some t ∧
    ∀ m, n < m → m ≤ name.length → knownAs files (name.take m) = none

section Index

variable {parsed : List (String × PyModule)} {name : ModuleName}

theorem find_foldl_raw (index : ModuleIndex) (hname : name.isBlank = false) :
    find name (parsed.foldl indexRaw index) =
      match ((parsed.map (·.1)).filter fun rel => moduleName rel = some name).getLast? with
      | some rel => some rel
      | none => find name index := by
  induction parsed generalizing index with
  | nil => rfl
  | cons source parsed ih =>
      have hstep : find name (indexRaw index source) =
          if moduleName source.1 = some name then some source.1 else find name index := by
        unfold indexRaw
        split
        · next name' hname' =>
          by_cases heq : name' = name
          · subst heq
            rw [if_neg (by rw [hname]; decide), find_assign_self, if_pos hname']
          · rw [if_neg (fun h => heq (Option.some.inj (hname'.symm.trans h)))]
            split_ifs
            · rfl
            · exact find_assign_ne (Ne.symm heq) _ _
        · next hnone => rw [if_neg (by rw [hnone]; exact (Option.some_ne_none _).symm)]
      rw [List.foldl_cons, ih, hstep, List.map_cons, List.filter_cons]
      generalize (parsed.map (·.1)).filter (fun rel => decide (moduleName rel = some name)) = known
      by_cases hm : moduleName source.1 = some name
      · rw [decide_eq_true hm, if_pos rfl, if_pos hm, List.getLast?_cons]
        cases known.getLast? <;> rfl
      · rw [decide_eq_false hm, if_neg Bool.false_ne_true, if_neg hm]

theorem find_foldl_alias (index : ModuleIndex) (hname : name.isBlank = false) :
    find name (parsed.foldl indexAlias index) =
      match find name index with
      | some rel => some rel
      | none => (parsed.map (·.1)).find? fun rel => aliasName rel = some name := by
  induction parsed generalizing index with
  | nil =>
      rw [List.foldl_nil]
      rcases find name index <;> rfl
  | cons source parsed ih =>
      have hstep : find name (indexAlias index source) =
          match find name index with
          | some rel => some rel
          | none => if aliasName source.1 = some name then some source.1 else none := by
        unfold indexAlias
        split
        · next name' hname' =>
          by_cases heq : name' = name
          · subst heq
            rcases hfind : find name' index with - | rel
            · rw [if_neg (by simp [hname]), find_assign_self, if_pos hname']
            · rw [if_pos (.inr rfl), hfind]
          · have hne : aliasName source.1 ≠ some name :=
              fun h => heq (Option.some.inj (hname'.symm.trans h))
            rw [if_neg hne]
            split_ifs
            · rcases find name index <;> rfl
            · rw [find_assign_ne (Ne.symm heq)]
              rcases find name index <;> rfl
        · next hnone =>
          rw [if_neg (by rw [hnone]; exact (Option.some_ne_none _).symm)]
          rcases find name index <;> rfl
      rw [List.foldl_cons, ih, hstep, List.map_cons, List.find?_cons]
      rcases find name index with - | rel
      · by_cases ha : aliasName source.1 = some name
        · rw [if_pos ha, decide_eq_true ha]
        · rw [if_neg ha, decide_eq_false ha]
      · rfl

theorem find_blank {index : ModuleIndex} (hindex : ∀ e ∈ index, e.1.isBlank = false)
    (hname : name.isBlank = true) : find name index = none := by
  rcases h : find name index with - | rel
  · rfl
  · have := hindex _ (find_mem h)
    rw [hname] at this
    cases this

theorem notBlank_assign {index : ModuleIndex} (hindex : ∀ e ∈ index, e.1.isBlank = false)
    {name : ModuleName} (hname : name.isBlank = false) (rel : String) :
    ∀ e ∈ assign name rel index, e.1.isBlank = false := by
  intro e he
  rcases mem_assign he with rfl | he
  · exact hname
  · exact hindex e he

/-- The index has no blank names. -/
theorem notBlank_build :
    ∀ e ∈ buildModuleIndex parsed, e.1.isBlank = false := by
  unfold buildModuleIndex
  refine List.foldlRecOn (motive := fun index : ModuleIndex => ∀ e ∈ index, e.1.isBlank = false)
    _ _ (List.foldlRecOn
      (motive := fun index : ModuleIndex => ∀ e ∈ index, e.1.isBlank = false) _ _ ?_ ?_) ?_
  · exact fun e he => nomatch he
  · intro index hindex source _
    unfold indexRaw
    split
    · split_ifs with hblank
      · exact hindex
      · exact notBlank_assign hindex (by simpa using hblank) _
    · exact hindex
  · intro index hindex source _
    unfold indexAlias
    split
    · split_ifs with hblank
      · exact hindex
      · exact notBlank_assign hindex (by simpa using (not_or.mp hblank).1) _
    · exact hindex

/-- What the index has for a name. -/
theorem find_buildModuleIndex (name : ModuleName) :
    find name (buildModuleIndex parsed) = knownAs (parsed.map (·.1)) name := by
  rcases hname : name.isBlank
  · rw [knownAs, if_neg (by rw [hname]; decide)]
    rw [buildModuleIndex, find_foldl_alias _ hname, find_foldl_raw _ hname]
    generalize (parsed.map (·.1)).filter (fun rel => decide (moduleName rel = some name)) = known
    cases known.getLast? <;> rfl
  · rw [find_blank notBlank_build hname, knownAs, if_pos hname]

theorem resolvePrefix_eq_some_iff {n : Nat} {t : String} :
    resolvePrefix (buildModuleIndex parsed) name n = some t ↔
      ∃ m, 0 < m ∧ m ≤ n ∧ knownAs (parsed.map (·.1)) (name.take m) = some t ∧
        ∀ k, m < k → k ≤ n → knownAs (parsed.map (·.1)) (name.take k) = none := by
  induction n with
  | zero =>
      refine iff_of_false (fun h => nomatch h) ?_
      rintro ⟨m, hpos, hle, -⟩
      omega
  | succ n ih =>
      rw [resolvePrefix, find_buildModuleIndex]
      rcases hfind : knownAs (parsed.map (·.1)) (name.take (n + 1)) with - | rel
      · dsimp only
        rw [ih]
        constructor
        · rintro ⟨m, hpos, hle, hm, hlonger⟩
          refine ⟨m, hpos, Nat.le_succ_of_le hle, hm, fun k hk hkn => ?_⟩
          rcases Nat.le_succ_iff.mp hkn with hkn | rfl
          · exact hlonger k hk hkn
          · exact hfind
        · rintro ⟨m, hpos, hle, hm, hlonger⟩
          have hne : m ≠ n + 1 := by
            rintro rfl
            rw [hfind] at hm
            cases hm
          exact ⟨m, hpos, by omega, hm, fun k hk hkn => hlonger k hk (by omega)⟩
      · dsimp only
        constructor
        · rintro h
          exact ⟨n + 1, by omega, le_rfl, hfind.trans h, fun k hk hkn => by omega⟩
        · rintro ⟨m, hpos, hle, hm, hlonger⟩
          rcases Nat.lt_or_ge m (n + 1) with hlt | hge
          · rw [hlonger (n + 1) hlt le_rfl] at hfind
            cases hfind
          · rw [Nat.le_antisymm hle hge] at hm
            exact hfind.symm.trans hm

/-- `_resolve_module` finds the file of the longest beginning that is known. -/
theorem resolveModule_eq_some_iff {t : String} :
    resolveModule name (buildModuleIndex parsed) = some t ↔
      LongestKnown (parsed.map (·.1)) name t :=
  resolvePrefix_eq_some_iff

end Index

/-! ### Statements -/

/-- The texts that have not been seen before. -/
def firstOnes (seen : List String) : List String → List String
  | [] => []
  | t :: ts => if t ∈ seen then firstOnes seen ts else t :: firstOnes (t :: seen) ts

theorem mem_firstOnes {seen ts : List String} {t : String} :
    t ∈ firstOnes seen ts ↔ t ∈ ts ∧ t ∉ seen := by
  induction ts generalizing seen with
  | nil => simp [firstOnes]
  | cons u ts ih =>
      rw [firstOnes]
      split_ifs with hu
      · rw [ih, List.mem_cons]
        constructor
        · rintro ⟨ht, hseen⟩
          exact ⟨.inr ht, hseen⟩
        · rintro ⟨rfl | ht, hseen⟩
          · exact absurd hu hseen
          · exact ⟨ht, hseen⟩
      · rw [List.mem_cons, List.mem_cons, ih, List.mem_cons, not_or]
        constructor
        · rintro (rfl | ⟨ht, -, hseen⟩)
          · exact ⟨.inl rfl, hu⟩
          · exact ⟨.inr ht, hseen⟩
        · rintro ⟨rfl | ht, hseen⟩
          · exact .inl rfl
          · by_cases heq : t = u
            · exact .inl heq
            · exact .inr ⟨ht, heq, hseen⟩

/-- The file that a name leads to, when it is looked for. -/
def targetOf (tools : Tools) (index : ModuleIndex) (name : ModuleName) : Option String :=
  if worthResolving tools name then resolveModule name index else none

/-- The files that a statement leads to, in the order of its edges. -/
def statementTargets (tools : Tools) (index : ModuleIndex) (rel : String) (node : Node) :
    List String :=
  firstOnes [rel] ((resolveImportTarget rel node).filterMap fun target =>
    targetOf tools index target.2)

/-- The ends of an edge. -/
def edgeEnds (edge : Dict) : Json × Json := (fieldOf edge "from_path", fieldOf edge "to_path")

theorem foldl_addTarget (tools : Tools) (index : ModuleIndex) (rel : String) (lineno : Nat)
    (targets : List (String × ModuleName)) (seen : List String) (s : Extraction) :
    (targets.foldl (addTarget tools index rel lineno) (seen, s)).2.importsGraph.map edgeEnds =
      s.importsGraph.map edgeEnds ++
        (firstOnes (seen ++ [rel]) (targets.filterMap fun target =>
          targetOf tools index target.2)).map fun t => (.str rel, .str t) := by
  induction targets generalizing seen s with
  | nil => exact (List.append_nil _).symm
  | cons target targets ih =>
      rw [List.foldl_cons, List.filterMap_cons]
      by_cases hworth : worthResolving tools target.2 = true
      · rcases hresolve : resolveModule target.2 index with - | t
        · have htarget : targetOf tools index target.2 = none := by
            rw [targetOf, if_pos hworth, hresolve]
          have hstep : addTarget tools index rel lineno (seen, s) target =
              (seen, s.unknown rel ("unresolved_import:" ++ target.1)) := by
            simp only [addTarget, hworth, hresolve]
            rfl
          rw [hstep, ih, htarget]
          rfl
        · have htarget : targetOf tools index target.2 = some t := by
            rw [targetOf, if_pos hworth, hresolve]
          rw [htarget]
          dsimp only
          by_cases hseen : t = rel ∨ t ∈ seen
          · have hstep : addTarget tools index rel lineno (seen, s) target = (seen, s) := by
              simp only [addTarget, hworth, hresolve]
              exact if_pos hseen
            rw [hstep, ih, firstOnes, if_pos]
            rw [List.mem_append, List.mem_singleton]
            exact hseen.symm
          · obtain ⟨s', hstep, hgraph⟩ : ∃ s', addTarget tools index rel lineno (seen, s) target =
                (t :: seen, s') ∧ s'.importsGraph.map edgeEnds =
                  s.importsGraph.map edgeEnds ++ [(.str rel, .str t)] := by
              simp only [addTarget, hworth, hresolve]
              refine ⟨_, if_neg hseen, ?_⟩
              rw [List.map_append]
              rfl
            rw [hstep, ih, hgraph, firstOnes, if_neg, List.append_assoc]
            · rfl
            · rw [List.mem_append, List.mem_singleton]
              exact fun h => hseen h.symm
      · have htarget : targetOf tools index target.2 = none := by rw [targetOf, if_neg hworth]
        have hstep : addTarget tools index rel lineno (seen, s) target = (seen, s) := by
          rw [Bool.not_eq_true] at hworth
          simp only [addTarget, hworth]
          rfl
        rw [hstep, ih, htarget]

theorem addNode_edges (tools : Tools) (index : ModuleIndex) (rel : String) (s : Extraction)
    (node : Node) :
    (addNode tools index rel s node).importsGraph.map edgeEnds =
      s.importsGraph.map edgeEnds ++
        (statementTargets tools index rel node).map fun t => (.str rel, .str t) :=
  foldl_addTarget tools index rel node.lineno _ [] s

theorem foldl_addNode (tools : Tools) (index : ModuleIndex) (rel : String) (walk : List Node)
    (s : Extraction) :
    (walk.foldl (addNode tools index rel) s).importsGraph.map edgeEnds =
      s.importsGraph.map edgeEnds ++ walk.flatMap fun node =>
        (statementTargets tools index rel node).map fun t => (.str rel, .str t) := by
  induction walk generalizing s with
  | nil => exact (List.append_nil _).symm
  | cons node walk ih =>
      rw [List.foldl_cons, ih, addNode_edges, List.flatMap_cons, List.append_assoc]

/-- The edges of the statements of the files, in their order. -/
def edgesOf (tools : Tools) (index : ModuleIndex) (parsed : List (String × PyModule)) :
    List (Json × Json) :=
  parsed.flatMap fun source => source.2.walk.flatMap fun node =>
    (statementTargets tools index source.1 node).map fun t => (.str source.1, .str t)

theorem foldl_addImports (tools : Tools) (index : ModuleIndex) (parsed : List (String × PyModule))
    (s : Extraction) :
    (parsed.foldl (addImports tools index) s).importsGraph.map edgeEnds =
      s.importsGraph.map edgeEnds ++ edgesOf tools index parsed := by
  induction parsed generalizing s with
  | nil => exact (List.append_nil _).symm
  | cons source parsed ih =>
      rw [List.foldl_cons, ih, addImports, foldl_addNode, List.append_assoc]
      rfl

/-! ### Files that parse -/

/-- The text of a Python file. -/
def pythonText (r : FileRead) : Option (String × String) :=
  match r.content with
  | .text text => if endsWith ".py" r.rel then some (r.rel, text) else none
  | _ => none

/-- What a text is parsed to. -/
def parsedText (tools : Tools) (source : String × String) : Option (String × PyModule) :=
  match tools.parse source.2 with
  | .ok tree => some (source.1, tree)
  | .error _ => none

/-- The Python files that parse. -/
def parsedFiles (tools : Tools) (scan : Scan) : List (String × PyModule) :=
  (scan.reads.filterMap pythonText).filterMap (parsedText tools)

/-- What only later loops make. -/
def Extraction.later (s : Extraction) : List Dict × List Dict := (s.importsGraph, s.modules)

section Reads

variable {tools : Tools} {s s' : Extraction}

theorem addDocClaims_keep (rel contentHash : String) (claims : List (Nat × List Char))
    (s : Extraction) :
    (claims.foldl (addDocClaim rel contentHash) s).pySources = s.pySources ∧
      (claims.foldl (addDocClaim rel contentHash) s).later = s.later := by
  induction claims generalizing s with
  | nil => exact ⟨rfl, rfl⟩
  | cons claim claims ih => exact ih _

theorem addText_keep {rel : String} (hpy : endsWith ".py" rel = false) (contentHash text : String)
    (s : Extraction) :
    (addText tools rel contentHash text s).pySources = s.pySources ∧
      (addText tools rel contentHash text s).later = s.later := by
  rw [addText, if_neg (by rw [hpy]; decide)]
  split_ifs
  · exact ⟨rfl, rfl⟩
  · exact addDocClaims_keep _ _ _ _
  · exact ⟨rfl, rfl⟩

theorem addFile_keep {r : FileRead} (hok : addFile tools s r = .ok s') :
    s'.pySources = ((pythonText r).elim s.pySources fun source =>
        assign source.1 source.2 s.pySources) ∧ s'.later = s.later := by
  unfold addFile at hok
  split at hok
  · cases hok
  · dsimp only at hok
    generalize hs₁ : ({ s with
        fileHash := _, languages := _, manifests := _ } : Extraction) = s₁ at hok
    have hsources : s₁.pySources = s.pySources := hs₁ ▸ rfl
    have hlater : s₁.later = s.later := hs₁ ▸ rfl
    rw [← hsources, ← hlater]
    unfold pythonText
    split at hok <;> obtain rfl := Except.ok.inj hok
    · next hcontent => rw [hcontent]; exact ⟨rfl, rfl⟩
    · next hcontent => rw [hcontent]; exact ⟨rfl, rfl⟩
    · next hcontent =>
      rw [hcontent]
      rcases hpy : endsWith ".py" r.rel
      · exact addText_keep hpy _ _ _
      · rw [addText, if_pos hpy]
        exact ⟨rfl, rfl⟩

theorem pythonText_rel {r : FileRead} {source : String × String} (h : pythonText r = some source) :
    source.1 = r.rel := by
  unfold pythonText at h
  split at h
  · split_ifs at h
    exact Option.some.inj h ▸ rfl
  · cases h

theorem parsedText_rel {source : String × String} {file : String × PyModule}
    (h : parsedText tools source = some file) : file.1 = source.1 := by
  unfold parsedText at h
  split at h
  · exact Option.some.inj h ▸ rfl
  · cases h

/-- A loop that assigns entries under names that are all different collects them. -/
theorem foldlM_collect {σ α β : Type} {step : σ → α → Except PyExc σ}
    (field : σ → List (String × β)) {name : α → String} {entry : α → Option (String × β)}
    (hname : ∀ x e, entry x = some e → e.1 = name x)
    (hstep : ∀ s x s', step s x = .ok s' →
      field s' = (entry x).elim (field s) fun e => assign e.1 e.2 (field s))
    {xs : List α} (hnodup : (xs.map name).Nodup) {s s' : σ}
    (hfresh : ∀ x ∈ xs, name x ∉ (field s).map (·.1)) (hok : xs.foldlM step s = .ok s') :
    field s' = field s ++ xs.filterMap entry := by
  induction xs generalizing s with
  | nil => exact Except.ok.inj hok ▸ (List.append_nil _).symm
  | cons x xs ih =>
      rw [List.foldlM_cons] at hok
      obtain ⟨s₁, hfirst, hrest⟩ := bind_eq_ok.mp hok
      rw [List.map_cons, List.nodup_cons] at hnodup
      have happend : field s₁ = field s ++ (entry x).toList := by
        rw [hstep _ _ _ hfirst]
        rcases hentry : entry x with - | e
        · exact (List.append_nil _).symm
        · refine assign_of_notMem ?_ _
          rw [hname x e hentry]
          exact hfresh x List.mem_cons_self
      have hlater : ∀ y ∈ xs, name y ∉ (field s₁).map (·.1) := by
        intro y hy hmem
        rw [happend, List.map_append, List.mem_append] at hmem
        rcases hmem with hmem | hmem
        · exact hfresh y (List.mem_cons_of_mem _ hy) hmem
        · obtain ⟨e, he, heq⟩ := List.mem_map.mp hmem
          rw [hname x e (Option.mem_toList.mp he)] at heq
          exact hnodup.1 (heq ▸ List.mem_map_of_mem hy)
      rw [ih hnodup.2 hlater hrest, happend, List.append_assoc, List.filterMap_cons]
      cases entry x <;> rfl

theorem parseSource_keep {state state' : List (String × PyModule) × Extraction}
    {source : String × String} (hok : parseSource tools state source = .ok state') :
    state'.1 = ((parsedText tools source).elim state.1 fun file => assign file.1 file.2 state.1) ∧
      state'.2.later = state.2.later := by
  unfold parseSource at hok
  unfold parsedText
  split at hok
  · next htree =>
    rw [← Except.ok.inj hok, htree]
    exact ⟨rfl, rfl⟩
  · next hrefused =>
    rw [← Except.ok.inj hok, hrefused]
    exact ⟨rfl, rfl⟩
  · cases hok

theorem addScripts_later (index : ModuleIndex) (rel rawText : String)
    (scripts : List (String × String)) (s : Extraction) :
    (scripts.foldl (addScript index rel rawText) s).later = s.later := by
  induction scripts generalizing s with
  | nil => rfl
  | cons script scripts ih =>
      rw [List.foldl_cons, ih]
      show ((scriptTarget index s.symbols script).2.2.elim s (s.unknown rel)).later = _
      cases (scriptTarget index s.symbols script).2.2 <;> rfl

theorem addManifest_later {index : ModuleIndex} {manifest : String × String}
    (hok : addManifest tools index s manifest = .ok s') : s'.later = s.later := by
  unfold addManifest at hok
  split at hok
  · exact Except.ok.inj hok ▸ rfl
  · cases hok
  · obtain ⟨scripts, -, h⟩ := bind_eq_ok.mp hok
    rw [← Except.ok.inj h]
    exact addScripts_later _ _ _ _ _

theorem addModuleBody_later (s : Extraction) (source : String × PyModule) :
    (addModuleBody s source).later = s.later := by
  refine List.foldlRecOn (motive := fun s' : Extraction => s'.later = s.later)
    _ _ rfl fun s' hs stmt _ => ?_
  rw [← hs]
  cases stmt <;> rfl

end Reads

theorem keys_pythonText (reads : List FileRead) :
    ((reads.filterMap pythonText).map (·.1)).Sublist (reads.map (·.rel)) := by
  induction reads with
  | nil => exact List.Sublist.refl _
  | cons r reads ih =>
      rw [List.filterMap_cons, List.map_cons]
      rcases hsource : pythonText r with - | source
      · exact ih.cons _
      · rw [List.map_cons, pythonText_rel hsource]
        exact ih.cons_cons _

theorem nodup_reads (scan : Scan) : (scan.reads.map (·.rel)).Nodup :=
  scan.sorted.imp fun hlt => ne_of_lt hlt

theorem initial_nothing (scan : Scan) : (initialExtraction scan).pySources = [] ∧
    (initialExtraction scan).manifestRawText = [] ∧ (initialExtraction scan).later = ([], []) := by
  unfold initialExtraction
  refine List.foldlRecOn (motive := fun s : Extraction =>
      s.pySources = [] ∧ s.manifestRawText = [] ∧ s.later = ([], [])) _ _
    (List.foldlRecOn (motive := fun s : Extraction =>
      s.pySources = [] ∧ s.manifestRawText = [] ∧ s.later = ([], [])) _ _
      ⟨rfl, rfl, rfl⟩ fun s hs skip _ => hs) fun s hs rel _ => hs

/-- The loops of an acquisition, and the pack. -/
structure Stages (tools : Tools) (scan : Scan) (pack : Pack) (s₁ s₂ s₃ : Extraction) : Prop where
  read : scan.reads.foldlM (addFile tools) (initialExtraction scan) = .ok s₁
  parse : s₁.pySources.foldlM (parseSource tools) ([], s₁) = .ok (parsedFiles tools scan, s₂)
  manifest : ((parsedFiles tools scan).foldl addModuleBody s₂).manifestRawText.foldlM
    (addManifest tools (buildModuleIndex (parsedFiles tools scan)))
    ((parsedFiles tools scan).foldl addModuleBody s₂) = .ok s₃
  pack : pack = packOf tools scan (parsedFiles tools scan)
    ((parsedFiles tools scan).foldl addModule ((parsedFiles tools scan).foldl
      (addImports tools (buildModuleIndex (parsedFiles tools scan))) s₃))

theorem acquire_stages {tools : Tools} {scan : Scan} {pack : Pack}
    (h : acquireRepoEvidence tools scan = .ok pack) :
    ∃ s₁ s₂ s₃, Stages tools scan pack s₁ s₂ s₃ := by
  obtain ⟨s₁, hread, h⟩ := bind_eq_ok.mp h
  obtain ⟨⟨parsed, s₂⟩, hparse, h⟩ := bind_eq_ok.mp h
  obtain ⟨s₃, hmanifest, h⟩ := bind_eq_ok.mp h
  dsimp only at hmanifest h
  have hsources := foldlM_collect (·.pySources) (fun _ _ => pythonText_rel)
    (fun _ _ _ hok => (addFile_keep hok).1) (nodup_reads scan)
    (fun r _ => by rw [(initial_nothing scan).1]; exact List.not_mem_nil) hread
  rw [(initial_nothing scan).1, List.nil_append] at hsources
  have hkeys : (s₁.pySources.map (·.1)).Nodup := by
    rw [hsources]
    exact (nodup_reads scan).sublist (keys_pythonText _)
  have hfirst (state : List (String × PyModule) × Extraction) (source : String × String)
      (state' : List (String × PyModule) × Extraction)
      (hok : parseSource tools state source = .ok state') : state'.1 =
        (parsedText tools source).elim state.1 fun file => assign file.1 file.2 state.1 :=
    (parseSource_keep hok).1
  have hparsed := foldlM_collect (·.1) (fun _ _ => parsedText_rel) hfirst hkeys
    (fun _ _ => List.not_mem_nil) hparse
  rw [List.nil_append, hsources, ← parsedFiles] at hparsed
  dsimp only at hparsed
  subst hparsed
  refine ⟨s₁, s₂, s₃, hread, hparse, hmanifest, ?_⟩
  split at h
  · cases h
  · exact (Except.ok.inj h).symm

/-- There are no edges and no modules before the loops that make them. -/
theorem later_before_imports {tools : Tools} {scan : Scan} {parsed : List (String × PyModule)}
    {s₁ s₂ s₃ : Extraction}
    (hread : scan.reads.foldlM (addFile tools) (initialExtraction scan) = .ok s₁)
    (hparse : s₁.pySources.foldlM (parseSource tools) ([], s₁) = .ok (parsed, s₂))
    (hmanifest : (parsed.foldl addModuleBody s₂).manifestRawText.foldlM
      (addManifest tools (buildModuleIndex parsed)) (parsed.foldl addModuleBody s₂) = .ok s₃) :
    s₃.later = ([], []) := by
  have hlater₁ : s₁.later = ([], []) :=
    foldlM_ok (fun s => s.later = ([], []))
      (fun _ _ _ _ hs hok => (addFile_keep hok).2.trans hs) (initial_nothing scan).2.2 hread
  have hlater₂ : s₂.later = ([], []) :=
    foldlM_ok (fun state : List (String × PyModule) × Extraction => state.2.later = ([], []))
      (fun _ _ _ _ hs hok => (parseSource_keep hok).2.trans hs) hlater₁ hparse
  refine foldlM_ok (fun s => s.later = ([], []))
    (fun s manifest s' _ hs hok => (addManifest_later hok).trans hs) ?_ hmanifest
  exact List.foldlRecOn (motive := fun s : Extraction => s.later = ([], [])) _ _ hlater₂
    fun s hs source _ => (addModuleBody_later s source).trans hs

theorem graph_before_imports {tools : Tools} {scan : Scan} {parsed : List (String × PyModule)}
    {s₁ s₂ s₃ : Extraction}
    (hread : scan.reads.foldlM (addFile tools) (initialExtraction scan) = .ok s₁)
    (hparse : s₁.pySources.foldlM (parseSource tools) ([], s₁) = .ok (parsed, s₂))
    (hmanifest : (parsed.foldl addModuleBody s₂).manifestRawText.foldlM
      (addManifest tools (buildModuleIndex parsed)) (parsed.foldl addModuleBody s₂) = .ok s₃) :
    s₃.importsGraph = [] :=
  congrArg Prod.fst (later_before_imports hread hparse hmanifest)

theorem foldl_addModule_graph (parsed : List (String × PyModule)) (s : Extraction) :
    (parsed.foldl addModule s).importsGraph = s.importsGraph :=
  List.foldlRecOn (motive := fun s' : Extraction => s'.importsGraph = s.importsGraph) _ _ rfl
    fun _ hs _ _ => hs

/-- The edges of a pack are those of the statements of the files that parse. -/
theorem importsGraph_eq {tools : Tools} {scan : Scan} {pack : Pack}
    (h : acquireRepoEvidence tools scan = .ok pack) :
    pack.importsGraph.map edgeEnds =
      edgesOf tools (buildModuleIndex (parsedFiles tools scan)) (parsedFiles tools scan) := by
  obtain ⟨s₁, s₂, s₃, stages⟩ := acquire_stages h
  rw [stages.pack]
  show List.map edgeEnds (List.foldl addModule _ _).importsGraph = _
  rw [foldl_addModule_graph, foldl_addImports,
    graph_before_imports stages.read stages.parse stages.manifest]
  rfl

/-! ### Relative imports -/

/-- The name that a relative import forms: the package less `level - 1` names, which are counted
from the other end once there are too few. -/
def RelativeImport.formedBase (i : RelativeImport) (rel : String) : ModuleName :=
  let package := packageParts rel
  let kept :=
    if i.level - 1 ≤ package.length then package.length - (i.level - 1)
    else 2 * package.length - (i.level - 1)
  let base : ModuleName := package.take kept ++ i.module.getD []
  if base.isBlank then [] else base

/-- The names that are looked for. -/
def RelativeImport.formed (i : RelativeImport) (rel : String) : List ModuleName :=
  i.formedBase rel :: i.names.map fun name => i.formedBase rel ++ [name]

theorem sliceTo_eq {α : Type} (xs : List α) (up : Nat) :
    sliceTo xs ((xs.length : Int) - up) =
      xs.take (if up ≤ xs.length then xs.length - up else 2 * xs.length - up) := by
  unfold sliceTo
  split_ifs with hstop hup hup
  · exact congrArg xs.take (by omega)
  · omega
  · omega
  · exact congrArg xs.take (by omega)

theorem importBase_eq (rel : String) {level : Nat} (hlevel : level ≠ 0)
    (module : Option ModuleName) :
    importBase rel level module = (packageParts rel).take
      (if level - 1 ≤ (packageParts rel).length then (packageParts rel).length - (level - 1)
        else 2 * (packageParts rel).length - (level - 1)) ++ module.getD [] := by
  rw [importBase, if_neg hlevel]
  dsimp only
  split_ifs with hup hle hle
  · rw [hup, Nat.sub_zero, List.take_length]
  · omega
  · rw [sliceTo_eq, if_pos hle]
  · rw [sliceTo_eq, if_neg hle]

theorem targetOf_blank (tools : Tools) (index : ModuleIndex) {name : ModuleName}
    (h : name.isBlank = true) : targetOf tools index name = none := by
  rw [targetOf, worthResolving, h]
  rfl

section Statements

variable {tools : Tools} {scan : Scan} {rel t : String} {i : RelativeImport} {node : Node}

/-- The files that a relative import leads to. -/
theorem mem_statementTargets (index : ModuleIndex) (hnode : node.relative = some i) :
    t ∈ statementTargets tools index rel node ↔
      t ≠ rel ∧ ∃ name ∈ i.formed rel, targetOf tools index name = some t := by
  obtain ⟨level, module, names, lineno, hlevel, rfl, rfl⟩ : ∃ level module names lineno,
      level ≠ 0 ∧ node = .importFrom level module names lineno ∧
        i = ⟨level, module, names⟩ := by
    cases node with
    | importFrom level module names lineno =>
        rw [Node.relative] at hnode
        split_ifs at hnode with hlevel
        exact ⟨level, module, names, lineno, hlevel, rfl, (Option.some.inj hnode).symm⟩
    | _ => cases hnode
  rw [statementTargets, mem_firstOnes, List.mem_singleton, and_comm, List.mem_filterMap]
  refine and_congr_right fun _ => ?_
  set base := importBase rel level module with hbase
  have hformed : RelativeImport.formedBase ⟨level, module, names⟩ rel =
      if base.isBlank then [] else base := by
    rw [hbase, importBase_eq rel hlevel]
    rfl
  rw [resolveImportTarget, fromTargets, ← hbase, RelativeImport.formed, hformed]
  dsimp only
  rcases hblank : base.isBlank
  · simp only [Bool.false_eq_true, if_false, List.mem_append, List.mem_cons, List.mem_map,
      List.not_mem_nil, or_false]
    constructor
    · rintro ⟨target, rfl | ⟨name, hname, rfl⟩, ht⟩
      · exact ⟨base, .inl rfl, ht⟩
      · exact ⟨_, .inr ⟨name, hname, rfl⟩, ht⟩
    · rintro ⟨name', rfl | ⟨name, hname, rfl⟩, ht⟩
      · exact ⟨_, .inl rfl, ht⟩
      · exact ⟨_, .inr ⟨name, hname, rfl⟩, ht⟩
  · simp only [if_true, List.nil_append, List.mem_cons, List.mem_map]
    constructor
    · rintro ⟨target, ⟨name, hname, rfl⟩, ht⟩
      exact ⟨_, .inr ⟨name, hname, rfl⟩, ht⟩
    · rintro ⟨name', rfl | ⟨name, hname, rfl⟩, ht⟩
      · -- an empty name is not looked for
        rw [targetOf_blank tools index rfl] at ht
        cases ht
      · exact ⟨_, ⟨name, hname, rfl⟩, ht⟩

theorem targetOf_eq_some_iff {parsed : List (String × PyModule)} {name : ModuleName} :
    targetOf tools (buildModuleIndex parsed) name = some t ↔
      worthResolving tools name = true ∧ LongestKnown (parsed.map (·.1)) name t := by
  rw [targetOf]
  split_ifs with hworth
  · rw [resolveModule_eq_some_iff, and_iff_right hworth]
  · exact iff_of_false (fun h => nomatch h) fun h => hworth h.1

end Statements

/-- The Python files of a scan. -/
def pythonFiles (scan : Scan) : List String :=
  (scan.reads.map (·.rel)).filter fun rel => endsWith ".py" rel

theorem knownAs_mem {files : List String} {name : ModuleName} {t : String}
    (h : knownAs files name = some t) : t ∈ files := by
  unfold knownAs at h
  split_ifs at h
  split at h
  · next hlast =>
    exact Option.some.inj h ▸ List.mem_of_mem_filter (List.mem_of_getLast? hlast)
  · exact List.mem_of_find?_eq_some h

theorem parsedFiles_subset {tools : Tools} {scan : Scan} {t : String}
    (h : t ∈ (parsedFiles tools scan).map (·.1)) : t ∈ pythonFiles scan := by
  obtain ⟨file, hfile, rfl⟩ := List.mem_map.mp h
  obtain ⟨source, hsource, hparse⟩ := List.mem_filterMap.mp hfile
  obtain ⟨r, hr, htext⟩ := List.mem_filterMap.mp hsource
  rw [parsedText_rel hparse]
  refine List.mem_filter.mpr ⟨?_, ?_⟩
  · rw [pythonText_rel htext]
    exact List.mem_map_of_mem hr
  · unfold pythonText at htext
    split at htext
    · split_ifs at htext with hpy
      exact Option.some.inj htext ▸ hpy
    · cases htext

/-- A relative import is led elsewhere: it leaves its package and forms the name of a file all
the same, or the name that it forms is found under a path that it does not go by, or at a
plain module that it only passes. -/
inductive Misled (tools : Tools) (scan : Scan) (rel : String) (i : RelativeImport) : Prop
  | beyond {name : ModuleName} {t : String}
      (hdepth : (packageDir rel).length < i.level) (hname : name ∈ i.formed rel)
      (hworth : worthResolving tools name = true)
      (hknown : LongestKnown ((parsedFiles tools scan).map (·.1)) name t) (hother : t ≠ rel)
  | astray {name : ModuleName} {t : String} (hname : name ∈ i.formed rel)
      (hworth : worthResolving tools name = true)
      (hknown : LongestKnown ((parsedFiles tools scan).map (·.1)) name t) (hother : t ≠ rel)
      (hpath : ∀ d ∈ i.denoted rel, ¬ moduleParts t <+: d)
  | passing {name : ModuleName} {t : String} (hname : name ∈ i.formed rel)
      (hworth : worthResolving tools name = true)
      (hknown : LongestKnown ((parsedFiles tools scan).map (·.1)) name t) (hother : t ≠ rel)
      (hplain : isPackage t = false)
      (hpath : moduleParts t ∈ i.denoted rel →
        ∃ u ∈ pythonFiles scan, moduleParts u = moduleParts t ∧ isPackage u = true)

/-- The relative imports of the files that parse. -/
def RelativeImports (tools : Tools) (scan : Scan) (rel : String) (i : RelativeImport) : Prop :=
  ∃ source ∈ parsedFiles tools scan, source.1 = rel ∧
    ∃ node ∈ source.2.walk, node.relative = some i

/-- Every edge that a relative import produces leads to the file that it denotes. -/
def RelativeEdgesDenote (tools : Tools) (scan : Scan) : Prop :=
  ∀ source ∈ parsedFiles tools scan, ∀ node ∈ source.2.walk, ∀ i, node.relative = some i →
    ∀ t ∈ statementTargets tools (buildModuleIndex (parsedFiles tools scan)) source.1 node,
      Denotes (pythonFiles scan) i source.1 t

/-- A repository with `from ....m import x` in `a/b/c.py`. -/
def strayTools : Tools where
  sha256 _ := zeroDigest
  parse text :=
    .ok ⟨[], if text = "from ....m import x\n" then [.importFrom 4 (some ["m"]) ["x"] 1] else []⟩
  toml _ := .error .refused
  casefold s := s
  stdlibModule _ := false

def strayScan : Scan :=
  { sampleScan with
    reads := [⟨"a/b/c.py", some "00", .text "from ....m import x\n"⟩,
      ⟨"a/m.py", some "01", .text "x = 1\n"⟩]
    sorted := by decide +kernel }

end Konoha.RepoEvidence
