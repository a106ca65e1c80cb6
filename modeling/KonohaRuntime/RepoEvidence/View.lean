/-
RepoEvidence/View.lean

`bounded_evidence_view`: a slice of every collection of a pack, with the entries of the index
that the slices refer to.

Every item that acquisition makes refers to entries that it has made (`Linked`, step by step
through its loops), and only a reference can be the name of an entry (`Cites`).  So the view of
a pack is closed under its references: `view_selfContained`.
-/
import KonohaRuntime.RepoEvidence.Acquire

namespace Konoha.RepoEvidence

open Json

/-! ### The view -/

/-- `_REF_KEYS` -/
def refKeys : List String :=
  ["evidence_ref", "doc_claim_ref", "conflicting_source_ref", "target_evidence_ref",
   "resolved_path"]

/-- `_collect_refs`: what it adds to the set. -/
def collectRefs (item : Dict) : List String :=
  refKeys.filterMap fun key =>
    match fieldOf item key with
    | .str ref => if startsWith "prov-" ref then some ref else none
    | _ => none

/-- The text of a field, cut. -/
def cutText : Json → Json
  | .str s => if 2000 < s.length then .str (String.ofList (s.toList.take 2000)) else .str s
  | v => v

/-- A text that is cut. -/
def isLong : Json → Bool
  | .str s => 2000 < s.length
  | _ => false

/-- `truncated_fields` -/
def truncatedFields (item : Dict) : List String :=
  (item.filter fun kv => isLong kv.2).map (·.1)

/-- One item of a slice. -/
def boundedItem (original : Dict) : Dict :=
  let item := original.map fun kv => (kv.1, cutText kv.2)
  if truncatedFields original = [] then item
  else setField "truncated_text_fields" (.arr ((truncatedFields original).map .str)) item

/-- The value of a bounded collection. -/
structure BoundedCollection where
  total : Nat
  included : Nat
  truncated : Bool
  items : List Dict

/-- `_bounded_collection`, less the references that it collects -/
def boundedCollection (items : List Dict) (n : Nat) : BoundedCollection :=
  let sliced := (items.take n).map boundedItem
  { total := items.length
    included := sliced.length
    truncated := sliced.length < items.length
    items := sliced }

/-- The collections of a view. -/
inductive Collection
  | manifests
  | entrypoints
  | modules
  | symbols
  | importsGraph
  | testToProdLinks
  | contradictionCandidates
  | deadCodeCandidates
  | docClaims
  | unknowns
  deriving DecidableEq

namespace Collection

/-- The collections, in the order of the view. -/
def all : List Collection :=
  [manifests, entrypoints, modules, symbols, importsGraph, testToProdLinks,
   contradictionCandidates, deadCodeCandidates, docClaims, unknowns]

theorem mem_all (c : Collection) : c ∈ all := by cases c <;> decide

def name : Collection → String
  | manifests => "manifests"
  | entrypoints => "entrypoints"
  | modules => "modules"
  | symbols => "symbols"
  | importsGraph => "imports_graph"
  | testToProdLinks => "test_to_prod_links"
  | contradictionCandidates => "contradiction_candidates"
  | deadCodeCandidates => "dead_code_candidates"
  | docClaims => "doc_claims"
  | unknowns => "unknowns"

/-- `DEFAULT_BOUNDED_VIEW_LIMITS` -/
def defaultLimit : Collection → Nat
  | manifests => 20
  | entrypoints => 20
  | modules => 30
  | symbols => 50
  | importsGraph => 50
  | testToProdLinks => 30
  | contradictionCandidates => 20
  | deadCodeCandidates => 20
  | docClaims => 10
  | unknowns => 20

end Collection

/-- The collection of a pack. -/
def Pack.items (pack : Pack) : Collection → List Dict
  | .manifests => pack.manifests
  | .entrypoints => pack.entrypoints
  | .modules => pack.modules
  | .symbols => pack.symbols
  | .importsGraph => pack.importsGraph
  | .testToProdLinks => pack.testToProdLinks
  | .contradictionCandidates => pack.contradictionCandidates
  | .deadCodeCandidates => pack.deadCodeCandidates
  | .docClaims => pack.docClaims
  | .unknowns => pack.unknowns

/-- An integer of an item. -/
def intOf : Json → Int
  | .int i => i
  | _ => 0

/-- A text of an item. -/
def strOf : Json → String
  | .str s => s
  | _ => ""

/-- `m["fan_in"] + m["fan_out"]` -/
def fan (m : Dict) : Int := intOf (fieldOf m "fan_in") + intOf (fieldOf m "fan_out")

/-- The order of `(-(m["fan_in"] + m["fan_out"]), m["path"])` -/
def rankLe (a b : Dict) : Bool :=
  fan b < fan a || (fan a = fan b && strOf (fieldOf a "path") ≤ strOf (fieldOf b "path"))

/-- `ranked_modules`, and the other collections as they are -/
def Pack.ranked (pack : Pack) : Collection → List Dict
  | .modules => pack.modules.insertionSort fun a b => rankLe a b = true
  | c => pack.items c

/-- What `bounded_evidence_view` returns. -/
structure EvidenceView where
  packId : String
  authorizedRepoRoot : String
  workspaceIdentity : Dict
  languages : List (String × Nat)
  scanPathsTotal : Nat
  missingTrackedTotal : Nat
  collection : Collection → BoundedCollection
  provenance : Index

/-- `limits[name]`, after the defaults have been merged in -/
def limitOf (limits : List (String × Nat)) (c : Collection) : Nat :=
  (find c.name limits).getD c.defaultLimit

/-- `bounded_evidence_view` -/
def boundedEvidenceView (pack : Pack) (limits : List (String × Nat)) : EvidenceView :=
  let collection := fun c => boundedCollection (pack.ranked c) (limitOf limits c)
  let referencedRefs := Collection.all.flatMap fun c => (collection c).items.flatMap collectRefs
  { packId := pack.packId
    authorizedRepoRoot := pack.authorizedRepoRoot
    workspaceIdentity := pack.workspaceIdentity
    languages := pack.languages
    scanPathsTotal := pack.scanPaths.length
    missingTrackedTotal := pack.missingTrackedFiles.length
    collection := collection
    provenance := (sorted referencedRefs.dedup).filterMap fun ref =>
      (find ref pack.provenanceIndex).map fun entry => (ref, entry) }

/-! ### Items that refer to the index -/

/-- The keys whose values are references. -/
def evidenceRefKeys : List String :=
  ["evidence_ref", "doc_claim_ref", "conflicting_source_ref", "target_evidence_ref"]

/-- The references of an item are in the index, and a path in it is that of a Python file. -/
structure Cites (index : Index) (item : Dict) : Prop where
  unmarked : lookup "truncated_text_fields" item = none
  refs : ∀ key ∈ evidenceRefKeys, ∀ ref, fieldOf item key = .str ref → ref ∈ index.map (·.1)
  resolved : ∀ path, fieldOf item "resolved_path" = .str path → endsWith ".py" path = true

theorem lookup_eq_none {key : String} {item : Dict} (h : key ∉ item.map (·.1)) :
    lookup key item = none := by
  induction item with
  | nil => rfl
  | cons kv item ih =>
      rw [List.map_cons, List.mem_cons, not_or] at h
      rw [lookup_cons_ne (Ne.symm h.1), ih h.2]

/-- A reference of the index, or no reference. -/
def RefIn (index : Index) (v : Json) : Prop := ∀ ref, v = .str ref → ref ∈ index.map (·.1)

theorem RefIn.null {index : Index} : RefIn index .null := fun _ h => nomatch h

theorem RefIn.str {index : Index} {ref : String} (h : ref ∈ index.map (·.1)) :
    RefIn index (.str ref) := fun _ heq => Json.str.inj heq ▸ h

theorem RefIn.ofOption {index : Index} {ref : Option String}
    (h : ∀ r, ref = some r → r ∈ index.map (·.1)) : RefIn index (Json.ofOption ref) := by
  cases ref with
  | none => exact .null
  | some r => exact .str (h r rfl)

/-- An item, field by field. -/
theorem Cites.of_fields {index : Index} {item : Dict}
    (hunmarked : lookup "truncated_text_fields" item = none)
    (hevidence : RefIn index (fieldOf item "evidence_ref"))
    (hclaim : RefIn index (fieldOf item "doc_claim_ref"))
    (hsource : RefIn index (fieldOf item "conflicting_source_ref"))
    (htarget : RefIn index (fieldOf item "target_evidence_ref"))
    (hresolved : ∀ path, fieldOf item "resolved_path" = .str path → endsWith ".py" path = true) :
    Cites index item where
  unmarked := hunmarked
  refs := List.forall_mem_cons.mpr ⟨hevidence, List.forall_mem_cons.mpr ⟨hclaim,
    List.forall_mem_cons.mpr ⟨hsource, List.forall_mem_singleton.mpr htarget⟩⟩⟩
  resolved := hresolved

/-- An item with no other reference than an `evidence_ref`, by its keys. -/
theorem Cites.of_ref {index : Index} {item : Dict} (keys : List String)
    (hkeys : item.map (·.1) = keys)
    (hnone : ∀ key ∈ ["truncated_text_fields", "doc_claim_ref", "conflicting_source_ref",
      "target_evidence_ref", "resolved_path"], key ∉ keys)
    (href : RefIn index (fieldOf item "evidence_ref")) : Cites index item := by
  have hlookup : ∀ key ∈ ["truncated_text_fields", "doc_claim_ref", "conflicting_source_ref",
      "target_evidence_ref", "resolved_path"], lookup key item = none :=
    fun key hkey => lookup_eq_none (hkeys ▸ hnone key hkey)
  have hnull : ∀ key ∈ ["truncated_text_fields", "doc_claim_ref", "conflicting_source_ref",
      "target_evidence_ref", "resolved_path"], fieldOf item key = .null := by
    intro key hkey
    rw [fieldOf, hlookup key hkey]
    rfl
  refine .of_fields (hlookup _ (by decide)) href ?_ ?_ ?_ ?_
  · exact hnull "doc_claim_ref" (by decide) ▸ .null
  · exact hnull "conflicting_source_ref" (by decide) ▸ .null
  · exact hnull "target_evidence_ref" (by decide) ▸ .null
  · intro path hpath
    rw [hnull "resolved_path" (by decide)] at hpath
    cases hpath

/-- An item that refers to nothing. -/
theorem Cites.of_none {index : Index} {item : Dict} (keys : List String)
    (hkeys : item.map (·.1) = keys)
    (hnone : ∀ key ∈ "evidence_ref" :: ["truncated_text_fields", "doc_claim_ref",
      "conflicting_source_ref", "target_evidence_ref", "resolved_path"], key ∉ keys) :
    Cites index item := by
  have hall := List.forall_mem_cons.mp hnone
  refine .of_ref keys hkeys hall.2 ?_
  rw [fieldOf, lookup_eq_none (hkeys ▸ hall.1)]
  exact .null

theorem Cites.mono {index index' : Index} {item : Dict} (h : Cites index item)
    (hkeys : index.map (·.1) ⊆ index'.map (·.1)) : Cites index' item :=
  { h with refs := fun key hkey ref href => hkeys (h.refs key hkey ref href) }

namespace Extraction

/-- The items of the local collections. -/
def items (s : Extraction) : List Dict :=
  s.unknowns ++ s.manifests ++ s.docClaims ++ s.symbols ++ s.entrypoints ++ s.importsGraph ++
    s.modules ++ s.testFiles

end Extraction

/-- The items of an extraction refer to its index. -/
structure Linked (s : Extraction) : Prop where
  numbered : s.provenance.Numbered
  cites : ∀ item ∈ s.items, Cites s.provenance item
  sources : ∀ source ∈ s.pySources, endsWith ".py" source.1 = true

section Steps

variable {s s' : Extraction}

/-- A step that makes no entry. -/
theorem Linked.keep (h : Linked s) (hindex : s'.provenance = s.provenance)
    (hsources : s'.pySources = s.pySources)
    (hitems : ∀ item ∈ s'.items, item ∈ s.items ∨ Cites s'.provenance item) : Linked s' where
  numbered := hindex ▸ h.numbered
  cites item hitem := (hitems item hitem).elim (fun hs => hindex ▸ h.cites item hs) id
  sources := hsources ▸ h.sources

/-- A step that makes an entry. -/
theorem Linked.cite (h : Linked s) {entry : Dict} (hindex : s'.provenance = s.provenance.cite entry)
    (hsources : s'.pySources = s.pySources)
    (hitems : ∀ item ∈ s'.items, item ∈ s.items ∨ Cites s'.provenance item) : Linked s' where
  numbered := hindex ▸ h.numbered.cite entry
  cites item hitem := by
    refine (hitems item hitem).elim (fun hs => (h.cites item hs).mono ?_) id
    rw [hindex, h.numbered.cite_eq, List.map_append]
    exact List.subset_append_left _ _
  sources := hsources ▸ h.sources

/-- The reference that a step makes. -/
theorem Linked.refIn_cite (h : Linked s) (entry : Dict) :
    RefIn (s.provenance.cite entry) (.str s.provenance.nextRef) := by
  refine .str ?_
  rw [h.numbered.cite_eq, List.map_append]
  exact List.mem_append_right _ List.mem_cons_self

theorem Linked.unknown (h : Linked s) (rel reason : String) : Linked (s.unknown rel reason) := by
  refine h.keep rfl rfl fun item hitem => ?_
  simp only [Extraction.items, Extraction.unknown, List.mem_append, List.mem_singleton] at hitem ⊢
  have hnew : Cites s.provenance [("path", .str rel), ("reason", .str reason)] :=
    .of_none ["path", "reason"] rfl (by decide)
  grind

theorem Linked.addDocClaim (h : Linked s) (rel contentHash : String) (claim : Nat × List Char) :
    Linked (addDocClaim rel contentHash s claim) := by
  refine h.cite rfl rfl fun item hitem => ?_
  simp only [Extraction.items, RepoEvidence.addDocClaim, List.mem_append, List.mem_singleton]
    at hitem ⊢
  have hnew : Cites (s.provenance.cite (locator rel claim.1 claim.1 contentHash "regex"))
      [("path", .str rel), ("line", .int claim.1), ("statement", .str (String.ofList claim.2)),
        ("evidence_ref", .str s.provenance.nextRef)] :=
    .of_ref ["path", "line", "statement", "evidence_ref"] rfl (by decide) (h.refIn_cite _)
  grind

theorem Linked.addText (h : Linked s) (tools : Tools) (rel contentHash text : String) :
    Linked (addText tools rel contentHash text s) := by
  unfold RepoEvidence.addText
  split_ifs with hpy htoml hmd
  · refine { h with sources := fun source hsource => ?_ }
    rcases mem_assign hsource with rfl | hs
    · exact hpy
    · exact h.sources source hs
  · exact { h with }
  · exact List.foldlRecOn _ _ h fun s hs claim _ => hs.addDocClaim rel contentHash claim
  · exact h

theorem Linked.addFile (h : Linked s) {tools : Tools} {r : FileRead}
    (hok : addFile tools s r = .ok s') : Linked s' := by
  unfold RepoEvidence.addFile at hok
  split at hok
  · cases hok
  · next contentHash =>
    dsimp only at hok
    generalize hs₁ : ({ s with
        fileHash := _, languages := _, manifests := _ } : Extraction) = s₁ at hok
    have h₁ : Linked s₁ := by
      subst hs₁
      refine h.keep rfl rfl fun item hitem => ?_
      simp only [Extraction.items, List.mem_append, List.mem_map] at hitem ⊢
      have hnew : ∀ kind, Cites s.provenance [("path", .str r.rel), ("kind", .str kind)] :=
        fun kind => .of_none ["path", "kind"] rfl (by decide)
      grind
    split at hok
    · exact Except.ok.inj hok ▸ h₁.unknown _ _
    · exact Except.ok.inj hok ▸ h₁.unknown _ _
    · exact Except.ok.inj hok ▸ h₁.addText _ _ _ _

theorem Linked.addStmt (h : Linked s) {rel : String} (hrel : endsWith ".py" rel = true)
    (stmt : Stmt) : Linked (addStmt rel s stmt) := by
  cases stmt with
  | define kind name lineno endLineno =>
      refine h.cite rfl rfl fun item hitem => ?_
      simp only [Extraction.items, RepoEvidence.addStmt, List.mem_append, List.mem_singleton]
        at hitem ⊢
      have hnew : Cites
          (s.provenance.cite (locator rel lineno endLineno (s.hashOf rel) "ast"))
          [("path", .str rel), ("name", .str name), ("kind", .str kind.text),
            ("line", .int lineno), ("evidence_ref", .str s.provenance.nextRef)] :=
        .of_ref ["path", "name", "kind", "line", "evidence_ref"] rfl (by decide) (h.refIn_cite _)
      grind
  | mainGuard lineno endLineno =>
      refine h.cite rfl rfl fun item hitem => ?_
      simp only [Extraction.items, RepoEvidence.addStmt, List.mem_append, List.mem_singleton]
        at hitem ⊢
      have hnew : Cites
          (s.provenance.cite (locator rel lineno endLineno (s.hashOf rel) "ast"))
          [("path", .str rel), ("reason", .str "if __name__ == \"__main__\""),
            ("evidence_ref", .str s.provenance.nextRef), ("resolved_path", .str rel),
            ("target_evidence_ref", .str s.provenance.nextRef)] :=
        .of_fields (lookup_eq_none (show _ ∉ ["path", "reason", "evidence_ref", "resolved_path",
          "target_evidence_ref"] by decide)) (h.refIn_cite _) .null .null (h.refIn_cite _)
          fun path hpath => Json.str.inj hpath ▸ hrel
      grind
  | other => exact h

/-- The files that have been parsed are Python files. -/
def PythonFiles {α : Type} (files : List (String × α)) : Prop :=
  ∀ file ∈ files, endsWith ".py" file.1 = true

/-- The files that an index names are Python files. -/
def PythonIndex (index : ModuleIndex) : Prop := ∀ e ∈ index, endsWith ".py" e.2 = true

theorem Linked.addModuleBody (h : Linked s) {source : String × PyModule}
    (hsource : endsWith ".py" source.1 = true) : Linked (addModuleBody s source) := by
  unfold RepoEvidence.addModuleBody
  exact List.foldlRecOn _ _ h fun _ hs stmt _ => hs.addStmt hsource stmt

theorem symbolRef_mem (h : Linked s) {path name ref : String}
    (href : symbolRef s.symbols path name = some ref) : ref ∈ s.provenance.map (·.1) := by
  rw [symbolRef, Option.bind_eq_some_iff] at href
  obtain ⟨sym, hsym, href⟩ := href
  have hmem : sym ∈ s.items := by
    have := List.mem_reverse.mp (List.mem_of_find?_eq_some hsym)
    simp only [Extraction.items, List.mem_append]
    grind
  split at href
  · next ref' hfield =>
    obtain rfl := Option.some.inj href
    exact (h.cites sym hmem).refs "evidence_ref" (by decide) _ hfield
  · cases href

/-- What a script leads to. -/
theorem scriptTarget_spec (h : Linked s) {index : ModuleIndex}
    (hindex : PythonIndex index) (script : String × String) :
    (∀ path, (scriptTarget index s.symbols script).1 = some path → endsWith ".py" path = true) ∧
      ∀ ref, (scriptTarget index s.symbols script).2.1 = some ref →
        ref ∈ s.provenance.map (·.1) := by
  unfold scriptTarget
  dsimp only
  split
  · exact ⟨fun _ hp => (nomatch hp), fun _ hr => (nomatch hr)⟩
  · next resolved hfind =>
    have hpy : endsWith ".py" resolved = true := hindex _ (find_mem hfind)
    split
    · exact ⟨fun path hp => Option.some.inj hp ▸ hpy, fun _ hr => (nomatch hr)⟩
    · split_ifs
      · exact ⟨fun path hp => Option.some.inj hp ▸ hpy, fun _ hr => (nomatch hr)⟩
      · split
        · next ref href =>
          exact ⟨fun path hp => Option.some.inj hp ▸ hpy,
            fun ref' hr => Option.some.inj hr ▸ symbolRef_mem h href⟩
        · exact ⟨fun _ hp => (nomatch hp), fun _ hr => (nomatch hr)⟩

theorem Linked.addScript (h : Linked s) {index : ModuleIndex}
    (hindex : PythonIndex index) (rel rawText : String)
    (script : String × String) : Linked (addScript index rel rawText s script) := by
  obtain ⟨hpath, href⟩ := scriptTarget_spec h hindex script
  unfold RepoEvidence.addScript
  generalize scriptTarget index s.symbols script = target at hpath href
  obtain ⟨resolved, targetRef, reason⟩ := target
  dsimp only at hpath href ⊢
  have h₁ : Linked (reason.elim s (s.unknown rel)) := by
    cases reason with
    | none => exact h
    | some reason => exact h.unknown rel reason
  have hindex₁ : (reason.elim s (s.unknown rel)).provenance = s.provenance := by
    cases reason <;> rfl
  generalize reason.elim s (s.unknown rel) = s₁ at h₁ hindex₁
  refine h₁.cite rfl rfl fun item hitem => ?_
  simp only [Extraction.items, List.mem_append, List.mem_singleton] at hitem ⊢
  have hnew : Cites
      (s₁.provenance.cite (locator rel (findManifestKeyLine rawText script.1)
        (findManifestKeyLine rawText script.1) (s₁.hashOf rel) "manifest_parse"))
      [("path", .str rel),
        ("reason", .str ("pyproject.toml script '" ++ script.1 ++ "' -> " ++ script.2)),
        ("evidence_ref", .str s₁.provenance.nextRef), ("resolved_path", Json.ofOption resolved),
        ("target_evidence_ref", Json.ofOption targetRef)] := by
    refine .of_fields (lookup_eq_none (show _ ∉ ["path", "reason", "evidence_ref",
      "resolved_path", "target_evidence_ref"] by decide)) (h₁.refIn_cite _) .null .null ?_ ?_
    · refine RefIn.ofOption fun ref href' => ?_
      rw [h₁.numbered.cite_eq, List.map_append, hindex₁]
      exact List.mem_append_left _ (href ref href')
    · intro path hfield
      cases resolved with
      | none => cases hfield
      | some path' => exact hpath path (congrArg some (Json.str.inj hfield))
  grind

theorem Linked.addManifest (h : Linked s) {tools : Tools} {index : ModuleIndex}
    (hindex : PythonIndex index) {manifest : String × String}
    (hok : addManifest tools index s manifest = .ok s') : Linked s' := by
  unfold RepoEvidence.addManifest at hok
  split at hok
  · exact Except.ok.inj hok ▸ h.unknown _ _
  · cases hok
  · obtain ⟨scripts, -, hok⟩ := bind_eq_ok.mp hok
    rw [← Except.ok.inj hok]
    exact List.foldlRecOn _ _ h fun _ hs script _ => hs.addScript hindex _ _ script

theorem Linked.addTarget (h : Linked s) (tools : Tools) (index : ModuleIndex) (rel : String)
    (lineno : Nat) (seen : List String) (target : String × ModuleName) :
    Linked (addTarget tools index rel lineno (seen, s) target).2 := by
  unfold RepoEvidence.addTarget
  dsimp only
  split
  · exact h
  · split
    · exact h.unknown _ _
    · next resolved hresolved =>
      split
      · exact h
      · refine h.cite rfl rfl fun item hitem => ?_
        simp only [Extraction.items, List.mem_append, List.mem_singleton] at hitem ⊢
        have hnew : Cites (s.provenance.cite (locator rel lineno lineno (s.hashOf rel) "ast"))
            [("from_path", .str rel), ("to_path", .str resolved),
              ("evidence_ref", .str s.provenance.nextRef)] :=
          .of_ref ["from_path", "to_path", "evidence_ref"] rfl (by decide) (h.refIn_cite _)
        grind

theorem Linked.addNode (h : Linked s) (tools : Tools) (index : ModuleIndex) (rel : String)
    (node : Node) : Linked (addNode tools index rel s node) := by
  unfold RepoEvidence.addNode
  have hstep : ∀ state : List String × Extraction, Linked state.2 →
      ∀ target, Linked (RepoEvidence.addTarget tools index rel node.lineno state target).2 :=
    fun state hs target => hs.addTarget tools index rel node.lineno state.1 target
  exact List.foldlRecOn (motive := fun state : List String × Extraction => Linked state.2) _ _ h
    fun state hs target _ => hstep state hs target

theorem Linked.addImports (h : Linked s) (tools : Tools) (index : ModuleIndex)
    (source : String × PyModule) : Linked (addImports tools index s source) := by
  unfold RepoEvidence.addImports
  exact List.foldlRecOn _ _ h fun _ hs node _ => hs.addNode tools index source.1 node

theorem Linked.addModule (h : Linked s) (source : String × PyModule) :
    Linked (addModule s source) := by
  refine h.cite rfl rfl fun item hitem => ?_
  have hmodule : Cites
      (s.provenance.cite (locator source.1 1 1 (s.hashOf source.1) "ast"))
      [("path", .str source.1), ("fan_in", .int (degree s.importsGraph "to_path" source.1)),
        ("fan_out", .int (degree s.importsGraph "from_path" source.1)),
        ("evidence_ref", .str s.provenance.nextRef)] :=
    .of_ref ["path", "fan_in", "fan_out", "evidence_ref"] rfl (by decide) (h.refIn_cite _)
  have htest : Cites
      (s.provenance.cite (locator source.1 1 1 (s.hashOf source.1) "ast"))
      [("path", .str source.1), ("evidence_ref", .str s.provenance.nextRef)] :=
    .of_ref ["path", "evidence_ref"] rfl (by decide) (h.refIn_cite _)
  unfold RepoEvidence.addModule at hitem ⊢
  rcases ht : isTestFile source.1
  all_goals
    simp only [Extraction.items, ht, List.mem_append, List.mem_singleton] at hitem ⊢
    grind

end Steps

/-! ### Packs -/

theorem PythonIndex.assign {index : ModuleIndex} (h : PythonIndex index) {rel : String}
    (hrel : endsWith ".py" rel = true) (name : ModuleName) :
    PythonIndex (assign name rel index) := by
  intro e he
  rcases mem_assign he with rfl | he
  · exact hrel
  · exact h e he

/-- The index names files that have been parsed. -/
theorem pythonIndex_build {parsed : List (String × PyModule)} (h : PythonFiles parsed) :
    PythonIndex (buildModuleIndex parsed) := by
  have hempty : PythonIndex [] := fun e he => nomatch he
  unfold buildModuleIndex
  refine List.foldlRecOn _ _ (List.foldlRecOn _ _ hempty ?_) ?_
  · intro index hindex source hsource
    unfold indexRaw
    split
    · split_ifs
      · exact hindex
      · exact hindex.assign (h source hsource) _
    · exact hindex
  · intro index hindex source hsource
    unfold indexAlias
    split
    · split_ifs
      · exact hindex
      · exact hindex.assign (h source hsource) _
    · exact hindex

theorem foldlM_ok {ε σ α : Type} {f : σ → α → Except ε σ} (motive : σ → Prop)
    {xs : List α} (hstep : ∀ s x s', x ∈ xs → motive s → f s x = .ok s' → motive s') {s s' : σ}
    (h : motive s) (hok : xs.foldlM f s = .ok s') : motive s' := by
  induction xs generalizing s with
  | nil => exact Except.ok.inj hok ▸ h
  | cons x xs ih =>
      rw [List.foldlM_cons] at hok
      obtain ⟨s₁, hfirst, hrest⟩ := bind_eq_ok.mp hok
      exact ih (fun s x s' hx => hstep s x s' (List.mem_cons_of_mem _ hx))
        (hstep s x s₁ List.mem_cons_self h hfirst) hrest

theorem linked_initial (scan : Scan) : Linked (initialExtraction scan) := by
  have hempty : Linked {} :=
    ⟨rfl, fun item hitem => absurd hitem List.not_mem_nil, fun _ h => (nomatch h)⟩
  unfold initialExtraction
  refine List.foldlRecOn _ _ ?_ fun s hs rel _ => hs.unknown rel _
  exact List.foldlRecOn _ _ hempty fun s hs skip _ => hs.unknown skip.1 skip.2

/-- What acquisition has collected, when it returns a pack. -/
theorem acquire_linked {tools : Tools} {scan : Scan} {pack : Pack}
    (h : acquireRepoEvidence tools scan = .ok pack) :
    ∃ parsed s, Linked s ∧ s.provenance.length ≤ maxSize ∧ pack = packOf tools scan parsed s := by
  obtain ⟨s₁, hread, h⟩ := bind_eq_ok.mp h
  obtain ⟨⟨parsed, s₂⟩, hparse, h⟩ := bind_eq_ok.mp h
  have h₁ : Linked s₁ :=
    foldlM_ok Linked (fun _ _ _ _ hs hok => hs.addFile hok) (linked_initial scan) hread
  have h₂ : PythonFiles parsed ∧ Linked s₂ := by
    refine foldlM_ok (fun state => PythonFiles state.1 ∧ Linked state.2) ?_
      ⟨fun _ h => absurd h List.not_mem_nil, h₁⟩ hparse
    rintro ⟨parsed, s⟩ source ⟨parsed', s'⟩ hsource ⟨hpy, hs⟩ hok
    unfold parseSource at hok
    split at hok
    · obtain ⟨rfl, rfl⟩ := Prod.mk.inj (Except.ok.inj hok)
      refine ⟨fun file hfile => ?_, hs⟩
      rcases mem_assign hfile with rfl | hfile
      · exact h₁.sources source hsource
      · exact hpy file hfile
    · obtain ⟨rfl, rfl⟩ := Prod.mk.inj (Except.ok.inj hok)
      exact ⟨hpy, hs.unknown _ _⟩
    · cases hok
  dsimp only at h
  obtain ⟨s₃, hmanifest, h⟩ := bind_eq_ok.mp h
  have h₃ : Linked s₃ := by
    refine foldlM_ok Linked
      (fun _ _ _ _ hs hok => hs.addManifest (pythonIndex_build h₂.1) hok) ?_ hmanifest
    exact List.foldlRecOn _ _ h₂.2 fun s hs source hsource =>
      hs.addModuleBody (h₂.1 source hsource)
  split at h
  · cases h
  · next hsize =>
    refine ⟨parsed, _, ?_, Nat.not_lt.mp hsize, (Except.ok.inj h).symm⟩
    refine List.foldlRecOn _ _ ?_ fun s hs source _ => hs.addModule source
    exact List.foldlRecOn _ _ h₃ fun s hs source _ => hs.addImports tools _ source

/-- An item with the reference of another one. -/
theorem Cites.of_item {index : Index} {item other : Dict} (h : Cites index other)
    (hfield : fieldOf item "evidence_ref" = fieldOf other "evidence_ref") (keys : List String)
    (hkeys : item.map (·.1) = keys)
    (hnone : ∀ key ∈ ["truncated_text_fields", "doc_claim_ref", "conflicting_source_ref",
      "target_evidence_ref", "resolved_path"], key ∉ keys) : Cites index item :=
  .of_ref keys hkeys hnone
    (hfield ▸ fun ref href => h.refs "evidence_ref" (by decide) ref href)

section Packs

variable {tools : Tools} {scan : Scan} {parsed : List (String × PyModule)} {s : Extraction}

theorem Linked.testToProdLinks (h : Linked s) :
    ∀ item ∈ testToProdLinks s.testFiles s.importsGraph, Cites s.provenance item := by
  intro item hitem
  obtain ⟨test, htest, hitem⟩ := List.mem_flatMap.mp hitem
  obtain ⟨edge, -, rfl⟩ := List.mem_map.mp hitem
  refine .of_item (h.cites test ?_) rfl ["test_path", "prod_path", "basis", "evidence_ref"] rfl
    (by decide)
  exact List.mem_append_right _ htest

theorem Linked.deadCodeCandidates (h : Linked s) :
    ∀ item ∈ deadCodeCandidates parsed s, Cites s.provenance item := by
  intro item hitem
  obtain ⟨sym, hsym, rfl⟩ := List.mem_map.mp hitem
  refine .of_item (h.cites sym ?_) rfl ["path", "symbol", "basis", "evidence_ref"] rfl (by decide)
  have := List.mem_of_mem_filter hsym
  simp only [Extraction.items, List.mem_append]
  grind

theorem Linked.contradictionCandidates (h : Linked s) :
    ∀ item ∈ contradictionCandidates s, Cites s.provenance item := by
  intro item hitem
  obtain ⟨claim, hclaim, hitem⟩ := List.mem_flatMap.mp hitem
  obtain ⟨token, -, rfl⟩ := List.mem_map.mp hitem
  have hcites : Cites s.provenance claim := by
    refine h.cites claim ?_
    simp only [Extraction.items, List.mem_append]
    grind
  refine .of_fields
    (lookup_eq_none (show _ ∉ ["doc_claim_ref", "conflicting_source_ref", "basis"] by decide))
    ?_ ?_ .null ?_ ?_
  · exact RefIn.null
  · exact fun ref href => hcites.refs "evidence_ref" (by decide) ref href
  · exact RefIn.null
  · exact fun path hpath => nomatch hpath

/-- Every item of a pack refers to its index. -/
theorem Linked.packOf (h : Linked s) (c : Collection) :
    ∀ item ∈ (packOf tools scan parsed s).items c, Cites s.provenance item := by
  intro item hitem
  cases c with
  | testToProdLinks => exact h.testToProdLinks item hitem
  | contradictionCandidates => exact h.contradictionCandidates item hitem
  | deadCodeCandidates => exact h.deadCodeCandidates item hitem
  | _ =>
      refine h.cites item ?_
      simp only [Pack.items, RepoEvidence.packOf] at hitem
      simp only [Extraction.items, List.mem_append]
      grind

end Packs

/-! ### References and other texts -/

theorem mem_fourDigits {n : Nat} {c : Char} (h : c ∈ fourDigits n) : c.isDigit = true := by
  have hdigit : ∀ d < 10, (Nat.digitChar d).isDigit = true := by decide
  rcases List.mem_append.mp h with h | h
  · rw [(List.mem_replicate.mp h).2]
    decide
  · obtain ⟨d, hd, rfl⟩ := List.mem_map.mp h
    exact hdigit d (Nat.digits_lt_base (by decide) (List.mem_reverse.mp hd))

theorem toList_refName (n : Nat) : (refName n).toList = "prov-".toList ++ fourDigits n :=
  String.toList_ofList

theorem startsWith_refName (n : Nat) : startsWith "prov-" (refName n) = true := by
  rw [startsWith, toList_refName, List.isPrefixOf_iff_prefix]
  exact List.prefix_append _ _

/-- A reference is not the path of a Python file. -/
theorem refName_not_python (n : Nat) : endsWith ".py" (refName n) = false := by
  rw [← Bool.not_eq_true]
  intro h
  rw [endsWith, toList_refName, List.isSuffixOf_iff_suffix] at h
  have hlen : ".py".toList.length ≤ (fourDigits n).length := by
    have : ".py".toList.length = 3 := by decide +kernel
    rw [this, length_fourDigits]
    omega
  have hsuffix := List.suffix_of_suffix_length_le h (List.suffix_append _ _) hlen
  exact absurd (mem_fourDigits (hsuffix.subset (show 'y' ∈ ".py".toList by decide +kernel)))
    (by decide)

theorem ref_of_mem {index : Index} (h : index.Numbered) (hsize : index.length ≤ maxSize)
    {ref : String} (href : ref ∈ index.map (·.1)) :
    ∃ n, ref = refName n ∧ ref.length ≤ 25 := by
  obtain ⟨n, hn, rfl⟩ := h.mem_keys href
  refine ⟨n, rfl, length_refName_le ?_⟩
  have hmax : maxSize < 2 ^ 64 := by decide
  omega

/-! ### Items of a view -/

theorem lookup_map_cut (key : String) (item : Dict) :
    lookup key (item.map fun kv => (kv.1, cutText kv.2)) = (lookup key item).map cutText := by
  induction item with
  | nil => rfl
  | cons kv item ih =>
      obtain ⟨k, v⟩ := kv
      by_cases hk : k = key
      · subst hk
        rw [List.map_cons, lookup_cons_self, lookup_cons_self]
        rfl
      · rw [List.map_cons, lookup_cons_ne hk, lookup_cons_ne hk, ih]

theorem lookup_boundedItem {key : String} (h : key ≠ "truncated_text_fields") (original : Dict) :
    lookup key (boundedItem original) = (lookup key original).map cutText := by
  unfold boundedItem
  dsimp only
  split_ifs
  · exact lookup_map_cut key original
  · rw [lookup_setField_ne h, lookup_map_cut]

theorem lookup_truncated {original : Dict}
    (h : lookup "truncated_text_fields" original = none) :
    lookup "truncated_text_fields" (boundedItem original) =
      if truncatedFields original = [] then none
      else some (.arr ((truncatedFields original).map .str)) := by
  unfold boundedItem
  dsimp only
  split_ifs
  · rw [lookup_map_cut, h]
    rfl
  · exact lookup_setField_self _ _ _

theorem cutText_of_short {v : Json} (h : isLong v = false) : cutText v = v := by
  cases v with
  | str s => exact if_neg (by simpa [isLong] using h)
  | _ => rfl

/-- The fields that an item of a view names. -/
def namedFields (item : Dict) : List String :=
  match fieldOf item "truncated_text_fields" with
  | .arr names => names.map strOf
  | _ => []

theorem namedFields_boundedItem {original : Dict}
    (h : lookup "truncated_text_fields" original = none) :
    namedFields (boundedItem original) = truncatedFields original := by
  rw [namedFields, fieldOf, lookup_truncated h]
  split_ifs with hnone
  · exact hnone.symm
  · exact (List.map_map ..).trans (List.map_id' _)

/-- An item is the one of the pack, but for the texts that it names. -/
structure AgreesUpToCut (original item : Dict) : Prop where
  short : ∀ key v, lookup key original = some v → isLong v = false → lookup key item = some v
  long : ∀ key s, lookup key original = some (.str s) → 2000 < s.length →
    key ∈ namedFields item ∧
      ∃ t, lookup key item = some (.str t) ∧ t.toList <+: s.toList ∧ t.length = 2000
  named : ∀ key ∈ namedFields item, ∃ v, (key, v) ∈ original ∧ isLong v = true
  only : ∀ key, (lookup key item).isSome = true →
    (lookup key original).isSome = true ∨
      (key = "truncated_text_fields" ∧ namedFields item ≠ [])

theorem lookup_mem {key : String} {v : Json} {item : Dict} (h : lookup key item = some v) :
    (key, v) ∈ item := by
  induction item with
  | nil => cases h
  | cons kv item ih =>
      obtain ⟨k, u⟩ := kv
      by_cases hk : k = key
      · subst hk
        rw [lookup_cons_self] at h
        exact Option.some.inj h ▸ List.mem_cons_self
      · rw [lookup_cons_ne hk] at h
        exact List.mem_cons_of_mem _ (ih h)

theorem agreesUpToCut {original : Dict}
    (h : lookup "truncated_text_fields" original = none) :
    AgreesUpToCut original (boundedItem original) where
  short key v hv hshort := by
    have hkey : key ≠ "truncated_text_fields" := by
      rintro rfl
      rw [h] at hv
      cases hv
    rw [lookup_boundedItem hkey, hv, Option.map_some, cutText_of_short hshort]
  long key s hs hlong := by
    have hkey : key ≠ "truncated_text_fields" := by
      rintro rfl
      rw [h] at hs
      cases hs
    refine ⟨?_, String.ofList (s.toList.take 2000), ?_, ?_, ?_⟩
    · rw [namedFields_boundedItem h]
      exact List.mem_map_of_mem (List.mem_filter.mpr ⟨lookup_mem hs, decide_eq_true hlong⟩)
    · rw [lookup_boundedItem hkey, hs]
      exact congrArg some (if_pos hlong)
    · rw [String.toList_ofList]
      exact List.take_prefix _ _
    · rw [String.length_ofList, List.length_take]
      exact Nat.min_eq_left (Nat.le_of_lt hlong)
  named key hkey := by
    rw [namedFields_boundedItem h] at hkey
    obtain ⟨kv, hkv, rfl⟩ := List.mem_map.mp hkey
    exact ⟨kv.2, List.mem_filter.mp hkv⟩
  only key hkey := by
    by_cases hname : key = "truncated_text_fields"
    · right
      subst hname
      refine ⟨rfl, fun hnone => ?_⟩
      rw [namedFields_boundedItem h] at hnone
      rw [lookup_truncated h, if_pos hnone] at hkey
      cases hkey
    · left
      rwa [lookup_boundedItem hname, Option.isSome_map] at hkey

/-! ### The view of a pack -/

/-- A view shows what it refers to, and says what it leaves out. -/
structure SelfContained (pack : Pack) (view : EvidenceView) : Prop where
  resolves : ∀ c, ∀ item ∈ (view.collection c).items, ∀ key ∈ evidenceRefKeys, ∀ ref,
    fieldOf item key = .str ref →
      ∃ entry, find ref view.provenance = some entry ∧ find ref pack.provenanceIndex = some entry
  cited : ∀ e ∈ view.provenance, ∃ c, ∃ item ∈ (view.collection c).items,
    ∃ key ∈ evidenceRefKeys, fieldOf item key = .str e.1
  total : ∀ c, (view.collection c).total = (pack.items c).length
  included : ∀ c, (view.collection c).included = (view.collection c).items.length
  truncated : ∀ c, (view.collection c).truncated = true ↔
    (view.collection c).items.length < (pack.items c).length
  ranked : ∀ c, (pack.ranked c).Perm (pack.items c)
  items : ∀ c (i : Nat) item, (view.collection c).items[i]? = some item →
    ∃ original, (pack.ranked c)[i]? = some original ∧ AgreesUpToCut original item

theorem ranked_perm (pack : Pack) (c : Collection) : (pack.ranked c).Perm (pack.items c) := by
  cases c with
  | modules => exact List.perm_insertionSort _ _
  | _ => exact List.Perm.refl _

/-- An item of the view, and the one of the pack that it is made of. -/
theorem mem_view_items {pack : Pack} {limits : List (String × Nat)} {c : Collection} {item : Dict}
    (h : item ∈ ((boundedEvidenceView pack limits).collection c).items) :
    ∃ original ∈ pack.items c, item = boundedItem original := by
  obtain ⟨original, horiginal, rfl⟩ := List.mem_map.mp h
  exact ⟨original, (ranked_perm pack c).mem_iff.mp (List.mem_of_mem_take horiginal), rfl⟩

theorem find_filterMap {index : Index} (refs : List String) (ref : String) :
    find ref (refs.filterMap fun r => (find r index).map fun entry => (r, entry)) =
      if ref ∈ refs then find ref index else none := by
  induction refs with
  | nil => rfl
  | cons r refs ih =>
      rw [List.filterMap_cons]
      rcases hr : find r index with - | entry
      · rw [Option.map_none, ih]
        by_cases heq : ref = r
        · subst heq
          rw [hr, ite_self, ite_self]
        · simp [heq]
      · rw [Option.map_some]
        by_cases heq : ref = r
        · subst heq
          rw [find, if_pos rfl, if_pos List.mem_cons_self, hr]
        · rw [find, if_neg (Ne.symm heq), ih]
          simp [heq]

theorem find_isSome {index : Index} {e : String × Dict} (h : e ∈ index) :
    (find e.1 index).isSome = true := by
  induction index with
  | nil => cases h
  | cons f index ih =>
      by_cases hf : f.1 = e.1
      · rw [find, if_pos hf]
        rfl
      · rw [find, if_neg hf]
        exact ih ((List.mem_cons.mp h).resolve_left fun heq => hf (heq ▸ rfl))

/-- `referenced_refs` -/
def referencedRefs (pack : Pack) (limits : List (String × Nat)) : List String :=
  Collection.all.flatMap fun c =>
    ((boundedEvidenceView pack limits).collection c).items.flatMap collectRefs

theorem find_view_provenance (pack : Pack) (limits : List (String × Nat)) (ref : String) :
    find ref (boundedEvidenceView pack limits).provenance =
      if ref ∈ referencedRefs pack limits then find ref pack.provenanceIndex else none := by
  have hmem : ref ∈ sorted (referencedRefs pack limits).dedup ↔ ref ∈ referencedRefs pack limits :=
    (List.mem_insertionSort _).trans List.mem_dedup
  rw [← if_congr hmem rfl rfl]
  exact find_filterMap _ ref

theorem mem_referencedRefs {pack : Pack} {limits : List (String × Nat)} {ref : String} :
    ref ∈ referencedRefs pack limits ↔
      ∃ c, ∃ item ∈ ((boundedEvidenceView pack limits).collection c).items,
        ∃ key ∈ refKeys, fieldOf item key = .str ref ∧ startsWith "prov-" ref = true := by
  have hcollect (item : Dict) : ref ∈ collectRefs item ↔
      ∃ key ∈ refKeys, fieldOf item key = .str ref ∧ startsWith "prov-" ref = true := by
    rw [collectRefs, List.mem_filterMap]
    refine exists_congr fun key => and_congr_right fun _ => ?_
    cases fieldOf item key with
    | str s =>
        constructor
        · intro h
          dsimp only at h
          split_ifs at h with hs
          obtain rfl := Option.some.inj h
          exact ⟨rfl, hs⟩
        · rintro ⟨hs, href⟩
          obtain rfl := Json.str.inj hs
          exact if_pos href
    | _ => exact iff_of_false (fun h => nomatch h) (fun h => nomatch h.1)
  rw [referencedRefs, List.mem_flatMap]
  constructor
  · rintro ⟨c, -, h⟩
    obtain ⟨item, hitem, h⟩ := List.mem_flatMap.mp h
    exact ⟨c, item, hitem, (hcollect item).mp h⟩
  · rintro ⟨c, item, hitem, h⟩
    exact ⟨c, c.mem_all, List.mem_flatMap.mpr ⟨item, hitem, (hcollect item).mpr h⟩⟩

/-- A text of an item of the view, and the one of the pack. -/
theorem str_of_boundedItem {original : Dict} {key : String} {t : String}
    (hkey : key ≠ "truncated_text_fields")
    (h : fieldOf (boundedItem original) key = .str t) :
    fieldOf original key = .str t ∨
      ∃ s, fieldOf original key = .str s ∧ 2000 < s.length ∧ t.length = 2000 := by
  rw [fieldOf, lookup_boundedItem hkey] at h
  rcases e : lookup key original with - | v
  · rw [e] at h
    cases h
  rw [e, Option.map_some, Option.getD_some] at h
  have hv : fieldOf original key = v := by rw [fieldOf, e]; rfl
  rw [hv]
  cases v with
  | str s =>
      rw [cutText] at h
      split_ifs at h with hlong
      · refine .inr ⟨s, rfl, hlong, ?_⟩
        rw [← Json.str.inj h, String.length_ofList, List.length_take]
        exact Nat.min_eq_left (Nat.le_of_lt hlong)
      · exact .inl h
  | _ => cases h

/-- For every pack that acquisition returns and all limits, the view is self-contained. -/
theorem view_selfContained {tools : Tools} {scan : Scan} {pack : Pack}
    (h : acquireRepoEvidence tools scan = .ok pack) (limits : List (String × Nat)) :
    SelfContained pack (boundedEvidenceView pack limits) := by
  obtain ⟨parsed, s, hlinked, hsize, rfl⟩ := acquire_linked h
  generalize hpack : packOf tools scan parsed s = pack
  have hindex : pack.provenanceIndex = s.provenance := hpack ▸ rfl
  have hcites (c : Collection) : ∀ item ∈ pack.items c, Cites pack.provenanceIndex item := by
    rw [hindex, ← hpack]
    exact hlinked.packOf c
  have href {ref : String} (hr : ref ∈ pack.provenanceIndex.map (·.1)) :
      ∃ n, ref = refName n ∧ ref.length ≤ 25 := by
    rw [hindex] at hr
    exact ref_of_mem hlinked.numbered hsize hr
  have hneKeys : ∀ key ∈ refKeys, key ≠ "truncated_text_fields" := by decide
  have hsubset : ∀ key ∈ evidenceRefKeys, key ∈ refKeys := by decide
  constructor
  · intro c item hitem key hkey ref hfield
    obtain ⟨original, horiginal, rfl⟩ := mem_view_items hitem
    have hmem : ref ∈ pack.provenanceIndex.map (·.1) := by
      rcases str_of_boundedItem (hneKeys key (hsubset key hkey)) hfield with hs | ⟨s, hs, hlong, -⟩
      · exact (hcites c original horiginal).refs key hkey ref hs
      · -- a reference is too short to be cut
        obtain ⟨-, -, hshort⟩ := href ((hcites c original horiginal).refs key hkey s hs)
        omega
    obtain ⟨n, hn, -⟩ := href hmem
    obtain ⟨e, he, rfl⟩ := List.mem_map.mp hmem
    rcases hfind : find e.1 pack.provenanceIndex with - | entry
    · exact absurd (find_isSome he) (by rw [hfind]; decide)
    · refine ⟨entry, ?_, rfl⟩
      rw [find_view_provenance, if_pos, hfind]
      exact mem_referencedRefs.mpr ⟨c, _, hitem, key, hsubset key hkey, hfield,
        hn ▸ startsWith_refName n⟩
  · intro e he
    obtain ⟨ref, hmem, hentry⟩ := List.mem_filterMap.mp he
    obtain ⟨entry, hfind, rfl⟩ := Option.map_eq_some_iff.mp hentry
    obtain ⟨n, (hn : ref = refName n), (hshort : ref.length ≤ 25)⟩ :=
      href (List.mem_map_of_mem (find_mem hfind))
    have hreferenced : ref ∈ referencedRefs pack limits :=
      List.mem_dedup.mp ((List.mem_insertionSort _).mp hmem)
    obtain ⟨c, item, hitem, key, hkey, hfield, -⟩ := mem_referencedRefs.mp hreferenced
    refine ⟨c, item, hitem, key, ?_, hfield⟩
    by_cases hresolved : key = "resolved_path"
    · -- the path of a Python file is no reference
      subst hresolved
      obtain ⟨original, horiginal, rfl⟩ := mem_view_items hitem
      rcases str_of_boundedItem (hneKeys _ hkey) hfield with hs | ⟨-, -, -, hlen⟩
      · have hpy := (hcites c original horiginal).resolved ref hs
        rw [hn, refName_not_python] at hpy
        cases hpy
      · have hlong : ref.length = 2000 := hlen
        omega
    · simp only [refKeys, evidenceRefKeys, List.mem_cons] at hkey ⊢
      grind
  · exact fun c => (ranked_perm pack c).length_eq
  · exact fun c => rfl
  · intro c
    rw [← (ranked_perm pack c).length_eq]
    exact decide_eq_true_iff
  · exact ranked_perm pack
  · intro c i item hitem
    have hmap : ((pack.ranked c).take (limitOf limits c))[i]?.map boundedItem = some item :=
      List.getElem?_map.symm.trans hitem
    obtain ⟨original, horiginal, rfl⟩ := Option.map_eq_some_iff.mp hmap
    have htake := List.mem_of_getElem? horiginal
    rw [List.getElem?_take] at horiginal
    refine ⟨original, ?_, agreesUpToCut ?_⟩
    · split at horiginal
      · exact horiginal
      · cases horiginal
    · exact (hcites c original
        ((ranked_perm pack c).mem_iff.mp (List.mem_of_mem_take htake))).unmarked

/-- A repository with one Markdown file of two claims. -/
def sampleTools : Tools where
  sha256 _ := zeroDigest
  parse _ := .error .refused
  toml _ := .error .refused
  casefold s := s
  stdlibModule _ := false

def sampleScan : Scan where
  root := "/repo"
  authorizedBy := "human"
  authorizationNote := ""
  excludedPaths := []
  reads := [⟨"notes.md", some "00", .text "`a`\n`b`\n"⟩]
  missingTracked := []
  symlinkSkips := []
  vcs := "none"
  head := none
  branch := none
  now := "2026-01-01T00:00:00+00:00"
  sorted := List.pairwise_singleton _ _

/-- A view of it with one of the claims. -/
theorem sampleView_selfContained :
    ∃ pack, acquireRepoEvidence sampleTools sampleScan = .ok pack ∧
      SelfContained pack (boundedEvidenceView pack [("doc_claims", 1)]) :=
  have hpack : acquireRepoEvidence sampleTools sampleScan = .ok _ := rfl
  ⟨_, hpack, view_selfContained hpack _⟩

end Konoha.RepoEvidence
