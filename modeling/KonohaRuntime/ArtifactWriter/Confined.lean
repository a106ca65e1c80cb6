/-
ArtifactWriter/Confined.lean

What the artifact writer writes, where symbolic links are on the way, and both tools together.

`confined_iff`: the apply tool refuses a `proposed_outputs` that leads out of its run, the writer does
not.
-/
import KonohaRuntime.ApplyPlan.Atomic
import KonohaRuntime.ApplyPlan.Confined
import KonohaRuntime.ArtifactWriter.Writer

namespace Konoha.ArtifactWriter

open FileTree
open ApplyPlan (Bytes FileTree FilePath resolve writeBytes real_of_resolve resolve_of_real resolve_name_iff
  outputsName Disk writeBytes_eq_ok_iff)

variable (env : Env) (run : Run)

/-! ### What is claimed, and when it holds -/

/-- The artifact's file is opened, and so written. -/
def Opened (prepared : Prepared) (tree : FileTree) : Prop :=
  env.permits prepared.artifactPath = true ∧
    ((tree.mkdirs prepared.paths.outputsRoot).bind fun outer =>
      (outer.mkdirs prepared.artifactPath.dropLast).bind fun made =>
        made.write prepared.artifactPath []).isSome = true

/-- What is claimed of a call. -/
structure Confines (call : Call) (tree : FileTree) : Prop where
  accounted : ∀ q, (writeSandboxArtifact env run call tree).2.fileAt q ≠ tree.fileAt q →
    ∃ prepared, prepare env run call tree = .ok prepared ∧
      (q = prepared.artifactPath ∨ resolve env.toEnv tree prepared.paths.runDir planName = .ok q ∨
        resolve env.toEnv tree prepared.paths.runDir reportName = .ok q)
  inside : ∀ prepared, prepare env run call tree = .ok prepared → Opened env prepared tree →
    prepared.paths.runDir ++ outputsName <+: prepared.artifactPath

/-- `proposed_outputs` is no link, where something is written below it. -/
def Unlinked (call : Call) (tree : FileTree) : Prop :=
  ∀ prepared, prepare env run call tree = .ok prepared → Opened env prepared tree →
    tree.links (prepared.paths.runDir ++ outputsName) = none

/-! ### One call -/

section Call

variable {env run} {call : Call} {tree after : FileTree} {prepared : Prepared}

/-- What is known of a call that passes its checks. -/
structure Located (env : Env) (tree : FileTree) (prepared : Prepared) : Prop where
  runDir : Real tree.links prepared.paths.runDir
  outputs : resolve env.toEnv tree prepared.paths.runDir outputsName = .ok prepared.paths.outputsRoot
  artifact : resolve env.toEnv tree prepared.paths.outputsRoot prepared.names =
    .ok prepared.artifactPath
  under : prepared.paths.outputsRoot <+: prepared.artifactPath

theorem located_of_prepare (hroot : tree [] = some .dir) (h : prepare env run call tree = .ok prepared) :
    Located env tree prepared := by
  unfold prepare at h
  obtain ⟨paths, hpaths, h⟩ := bind_eq_ok.mp h
  obtain ⟨_, _, h⟩ := bind_eq_ok.mp h
  obtain ⟨_, _, h⟩ := bind_eq_ok.mp h
  obtain ⟨⟨artifactPath, names⟩, hartifact, h⟩ := bind_eq_ok.mp h
  obtain ⟨_, _, h⟩ := bind_eq_ok.mp h
  obtain ⟨_, _, h⟩ := bind_eq_ok.mp h
  obtain ⟨_, _, h⟩ := bind_eq_ok.mp h
  obtain rfl := Except.ok.inj h
  unfold resolveRunPaths at hpaths
  obtain ⟨_, _, hpaths⟩ := bind_eq_ok.mp hpaths
  obtain ⟨sandboxRoot, hsandbox, hpaths⟩ := bind_eq_ok.mp hpaths
  obtain ⟨runsRoot, hruns, hpaths⟩ := bind_eq_ok.mp hpaths
  obtain ⟨runDir, hrun, hpaths⟩ := bind_eq_ok.mp hpaths
  obtain ⟨_, _, hpaths⟩ := bind_eq_ok.mp hpaths
  obtain ⟨_, _, hpaths⟩ := bind_eq_ok.mp hpaths
  obtain ⟨outputsRoot, houtputs, hpaths⟩ := bind_eq_ok.mp hpaths
  obtain rfl := Except.ok.inj hpaths
  unfold resolveArtifactPath at hartifact
  obtain ⟨_, _, hartifact⟩ := bind_eq_ok.mp hartifact
  obtain ⟨_, _, hartifact⟩ := bind_eq_ok.mp hartifact
  obtain ⟨_, _, hartifact⟩ := bind_eq_ok.mp hartifact
  obtain ⟨artifactPath', hplace, hartifact⟩ := bind_eq_ok.mp hartifact
  obtain ⟨_, hunder, hartifact⟩ := bind_eq_ok.mp hartifact
  obtain ⟨rfl, rfl⟩ := Prod.mk.inj (Except.ok.inj hartifact)
  have hrunDir := real_of_resolve (real_of_resolve (real_of_resolve (ApplyPlan.real_nil hroot) hsandbox)
    hruns) hrun
  exact ⟨hrunDir, houtputs, hplace, List.isPrefixOf_iff_prefix.mp (check_eq_ok_iff.mp hunder)⟩

theorem Located.realOutputs (h : Located env tree prepared) :
    Real tree.links prepared.paths.outputsRoot := real_of_resolve h.runDir h.outputs

theorem Located.realArtifact (h : Located env tree prepared) :
    Real tree.links prepared.artifactPath := real_of_resolve h.realOutputs h.artifact

/-- An artifact is below `proposed_outputs` if and only if that is no link. -/
theorem Located.inside_iff (h : Located env tree prepared) :
    prepared.paths.runDir ++ outputsName <+: prepared.artifactPath ↔
      tree.links (prepared.paths.runDir ++ outputsName) = none := by
  constructor
  · exact fun hbelow => h.realArtifact _ hbelow
  · intro hlink
    have hplace : resolve env.toEnv tree prepared.paths.runDir outputsName =
        .ok (prepared.paths.runDir ++ outputsName) := (resolve_name_iff h.runDir).mpr hlink
    rw [← Except.ok.inj (h.outputs.symm.trans hplace)]
    exact h.under

/-- One file may be another afterwards, and no link. -/
structure Touches (tree after : FileTree) (p : FilePath) : Prop where
  files : ∀ q, q ≠ p → after.fileAt q = tree.fileAt q
  links : after.links = tree.links

theorem touches_writeArtifact (env : Env) (hreal : Real tree.links prepared.artifactPath) (content : PyStr) :
    Touches tree (writeArtifact env prepared content tree).2 prepared.artifactPath := by
  unfold writeArtifact
  rcases houter : tree.mkdirs prepared.paths.outputsRoot with - | outer
  · exact ⟨fun _ _ => rfl, rfl⟩
  · have hfiles := fileAt_mkdirs houter
    have hlinks := links_mkdirs houter
    dsimp only
    rcases hmade : outer.mkdirs prepared.artifactPath.dropLast with - | made
    · exact ⟨fun q _ => hfiles q, hlinks⟩
    · have hfiles' := fun q => (fileAt_mkdirs hmade q).trans (hfiles q)
      have hlinks' := (links_mkdirs hmade).trans hlinks
      have hnone : made.links prepared.artifactPath = none := by
        rw [hlinks']
        exact hreal _ List.prefix_rfl
      dsimp only
      split_ifs
      · rcases hopened : made.write prepared.artifactPath [] with - | opened
        · exact ⟨fun q _ => hfiles' q, hlinks'⟩
        · rw [Tree.write] at hopened
          split_ifs at hopened
          obtain rfl := Option.some.inj hopened
          dsimp only
          cases content.encode with
          | error e =>
              refine ⟨fun q hq => ?_, (links_update hnone).trans hlinks'⟩
              rw [fileAt_update, if_neg hq, hfiles']
          | ok text =>
              dsimp only
              rw [Function.update_idem]
              refine ⟨fun q hq => ?_, (links_update hnone).trans hlinks'⟩
              rw [fileAt_update, if_neg hq, hfiles']
      · exact ⟨fun q _ => hfiles' q, hlinks'⟩

theorem touches_writeBytes {here names : FilePath} {bytes : Bytes} (hreal : Real tree.links here)
    (h : writeBytes env.toEnv tree here names bytes = .ok after) :
    ∃ p, resolve env.toEnv tree here names = .ok p ∧ Touches tree after p := by
  obtain ⟨p, hp, rfl⟩ := writeBytes_eq_ok_iff.mp h
  refine ⟨p, hp.place, fun q hq => ?_, ?_⟩
  · rw [fileAt_update, if_neg hq]
  · exact links_update (real_of_resolve hreal hp.place _ List.prefix_rfl)

theorem resolve_congr (h : after.links = tree.links) (here names : FilePath) :
    resolve env.toEnv after here names = resolve env.toEnv tree here names := by
  rw [resolve, resolve, h]

theorem recordArtifact_eq_ok (h : recordArtifact env run prepared call tree = .ok after) : ∃ plan,
    writeBytes env.toEnv tree prepared.paths.runDir planName (env.dumps plan) = .ok after := by
  unfold recordArtifact at h
  obtain ⟨_, _, h⟩ := bind_eq_ok.mp h
  obtain ⟨plan, _, h⟩ := bind_eq_ok.mp h
  exact ⟨plan, h⟩

/-- A call changes the artifact's file, and those where the names of the plan and the report lead. -/
theorem accounted (h : Located env tree prepared) (hprepare : prepare env run call tree = .ok prepared)
    {q : FilePath} (hq : (writeSandboxArtifact env run call tree).2.fileAt q ≠ tree.fileAt q) :
    q = prepared.artifactPath ∨ resolve env.toEnv tree prepared.paths.runDir planName = .ok q ∨
      resolve env.toEnv tree prepared.paths.runDir reportName = .ok q := by
  by_contra hnot
  obtain ⟨hartifact, hnot⟩ := not_or.mp hnot
  obtain ⟨hplan, hreport⟩ := not_or.mp hnot
  apply hq
  have hwrite := touches_writeArtifact env h.realArtifact call.content
  have hfirst := hwrite.files q hartifact
  rw [writeSandboxArtifact, hprepare]
  dsimp only
  rcases hwritten : writeArtifact env prepared call.content tree with ⟨e | _, written⟩
  · rw [hwritten] at hfirst
    exact hfirst
  · rw [hwritten] at hfirst hwrite
    dsimp only at hfirst hwrite ⊢
    have hrunDir : Real written.links prepared.paths.runDir := by
      rw [hwrite.links]
      exact h.runDir
    rcases hrecord : recordArtifact env run prepared call written with e | recorded
    · exact hfirst
    · obtain ⟨plan, hbytes⟩ := recordArtifact_eq_ok hrecord
      obtain ⟨p, hp, htouch⟩ := touches_writeBytes hrunDir hbytes
      rw [resolve_congr hwrite.links] at hp
      have hsecond := htouch.files q fun he => hplan (he ▸ hp)
      dsimp only
      rcases hreported : writeBytes env.toEnv recorded prepared.paths.runDir reportName env.reportText
        with e | reported
      · exact hsecond.trans hfirst
      · obtain ⟨p', hp', htouch'⟩ := touches_writeBytes (by rw [htouch.links]; exact hrunDir) hreported
        rw [resolve_congr (htouch.links.trans hwrite.links)] at hp'
        exact (htouch'.files q fun he => hreport (he ▸ hp')).trans (hsecond.trans hfirst)

/-- The writer is confined to its run if and only if `proposed_outputs` is no link where it writes. -/
theorem confines_iff (disk : Disk) (call : Call) :
    Confines env run call disk.tree ↔ Unlinked env run call disk.tree := by
  constructor
  · intro h prepared hprepare hopened
    exact (located_of_prepare disk.root hprepare).inside_iff.mp (h.inside prepared hprepare hopened)
  · refine fun h => ⟨fun q hq => ?_, fun prepared hprepare hopened => ?_⟩
    · rcases hprepare : prepare env run call disk.tree with e | prepared
      · rw [writeSandboxArtifact, hprepare] at hq
        exact absurd rfl hq
      · exact ⟨prepared, rfl, accounted (located_of_prepare disk.root hprepare) hprepare hq⟩
    · exact (located_of_prepare disk.root hprepare).inside_iff.mpr (h prepared hprepare hopened)

end Call

/-- Both tools stay in their places if and only if no link leads them elsewhere. -/
theorem confined_iff (disk : Disk) (args : ApplyPlan.Args) (call : Call) :
    (ApplyPlan.Confines env.toEnv args disk.tree ↔
      ∀ paths changes, ApplyPlan.prepare env.toEnv args disk.tree = .ok (paths, changes) →
        ApplyPlan.Unlinked env.toEnv args paths changes disk.tree) ∧
    (Confines env run call disk.tree ↔ Unlinked env run call disk.tree) :=
  ⟨ApplyPlan.confines_iff env.toEnv disk args, confines_iff disk call⟩

/-! ### Two links -/

/-- Names from the root -/
def names (texts : List String) : FilePath := texts.map .ofString

/-- The repository has a link `docs/notes` to `private`. -/
def linkedDisk : Disk where
  tree := Tree.of (ApplyPlan.sampleEntries ["docs/notes/a.md"] ++ [
    (names ["r", "docs"], .dir), (names ["r", "private"], .dir),
    (names ["r", "docs", "notes"], .link ⟨false, [none, some (.ofString "private")]⟩)])
  root := rfl
  closed := closed_of rfl

/-- The run's `proposed_outputs` is a link to a directory beside the sandbox. -/
def outsideDisk : Disk where
  tree := Tree.of [
    (names ["s"], .dir), (names ["s", "runs"], .dir), (names ["s", "runs", "a"], .dir),
    (names ["s", "runs", "a", "sandbox_run_manifest.json"],
      .file (ApplyPlan.sampleText (ApplyPlan.samplePlan []))),
    (names ["s", "runs", "a", "proposed_outputs"], .link ⟨true, [some (.ofString "elsewhere")]⟩),
    (names ["elsewhere"], .dir)]
  root := rfl
  closed := closed_of rfl

/-- The manifest is the only file that is read as JSON. -/
def sampleEnv : Env where
  toEnv := ApplyPlan.sampleEnv []
  parse := fun _ => .error (.exception "Artifact content is not valid JSON")
  dumps := ApplyPlan.sampleText

def sampleRun : Run := ⟨names ["s"], .ofString "a"⟩

def sampleCall (artifact : String) (force : Bool) : Call where
  artifactPath := .ofString artifact
  content := .ofString "x"
  artifactKind := .ofString "markdown"
  intendedRepoPath := .ofString "UNASSIGNED"
  force := force
  now := "2026-01-01T00:00:00+00:00"

def linkedRun : ApplyPlan.Run :=
  ApplyPlan.applySandboxPlan (ApplyPlan.sampleEnv ["docs/notes/a.md"])
    (ApplyPlan.sampleRequest.apply false) linkedDisk.tree

/-- The apply tool writes into `private`, and the writer outside of the sandbox. -/
theorem links_followed :
    ¬ ApplyPlan.Confines (ApplyPlan.sampleEnv ["docs/notes/a.md"])
        (ApplyPlan.sampleRequest.apply false) linkedDisk.tree ∧
      ¬ Confines sampleEnv sampleRun (sampleCall "a.md" false) outsideDisk.tree := by
  constructor
  · intro h
    have hpaths : (ApplyPlan.prepare (ApplyPlan.sampleEnv ["docs/notes/a.md"])
        (ApplyPlan.sampleRequest.apply false) linkedDisk.tree).map (·.1.repoRoot) =
          .ok (names ["r"]) := by decide +kernel
    have hdone : linkedRun.done.map (·.destination) = [names ["r", "private", "a.md"]] := by
      decide +kernel
    unfold ApplyPlan.Confines at h
    rcases hprepare : ApplyPlan.prepare (ApplyPlan.sampleEnv ["docs/notes/a.md"])
      (ApplyPlan.sampleRequest.apply false) linkedDisk.tree with e | ⟨paths, changes⟩
    · rw [hprepare] at hpaths
      cases hpaths
    · rw [hprepare] at hpaths h
      have hrepo : paths.repoRoot = names ["r"] := Except.ok.inj hpaths
      obtain ⟨placed, hmem, hplace⟩ := List.mem_map.mp (hdone ▸ List.mem_singleton.mpr rfl)
      obtain ⟨rest, hrest, hvalid⟩ := h.allowed rfl placed hmem
      rw [hplace, hrepo] at hrest
      have hnames : rest = names ["private", "a.md"] := (List.cons.inj hrest).2.symm
      rw [hnames] at hvalid
      have hrefused : (ApplyPlan.validateDestinationPath (names ["private", "a.md"])).isOk = false := by
        decide +kernel
      rw [hvalid] at hrefused
      cases hrefused
  · intro h
    have hprepare : prepare sampleEnv sampleRun (sampleCall "a.md" false) outsideDisk.tree =
        .ok ⟨⟨names ["s", "runs", "a"], names ["elsewhere"]⟩, names ["elsewhere", "a.md"],
          names ["a.md"]⟩ := by decide +kernel
    have hbelow := h.inside _ hprepare ⟨rfl, by decide +kernel⟩
    exact absurd (List.isPrefixOf_iff_prefix.mpr hbelow) (by decide +kernel)

end Konoha.ArtifactWriter
