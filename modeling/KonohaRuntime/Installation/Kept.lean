/-
Installation/Kept.lean

What a supervised installation keeps, whatever its helper does.

`sound_iff`: the scope, the index and the direct files are inspected again after the helper, but not
what is checked out.
-/
import KonohaRuntime.Installation.Install

namespace Konoha.Installation

open CodePoint
open Release (Oid)

variable (env : Env) (m : Manifest)

/-! ### What is claimed, and when it holds -/

/-- The repository is still at the base of the manifest, the index is that of `HEAD`, the changed
files are the planned ones, and the direct ones are as they were. -/
structure Kept (s t : State) (r : Repo) : Prop where
  repo : t.repo = some r
  branch : PyStr.ofString r.branch = m.expectedBranch
  head : PyStr.ofString r.head = m.expectedBaseCommit
  staged : r.staged = []
  scope : ∀ path, path ∈ r.changed ++ r.untracked ↔
    path ∈ m.directRepoPaths ∨ path ∈ m.helperModifiedPaths
  direct : ∀ path ∈ m.directRepoPaths, ∃ bytes, s.file path = .file bytes ∧ t.file path = .file bytes

/-- Run again, the installation runs no helper, whatever it would do, and reports the same. -/
def Repeats (t : State) : Prop :=
  ∀ token ending, ∃ report, inspectOrInstall env m true token t ending = .ok (report, t) ∧
    report.helper = false ∧ report.statusCode = .installed ∧ report.installed = true

/-- What is claimed of a run. -/
def Sound (token : PyStr) (s : State) (ending : Ending) : Prop :=
  ∀ report t, inspectOrInstall env m true token s ending = .ok (report, t) →
    report.installed = true → (∃ r, Kept m s t r) ∧ Repeats env m t

/-- What no inspection after the helper sees: the repository is at its base, no name has blanks at
its ends, and no file has been replaced by one with the same digest. -/
structure Undisturbed (s t : State) (r : Repo) : Prop where
  atBase : r.AtBase m
  trimmed : ∀ name ∈ r.changed ++ r.untracked, Trimmed name
  staged : ∀ name ∈ r.staged, ∃ c ∈ name, c ≠ scalar ' '
  distinct : ∀ path ∈ m.directRepoPaths, ∀ bytes bytes', s.file path = .file bytes →
    t.file path = .file bytes' → env.sha256 bytes = env.sha256 bytes' → bytes = bytes'

/-- The state that passes the inspections after the helper is undisturbed. -/
def Contained (token : PyStr) (s : State) (ending : Ending) : Prop :=
  ∀ start t helper r, inspect env m s = .ok start →
    helperStep m true token s ending start = .ok (t, helper) →
      InspectedAgain env m start t r → Undisturbed env m s t r

/-! ### One run -/

section Run

variable {env m} {s t : State} {start : Start} {r : Repo}

theorem stateOf_eq_installed_iff (hvalid : m.Valid) {actual : List PyStr} :
    m.stateOf actual = .installed ↔ actual = m.expectedPublicPaths := by
  have hne : m.expectedPublicPaths ≠ m.directRepoPaths := by
    intro h
    obtain ⟨path, rest, hpath⟩ := List.exists_cons_of_ne_nil hvalid.helperModified.ne_nil
    have hmem : path ∈ m.helperModifiedPaths := hpath ▸ List.mem_cons_self
    have hdirect := (hvalid.union path).mpr (.inr hmem)
    rw [h] at hdirect
    exact hvalid.disjoint path hdirect hmem
  unfold Manifest.stateOf determineState
  split_ifs with hdirect hfinal
  · exact iff_of_false nofun fun h => hne (h.symm.trans hdirect)
  · exact iff_of_true rfl hfinal
  · exact iff_of_false nofun hfinal

theorem sameDigests {env : Env} {s t : State} (hs : Inspected env m s start)
    (ht : InspectedAgain env m start t r) :
    ∀ path ∈ m.directRepoPaths, ∃ digest, HasDigest env s path digest ∧ HasDigest env t path digest := by
  obtain ⟨hashes, hhashes, hchanged⟩ := ht.hashes
  exact (changedDirect_eq_nil_iff hs.hashes hhashes).mp hchanged

/-- What a state that passes the inspections is, if it is undisturbed. -/
theorem Undisturbed.kept (hvalid : m.Valid) (hs : Inspected env m s start)
    (ht : InspectedAgain env m start t r) (h : Undisturbed env m s t r) : Kept m s t r where
  repo := ht.repo
  branch := h.atBase.branch
  head := h.atBase.head
  staged := by
    have hblank := collectStagedScope_eq_nil_iff.mp ht.staged
    refine List.eq_nil_iff_forall_not_mem.mpr fun name hname => ?_
    obtain ⟨c, hc, hne⟩ := h.staged name hname
    exact hne (hblank name hname c hc)
  scope path := by
    have hscope := (stateOf_eq_installed_iff hvalid).mp ht.installed
    rw [(scope_exact_iff hvalid hscope).mpr h.trimmed, hvalid.union]
  direct path hpath := by
    obtain ⟨digest, ⟨bytes, hbytes, hd⟩, bytes', hbytes', hd'⟩ := sameDigests hs ht path hpath
    obtain rfl := h.distinct path hpath bytes bytes' hbytes hbytes' (hd.trans hd'.symm)
    exact ⟨bytes, hbytes, hbytes'⟩

/-- In a state that is installed, no helper is run. -/
theorem repeats_of_atBase (hvalid : m.Valid) (hs : Inspected env m s start)
    (ht : InspectedAgain env m start t r) (hbase : r.AtBase m) : Repeats env m t := by
  intro token ending
  obtain ⟨r₀, -, hbase₀, hcounts, -⟩ := hs.atBase
  have hhead : r.head = r₀.head := PyStr.ofString_injective (hbase.head.trans hbase₀.head.symm)
  have hscope := (stateOf_eq_installed_iff hvalid).mp ht.installed
  obtain ⟨hashes, hhashes, -⟩ := ht.hashes
  let again : Start := ⟨r.branch, r.head, r.collectPublicScope, .installed, hashes⟩
  have hagain : Inspected env m t again := {
    atBase := ⟨r, ht.repo, hbase, hhead ▸ hcounts, ht.staged, rfl, rfl, rfl⟩
    notPrivate := fun path hpath => hvalid.notPrivate path (hscope ▸ hpath)
    state := ht.installed.symm
    known := nofun
    hashes := hhashes }
  have hunchanged : changedDirect hashes hashes = [] := by
    refine (changedDirect_eq_nil_iff hhashes hhashes).mpr fun path hpath => ?_
    obtain ⟨digest, -, hd⟩ := sameDigests hs ht path hpath
    exact ⟨digest, hd, hd⟩
  refine ⟨installedReport again r false, ?_, rfl, rfl, rfl⟩
  refine inspectOrInstall_eq_ok_iff.mpr ⟨again, false, r, hagain, ?_, ?_, rfl⟩
  · exact if_neg fun h => nomatch h.2
  · exact ⟨ht.repo, ht.installed, ⟨hashes, hhashes, hunchanged⟩, ht.staged⟩

/-- A state in which the run can be repeated is at its base. -/
theorem Repeats.atBase (h : Repeats env m t) (hr : t.repo = some r) : r.AtBase m := by
  obtain ⟨report, hrun, -⟩ := h [] (.timedOut t)
  obtain ⟨start, helper, -, hstart, -⟩ := inspectOrInstall_eq_ok_iff.mp hrun
  obtain ⟨r', hr', hbase, -⟩ := hstart.atBase
  exact Option.some.inj (hr.symm.trans hr') ▸ hbase

theorem undisturbed_of_kept (hvalid : m.Valid) (ht : InspectedAgain env m start t r)
    (hkept : ∃ r, Kept m s t r) (hrepeats : Repeats env m t) : Undisturbed env m s t r := by
  obtain ⟨r', hkept⟩ := hkept
  obtain rfl : r = r' := Option.some.inj (ht.repo.symm.trans hkept.repo)
  have hscope := (stateOf_eq_installed_iff hvalid).mp ht.installed
  refine ⟨hrepeats.atBase ht.repo, ?_, ?_, ?_⟩
  · refine (scope_exact_iff hvalid hscope).mp fun path => ?_
    rw [hkept.scope, hvalid.union]
  · rw [hkept.staged]
    exact List.forall_mem_nil _
  · intro path hpath bytes bytes' hbytes hbytes' _
    obtain ⟨bytes₀, h, h'⟩ := hkept.direct path hpath
    exact (FileAt.file.inj (hbytes.symm.trans h)).trans (FileAt.file.inj (hbytes'.symm.trans h')).symm

end Run

/-- **A run is sound if and only if the state that passes the inspections after the helper is
undisturbed.** -/
theorem sound_iff {payload : PyDict} (h : validateManifest payload = .ok m) (token : PyStr) (s : State)
    (ending : Ending) : Sound env m token s ending ↔ Contained env m token s ending := by
  have hvalid := valid_of_validateManifest h
  constructor
  · intro hsound start t helper r hstart hstep ht
    have hrun : inspectOrInstall env m true token s ending = .ok (installedReport start r helper, t) :=
      inspectOrInstall_eq_ok_iff.mpr ⟨start, helper, r, inspect_eq_ok_iff.mp hstart, hstep, ht, rfl⟩
    obtain ⟨hkept, hrepeats⟩ := hsound _ t hrun rfl
    exact undisturbed_of_kept hvalid ht hkept hrepeats
  · intro hcontained report t hrun _
    obtain ⟨start, helper, r, hstart, hstep, ht, -⟩ := inspectOrInstall_eq_ok_iff.mp hrun
    have hundisturbed := hcontained start t helper r (inspect_eq_ok_iff.mpr hstart) hstep ht
    exact ⟨⟨r, hundisturbed.kept hvalid hstart ht⟩, repeats_of_atBase hvalid hstart ht hundisturbed.atBase⟩

/-! ### A helper that switches the branch -/

/-- A manifest of one new file, and of an index that its helper changes. -/
def sampleManifest : Manifest where
  installationId := .ofString "sample"
  expectedBaseCommit := List.replicate 40 (scalar 'a')
  expectedBranch := .ofString "main"
  trackingRef := .ofString "origin/main"
  directRepoPaths := [.ofString "new.py"]
  helperModifiedPaths := [.ofString "INDEX.md"]
  expectedPublicPaths := [.ofString "INDEX.md", .ofString "new.py"]
  helperPath := .ofString "sandbox/helper.py"
  helperApprovalToken := .ofString "APPLY"

/-- The text of the manifest, as it is parsed. -/
def samplePayload : PyDict :=
  [(.ofString "schema_version", .str (.ofString "1.0.0")),
    (.ofString "report_type", .str (.ofString "supervised_package_installation_manifest")),
    (.ofString "installation_id", .str sampleManifest.installationId),
    (.ofString "expected_base_commit", .str sampleManifest.expectedBaseCommit),
    (.ofString "expected_branch", .str sampleManifest.expectedBranch),
    (.ofString "tracking_ref", .str sampleManifest.trackingRef),
    (.ofString "direct_repo_paths", .arr (sampleManifest.directRepoPaths.map .str)),
    (.ofString "helper_modified_paths", .arr (sampleManifest.helperModifiedPaths.map .str)),
    (.ofString "expected_public_paths", .arr (sampleManifest.expectedPublicPaths.map .str)),
    (.ofString "helper_path", .str sampleManifest.helperPath),
    (.ofString "helper_approval_token", .str sampleManifest.helperApprovalToken),
    (.ofString "authority", .obj (requiredAuthority.map fun key => (.ofString key, .bool true)))]

theorem validateManifest_sample : validateManifest samplePayload = .ok sampleManifest := by
  decide +kernel

/-- All is at the base, and the new file is there. -/
def sampleRepo : Repo where
  branch := "main"
  head := "".pushn 'a' 40
  resolve _ := some ("".pushn 'a' 40)
  changed := []
  untracked := [.ofString "new.py"]
  staged := []
  named := by decide

def sampleState : State where
  repo := some sampleRepo
  file _ := .file []
  sandboxed _ := .file []

/-- The index is changed as planned, and another branch is checked out. -/
def switchedRepo : Repo where
  branch := "other"
  head := sampleRepo.head
  resolve := sampleRepo.resolve
  changed := [.ofString "INDEX.md"]
  untracked := [.ofString "new.py"]
  staged := []
  named := by decide

def switchedState : State := { sampleState with repo := some switchedRepo }

def sampleDigest : Digest := ⟨"".pushn '0' 64, by decide +kernel⟩

/-- Every digest is the same here. -/
def sampleEnv : Env where
  counts _ _ := (0, 0)
  sha256 _ := sampleDigest

theorem sound_iff_sample :
    Sound sampleEnv sampleManifest installToken sampleState (.exited 0 switchedState) ↔
      Contained sampleEnv sampleManifest installToken sampleState (.exited 0 switchedState) :=
  sound_iff sampleEnv sampleManifest validateManifest_sample installToken sampleState
    (.exited 0 switchedState)

/-- The new file, and its digest. -/
theorem hasDigests_sample (s : State) (hfile : s.file = fun _ => .file []) :
    HasDigests sampleEnv sampleManifest s [(.ofString "new.py", sampleDigest)] :=
  .cons ⟨rfl, [], congrFun hfile _, rfl⟩ .nil

/-- The helper has left the branch, and the package counts as installed. -/
theorem switchedBranch_installed : validateManifest samplePayload = .ok sampleManifest ∧
    ¬ Sound sampleEnv sampleManifest installToken sampleState (.exited 0 switchedState) := by
  refine ⟨validateManifest_sample, fun hsound => ?_⟩
  have hbefore : sampleRepo.collectPublicScope = [.ofString "new.py"] := by decide +kernel
  have hafter : switchedRepo.collectPublicScope = sampleManifest.expectedPublicPaths := by decide +kernel
  have hready : sampleManifest.stateOf [.ofString "new.py"] = .readyForHelperApply := by decide +kernel
  have hinstalled : sampleManifest.stateOf sampleManifest.expectedPublicPaths = .installed := by
    decide +kernel
  let start : Start := ⟨"main", sampleRepo.head, [.ofString "new.py"], .readyForHelperApply,
    [(.ofString "new.py", sampleDigest)]⟩
  have hstart : Inspected sampleEnv sampleManifest sampleState start := {
    atBase := ⟨sampleRepo, rfl, ⟨rfl, by decide +kernel, rfl⟩, rfl, rfl, hbefore.symm, rfl, rfl⟩
    notPrivate := by decide +kernel
    state := hready.symm
    known := nofun
    hashes := hasDigests_sample sampleState rfl }
  have hagain : InspectedAgain sampleEnv sampleManifest start switchedState switchedRepo := {
    repo := rfl
    installed := hafter ▸ hinstalled
    hashes := ⟨_, hasDigests_sample switchedState rfl, by decide +kernel⟩
    staged := rfl }
  have hrun : inspectOrInstall sampleEnv sampleManifest true installToken sampleState
      (.exited 0 switchedState) = .ok (installedReport start switchedRepo true, switchedState) :=
    inspectOrInstall_eq_ok_iff.mpr ⟨start, true, switchedRepo, hstart, rfl, hagain, rfl⟩
  obtain ⟨⟨r, hkept⟩, -⟩ := hsound _ _ hrun rfl
  obtain rfl : switchedRepo = r := Option.some.inj hkept.repo
  exact absurd hkept.branch (by decide +kernel)

end Konoha.Installation
