/-
Installation/Alignment.lean

The delivery of a package: an installation by its manifest and a release by its plan, whose base,
version and files have been compared.

`delivered_iff`: where the installation reports INSTALLED, the preflight of the release passes if and
only if the documents also agree on the branch, and the tracking ref is there.
-/
import KonohaRuntime.Base.Legible
import KonohaRuntime.Installation.Kept
import KonohaRuntime.Release.Continuation

namespace Konoha.Installation

open CodePoint GitNames
open Release (Oid Objects FindsAt sortedSet)
open Release.Names (sorted mem_sorted)

/-! ### `validate_alignment` -/

/-- A delivery plan, as far as it is compared. -/
structure DeliveryPlan where
  expectedBaseCommit : PyStr
  targetVersion : PyStr

/-- `checks` -/
def checks (delivery : DeliveryPlan) (m : Manifest) (plan : Release.Plan) : List (String × Bool) :=
  [("installation_base", m.expectedBaseCommit = delivery.expectedBaseCommit),
    ("release_base", .ofString plan.expectedBaseCommit = delivery.expectedBaseCommit),
    ("release_version", .ofString plan.targetVersion = delivery.targetVersion),
    ("public_scope", m.expectedPublicPaths = plan.publicPaths.map .ofString)]

/-- `validate_alignment`, of documents that are accepted: the names of the checks that fail -/
def validateAlignment (delivery : DeliveryPlan) (m : Manifest) (plan : Release.Plan) : Except PyExc Unit :=
  let failed := ((checks delivery m plan).filter fun entry => !entry.2).map (·.1)
  check (failed = []) (.exception ("package/release alignment failed: " ++
    ", ".intercalate (failed.mergeSort fun a b => decide (a ≤ b))))

/-- What the alignment guarantees. -/
structure Aligned (m : Manifest) (plan : Release.Plan) : Prop where
  base : m.expectedBaseCommit = .ofString plan.expectedBaseCommit
  scope : m.expectedPublicPaths = plan.publicPaths.map .ofString

theorem aligned_of_validateAlignment {delivery : DeliveryPlan} {m : Manifest} {plan : Release.Plan} {u : Unit}
    (h : validateAlignment delivery m plan = .ok u) : Aligned m plan := by
  have hnil := of_decide_eq_true (check_eq_ok_iff.mp h)
  have hall : ∀ entry ∈ checks delivery m plan, entry.2 = true := by
    intro entry hentry
    have := List.filter_eq_nil_iff.mp (List.map_eq_nil_iff.mp hnil) entry hentry
    simpa using this
  simp only [checks, List.forall_mem_cons, decide_eq_true_eq] at hall
  obtain ⟨hinstallation, hrelease, -, hscope, -⟩ := hall
  exact ⟨hinstallation.trans hrelease.symm, hscope⟩

/-! ### One repository, seen by both -/

/-- `{remote}/{expected_branch}` -/
def trackingRef (plan : Release.Plan) : PyStr := .ofString (plan.remote ++ "/" ++ plan.expectedBranch)

/-- The lines that are read of a list of names. -/
def linesOf (names : List PyStr) : List String :=
  (names.filterMap fun name => word (quotePath name)).map String.ofList

/-- What the release sees of a repository. -/
structure Sees (plan : Release.Plan) (w : Release.World) (r : Repo) : Prop where
  branch : w.branch = r.branch
  head : w.head = r.head
  tracking : w.tracking = r.resolve (trackingRef plan)
  modified : w.modified = linesOf r.changed
  untracked : w.untracked = linesOf r.untracked

/-! ### The scope -/

theorem sorted_sortedSet (lines : List String) :
    (sortedSet lines).Pairwise (fun a b => a ≤ b) ∧ (sortedSet lines).Nodup ∧
      ∀ line, line ∈ sortedSet lines ↔ line ∈ lines := by
  have htrans : ∀ a b c : String, decide (a ≤ b) = true → decide (b ≤ c) = true →
      decide (a ≤ c) = true := fun a b c hab hbc =>
    decide_eq_true (le_trans (of_decide_eq_true hab) (of_decide_eq_true hbc))
  have htotal : ∀ a b : String, (decide (a ≤ b) || decide (b ≤ a)) = true := fun a b => by
    simpa using le_total a b
  have hsorted := List.pairwise_mergeSort htrans htotal lines
  refine ⟨?_, List.nodup_dedup _, fun line => ?_⟩
  · exact (hsorted.sublist (List.dedup_sublist _)).imp of_decide_eq_true
  · rw [sortedSet, List.mem_dedup, List.mem_mergeSort]

theorem mem_linesOf {names : List PyStr} {line : String} : line ∈ linesOf names ↔
    ∃ name ∈ names, word (quotePath name) = some line.toList := by
  rw [linesOf, List.mem_map]
  constructor
  · rintro ⟨chars, hchars, rfl⟩
    obtain ⟨name, hname, hword⟩ := List.mem_filterMap.mp hchars
    exact ⟨name, hname, by rw [hword, String.toList_ofList]⟩
  · rintro ⟨name, hname, hword⟩
    exact ⟨line.toList, List.mem_filterMap.mpr ⟨name, hname, hword⟩, String.ofList_toList⟩

/-- Both read the same scope. -/
theorem sortedSet_linesOf {r : Repo} {paths : List String}
    (h : r.collectPublicScope = paths.map .ofString) :
    sortedSet (linesOf r.changed ++ linesOf r.untracked) = paths := by
  obtain ⟨hsorted, hnodup, hmem⟩ := sorted_sortedSet (linesOf r.changed ++ linesOf r.untracked)
  have hpaths : (paths.map PyStr.ofString).Pairwise fun a b => PyJson.keyLE a b = true := by
    rw [← h]
    exact List.pairwise_insertionSort _ _
  have hpathsNodup : (paths.map PyStr.ofString).Nodup := by
    rw [← h]
    exact (List.perm_insertionSort _ _).nodup_iff.mpr (List.nodup_dedup _)
  have hlisted : ∀ path, path ∈ paths ↔ path ∈ linesOf r.changed ++ linesOf r.untracked := by
    intro path
    rw [← List.mem_map_of_injective PyStr.ofString_injective, ← h, mem_collectPublicScope, linesOf,
      linesOf, ← List.map_append, ← List.filterMap_append, ← linesOf, mem_linesOf]
    refine exists_congr fun name => and_congr_right fun _ => ?_
    constructor
    · rintro ⟨line, hword, hline⟩
      have hchars : line = path.toList :=
        List.map_injective_iff.mpr (fun _ _ => scalar.inj) hline
      rw [hword, hchars]
    · intro hword
      exact ⟨path.toList, hword, rfl⟩
  refine List.Perm.eq_of_pairwise (fun a b _ _ hab hba => le_antisymm hab hba) hsorted
    (((List.pairwise_map).mp hpaths).imp keyLE_ofString_iff.mp) ?_
  refine (List.perm_ext_iff_of_nodup hnodup (List.Nodup.of_map _ hpathsNodup)).mpr fun path => ?_
  rw [hmem, hlisted]

/-! ### Delivery -/

section Delivery

variable {env : Env} {m : Manifest} {plan : Release.Plan} {s : State} {token : PyStr} {ending : Ending}

/-- The installation, asked only, reports INSTALLED. -/
def ReportsInstalled (env : Env) (m : Manifest) (token : PyStr) (s : State) (ending : Ending) : Prop :=
  ∃ report t, inspectOrInstall env m false token s ending = .ok (report, t) ∧
    report.statusCode = .installed

/-- The repository is at its base, and its scope is that of the manifest. -/
theorem ReportsInstalled.inspected (hvalid : m.Valid) (h : ReportsInstalled env m token s ending) :
    ∃ r, s.repo = some r ∧ r.AtBase m ∧ env.counts r.head r.head = (0, 0) ∧
      r.collectPublicScope = m.expectedPublicPaths := by
  obtain ⟨report, t, hrun, hstatus⟩ := h
  unfold inspectOrInstall at hrun
  obtain ⟨start, hstart, hrun⟩ := bind_eq_ok.mp hrun
  obtain ⟨after, hafter, hrun⟩ := bind_eq_ok.mp hrun
  obtain ⟨report', hreport, hrun⟩ := bind_eq_ok.mp hrun
  obtain ⟨rfl, rfl⟩ := Prod.mk.inj (Except.ok.inj hrun)
  -- no helper is run, so that both inspections see the same
  obtain rfl : (s, false) = after := Except.ok.inj hafter
  obtain ⟨r, hr, hbase, hcounts, -⟩ := (inspect_eq_ok_iff.mp hstart).atBase
  unfold inspectAgain at hreport
  obtain ⟨r', hr', hreport⟩ := bind_eq_ok.mp hreport
  obtain rfl : r = r' := Option.some.inj (hr.symm.trans (git_eq_ok_iff.mp hr'))
  obtain ⟨_, _, hreport⟩ := bind_eq_ok.mp hreport
  obtain ⟨_, _, hreport⟩ := bind_eq_ok.mp hreport
  obtain ⟨_, _, hreport⟩ := bind_eq_ok.mp hreport
  obtain ⟨_, _, hreport⟩ := bind_eq_ok.mp hreport
  obtain rfl := Except.ok.inj hreport
  exact ⟨r, hr, hbase, hcounts, (stateOf_eq_installed_iff hvalid).mp hstatus⟩

/-- The release goes on to the commit, where `git diff --check` passes. -/
def Delivers (git : Objects) (plan : Release.Plan) (w : Release.World) : Prop :=
  FindsAt git plan true w (Release.preflight plan) (.ok .needsCommit)

theorem delivers_iff_returns {git : Objects} {w : Release.World} (h : Release.Prepared plan w) :
    Delivers git plan w ↔ Release.Returns git plan true w .needsCommit := by
  obtain ⟨x, hx, hiff⟩ := @Release.findsAt_preflight git plan w true h
  rw [← hiff]
  constructor
  · intro h
    exact (Prod.mk.inj (hx.symm.trans h)).1
  · rintro rfl
    exact hx

/-- The release is on the branch of the manifest, and its tracking ref is where the branch is. -/
structure SameBranch (m : Manifest) (plan : Release.Plan) (r : Repo) : Prop where
  branch : .ofString plan.expectedBranch = m.expectedBranch
  tracking : r.resolve (trackingRef plan) = some r.head

/-- **What is installed is delivered if and only if the plan of the release names the branch of the
manifest, and its tracking ref is at the base.** -/
theorem delivered_iff {payload : PyDict} (hm : validateManifest payload = .ok m)
    {delivery : DeliveryPlan} (haligned : validateAlignment delivery m plan = .ok ())
    (hinstalled : ReportsInstalled env m token s ending) {git : Objects}
    (hcounts : git.counts = env.counts) {r : Repo} (hr : s.repo = some r) {w : Release.World}
    (hsees : Sees plan w r) (hprepared : Release.Prepared plan w) :
    Delivers git plan w ↔ SameBranch m plan r := by
  have hvalid := valid_of_validateManifest hm
  obtain ⟨hbase, hscope⟩ := aligned_of_validateAlignment haligned
  obtain ⟨r', hr', hat, hzero, hpublic⟩ := hinstalled.inspected hvalid
  obtain rfl : r = r' := Option.some.inj (hr.symm.trans hr')
  have hhead : w.head = plan.expectedBaseCommit :=
    hsees.head.trans (PyStr.ofString_injective (hat.head.trans hbase))
  have hfiles : w.HasScope plan := by
    rw [Release.World.HasScope, hsees.modified, hsees.untracked]
    exact sortedSet_linesOf (hpublic.trans hscope)
  rw [delivers_iff_returns hprepared]
  constructor
  · rintro ⟨hbranch, -, ⟨t, ht, hsynced⟩, -, -⟩
    rw [if_pos hhead] at hsynced
    refine ⟨?_, ?_⟩
    · rw [← hbranch, hsees.branch]
      exact hat.branch
    · rw [← hsees.tracking, ht, hsynced.1, ← hhead, hsees.head]
  · rintro ⟨hbranch, htracking⟩
    refine ⟨?_, hhead, ⟨r.head, hsees.tracking.trans htracking, ?_⟩, rfl, hfiles⟩
    · exact hsees.branch.trans (PyStr.ofString_injective (hat.branch.trans hbranch.symm))
    · rw [if_pos hhead, ← hsees.head]
      refine ⟨hhead, ?_⟩
      rw [hcounts, hsees.head]
      exact hzero

end Delivery

/-! ### A release from another branch -/

/-- The plan of a release of the sample package. -/
def packagePlan (branch : String) : Release.Plan :=
  { Release.samplePlan with expectedBranch := branch, publicPaths := ["INDEX.md", "new.py"] }

def packageDelivery : DeliveryPlan where
  expectedBaseCommit := sampleManifest.expectedBaseCommit
  targetVersion := .ofString "v1.1.0"

/-- The package is installed. -/
def installedRepo : Repo := { switchedRepo with branch := "main" }

def installedState : State := { sampleState with repo := some installedRepo }

def packageObjects : Objects := { Release.sampleObjects with counts := sampleEnv.counts }

def packageWorld : Release.World :=
  { Release.sampleWorld Release.annotatedTag with
    head := installedRepo.head
    modified := ["INDEX.md"]
    untracked := ["new.py"]
    tracking := some installedRepo.head }

theorem validateAlignment_package (branch : String) :
    validateAlignment packageDelivery sampleManifest (packagePlan branch) = .ok () := by
  show validateAlignment packageDelivery sampleManifest (packagePlan "main") = .ok ()
  decide +kernel

theorem prepared_packageWorld (branch : String) : Release.Prepared (packagePlan branch) packageWorld where
  notes := rfl
  below := by
    show "sandbox/".toList.isPrefixOf Release.samplePlan.releaseNotesPath.toList = true
    decide
  previous := rfl
  paths := List.cons_ne_nil _ _

theorem sees_packageWorld (branch : String) : Sees (packagePlan branch) packageWorld installedRepo where
  branch := rfl
  head := rfl
  tracking := rfl
  modified := by decide +kernel
  untracked := by decide +kernel

theorem reportsInstalled_sample :
    ReportsInstalled sampleEnv sampleManifest [] installedState (.timedOut installedState) := by
  have hscope : installedRepo.collectPublicScope = sampleManifest.expectedPublicPaths := by
    decide +kernel
  have hinstalled : sampleManifest.stateOf sampleManifest.expectedPublicPaths = .installed := by
    decide +kernel
  let start : Start := ⟨"main", installedRepo.head, sampleManifest.expectedPublicPaths, .installed,
    [(.ofString "new.py", sampleDigest)]⟩
  have hstart : Inspected sampleEnv sampleManifest installedState start := {
    atBase := ⟨installedRepo, rfl, ⟨rfl, by decide +kernel, rfl⟩, rfl, rfl, hscope.symm, rfl, rfl⟩
    notPrivate := by decide +kernel
    state := hinstalled.symm
    known := nofun
    hashes := hasDigests_sample installedState rfl }
  have hagain : InspectedAgain sampleEnv sampleManifest start installedState installedRepo := {
    repo := rfl
    installed := hscope ▸ hinstalled
    hashes := ⟨_, hasDigests_sample installedState rfl, by decide +kernel⟩
    staged := rfl }
  refine ⟨installedReport start installedRepo false, installedState, ?_, rfl⟩
  unfold inspectOrInstall
  rw [inspect_eq_ok_iff.mpr hstart]
  show (do let report ← inspectAgain sampleEnv sampleManifest false start installedState false; _) = _
  rw [hagain.report false false]
  rfl

/-- From the branch of the manifest, the sample package is delivered. -/
theorem delivered_iff_main : Delivers packageObjects (packagePlan "main") packageWorld ↔
    SameBranch sampleManifest (packagePlan "main") installedRepo :=
  delivered_iff validateManifest_sample (validateAlignment_package "main") reportsInstalled_sample rfl
    rfl (sees_packageWorld "main") (prepared_packageWorld "main")

/-- A package that is installed on the branch `main` cannot be delivered by a plan for another one. -/
theorem otherBranch_refused : validateManifest samplePayload = .ok sampleManifest ∧
    validateAlignment packageDelivery sampleManifest (packagePlan "release") = .ok () ∧
    ReportsInstalled sampleEnv sampleManifest [] installedState (.timedOut installedState) ∧
    Sees (packagePlan "release") packageWorld installedRepo ∧
    Release.Prepared (packagePlan "release") packageWorld ∧
    ¬ Delivers packageObjects (packagePlan "release") packageWorld := by
  have hprepared := prepared_packageWorld "release"
  refine ⟨validateManifest_sample, validateAlignment_package "release", reportsInstalled_sample,
    sees_packageWorld "release", hprepared, fun h => ?_⟩
  have hbranch := ((delivers_iff_returns hprepared).mp h).1
  have hne : "main" ≠ "release" := by decide
  exact hne hbranch

end Konoha.Installation
