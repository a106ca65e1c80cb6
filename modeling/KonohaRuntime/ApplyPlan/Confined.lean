/-
ApplyPlan/Confined.lean

What an apply plan writes and reads, where symbolic links are on the way: the allowlist is asked for the
names in the plan, and the links are followed after that.

`confined_iff`: links that lead out of the allowed places, a linked `proposed_outputs` and a linked
report are all that goes wrong.
-/
import KonohaRuntime.ApplyPlan.Runs

namespace Konoha.ApplyPlan

open FileTree

variable (env : Env)

/-! ### What is claimed, and when it holds -/

/-- A place in the repository that the allowlist admits. -/
def Allowed (repoRoot p : FilePath) : Prop :=
  ∃ names, p = repoRoot ++ names ∧ validateDestinationPath names = .ok ()

/-- What is claimed of the files that a run has written, and of those that it has copied. -/
structure Confined (args : Args) (paths : Paths) (tree : FileTree) (run : Run) : Prop where
  accounted : ∀ q, run.tree.fileAt q ≠ tree.fileAt q →
    (args.confirmApply = true ∧ ∃ placed ∈ run.done, q = placed.destination) ∨
      (args.writeReport = true ∧ run.raised = none ∧ resolve env tree paths.runDir reportName = .ok q)
  allowed : args.confirmApply = true → ∀ placed ∈ run.done, Allowed paths.repoRoot placed.destination
  sources : args.confirmApply = true → ∀ placed ∈ run.done,
    paths.runDir ++ outputsName <+: placed.source
  report : args.writeReport = true → run.raised = none →
    resolve env tree paths.runDir reportName = .ok (paths.runDir ++ reportName)

/-- What is claimed of the tool. -/
def Confines (args : Args) (tree : FileTree) : Prop :=
  match prepare env args tree with
  | .error _ => SameFiles tree (applySandboxPlan env args tree).tree
  | .ok (paths, _) => Confined env args paths tree (applySandboxPlan env args tree)

/-- The changes that are carried out: each one is ready and can be made when its turn comes, and so were
those before it. -/
inductive Carried (args : Args) (paths : Paths) : FileTree → List PyJson → PyJson → Prop
  | first {tree : FileTree} {change : PyJson} {changes : List PyJson} {item : Placed × Bytes} :
      Ready env args paths tree change item → Able env tree item.1.destination →
        Carried args paths tree (change :: changes) change
  | later {tree : FileTree} {change change' : PyJson} {changes : List PyJson} {item : Placed × Bytes} :
      Ready env args paths tree change item → Able env tree item.1.destination →
        Carried args paths (tree.with item.1.destination item.2) changes change' →
          Carried args paths tree (change :: changes) change'

/-- All changes are carried out one after the other, and the files are then these. -/
inductive AllCarried (args : Args) (paths : Paths) : FileTree → List PyJson → FileTree → Prop
  | nil {tree : FileTree} : AllCarried args paths tree [] tree
  | cons {tree after : FileTree} {change : PyJson} {changes : List PyJson} {item : Placed × Bytes} :
      Ready env args paths tree change item → Able env tree item.1.destination →
        AllCarried args paths (tree.with item.1.destination item.2) changes after →
          AllCarried args paths tree (change :: changes) after

/-- The run comes to its report: the changes are carried out, or all of them can be previewed, and the
report can be written then. -/
def Reports (args : Args) (paths : Paths) (changes : List PyJson) (tree : FileTree) : Prop :=
  (args.confirmApply = true →
      ∃ after, AllCarried env args paths tree changes after ∧ Reported env args paths after) ∧
    (args.confirmApply = false →
      (∀ change ∈ changes, ∃ item, Ready env args paths tree change item) ∧
        Reported env args paths tree)

/-- Where an intended path leads: to itself, as there is no link on the way, or through links to a place
that is allowed as well. -/
def LeadsWell (paths : Paths) (tree : FileTree) (intended : FilePath) : Prop :=
  Real tree.links (paths.repoRoot ++ intended) ∨
    ∃ p, resolve env tree paths.repoRoot intended = .ok p ∧ Allowed paths.repoRoot p

/-- No link leads a change that is carried out to another place, `proposed_outputs` is no link, and the
report is none. -/
structure Unlinked (args : Args) (paths : Paths) (changes : List PyJson) (tree : FileTree) : Prop where
  destinations : args.confirmApply = true → ∀ change, Carried env args paths tree changes change →
    ∀ named, validateChange change = .ok named → LeadsWell env paths tree named.intended
  outputs : args.confirmApply = true → (∃ change, Carried env args paths tree changes change) →
    tree.links (paths.runDir ++ outputsName) = none
  report : args.writeReport = true → Reports env args paths changes tree →
    tree.links (paths.runDir ++ reportName) = none

/-! ### What is carried out -/

section Carrying

variable {env} {args : Args} {paths : Paths} {tree : FileTree} {changes : List PyJson}

/-- A run changes no link. -/
theorem links_runChanges (hconfirm : args.confirmApply = true) (hroot : Real tree.links paths.repoRoot) :
    (runChanges env args paths changes tree).tree.links = tree.links := by
  induction changes generalizing tree with
  | nil => rfl
  | cons change changes ih =>
      rw [runChanges_cons]
      by_cases hfirst : ∃ item, Ready env args paths tree change item ∧ Able env tree item.1.destination
      · obtain ⟨item, hready, hable⟩ := hfirst
        have hlinks := links_with item.2 (real_place hroot hready.place _ List.prefix_rfl)
        rw [buildChangeResult_of_able hconfirm hroot hready hable]
        exact (ih (hlinks ▸ hroot)).trans hlinks
      · obtain ⟨e, after, hbuild, hsame⟩ := buildChangeResult_of_not env hconfirm hroot
          fun item hready hable => hfirst ⟨item, hready, hable⟩
        rw [hbuild]
        exact hsame.links

/-- A file that has changed is the destination of a change that is done. -/
theorem mem_done_of_changed (hconfirm : args.confirmApply = true)
    (hroot : Real tree.links paths.repoRoot) {q : FilePath}
    (hq : (runChanges env args paths changes tree).tree.fileAt q ≠ tree.fileAt q) :
    ∃ placed ∈ (runChanges env args paths changes tree).done, q = placed.destination := by
  induction changes generalizing tree with
  | nil => exact absurd rfl hq
  | cons change changes ih =>
      rw [runChanges_cons] at hq ⊢
      by_cases hfirst : ∃ item, Ready env args paths tree change item ∧ Able env tree item.1.destination
      · obtain ⟨item, hready, hable⟩ := hfirst
        have hlinks := links_with item.2 (real_place hroot hready.place _ List.prefix_rfl)
        rw [buildChangeResult_of_able hconfirm hroot hready hable] at hq ⊢
        dsimp only at hq ⊢
        by_cases hself : q = item.1.destination
        · exact ⟨item.1, .head _, hself⟩
        · obtain ⟨placed, hmem, he⟩ := ih (hlinks ▸ hroot) (by rwa [fileAt_with, if_neg hself])
          exact ⟨placed, .tail _ hmem, he⟩
      · obtain ⟨e, after, hbuild, hsame⟩ := buildChangeResult_of_not env hconfirm hroot
          fun item hready hable => hfirst ⟨item, hready, hable⟩
        rw [hbuild] at hq
        exact absurd (hsame.files q) hq

/-- A run in which nothing is refused has carried out all changes. -/
theorem allCarried_iff (hconfirm : args.confirmApply = true) (hroot : Real tree.links paths.repoRoot)
    {after : FileTree} : AllCarried env args paths tree changes after ↔
      (runChanges env args paths changes tree).raised = none ∧
        (runChanges env args paths changes tree).tree = after := by
  induction changes generalizing tree with
  | nil =>
      constructor
      · rintro ⟨⟩
        exact ⟨rfl, rfl⟩
      · rintro ⟨-, rfl⟩
        exact .nil
  | cons change changes ih =>
      rw [runChanges_cons]
      by_cases hfirst : ∃ item, Ready env args paths tree change item ∧ Able env tree item.1.destination
      · obtain ⟨item, hready, hable⟩ := hfirst
        have hlinks := links_with item.2 (real_place hroot hready.place _ List.prefix_rfl)
        rw [buildChangeResult_of_able hconfirm hroot hready hable]
        refine Iff.trans ⟨fun h => ?_, .cons hready hable⟩ (ih (hlinks ▸ hroot))
        cases h with
        | cons hready' _ hrest =>
            have hitem := checkChange_eq_ok_iff.mpr hready'
            rw [checkChange_eq_ok_iff.mpr hready] at hitem
            obtain rfl := Except.ok.inj hitem
            exact hrest
      · obtain ⟨e, failed, hbuild, -⟩ := buildChangeResult_of_not env hconfirm hroot
          fun item hready hable => hfirst ⟨item, hready, hable⟩
        rw [hbuild]
        constructor
        · intro h
          cases h with
          | cons hready hable _ => exact absurd ⟨_, hready, hable⟩ hfirst
        · rintro ⟨h, -⟩
          cases h

/-- The run raises nothing if and only if it comes to its report. -/
theorem reports_iff (hroot : Real tree.links paths.repoRoot) : Reports env args paths changes tree ↔
    (finish env args paths (runChanges env args paths changes tree)).raised = none := by
  rw [finish_raised, Reports]
  by_cases hconfirm : args.confirmApply = true
  · rw [imp_iff_right hconfirm, and_iff_left fun h => absurd (hconfirm.symm.trans h) Bool.true_eq_false_eq_False]
    constructor
    · rintro ⟨after, hall, hreported⟩
      obtain ⟨hraised, rfl⟩ := (allCarried_iff hconfirm hroot).mp hall
      exact ⟨hraised, hreported⟩
    · exact fun ⟨hraised, hreported⟩ =>
        ⟨_, (allCarried_iff hconfirm hroot).mpr ⟨hraised, rfl⟩, hreported⟩
  · have hpreview := Bool.eq_false_iff.mpr hconfirm
    obtain ⟨htree, hraised⟩ := preview_iff env paths tree hpreview changes
    rw [imp_iff_right hpreview, and_iff_right fun h => absurd h hconfirm, htree, hraised]

/-- A preview changes no file and no link before its report. -/
theorem tree_runChanges (env : Env) (args : Args) (changes : List PyJson) (hroot : Real tree.links paths.repoRoot) :
    (runChanges env args paths changes tree).tree.links = tree.links ∧
      (args.confirmApply = false → (runChanges env args paths changes tree).tree = tree) := by
  by_cases hconfirm : args.confirmApply = true
  · exact ⟨links_runChanges hconfirm hroot, fun h => nomatch hconfirm.symm.trans h⟩
  · have htree := (preview_iff env paths tree
      (Bool.eq_false_iff.mpr hconfirm) changes).1
    exact ⟨congrArg Tree.links htree, fun _ => htree⟩

/-- Every file that has changed is accounted for. -/
theorem accounted_finish (hroot : Real tree.links paths.repoRoot) {q : FilePath}
    (hq : (finish env args paths (runChanges env args paths changes tree)).tree.fileAt q ≠
      tree.fileAt q) :
    (args.confirmApply = true ∧
        ∃ placed ∈ (finish env args paths (runChanges env args paths changes tree)).done,
          q = placed.destination) ∨
      (args.writeReport = true ∧
        (finish env args paths (runChanges env args paths changes tree)).raised = none ∧
        resolve env tree paths.runDir reportName = .ok q) := by
  obtain ⟨hlinks, hpreview⟩ := tree_runChanges env args changes hroot
  by_cases hfile : (runChanges env args paths changes tree).tree.fileAt q = tree.fileAt q
  · rcases fileAt_finish env args paths
      (runChanges env args paths changes tree) q with hsame | ⟨hwrite, hplace, -⟩
    · exact absurd (hsame.trans hfile) hq
    · refine .inr ⟨hwrite, ?_, ?_⟩
      · by_contra hraised
        rw [tree_finish_of_raised hraised] at hq
        exact hq hfile
      · rwa [resolve, hlinks] at hplace
  · have hconfirm : args.confirmApply = true := by
      by_contra hnot
      rw [hpreview (Bool.eq_false_iff.mpr hnot)] at hfile
      exact hfile rfl
    rw [finish_done]
    exact .inl ⟨hconfirm, mem_done_of_changed hconfirm hroot hfile⟩

/-- What is done are the places of the changes that are carried out. -/
theorem mem_done_iff (hconfirm : args.confirmApply = true) (hroot : Real tree.links paths.repoRoot)
    {placed : Placed} : placed ∈ (runChanges env args paths changes tree).done ↔
      ∃ change, Carried env args paths tree changes change ∧
        place env paths tree change = .ok placed := by
  induction changes generalizing tree with
  | nil => exact iff_of_false List.not_mem_nil nofun
  | cons change changes ih =>
      rw [runChanges_cons]
      by_cases hfirst : ∃ item, Ready env args paths tree change item ∧ Able env tree item.1.destination
      · obtain ⟨item, hready, hable⟩ := hfirst
        have hlinks := links_with item.2 (real_place hroot hready.place _ List.prefix_rfl)
        rw [buildChangeResult_of_able hconfirm hroot hready hable]
        dsimp only
        rw [List.mem_cons, ih (hlinks ▸ hroot)]
        constructor
        · rintro (rfl | ⟨change', hcarried, hplace⟩)
          · exact ⟨change, .first hready hable, hready.place⟩
          · exact ⟨change', .later hready hable hcarried, by rwa [place_congr hlinks] at hplace⟩
        · rintro ⟨change', hcarried, hplace⟩
          rcases hcarried with ⟨-, -⟩ | ⟨hready', -, hcarried⟩
          · exact .inl (Except.ok.inj (hplace.symm.trans hready.place))
          · have hitem := checkChange_eq_ok_iff.mpr hready'
            rw [checkChange_eq_ok_iff.mpr hready] at hitem
            obtain rfl := Except.ok.inj hitem
            exact .inr ⟨change', hcarried, by rwa [place_congr hlinks]⟩
      · obtain ⟨e, after, hbuild, -⟩ := buildChangeResult_of_not env hconfirm hroot
          fun item hready hable => hfirst ⟨item, hready, hable⟩
        rw [hbuild]
        refine iff_of_false List.not_mem_nil ?_
        rintro ⟨change', ⟨hready, hable⟩ | ⟨hready, hable, -⟩, -⟩
        · exact hfirst ⟨_, hready, hable⟩
        · exact hfirst ⟨_, hready, hable⟩

/-- A change that is carried out has a place. -/
theorem Carried.placed (hroot : Real tree.links paths.repoRoot) {change : PyJson}
    (h : Carried env args paths tree changes change) : ∃ placed, place env paths tree change = .ok placed := by
  induction h with
  | first hready _ => exact ⟨_, hready.place⟩
  | @later _ _ _ _ item hready _ _ ih =>
      have hlinks := links_with item.2 (real_place hroot hready.place _ List.prefix_rfl)
      obtain ⟨placed, hplace⟩ := ih (hlinks ▸ hroot)
      exact ⟨placed, by rwa [place_congr hlinks] at hplace⟩

/-- The place of a change -/
structure Leads (env : Env) (paths : Paths) (tree : FileTree) (change : PyJson) (placed : Placed)
    (named : Named) : Prop where
  valid : validateChange change = .ok named
  source : resolve env tree paths.proposedOutputs named.artifact = .ok placed.source
  destination : resolve env tree paths.repoRoot named.intended = .ok placed.destination
  inOutputs : paths.proposedOutputs <+: placed.source
  inRepository : paths.repoRoot <+: placed.destination

theorem leads_of_place {change : PyJson} {placed : Placed}
    (h : place env paths tree change = .ok placed) : ∃ named, Leads env paths tree change placed named := by
  unfold place at h
  obtain ⟨named, hnamed, h⟩ := bind_eq_ok.mp h
  obtain ⟨source, hsource, h⟩ := bind_eq_ok.mp h
  obtain ⟨destination, hdestination, h⟩ := bind_eq_ok.mp h
  obtain ⟨_, hunder, h⟩ := bind_eq_ok.mp h
  obtain ⟨_, hunder', h⟩ := bind_eq_ok.mp h
  obtain ⟨_, _, h⟩ := bind_eq_ok.mp h
  obtain rfl := Except.ok.inj h
  exact ⟨named, hnamed, hsource, hdestination, List.isPrefixOf_iff_prefix.mp (check_eq_ok_iff.mp hunder),
    List.isPrefixOf_iff_prefix.mp (check_eq_ok_iff.mp hunder')⟩

/-- The names that a change gives have passed the allowlist. -/
theorem validateDestinationPath_of_validateChange {change : PyJson} {named : Named}
    (h : validateChange change = .ok named) : validateDestinationPath named.intended = .ok () := by
  unfold validateChange at h
  obtain ⟨_, _, h⟩ := bind_eq_ok.mp h
  obtain ⟨_, _, h⟩ := bind_eq_ok.mp h
  obtain ⟨_, _, h⟩ := bind_eq_ok.mp h
  obtain ⟨_, _, h⟩ := bind_eq_ok.mp h
  obtain ⟨_, _, h⟩ := bind_eq_ok.mp h
  obtain ⟨artifact, _, h⟩ := bind_eq_ok.mp h
  obtain ⟨_, _, h⟩ := bind_eq_ok.mp h
  obtain ⟨intended, _, h⟩ := bind_eq_ok.mp h
  obtain ⟨_, hvalid, h⟩ := bind_eq_ok.mp h
  obtain rfl := Except.ok.inj h
  exact hvalid

/-- A destination is allowed if and only if its names lead well. -/
theorem allowed_iff {change : PyJson} {placed : Placed} {named : Named}
    (h : Leads env paths tree change placed named) :
    Allowed paths.repoRoot placed.destination ↔ LeadsWell env paths tree named.intended := by
  constructor
  · exact fun hallowed => .inr ⟨placed.destination, h.destination, hallowed⟩
  · rintro (hreal | ⟨p, hp, hallowed⟩)
    · have hplace := (resolve_of_real env hreal).symm.trans h.destination
      exact ⟨named.intended, (Except.ok.inj hplace).symm,
        validateDestinationPath_of_validateChange h.valid⟩
    · rwa [Except.ok.inj (h.destination.symm.trans hp)]

/-- A file of a run is where its name says if and only if it is no link. -/
theorem resolve_name_iff {here : FilePath} {name : PyStr} (hhere : Real tree.links here) :
    resolve env tree here [name] = .ok (here ++ [name]) ↔ tree.links (here ++ [name]) = none := by
  constructor
  · intro h
    exact real_of_resolve hhere h _ List.prefix_rfl
  · exact fun h => resolve_of_real env (hhere.concat h)

/-- A source is below `proposed_outputs` if and only if that is no link. -/
theorem inOutputs_iff (hlocated : Located env tree paths) {change : PyJson} {placed : Placed}
    {named : Named} (h : Leads env paths tree change placed named) :
    paths.runDir ++ outputsName <+: placed.source ↔ tree.links (paths.runDir ++ outputsName) = none := by
  have houtputs : Real tree.links paths.proposedOutputs :=
    real_of_resolve hlocated.runDir hlocated.outputs
  constructor
  · intro hbelow
    exact real_of_resolve houtputs h.source _ hbelow
  · intro hlink
    have hplace : resolve env tree paths.runDir outputsName = .ok (paths.runDir ++ outputsName) :=
      (resolve_name_iff hlocated.runDir).mpr hlink
    rw [← Except.ok.inj (hlocated.outputs.symm.trans hplace)]
    exact h.inOutputs

end Carrying

/-- An apply plan is confined to the allowed places of the repository and to the artifacts of its run if
and only if no link leads it elsewhere. -/
theorem confines_iff (disk : Disk) (args : Args) :
    Confines env args disk.tree ↔ ∀ paths changes, prepare env args disk.tree = .ok (paths, changes) →
      Unlinked env args paths changes disk.tree := by
  obtain ⟨tree, hdisk, -⟩ := disk
  unfold Confines
  dsimp only
  rcases hprepare : prepare env args tree with e | ⟨paths, changes⟩
  · refine iff_of_true (fun q => ?_) nofun
    rw [applySandboxPlan, hprepare]
  · have hlocated := (located_of_prepare hdisk hprepare).1
    have hroot := hlocated.repoRoot
    have happly : applySandboxPlan env args tree =
        finish env args paths (runChanges env args paths changes tree) := by
      rw [applySandboxPlan, hprepare]
    have hdone (hconfirm : args.confirmApply = true) {placed : Placed} :
        placed ∈ (applySandboxPlan env args tree).done ↔
          ∃ change, Carried env args paths tree changes change ∧
            place env paths tree change = .ok placed := by
      rw [happly, finish_done]
      exact mem_done_iff hconfirm hroot
    have hreport : resolve env tree paths.runDir reportName = .ok (paths.runDir ++ reportName) ↔
        tree.links (paths.runDir ++ reportName) = none := resolve_name_iff hlocated.runDir
    dsimp only
    constructor
    · rintro h paths' changes' hok
      obtain ⟨rfl, rfl⟩ := Prod.mk.inj (Except.ok.inj hok)
      refine ⟨fun hconfirm change hcarried named hnamed => ?_, fun hconfirm hsome => ?_,
        fun hwrite hreports => hreport.mp (h.report hwrite (happly ▸ (reports_iff hroot).mp hreports))⟩
      · obtain ⟨placed, hplace⟩ := hcarried.placed hroot
        obtain ⟨named', hleads⟩ := leads_of_place hplace
        obtain rfl := Except.ok.inj (hleads.valid.symm.trans hnamed)
        exact (allowed_iff hleads).mp
          (h.allowed hconfirm placed ((hdone hconfirm).mpr ⟨change, hcarried, hplace⟩))
      · obtain ⟨change, hcarried⟩ := hsome
        obtain ⟨placed, hplace⟩ := hcarried.placed hroot
        obtain ⟨named, hleads⟩ := leads_of_place hplace
        exact (inOutputs_iff hlocated hleads).mp
          (h.sources hconfirm placed ((hdone hconfirm).mpr ⟨change, hcarried, hplace⟩))
    · intro h
      have hunlinked := h paths changes rfl
      refine ⟨fun q hq => ?_, fun hconfirm placed hmem => ?_, fun hconfirm placed hmem => ?_,
        fun hwrite hraised =>
          hreport.mpr (hunlinked.report hwrite ((reports_iff hroot).mpr (happly ▸ hraised)))⟩
      · rw [happly] at hq ⊢
        exact accounted_finish hroot hq
      · obtain ⟨change, hcarried, hplace⟩ := (hdone hconfirm).mp hmem
        obtain ⟨named, hleads⟩ := leads_of_place hplace
        exact (allowed_iff hleads).mpr (hunlinked.destinations hconfirm change hcarried named hleads.valid)
      · obtain ⟨change, hcarried, hplace⟩ := (hdone hconfirm).mp hmem
        obtain ⟨named, hleads⟩ := leads_of_place hplace
        exact (inOutputs_iff hlocated hleads).mpr (hunlinked.outputs hconfirm ⟨change, hcarried⟩)

end Konoha.ApplyPlan
