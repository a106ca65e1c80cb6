/-
ApplyPlan/Atomic.lean

An apply plan is carried out as a whole, or not at all, and a preview tells which of the two: when
this is so.

`allOrNothing_iff`: the changes are looked at one after the other, each just before it is carried out,
and not all of them before the first.
-/
import KonohaRuntime.ApplyPlan.Runs

namespace Konoha.ApplyPlan

open FileTree

variable (env : Env)

/-! ### What is claimed, and when it holds -/

/-- What the tool is asked for, for a preview or to apply the plan. -/
structure Request where
  sandboxRoot : FilePath
  repoRoot : FilePath
  runId : PyStr
  writeReport : Bool

def Request.apply (request : Request) (allowOverwrite : Bool) : Args :=
  ⟨request.sandboxRoot, request.repoRoot, request.runId, true, "APPLY_SANDBOX_PLAN", allowOverwrite,
    request.writeReport⟩

def Request.preview (request : Request) : Args :=
  ⟨request.sandboxRoot, request.repoRoot, request.runId, false, "", false, request.writeReport⟩

/-- Every destination holds the bytes of its artifact, and no other file has changed, but the report. -/
structure Copied (request : Request) (paths : Paths) (changes : List PyJson) (tree : FileTree)
    (run : Run) : Prop where
  each : List.Forall₂ (fun change placed => place env paths tree change = .ok placed ∧
    ∃ bytes, tree.fileAt placed.source = some bytes ∧
      run.tree.fileAt placed.destination = some bytes) changes run.done
  others : ∀ q, (∀ placed ∈ run.done, q ≠ placed.destination) →
    ¬ (request.writeReport = true ∧ resolve env tree paths.runDir reportName = .ok q) →
      run.tree.fileAt q = tree.fileAt q

/-- What is claimed of a plan, where it is applied and where it is previewed. -/
structure AllOrNothing (request : Request) (allowOverwrite : Bool) (tree : FileTree) : Prop where
  nothing : (applySandboxPlan env (request.apply allowOverwrite) tree).raised ≠ none →
    SameFiles tree (applySandboxPlan env (request.apply allowOverwrite) tree).tree
  all : (applySandboxPlan env (request.apply allowOverwrite) tree).raised = none →
    ∀ paths changes, prepare env (request.apply allowOverwrite) tree = .ok (paths, changes) →
      Copied env request paths changes tree (applySandboxPlan env (request.apply allowOverwrite) tree)
  preview : allowOverwrite = false →
    ((applySandboxPlan env (request.apply allowOverwrite) tree).raised = none ↔
      (applySandboxPlan env request.preview tree).raised = none)

/-- The first change is not carried out; where there is none, the report is not written. -/
def Stops (args : Args) (paths : Paths) (tree : FileTree) : List PyJson → Prop
  | [] => ¬ Reported env args paths tree
  | change :: _ => ∀ item, Ready env args paths tree change item → ¬ Able env tree item.1.destination

/-- The run stops before it has changed a file: what it writes is there already. -/
def Halts (args : Args) (paths : Paths) (changes : List PyJson) (tree : FileTree) : Prop :=
  ∃ kept rest items, changes = kept ++ rest ∧ List.Forall₂ (Ready env args paths tree) kept items ∧
    (∀ item ∈ items, Able env tree item.1.destination ∧
      tree.fileAt item.1.destination = some item.2) ∧ Stops env args paths tree rest

/-- All changes can be previewed, and the report of it can be written. -/
def Previews (args : Args) (paths : Paths) (changes : List PyJson) (tree : FileTree) : Prop :=
  (∀ change ∈ changes, ∃ item, Ready env args paths tree change item) ∧ Reported env args paths tree

/-- The report can be written, and no destination leads through it; it may be a destination itself
only if it has the same text. -/
def WellReported (args : Args) (paths : Paths) (tree : FileTree) (items : List (Placed × Bytes)) : Prop :=
  args.writeReport = true → ∃ p, Writable env tree paths.runDir reportName p ∧ ∀ item ∈ items,
    p <+: item.1.destination → p = item.1.destination ∧ item.2 = env.reportText

/-- The plan is clean as a whole, or the run stops before it has changed a file (and the preview refuses
the plan). -/
def Uniform (request : Request) (allowOverwrite : Bool) (tree : FileTree) : Prop :=
  ∀ paths changes, prepare env (request.apply allowOverwrite) tree = .ok (paths, changes) →
    (Halts env (request.apply allowOverwrite) paths changes tree ∧
      (allowOverwrite = false → ¬ Previews env (request.apply allowOverwrite) paths changes tree)) ∨
    ∃ items, Clean env (request.apply allowOverwrite) paths tree changes items ∧
      WellReported env (request.apply allowOverwrite) paths tree items

/-! ### Before the first change -/

section Preparation

variable {env} {request : Request} {allowOverwrite : Bool} {tree : FileTree} {paths : Paths}
  {changes : List PyJson}

theorem prepare_preview (request : Request) (allowOverwrite : Bool) (tree : FileTree) :
    prepare env request.preview tree = prepare env (request.apply allowOverwrite) tree := by
  cases allowOverwrite <;> rfl

theorem applySandboxPlan_of_ok {args : Args} (h : prepare env args tree = .ok (paths, changes)) :
    applySandboxPlan env args tree =
      finish env args paths (runChanges env args paths changes tree) := by
  rw [applySandboxPlan, h]

/-- The preview succeeds if and only if every change is ready. -/
theorem preview_raised_iff (h : prepare env (request.apply allowOverwrite) tree = .ok (paths, changes))
    (hkeep : allowOverwrite = false) :
    (applySandboxPlan env request.preview tree).raised = none ↔
      Previews env (request.apply allowOverwrite) paths changes tree := by
  subst hkeep
  obtain ⟨htree, hraised⟩ := preview_iff env paths tree (rfl : request.preview.confirmApply = false)
    changes
  rw [applySandboxPlan_of_ok ((prepare_preview request false tree).trans h), finish_raised, htree,
    hraised]
  have hready (change : PyJson) (item : Placed × Bytes) :
      Ready env request.preview paths tree change item ↔
        Ready env (request.apply false) paths tree change item :=
    ⟨fun h => ⟨h.place, h.source, h.free⟩, fun h => ⟨h.place, h.source, h.free⟩⟩
  simp only [hready]
  rfl

/-! ### A clean plan -/

variable {items : List (Placed × Bytes)} {args : Args}

theorem links_of_clean (hroot : Real tree.links paths.repoRoot)
    (h : Clean env args paths tree changes items) :
    ∀ item ∈ items, Real tree.links item.1.destination := by
  intro item hitem
  obtain ⟨change, -, hready⟩ := h.ready.exists_left hitem
  exact real_place hroot hready.place

/-- After a clean plan the report goes to the same place. -/
theorem reportPlace_withAll (hroot : Real tree.links paths.repoRoot)
    (h : Clean env args paths tree changes items) :
    resolve env (withAll tree items) paths.runDir reportName = resolve env tree paths.runDir reportName := by
  have hlinks : (withAll tree items).links = tree.links :=
    links_withAll fun item hitem => links_of_clean hroot h item hitem _ List.prefix_rfl
  unfold resolve
  rw [hlinks]

/-- No destination is a directory, before and after. -/
theorem isDir_destination (h : Clean env args paths tree changes items) (item : Placed × Bytes)
    (hitem : item ∈ items) : isDir (withAll tree items item.1.destination) = false := by
  have hfile := (fileAt_withAll tree h.agree).1 item hitem
  rw [Tree.fileAt] at hfile
  rcases e : withAll tree items item.1.destination with - | (content | - | target)
  · rw [e] at hfile
    cases hfile
  · rfl
  · rw [e] at hfile
    cases hfile
  · rfl

/-- Whether the report can be written is not changed by a clean plan, if no destination leads through
it. -/
theorem Writable.withAll {p : FilePath} (hroot : Real tree.links paths.repoRoot)
    (h : Clean env args paths tree changes items) (hp : Writable env tree paths.runDir reportName p)
    (hthrough : ∀ item ∈ items, p <+: item.1.destination → p = item.1.destination) :
    Writable env (withAll tree items) paths.runDir reportName p where
  place := (reportPlace_withAll hroot h).trans hp.place
  permits := hp.permits
  ne_nil := hp.ne_nil
  parent := by
    refine (isDir_withAll fun item hitem he => ?_).mpr (.inl hp.parent)
    have hfree := (h.able item hitem).creatable.free
    rw [← he, hp.parent] at hfree
    cases hfree
  free := by
    by_cases hown : ∃ item ∈ items, p = item.1.destination
    · obtain ⟨item, hitem, rfl⟩ := hown
      exact isDir_destination h item hitem
    · have hne : ∀ item ∈ items, p ≠ item.1.destination := fun item hitem he => hown ⟨item, hitem, he⟩
      refine Bool.eq_false_iff.mpr fun hdir => ?_
      rcases (isDir_withAll hne).mp hdir with hdir | ⟨-, item, hitem, hbelow⟩
      · rw [hp.free] at hdir
        cases hdir
      · exact hne item hitem (hthrough item hitem hbelow)

/-- A clean plan is applied as a whole. -/
theorem allOrNothing_of_clean {allowOverwrite : Bool} (hroot : Real tree.links paths.repoRoot)
    (hprepare : prepare env (request.apply allowOverwrite) tree = .ok (paths, changes))
    (h : Clean env (request.apply allowOverwrite) paths tree changes items)
    (hreport : WellReported env (request.apply allowOverwrite) paths tree items) :
    AllOrNothing env request allowOverwrite tree := by
  have hrun := runChanges_of_clean rfl hroot h
  have hreported : Reported env (request.apply allowOverwrite) paths (withAll tree items) := fun hwrite => by
    obtain ⟨p, hp, hthrough⟩ := hreport hwrite
    exact ⟨p, hp.withAll hroot h fun item hitem hbelow => (hthrough item hitem hbelow).1⟩
  have hraised : (applySandboxPlan env (request.apply allowOverwrite) tree).raised = none := by
    rw [applySandboxPlan_of_ok hprepare, hrun, finish_raised]
    exact ⟨rfl, hreported⟩
  obtain ⟨hown, hother⟩ := fileAt_withAll tree h.agree
  refine ⟨fun hne => absurd hraised hne, fun _ paths' changes' hprepare' => ?_, fun hkeep => ?_⟩
  · obtain ⟨rfl, rfl⟩ := Prod.mk.inj (Except.ok.inj (hprepare.symm.trans hprepare'))
    rw [applySandboxPlan_of_ok hprepare, hrun]
    have hfiles := fileAt_finish env (request.apply allowOverwrite) paths
      ⟨items.map (·.1), none, withAll tree items⟩
    rw [reportPlace_withAll hroot h] at hfiles
    refine ⟨?_, fun q hq hnot => ?_⟩
    · rw [finish_done, List.forall₂_map_right_iff]
      refine h.ready.imp_of_mem fun change _ item hitem hready => ?_
      refine ⟨hready.place, item.2, hready.source, ?_⟩
      rcases hfiles item.1.destination with hfile | ⟨hwrite, hplace, hfile⟩
      · rw [hfile]
        exact hown item hitem
      · obtain ⟨p, hp, hthrough⟩ := hreport hwrite
        obtain rfl := Except.ok.inj (hp.place.symm.trans hplace)
        rw [hfile, (hthrough item hitem List.prefix_rfl).2]
    · rw [finish_done] at hq
      rcases hfiles q with hfile | ⟨hwrite, hplace, -⟩
      · rw [hfile]
        exact hother q fun item hitem => hq _ (List.mem_map_of_mem hitem)
      · exact absurd ⟨hwrite, hplace⟩ hnot
  · rw [preview_raised_iff hprepare hkeep]
    refine iff_of_true hraised ⟨fun change hchange => ?_, fun hwrite => ?_⟩
    · obtain ⟨item, -, hready⟩ := h.ready.exists_right hchange
      exact ⟨item, hready⟩
    · obtain ⟨p, hp, -⟩ := hreport hwrite
      exact ⟨p, hp⟩

/-- Changes that write what is there already. -/
theorem runChanges_kept (hconfirm : args.confirmApply = true) (hclosed : Closed tree)
    (hroot : Real tree.links paths.repoRoot) {kept : List PyJson} (rest : List PyJson)
    (hready : List.Forall₂ (Ready env args paths tree) kept items)
    (hsame : ∀ item ∈ items, Able env tree item.1.destination ∧
      tree.fileAt item.1.destination = some item.2) :
    runChanges env args paths (kept ++ rest) tree =
      ⟨items.map (·.1) ++ (runChanges env args paths rest tree).done,
        (runChanges env args paths rest tree).raised, (runChanges env args paths rest tree).tree⟩ := by
  induction hready with
  | nil => rfl
  | cons hready _ ih =>
      obtain ⟨⟨hable, hfile⟩, hrest⟩ := List.forall_mem_cons.mp hsame
      rw [List.cons_append, runChanges_cons, buildChangeResult_of_able hconfirm hroot hready hable,
        hclosed.with_eq_self hfile]
      dsimp only
      rw [ih hrest]
      rfl

/-- A run that halts changes nothing. -/
theorem applySandboxPlan_of_halts {allowOverwrite : Bool} (hclosed : Closed tree)
    (hroot : Real tree.links paths.repoRoot)
    (hprepare : prepare env (request.apply allowOverwrite) tree = .ok (paths, changes))
    (h : Halts env (request.apply allowOverwrite) paths changes tree) :
    (applySandboxPlan env (request.apply allowOverwrite) tree).raised ≠ none ∧
      SameFiles tree (applySandboxPlan env (request.apply allowOverwrite) tree).tree := by
  obtain ⟨kept, rest, items, rfl, hready, hsame, hstops⟩ := h
  rw [applySandboxPlan_of_ok hprepare, runChanges_kept rfl hclosed hroot rest hready hsame]
  cases rest with
  | nil =>
      have hraised := fun h => hstops ((finish_raised env (request.apply allowOverwrite) paths
        ⟨items.map (·.1) ++ [], none, tree⟩).mp h).2
      refine ⟨hraised, fun q => ?_⟩
      exact congrArg (Tree.fileAt · q) (tree_finish_of_raised hraised)
  | cons first rest =>
      obtain ⟨e, after, hbuild, hafter⟩ := buildChangeResult_of_not env rfl hroot hstops
      rw [runChanges_cons, hbuild]
      exact ⟨nofun, hafter.files⟩

/-! ### A plan that has gone through -/

/-- The changes that are ready, with the places that the run has found. -/
theorem exists_items {args : Args} {done : List Placed}
    (hdone : List.Forall₂ (fun change placed => place env paths tree change = .ok placed) changes done)
    (hready : ∀ change ∈ changes, ∃ item, Ready env args paths tree change item) :
    ∃ items, List.Forall₂ (Ready env args paths tree) changes items ∧ items.map (·.1) = done := by
  induction hdone with
  | nil => exact ⟨[], .nil, rfl⟩
  | cons hplace _ ih =>
      obtain ⟨⟨item, hitem⟩, hrest⟩ := List.forall_mem_cons.mp hready
      obtain ⟨items, hitems, rfl⟩ := ih hrest
      obtain rfl := Except.ok.inj (hitem.place.symm.trans hplace)
      exact ⟨item :: items, .cons hitem hitems, rfl⟩

/-- Where nothing is overwritten, a run that goes through, and that can be previewed, is that of a clean
plan. -/
theorem clean_of_runChanges (hroot : Real tree.links paths.repoRoot)
    (hready : ∀ change ∈ changes, ∃ item, Ready env (request.apply false) paths tree change item)
    (h : (runChanges env (request.apply false) paths changes tree).raised = none) :
    ∃ items, Clean env (request.apply false) paths tree changes items := by
  obtain ⟨hdone, hapart⟩ := free_of_runChanges rfl rfl hroot h
  obtain ⟨items, hitems, hmap⟩ := exists_items (hdone.imp fun _ _ h => h.1) hready
  rw [← hmap] at hdone hapart
  have hfound : ∀ item ∈ items, tree item.1.destination = none ∧ Able env tree item.1.destination := by
    intro item hitem
    obtain ⟨_, -, -, hfound⟩ := hdone.exists_left (List.mem_map_of_mem hitem)
    exact hfound
  have hitemsApart := List.pairwise_map.mp hapart
  refine ⟨items, hitems, fun item hitem => (hfound item hitem).2, ?_, fun _ => ?_, ?_⟩
  · intro item hitem item' hitem' hbelow
    by_cases he : item = item'
    · exact he ▸ ⟨rfl, rfl⟩
    · exact absurd hbelow (apart_of_pairwise hitemsApart hitem hitem' he).1
  · exact List.pairwise_map.mpr (hitemsApart.imp fun hapart => hapart.ne.symm)
  · refine List.Pairwise.imp_of_mem (fun {item item'} hitem hitem' _ he => ?_) hitemsApart
    obtain ⟨_, -, hsource⟩ := hitems.exists_left hitem'
    have hfile := hsource.source
    rw [he, Tree.fileAt, (hfound item hitem).1] at hfile
    cases hfile

/-- The first change of a plan is carried out, and no later one takes it back. -/
theorem changed_of_not_halts (hdisk : tree [] = some .dir)
    (hprepare : prepare env (request.apply false) tree = .ok (paths, changes))
    (h : ¬ Halts env (request.apply false) paths changes tree) :
    ¬ SameFiles tree (applySandboxPlan env (request.apply false) tree).tree := by
  obtain ⟨hlocated, first, rest, rfl⟩ := located_of_prepare hdisk hprepare
  have hroot := hlocated.repoRoot
  have hfirst : ∃ item, Ready env (request.apply false) paths tree first item ∧
      Able env tree item.1.destination := by
    by_contra hnone
    exact h ⟨[], first :: rest, [], rfl, .nil, List.forall_mem_nil _,
      fun item hready hable => hnone ⟨item, hready, hable⟩⟩
  obtain ⟨item, hready, hable⟩ := hfirst
  have hnone : tree item.1.destination = none := hready.free.resolve_right nofun
  have hkept : ((runChanges env (request.apply false) paths (first :: rest) tree).tree.fileAt
      item.1.destination).isSome = true := by
    have hlink := real_place hroot hready.place _ List.prefix_rfl
    rw [runChanges_cons, buildChangeResult_of_able rfl hroot hready hable]
    refine keeps_runChanges rfl (links_with _ hlink ▸ hroot) ?_
    rw [fileAt_with, if_pos rfl]
    rfl
  intro hsame
  have hfile := hsame item.1.destination
  rw [applySandboxPlan_of_ok hprepare, Tree.fileAt.eq_1 tree, hnone] at hfile
  rcases fileAt_finish env (request.apply false) paths
    (runChanges env (request.apply false) paths (first :: rest) tree) item.1.destination with
    hfinish | ⟨-, -, hfinish⟩
  · rw [← hfinish, hfile] at hkept
    cases hkept
  · rw [hfinish] at hfile
    cases hfile

/-- The report of a plan that has gone through is in nobody's way. -/
theorem wellReported_of_copied (hroot : Real tree.links paths.repoRoot)
    (h : Clean env (request.apply false) paths tree changes items)
    (hreported : Reported env (request.apply false) paths tree)
    (hprepare : prepare env (request.apply false) tree = .ok (paths, changes))
    (hraised : (applySandboxPlan env (request.apply false) tree).raised = none)
    (hcopied : Copied env request paths changes tree (applySandboxPlan env (request.apply false) tree)) :
    WellReported env (request.apply false) paths tree items := by
  intro hwrite
  obtain ⟨p, hp⟩ := hreported hwrite
  have hrun := runChanges_of_clean rfl hroot h
  rw [applySandboxPlan_of_ok hprepare, hrun] at hraised hcopied
  obtain ⟨p', hp'⟩ := ((finish_raised _ _ _ _).mp hraised).2 hwrite
  obtain rfl := Except.ok.inj (hp.place.symm.trans ((reportPlace_withAll hroot h).symm.trans hp'.place))
  refine ⟨p, hp, fun item hitem hbelow => ?_⟩
  -- the report's place is a destination, or the run has made no directory of it
  have hown : ∃ item' ∈ items, p = item'.1.destination := by
    by_contra hnot
    have hne : ∀ item ∈ items, p ≠ item.1.destination := fun item hitem he => hnot ⟨item, hitem, he⟩
    have hnone : tree p = none := by
      by_contra hsome
      have hdir := isDir_of_real ((h.able item hitem).creatable.above p hbelow (hne item hitem))
        (links_of_clean hroot h item hitem p hbelow)
        (Bool.eq_false_iff.mpr fun hnone => hsome (Option.isNone_iff_eq_none.mp hnone))
      rw [hp.free] at hdir
      cases hdir
    have hdir := (isDir_withAll hne).mpr (.inr ⟨hnone, item, hitem, hbelow⟩)
    rw [hp'.free] at hdir
    cases hdir
  obtain ⟨item', hitem', rfl⟩ := hown
  obtain ⟨hsame, -⟩ := h.through item' hitem' item hitem hbelow
  refine ⟨hsame, ?_⟩
  have hreport := fileAt_report ⟨items.map (·.1), none, withAll tree items⟩ hwrite hp' rfl
  have heach := hcopied.each
  rw [finish_done, List.forall₂_map_right_iff] at heach
  obtain ⟨change, -, -, bytes, hsource, hfile⟩ := heach.exists_left hitem
  obtain ⟨_, -, hready⟩ := h.ready.exists_left hitem
  rw [hready.source] at hsource
  rw [← hsame] at hfile
  exact (Option.some.inj hsource).trans (Option.some.inj (hfile.symm.trans hreport))

end Preparation

/-- An apply plan is carried out as a whole or not at all, and its preview tells which, where the plan
is clean, or its first change is refused together with the preview; where nothing may be overwritten,
nowhere else. -/
theorem allOrNothing_iff (disk : Disk) (request : Request) :
    (∀ allowOverwrite, Uniform env request allowOverwrite disk.tree →
      AllOrNothing env request allowOverwrite disk.tree) ∧
    (AllOrNothing env request false disk.tree ↔ Uniform env request false disk.tree) := by
  have hforward : ∀ allowOverwrite, Uniform env request allowOverwrite disk.tree →
      AllOrNothing env request allowOverwrite disk.tree := by
    intro allowOverwrite h
    rcases hprepare : prepare env (request.apply allowOverwrite) disk.tree with e | ⟨paths, changes⟩
    · have hrun : applySandboxPlan env (request.apply allowOverwrite) disk.tree =
          ⟨[], some e, disk.tree⟩ := by rw [applySandboxPlan, hprepare]
      have hpreview : applySandboxPlan env request.preview disk.tree = ⟨[], some e, disk.tree⟩ := by
        rw [applySandboxPlan, (prepare_preview request allowOverwrite disk.tree).trans hprepare]
      refine ⟨fun _ => ?_, fun hraised => ?_, fun _ => ?_⟩
      · rw [hrun]
        exact fun _ => rfl
      · rw [hrun] at hraised
        cases hraised
      · rw [hrun, hpreview]
    · have hroot := (located_of_prepare disk.root hprepare).1.repoRoot
      rcases h paths changes hprepare with ⟨hhalts, hpreview⟩ | ⟨items, hclean, hreport⟩
      · obtain ⟨hraised, hsame⟩ := applySandboxPlan_of_halts disk.closed hroot hprepare hhalts
        refine ⟨fun _ => hsame, fun hnone => absurd hnone hraised, fun hkeep => ?_⟩
        rw [preview_raised_iff hprepare hkeep]
        exact iff_of_false hraised (hpreview hkeep)
      · exact allOrNothing_of_clean hroot hprepare hclean hreport
  refine ⟨hforward, fun h paths changes hprepare => ?_, hforward false⟩
  have hroot := (located_of_prepare disk.root hprepare).1.repoRoot
  by_cases hhalts : Halts env (request.apply false) paths changes disk.tree
  · refine .inl ⟨hhalts, fun _ hpreview => ?_⟩
    have hraised := (h.preview rfl).mpr ((preview_raised_iff hprepare rfl).mpr hpreview)
    exact (applySandboxPlan_of_halts disk.closed hroot hprepare hhalts).1 hraised
  · have hraised : (applySandboxPlan env (request.apply false) disk.tree).raised = none := by
      by_contra hne
      exact changed_of_not_halts disk.root hprepare hhalts (h.nothing hne)
    obtain ⟨hready, hreported⟩ := (preview_raised_iff hprepare rfl).mp ((h.preview rfl).mp hraised)
    have hrun := hraised
    rw [applySandboxPlan_of_ok hprepare, finish_raised] at hrun
    obtain ⟨items, hclean⟩ := clean_of_runChanges hroot hready hrun.1
    exact .inr ⟨items, hclean, wellReported_of_copied hroot hclean hreported hprepare hraised
      (h.all hraised paths changes hprepare)⟩

/-! ### A destination that is named twice -/

/-- A change that proposes the file `x.md`. -/
def sampleChange (intended : String) : PyJson := .obj [
  (.ofString "operation", .str (.ofString "propose_file")),
  (.ofString "requires_human_approval", .bool true),
  (.ofString "apply_status", .str (.ofString "not_applied")),
  (.ofString "sandbox_artifact_path", .str (.ofString "proposed_outputs/x.md")),
  (.ofString "intended_repo_path", .str (.ofString intended))]

def samplePlan (intended : List String) : PyJson := .obj ([
  (.ofString "run_id", .str (.ofString "a")),
  (.ofString "mode", .str (.ofString "dry_run")),
  (.ofString "planned_changes", .arr (intended.map sampleChange))] ++
  (["execution", "git_operations", "adapter_execution", "private_context_access",
    "network_access"].map fun key => (.ofString key, .str (.ofString "blocked"))))

/-- A standard library; its other functions do not matter here. -/
def sampleStdlib : Stdlib where
  sha256 _ := zeroDigest
  floatRepr _ := "0.0"
  lower s := s
  format _ := "None"
  repr _ := "''"
  interpreter := usualInterpreter

/-- The text of a value -/
def sampleText (v : PyJson) : Bytes :=
  match PyStr.encode (PyJson.dumps sampleStdlib .indented 0 v) with
  | .ok text => text.toUTF8.toList
  | .error _ => []

/-- The plan is the only file that is read as JSON. -/
def sampleEnv (intended : List String) : Env where
  limit := 40
  answers := fun _ => true
  permits := fun _ => true
  loads := fun _ => .ok (samplePlan intended)
  reportText := [10]

def sampleRequest : Request where
  sandboxRoot := [.ofString "s"]
  repoRoot := [.ofString "r"]
  runId := .ofString "a"
  writeReport := true

/-- A sandbox `s` with the run `a`, and a repository `r`. -/
def sampleEntries (intended : List String) : List (FilePath × Node PyStr Bytes) := [
  (["r"].map .ofString, .dir),
  (["s"].map .ofString, .dir),
  (["s", "runs"].map .ofString, .dir),
  (["s", "runs", "a"].map .ofString, .dir),
  (["s", "runs", "a", "apply_plan.json"].map .ofString, .file (sampleText (samplePlan intended))),
  (["s", "runs", "a", "proposed_outputs"].map .ofString, .dir),
  (["s", "runs", "a", "proposed_outputs", "x.md"].map .ofString, .file [120])]

def sampleDisk (intended : List String) : Disk where
  tree := Tree.of (sampleEntries intended)
  root := rfl
  closed := closed_of rfl

/-- Two changes for one destination -/
def twice : List String := ["docs/a.md", "docs/a.md"]

def sampleTwice : Run :=
  applySandboxPlan (sampleEnv twice) (sampleRequest.apply false) (sampleDisk twice).tree

/-- The first of two changes is copied, and the second one is refused. -/
theorem repeatedDestination_halfApplied :
    ¬ AllOrNothing (sampleEnv twice) sampleRequest false (sampleDisk twice).tree := by
  intro h
  have hraised : sampleTwice.raised.isSome = true := by decide +kernel
  have hcopied : sampleTwice.tree.fileAt (["r", "docs", "a.md"].map .ofString) = some [120] := by
    decide +kernel
  have hbefore : (sampleDisk twice).tree.fileAt (["r", "docs", "a.md"].map .ofString) = none := by
    decide +kernel
  have hsame : SameFiles (sampleDisk twice).tree sampleTwice.tree :=
    h.nothing fun (hnone : sampleTwice.raised = none) => by
      rw [hnone] at hraised
      cases hraised
  have hfile := hsame (["r", "docs", "a.md"].map .ofString)
  rw [hcopied, hbefore] at hfile
  cases hfile

end Konoha.ApplyPlan
