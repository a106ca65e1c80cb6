/-
ApplyPlan/Runs.lean

What one planned change does, and what a list of them does, one after the other.

* `runChanges_of_clean`: a plan whose destinations are free for each other is carried out as a whole.
* `free_of_runChanges`: where nothing may be overwritten, no other plan goes through.
-/
import KonohaRuntime.ApplyPlan.Plan

namespace Konoha.ApplyPlan

open FileTree

variable {env : Env} {args : Args} {paths : Paths} {tree after : FileTree}

/-- A tree with a root. -/
structure Disk where
  tree : FileTree
  root : tree [] = some .dir
  closed : Closed tree

/-! ### Before the first change -/

/-- `run_dir / "proposed_outputs"` -/
def outputsName : FilePath := [.ofString "proposed_outputs"]

/-- What is known of the paths. -/
structure Located (env : Env) (tree : FileTree) (paths : Paths) : Prop where
  repoRoot : Real tree.links paths.repoRoot
  runDir : Real tree.links paths.runDir
  outputs : resolve env tree paths.runDir outputsName = .ok paths.proposedOutputs
  inRun : paths.runDir <+: paths.proposedOutputs

/-- The place of names has no link on its way. -/
theorem real_of_resolve {here names p : FilePath} (h : Real tree.links here)
    (hp : resolve env tree here names = .ok p) : Real tree.links p := by
  unfold resolve at hp
  split at hp
  · next p' hwalk =>
      obtain rfl := Except.ok.inj hp
      exact real_walk h hwalk
  · cases hp

theorem resolve_of_real (env : Env) {here names : FilePath} (h : Real tree.links (here ++ names)) :
    resolve env tree here names = .ok (here ++ names) := by
  rw [resolve, walk_real env.limit h]

theorem real_nil (hroot : tree [] = some .dir) : Real tree.links [] := by
  intro q hq
  rw [List.prefix_nil.mp hq, Tree.links, hroot]

theorem located_of_resolvePaths (hroot : tree [] = some .dir)
    (h : resolvePaths env args tree = .ok paths) : Located env tree paths := by
  unfold resolvePaths at h
  obtain ⟨_, _, h⟩ := bind_eq_ok.mp h
  obtain ⟨sandboxRoot, hsandbox, h⟩ := bind_eq_ok.mp h
  obtain ⟨repoRoot, hrepo, h⟩ := bind_eq_ok.mp h
  obtain ⟨runsRoot, hruns, h⟩ := bind_eq_ok.mp h
  obtain ⟨runDir, hrun, h⟩ := bind_eq_ok.mp h
  obtain ⟨proposedOutputs, houtputs, h⟩ := bind_eq_ok.mp h
  obtain ⟨_, _, h⟩ := bind_eq_ok.mp h
  obtain ⟨_, _, h⟩ := bind_eq_ok.mp h
  obtain ⟨_, hunder, h⟩ := bind_eq_ok.mp h
  obtain rfl := Except.ok.inj h
  have hempty := real_nil hroot
  have hrunDir := real_of_resolve (real_of_resolve (real_of_resolve hempty hsandbox) hruns) hrun
  exact ⟨real_of_resolve hempty hrepo, hrunDir, houtputs,
    List.isPrefixOf_iff_prefix.mp (check_eq_ok_iff.mp hunder)⟩

/-- The preparation locates the paths, and finds a first change. -/
theorem located_of_prepare (hroot : tree [] = some .dir) {changes : List PyJson}
    (h : prepare env args tree = .ok (paths, changes)) :
    Located env tree paths ∧ ∃ first rest, changes = first :: rest := by
  unfold prepare at h
  obtain ⟨_, _, h⟩ := bind_eq_ok.mp h
  obtain ⟨_, _, h⟩ := bind_eq_ok.mp h
  obtain ⟨paths', hpaths, h⟩ := bind_eq_ok.mp h
  obtain ⟨_, _, h⟩ := bind_eq_ok.mp h
  obtain ⟨plan, _, h⟩ := bind_eq_ok.mp h
  obtain ⟨_, _, h⟩ := bind_eq_ok.mp h
  obtain ⟨changes', hchanges, h⟩ := bind_eq_ok.mp h
  obtain ⟨rfl, rfl⟩ := Prod.mk.inj (Except.ok.inj h)
  refine ⟨located_of_resolvePaths hroot hpaths, ?_⟩
  unfold validatePlanBoundaries at hchanges
  obtain ⟨_, _, hchanges⟩ := bind_eq_ok.mp hchanges
  obtain ⟨_, _, hchanges⟩ := bind_eq_ok.mp hchanges
  obtain ⟨_, _, hchanges⟩ := bind_eq_ok.mp hchanges
  split at hchanges
  · next first rest _ => exact ⟨first, rest, (Except.ok.inj hchanges).symm⟩
  · cases hchanges

/-! ### One step -/

/-- The files of two trees are the same. -/
def SameFiles (tree after : FileTree) : Prop := ∀ q, after.fileAt q = tree.fileAt q

/-- The files and the links of two trees are the same. -/
structure Untouched (tree after : FileTree) : Prop where
  files : SameFiles tree after
  links : after.links = tree.links

theorem Untouched.rfl : Untouched tree tree := ⟨fun _ => .refl _, .refl _⟩

/-- A file can be made there, and the system lets it be written. -/
structure Able (env : Env) (tree : FileTree) (p : FilePath) : Prop where
  creatable : Creatable tree p
  permits : env.permits p = true

theorem place_congr (h : after.links = tree.links) (change : PyJson) :
    place env paths after change = place env paths tree change := by
  unfold place resolve
  rw [h]

theorem real_place (hroot : Real tree.links paths.repoRoot) {change : PyJson} {placed : Placed}
    (h : place env paths tree change = .ok placed) : Real tree.links placed.destination := by
  unfold place at h
  obtain ⟨named, -, h⟩ := bind_eq_ok.mp h
  obtain ⟨source, -, h⟩ := bind_eq_ok.mp h
  obtain ⟨destination, hdestination, h⟩ := bind_eq_ok.mp h
  obtain ⟨_, _, h⟩ := bind_eq_ok.mp h
  obtain ⟨_, _, h⟩ := bind_eq_ok.mp h
  obtain ⟨_, _, h⟩ := bind_eq_ok.mp h
  obtain rfl := Except.ok.inj h
  exact real_of_resolve hroot hdestination

/-- What a change needs to be carried out, or previewed. -/
structure Ready (env : Env) (args : Args) (paths : Paths) (tree : FileTree) (change : PyJson)
    (item : Placed × Bytes) : Prop where
  place : place env paths tree change = .ok item.1
  source : tree.fileAt item.1.source = some item.2
  free : tree item.1.destination = none ∨ args.allowOverwrite = true

theorem checkChange_eq_ok_iff {change : PyJson} {item : Placed × Bytes} :
    checkChange env args paths tree change = .ok item ↔ Ready env args paths tree change item := by
  unfold checkChange
  rw [bind_eq_ok]
  constructor
  · rintro ⟨placed, hplaced, h⟩
    obtain ⟨bytes, hbytes, h⟩ := bind_eq_ok.mp h
    obtain ⟨_, hfree, h⟩ := bind_eq_ok.mp h
    obtain rfl := Except.ok.inj h
    refine ⟨hplaced, ?_, ?_⟩
    · unfold readSource at hbytes
      split at hbytes
      · next hfile => exact hfile.trans (congrArg some (Except.ok.inj hbytes))
      · cases hbytes
    · simpa using check_eq_ok_iff.mp hfree
  · rintro ⟨hplaced, hbytes, hfree⟩
    refine ⟨item.1, hplaced, ?_⟩
    rw [readSource, hbytes]
    refine bind_eq_ok.mpr ⟨item.2, rfl, bind_eq_ok.mpr ⟨(), check_eq_ok_iff.mpr ?_, rfl⟩⟩
    simpa using hfree

/-- A file is copied, or it is not and no file has changed. -/
theorem copyTo_cases (env : Env) {p : FilePath} (hreal : Real tree.links p) (bytes : Bytes) :
    (Able env tree p ∧ copyTo env tree p bytes = (.ok (), tree.with p bytes)) ∨
      (¬ Able env tree p ∧ ∃ e after, copyTo env tree p bytes = (.error e, after) ∧
        Untouched tree after) := by
  have hput := @put_iff PyStr Bytes _ tree p bytes hreal
  unfold Tree.put at hput
  unfold copyTo
  rcases hmkdirs : tree.mkdirs p.dropLast with - | made
  · refine .inr ⟨fun h => ?_, _, _, rfl, .rfl⟩
    have := hput.mpr ⟨h.creatable, rfl⟩
    rw [hmkdirs] at this
    cases this
  · have hsame : Untouched tree made := ⟨fileAt_mkdirs hmkdirs, links_mkdirs hmkdirs⟩
    rw [hmkdirs] at hput
    dsimp only
    by_cases hpermits : env.permits p = true
    · rw [if_pos hpermits]
      rcases hwrite : made.write p bytes with - | written
      · refine .inr ⟨fun h => ?_, _, _, rfl, hsame⟩
        have := hput.mpr ⟨h.creatable, rfl⟩
        rw [Option.bind_some, hwrite] at this
        cases this
      · obtain ⟨hcreatable, rfl⟩ := hput.mp hwrite
        exact .inl ⟨⟨hcreatable, hpermits⟩, rfl⟩
    · rw [if_neg hpermits]
      exact .inr ⟨fun h => hpermits h.permits, _, _, rfl, hsame⟩

/-- A change that is carried out. -/
theorem buildChangeResult_of_able (hconfirm : args.confirmApply = true)
    (hroot : Real tree.links paths.repoRoot) {change : PyJson} {item : Placed × Bytes}
    (hready : Ready env args paths tree change item) (hable : Able env tree item.1.destination) :
    buildChangeResult env args paths tree change =
      (.ok item.1, tree.with item.1.destination item.2) := by
  rcases copyTo_cases env (real_place hroot hready.place) item.2 with ⟨-, h⟩ | ⟨h, -⟩
  · rw [buildChangeResult, checkChange_eq_ok_iff.mpr hready]
    dsimp only
    rw [if_pos hconfirm, h]
  · exact absurd hable h

/-- A change that is not. -/
theorem buildChangeResult_of_not (env : Env) (hconfirm : args.confirmApply = true)
    (hroot : Real tree.links paths.repoRoot) {change : PyJson}
    (h : ∀ item, Ready env args paths tree change item → ¬ Able env tree item.1.destination) :
    ∃ e after, buildChangeResult env args paths tree change = (.error e, after) ∧
      Untouched tree after := by
  rcases hcheck : checkChange env args paths tree change with e | item
  · exact ⟨e, tree, by rw [buildChangeResult, hcheck], .rfl⟩
  · have hready := checkChange_eq_ok_iff.mp hcheck
    rcases copyTo_cases env (real_place hroot hready.place) item.2 with
      ⟨hable, -⟩ | ⟨-, e, after, hcopy, hsame⟩
    · exact absurd hable (h item hready)
    · refine ⟨e, after, ?_, hsame⟩
      rw [buildChangeResult, hcheck]
      dsimp only
      rw [if_pos hconfirm, hcopy]

/-! ### Previews -/

theorem runChanges_cons (change : PyJson) (changes : List PyJson) :
    runChanges env args paths (change :: changes) tree =
      match buildChangeResult env args paths tree change with
      | (.error e, after) => ⟨[], some e, after⟩
      | (.ok placed, after) =>
          let rest := runChanges env args paths changes after
          ⟨placed :: rest.done, rest.raised, rest.tree⟩ := rfl

/-- A preview looks at every change in the same tree. -/
theorem preview_iff (env : Env) (paths : Paths) (tree : FileTree) (hpreview : args.confirmApply = false) (changes : List PyJson) :
    (runChanges env args paths changes tree).tree = tree ∧
      ((runChanges env args paths changes tree).raised = none ↔
        ∀ change ∈ changes, ∃ item, Ready env args paths tree change item) := by
  induction changes with
  | nil => exact ⟨rfl, iff_of_true rfl (List.forall_mem_nil _)⟩
  | cons change changes ih =>
      rw [List.forall_mem_cons, runChanges_cons, buildChangeResult]
      rcases hcheck : checkChange env args paths tree change with e | item
      · refine ⟨rfl, iff_of_false nofun fun h => ?_⟩
        obtain ⟨item, hitem⟩ := h.1
        rw [checkChange_eq_ok_iff.mpr hitem] at hcheck
        exact nomatch hcheck
      · dsimp only
        rw [hpreview]
        refine ⟨ih.1, ih.2.trans (and_iff_right ⟨item, ?_⟩).symm⟩
        exact checkChange_eq_ok_iff.mp hcheck

/-! ### A run that goes through -/

/-- Neither path leads through the other. -/
def Apart (p q : FilePath) : Prop := ¬ p <+: q ∧ ¬ q <+: p

theorem Apart.symm {p q : FilePath} (h : Apart p q) : Apart q p := ⟨h.2, h.1⟩

theorem Apart.ne {p q : FilePath} (h : Apart p q) : q ≠ p := fun e => h.1 (e ▸ List.prefix_rfl)

/-- All changes, written. -/
def withAll (tree : FileTree) : List (Placed × Bytes) → FileTree
  | [] => tree
  | item :: items => withAll (tree.with item.1.destination item.2) items

/-- The changes are ready and their destinations can be made; no destination leads through another, and
one that is named twice, or is the artifact of a later change, is given the bytes it is to hold. -/
structure Clean (env : Env) (args : Args) (paths : Paths) (tree : FileTree) (changes : List PyJson)
    (items : List (Placed × Bytes)) : Prop where
  ready : List.Forall₂ (Ready env args paths tree) changes items
  able : ∀ item ∈ items, Able env tree item.1.destination
  through : ∀ item ∈ items, ∀ item' ∈ items, item.1.destination <+: item'.1.destination →
    item.1.destination = item'.1.destination ∧ item.2 = item'.2
  once : args.allowOverwrite = false → (items.map (·.1.destination)).Nodup
  sources : items.Pairwise fun item item' =>
    item'.1.source = item.1.destination → item'.2 = item.2

theorem apart_of_pairwise {items : List (Placed × Bytes)}
    (h : items.Pairwise fun item item' => Apart item.1.destination item'.1.destination)
    {item item' : Placed × Bytes} (hitem : item ∈ items) (hitem' : item' ∈ items) (hne : item ≠ item') :
    Apart item.1.destination item'.1.destination := by
  induction h with
  | nil => cases hitem
  | cons hfirst _ ih =>
      rcases List.mem_cons.mp hitem with rfl | hmem
      · rcases List.mem_cons.mp hitem' with rfl | hmem'
        · exact absurd rfl hne
        · exact hfirst item' hmem'
      · rcases List.mem_cons.mp hitem' with rfl | hmem'
        · exact (hfirst item hmem).symm
        · exact ih hmem hmem'

theorem able_with_iff {p q : FilePath} (hq : q ≠ p) {bytes : Bytes} :
    Able env (tree.with p bytes) q ↔ Able env tree q ∧ ¬ p <+: q ∧ (q <+: p → tree q ≠ none) := by
  constructor
  · rintro ⟨hcreatable, hpermits⟩
    obtain ⟨hcreatable, h⟩ := (creatable_with_iff hq).mp hcreatable
    exact ⟨⟨hcreatable, hpermits⟩, h⟩
  · rintro ⟨⟨hcreatable, hpermits⟩, h⟩
    exact ⟨(creatable_with_iff hq).mpr ⟨hcreatable, h⟩, hpermits⟩

theorem Ready.with {change : PyJson} {item item' : Placed × Bytes}
    (h : Ready env args paths tree change item)
    (hlink : tree.links item'.1.destination = none)
    (hfree : args.allowOverwrite = false → ¬ item.1.destination <+: item'.1.destination)
    (hsource : item.1.source = item'.1.destination → item.2 = item'.2) :
    Ready env args paths (tree.with item'.1.destination item'.2) change item where
  place := by rw [place_congr (links_with _ hlink), h.place]
  source := by
    rw [fileAt_with]
    split_ifs with he
    · rw [hsource he]
    · exact h.source
  free := by
    rw [with_eq_none_iff]
    rcases h.free with hnone | hoverwrite
    · by_cases hkeep : args.allowOverwrite = true
      · exact .inr hkeep
      · exact .inl ⟨hnone, hfree (Bool.eq_false_iff.mpr hkeep)⟩
    · exact .inr hoverwrite

/-- A clean plan is carried out. -/
theorem runChanges_of_clean (hconfirm : args.confirmApply = true) {changes : List PyJson}
    {items : List (Placed × Bytes)} (hroot : Real tree.links paths.repoRoot)
    (h : Clean env args paths tree changes items) :
    runChanges env args paths changes tree = ⟨items.map (·.1), none, withAll tree items⟩ := by
  induction changes generalizing tree items with
  | nil =>
      obtain rfl := List.forall₂_nil_left_iff.mp h.ready
      rfl
  | cons change changes ih =>
      obtain ⟨item, items, hready, hreadys, rfl⟩ := List.forall₂_cons_left_iff.mp h.ready
      obtain ⟨hable, hables⟩ := List.forall_mem_cons.mp h.able
      obtain ⟨hsource, hsources⟩ := List.pairwise_cons.mp h.sources
      have hlink := real_place hroot hready.place _ List.prefix_rfl
      have hclean : Clean env args paths (tree.with item.1.destination item.2) changes items := {
        ready := hreadys.imp_of_mem fun change _ item' hitem' hready' => by
          refine hready'.with hlink (fun hkeep hbelow => ?_) (hsource item' hitem')
          have he := (h.through item' (.tail _ hitem') item (.head _) hbelow).1
          exact (List.nodup_cons.mp (h.once hkeep)).1 (List.mem_map.mpr ⟨item', hitem', he⟩)
        able := fun item' hitem' => by
          by_cases he : item'.1.destination = item.1.destination
          · rw [he]
            exact ⟨hable.creatable.with_self, hable.permits⟩
          · refine (able_with_iff he).mpr ⟨hables item' hitem', fun hp => ?_, fun hp => ?_⟩
            · exact he (h.through item (.head _) item' (.tail _ hitem') hp).1.symm
            · exact absurd (h.through item' (.tail _ hitem') item (.head _) hp).1 he
        through := fun item' hitem' item'' hitem'' =>
          h.through item' (.tail _ hitem') item'' (.tail _ hitem'')
        once := fun hkeep => (List.nodup_cons.mp (h.once hkeep)).2
        sources := hsources }
      rw [runChanges_cons, buildChangeResult_of_able hconfirm hroot hready hable]
      dsimp only
      rw [ih (links_with _ hlink ▸ hroot) hclean]
      rfl

/-- The files after a clean plan. -/
theorem fileAt_withAll (tree : FileTree) {items : List (Placed × Bytes)}
    (hagree : ∀ item ∈ items, ∀ item' ∈ items, item.1.destination = item'.1.destination →
      item.2 = item'.2) :
    (∀ item ∈ items, (withAll tree items).fileAt item.1.destination = some item.2) ∧
      ∀ q, (∀ item ∈ items, q ≠ item.1.destination) → (withAll tree items).fileAt q = tree.fileAt q := by
  induction items generalizing tree with
  | nil => exact ⟨List.forall_mem_nil _, fun _ _ => rfl⟩
  | cons item items ih =>
      obtain ⟨hown, hother⟩ := ih (tree.with item.1.destination item.2)
        fun item hitem item' hitem' => hagree item (.tail _ hitem) item' (.tail _ hitem')
      refine ⟨List.forall_mem_cons.mpr ⟨?_, hown⟩, fun q hq => ?_⟩
      · by_cases hagain : ∃ item' ∈ items, item.1.destination = item'.1.destination
        · obtain ⟨item', hitem', he⟩ := hagain
          have hfile := hown item' hitem'
          rw [← he, ← hagree item (.head _) item' (.tail _ hitem') he] at hfile
          exact hfile
        · have hne : ∀ item' ∈ items, item.1.destination ≠ item'.1.destination :=
            fun item' hitem' he => hagain ⟨item', hitem', he⟩
          rw [withAll, hother _ hne, fileAt_with, if_pos rfl]
      · obtain ⟨hq, hqs⟩ := List.forall_mem_cons.mp hq
        rw [withAll, hother q hqs, fileAt_with, if_neg hq]

/-- A clean plan agrees on every destination. -/
theorem Clean.agree {changes : List PyJson} {items : List (Placed × Bytes)}
    (h : Clean env args paths tree changes items) : ∀ item ∈ items, ∀ item' ∈ items,
      item.1.destination = item'.1.destination → item.2 = item'.2 :=
  fun item hitem item' hitem' he => (h.through item hitem item' hitem' (he ▸ List.prefix_rfl)).2

/-- The directories after a clean plan. -/
theorem isDir_withAll {items : List (Placed × Bytes)} {q : FilePath} :
    (∀ item ∈ items, q ≠ item.1.destination) → (isDir (withAll tree items q) = true ↔
      isDir (tree q) = true ∨ tree q = none ∧ ∃ item ∈ items, q <+: item.1.destination) := by
  intro hne
  induction items generalizing tree with
  | nil => simp [withAll]
  | cons item items ih =>
      obtain ⟨hq, hqs⟩ := List.forall_mem_cons.mp hne
      rw [withAll, ih hqs, isDir_with, with_eq_none_iff]
      simp only [List.mem_cons, exists_eq_or_imp, hq, ne_eq, not_false_eq_true, true_and]
      tauto

theorem links_withAll {items : List (Placed × Bytes)}
    (h : ∀ item ∈ items, tree.links item.1.destination = none) :
    (withAll tree items).links = tree.links := by
  induction items generalizing tree with
  | nil => rfl
  | cons item items ih =>
      obtain ⟨hitem, hitems⟩ := List.forall_mem_cons.mp h
      have hwith := links_with item.2 hitem
      rw [withAll, ih (hwith ▸ hitems), hwith]

/-! ### A run that has gone through -/

/-- Where nothing is overwritten, a run that does not raise finds every destination free, able to be
made, and apart from the others. -/
theorem free_of_runChanges (hconfirm : args.confirmApply = true) (hkeep : args.allowOverwrite = false)
    {changes : List PyJson} (hroot : Real tree.links paths.repoRoot)
    (h : (runChanges env args paths changes tree).raised = none) :
    List.Forall₂ (fun change placed => place env paths tree change = .ok placed ∧
      tree placed.destination = none ∧ Able env tree placed.destination) changes
        (runChanges env args paths changes tree).done ∧
      (runChanges env args paths changes tree).done.Pairwise fun placed placed' =>
        Apart placed.destination placed'.destination := by
  induction changes generalizing tree with
  | nil => exact ⟨.nil, .nil⟩
  | cons change changes ih =>
      by_cases hfirst : ∃ item, Ready env args paths tree change item ∧ Able env tree item.1.destination
      · obtain ⟨item, hready, hable⟩ := hfirst
        have hlink := real_place hroot hready.place _ List.prefix_rfl
        have hfree : tree item.1.destination = none := by
          simpa [hkeep] using hready.free
        rw [runChanges_cons, buildChangeResult_of_able hconfirm hroot hready hable] at h ⊢
        obtain ⟨hplaced, haparts⟩ := ih (links_with _ hlink ▸ hroot) h
        have hrest := hplaced.imp_of_mem (S := fun change placed =>
            (place env paths tree change = .ok placed ∧ tree placed.destination = none ∧
              Able env tree placed.destination) ∧ Apart item.1.destination placed.destination) ?_
        · refine ⟨.cons ⟨hready.place, hfree, hable⟩ (hrest.imp fun _ _ h => h.1), ?_⟩
          refine List.pairwise_cons.mpr ⟨fun placed hmem => ?_, haparts⟩
          obtain ⟨_, -, -, hapart⟩ := hrest.exists_left hmem
          exact hapart
        · rintro change - placed - ⟨hplace, hnone, hable'⟩
          rw [place_congr (links_with _ hlink)] at hplace
          obtain ⟨hnone, hbelow⟩ := with_eq_none_iff.mp hnone
          have hne : placed.destination ≠ item.1.destination := fun e => hbelow (e ▸ List.prefix_rfl)
          obtain ⟨hable', hbelow', -⟩ := (able_with_iff hne).mp hable'
          exact ⟨⟨hplace, hnone, hable'⟩, hbelow', hbelow⟩
      · obtain ⟨e, after, hbuild, -⟩ := buildChangeResult_of_not env hconfirm hroot
          fun item hready hable => hfirst ⟨item, hready, hable⟩
        rw [runChanges_cons, hbuild] at h
        cases h

/-- A run keeps every file in its place, whatever it writes there. -/
theorem keeps_runChanges (hconfirm : args.confirmApply = true) {changes : List PyJson}
    (hroot : Real tree.links paths.repoRoot) {q : FilePath} (hq : (tree.fileAt q).isSome) :
    ((runChanges env args paths changes tree).tree.fileAt q).isSome := by
  induction changes generalizing tree with
  | nil => exact hq
  | cons change changes ih =>
      rw [runChanges_cons]
      by_cases hfirst : ∃ item, Ready env args paths tree change item ∧ Able env tree item.1.destination
      · obtain ⟨item, hready, hable⟩ := hfirst
        have hlink := real_place hroot hready.place _ List.prefix_rfl
        rw [buildChangeResult_of_able hconfirm hroot hready hable]
        refine ih (links_with _ hlink ▸ hroot) ?_
        rw [fileAt_with]
        split_ifs
        · rfl
        · exact hq
      · obtain ⟨e, after, hbuild, hsame⟩ := buildChangeResult_of_not env hconfirm hroot
          fun item hready hable => hfirst ⟨item, hready, hable⟩
        rw [hbuild]
        exact hsame.files q ▸ hq

/-! ### The report -/

/-- A file can be written where these names lead. -/
structure Writable (env : Env) (tree : FileTree) (here names p : FilePath) : Prop where
  place : resolve env tree here names = .ok p
  permits : env.permits p = true
  ne_nil : p ≠ []
  parent : isDir (tree p.dropLast) = true
  free : isDir (tree p) = false

theorem writeBytes_eq_ok_iff {here names : FilePath} {bytes : Bytes} :
    writeBytes env tree here names bytes = .ok after ↔
      ∃ p, Writable env tree here names p ∧ after = Function.update tree p (some (.file bytes)) := by
  unfold writeBytes Tree.write
  simp only [bind_eq_ok, check_eq_ok_iff, exists_const]
  constructor
  · rintro ⟨p, hplace, hpermits, h⟩
    split_ifs at h with hwrite
    obtain rfl := Except.ok.inj h
    obtain ⟨hne, hparent, hfree⟩ := hwrite
    exact ⟨p, ⟨hplace, hpermits, hne, hparent, by simpa using hfree⟩, rfl⟩
  · rintro ⟨p, ⟨hplace, hpermits, hne, hparent, hfree⟩, rfl⟩
    refine ⟨p, hplace, hpermits, ?_⟩
    rw [if_pos ⟨hne, hparent, by rw [hfree]; rfl⟩]

theorem writeReport_eq_ok_iff : writeReport env paths tree = .ok after ↔
    ∃ p, Writable env tree paths.runDir reportName p ∧
      after = Function.update tree p (some (.file env.reportText)) := writeBytes_eq_ok_iff

/-- A report is written, or none is asked for. -/
def Reported (env : Env) (args : Args) (paths : Paths) (tree : FileTree) : Prop :=
  args.writeReport = true → ∃ p, Writable env tree paths.runDir reportName p

theorem finish_raised (env : Env) (args : Args) (paths : Paths) (run : Run) : (finish env args paths run).raised = none ↔
    run.raised = none ∧ Reported env args paths run.tree := by
  obtain ⟨done, raised, tree⟩ := run
  unfold finish Reported
  rcases raised with - | e
  · dsimp only
    split_ifs with hwrite
    · rcases hreport : writeReport env paths tree with e | after
      · refine iff_of_false nofun fun h => ?_
        obtain ⟨p, hp⟩ := h.2 hwrite
        rw [writeReport_eq_ok_iff.mpr ⟨p, hp, rfl⟩] at hreport
        cases hreport
      · obtain ⟨p, hp, -⟩ := writeReport_eq_ok_iff.mp hreport
        exact iff_of_true rfl ⟨rfl, fun _ => ⟨p, hp⟩⟩
    · exact iff_of_true rfl ⟨rfl, fun h => absurd h hwrite⟩
  · exact iff_of_false nofun fun h => nomatch h.1

theorem finish_done (run : Run) : (finish env args paths run).done = run.done := by
  obtain ⟨done, raised, tree⟩ := run
  unfold finish
  rcases raised with - | e
  · dsimp only
    split_ifs
    · rcases writeReport env paths tree with e | after <;> rfl
    · rfl
  · rfl

/-- The report is written at its place. -/
theorem fileAt_report (run : Run) (hwrite : args.writeReport = true) {p : FilePath}
    (hp : Writable env run.tree paths.runDir reportName p) (hraised : run.raised = none) :
    (finish env args paths run).tree.fileAt p = some env.reportText := by
  obtain ⟨done, raised, tree⟩ := run
  obtain rfl : raised = none := hraised
  unfold finish
  dsimp only
  rw [if_pos hwrite, writeReport_eq_ok_iff.mpr ⟨p, hp, rfl⟩]
  dsimp only
  rw [fileAt_update, if_pos rfl]

/-- The files after the report. -/
theorem fileAt_finish (env : Env) (args : Args) (paths : Paths) (run : Run) (q : FilePath) :
    (finish env args paths run).tree.fileAt q = run.tree.fileAt q ∨
      args.writeReport = true ∧ resolve env run.tree paths.runDir reportName = .ok q ∧
        (finish env args paths run).tree.fileAt q = some env.reportText := by
  obtain ⟨done, raised, tree⟩ := run
  unfold finish
  rcases raised with - | e
  · dsimp only
    split_ifs with hwrite
    · rcases hreport : writeReport env paths tree with e | after
      · exact .inl rfl
      · obtain ⟨p, hp, rfl⟩ := writeReport_eq_ok_iff.mp hreport
        dsimp only
        rw [fileAt_update]
        split_ifs with hq
        · exact .inr ⟨hwrite, hq ▸ hp.place, rfl⟩
        · exact .inl rfl
    · exact .inl rfl
  · exact .inl rfl

/-- A report that is not written changes nothing. -/
theorem tree_finish_of_raised {run : Run} (h : (finish env args paths run).raised ≠ none) :
    (finish env args paths run).tree = run.tree := by
  obtain ⟨done, raised, tree⟩ := run
  unfold finish at h ⊢
  rcases raised with - | e
  · dsimp only at h ⊢
    split_ifs at h ⊢ with hwrite
    · rcases hreport : writeReport env paths tree with e | after
      · rfl
      · rw [hreport] at h
        exact absurd rfl h
    · rfl
  · rfl

end Konoha.ApplyPlan
