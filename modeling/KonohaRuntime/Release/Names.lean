/-
Release/Names.lean

The names of the released files, as text: from the plan into a list with commas, through `git-plan`
and `git add`, and back out of three listings of git.

`carried_iff`: a working tree with exactly the files of an accepted plan is released if and only if
the names are plain ones, among a few conditions on the arguments of git.
-/
import Mathlib.Data.List.Dedup
import KonohaRuntime.Base.GitNames
import KonohaRuntime.Base.PyDumps
import KonohaRuntime.GitStaging.Gates

namespace Konoha.Release.Names

open CodePoint GitNames
open PyJson (keyLE)
open GitStaging (planPaths betaGate isForbidden)
open TaskContract (lowerPoint slashes dropDotSlash hasDrive parts isDots)

/-! ### `public_paths` -/

/-- `normalize_relative_path`, of a string -/
def normalizeRelativePath (raw : PyStr) : Option PyStr :=
  let value := slashes raw.strip
  if value = [] ∨ value.head? = some (scalar '/') ∨ hasDrive value = true then none
  else
    let value := dropDotSlash value
    if value ≠ [scalar '.'] ∧ (parts value).any isDots = true then none else some value

/-- `PRIVATE_PATTERNS` -/
def privatePatterns : List String :=
  [".env", "alliance/kirigakure", "memory/local", "vault", "sandbox"]

/-- `is_private_path` -/
def isPrivatePath (relative : PyStr) : Bool :=
  let lowered := relative.map lowerPoint
  (PyStr.ofString ".env.").isPrefixOf lowered ||
    (privatePatterns.any fun p =>
      lowered = PyStr.ofString p || (PyStr.ofString p ++ [scalar '/']).isPrefixOf lowered) ||
    match parts lowered with
    | first :: _ :: third :: _ =>
        first = PyStr.ofString "alliance" &&
          (third = PyStr.ofString "private-library" || third = PyStr.ofString "memory")
    | _ => false

/-- `sorted(paths)` -/
def sorted (paths : List PyStr) : List PyStr := paths.insertionSort fun a b => keyLE a b = true

/-- One turn of the loop over `public_paths` -/
def publicPath (raw : PyJson) (index : Nat) : Except PyExc PyStr :=
  match raw with
  | .str text =>
      match normalizeRelativePath text with
      | none => .error (.exception ("public_paths[" ++ toString index ++ "] is invalid"))
      | some path =>
          if path = [scalar '.'] then
            .error (.exception ("public_paths[" ++ toString index ++ "] is invalid"))
          else if isPrivatePath path then
            .error (.exception ("public_paths[" ++ toString index ++ "] points to blocked context"))
          else .ok path
  | _ => .error (.exception ("public_paths[" ++ toString index ++ "] is invalid"))

/-- `validate_plan`, as far as it decides `public_paths` -/
def publicPaths (raw : PyJson) : Except PyExc (List PyStr) := do
  match raw with
  | .arr (first :: rest) => do
      let normalized ← (first :: rest).zipIdx.mapM fun item => publicPath item.1 item.2
      if normalized.Nodup then return sorted normalized
      else .error (.exception "public_paths contains duplicates")
  | _ => .error (.exception "public_paths must be a non-empty list")

/-! ### The working tree -/

/-- The names in a working tree whose index is that of `HEAD`. -/
structure Tree where
  /-- modified or deleted -/
  changed : List PyStr
  deleted : List PyStr
  /-- not in the index, and not ignored -/
  untracked : List PyStr
  /-- in the index, as they are -/
  unchanged : List PyStr
  nodup : (changed ++ untracked).Nodup

/-- What git makes of arguments and of contents. -/
structure Git where
  /-- `git add -- path` takes the file. -/
  takes : PyStr → PyStr → Bool
  /-- Of the staged files, this one is shown as the old name of another. -/
  renamed : List PyStr → PyStr → Bool

def Tree.scope (tree : Tree) : List PyStr := tree.changed ++ tree.untracked

/-- The changed, deleted and untracked files are the paths. -/
def Tree.HasScope (tree : Tree) (paths : List PyStr) : Prop := ∀ path, path ∈ tree.scope ↔ path ∈ paths

/-- `collect_scope` -/
def Tree.collectScope (tree : Tree) : List PyStr :=
  let changed := stripChars (printNames tree.changed)
  let untracked := stripChars (printNames tree.untracked)
  sorted (((words (changed ++ '\n' :: untracked)).map fun line => line.map scalar).dedup)

/-- `sorted(line for line in git_stdout(…).splitlines() if line)`: of the staged files, and in
`collect_commit_paths` -/
def readNames (names : List PyStr) : List PyStr :=
  sorted ((rows (stripChars (printNames names))).map fun line => line.map scalar)

/-! ### `create_commit` -/

/-- The options of `git-plan`. -/
def optionStrings : List String :=
  ["-h", "--help", "--json", "--force", "--repo-root", "--plan-id", "--paths", "--commit-message",
    "--branch", "--remote", "--output", "--confirm-plan", "--approval-token"]

/-- `^-\d+$|^-\d*\.\d+$`, after the minus, of ASCII -/
def isNumeral (s : PyStr) : Bool :=
  let isDigit : CodePoint → Bool := fun p => decide (∃ d ∈ "0123456789".toList, p = scalar d)
  (s ≠ [] && s.all isDigit) ||
    match s.splitOn (scalar '.') with
    | [whole, fraction] => whole.all isDigit && fraction ≠ [] && fraction.all isDigit
    | _ => false

/-- The text is or begins with an option, or abbreviates one. -/
def namesOption (text : PyStr) : Bool :=
  if (PyStr.ofString "--").isPrefixOf text then
    optionStrings.any fun o => (text.takeWhile (· ≠ scalar '=')).isPrefixOf (PyStr.ofString o)
  else text.take 2 = PyStr.ofString "-h"

/-- The parser takes the text as the value of an option. -/
def isValue (text : PyStr) : Bool :=
  text.head? ≠ some (scalar '-') || text = [scalar '-'] ||
    (!namesOption text && (isNumeral text.tail || text.contains (scalar ' ')))

/-- `",".join(paths)` -/
def pathsCsv (paths : List PyStr) : PyStr := [scalar ','].intercalate paths

/-- `git-plan`, and the paths that `git-stage` reads from its plan -/
def gitPlan (paths : List PyStr) : Except PyExc (List PyStr) := do
  check (isValue (pathsCsv paths)) (.exception "git-plan returned RC=2")
  betaGate (pathsCsv paths)

section Stage

variable (git : Git) (tree : Tree)

/-- What is staged after `git add -- path`. -/
def Tree.add (staged : List PyStr) (path : PyStr) : List PyStr :=
  tree.scope.filter fun file => staged.contains file || git.takes path file

/-- `git add -- path` finds a file: in the index, or in the working tree. -/
def Tree.finds (staged : List PyStr) (path : PyStr) : Bool :=
  (tree.scope ++ tree.unchanged).any fun file =>
    git.takes path file && !(tree.deleted.contains file && staged.contains file)

/-- One turn of `cmd_git_stage` -/
def Tree.stage (state : List PyStr × Bool) (path : PyStr) : List PyStr × Bool :=
  (tree.add git state.1 path, state.2 && tree.finds git state.1 path)

/-- `git-stage` -/
def gitStage (paths : List PyStr) : Except PyExc (List PyStr) := do
  let state := paths.foldl (tree.stage git) ([], true)
  check state.2 (.exception "git-stage returned RC=1")
  return state.1

/-- `git diff --cached --name-only` -/
def Git.cached (staged : List PyStr) : List PyStr := staged.filter fun file => !git.renamed staged file

/-- `create_commit`, as far as the names decide it -/
def createCommit (paths : List PyStr) : Except PyExc Unit := do
  let planned ← gitPlan paths
  let staged ← gitStage git tree planned
  check (readNames (git.cached staged) = paths) (.exception "staged scope differs from plan")
  check (readNames staged = paths) (.exception "release commit scope mismatch")

end Stage

/-! ### What is claimed, and when it holds -/

/-- The names arrive unchanged, at every place. -/
structure Carried (git : Git) (tree : Tree) (paths : List PyStr) : Prop where
  scope : tree.collectScope = paths
  plan : gitPlan paths = .ok paths
  delivered : ∃ staged, gitStage git tree paths = .ok staged ∧
    readNames (git.cached staged) = paths ∧ readNames staged = paths ∧ ∀ file ∈ staged, file ∈ paths
  commit : createCommit git tree paths = .ok ()

/-- Printable ASCII without quotes, backslashes and commas, and without a blank in front. -/
def isPlainName (path : PyStr) : Bool :=
  path.all isPlainPoint && !path.contains (scalar ',') && path.head? ≠ some (scalar ' ')

/-- Plain names that `git-plan` and `git add` take for what they are, and no renamed file. -/
structure Carries (git : Git) (tree : Tree) (paths : List PyStr) : Prop where
  plain : ∀ path ∈ paths, isPlainName path = true
  value : isValue (pathsCsv paths) = true
  allowed : ∀ path ∈ paths, isForbidden path = false
  found : ∀ before path after, paths = before ++ path :: after →
    ∃ file ∈ tree.scope ++ tree.unchanged, git.takes path file = true ∧
      (file ∈ tree.deleted → file ∈ tree.scope → ∀ earlier ∈ before, git.takes earlier file = false)
  taken : ∀ file ∈ tree.scope, ∃ path ∈ paths, git.takes path file = true
  kept : ∀ file ∈ tree.scope, git.renamed tree.scope file = false

/-! ### The order of names -/

instance total_keyLE : Std.Total fun a b : PyStr => keyLE a b = true := ⟨PyJson.keyLE_total⟩

instance trans_keyLE : IsTrans PyStr fun a b => keyLE a b = true :=
  ⟨fun _ _ _ => PyJson.keyLE_trans⟩

instance antisymm_keyLE : Std.Antisymm fun a b : PyStr => keyLE a b = true :=
  ⟨fun _ _ => PyJson.keyLE_antisymm⟩

theorem mem_sorted {paths : List PyStr} {path : PyStr} : path ∈ sorted paths ↔ path ∈ paths :=
  List.mem_insertionSort _

theorem sorted_eq_of_perm {paths paths' : List PyStr} (h : paths.Perm paths') :
    sorted paths = sorted paths' :=
  List.Perm.eq_of_pairwise' (List.pairwise_insertionSort _ _) (List.pairwise_insertionSort _ _)
    ((List.perm_insertionSort _ _).trans (h.trans (List.perm_insertionSort _ _).symm))

/-! ### Accepted paths -/

/-- What `normalize_relative_path` guarantees of a name. -/
structure Normal (path : PyStr) : Prop where
  ne_nil : path ≠ []
  noBackslash : scalar '\\' ∉ path
  last : ∀ c ∈ path.getLast?, c.isSpace = false

theorem dropDotSlash_suffix (value : PyStr) : dropDotSlash value <:+ value := by
  fun_induction dropDotSlash value with
  | case1 value ih => exact ih.trans ⟨[scalar '.', scalar '/'], rfl⟩
  | case2 value => exact List.suffix_refl _

theorem getLast?_strip (s : PyStr) : ∀ c ∈ s.strip.getLast?, c.isSpace = false := by
  intro c hc
  obtain ⟨hne, rfl⟩ := List.mem_getLast?_eq_getLast hc
  have hlast := List.rdropWhile_last_not isSpace (s.dropWhile isSpace) hne
  exact Bool.eq_false_iff.mpr hlast

theorem getLast?_slashes {s : PyStr} (h : ∀ c ∈ s.getLast?, c.isSpace = false) :
    ∀ c ∈ (slashes s).getLast?, c.isSpace = false := by
  intro c hc
  rw [slashes, List.getLast?_map, Option.mem_map] at hc
  obtain ⟨d, hd, rfl⟩ := hc
  split_ifs
  · decide
  · exact h d hd

theorem normal_of_normalizeRelativePath {raw path : PyStr}
    (h : normalizeRelativePath raw = some path) : Normal path := by
  unfold normalizeRelativePath at h
  dsimp only at h
  split_ifs at h with hstart hdots
  obtain rfl := Option.some.inj h
  have hne : dropDotSlash (slashes raw.strip) ≠ [] := by
    intro hnil
    apply hdots
    rw [hnil]
    exact ⟨List.cons_ne_nil _ _ ∘ Eq.symm, rfl⟩
  have hsuffix := dropDotSlash_suffix (slashes raw.strip)
  refine ⟨hne, fun hmem => ?_, fun c hc => ?_⟩
  · have := TaskContract.isPathLetter_slashes _ (hsuffix.subset hmem)
    revert this
    decide
  · apply getLast?_slashes (getLast?_strip raw) c
    obtain ⟨front, hfront⟩ := hsuffix
    rw [← hfront, List.getLast?_append_of_ne_nil _ hne]
    exact hc

/-- What `validate_plan` guarantees of the names. -/
structure Accepted (paths : List PyStr) : Prop where
  normal : ∀ path ∈ paths, Normal path
  nodup : paths.Nodup
  sorted : sorted paths = paths
  ne_nil : paths ≠ []

theorem forall_of_mapM {α β : Type} {f : α → Except PyExc β} {P : β → Prop}
    (hf : ∀ a b, f a = .ok b → P b) {xs : List α} {ys : List β} (h : xs.mapM f = .ok ys) :
    (∀ y ∈ ys, P y) ∧ ys.length = xs.length := by
  induction xs generalizing ys with
  | nil =>
      obtain rfl := Except.ok.inj h
      exact ⟨fun _ h => (nomatch h), rfl⟩
  | cons x xs ih =>
      rw [List.mapM_cons] at h
      obtain ⟨y, hy, h⟩ := bind_eq_ok.mp h
      obtain ⟨ys', hys', h⟩ := bind_eq_ok.mp h
      obtain rfl := Except.ok.inj h
      obtain ⟨hall, hlength⟩ := ih hys'
      exact ⟨List.forall_mem_cons.mpr ⟨hf x y hy, hall⟩, congrArg (· + 1) hlength⟩

theorem normal_of_publicPath {raw : PyJson} {index : Nat} {path : PyStr}
    (h : publicPath raw index = .ok path) : Normal path := by
  unfold publicPath at h
  split at h
  · split at h
    · cases h
    · next path' hpath =>
        split_ifs at h
        obtain rfl := Except.ok.inj h
        exact normal_of_normalizeRelativePath hpath
  · cases h

theorem accepted_of_publicPaths {raw : PyJson} {paths : List PyStr}
    (h : publicPaths raw = .ok paths) : Accepted paths := by
  unfold publicPaths at h
  split at h
  · next first rest =>
      obtain ⟨normalized, hnormalized, h⟩ := bind_eq_ok.mp h
      split_ifs at h with hnodup
      obtain rfl := Except.ok.inj h
      have hperm : (sorted normalized).Perm normalized := List.perm_insertionSort _ _
      obtain ⟨hnormal, hlength⟩ := forall_of_mapM (P := Normal)
        (fun item _ hitem => normal_of_publicPath hitem) hnormalized
      refine ⟨fun path hpath => hnormal path (mem_sorted.mp hpath), hperm.nodup_iff.mpr hnodup,
        sorted_eq_of_perm hperm, fun hnil => ?_⟩
      rw [hnil] at hperm
      rw [← hperm.length_eq, List.length_zipIdx] at hlength
      cases hlength
  · cases h

/-! ### Through the listings -/

section Listings

variable {tree : Tree} {paths : List PyStr}

theorem scope_perm (haccepted : Accepted paths) (hscope : tree.HasScope paths) :
    tree.scope.Perm paths :=
  (List.perm_ext_iff_of_nodup tree.nodup haccepted.nodup).mpr hscope

/-- What is read of two listings. -/
theorem mem_listed {changed untracked : List PyStr} {path : PyStr} :
    path ∈ sorted (((words (stripChars (printNames changed) ++ '\n' ::
        stripChars (printNames untracked))).map fun line => line.map scalar).dedup) ↔
      ∃ name ∈ changed ++ untracked, ∃ line, word (quotePath name) = some line ∧
        line.map scalar = path := by
  rw [mem_sorted, List.mem_dedup, words_printNames, List.mem_map]
  constructor
  · rintro ⟨line, hline, rfl⟩
    obtain ⟨name, hname, hword⟩ := List.mem_filterMap.mp hline
    exact ⟨name, hname, line, hword, rfl⟩
  · rintro ⟨name, hname, line, hword, rfl⟩
    exact ⟨line, List.mem_filterMap.mpr ⟨name, hname, hword⟩, rfl⟩

theorem word_eq_some {line w : List Char} (h : word line = some w) :
    w = stripChars line ∧ w ≠ [] := by
  unfold word at h
  split_ifs at h with hnil
  obtain rfl := Option.some.inj h
  exact ⟨rfl, hnil⟩

/-- A name that git quotes is not among the paths that `collect_scope` finds. -/
theorem plain_of_collectScope (haccepted : Accepted paths) (hscope : tree.HasScope paths)
    (h : tree.collectScope = paths) {path : PyStr} (hpath : path ∈ paths) :
    path.all isPlainPoint = true := by
  by_contra hplain
  rw [Bool.not_eq_true] at hplain
  have hmem := mem_stripChars (by decide) (backslash_mem_quotePath hplain)
  have hword : word (quotePath path) = some (stripChars (quotePath path)) := by
    rw [word, if_neg (List.ne_nil_of_mem hmem)]
  have hlisted : (stripChars (quotePath path)).map scalar ∈ paths := by
    rw [← h]
    exact mem_listed.mpr ⟨path, (hscope path).mpr hpath, _, hword, rfl⟩
  exact (haccepted.normal _ hlisted).noBackslash (List.mem_map.mpr ⟨'\\', hmem, rfl⟩)

/-- What `collect_scope` finds has no blank in front. -/
theorem head_of_collectScope {path : PyStr} (h : path ∈ tree.collectScope) :
    path.head? ≠ some (scalar ' ') := by
  obtain ⟨name, -, line, hword, rfl⟩ := mem_listed.mp h
  obtain ⟨hline, -⟩ := word_eq_some hword
  intro hhead
  cases line with
  | nil => cases hhead
  | cons c rest =>
      have hc := head_stripChars hline.symm
      obtain rfl : c = ' ' := scalar.inj (Option.some.inj hhead)
      revert hc
      decide

theorem isSpace_of_isPlainPoint {c : Char} (h : isPlainPoint (scalar c) = true)
    (hspace : isPySpace c = true) : c = ' ' := by
  obtain ⟨hlow, hhigh, -, -⟩ := isPlainPoint_scalar_iff.mp h
  have hof : Char.ofNat c.toNat = c := Char.ofNat_toNat c
  rw [← hof] at hspace ⊢
  have hall : ∀ n < 0x7f, 0x20 ≤ n → isPySpace (Char.ofNat n) = true → Char.ofNat n = ' ' := by
    decide +kernel
  exact hall _ hhigh hlow hspace

/-- A plain name without a blank in front is read as it is. -/
theorem trim_quotePath {path : PyStr} (hnormal : Normal path) (hplain : path.all isPlainPoint = true)
    (hhead : path.head? ≠ some (scalar ' ')) : Trim (quotePath path) := by
  have hpath := quotePath_plain hplain
  constructor
  · intro hnil
    rw [hnil] at hpath
    exact hnormal.ne_nil hpath.symm
  · intro c hc
    rw [Bool.eq_false_iff]
    intro hspace
    have hmem : path.head? = some (scalar c) := by
      rw [← hpath, List.head?_map, hc, Option.map_some]
    have hpoint := List.all_eq_true.mp hplain _ (List.mem_of_head? hmem)
    rw [isSpace_of_isPlainPoint hpoint hspace] at hmem
    exact hhead hmem
  · intro c hc
    have hmem : path.getLast? = some (scalar c) := by
      rw [← hpath, List.getLast?_map, hc, Option.map_some]
    exact hnormal.last _ hmem

/-- The names are printed, and read back, as they are. -/
def Readable (paths : List PyStr) : Prop :=
  ∀ path ∈ paths, Trim (quotePath path) ∧ (quotePath path).map scalar = path

theorem readable_of_plain (haccepted : Accepted paths)
    (hplain : ∀ path ∈ paths, path.all isPlainPoint = true ∧ path.head? ≠ some (scalar ' ')) :
    Readable paths := by
  intro path hpath
  obtain ⟨hpoints, hhead⟩ := hplain path hpath
  exact ⟨trim_quotePath (haccepted.normal path hpath) hpoints hhead, quotePath_plain hpoints⟩

theorem collectScope_of_readable (haccepted : Accepted paths) (hscope : tree.HasScope paths)
    (h : Readable paths) : tree.collectScope = paths := by
  have hwords : ((tree.changed ++ tree.untracked).filterMap fun name =>
      word (quotePath name)).map (fun line => line.map scalar) = tree.scope := by
    rw [List.map_filterMap, ← List.filterMap_some (l := tree.scope)]
    apply List.filterMap_congr
    intro name hname
    obtain ⟨htrim, hname⟩ := h name ((hscope name).mp hname)
    rw [word, htrim.strip, if_neg htrim.ne_nil, Option.map_some, hname]
  have hnodup : tree.scope.Nodup := tree.nodup
  rw [Tree.collectScope, words_printNames, hwords, hnodup.dedup,
    sorted_eq_of_perm (scope_perm haccepted hscope), haccepted.sorted]

theorem readNames_of_readable (h : Readable paths) : readNames paths = sorted paths := by
  have hnames : (paths.map quotePath).map (fun line => line.map scalar) = paths := by
    rw [List.map_map]
    conv_rhs => rw [← List.map_id paths]
    exact List.map_congr_left fun path hpath => (h path hpath).2
  rw [readNames, rows_printNames fun path hpath => (h path hpath).1, hnames]

theorem Readable.subset {paths' : List PyStr} (h : Readable paths) (hsubset : paths' ⊆ paths) :
    Readable paths' :=
  fun path hpath => h path (hsubset hpath)

end Listings

/-! ### Through `git-plan` -/

theorem notMem_strip {s : PyStr} {c : CodePoint} (h : c ∉ s) : c ∉ s.strip := fun hmem =>
  h ((List.dropWhile_sublist _).mem ((List.rdropWhile_prefix isSpace _).sublist.mem hmem))

theorem strip_of_normal {path : PyStr} (hnormal : Normal path) (hplain : path.all isPlainPoint = true)
    (hhead : path.head? ≠ some (scalar ' ')) : path.strip = path := by
  have hdrop : path.dropWhile isSpace = path := by
    cases path with
    | nil => rfl
    | cons p path =>
        apply List.dropWhile_cons_of_neg
        intro hspace
        have hpoint := List.all_eq_true.mp hplain p (.head _)
        cases p with
        | surrogate n => cases hspace
        | scalar c => exact hhead (by rw [isSpace_of_isPlainPoint hpoint hspace]; rfl)
  rw [PyStr.strip, hdrop, List.rdropWhile_eq_self_iff]
  intro hne
  rw [hnormal.last _ (List.getLast?_eq_some_getLast hne)]
  decide

theorem planPaths_pathsCsv {paths : List PyStr} (haccepted : Accepted paths)
    (h : ∀ path ∈ paths, isPlainName path = true) : planPaths (pathsCsv paths) = paths := by
  have hplain : ∀ path ∈ paths, path.all isPlainPoint = true ∧ scalar ',' ∉ path ∧
      path.head? ≠ some (scalar ' ') := by
    intro path hpath
    simpa [isPlainName, and_assoc] using h path hpath
  have hstrip : paths.map PyStr.strip = paths := by
    conv_rhs => rw [← List.map_id paths]
    exact List.map_congr_left fun path hpath => strip_of_normal (haccepted.normal path hpath)
      (hplain path hpath).1 (hplain path hpath).2.2
  rw [planPaths, pathsCsv, List.splitOn_intercalate _ (fun path hpath => (hplain path hpath).2.1)
    haccepted.ne_nil, hstrip, List.filter_eq_self]
  exact fun path hpath => decide_eq_true (haccepted.normal path hpath).ne_nil

theorem betaGate_eq_ok_iff {argument : PyStr} {paths : List PyStr} :
    betaGate argument = .ok paths ↔
      planPaths argument = paths ∧ ∀ path ∈ paths, isForbidden path = false := by
  constructor
  · intro h
    refine ⟨?_, GitStaging.betaGate_eq_ok h⟩
    obtain ⟨_, -, h⟩ := bind_eq_ok.mp h
    obtain ⟨_, -, h⟩ := bind_eq_ok.mp h
    exact Except.ok.inj h
  · rintro ⟨rfl, hallowed⟩
    have hvalid : GitStaging.validateGitPaths (planPaths argument) = .ok () := by
      rw [GitStaging.validateGitPaths, if_neg]
      rw [Bool.not_eq_true, List.any_eq_false]
      intro path hpath
      rw [hallowed path hpath]
      decide
    rw [betaGate, hvalid]
    rfl

theorem gitPlan_eq_ok_iff {paths planned : List PyStr} : gitPlan paths = .ok planned ↔
    isValue (pathsCsv paths) = true ∧ planPaths (pathsCsv paths) = planned ∧
      ∀ path ∈ planned, isForbidden path = false := by
  rw [← betaGate_eq_ok_iff]
  constructor
  · intro h
    obtain ⟨_, hvalue, h⟩ := bind_eq_ok.mp h
    exact ⟨check_eq_ok_iff.mp hvalue, h⟩
  · rintro ⟨hvalue, h⟩
    exact bind_eq_ok.mpr ⟨(), check_eq_ok_iff.mpr hvalue, h⟩

/-! ### Through `git add` -/

section Staging

variable (git : Git) (tree : Tree)

/-- The files that some of the paths take. -/
def Tree.stagedBy (paths : List PyStr) : List PyStr :=
  tree.scope.filter fun file => paths.any fun path => git.takes path file

variable {git tree}

theorem mem_stagedBy {paths : List PyStr} {file : PyStr} : file ∈ tree.stagedBy git paths ↔
    file ∈ tree.scope ∧ ∃ path ∈ paths, git.takes path file = true := by
  rw [Tree.stagedBy, List.mem_filter, List.any_eq_true]

theorem add_stagedBy (paths : List PyStr) (path : PyStr) :
    tree.add git (tree.stagedBy git paths) path = tree.stagedBy git (paths ++ [path]) := by
  apply List.filter_congr
  intro file hfile
  have hstaged : (tree.stagedBy git paths).contains file =
      paths.any fun path => git.takes path file := by
    rw [Bool.eq_iff_iff, List.contains_iff_mem, mem_stagedBy, List.any_eq_true]
    exact and_iff_right hfile
  rw [hstaged, List.any_append, List.any_cons, List.any_nil, Bool.or_false]

theorem finds_stagedBy_iff {paths : List PyStr} {path : PyStr} :
    tree.finds git (tree.stagedBy git paths) path = true ↔
      ∃ file ∈ tree.scope ++ tree.unchanged, git.takes path file = true ∧
        (file ∈ tree.deleted → file ∈ tree.scope →
          ∀ earlier ∈ paths, git.takes earlier file = false) := by
  rw [Tree.finds, List.any_eq_true]
  refine exists_congr fun file => and_congr_right fun _ => ?_
  rw [Bool.and_eq_true, Bool.not_eq_true', Bool.and_eq_false_iff, ← Bool.not_eq_true,
    ← Bool.not_eq_true, List.contains_iff_mem, List.contains_iff_mem, mem_stagedBy]
  refine and_congr_right fun _ => ?_
  constructor
  · rintro hor hdeleted hfile earlier hearlier
    rw [← Bool.not_eq_true]
    intro htakes
    exact hor.elim (absurd hdeleted) (absurd ⟨hfile, earlier, hearlier, htakes⟩)
  · intro himp
    by_cases hdeleted : file ∈ tree.deleted
    · right
      rintro ⟨hfile, earlier, hearlier, htakes⟩
      rw [himp hdeleted hfile earlier hearlier] at htakes
      cases htakes
    · exact .inl hdeleted

/-- `git add` runs for each of the paths, after those before it. -/
theorem foldl_stage (before paths : List PyStr) (found : Bool) :
    (paths.foldl (tree.stage git) (tree.stagedBy git before, found)).1 =
      tree.stagedBy git (before ++ paths) ∧
    ((paths.foldl (tree.stage git) (tree.stagedBy git before, found)).2 = true ↔ found = true ∧
      ∀ front path after, paths = front ++ path :: after →
        tree.finds git (tree.stagedBy git (before ++ front)) path = true) := by
  induction paths generalizing before found with
  | nil =>
      refine ⟨by rw [List.append_nil]; rfl, ?_⟩
      show found = true ↔ _
      refine (and_iff_left ?_).symm
      rintro (_ | ⟨_, _⟩) path after h
      · cases h
      · cases h
  | cons path paths ih =>
      have hstep : tree.stage git (tree.stagedBy git before, found) path =
          (tree.stagedBy git (before ++ [path]),
            found && tree.finds git (tree.stagedBy git before) path) := by
        rw [Tree.stage, add_stagedBy]
      rw [List.foldl_cons, hstep]
      obtain ⟨hstaged, hfound⟩ := ih (before ++ [path])
        (found && tree.finds git (tree.stagedBy git before) path)
      refine ⟨by rw [hstaged, List.append_assoc]; rfl, ?_⟩
      rw [hfound, Bool.and_eq_true, and_assoc]
      refine and_congr_right fun _ => ?_
      constructor
      · rintro ⟨hfirst, hrest⟩ (_ | ⟨p, front⟩) path' after h
        · obtain ⟨rfl, rfl⟩ := List.cons.inj h
          rw [List.append_nil]
          exact hfirst
        · obtain ⟨rfl, hpaths⟩ := List.cons.inj h
          have := hrest front path' after hpaths
          rwa [List.append_assoc] at this
      · intro h
        refine ⟨?_, fun front path' after hpaths => ?_⟩
        · have := h [] path paths rfl
          rwa [List.append_nil] at this
        · have := h (path :: front) path' after (by rw [hpaths]; rfl)
          rwa [← List.singleton_append, ← List.append_assoc] at this

theorem gitStage_eq_ok_iff {paths staged : List PyStr} : gitStage git tree paths = .ok staged ↔
    staged = tree.stagedBy git paths ∧ ∀ before path after, paths = before ++ path :: after →
      ∃ file ∈ tree.scope ++ tree.unchanged, git.takes path file = true ∧
        (file ∈ tree.deleted → file ∈ tree.scope →
          ∀ earlier ∈ before, git.takes earlier file = false) := by
  have hnone : tree.stagedBy git [] = [] := List.filter_eq_nil_iff.mpr fun _ _ h => nomatch h
  obtain ⟨hstaged, hfound⟩ := @foldl_stage git tree [] paths true
  rw [hnone, List.nil_append] at hstaged
  rw [hnone] at hfound
  simp only [true_and, List.nil_append, finds_stagedBy_iff] at hfound
  rw [← hfound]
  constructor
  · intro h
    obtain ⟨_, hok, h⟩ := bind_eq_ok.mp h
    exact ⟨(Except.ok.inj h).symm.trans hstaged, check_eq_ok_iff.mp hok⟩
  · rintro ⟨rfl, hok⟩
    exact bind_eq_ok.mpr ⟨(), check_eq_ok_iff.mpr hok, congrArg Except.ok hstaged⟩

end Staging

/-! ### The whole way -/

section Whole

variable {git : Git} {tree : Tree} {paths : List PyStr}

theorem stagedBy_eq_scope (h : ∀ file ∈ tree.scope, ∃ path ∈ paths, git.takes path file = true) :
    tree.stagedBy git paths = tree.scope :=
  List.filter_eq_self.mpr fun file hfile => List.any_eq_true.mpr (h file hfile)

/-- What is read of a part of the tree is that part. -/
theorem mem_of_readNames (hscope : tree.HasScope paths)
    (hreadable : Readable paths) {names : List PyStr} (hnames : names ⊆ tree.scope)
    (h : readNames names = paths) {file : PyStr} (hfile : file ∈ tree.scope) : file ∈ names := by
  have hsubset : names ⊆ paths := fun name hname => (hscope name).mp (hnames hname)
  rw [readNames_of_readable (hreadable.subset hsubset)] at h
  rw [← mem_sorted, h]
  exact (hscope file).mp hfile

theorem Carried.carries (haccepted : Accepted paths) (hscope : tree.HasScope paths)
    (h : Carried git tree paths) : Carries git tree paths := by
  obtain ⟨hvalue, hplanned, hallowed⟩ := gitPlan_eq_ok_iff.mp h.plan
  have hhead : ∀ path ∈ paths, path.head? ≠ some (scalar ' ') := by
    intro path hpath
    rw [← h.scope] at hpath
    exact head_of_collectScope hpath
  have hpoints : ∀ path ∈ paths, path.all isPlainPoint = true := fun path hpath =>
    plain_of_collectScope haccepted hscope h.scope hpath
  have hcomma : ∀ path ∈ paths, scalar ',' ∉ path := by
    intro path hpath
    rw [← hplanned] at hpath
    obtain ⟨piece, hpiece, rfl⟩ := List.mem_map.mp (List.mem_of_mem_filter hpath)
    exact notMem_strip (notMem_of_mem_splitOn hpiece)
  have hreadable : Readable paths := readable_of_plain haccepted fun path hpath =>
    ⟨hpoints path hpath, hhead path hpath⟩
  obtain ⟨staged, hstaged, hcached, hcommitted, -⟩ := h.delivered
  obtain ⟨rfl, hfound⟩ := gitStage_eq_ok_iff.mp hstaged
  have hsubset : tree.stagedBy git paths ⊆ tree.scope := fun file hfile => (mem_stagedBy.mp hfile).1
  have htaken : ∀ file ∈ tree.scope, ∃ path ∈ paths, git.takes path file = true := fun file hfile =>
    (mem_stagedBy.mp (mem_of_readNames hscope hreadable hsubset hcommitted hfile)).2
  refine ⟨fun path hpath => ?_, hvalue, hallowed, hfound, htaken, fun file hfile => ?_⟩
  · simp [isPlainName, hcomma path hpath, hhead path hpath]
    exact fun p hp => List.all_eq_true.mp (hpoints path hpath) p hp
  · rw [stagedBy_eq_scope htaken] at hcached
    have hmem := mem_of_readNames hscope hreadable (fun _ => List.mem_of_mem_filter) hcached hfile
    simpa using List.of_mem_filter hmem

theorem Carries.carried (haccepted : Accepted paths) (hscope : tree.HasScope paths)
    (h : Carries git tree paths) : Carried git tree paths := by
  have hreadable : Readable paths := readable_of_plain haccepted fun path hpath => by
    have := h.plain path hpath
    rw [isPlainName, Bool.and_eq_true, Bool.and_eq_true, decide_eq_true_eq] at this
    exact ⟨this.1.1, this.2⟩
  have hplan : gitPlan paths = .ok paths :=
    gitPlan_eq_ok_iff.mpr ⟨h.value, planPaths_pathsCsv haccepted h.plain, h.allowed⟩
  have hstage : gitStage git tree paths = .ok tree.scope :=
    gitStage_eq_ok_iff.mpr ⟨(stagedBy_eq_scope h.taken).symm, h.found⟩
  have hread : readNames tree.scope = paths := by
    rw [readNames_of_readable (hreadable.subset fun name hname => (hscope name).mp hname),
      sorted_eq_of_perm (scope_perm haccepted hscope), haccepted.sorted]
  have hcached : git.cached tree.scope = tree.scope := by
    apply List.filter_eq_self.mpr
    intro file hfile
    rw [h.kept file hfile]
    rfl
  have hcommit : createCommit git tree paths = .ok () := by
    rw [createCommit, hplan]
    show (gitStage git tree paths >>= _) = _
    rw [hstage]
    show (check (readNames (git.cached tree.scope) = paths) _ >>= _) = _
    rw [hcached, hread]
    simp [check]
    rfl
  refine ⟨collectScope_of_readable haccepted hscope hreadable, hplan,
    ⟨tree.scope, hstage, ?_, hread, fun file hfile => (hscope file).mp hfile⟩, hcommit⟩
  rw [hcached, hread]

/-- **A working tree with exactly the files of an accepted plan is released if and only if their
names survive every text that they are written to.** -/
theorem carried_iff {raw : PyJson} (h : publicPaths raw = .ok paths) (hscope : tree.HasScope paths) :
    Carried git tree paths ↔ Carries git tree paths :=
  ⟨fun hcarried => hcarried.carries (accepted_of_publicPaths h) hscope,
    fun hcarries => hcarries.carried (accepted_of_publicPaths h) hscope⟩

end Whole

/-- A tree with one new file. -/
def newFile (name : PyStr) : Tree where
  changed := []
  deleted := []
  untracked := [name]
  unchanged := []
  nodup := List.nodup_singleton name

/-- Arguments are the names of files, and nothing is renamed. -/
def literalGit : Git where
  takes path file := path = file
  renamed _ _ := false

theorem publicPaths_notes :
    publicPaths (.arr [.str (.ofString "docs/notes.md")]) = .ok [.ofString "docs/notes.md"] := by
  rfl

theorem publicPaths_accented :
    publicPaths (.arr [.str (.ofString "docs/café.md")]) = .ok [.ofString "docs/café.md"] := by
  rfl

theorem carried_iff_notes :
    Carried literalGit (newFile (.ofString "docs/notes.md")) [.ofString "docs/notes.md"] ↔
      Carries literalGit (newFile (.ofString "docs/notes.md")) [.ofString "docs/notes.md"] :=
  carried_iff publicPaths_notes fun _ => Iff.rfl

/-- A new file whose name is not ASCII has another name in the list of git. -/
theorem accented_not_carried :
    publicPaths (.arr [.str (.ofString "docs/café.md")]) = .ok [.ofString "docs/café.md"] ∧
    (newFile (.ofString "docs/café.md")).HasScope [.ofString "docs/café.md"] ∧
    (newFile (.ofString "docs/café.md")).collectScope = [.ofString "\"docs/caf\\303\\251.md\""] ∧
    ¬ Carried literalGit (newFile (.ofString "docs/café.md")) [.ofString "docs/café.md"] := by
  have hscope : (newFile (.ofString "docs/café.md")).collectScope =
      [.ofString "\"docs/caf\\303\\251.md\""] := by
    decide +kernel
  refine ⟨publicPaths_accented, fun _ => Iff.rfl, hscope, fun h => ?_⟩
  have hpaths := hscope.symm.trans h.scope
  revert hpaths
  decide +kernel

end Konoha.Release.Names
