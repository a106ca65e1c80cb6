/-
Installation/Install.lean

The supervised installation of a package: the working tree is inspected, the helper of the package is
run, and a part of what was inspected is inspected again.

`inspectOrInstall_eq_ok_iff`: what an installation has seen when it succeeds.
-/
import KonohaRuntime.Installation.Manifest
import KonohaRuntime.Release.Commands

namespace Konoha.Installation

open CodePoint GitNames
open Release (Oid)
open Release.Names (sorted isPrivatePath readNames)

/-! ### The repository -/

/-- What a path leads to when its links are resolved. -/
inductive FileAt
  | outside
  | missing
  | file (bytes : List UInt8)

/-- What git knows of a repository. -/
structure Repo where
  branch : String
  head : Oid
  /-- `git rev-parse --verify` -/
  resolve : PyStr → Option Oid
  /-- tracked files that differ from the index -/
  changed : List PyStr
  /-- files that are neither in the index nor ignored -/
  untracked : List PyStr
  /-- files in the index that differ from `HEAD` -/
  staged : List PyStr
  named : ∀ name ∈ changed ++ untracked ++ staged, name ≠ []

structure State where
  /-- nothing, where git fails -/
  repo : Option Repo
  /-- a path, with the repository as the inside -/
  file : PyStr → FileAt
  /-- a path, with `sandbox/` as the inside -/
  sandboxed : PyStr → FileAt

/-- How a helper ends, and what it leaves behind, its log included. -/
inductive Ending
  | timedOut (after : State)
  | raised (e : PyExc) (after : State)
  | exited (returncode : Int) (after : State)

/-- What git and the digests depend on, and no helper changes. -/
structure Env where
  /-- `git rev-list --left-right --count a...b` -/
  counts : Oid → Oid → Nat × Nat
  sha256 : List UInt8 → Digest

/-- `InstallationError`, and what a helper can raise -/
inductive Refusal
  | git
  | branch (found : String)
  | head (found : Oid)
  | tracking
  | notSynchronized
  | staged (paths : List PyStr)
  | blockedPaths (paths : List PyStr)
  | scopeMismatch (unexpected missingDirect : List PyStr)
  | escapes (path : PyStr)
  | fileMissing (path : PyStr)
  | token
  | helperEscapes
  | helperNotFound
  | helperTimedOut
  | helperFailed (returncode : Int)
  | raised (e : PyExc)
  | finalScope
  | changedDirect (paths : List PyStr)
  | stagedAfter (paths : List PyStr)

/-! ### `inspect_or_install` -/

section Definitions

variable (env : Env) (m : Manifest)

/-- `git_read` -/
def State.git (s : State) : Except Refusal Repo :=
  match s.repo with
  | some r => .ok r
  | none => .error .git

/-- `collect_public_scope` -/
def Repo.collectPublicScope (r : Repo) : List PyStr :=
  let changed := stripChars (printNames r.changed)
  let untracked := stripChars (printNames r.untracked)
  sorted (((words (changed ++ '\n' :: untracked)).map fun line => line.map scalar).dedup)

/-- `collect_staged_scope` -/
def Repo.collectStagedScope (r : Repo) : List PyStr := readNames r.staged

/-- One turn of `file_hashes` -/
def fileHash (s : State) (path : PyStr) : Except Refusal (PyStr × Digest) :=
  match s.file path with
  | .outside => .error (.escapes path)
  | .missing => .error (.fileMissing path)
  | .file bytes => .ok (path, env.sha256 bytes)

/-- `file_hashes` -/
def fileHashes (s : State) (paths : List PyStr) : Except Refusal (List (PyStr × Digest)) :=
  paths.mapM (fileHash env s)

inductive ScopeState
  | readyForHelperApply
  | installed
  | blockedScopeMismatch
  deriving DecidableEq

/-- `determine_state` -/
def determineState (actual direct final : List PyStr) : ScopeState :=
  if actual = direct then .readyForHelperApply
  else if actual = final then .installed
  else .blockedScopeMismatch

/-- The state of a scope, by the manifest. -/
def Manifest.stateOf (actual : List PyStr) : ScopeState :=
  determineState actual m.directRepoPaths m.expectedPublicPaths

/-- What is known before the helper. -/
structure Start where
  branch : String
  head : Oid
  actual : List PyStr
  state : ScopeState
  hashes : List (PyStr × Digest)

/-- `rev-parse --verify` of the tracking reference -/
def Repo.tracking (r : Repo) : Except Refusal Oid :=
  match r.resolve m.trackingRef with
  | some t => .ok t
  | none => .error .git

/-- `inspect_or_install`, before the helper -/
def inspect (s : State) : Except Refusal Start := do
  let r ← s.git
  let tracking ← r.tracking m
  check (.ofString r.branch = m.expectedBranch) (.branch r.branch)
  check (.ofString r.head = m.expectedBaseCommit) (.head r.head)
  check (.ofString tracking = m.expectedBaseCommit) .tracking
  check (env.counts tracking r.head = (0, 0)) .notSynchronized
  check (r.collectStagedScope = []) (.staged r.collectStagedScope)
  let actual := r.collectPublicScope
  check (actual.all fun path => !isPrivatePath path) (.blockedPaths (actual.filter isPrivatePath))
  check (m.stateOf actual ≠ .blockedScopeMismatch) (.scopeMismatch
    (sorted (actual.filter fun path => !m.expectedPublicPaths.contains path))
    (sorted (m.directRepoPaths.filter fun path => !actual.contains path)))
  let hashes ← fileHashes env s m.directRepoPaths
  return { branch := r.branch, head := r.head, actual, state := m.stateOf actual, hashes }

/-- `INSTALL_TOKEN` -/
def installToken : PyStr := .ofString "APPLY_SUPERVISED_PACKAGE_INSTALLATION"

/-- The helper is found, and run. -/
def runHelper (token : PyStr) (s : State) (ending : Ending) : Except Refusal State := do
  check (token = installToken) .token
  match s.sandboxed m.helperPath with
  | .outside => .error .helperEscapes
  | .missing => .error .helperNotFound
  | .file _ =>
      match ending with
      | .timedOut _ => .error .helperTimedOut
      | .raised e _ => .error (.raised e)
      | .exited returncode after => if returncode = 0 then .ok after else .error (.helperFailed returncode)

/-- The helper, where one is run: what it leaves behind, and whether it was run. -/
def helperStep (apply : Bool) (token : PyStr) (s : State) (ending : Ending) (start : Start) :
    Except Refusal (State × Bool) :=
  if apply = true ∧ start.state = .readyForHelperApply then
    (runHelper m token s ending).map fun t => (t, true)
  else .ok (s, false)

structure Report where
  statusCode : ScopeState
  installed : Bool
  head : Oid
  branch : String
  stateBefore : ScopeState
  actualBefore : List PyStr
  actualAfter : List PyStr
  stagedPaths : List PyStr
  helper : Bool

/-- The direct files whose digest has changed. -/
def changedDirect (before after : List (PyStr × Digest)) : List PyStr :=
  (before.filter fun entry => after.lookup entry.1 ≠ some entry.2).map (·.1)

/-- `inspect_or_install`, after the helper -/
def inspectAgain (apply : Bool) (start : Start) (t : State) (helper : Bool) : Except Refusal Report := do
  let r ← t.git
  let actual := r.collectPublicScope
  check (!apply || m.stateOf actual = .installed) .finalScope
  let hashes ← fileHashes env t m.directRepoPaths
  check (changedDirect start.hashes hashes = [])
    (.changedDirect (sorted (changedDirect start.hashes hashes)))
  check (r.collectStagedScope = []) (.stagedAfter r.collectStagedScope)
  return {
    statusCode := m.stateOf actual
    installed := m.stateOf actual = .installed
    head := start.head
    branch := start.branch
    stateBefore := start.state
    actualBefore := start.actual
    actualAfter := actual
    stagedPaths := r.collectStagedScope
    helper }

/-- `inspect_or_install`: the report, and the state after it -/
def inspectOrInstall (apply : Bool) (token : PyStr) (s : State) (ending : Ending) :
    Except Refusal (Report × State) := do
  let start ← inspect env m s
  let after ← helperStep m apply token s ending start
  let report ← inspectAgain env m apply start after.1 after.2
  return (report, after.1)

end Definitions

/-! ### Digests -/

section Digests

variable {env : Env} {s t : State}

/-- A path leads to a file with this digest. -/
def HasDigest (env : Env) (s : State) (path : PyStr) (digest : Digest) : Prop :=
  ∃ bytes, s.file path = .file bytes ∧ env.sha256 bytes = digest

theorem fileHash_eq_ok_iff {path : PyStr} {entry : PyStr × Digest} :
    fileHash env s path = .ok entry ↔ entry.1 = path ∧ HasDigest env s path entry.2 := by
  unfold fileHash HasDigest
  rcases s.file path with - | - | bytes
  · exact iff_of_false nofun fun ⟨_, _, h, _⟩ => nomatch h
  · exact iff_of_false nofun fun ⟨_, _, h, _⟩ => nomatch h
  · constructor
    · intro h
      obtain rfl := Except.ok.inj h
      exact ⟨rfl, bytes, rfl, rfl⟩
    · obtain ⟨path', digest⟩ := entry
      rintro ⟨rfl, bytes', hbytes, rfl⟩
      rw [FileAt.file.inj hbytes]

theorem fileHashes_eq_ok_iff {paths : List PyStr} {hashes : List (PyStr × Digest)} :
    fileHashes env s paths = .ok hashes ↔
      List.Forall₂ (fun path entry => entry.1 = path ∧ HasDigest env s path entry.2) paths hashes := by
  unfold fileHashes
  induction paths generalizing hashes with
  | nil =>
      rw [List.mapM_nil, List.forall₂_nil_left_iff]
      exact ⟨fun h => (Except.ok.inj h).symm, fun h => congrArg Except.ok h.symm⟩
  | cons path paths ih =>
      rw [List.mapM_cons, bind_eq_ok, List.forall₂_cons_left_iff]
      constructor
      · rintro ⟨entry, hentry, h⟩
        obtain ⟨rest, hrest, h⟩ := bind_eq_ok.mp h
        exact ⟨entry, rest, fileHash_eq_ok_iff.mp hentry, ih.mp hrest, (Except.ok.inj h).symm⟩
      · rintro ⟨entry, rest, hentry, hrest, rfl⟩
        refine ⟨entry, fileHash_eq_ok_iff.mpr hentry, ?_⟩
        rw [ih.mpr hrest]
        rfl

theorem lookup_hashes {paths : List PyStr} {hashes : List (PyStr × Digest)}
    (h : List.Forall₂ (fun path entry => entry.1 = path ∧ HasDigest env s path entry.2) paths hashes)
    {path : PyStr} (hpath : path ∈ paths) :
    ∃ digest, hashes.lookup path = some digest ∧ HasDigest env s path digest := by
  induction h with
  | nil => exact nomatch hpath
  | @cons path' entry paths hashes hentry _ ih =>
      obtain ⟨rfl, hdigest⟩ := hentry
      by_cases he : path = entry.1
      · subst he
        exact ⟨entry.2, List.lookup_cons_self, hdigest⟩
      · obtain ⟨digest, hlookup, hd⟩ := ih ((List.mem_cons.mp hpath).resolve_left he)
        refine ⟨digest, ?_, hd⟩
        rw [List.lookup_cons, beq_false_of_ne he, hlookup]

theorem HasDigest.inj {path : PyStr} {digest digest' : Digest} (h : HasDigest env s path digest)
    (h' : HasDigest env s path digest') : digest = digest' := by
  obtain ⟨bytes, hbytes, rfl⟩ := h
  obtain ⟨bytes', hbytes', rfl⟩ := h'
  rw [FileAt.file.inj (hbytes.symm.trans hbytes')]

theorem lookups_iff {paths : List PyStr} {before after : List (PyStr × Digest)}
    (hbefore : List.Forall₂ (fun path entry => entry.1 = path ∧ HasDigest env s path entry.2) paths before)
    (hafter : ∀ path ∈ paths, ∃ digest, after.lookup path = some digest ∧ HasDigest env t path digest) :
    (∀ entry ∈ before, after.lookup entry.1 = some entry.2) ↔
      ∀ path ∈ paths, ∃ digest, HasDigest env s path digest ∧ HasDigest env t path digest := by
  induction hbefore with
  | nil => exact iff_of_true (List.forall_mem_nil _) (List.forall_mem_nil _)
  | @cons path entry paths before hentry _ ih =>
      obtain ⟨⟨digest, hlookup, hdigest⟩, hafter⟩ := List.forall_mem_cons.mp hafter
      rw [List.forall_mem_cons, List.forall_mem_cons, ih hafter, hentry.1, hlookup]
      refine and_congr_left' ?_
      constructor
      · intro h
        exact ⟨digest, Option.some.inj h ▸ hentry.2, hdigest⟩
      · rintro ⟨digest', hs, ht⟩
        rw [ht.inj hdigest] at hs
        rw [hentry.2.inj hs]

/-- No digest has changed: every path leads to a file before and after, with the same digest. -/
theorem changedDirect_eq_nil_iff {paths : List PyStr} {before after : List (PyStr × Digest)}
    (hbefore : List.Forall₂ (fun path entry => entry.1 = path ∧ HasDigest env s path entry.2) paths before)
    (hafter : List.Forall₂ (fun path entry => entry.1 = path ∧ HasDigest env t path entry.2) paths after) :
    changedDirect before after = [] ↔
      ∀ path ∈ paths, ∃ digest, HasDigest env s path digest ∧ HasDigest env t path digest := by
  rw [← lookups_iff hbefore fun path hpath => lookup_hashes hafter hpath, changedDirect,
    List.map_eq_nil_iff, List.filter_eq_nil_iff]
  simp

end Digests

/-! ### Names -/

/-- No blank at either end. -/
structure Trimmed (name : PyStr) : Prop where
  head : name.head? ≠ some (scalar ' ')
  last : name.getLast? ≠ some (scalar ' ')

section Names

variable {m : Manifest} {r : Repo}

theorem mem_collectPublicScope {path : PyStr} : path ∈ r.collectPublicScope ↔
    ∃ name ∈ r.changed ++ r.untracked, ∃ line, word (quotePath name) = some line ∧
      line.map scalar = path :=
  Release.Names.mem_listed

/-- A plain name without blanks at its ends is read as it is. -/
theorem word_of_trimmed {name : PyStr} (hne : name ≠ []) (hplain : name.all isPlainPoint = true)
    (htrimmed : Trimmed name) : word (quotePath name) = some (quotePath name) := by
  have hname := quotePath_plain hplain
  have hblank {c : Char} (hmem : scalar c ∈ name) (hspace : isPySpace c = true) : c = ' ' :=
    Release.Names.isSpace_of_isPlainPoint (List.all_eq_true.mp hplain _ hmem) hspace
  have htrim : Trim (quotePath name) := by
    constructor
    · intro hnil
      rw [hnil] at hname
      exact hne hname.symm
    · intro c hc
      have hmem : name.head? = some (scalar c) := by
        rw [← hname, List.head?_map, hc, Option.map_some]
      rw [Bool.eq_false_iff]
      intro hspace
      rw [hblank (List.mem_of_head? hmem) hspace] at hmem
      exact htrimmed.head hmem
    · intro c hc
      have hmem : name.getLast? = some (scalar c) := by
        rw [← hname, List.getLast?_map, hc, Option.map_some]
      rw [Bool.eq_false_iff]
      intro hspace
      rw [hblank (List.mem_of_getLast? hmem) hspace] at hmem
      exact htrimmed.last hmem
  rw [word, htrim.strip, if_neg htrim.ne_nil]

/-- Where the scope that is read is the planned one, the changed files are the planned ones if and
only if their names have no blanks at their ends. -/
theorem scope_exact_iff (hvalid : m.Valid) (hscope : r.collectPublicScope = m.expectedPublicPaths) :
    (∀ path, path ∈ r.changed ++ r.untracked ↔ path ∈ m.expectedPublicPaths) ↔
      ∀ name ∈ r.changed ++ r.untracked, Trimmed name := by
  have hnormal := hvalid.expectedPublic.normal
  constructor
  · intro h name hname
    have hmem := (h name).mp hname
    refine ⟨?_, fun hlast => ?_⟩
    · rw [← hscope, mem_collectPublicScope] at hmem
      obtain ⟨name', -, line, hword, rfl⟩ := hmem
      obtain ⟨hline, -⟩ := Release.Names.word_eq_some hword
      intro hhead
      obtain ⟨c, hc, he⟩ := Option.map_eq_some_iff.mp ((List.head?_map ..).symm.trans hhead)
      obtain ⟨rest, hrest⟩ : ∃ rest, line = c :: rest := ⟨line.tail, (List.cons_head?_tail hc).symm⟩
      have hspace := head_stripChars (hline.symm.trans hrest)
      rw [scalar.inj he] at hspace
      exact absurd hspace (by decide)
    · have hlast := (hnormal name hmem).last _ hlast
      exact absurd hlast (by decide)
  · intro h
    have hread : ∀ name ∈ r.changed ++ r.untracked, name ∈ m.expectedPublicPaths ∧
        word (quotePath name) = some (quotePath name) ∧ (quotePath name).map scalar = name := by
      intro name hname
      have hplain : name.all isPlainPoint = true := by
        -- a name that is quoted has a backslash, and no planned path has one
        by_contra hquoted
        rw [Bool.not_eq_true] at hquoted
        have hbackslash := mem_stripChars (by decide) (backslash_mem_quotePath hquoted)
        have hword : word (quotePath name) = some (stripChars (quotePath name)) := by
          rw [word, if_neg (List.ne_nil_of_mem hbackslash)]
        have hlisted := mem_collectPublicScope.mpr ⟨name, hname, _, hword, rfl⟩
        rw [hscope] at hlisted
        exact (hnormal _ hlisted).noBackslash (List.mem_map.mpr ⟨'\\', hbackslash, rfl⟩)
      have hne := r.named name (List.mem_append_left _ hname)
      have hword := word_of_trimmed hne hplain (h name hname)
      have hname' := quotePath_plain hplain
      refine ⟨?_, hword, hname'⟩
      rw [← hscope, mem_collectPublicScope]
      exact ⟨name, hname, _, hword, hname'⟩
    intro path
    refine ⟨fun hpath => (hread path hpath).1, fun hpath => ?_⟩
    rw [← hscope, mem_collectPublicScope] at hpath
    obtain ⟨name, hname, line, hword, rfl⟩ := hpath
    obtain ⟨-, hword', hname'⟩ := hread name hname
    rw [hword'] at hword
    obtain rfl := Option.some.inj hword
    exact hname'.symm ▸ hname

/-! ### Staged names -/

theorem word_eq_none_iff {line : List Char} : word line = none ↔ ∀ c ∈ line, isPySpace c = true := by
  unfold word
  constructor
  · intro h c hc
    split_ifs at h with hnil
    by_contra hspace
    exact List.ne_nil_of_mem (mem_stripChars (Bool.eq_false_iff.mpr hspace) hc) hnil
  · intro h
    have hnil : stripChars ([] ++ line) = stripChars [] := stripChars_append h []
    exact if_pos hnil

theorem word_quotePath_eq_none_iff {name : PyStr} :
    word (quotePath name) = none ↔ ∀ c ∈ name, c = scalar ' ' := by
  rw [word_eq_none_iff]
  constructor
  · intro h
    have hplain : name.all isPlainPoint = true := by
      by_contra hquoted
      have hspace := h _ (backslash_mem_quotePath (Bool.eq_false_iff.mpr hquoted))
      exact absurd hspace (by decide)
    intro c hc
    have hpoint := List.all_eq_true.mp hplain c hc
    rw [← quotePath_plain hplain] at hc
    obtain ⟨d, hd, rfl⟩ := List.mem_map.mp hc
    exact congrArg scalar (Release.Names.isSpace_of_isPlainPoint hpoint (h d hd))
  · intro h d hd
    have hplain : name.all isPlainPoint = true := List.all_eq_true.mpr fun c hc => by
      rw [h c hc]
      decide
    have hmem : scalar d ∈ name := quotePath_plain hplain ▸ List.mem_map_of_mem hd
    rw [scalar.inj (h _ hmem)]
    decide

/-- No line is listed if and only if nothing but blanks is printed. -/
theorem rows_printNames_eq_nil_iff {names : List PyStr} :
    rows (stripChars (printNames names)) = [] ↔ ∀ name ∈ names, word (quotePath name) = none := by
  constructor
  · intro h
    have hwords : words (stripChars (printNames names)) = [] := by
      rw [words, List.filterMap_eq_nil_iff]
      intro line hline
      have hrow := List.filterMap_eq_nil_iff.mp h line hline
      rw [row] at hrow
      split_ifs at hrow with hnil
      rw [hnil]
      rfl
    rw [words_eq (feeds_printNames names).strip, feedWords_strip, feedWords_printNames,
      List.filterMap_eq_nil_iff] at hwords
    exact hwords
  · intro h
    have hspace : ∀ c ∈ printNames names, isPySpace c = true := by
      intro c hc
      obtain ⟨name, hname, hc⟩ := List.mem_flatMap.mp hc
      rcases List.mem_append.mp hc with hc | hc
      · exact word_eq_none_iff.mp (h name hname) c hc
      · rw [List.mem_singleton.mp hc]
        decide
    have hnil : stripChars ([] ++ printNames names) = stripChars [] := stripChars_append hspace []
    rw [List.nil_append] at hnil
    rw [hnil]
    rfl

theorem collectStagedScope_eq_nil_iff :
    r.collectStagedScope = [] ↔ ∀ name ∈ r.staged, ∀ c ∈ name, c = scalar ' ' := by
  have hsorted {paths : List PyStr} : sorted paths = [] ↔ paths = [] := by
    have hperm : (sorted paths).Perm paths := List.perm_insertionSort _ _
    constructor
    · intro h
      rw [h] at hperm
      exact hperm.symm.eq_nil
    · rintro rfl
      rfl
  rw [Repo.collectStagedScope, readNames, hsorted, List.map_eq_nil_iff, rows_printNames_eq_nil_iff]
  exact forall₂_congr fun _ _ => word_quotePath_eq_none_iff

end Names

/-! ### What is inspected -/

section Inspection

variable {env : Env} {m : Manifest} {s t : State}

/-- The manifest's commit is checked out on its branch, and its tracking reference is there. -/
structure Repo.AtBase (m : Manifest) (r : Repo) : Prop where
  branch : PyStr.ofString r.branch = m.expectedBranch
  head : PyStr.ofString r.head = m.expectedBaseCommit
  tracking : r.resolve m.trackingRef = some r.head

/-- The digests of the direct files. -/
def HasDigests (env : Env) (m : Manifest) (s : State) (hashes : List (PyStr × Digest)) : Prop :=
  List.Forall₂ (fun path entry => entry.1 = path ∧ HasDigest env s path entry.2) m.directRepoPaths hashes

/-- What an inspection has seen. -/
structure Inspected (env : Env) (m : Manifest) (s : State) (start : Start) : Prop where
  atBase : ∃ r, s.repo = some r ∧ r.AtBase m ∧ env.counts r.head r.head = (0, 0) ∧
    r.collectStagedScope = [] ∧ start.actual = r.collectPublicScope ∧ start.branch = r.branch ∧
      start.head = r.head
  notPrivate : ∀ path ∈ start.actual, isPrivatePath path = false
  state : start.state = m.stateOf start.actual
  known : start.state ≠ .blockedScopeMismatch
  hashes : HasDigests env m s start.hashes

theorem tracking_eq_ok_iff {r : Repo} {c : Oid} :
    r.tracking m = .ok c ↔ r.resolve m.trackingRef = some c := by
  unfold Repo.tracking
  rcases r.resolve m.trackingRef with - | c'
  · exact iff_of_false nofun nofun
  · exact ⟨fun h => congrArg some (Except.ok.inj h), fun h => congrArg Except.ok (Option.some.inj h)⟩

theorem git_eq_ok_iff {r : Repo} : s.git = .ok r ↔ s.repo = some r := by
  unfold State.git
  rcases s.repo with - | r'
  · exact iff_of_false nofun nofun
  · exact ⟨fun h => congrArg some (Except.ok.inj h), fun h => congrArg Except.ok (Option.some.inj h)⟩

theorem inspect_eq_ok_iff {start : Start} : inspect env m s = .ok start ↔ Inspected env m s start := by
  unfold inspect
  simp only [bind_eq_ok, check_eq_ok_iff, exists_const, git_eq_ok_iff, tracking_eq_ok_iff, decide_eq_true_eq,
    fileHashes_eq_ok_iff]
  constructor
  · rintro ⟨r, hr, c, hc, hbranch, hhead, htracking, hcounts, hstaged, hprivate, hknown, hashes,
      hhashes, h⟩
    obtain rfl := Except.ok.inj h
    obtain rfl : c = r.head := PyStr.ofString_injective (htracking.trans hhead.symm)
    generalize hactual : r.collectPublicScope = actual at hprivate hknown
    refine ⟨⟨r, hr, ⟨hbranch, hhead, hc⟩, hcounts, hstaged, hactual.symm, rfl, rfl⟩, ?_, rfl, hknown,
      hhashes⟩
    intro path hpath
    simpa using List.all_eq_true.mp hprivate path hpath
  · rintro ⟨⟨r, hr, hbase, hcounts, hstaged, hactual, hbranch, hhead⟩, hprivate, hstate, hknown, hhashes⟩
    refine ⟨r, hr, r.head, hbase.tracking, hbase.branch, hbase.head, hbase.head, hcounts, hstaged,
      ?_, ?_, start.hashes, hhashes, ?_⟩
    · rw [← hactual]
      exact List.all_eq_true.mpr fun path hpath => by rw [hprivate path hpath]; rfl
    · rw [← hactual, ← hstate]
      exact hknown
    · obtain ⟨branch, head, actual, state, hashes⟩ := start
      replace hactual : actual = r.collectPublicScope := hactual
      replace hstate : state = m.stateOf actual := hstate
      subst hactual hbranch hhead hstate
      rfl

/-- What the inspection after the helper has seen. -/
structure InspectedAgain (env : Env) (m : Manifest) (start : Start) (t : State) (r : Repo) : Prop where
  repo : t.repo = some r
  installed : m.stateOf r.collectPublicScope = .installed
  hashes : ∃ hashes, HasDigests env m t hashes ∧ changedDirect start.hashes hashes = []
  staged : r.collectStagedScope = []

/-- The report on a repository that is installed. -/
def installedReport (start : Start) (r : Repo) (helper : Bool) : Report where
  statusCode := .installed
  installed := true
  head := start.head
  branch := start.branch
  stateBefore := start.state
  actualBefore := start.actual
  actualAfter := r.collectPublicScope
  stagedPaths := []
  helper

theorem InspectedAgain.report {start : Start} {r : Repo} (h : InspectedAgain env m start t r)
    (apply helper : Bool) :
    inspectAgain env m apply start t helper = .ok (installedReport start r helper) := by
  obtain ⟨hr, hinstalled, ⟨hashes, hhashes, hchanged⟩, hstaged⟩ := h
  unfold inspectAgain
  simp only [bind_eq_ok, check_eq_ok_iff, exists_const, git_eq_ok_iff, decide_eq_true_eq,
    fileHashes_eq_ok_iff, Bool.or_eq_true]
  refine ⟨r, hr, .inr hinstalled, hashes, hhashes, hchanged, hstaged, ?_⟩
  rw [hinstalled, hstaged]
  rfl

theorem inspectAgain_eq_ok_iff {start : Start} {helper : Bool} {report : Report} :
    inspectAgain env m true start t helper = .ok report ↔
      ∃ r, InspectedAgain env m start t r ∧ report = installedReport start r helper := by
  constructor
  · unfold inspectAgain
    simp only [bind_eq_ok, check_eq_ok_iff, exists_const, git_eq_ok_iff, decide_eq_true_eq,
      fileHashes_eq_ok_iff, Bool.not_true, Bool.false_or]
    rintro ⟨r, hr, hinstalled, hashes, hhashes, hchanged, hstaged, h⟩
    refine ⟨r, ⟨hr, hinstalled, ⟨hashes, hhashes, hchanged⟩, hstaged⟩, ?_⟩
    obtain rfl := Except.ok.inj h
    rw [hinstalled, hstaged]
    rfl
  · rintro ⟨r, h, rfl⟩
    exact h.report true helper

/-- **An installation that succeeds has inspected the tree before its helper, and the scope, the
direct files and the index after it.** -/
theorem inspectOrInstall_eq_ok_iff {token : PyStr} {ending : Ending} {report : Report} :
    inspectOrInstall env m true token s ending = .ok (report, t) ↔
      ∃ start helper r, Inspected env m s start ∧
        helperStep m true token s ending start = .ok (t, helper) ∧
          InspectedAgain env m start t r ∧ report = installedReport start r helper := by
  unfold inspectOrInstall
  simp only [bind_eq_ok, inspect_eq_ok_iff, inspectAgain_eq_ok_iff]
  constructor
  · rintro ⟨start, hstart, ⟨t', helper⟩, hstep, report', ⟨r, hr, rfl⟩, h⟩
    obtain ⟨rfl, rfl⟩ := Prod.mk.inj (Except.ok.inj h)
    exact ⟨start, helper, r, hstart, hstep, hr, rfl⟩
  · rintro ⟨start, helper, r, hstart, hstep, hr, rfl⟩
    exact ⟨start, hstart, (t, helper), hstep, _, ⟨r, hr, rfl⟩, rfl⟩

end Inspection

end Konoha.Installation
