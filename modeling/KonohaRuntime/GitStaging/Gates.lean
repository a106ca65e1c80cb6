/-
GitStaging/Gates.lean

The two gates before `git add`: `git-plan` and `git-stage` of the beta runtime, which forbid paths by
patterns, and the staging gate, which has an allowlist and a blocklist.

Both test the arguments.  `git add -- p` takes what lies at `p`, below it, or is matched by it;
`guarded_iff` says when this makes no difference.
-/
import KonohaRuntime.TaskContract.Patterns

namespace Konoha.GitStaging

open CodePoint
open TaskContract (lowerPoint slashes)

/-! ### The patterns of the beta runtime -/

/-- A letter without its case, as `re.IGNORECASE` compares it with ASCII: `ſ` is an s, `İ` and `ı`
are an i, and the Kelvin sign is a k. -/
def foldPoint : CodePoint → CodePoint
  | scalar c =>
      if c = '\u017f' then scalar 's'
      else if c = '\u0130' ∨ c = '\u0131' then scalar 'i'
      else if c = '\u212a' then scalar 'k'
      else scalar c.toLower
  | surrogate n => surrogate n

/-- `re.search(text, s)` -/
def occurs (text : String) (s : PyStr) : Bool := decide (PyStr.ofString text <:+: s)

/-- `(^|[/\\])text($|[/\\])`, in a string with slashes -/
def hasComponent (text : String) (s : PyStr) : Bool :=
  let components := s.splitOn (scalar '/')
  components.contains (PyStr.ofString text) ||
    components.getLast? = some (PyStr.ofString text ++ [scalar '\n'])

/-- `(^|[/\\])text` -/
def hasComponentPrefix (text : String) (s : PyStr) : Bool :=
  (s.splitOn (scalar '/')).any fun component => (PyStr.ofString text).isPrefixOf component

/-- What stands before the end that `$` matches. -/
def beforeEnd (s : PyStr) : PyStr :=
  if s.getLast? = some (scalar '\n') then s.dropLast else s

/-- `(^|[/\\]).*text.*suffix$`: the dots match no line feed. -/
def hasNamed (text suffix : String) (s : PyStr) : Bool :=
  let s := beforeEnd s
  (PyStr.ofString suffix).isSuffixOf s &&
    let body := s.take (s.length - suffix.length)
    if body.contains (scalar '\n') then
      let line := body.rtakeWhile (· ≠ scalar '\n')
      occurs text ((line.dropWhile (· ≠ scalar '/')).drop 1)
    else occurs text body

/-- `FORBIDDEN_GIT_PATH_PATTERNS`, of a string with slashes and without case -/
def forbiddenPatterns : List (PyStr → Bool) :=
  [hasComponent ".git", hasComponentPrefix ".env", occurs "secret", occurs "credential",
    fun s => hasComponent "token" s || hasComponent "tokens" s,
    fun s => [".txt", ".key", ".pem", ".env"].any fun suffix => hasNamed "token" suffix s,
    occurs "private-library", occurs "alliance/kirigakure", hasComponent "vault"]

/-- `validate_git_paths`, of one path -/
def isForbidden (path : PyStr) : Bool :=
  forbiddenPatterns.any fun pattern => pattern ((slashes path).map foldPoint)

/-- `validate_git_paths` -/
def validateGitPaths (paths : List PyStr) : Except PyExc Unit :=
  if paths.any isForbidden then .error (.osError "Forbidden Git path") else .ok ()

/-- The paths of `--paths`, which are in the plan that `cmd_git_plan` writes. -/
def planPaths (argument : PyStr) : List PyStr :=
  ((argument.splitOn (scalar ',')).map PyStr.strip).filter (· ≠ [])

/-- `cmd_git_plan` and `cmd_git_stage`, up to the `git add` of each path -/
def betaGate (argument : PyStr) : Except PyExc (List PyStr) := do
  validateGitPaths (planPaths argument)
  validateGitPaths (planPaths argument)
  return planPaths argument

/-! ### The staging gate -/

/-- `ALLOWED_PREFIXES` -/
def allowedPrefixes : List String :=
  ["docs/", "scrolls/", "examples/", "runtime/templates/", "schemas/runtime/", "tools/", "tests/"]

/-- `ALLOWED_ROOT_FILES` -/
def allowedRootFiles : List String :=
  ["README.md", "CHANGELOG.md", "AGENTS.md", "CONTRIBUTING.md", "SECURITY.md",
    "CODE_OF_CONDUCT.md"]

/-- `BLOCKED_PREFIXES` -/
def blockedPrefixes : List String :=
  ["alliance/kirigakure/", "alliance/", "vault/", "memory/local/", "assets/private/",
    "sandbox/runs/", "sandbox/tmp/", "secrets/", "credentials/", ".git/"]

/-- `BLOCKED_FRAGMENTS` -/
def blockedFragments : List String := ["private-library", "private_context", "local_context", ".env"]

/-- `normalize_repo_path`: the parts of a relative path without `..`, joined again -/
def normalizeRepoPath (raw : PyStr) : Except PyExc PyStr :=
  let cleaned := slashes raw.strip
  if cleaned = [] then .error (.exception "Empty path is not allowed.")
  else if cleaned.head? = some (scalar '/') then .error (.exception "Absolute path is not allowed")
  else
    let parts := (cleaned.splitOn (scalar '/')).filter fun part => part ≠ [] ∧ part ≠ [scalar '.']
    if parts.contains [scalar '.', scalar '.'] then
      .error (.exception "Path traversal is not allowed")
    else if parts = [] then .error (.exception "Ambiguous repo path is not allowed")
    else .ok ([scalar '/'].intercalate parts)

/-- `is_allowlisted` -/
def isAllowlisted (path : PyStr) : Bool :=
  allowedRootFiles.any (fun file => path = .ofString file) ||
    allowedPrefixes.any fun p => (PyStr.ofString p).isPrefixOf path

/-- `is_blocked_private_or_local` -/
def isBlockedPrivateOrLocal (path : PyStr) : Bool :=
  let lower := path.map lowerPoint
  blockedPrefixes.any (fun p => (PyStr.ofString p).isPrefixOf lower) ||
    blockedFragments.any fun fragment => occurs fragment lower

/-- What the gates know of the working tree, and what git does with it. -/
structure Tree where
  /-- the changed files that are not ignored -/
  changed : List PyStr
  /-- `(repo_root / path).exists()` -/
  present : PyStr → Bool
  /-- `git check-ignore` -/
  ignored : PyStr → Bool
  /-- the file is matched by an argument of `git add` as a pattern, or by another spelling -/
  pathspec : PyStr → PyStr → Bool

/-- One turn of `validate_paths` -/
def validatePath (tree : Tree) (paths : List PyStr) (raw : PyStr) : Except PyExc (List PyStr) := do
  let path ← normalizeRepoPath raw
  if paths.contains path then return paths
  else if isBlockedPrivateOrLocal path then
    .error (.exception "Path is private, local-only, or blocked")
  else if !isAllowlisted path then .error (.exception "Path is not in the staging allowlist")
  else if !tree.present path then
    .error (.exception "Path does not exist and will not be staged")
  else if tree.ignored path then .error (.exception "Path is ignored and will not be staged")
  else return paths ++ [path]

/-- `validate_paths` -/
def validatePaths (tree : Tree) (raws : List PyStr) : Except PyExc (List PyStr) := do
  let paths ← raws.foldlM (validatePath tree) []
  if paths = [] then .error (.exception "At least one path is required.") else return paths

/-! ### `git add` -/

namespace Tree

variable (tree : Tree)

/-- `git add -- path` takes the file. -/
def Takes (path file : PyStr) : Prop :=
  file = path ∨ path ++ [scalar '/'] <+: file ∨ tree.pathspec path file = true

/-- The file becomes staged. -/
def Staged (paths : List PyStr) (file : PyStr) : Prop :=
  file ∈ tree.changed ∧ ∃ path ∈ paths, tree.Takes path file

/-- The file is taken, but not by its own name. -/
def Swept (paths : List PyStr) (file : PyStr) : Prop :=
  file ∈ tree.changed ∧ ∃ path ∈ paths, file ≠ path ∧ tree.Takes path file

end Tree

/-- No staged file has a path that the gate refuses as an argument. -/
def Guarded (tree : Tree) (refuses : PyStr → Bool) (paths : List PyStr) : Prop :=
  ∀ file, tree.Staged paths file → refuses file = false

/-- `is_blocked_private_or_local(path) or not is_allowlisted(path)` -/
def isRefused (path : PyStr) : Bool := isBlockedPrivateOrLocal path || !isAllowlisted path

/-- A directory of the allowlist sweeps in no file with a blocked fragment in its path, what has the
name of a root file is no directory, and a pattern matches no refused file. -/
structure Contained (tree : Tree) (paths : List PyStr) : Prop where
  below : ∀ path ∈ paths, ∀ file ∈ tree.changed, path ++ [scalar '/'] <+: file →
    (∀ root ∈ allowedRootFiles, path ≠ .ofString root) ∧
      ∀ fragment ∈ blockedFragments, occurs fragment (file.map lowerPoint) = false
  matched : ∀ path ∈ paths, ∀ file ∈ tree.changed, file ≠ path → tree.pathspec path file = true →
    isRefused file = false

/-! ### What the gates accept -/

theorem guarded_iff_swept {tree : Tree} {refuses : PyStr → Bool} {paths : List PyStr}
    (h : ∀ path ∈ paths, refuses path = false) :
    Guarded tree refuses paths ↔ ∀ file, tree.Swept paths file → refuses file = false := by
  constructor
  · rintro hguarded file ⟨hchanged, path, hpath, -, htakes⟩
    exact hguarded file ⟨hchanged, path, hpath, htakes⟩
  · rintro hswept file ⟨hchanged, path, hpath, htakes⟩
    by_cases hfile : file = path
    · rw [hfile]
      exact h path hpath
    · exact hswept file ⟨hchanged, path, hpath, hfile, htakes⟩

theorem betaGate_eq_ok {argument : PyStr} {paths : List PyStr}
    (h : betaGate argument = .ok paths) : ∀ path ∈ paths, isForbidden path = false := by
  obtain ⟨_, hvalid, h⟩ := bind_eq_ok.mp h
  obtain ⟨_, -, h⟩ := bind_eq_ok.mp h
  obtain rfl := Except.ok.inj h
  unfold validateGitPaths at hvalid
  split_ifs at hvalid with hforbidden
  intro path hpath
  by_contra hpathForbidden
  rw [Bool.not_eq_false] at hpathForbidden
  exact hforbidden (List.any_eq_true.mpr ⟨path, hpath, hpathForbidden⟩)

theorem isRefused_eq_false_iff {path : PyStr} : isRefused path = false ↔
    isBlockedPrivateOrLocal path = false ∧ isAllowlisted path = true := by
  rw [isRefused, Bool.or_eq_false_iff, Bool.not_eq_false']

theorem validatePath_eq_ok {tree : Tree} {paths paths' : List PyStr} {raw : PyStr}
    (h : validatePath tree paths raw = .ok paths') (hpaths : ∀ path ∈ paths, isRefused path = false) :
    ∀ path ∈ paths', isRefused path = false := by
  obtain ⟨path, -, h⟩ := bind_eq_ok.mp h
  split_ifs at h with hseen hblocked hallowed hexists hignored
  · obtain rfl := Except.ok.inj h
    exact hpaths
  · obtain rfl := Except.ok.inj h
    intro path' hpath'
    rcases List.mem_append.mp hpath' with hpath' | hpath'
    · exact hpaths path' hpath'
    · rw [List.mem_singleton.mp hpath', isRefused_eq_false_iff]
      exact ⟨Bool.eq_false_iff.mpr hblocked, by simpa using hallowed⟩

theorem validatePaths_eq_ok {tree : Tree} {raws paths : List PyStr}
    (h : validatePaths tree raws = .ok paths) : ∀ path ∈ paths, isRefused path = false := by
  have hfold : ∀ start, (∀ path ∈ start, isRefused path = false) → ∀ paths,
      raws.foldlM (validatePath tree) start = .ok paths → ∀ path ∈ paths, isRefused path = false := by
    clear h
    induction raws with
    | nil =>
      intro start hstart paths h
      obtain rfl := Except.ok.inj h
      exact hstart
    | cons raw raws ih =>
      intro start hstart paths h
      rw [List.foldlM_cons] at h
      obtain ⟨next, hnext, h⟩ := bind_eq_ok.mp h
      exact ih next (validatePath_eq_ok hnext hstart) paths h
  obtain ⟨paths', hpaths', h⟩ := bind_eq_ok.mp h
  split_ifs at h
  obtain rfl := Except.ok.inj h
  exact hfold [] (fun _ h => nomatch h) paths' hpaths'

/-! ### Below a directory of the allowlist -/

theorem not_blocked_of_allowed {file : PyStr} {p : String} (hp : p ∈ allowedPrefixes)
    (h : PyStr.ofString p <+: file) {b : String} (hb : b ∈ blockedPrefixes) :
    ¬ PyStr.ofString b <+: file.map lowerPoint := by
  intro hblocked
  have hlower : (PyStr.ofString p).map lowerPoint <+: file.map lowerPoint := h.map lowerPoint
  have hapart : ∀ p ∈ allowedPrefixes, ∀ b ∈ blockedPrefixes,
      ¬ (PyStr.ofString p).map lowerPoint <+: PyStr.ofString b ∧
        ¬ PyStr.ofString b <+: (PyStr.ofString p).map lowerPoint := by
    decide +kernel
  rcases List.prefix_or_prefix_of_prefix hlower hblocked with hprefix | hprefix
  · exact (hapart p hp b hb).1 hprefix
  · exact (hapart p hp b hb).2 hprefix

/-- What lies below the name of a root file is not in the allowlist. -/
theorem not_allowlisted_below_root {file : PyStr} {root : String} (hroot : root ∈ allowedRootFiles)
    (h : PyStr.ofString root ++ [scalar '/'] <+: file) : isAllowlisted file = false := by
  have hfiles : ∀ root ∈ allowedRootFiles, ∀ other ∈ allowedRootFiles,
      ¬ PyStr.ofString root ++ [scalar '/'] <+: PyStr.ofString other := by
    decide +kernel
  have hprefixes : ∀ root ∈ allowedRootFiles, ∀ p ∈ allowedPrefixes,
      ¬ PyStr.ofString root ++ [scalar '/'] <+: PyStr.ofString p ∧
        ¬ PyStr.ofString p <+: PyStr.ofString root ++ [scalar '/'] := by
    decide +kernel
  rw [isAllowlisted, Bool.or_eq_false_iff, List.any_eq_false, List.any_eq_false]
  constructor
  · intro other hother hfile
    rw [of_decide_eq_true hfile] at h
    exact hfiles root hroot other hother h
  · intro p hp hprefix
    rw [List.isPrefixOf_iff_prefix] at hprefix
    rcases List.prefix_or_prefix_of_prefix h hprefix with hle | hle
    · exact (hprefixes root hroot p hp).1 hle
    · exact (hprefixes root hroot p hp).2 hle

/-- What lies below an accepted argument is refused for a fragment, or because the argument has the
name of a root file. -/
theorem isRefused_below_iff {path file : PyStr} (hpath : isRefused path = false)
    (hbelow : path ++ [scalar '/'] <+: file) : isRefused file = false ↔
      (∀ root ∈ allowedRootFiles, path ≠ .ofString root) ∧
        ∀ fragment ∈ blockedFragments, occurs fragment (file.map lowerPoint) = false := by
  obtain ⟨-, hallowed⟩ := isRefused_eq_false_iff.mp hpath
  rw [isRefused_eq_false_iff, isBlockedPrivateOrLocal, Bool.or_eq_false_iff]
  constructor
  · rintro ⟨⟨-, hfragments⟩, hfile⟩
    refine ⟨?_, fun fragment h => Bool.eq_false_iff.mpr (List.any_eq_false.mp hfragments fragment h)⟩
    rintro root hroot rfl
    rw [not_allowlisted_below_root hroot hbelow] at hfile
    cases hfile
  · rintro ⟨hroots, hfragments⟩
    obtain ⟨p, hp, hprefix⟩ : ∃ p ∈ allowedPrefixes, PyStr.ofString p <+: file := by
      rcases Bool.or_eq_true_iff.mp hallowed with hroot | hprefix
      · obtain ⟨root, hroot, hpath⟩ := List.any_eq_true.mp hroot
        exact absurd (of_decide_eq_true hpath) (hroots root hroot)
      · obtain ⟨p, hp, hprefix⟩ := List.any_eq_true.mp hprefix
        exact ⟨p, hp, ((List.isPrefixOf_iff_prefix.mp hprefix).trans
          (List.prefix_append _ _)).trans hbelow⟩
    refine ⟨⟨List.any_eq_false.mpr fun b hb hblocked => ?_, List.any_eq_false.mpr fun fragment h => ?_⟩,
      Bool.or_eq_true_iff.mpr (.inr (List.any_eq_true.mpr
        ⟨p, hp, List.isPrefixOf_iff_prefix.mpr hprefix⟩))⟩
    · exact not_blocked_of_allowed hp hprefix hb (List.isPrefixOf_iff_prefix.mp hblocked)
    · rw [hfragments fragment h]
      decide

/-- **What becomes staged is what the gates would accept, if and only if nothing else is swept in
with the arguments.** -/
theorem guarded_iff (tree : Tree) :
    (∀ argument paths, betaGate argument = .ok paths →
      (Guarded tree isForbidden paths ↔
        ∀ file, tree.Swept paths file → isForbidden file = false)) ∧
    ∀ raws paths, validatePaths tree raws = .ok paths →
      (Guarded tree isRefused paths ↔ Contained tree paths) := by
  refine ⟨fun argument paths h => guarded_iff_swept (betaGate_eq_ok h), fun raws paths h => ?_⟩
  have hpaths := validatePaths_eq_ok h
  rw [guarded_iff_swept hpaths]
  constructor
  · intro hswept
    constructor
    · intro path hpath file hfile hbelow
      have hne : file ≠ path := by
        rintro rfl
        have := hbelow.length_le
        rw [List.length_append, List.length_singleton] at this
        omega
      exact (isRefused_below_iff (hpaths path hpath) hbelow).mp
        (hswept file ⟨hfile, path, hpath, hne, .inr (.inl hbelow)⟩)
    · intro path hpath file hfile hne hmatched
      exact hswept file ⟨hfile, path, hpath, hne, .inr (.inr hmatched)⟩
  · rintro hcontained file ⟨hfile, path, hpath, hne, htakes⟩
    obtain htakes | hbelow | hmatched := htakes
    · exact absurd htakes hne
    · exact (isRefused_below_iff (hpaths path hpath) hbelow).mpr
        (hcontained.below path hpath file hfile hbelow)
    · exact hcontained.matched path hpath file hfile hne hmatched

/-- A tree with a private file in each of two directories. -/
def sampleTree : Tree where
  changed := [.ofString "config/.env", .ofString "docs/a/.env"]
  present _ := true
  ignored _ := false
  pathspec _ _ := false

theorem betaGate_config : betaGate (.ofString "config") = .ok [.ofString "config"] := by
  rfl

theorem validatePaths_docs :
    validatePaths sampleTree [.ofString "docs/a"] = .ok [.ofString "docs/a"] := by
  rfl

/-- A directory is accepted, and the private file in it is staged. -/
theorem directory_stages_private :
    (betaGate (.ofString "config") = .ok [.ofString "config"] ∧
      sampleTree.Staged [.ofString "config"] (.ofString "config/.env") ∧
      isForbidden (.ofString "config/.env") = true) ∧
    validatePaths sampleTree [.ofString "docs/a"] = .ok [.ofString "docs/a"] ∧
      sampleTree.Staged [.ofString "docs/a"] (.ofString "docs/a/.env") ∧
      isRefused (.ofString "docs/a/.env") = true := by
  refine ⟨⟨betaGate_config, ⟨.head _, _, .head _, .inr (.inl ⟨PyStr.ofString ".env", rfl⟩)⟩, ?_⟩,
    validatePaths_docs, ⟨.tail _ (.head _), _, .head _, .inr (.inl ⟨PyStr.ofString ".env", rfl⟩)⟩, ?_⟩
  · decide +kernel
  · decide +kernel

theorem sampleTree_guarded_iff :
    (Guarded sampleTree isForbidden [.ofString "config"] ↔
      ∀ file, sampleTree.Swept [.ofString "config"] file → isForbidden file = false) ∧
    (Guarded sampleTree isRefused [.ofString "docs/a"] ↔
      Contained sampleTree [.ofString "docs/a"]) :=
  ⟨(guarded_iff sampleTree).1 _ _ betaGate_config, (guarded_iff sampleTree).2 _ _ validatePaths_docs⟩

end Konoha.GitStaging
