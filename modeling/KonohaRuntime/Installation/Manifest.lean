/-
Installation/Manifest.lean

The manifest of a supervised package installation: which files the package brings, which ones its
helper may change, and on which commit and branch.
-/
import KonohaRuntime.Release.Names
import KonohaRuntime.TaskContract.Contract

namespace Konoha.Installation

open CodePoint
open PyJson (field)
open Release.Names (sorted normalizeRelativePath isPrivatePath Accepted Normal)

/-- `dict` -/
abbrev PyDict := List (PyStr × PyJson)

/-! ### `validate_manifest` -/

/-- One turn of the loop of `normalize_manifest_paths` -/
def manifestPath (name : String) (raw : PyJson) (index : Nat) : Except PyExc PyStr :=
  match raw with
  | .str text =>
      match normalizeRelativePath text with
      | none => .error (.exception (name ++ "[" ++ toString index ++ "] is invalid"))
      | some path =>
          if path = [scalar '.'] then
            .error (.exception (name ++ "[" ++ toString index ++ "] is invalid"))
          else if isPrivatePath path then
            .error (.exception (name ++ "[" ++ toString index ++ "] points to blocked context"))
          else .ok path
  | _ => .error (.exception (name ++ "[" ++ toString index ++ "] is invalid"))

/-- `normalize_manifest_paths` -/
def normalizeManifestPaths (name : String) (raw : PyJson) : Except PyExc (List PyStr) := do
  match raw with
  | .arr (first :: rest) => do
      let normalized ← (first :: rest).zipIdx.mapM fun item => manifestPath name item.1 item.2
      if normalized.Nodup then return sorted normalized
      else .error (.exception (name ++ " contains duplicate paths"))
  | _ => .error (.exception (name ++ " must be a non-empty list"))

/-- `required`, sorted -/
def requiredFields : List String :=
  ["authority", "direct_repo_paths", "expected_base_commit", "expected_branch",
    "expected_public_paths", "helper_approval_token", "helper_modified_paths", "helper_path",
    "installation_id", "report_type", "schema_version", "tracking_ref"]

/-- `required_authority` -/
def requiredAuthority : List String :=
  ["manifest_is_not_permission", "install_token_required", "helper_is_bounded",
    "git_operations_blocked", "network_access_blocked", "private_context_blocked"]

/-- `SAFE_ID_RE.fullmatch(value)` -/
def isSafeId : PyStr → Bool
  | scalar c :: s =>
      (c.isLower || c.isDigit) && s.length ≤ 95 && s.all fun
        | scalar c => c.isLower || c.isDigit || c ∈ ['.', '_', '-']
        | surrogate _ => false
  | _ => false

/-- `COMMIT_RE.fullmatch(value)` -/
def isCommit (value : PyStr) : Bool :=
  value.length = 40 && value.all fun
    | scalar c => isLowerHex c
    | surrogate _ => false

/-- `isinstance(value, str)`, and what it has to satisfy -/
def textField (v : PyJson) (holds : PyStr → Bool) (message : String) : Except PyExc PyStr :=
  match v with
  | .str text => if holds text then .ok text else .error (.exception message)
  | _ => .error (.exception message)

/-- `missing` -/
def missingFields (payload : PyDict) : List String :=
  requiredFields.filter fun key => !(payload.map (·.1)).contains (PyStr.ofString key)

/-- The `helper_path`, below `sandbox/` -/
def helperPathOf (v : PyJson) : Except PyExc PyStr :=
  let invalid := .error (.exception "helper_path must be a repository-relative path under sandbox")
  match v with
  | .str text =>
      match normalizeRelativePath text with
      | some path => if (PyStr.ofString "sandbox/").isPrefixOf path then .ok path else invalid
      | none => invalid
  | _ => invalid

/-- A manifest that `validate_manifest` returns. -/
structure Manifest where
  installationId : PyStr
  expectedBaseCommit : PyStr
  expectedBranch : PyStr
  trackingRef : PyStr
  directRepoPaths : List PyStr
  helperModifiedPaths : List PyStr
  expectedPublicPaths : List PyStr
  helperPath : PyStr
  helperApprovalToken : PyStr
  deriving DecidableEq

/-- `validate_manifest` -/
def validateManifest (payload : PyDict) : Except PyExc Manifest := do
  check (missingFields payload = [])
    (.exception ("manifest missing fields: " ++ ", ".intercalate (missingFields payload)))
  check ((field payload "schema_version").eqStr (.ofString "1.0.0"))
    (.exception "manifest schema_version must be 1.0.0")
  check ((field payload "report_type").eqStr (.ofString "supervised_package_installation_manifest"))
    (.exception "manifest report_type must be supervised_package_installation_manifest")
  let installationId ← textField (field payload "installation_id") isSafeId
    "installation_id is invalid"
  let base ← textField (field payload "expected_base_commit") isCommit
    "expected_base_commit must be 40 lowercase hex characters"
  let branch ← textField (field payload "expected_branch") PyStr.nonBlank
    "expected_branch must be non-empty text"
  let trackingRef ← textField (field payload "tracking_ref") PyStr.nonBlank
    "tracking_ref must be non-empty text"
  let direct ← normalizeManifestPaths "direct_repo_paths" (field payload "direct_repo_paths")
  let helperModified ← normalizeManifestPaths "helper_modified_paths"
    (field payload "helper_modified_paths")
  let expectedPublic ← normalizeManifestPaths "expected_public_paths"
    (field payload "expected_public_paths")
  check (direct.all fun path => !helperModified.contains path)
    (.exception "direct_repo_paths and helper_modified_paths overlap")
  check (sorted (direct ++ helperModified).dedup = expectedPublic) (.exception
    "expected_public_paths must equal the exact union of direct_repo_paths and helper_modified_paths")
  let helperPath ← helperPathOf (field payload "helper_path")
  let helperToken ← textField (field payload "helper_approval_token")
    (fun text => TaskContract.isToken (.str text)) "helper_approval_token is invalid"
  check (field payload "authority").isObj (.exception "manifest authority must be an object")
  requiredAuthority.forM fun key =>
    check (((field payload "authority").entry key).isBoolean true)
      (.exception ("manifest authority requires " ++ key ++ "=true"))
  return {
    installationId
    expectedBaseCommit := base
    expectedBranch := branch
    trackingRef
    directRepoPaths := direct
    helperModifiedPaths := helperModified
    expectedPublicPaths := expectedPublic
    helperPath
    helperApprovalToken := helperToken }

/-! ### What a manifest guarantees -/

/-- What is known of a manifest that is accepted. -/
structure Manifest.Valid (m : Manifest) : Prop where
  direct : Accepted m.directRepoPaths
  helperModified : Accepted m.helperModifiedPaths
  expectedPublic : Accepted m.expectedPublicPaths
  notPrivate : ∀ path ∈ m.expectedPublicPaths, isPrivatePath path = false
  disjoint : ∀ path ∈ m.directRepoPaths, path ∉ m.helperModifiedPaths
  union : ∀ path, path ∈ m.expectedPublicPaths ↔
    path ∈ m.directRepoPaths ∨ path ∈ m.helperModifiedPaths

theorem normal_of_manifestPath {name : String} {raw : PyJson} {index : Nat} {path : PyStr}
    (h : manifestPath name raw index = .ok path) : Normal path ∧ isPrivatePath path = false := by
  unfold manifestPath at h
  split at h
  · split at h
    · cases h
    · next path' hpath =>
        split_ifs at h with hdot hprivate
        obtain rfl := Except.ok.inj h
        exact ⟨Release.Names.normal_of_normalizeRelativePath hpath, Bool.eq_false_iff.mpr hprivate⟩
  · cases h

theorem accepted_of_normalizeManifestPaths {name : String} {raw : PyJson} {paths : List PyStr}
    (h : normalizeManifestPaths name raw = .ok paths) :
    Accepted paths ∧ ∀ path ∈ paths, isPrivatePath path = false := by
  unfold normalizeManifestPaths at h
  split at h
  · next first rest =>
      obtain ⟨normalized, hnormalized, h⟩ := bind_eq_ok.mp h
      split_ifs at h with hnodup
      obtain rfl := Except.ok.inj h
      have hperm : (sorted normalized).Perm normalized := List.perm_insertionSort _ _
      obtain ⟨hnormal, hlength⟩ := Release.Names.forall_of_mapM
        (P := fun path => Normal path ∧ isPrivatePath path = false)
        (fun item _ hitem => normal_of_manifestPath hitem) hnormalized
      have hall := fun path hpath => hnormal path (Release.Names.mem_sorted.mp hpath)
      refine ⟨⟨fun path hpath => (hall path hpath).1, hperm.nodup_iff.mpr hnodup,
        Release.Names.sorted_eq_of_perm hperm, fun hnil => ?_⟩, fun path hpath => (hall path hpath).2⟩
      rw [hnil] at hperm
      rw [← hperm.length_eq, List.length_zipIdx] at hlength
      cases hlength
  · cases h

theorem valid_of_validateManifest {payload : PyDict} {m : Manifest}
    (h : validateManifest payload = .ok m) : m.Valid := by
  unfold validateManifest at h
  obtain ⟨_, _, h⟩ := bind_eq_ok.mp h
  obtain ⟨_, _, h⟩ := bind_eq_ok.mp h
  obtain ⟨_, _, h⟩ := bind_eq_ok.mp h
  obtain ⟨_, _, h⟩ := bind_eq_ok.mp h
  obtain ⟨_, _, h⟩ := bind_eq_ok.mp h
  obtain ⟨_, _, h⟩ := bind_eq_ok.mp h
  obtain ⟨_, _, h⟩ := bind_eq_ok.mp h
  obtain ⟨direct, hdirect, h⟩ := bind_eq_ok.mp h
  obtain ⟨helperModified, hhelper, h⟩ := bind_eq_ok.mp h
  obtain ⟨expectedPublic, hpublic, h⟩ := bind_eq_ok.mp h
  obtain ⟨_, hdisjoint, h⟩ := bind_eq_ok.mp h
  obtain ⟨_, hunion, h⟩ := bind_eq_ok.mp h
  obtain ⟨_, _, h⟩ := bind_eq_ok.mp h
  obtain ⟨_, _, h⟩ := bind_eq_ok.mp h
  obtain ⟨_, _, h⟩ := bind_eq_ok.mp h
  obtain ⟨_, _, h⟩ := bind_eq_ok.mp h
  obtain rfl := Except.ok.inj h
  have hall := List.all_eq_true.mp (check_eq_ok_iff.mp hdisjoint)
  have hsorted : sorted (direct ++ helperModified).dedup = expectedPublic :=
    of_decide_eq_true (check_eq_ok_iff.mp hunion)
  exact {
    direct := (accepted_of_normalizeManifestPaths hdirect).1
    helperModified := (accepted_of_normalizeManifestPaths hhelper).1
    expectedPublic := (accepted_of_normalizeManifestPaths hpublic).1
    notPrivate := (accepted_of_normalizeManifestPaths hpublic).2
    disjoint := fun path hpath hmem => by
      have := hall path hpath
      rw [List.contains_iff_mem.mpr hmem] at this
      exact nomatch this
    union := fun path => by
      show path ∈ expectedPublic ↔ _
      rw [← hsorted, Release.Names.mem_sorted, List.mem_dedup, List.mem_append] }

end Konoha.Installation
