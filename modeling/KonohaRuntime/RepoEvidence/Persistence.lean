/-
RepoEvidence/Persistence.lean

`persist_evidence_pack` and `load_evidence_pack`: a pack is stored under the digest of its text, in
a file that is created exclusively and then written.

The file is there before its content is.  When the write is broken off, the file that remains is
refused by every later call, also by the one that persists the pack again.  `durable_iff` says
after which histories a pack can be persisted, loaded and told from others.
-/
import KonohaRuntime.Base.RoundTrip
import KonohaRuntime.Base.PyEq
import KonohaRuntime.Base.Utf8
import KonohaRuntime.Runtime.EvidenceFile

namespace Konoha.RepoEvidence

open CodePoint PyJson

/-! ### Packs -/

/-- The fields of `RepositoryEvidencePack`. -/
inductive PackField
  | packId
  | authorizedRepoRoot
  | authorization
  | contractVersion
  | workspaceIdentity
  | scanScopeDigest
  | scanPaths
  | missingTrackedFiles
  | languages
  | manifests
  | entrypoints
  | modules
  | symbols
  | importsGraph
  | testFiles
  | testToProdLinks
  | docClaims
  | contradictionCandidates
  | deadCodeCandidates
  | unknowns
  | provenanceIndex
  | generatedAt
  deriving DecidableEq

namespace PackField

def name : PackField → String
  | packId => "pack_id"
  | authorizedRepoRoot => "authorized_repo_root"
  | authorization => "authorization"
  | contractVersion => "contract_version"
  | workspaceIdentity => "workspace_identity"
  | scanScopeDigest => "scan_scope_digest"
  | scanPaths => "scan_paths"
  | missingTrackedFiles => "missing_tracked_files"
  | languages => "languages"
  | manifests => "manifests"
  | entrypoints => "entrypoints"
  | modules => "modules"
  | symbols => "symbols"
  | importsGraph => "imports_graph"
  | testFiles => "test_files"
  | testToProdLinks => "test_to_prod_links"
  | docClaims => "doc_claims"
  | contradictionCandidates => "contradiction_candidates"
  | deadCodeCandidates => "dead_code_candidates"
  | unknowns => "unknowns"
  | provenanceIndex => "provenance_index"
  | generatedAt => "generated_at"

/-- `fields(RepositoryEvidencePack)` -/
def all : List PackField :=
  [packId, authorizedRepoRoot, authorization, contractVersion, workspaceIdentity, scanScopeDigest,
    scanPaths, missingTrackedFiles, languages, manifests, entrypoints, modules, symbols,
    importsGraph, testFiles, testToProdLinks, docClaims, contradictionCandidates,
    deadCodeCandidates, unknowns, provenanceIndex, generatedAt]

theorem mem_all (f : PackField) : f ∈ all := by
  cases f <;> decide

end PackField

/-- A pack; the types of the fields are not checked. -/
abbrev StoredPack := PackField → PyJson

/-- `pack.as_dict()` -/
def StoredPack.asDict (pack : StoredPack) : List (PyStr × PyJson) :=
  PackField.all.map fun f => (PyStr.ofString f.name, pack f)

/-! ### References -/

/-- What the storage takes from Python and its libraries. -/
structure Storage where
  py : Stdlib
  /-- `hashlib.sha256(raw).hexdigest()` -/
  sha256 : ByteArray → Digest
  /-- how deep a pack may be nested for `asdict` and `json.dumps` -/
  depth : Nat
  /-- `json.loads` goes as deep. -/
  room : depth ≤ py.interpreter.depth
  /-- the text that `json.loads` finds in bytes -/
  decode : ByteArray → Option PyStr
  /-- An object in UTF-8 is found to be UTF-8. -/
  decode_object : ∀ cs : List Char,
    decode (String.ofList ('\x7b' :: '"' :: cs)).toUTF8 = some (('\x7b' :: '"' :: cs).map scalar)

/-- A reference that `_path` accepts: two fields, both of lowercase hexadecimal digits. -/
structure Reference where
  packId : HexString 32
  sha256 : Digest
  deriving DecidableEq

/-- `MAX_PACK_BYTES` -/
def maxPackBytes : Nat := 50000000

/-- `re.fullmatch(r"[0-9a-f]{32}", v)`, of a string -/
def hexText (n : Nat) : PyJson → Option (HexString n)
  | .str s =>
      match PyStr.chars s with
      | some cs => if h : isHex n (String.ofList cs).toList then some ⟨String.ofList cs, h⟩ else none
      | none => none
  | _ => none

/-- The checks of `_path` -/
def readReference : PyJson → Option Reference
  | .obj kvs =>
      if hasKeys ["pack_id", "sha256"] kvs then
        (hexText 32 (field kvs "pack_id")).bind fun packId =>
          (hexText 64 (field kvs "sha256")).map fun sha256 => ⟨packId, sha256⟩
      else none
  | _ => none

/-- A reference as `persist_evidence_pack` returns it. -/
def Reference.toJson (r : Reference) : PyJson :=
  .obj [(.ofString "pack_id", .str (.ofString r.packId.1)),
    (.ofString "sha256", .str (.ofString r.sha256.1))]

theorem hexText_ofString {n : Nat} (s : HexString n) :
    hexText n (.str (.ofString s.1)) = some s := by
  have hchars : PyStr.chars (PyStr.ofString s.1) = some s.1.toList :=
    PyStr.chars_map_scalar s.1.toList
  have hhex : isHex n (String.ofList s.1.toList).toList = true := by
    rw [String.ofList_toList]
    exact s.2
  rw [hexText, hchars]
  dsimp only
  rw [dif_pos hhex]
  exact congrArg some (Subtype.ext String.ofList_toList)

theorem readReference_toJson (r : Reference) : readReference r.toJson = some r := by
  have hkeys : hasKeys ["pack_id", "sha256"]
      [(.ofString "pack_id", .str (.ofString r.packId.1)),
        (.ofString "sha256", .str (.ofString r.sha256.1))] = true := rfl
  rw [Reference.toJson, readReference, if_pos hkeys]
  show (hexText 32 (.str (.ofString r.packId.1))).bind _ = _
  rw [hexText_ofString]
  show (hexText 64 (.str (.ofString r.sha256.1))).map _ = _
  rw [hexText_ofString]
  rfl

/-- The files of a mission directory whose names come from digests. -/
abbrev EvidenceFiles := Digest → Option ByteArray

namespace Storage

variable (st : Storage)

/-- `_encoded` -/
def encoded (pack : StoredPack) : Except PyExc ByteArray := do
  let text ← dumpsSorted st.py st.depth .compact (.obj pack.asDict)
  let text ← PyStr.encode text
  return text.toUTF8

/-! ### Loading -/

/-- `RepositoryEvidencePack(**payload)`, of a payload with these fields -/
def packOf (payload : List (PyStr × PyJson)) : StoredPack := fun f => field payload f.name

/-- `load_evidence_pack`, of a reference that `_path` accepts -/
def loadFile (files : EvidenceFiles) (reference : Reference) : Except PyExc StoredPack :=
  match files reference.sha256 with
  | none => .error (.repositoryEvidenceError "repository_evidence_pack_unavailable")
  | some raw =>
      if maxPackBytes < raw.size ∨ st.sha256 raw ≠ reference.sha256 then
        .error (.repositoryEvidenceError "repository_evidence_integrity_failed")
      else
        match (st.decode raw).map (loads st.py.interpreter) with
        | some (.ok (.obj payload)) =>
            if hasKeys (PackField.all.map PackField.name) payload then
              if (field payload "pack_id").is reference.packId.1 then .ok (packOf payload)
              else .error (.repositoryEvidenceError "repository_evidence_identity_mismatch")
            else .error (.repositoryEvidenceError "repository_evidence_pack_invalid")
        | some (.ok _) => .error (.repositoryEvidenceError "repository_evidence_pack_invalid")
        | _ => .error (.repositoryEvidenceError "repository_evidence_pack_unavailable")

/-- `load_evidence_pack` -/
def load (files : EvidenceFiles) (reference : PyJson) : Except PyExc StoredPack :=
  match readReference reference with
  | none => .error (.repositoryEvidenceError "repository_evidence_reference_invalid")
  | some reference => st.loadFile files reference

/-! ### Persisting -/

/-- How an attempt to persist a pack ends. -/
inductive Fate
  | complete
  /-- before there is a file, by an `OSError` or the death of the process -/
  | unopened
  /-- after so many bytes -/
  | broken (n : Nat)

/-- The bytes that are in the new file then. -/
def Fate.written (payload : ByteArray) : Fate → Option ByteArray
  | complete => some payload
  | unopened => none
  | broken n => some (payload.extract 0 n)

/-- `persist_evidence_pack`: the files afterwards, and the reference it returns. -/
def persist (files : EvidenceFiles) (pack : StoredPack) (fate : Fate) :
    EvidenceFiles × Except PyExc Reference :=
  match st.encoded pack with
  | .error e => (files, .error e)
  | .ok payload =>
      if maxPackBytes < payload.size then
        (files, .error (.repositoryEvidenceError "repository_evidence_pack_too_large"))
      else
        match hexText 32 (pack .packId) with
        | none => (files, .error (.repositoryEvidenceError "repository_evidence_reference_invalid"))
        | some packId =>
            let reference : Reference := ⟨packId, st.sha256 payload⟩
            match files reference.sha256, fate with
            | _, .unopened => (files, .error (.osError "open failed"))
            | some _, _ => (files, (st.loadFile files reference).map fun _ => reference)
            | none, .complete =>
                (Function.update files reference.sha256 (some payload), .ok reference)
            | none, .broken n =>
                (Function.update files reference.sha256 (some (payload.extract 0 n)),
                  .error (.osError "write failed"))

/-! ### Histories -/

/-- A call on the directory. -/
inductive StorageCall
  | persist (pack : StoredPack) (fate : Fate)
  | load (reference : PyJson)

/-- The files after a call. -/
def next (files : EvidenceFiles) : StorageCall → EvidenceFiles
  | .persist pack fate => (st.persist files pack fate).1
  | .load _ => files

/-- The files after a history. -/
def after (files : EvidenceFiles) (calls : List StorageCall) : EvidenceFiles :=
  calls.foldl st.next files

/-- The text of a pack that can be persisted. -/
def payloadOf (pack : StoredPack) : Option ByteArray :=
  match st.encoded pack with
  | .error _ => none
  | .ok payload =>
      if maxPackBytes < payload.size then none
      else (hexText 32 (pack .packId)).map fun _ => payload

/-- What a call leaves under a digest, when nothing is there. -/
def leaves (digest : Digest) : StorageCall → Option ByteArray
  | .persist pack fate => (st.payloadOf pack).bind fun payload =>
      if st.sha256 payload = digest then fate.written payload else none
  | .load _ => none

/-! ### What is asked -/

/-- The pack under a reference is loaded, and nothing else is taken for it. -/
structure Kept (files : EvidenceFiles) (reference : Reference) (pack : StoredPack) : Prop where
  /-- the pack, with sorted keys -/
  loads : ∃ loaded, st.load files reference.toJson = .ok loaded ∧
    ∀ f, loaded f = sortKeys (pack f)
  /-- what is no reference of another file -/
  refuses : ∀ v, readReference v ≠ some reference →
    (∀ r, readReference v = some r → files r.sha256 = none ∨ r.sha256 = reference.sha256) →
      ∃ e, st.load files v = .error e
  changed : ∀ raw, st.sha256 raw ≠ reference.sha256 →
    ∃ e, st.load (Function.update files reference.sha256 (some raw)) reference.toJson = .error e

/-- The pack can be persisted now, and when it is it stays. -/
structure Durable (files : EvidenceFiles) (pack : StoredPack) : Prop where
  resumes : ∃ reference, (st.persist files pack .complete).2 = .ok reference
  keeps : ∀ fate files' reference, st.persist files pack fate = (files', .ok reference) →
    ∀ calls, st.Kept (st.after files' calls) reference pack

/-! ### What is stored is loaded -/

theorem payloadOf_eq_some_iff {pack : StoredPack} {payload : ByteArray} :
    st.payloadOf pack = some payload ↔ st.encoded pack = .ok payload ∧
      payload.size ≤ maxPackBytes ∧ ∃ packId, hexText 32 (pack .packId) = some packId := by
  unfold payloadOf
  rcases st.encoded pack with e | encoded
  · exact iff_of_false (fun h => nomatch h) fun h => nomatch h.1
  · dsimp only
    split_ifs with hsize
    · refine iff_of_false (fun h => nomatch h) ?_
      rintro ⟨h, hle, -⟩
      obtain rfl := Except.ok.inj h
      omega
    · rw [Option.map_eq_some_iff]
      constructor
      · rintro ⟨packId, hid, rfl⟩
        exact ⟨rfl, by omega, packId, hid⟩
      · rintro ⟨h, -, packId, hid⟩
        exact ⟨packId, hid, Except.ok.inj h⟩

theorem asDict_keys (pack : StoredPack) :
    pack.asDict.map Prod.fst = PackField.all.map fun f => PyStr.ofString f.name := by
  rw [StoredPack.asDict, List.map_map]
  rfl

theorem nodup_keys (pack : StoredPack) : (pack.asDict.map Prod.fst).Nodup := by
  rw [asDict_keys]
  have hnames : (PackField.all.map PackField.name).Nodup := by decide
  have := hnames.map PyStr.ofString_injective
  rwa [List.map_map] at this

theorem field_asDict (pack : StoredPack) (f : PackField) : field pack.asDict f.name = pack f := by
  refine field_eq_iff_of_nodup (nodup_keys pack) ?_
  exact List.mem_map.mpr ⟨f, PackField.mem_all f, rfl⟩

theorem hasKeys_of_perm {kvs : List (PyStr × PyJson)} {names : List String}
    (h : (kvs.map Prod.fst).Perm (names.map PyStr.ofString)) : hasKeys names kvs = true := by
  rw [hasKeys, Bool.and_eq_true, List.all_eq_true, List.all_eq_true]
  constructor
  · intro kv hkv
    have hmem := h.mem_iff.mp (List.mem_map_of_mem (f := Prod.fst) hkv)
    obtain ⟨name, hname, heq⟩ := List.mem_map.mp hmem
    exact List.any_eq_true.mpr ⟨name, hname, decide_eq_true heq.symm⟩
  · intro name hname
    have hmem := h.mem_iff.mpr (List.mem_map_of_mem (f := PyStr.ofString) hname)
    obtain ⟨kv, hkv, heq⟩ := List.mem_map.mp hmem
    exact List.any_eq_true.mpr ⟨kv, hkv, decide_eq_true heq⟩

/-- The fields of a pack that is written down, with sorted keys. -/
theorem sorted_asDict (pack : StoredPack) : ∃ fields, sortKeys (.obj pack.asDict) = .obj fields ∧
    hasKeys (PackField.all.map PackField.name) fields = true ∧
      ∀ f : PackField, field fields f.name = sortKeys (pack f) := by
  obtain ⟨fields, hsort, hperm⟩ := sortKeys_obj_perm pack.asDict
  refine ⟨fields, hsort, hasKeys_of_perm ?_, fun f => ?_⟩
  · have hkeys := hperm.map Prod.fst
    rw [List.map_map] at hkeys
    refine hkeys.trans (.of_eq ?_)
    rw [List.map_map]
    exact asDict_keys pack
  · rw [field_sortKeys (nodup_keys pack) hsort, field_asDict]

theorem intercalate_cons_eq (sep text : PyStr) (texts : List PyStr) :
    ∃ rest, sep.intercalate (text :: texts) = text ++ rest := by
  cases texts with
  | nil => exact ⟨[], by rw [List.intercalate_singleton, List.append_nil]⟩
  | cons text' texts => exact ⟨_, by rw [List.intercalate_cons_cons, List.append_assoc]⟩

/-- The text of an object without line breaks begins with a brace and a quotation mark. -/
theorem dumps_object (py : Stdlib) {fields : List (PyStr × PyJson)} (hne : fields ≠ []) :
    ∃ rest, dumps py .compact 0 (.obj fields) = scalar '\x7b' :: scalar '"' :: rest := by
  obtain ⟨⟨key, v⟩, fields, rfl⟩ := List.exists_cons_of_ne_nil hne
  have hnewline : PyStr.ofString (Json.Layout.compact.newline (0 + 1)) = [] := rfl
  have hne : dumpsFields py .compact 1 ((key, v) :: fields) ≠ [] := List.cons_ne_nil _ _
  have happend : dumps py .compact 0 (.obj ((key, v) :: fields)) ++ [] = _ :=
    Loads.wrap_append hne []
  obtain ⟨rest, hrest⟩ := intercalate_cons_eq
    (PyStr.ofString (Json.Layout.compact.itemSep ++ Json.Layout.compact.newline (0 + 1)))
    (quote key ++ PyStr.ofString Json.Layout.compact.keySep ++ dumps py .compact 1 v)
    (dumpsFields py .compact 1 fields)
  rw [List.append_nil, hnewline, List.nil_append, dumpsFields, hrest] at happend
  exact ⟨_, happend⟩

variable {st}

theorem encoded_eq_ok {pack : StoredPack} {payload : ByteArray}
    (h : st.encoded pack = .ok payload) : ∃ cs : List Char,
      payload = (String.ofList cs).toUTF8 ∧
        cs.map scalar = dumps st.py .compact 0 (sortKeys (.obj pack.asDict)) ∧
        nesting (.obj pack.asDict) ≤ st.depth ∧
        intsFit st.py.interpreter (.obj pack.asDict) = true := by
  unfold encoded at h
  generalize PyJson.obj pack.asDict = v at h ⊢
  obtain ⟨text, htext, h⟩ := bind_eq_ok.mp h
  obtain ⟨s, hs, h⟩ := bind_eq_ok.mp h
  obtain ⟨htext, hnested, hints⟩ := dumpsSorted_eq_ok_iff.mp htext
  rw [PyStr.encode_eq_ok_iff] at hs
  refine ⟨s.toList, ?_, ?_, hnested, hints⟩
  · rw [String.ofList_toList]
    exact (Except.ok.inj h).symm
  · rw [← htext, hs]
    rfl

/-- The floats of a pack are read back, and no dict in it has a key twice. -/
def RegularPack (st : Storage) (pack : StoredPack) : Prop := ∀ f, Loads.Regular st.py (pack f)

theorem regular_asDict {pack : StoredPack} (h : RegularPack st pack) :
    Loads.Regular st.py (.obj pack.asDict) := by
  refine ⟨nodup_keys pack, (Loads.regularFields_iff st.py).mpr fun kv hkv => ?_⟩
  obtain ⟨f, -, rfl⟩ := List.mem_map.mp hkv
  exact h f

/-- The text of a pack is read as the pack with sorted keys. -/
theorem loads_encoded {pack : StoredPack} (hreg : RegularPack st pack) {payload : ByteArray}
    (h : st.encoded pack = .ok payload) {fields : List (PyStr × PyJson)}
    (hsort : sortKeys (.obj pack.asDict) = .obj fields) :
    (st.decode payload).map (loads st.py.interpreter) = some (.ok (.obj fields)) := by
  obtain ⟨cs, rfl, hcs, hnested, hints⟩ := encoded_eq_ok h
  have hfits : Loads.Fits st.py (sortKeys (.obj pack.asDict)) :=
    (Loads.fits_sortKeys_iff st.py _).mpr
      ((Loads.fits_iff st.py _).mpr ⟨regular_asDict hreg, hints⟩)
  have hroom := Nat.le_trans ((nesting_sortKeys_le_iff _ _).mpr hnested) st.room
  have hload : loads st.py.interpreter (dumps st.py .compact 0 _ ++ []) = _ :=
    loads_dumps Loads.spaced_compact hroom hfits fun _ h => absurd h List.not_mem_nil
  rw [List.append_nil, ← hcs] at hload
  have hne : fields ≠ [] := by
    rintro rfl
    obtain ⟨fields', hsort', hkeys, -⟩ := sorted_asDict pack
    obtain rfl := PyJson.obj.inj (hsort.symm.trans hsort')
    cases hkeys
  obtain ⟨rest, hrest⟩ := dumps_object st.py hne
  rw [← hsort, ← hcs] at hrest
  obtain ⟨c, cs', rfl, hc, hrest⟩ := List.map_eq_cons_iff.mp hrest
  obtain ⟨d, cs'', rfl, hd, hrest⟩ := List.map_eq_cons_iff.mp hrest
  obtain rfl := CodePoint.scalar.inj hc
  obtain rfl := CodePoint.scalar.inj hd
  rw [st.decode_object cs'', Option.map_some, hload, hsort]

theorem hexText_eq_some {n : Nat} {v : PyJson} {s : HexString n} (h : hexText n v = some s) :
    v = .str (.ofString s.1) := by
  unfold hexText at h
  split at h
  · next text =>
    split at h
    · next cs hcs =>
      split_ifs at h with hhex
      obtain rfl := Option.some.inj h
      show PyJson.str text = .str ((String.ofList cs).toList.map scalar)
      rw [String.toList_ofList, PyStr.chars_eq_some_iff.mp hcs]
    · cases h
  · cases h

/-- What has to be in the file of a reference. -/
theorem loadFile_eq_ok_iff {files : EvidenceFiles} {reference : Reference} {loaded : StoredPack} :
    st.loadFile files reference = .ok loaded ↔ ∃ raw payload,
      files reference.sha256 = some raw ∧ raw.size ≤ maxPackBytes ∧
        st.sha256 raw = reference.sha256 ∧
        (st.decode raw).map (loads st.py.interpreter) = some (.ok (.obj payload)) ∧
        hasKeys (PackField.all.map PackField.name) payload = true ∧
        field payload "pack_id" = .str (.ofString reference.packId.1) ∧ loaded = packOf payload := by
  constructor
  · intro h
    unfold loadFile at h
    split at h
    · cases h
    · next raw hfile =>
      split_ifs at h with hintact
      obtain ⟨hsize, hdigest⟩ := not_or.mp hintact
      split at h
      · next payload hread =>
        split_ifs at h with hkeys hid
        refine ⟨raw, payload, hfile, Nat.not_lt.mp hsize, not_not.mp hdigest, hread, hkeys, ?_,
          (Except.ok.inj h).symm⟩
        unfold PyJson.is at hid
        split at hid
        · next hfield => rw [hfield, of_decide_eq_true hid]
        · cases hid
      · cases h
      · cases h
  · rintro ⟨raw, payload, hfile, hsize, hdigest, hread, hkeys, hid, rfl⟩
    unfold loadFile
    rw [hfile]
    dsimp only
    rw [if_neg (by rw [not_or]; exact ⟨Nat.not_lt.mpr hsize, fun h => h hdigest⟩), hread]
    dsimp only
    have his : is reference.packId.1 (str (.ofString reference.packId.1)) = true :=
      decide_eq_true rfl
    rw [if_pos hkeys, hid, if_pos his]

theorem loadFile_of_sha256_ne {files : EvidenceFiles} {reference : Reference} {raw : ByteArray}
    (hfile : files reference.sha256 = some raw) (hdigest : st.sha256 raw ≠ reference.sha256) :
    st.loadFile files reference =
      .error (.repositoryEvidenceError "repository_evidence_integrity_failed") := by
  unfold loadFile
  rw [hfile]
  dsimp only
  rw [if_pos (Or.inr hdigest)]

/-- A complete file gives the pack back. -/
theorem loadFile_payload {pack : StoredPack} (hreg : RegularPack st pack) {payload : ByteArray}
    (h : st.payloadOf pack = some payload) {packId : HexString 32}
    (hid : hexText 32 (pack .packId) = some packId) {files : EvidenceFiles}
    (hfile : files (st.sha256 payload) = some payload) :
    ∃ loaded, st.loadFile files ⟨packId, st.sha256 payload⟩ = .ok loaded ∧
      ∀ f, loaded f = sortKeys (pack f) := by
  obtain ⟨hencoded, hsize, -⟩ := (payloadOf_eq_some_iff st).mp h
  obtain ⟨fields, hsort, hkeys, hfields⟩ := sorted_asDict pack
  have hpackId : field fields "pack_id" = .str (.ofString packId.1) := by
    rw [← hexText_eq_some hid]
    refine (hfields .packId).trans ?_
    rw [hexText_eq_some hid]
    exact sortKeys.eq_3 _ (fun _ h => nomatch h) fun _ h => nomatch h
  exact ⟨packOf fields, loadFile_eq_ok_iff.mpr ⟨payload, fields, hfile, hsize, rfl,
    loads_encoded hreg hencoded hsort, hkeys, hpackId, rfl⟩, hfields⟩

/-! ### What a call does to the files -/

theorem persist_of_payloadOf_eq_none {pack : StoredPack} (h : st.payloadOf pack = none)
    (files : EvidenceFiles) (fate : Fate) : ∃ e, st.persist files pack fate = (files, .error e) := by
  unfold payloadOf at h
  unfold persist
  rcases hencoded : st.encoded pack with e | payload
  · exact ⟨e, rfl⟩
  · rw [hencoded] at h
    dsimp only at h ⊢
    split_ifs at h ⊢ with hsize
    · exact ⟨_, rfl⟩
    · rw [Option.map_eq_none_iff] at h
      rw [h]
      exact ⟨_, rfl⟩

theorem persist_of_payloadOf_eq_some {pack : StoredPack} {payload : ByteArray}
    (h : st.payloadOf pack = some payload) {packId : HexString 32}
    (hid : hexText 32 (pack .packId) = some packId) (files : EvidenceFiles) (fate : Fate) :
    st.persist files pack fate =
      match files (st.sha256 payload), fate with
      | _, .unopened => (files, .error (.osError "open failed"))
      | some _, _ => (files, (st.loadFile files ⟨packId, st.sha256 payload⟩).map fun _ =>
          ⟨packId, st.sha256 payload⟩)
      | none, .complete =>
          (Function.update files (st.sha256 payload) (some payload),
            .ok ⟨packId, st.sha256 payload⟩)
      | none, .broken n =>
          (Function.update files (st.sha256 payload) (some (payload.extract 0 n)),
            .error (.osError "write failed")) := by
  obtain ⟨hencoded, hsize, -⟩ := (payloadOf_eq_some_iff st).mp h
  unfold persist
  rw [hencoded]
  dsimp only
  rw [if_neg (Nat.not_lt.mpr hsize), hid]

/-- A file is made once, and no call changes it. -/
theorem next_apply (files : EvidenceFiles) (call : StorageCall) (digest : Digest) :
    st.next files call digest = (files digest).or (st.leaves digest call) := by
  cases call with
  | load reference => exact (Option.or_none).symm
  | persist pack fate =>
    rw [next, leaves]
    rcases h : st.payloadOf pack with - | payload
    · obtain ⟨e, he⟩ := persist_of_payloadOf_eq_none h files fate
      rw [he, Option.bind_none, Option.or_none]
    · obtain ⟨-, -, packId, hid⟩ := (payloadOf_eq_some_iff st).mp h
      rw [persist_of_payloadOf_eq_some h hid, Option.bind_some]
      by_cases hdigest : st.sha256 payload = digest
      · subst hdigest
        rw [if_pos rfl]
        rcases hfile : files (st.sha256 payload) with - | raw
        · rw [Option.none_or]
          cases fate with
          | complete => exact Function.update_self ..
          | unopened => exact hfile
          | broken n => exact Function.update_self ..
        · rw [Option.some_or]
          cases fate <;> exact hfile
      · rw [if_neg hdigest, Option.or_none]
        rcases files (st.sha256 payload) with - | raw
        · cases fate with
          | complete => exact Function.update_of_ne (Ne.symm hdigest) ..
          | unopened => rfl
          | broken n => exact Function.update_of_ne (Ne.symm hdigest) ..
        · cases fate <;> rfl

/-- What is under a digest was left there by the first call that left something. -/
theorem after_apply (files : EvidenceFiles) (calls : List StorageCall) (digest : Digest) :
    st.after files calls digest = (files digest).or (calls.findSome? (st.leaves digest)) := by
  induction calls generalizing files with
  | nil => exact (Option.or_none).symm
  | cons call calls ih =>
    show st.after (st.next files call) calls digest = _
    rw [ih, next_apply, Option.or_assoc, List.findSome?_cons]
    rcases st.leaves digest call with - | raw
    · rw [Option.none_or]
    · rw [Option.some_or]

/-- A file that is there stays. -/
theorem after_of_some {files : EvidenceFiles} {digest : Digest} {raw : ByteArray}
    (h : files digest = some raw) (calls : List StorageCall) :
    st.after files calls digest = some raw := by
  rw [after_apply, h, Option.some_or]

/-! ### A complete file -/

/-- A file is loaded under one identity. -/
theorem reference_of_loadFile {files : EvidenceFiles} {r r' : Reference} {loaded loaded' : StoredPack}
    (h : st.loadFile files r = .ok loaded) (h' : st.loadFile files r' = .ok loaded')
    (hsame : r'.sha256 = r.sha256) : r' = r := by
  obtain ⟨raw, payload, hfile, -, -, hread, -, hid, -⟩ := loadFile_eq_ok_iff.mp h
  obtain ⟨raw', payload', hfile', -, -, hread', -, hid', -⟩ := loadFile_eq_ok_iff.mp h'
  rw [hsame, hfile] at hfile'
  obtain rfl := Option.some.inj hfile'
  rw [hread] at hread'
  obtain rfl := PyJson.obj.inj (Except.ok.inj (Option.some.inj hread'))
  rw [hid] at hid'
  have hpackId := PyStr.ofString_injective (PyJson.str.inj hid')
  cases r
  cases r'
  exact congrArg₂ Reference.mk (Subtype.ext hpackId.symm) hsame

theorem load_error_of_loadFile {files : EvidenceFiles} {v : PyJson}
    (h : ∀ reference, readReference v = some reference → ∀ loaded,
      st.loadFile files reference ≠ .ok loaded) : ∃ e, st.load files v = .error e := by
  unfold load
  rcases hread : readReference v with - | reference
  · exact ⟨_, rfl⟩
  · dsimp only
    rcases hload : st.loadFile files reference with e | loaded
    · exact ⟨e, rfl⟩
    · exact absurd hload (h reference hread loaded)

/-- A complete file is all that is asked of it. -/
theorem kept_of_file {pack : StoredPack} (hreg : RegularPack st pack) {payload : ByteArray}
    (h : st.payloadOf pack = some payload) {packId : HexString 32}
    (hid : hexText 32 (pack .packId) = some packId) {files : EvidenceFiles}
    (hfile : files (st.sha256 payload) = some payload) :
    st.Kept files ⟨packId, st.sha256 payload⟩ pack := by
  obtain ⟨loaded, hload, hloaded⟩ := loadFile_payload hreg h hid hfile
  constructor
  · exact ⟨loaded, by rw [load, readReference_toJson]; exact hload, hloaded⟩
  · intro v hv hother
    refine load_error_of_loadFile fun reference hread loaded' hload' => hv ?_
    obtain hnone | hsame := hother reference hread
    · obtain ⟨raw, payload, hraw, -⟩ := loadFile_eq_ok_iff.mp hload'
      rw [hnone] at hraw
      cases hraw
    · rw [hread, reference_of_loadFile hload hload' hsame]
  · intro raw hraw
    refine load_error_of_loadFile fun reference hread loaded' hload' => ?_
    rw [readReference_toJson] at hread
    obtain rfl := Option.some.inj hread
    obtain ⟨raw', payload, hraw', -, hdigest, -⟩ := loadFile_eq_ok_iff.mp hload'
    rw [Function.update_self] at hraw'
    obtain rfl := Option.some.inj hraw'
    exact hraw hdigest

/-! ### Histories -/

/-- A persisted pack is in its file. -/
theorem file_of_persist {files files' : EvidenceFiles} {pack : StoredPack} {fate : Fate}
    {reference : Reference} (h : st.persist files pack fate = (files', .ok reference)) :
    ∃ payload packId raw, st.payloadOf pack = some payload ∧
      hexText 32 (pack .packId) = some packId ∧ reference = ⟨packId, st.sha256 payload⟩ ∧
        files' (st.sha256 payload) = some raw ∧ st.sha256 raw = st.sha256 payload ∧
          (files (st.sha256 payload) = none → raw = payload) := by
  rcases hpayload : st.payloadOf pack with - | payload
  · obtain ⟨e, he⟩ := persist_of_payloadOf_eq_none hpayload files fate
    rw [he] at h
    cases (Prod.mk.inj h).2
  · obtain ⟨-, -, packId, hid⟩ := (payloadOf_eq_some_iff st).mp hpayload
    rw [persist_of_payloadOf_eq_some hpayload hid] at h
    split at h
    · cases (Prod.mk.inj h).2
    · next raw _ hfile _ =>
      obtain ⟨rfl, hok⟩ := Prod.mk.inj h
      rcases hload : st.loadFile files ⟨packId, st.sha256 payload⟩ with e | loaded
      · rw [hload] at hok
        cases hok
      · rw [hload] at hok
        obtain ⟨raw', -, hraw', -, hdigest, -⟩ := loadFile_eq_ok_iff.mp hload
        exact ⟨payload, packId, raw', rfl, hid, (Except.ok.inj hok).symm, hraw', hdigest,
          fun hnone => absurd (hnone.symm.trans hraw') (nomatch ·)⟩
    · obtain ⟨rfl, hok⟩ := Prod.mk.inj h
      exact ⟨payload, packId, payload, rfl, hid, (Except.ok.inj hok).symm,
        Function.update_self .., rfl, fun _ => rfl⟩
    · cases (Prod.mk.inj h).2

/-- **A pack is persisted for good, if and only if the first attempt that left a file under the
digest of its text left all of it.** -/
theorem durable_iff (calls : List StorageCall) {pack : StoredPack} (hreg : RegularPack st pack)
    (hcollision : ∀ payload, st.payloadOf pack = some payload →
      ∀ raw, calls.findSome? (st.leaves (st.sha256 payload)) = some raw →
        st.sha256 raw = st.sha256 payload → raw = payload) :
    st.Durable (st.after (fun _ => none) calls) pack ↔
      ∃ payload, st.payloadOf pack = some payload ∧
        ∀ raw, calls.findSome? (st.leaves (st.sha256 payload)) = some raw → raw = payload := by
  have hfiles : ∀ digest, st.after (fun _ => none) calls digest =
      calls.findSome? (st.leaves digest) := fun digest => by
    rw [after_apply, Option.none_or]
  constructor
  · rintro ⟨⟨reference, hok⟩, -⟩
    obtain ⟨payload, packId, raw, hpayload, -, -, hraw, hdigest, -⟩ := file_of_persist
      (Prod.ext rfl hok : st.persist _ pack .complete = (_, .ok reference))
    refine ⟨payload, hpayload, fun raw' hraw' => hcollision payload hpayload raw' hraw' ?_⟩
    have hnext : st.next (st.after (fun _ => none) calls) (.persist pack .complete)
        (st.sha256 payload) = some raw' := by
      rw [next_apply, hfiles, hraw', Option.some_or]
    obtain rfl := Option.some.inj (hraw.symm.trans hnext)
    exact hdigest
  · rintro ⟨payload, hpayload, hcomplete⟩
    obtain ⟨-, -, packId, hid⟩ := (payloadOf_eq_some_iff st).mp hpayload
    constructor
    · refine ⟨⟨packId, st.sha256 payload⟩, ?_⟩
      rw [persist_of_payloadOf_eq_some hpayload hid]
      rcases hfile : st.after (fun _ => none) calls (st.sha256 payload) with - | raw
      · rfl
      · obtain rfl := hcomplete raw ((hfiles _).symm.trans hfile)
        obtain ⟨loaded, hload, -⟩ := loadFile_payload hreg hpayload hid hfile
        dsimp only
        rw [hload]
        rfl
    · intro fate files' reference h later
      obtain ⟨payload', packId', raw, hpayload', hid', rfl, hraw, -, hnew⟩ := file_of_persist h
      obtain rfl := Option.some.inj (hpayload.symm.trans hpayload')
      obtain rfl := Option.some.inj (hid.symm.trans hid')
      refine kept_of_file hreg hpayload hid (after_of_some ?_ later)
      rcases hfile : st.after (fun _ => none) calls (st.sha256 payload) with - | raw'
      · rw [hraw, hnew hfile]
      · have hstays : files' (st.sha256 payload) = some raw' := by
          have hnext : st.next _ _ _ = _ := next_apply (st.after (fun _ => none) calls)
            (.persist pack fate) (st.sha256 payload)
          rw [hfile, Option.some_or, next, h] at hnext
          exact hnext
        rw [hstays, hcomplete raw' ((hfiles _).symm.trans hfile)]

end Storage

/-! ### A write that is broken off -/

/-- The digest of the text of `samplePack`, and that of no bytes. -/
def sampleStorage : Storage where
  py :=
    { sha256 := fun _ => ⟨"6f8535e1a9aba41e42d5f2483ab73406f7b0f704f1fcdb1bac6507b1b5c13cd2",
        isHex_ofList (by decide +kernel)⟩
      floatRepr := fun _ => "0.0"
      lower := fun s => s
      format := fun _ => "None"
      repr := fun _ => "''"
      interpreter := usualInterpreter }
  sha256 raw :=
    if raw.size = 0 then ⟨"e3b0c44298fc1c149afbf4c8996fb92427ae41e4649b934ca495991b7852b855",
        isHex_ofList (by decide +kernel)⟩
    else ⟨"6f8535e1a9aba41e42d5f2483ab73406f7b0f704f1fcdb1bac6507b1b5c13cd2",
        isHex_ofList (by decide +kernel)⟩
  depth := 900
  room := by decide
  decode raw := (String.fromUTF8? raw).map PyStr.ofString
  decode_object cs := by
    rw [fromUTF8_toUTF8, Option.map_some]
    exact congrArg (some <| ·.map scalar) String.toList_ofList

def samplePackId : HexString 32 := ⟨String.ofList (List.replicate 32 '0'), isHex_ofList (by decide +kernel)⟩

def samplePack : StoredPack
  | .packId => .str (.ofString samplePackId.1)
  | _ => .str []

/-- A text is not shorter in UTF-8, and at most four times as long. -/
theorem size_toUTF8 (cs : List Char) : cs.length ≤ (String.ofList cs).toUTF8.size ∧
    (String.ofList cs).toUTF8.size ≤ 4 * cs.length := by
  have hsize : (String.ofList cs).toUTF8.size = (Utf8.encode cs).length :=
    List.size_toByteArray
  rw [hsize]
  induction cs with
  | nil => exact ⟨Nat.le_refl 0, Nat.le_refl 0⟩
  | cons c cs ih =>
    rw [Utf8.encode_cons, List.length_append, String.length_utf8EncodeChar, List.length_cons]
    have hpos := c.utf8Size_pos
    have hle := c.utf8Size_le_four
    have hrest := ih List.size_toByteArray
    omega

theorem encoded_of_chars {st : Storage} {pack : StoredPack} {text : PyStr} {cs : List Char}
    (htext : dumpsSorted st.py st.depth .compact (.obj pack.asDict) = .ok text)
    (hcs : PyStr.chars text = some cs) : st.encoded pack = .ok (String.ofList cs).toUTF8 := by
  have hencode : PyStr.encode text = .ok (String.ofList cs) := by
    rw [PyStr.encode_eq_ok_iff, PyStr.chars_eq_some_iff.mp hcs]
    exact congrArg (List.map scalar) String.toList_ofList.symm
  unfold Storage.encoded
  rw [htext]
  show PyStr.encode text >>= _ = _
  rw [hencode]
  rfl

/-- A text that is not empty and not long. -/
def isShort : Except PyExc PyStr → Bool
  | .ok text => (PyStr.chars text).any fun cs => 0 < cs.length ∧ cs.length ≤ 1000
  | .error _ => false

theorem isShort_samplePack : isShort (dumpsSorted sampleStorage.py sampleStorage.depth .compact
    (.obj samplePack.asDict)) = true := by
  decide +kernel

theorem payloadOf_samplePack :
    ∃ payload, sampleStorage.payloadOf samplePack = some payload ∧ payload.size ≠ 0 := by
  have hshort := isShort_samplePack
  rcases htext : dumpsSorted sampleStorage.py sampleStorage.depth .compact
    (.obj samplePack.asDict) with e | text
  · rw [htext] at hshort
    cases hshort
  · rw [htext] at hshort
    obtain ⟨cs, hcs, hlength⟩ := (Option.any_eq_true _ _).mp hshort
    obtain ⟨hpos, hle⟩ := of_decide_eq_true hlength
    obtain ⟨hlow, hhigh⟩ := size_toUTF8 cs
    have hsize : (String.ofList cs).toUTF8.size ≤ maxPackBytes := by
      unfold maxPackBytes
      omega
    exact ⟨_, (Storage.payloadOf_eq_some_iff _).mpr ⟨encoded_of_chars htext hcs, hsize,
      samplePackId, hexText_ofString samplePackId⟩, by omega⟩

theorem regular_samplePack : Storage.RegularPack sampleStorage samplePack := fun f => by
  cases f <;> exact trivial

/-- A complete write, and all is well. -/
theorem durable_samplePack : sampleStorage.Durable
    (sampleStorage.after (fun _ => none) [.persist samplePack .complete]) samplePack := by
  obtain ⟨payload, hpayload, -⟩ := payloadOf_samplePack
  have hleaves : ∀ raw, [Storage.StorageCall.persist samplePack .complete].findSome?
      (sampleStorage.leaves (sampleStorage.sha256 payload)) = some raw → raw = payload := by
    intro raw hraw
    rw [List.findSome?_singleton, Storage.leaves, hpayload, Option.bind_some, if_pos rfl] at hraw
    exact (Option.some.inj hraw).symm
  refine (Storage.durable_iff _ regular_samplePack ?_).mpr ⟨payload, hpayload, hleaves⟩
  intro payload' hpayload' raw hraw _
  obtain rfl := Option.some.inj (hpayload.symm.trans hpayload')
  exact hleaves raw hraw

/-- After a write that was broken off before the first byte, the pack can no longer be persisted. -/
theorem broken_write_stays :
    (sampleStorage.persist (fun _ => none) samplePack .complete).2.isOk = true ∧
      (sampleStorage.persist
        (sampleStorage.after (fun _ => none) [.persist samplePack (.broken 0)])
        samplePack .complete).2 =
          .error (.repositoryEvidenceError "repository_evidence_integrity_failed") := by
  obtain ⟨payload, hpayload, hsize⟩ := payloadOf_samplePack
  obtain ⟨-, -, packId, hid⟩ := (Storage.payloadOf_eq_some_iff _).mp hpayload
  have hempty : (payload.extract 0 0).size = 0 := by simp
  have hfile : sampleStorage.after (fun _ => none) [.persist samplePack (.broken 0)]
      (sampleStorage.sha256 payload) = some (payload.extract 0 0) := by
    rw [Storage.after_apply, Option.none_or, List.findSome?_singleton, Storage.leaves, hpayload,
      Option.bind_some, if_pos rfl]
    rfl
  have hdigest : sampleStorage.sha256 (payload.extract 0 0) ≠ sampleStorage.sha256 payload := by
    unfold sampleStorage
    dsimp only
    rw [if_pos hempty, if_neg hsize]
    decide +kernel
  constructor
  · rw [Storage.persist_of_payloadOf_eq_some hpayload hid]
    rfl
  · have hrefused : sampleStorage.loadFile
        (sampleStorage.after (fun _ => none) [.persist samplePack (.broken 0)])
        ⟨packId, sampleStorage.sha256 payload⟩ =
          .error (.repositoryEvidenceError "repository_evidence_integrity_failed") :=
      Storage.loadFile_of_sha256_ne hfile hdigest
    rw [Storage.persist_of_payloadOf_eq_some hpayload hid, hfile, hrefused]
    rfl

end Konoha.RepoEvidence
