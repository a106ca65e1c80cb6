/-
RepoEvidence/Acquire.lean

`acquire_repo_evidence`, from the files that have been read to the pack of evidence.

The loops of the function are steps on an `Extraction`, which holds its local collections.
What is read from the Python sources is what `ast.parse` makes of them; a dotted name is the
list of its components.

A reference is the number of entries in the index when it is made, so that the index only
grows and no entry is replaced (`Index.find_cite`).
-/
import Mathlib.Data.Nat.Digits.Lemmas
import KonohaRuntime.Base.SplitLines
import KonohaRuntime.Runtime.Sources

namespace Konoha.RepoEvidence

open Json

/-- A Python dict with string keys. -/
abbrev Dict := List (String × Json)

/-! ### Dicts -/

section Assign

variable {κ α : Type} [DecidableEq κ]

/-- `d[k] = v` -/
def assign (k : κ) (v : α) : List (κ × α) → List (κ × α)
  | [] => [(k, v)]
  | (l, u) :: rest => if l = k then (k, v) :: rest else (l, u) :: assign k v rest

/-- `d.get(k)` -/
def find (k : κ) : List (κ × α) → Option α
  | [] => none
  | (l, u) :: rest => if l = k then some u else find k rest

theorem find_assign_self (k : κ) (v : α) (d : List (κ × α)) : find k (assign k v d) = some v := by
  induction d with
  | nil => simp [assign, find]
  | cons e d ih =>
      by_cases h : e.1 = k
      · simp [assign, find, h]
      · simp [assign, find, h, ih]

theorem find_assign_ne {k l : κ} (h : l ≠ k) (v : α) (d : List (κ × α)) :
    find l (assign k v d) = find l d := by
  induction d with
  | nil => simp [assign, find, h.symm]
  | cons e d ih =>
      by_cases hk : e.1 = k
      · simp [assign, find, hk, h.symm]
      · simp [assign, find, hk, ih]

theorem find_mem {k : κ} {v : α} {d : List (κ × α)} (h : find k d = some v) : (k, v) ∈ d := by
  induction d with
  | nil => cases h
  | cons e d ih =>
      obtain ⟨l, u⟩ := e
      by_cases hk : l = k
      · rw [find, if_pos hk] at h
        obtain rfl := Option.some.inj h
        exact hk ▸ List.mem_cons_self
      · rw [find, if_neg hk] at h
        exact List.mem_cons_of_mem _ (ih h)

theorem mem_assign {k : κ} {v : α} {d : List (κ × α)} {e : κ × α} (h : e ∈ assign k v d) :
    e = (k, v) ∨ e ∈ d := by
  induction d with
  | nil => exact .inl (List.mem_singleton.mp h)
  | cons f d ih =>
      by_cases hk : f.1 = k
      · rw [assign, if_pos hk] at h
        rcases List.mem_cons.mp h with rfl | h
        · exact .inl rfl
        · exact .inr (List.mem_cons_of_mem _ h)
      · rw [assign, if_neg hk] at h
        rcases List.mem_cons.mp h with rfl | h
        · exact .inr List.mem_cons_self
        · exact (ih h).imp_right (List.mem_cons_of_mem _)

end Assign

/-! ### Paths and names -/

/-- `text.split(sep)` -/
def splitChar (sep : Char) : List Char → List (List Char)
  | [] => [[]]
  | c :: cs =>
      if c = sep then [] :: splitChar sep cs
      else
        match splitChar sep cs with
        | [] => [[c]]
        | part :: parts => (c :: part) :: parts

/-- `text.endswith(suffix)` -/
def endsWith (suffix text : String) : Bool := suffix.toList.isSuffixOf text.toList

/-- `text.startswith(start)` -/
def startsWith (start text : String) : Bool := start.toList.isPrefixOf text.toList

/-- The parts of a relative path. -/
def pathParts (rel : String) : List String := (splitChar '/' rel.toList).map String.ofList

/-- `Path(rel).name` -/
def fileName (rel : String) : String := (pathParts rel).getLast?.getD ""

/-- `Path(rel).suffix` -/
def fileSuffix (rel : String) : String :=
  let name := (fileName rel).toList
  let ext := (name.reverse.takeWhile (· ≠ '.')).reverse
  -- the last dot is neither the first character of the name nor the last one
  if ext ≠ [] ∧ ext.length + 1 < name.length then String.ofList ('.' :: ext) else ""

/-- A dotted name. -/
abbrev ModuleName := List String

/-- `not name`, of the text of a dotted name -/
def ModuleName.isBlank (name : ModuleName) : Bool := name = [] ∨ name = [""]

/-- The text of a dotted name. -/
def ModuleName.text (name : ModuleName) : String := ".".intercalate name

/-- The parts of `rel[: -len(".py")]`, without `__init__` at their end. -/
def moduleParts (rel : String) : List String :=
  let parts := (splitChar '/' (rel.toList.take (rel.toList.length - 3))).map String.ofList
  if parts.getLast? = some "__init__" then parts.dropLast else parts

/-- `_module_name` -/
def moduleName (rel : String) : Option ModuleName :=
  if ! endsWith ".py" rel then none
  else if moduleParts rel = [] then none
  else some ((moduleParts rel).flatMap fun part => (splitChar '.' part.toList).map String.ofList)

/-! ### What is read -/

/-- What a file holds, as far as it is looked at. -/
inductive FileContent
  | oversized
  | binary
  | text (text : String)

/-- `_FileReadResult` -/
structure FileRead where
  rel : String
  contentHash : Option String
  content : FileContent

inductive SymbolKind
  | function
  | class_
  deriving DecidableEq

def SymbolKind.text : SymbolKind → String
  | function => "function"
  | class_ => "class"

/-- A statement of the body of a module. -/
inductive Stmt
  | define (kind : SymbolKind) (name : String) (lineno endLineno : Nat)
  /-- `if __name__ == "__main__":` -/
  | mainGuard (lineno endLineno : Nat)
  | other

/-- A node of `ast.walk`. -/
inductive Node
  | import_ (names : List ModuleName) (lineno : Nat)
  | importFrom (level : Nat) (module : Option ModuleName) (names : List String) (lineno : Nat)
  | loadName (id : String)
  | attribute (attr : String)
  | other

/-- `ast.Module` -/
structure PyModule where
  body : List Stmt
  walk : List Node

/-- How a parser fails. -/
inductive ParseError
  /-- `SyntaxError`, `tomllib.TOMLDecodeError` -/
  | refused
  | raised (e : PyExc)

/-- What acquisition takes from Python. -/
structure Tools where
  /-- `_sha256_bytes` of a text -/
  sha256 : String → Digest
  /-- `ast.parse` -/
  parse : String → Except ParseError PyModule
  /-- `tomllib.loads`; a date or a time is `null` -/
  toml : String → Except ParseError Json
  casefold : String → String
  /-- membership in `sys.stdlib_module_names` -/
  stdlibModule : String → Bool

/-- What is there when the files have been read. -/
structure Scan where
  root : String
  authorizedBy : String
  authorizationNote : String
  excludedPaths : List String
  reads : List FileRead
  missingTracked : List String
  /-- the symbolic links that were refused, each with the reason -/
  symlinkSkips : List (String × String)
  vcs : String
  head : Option String
  branch : Option String
  now : String
  /-- `enumerate_eligible_files` sorts them -/
  sorted : (reads.map (·.rel)).Pairwise (· < ·)

/-! ### References -/

/-- `f"{n:04d}"` -/
def fourDigits (n : Nat) : List Char :=
  List.replicate (4 - (Nat.digits 10 n).length) '0' ++ (Nat.digits 10 n).reverse.map Nat.digitChar

/-- `f"prov-{n:04d}"` -/
def refName (n : Nat) : String := String.ofList ("prov-".toList ++ fourDigits n)

/-- `provenance_index` -/
abbrev Index := List (String × Dict)

/-- `next_ref()` -/
def Index.nextRef (index : Index) : String := refName index.length

/-- `provenance_index[next_ref()] = entry` -/
def Index.cite (index : Index) (entry : Dict) : Index := assign index.nextRef entry index

theorem fourDigits_value (n : Nat) :
    Nat.ofDigits 10 ((fourDigits n).reverse.map fun c => c.toNat - 48) = n := by
  have hdigit : ∀ d < 10, (Nat.digitChar d).toNat - 48 = d := by decide
  have hdigits : (Nat.digits 10 n).map ((fun c => c.toNat - 48) ∘ Nat.digitChar) =
      Nat.digits 10 n := by
    conv_rhs => rw [← List.map_id (Nat.digits 10 n)]
    exact List.map_congr_left fun d hd => hdigit d (Nat.digits_lt_base (by decide) hd)
  rw [fourDigits, List.reverse_append, List.map_append, ← List.map_reverse, List.reverse_reverse,
    List.map_map, hdigits, List.reverse_replicate, List.map_replicate, Nat.ofDigits_append,
    Nat.ofDigits_digits]
  -- the zeros in front are the last digits
  have hzeros : ∀ k, Nat.ofDigits 10 (List.replicate k 0) = 0 := by
    intro k
    induction k with
    | zero => rfl
    | succ k ih => rw [List.replicate_succ, Nat.ofDigits_cons, ih]
  rw [show ('0'.toNat - 48) = 0 from rfl, hzeros, Nat.mul_zero, Nat.add_zero]

theorem refName_injective : Function.Injective refName := by
  intro m n h
  have hdigits := List.append_cancel_left (String.ofList_inj.mp h)
  rw [← fourDigits_value m, hdigits, fourDigits_value]

theorem length_fourDigits (n : Nat) :
    (fourDigits n).length = 4 - (Nat.digits 10 n).length + (Nat.digits 10 n).length := by
  simp only [fourDigits, List.length_append, List.length_replicate, List.length_map,
    List.length_reverse]

theorem length_refName (n : Nat) : (refName n).length = 5 + (fourDigits n).length := by
  have hstart : "prov-".toList.length = 5 := by decide +kernel
  calc (refName n).length = ("prov-".toList ++ fourDigits n).length := String.length_ofList
    _ = "prov-".toList.length + (fourDigits n).length := List.length_append
    _ = 5 + (fourDigits n).length := congrArg (· + (fourDigits n).length) hstart

/-- A reference is short. -/
theorem length_refName_le {n : Nat} (h : n < 2 ^ 64) : (refName n).length ≤ 25 := by
  have hpow : n < 10 ^ 20 := lt_of_lt_of_le h (by norm_num)
  have hlen : (Nat.digits 10 n).length ≤ 20 := (Nat.digits_length_le_iff (by decide) n).mpr hpow
  have hdigits := length_fourDigits n
  have href := length_refName n
  omega

/-- The entries are numbered in the order in which they were made. -/
def Index.Numbered (index : Index) : Prop :=
  index.map (·.1) = (List.range index.length).map refName

theorem assign_of_notMem {α : Type} {k : String} {d : List (String × α)} (h : k ∉ d.map (·.1))
    (v : α) : assign k v d = d ++ [(k, v)] := by
  induction d with
  | nil => rfl
  | cons e d ih =>
      rw [List.map_cons, List.mem_cons, not_or] at h
      rw [assign, if_neg (Ne.symm h.1), ih h.2]
      rfl

namespace Index.Numbered

variable {index : Index} (h : index.Numbered)

include h

theorem nextRef_notMem : index.nextRef ∉ index.map (·.1) := by
  rw [h, List.mem_map]
  rintro ⟨n, hn, heq⟩
  exact absurd (refName_injective heq) (Nat.ne_of_lt (List.mem_range.mp hn))

theorem cite_eq (entry : Dict) : index.cite entry = index ++ [(index.nextRef, entry)] :=
  assign_of_notMem h.nextRef_notMem entry

theorem cite (entry : Dict) : (index.cite entry).Numbered := by
  rw [Numbered, h.cite_eq, List.map_append, h, List.length_append, List.length_singleton,
    List.range_succ, List.map_append]
  rfl

theorem mem_keys {ref : String} (hr : ref ∈ index.map (·.1)) :
    ∃ n < index.length, ref = refName n := by
  rw [h, List.mem_map] at hr
  obtain ⟨n, hn, rfl⟩ := hr
  exact ⟨n, List.mem_range.mp hn, rfl⟩

end Index.Numbered

/-- An entry that has been made stays. -/
theorem Index.find_cite {index : Index} (h : index.Numbered) {ref : String} {e : Dict}
    (hr : find ref index = some e) (entry : Dict) : find ref (index.cite entry) = some e := by
  have hne : ref ≠ index.nextRef := by
    rintro rfl
    exact h.nextRef_notMem (List.mem_map_of_mem (find_mem hr))
  rw [Index.cite, find_assign_ne hne, hr]

/-- An entry of the index. -/
def locator (rel : String) (lineStart lineEnd : Nat) (contentHash method : String) : Dict :=
  [("path", .str rel), ("line_start", .int lineStart), ("line_end", .int lineEnd),
   ("content_sha256", .str contentHash), ("extraction_method", .str method)]

/-- The local collections of `acquire_repo_evidence`. -/
structure Extraction where
  provenance : Index := []
  unknowns : List Dict := []
  languages : List (String × Nat) := []
  manifests : List Dict := []
  docClaims : List Dict := []
  pySources : List (String × String) := []
  fileHash : List (String × String) := []
  manifestRawText : List (String × String) := []
  symbols : List Dict := []
  entrypoints : List Dict := []
  importsGraph : List Dict := []
  modules : List Dict := []
  testFiles : List Dict := []

namespace Extraction

variable (s : Extraction)

/-- `unknowns.append({"path": rel, "reason": reason})` -/
def unknown (rel reason : String) : Extraction :=
  { s with unknowns := s.unknowns ++ [[("path", .str rel), ("reason", .str reason)]] }

/-- `file_hash[rel]` -/
def hashOf (rel : String) : String := (find rel s.fileHash).getD ""

end Extraction

/-! ### Files -/

/-- `_MANIFEST_NAMES` -/
def manifestNames : List (String × String) :=
  [("pyproject.toml", "python"), ("setup.py", "python"), ("setup.cfg", "python"),
   ("requirements.txt", "python"), ("package.json", "node"), ("Cargo.toml", "rust"),
   ("go.mod", "go")]

/-- The test on a line of a Markdown file. -/
def isClaim (readme : Bool) (stripped : List Char) : Bool :=
  '`' ∈ stripped || decide (['-', '-'] <:+: stripped) || (readme && stripped ≠ [])

/-- The claims of a text, with the number of the line of `str.splitlines`. -/
def claimsOf (readme : Bool) (text : String) : List (Nat × List Char) :=
  (((splitLines [] text.toList).map stripChars).zipIdx 1).filterMap fun line =>
    if isClaim readme line.1 then some (line.2, line.1) else none

/-- A line of a Markdown file that is a claim. -/
def addDocClaim (rel contentHash : String) (s : Extraction) (claim : Nat × List Char) :
    Extraction :=
  { s with
    provenance := s.provenance.cite (locator rel claim.1 claim.1 contentHash "regex")
    docClaims := s.docClaims ++
      [[("path", .str rel), ("line", .int claim.1), ("statement", .str (String.ofList claim.2)),
        ("evidence_ref", .str s.provenance.nextRef)]] }

/-- What is kept of a text, by the name of its file. -/
def addText (tools : Tools) (rel contentHash text : String) (s : Extraction) : Extraction :=
  if endsWith ".py" rel then { s with pySources := assign rel text s.pySources }
  else if endsWith ".toml" rel ∧ fileName rel = "pyproject.toml" then
    { s with manifestRawText := assign rel text s.manifestRawText }
  else if endsWith ".md" rel then
    (claimsOf (tools.casefold rel = "readme.md") text).foldl (addDocClaim rel contentHash) s
  else s

/-- One round of the loop over the files that have been read. -/
def addFile (tools : Tools) (s : Extraction) (r : FileRead) : Except PyExc Extraction :=
  match r.contentHash with
  | none => .error (.repositoryEvidenceError ("could not read in-scope file: " ++ r.rel))
  | some contentHash =>
      let ext := if fileSuffix r.rel = "" then "(none)" else fileSuffix r.rel
      let s := { s with
        fileHash := assign r.rel contentHash s.fileHash
        languages := assign ext ((find ext s.languages).getD 0 + 1) s.languages
        manifests := s.manifests ++
          ((find (fileName r.rel) manifestNames).toList.map fun kind =>
            [("path", .str r.rel), ("kind", .str kind)]) }
      match r.content with
      | .oversized => .ok (s.unknown r.rel "oversized_skipped_for_extraction")
      | .binary => .ok (s.unknown r.rel "binary_skipped_for_extraction")
      | .text text => .ok (addText tools r.rel contentHash text s)

/-! ### Python sources -/

/-- One round of the loop that parses: what has been parsed so far, and the unknowns. -/
def parseSource (tools : Tools) (state : List (String × PyModule) × Extraction)
    (source : String × String) : Except PyExc (List (String × PyModule) × Extraction) :=
  match tools.parse source.2 with
  | .ok tree => .ok (assign source.1 tree state.1, state.2)
  | .error .refused =>
      .ok (state.1, state.2.unknown source.1 "python_syntax_error_unparseable")
  | .error (.raised e) => .error e

/-- One statement of the body of a module. -/
def addStmt (rel : String) (s : Extraction) (stmt : Stmt) : Extraction :=
  match stmt with
  | .define kind name lineno endLineno =>
      { s with
        provenance := s.provenance.cite (locator rel lineno endLineno (s.hashOf rel) "ast")
        symbols := s.symbols ++
          [[("path", .str rel), ("name", .str name), ("kind", .str kind.text),
            ("line", .int lineno), ("evidence_ref", .str s.provenance.nextRef)]] }
  | .mainGuard lineno endLineno =>
      { s with
        provenance := s.provenance.cite (locator rel lineno endLineno (s.hashOf rel) "ast")
        entrypoints := s.entrypoints ++
          [[("path", .str rel), ("reason", .str "if __name__ == \"__main__\""),
            ("evidence_ref", .str s.provenance.nextRef), ("resolved_path", .str rel),
            ("target_evidence_ref", .str s.provenance.nextRef)]] }
  | .other => s

/-- One module of the loop for symbols and entrypoints. -/
def addModuleBody (s : Extraction) (source : String × PyModule) : Extraction :=
  source.2.body.foldl (addStmt source.1) s

/-! ### Modules by name -/

/-- `module_index` -/
abbrev ModuleIndex := List (ModuleName × String)

/-- The name of a file under `src/`, less that directory. -/
def aliasName (rel : String) : Option ModuleName :=
  if ! startsWith "src/" rel then none
  else
    match moduleName rel with
    | some ("src" :: first :: rest) => some (first :: rest)
    | _ => none

/-- A file under its own name. -/
def indexRaw (index : ModuleIndex) (source : String × PyModule) : ModuleIndex :=
  match moduleName source.1 with
  | some name => if name.isBlank then index else assign name source.1 index
  | none => index

/-- A file under its name without `src`, if that is free. -/
def indexAlias (index : ModuleIndex) (source : String × PyModule) : ModuleIndex :=
  match aliasName source.1 with
  | some name =>
      if name.isBlank ∨ (find name index).isSome then index else assign name source.1 index
  | none => index

/-- `_build_module_index` -/
def buildModuleIndex (parsed : List (String × PyModule)) : ModuleIndex :=
  parsed.foldl indexAlias (parsed.foldl indexRaw [])

/-- The longest of the first `n` beginnings of a name that is in the index. -/
def resolvePrefix (index : ModuleIndex) (name : ModuleName) : Nat → Option String
  | 0 => none
  | n + 1 =>
      match find (name.take (n + 1)) index with
      | some rel => some rel
      | none => resolvePrefix index name n

/-- `_resolve_module` -/
def resolveModule (name : ModuleName) (index : ModuleIndex) : Option String :=
  resolvePrefix index name name.length

/-! ### Manifest entrypoints -/

/-- `{k: v for k, v in scripts.items() if isinstance(v, str)}` -/
def scriptTexts : Json → List (String × String)
  | .obj kvs => kvs.filterMap fun kv =>
      match kv.2 with
      | .str target => some (kv.1, target)
      | _ => none
  | _ => []

/-- `_manifest_script_entries` -/
def manifestScriptEntries (data : Dict) : Except PyExc (List (String × String)) := do
  let project ← ((lookup "project" data).getD (.obj [])).get "scripts"
  let poetry ←
    match fieldOf data "tool" with
    | .obj tool => ((lookup "poetry" tool).getD (.obj [])).get "scripts"
    | _ => .ok .null
  return (scriptTexts poetry).foldl (fun scripts kv => assign kv.1 kv.2 scripts)
    (scriptTexts project)

/-- The rest of a text after spaces, `key`, spaces and `=`, from the start of a line: is it
there? -/
def keyFollows (key : List Char) : List Char → Bool
  | [] => false
  | c :: cs =>
      (key.isPrefixOf (c :: cs) &&
        (((c :: cs).drop key.length).dropWhile isPySpace).head? == some '=') ||
      (isPySpace c && keyFollows key cs)

/-- The number of line feeds before the first match of `^\s*key\s*=`, with `re.MULTILINE`;
`start` says that a line starts here. -/
def firstKeyLine (key : List Char) (start : Bool) : List Char → Option Nat
  | [] => none
  | c :: cs =>
      if start && keyFollows key (c :: cs) then some 0
      else (firstKeyLine key (c == '\n') cs).map fun n => if c = '\n' then n + 1 else n

/-- `_find_manifest_key_line` -/
def findManifestKeyLine (rawText key : String) : Nat :=
  match firstKeyLine key.toList true rawText.toList with
  | some n => n + 1
  | none => 1

/-- `target.split(":", 1)`, when there is a colon -/
def splitTarget (target : String) : ModuleName × Option String :=
  let cs := target.toList
  let module := cs.takeWhile (· ≠ ':')
  let name := (splitChar '.' module).map String.ofList
  if ':' ∈ cs then (name, some (String.ofList (cs.drop (module.length + 1)))) else (name, none)

/-- `symbol_ref_by_path_name.get((path, name))`: the last one counts. -/
def symbolRef (symbols : List Dict) (path name : String) : Option String :=
  (symbols.reverse.find? fun sym =>
    fieldOf sym "path" = .str path ∧ fieldOf sym "name" = .str name).bind fun sym =>
      match fieldOf sym "evidence_ref" with
      | .str ref => some ref
      | _ => none

/-- What a script leads to: the file and the reference of the symbol, and why it does not. -/
def scriptTarget (index : ModuleIndex) (symbols : List Dict) (script : String × String) :
    Option String × Option String × Option String :=
  let target := splitTarget script.2
  let unresolved := "manifest_entrypoint_target_unresolved: " ++ script.1 ++ " -> " ++ script.2
  match find target.1 index with
  | none =>
      (none, none,
        some (unresolved ++ " (module '" ++ target.1.text ++ "' not found in scan scope)"))
  | some resolved =>
      match target.2 with
      | none => (some resolved, none, none)
      | some symbol =>
          if symbol = "" then (some resolved, none, none)
          else
            match symbolRef symbols resolved symbol with
            | some ref => (some resolved, some ref, none)
            | none =>
                (none, none,
                  some (unresolved ++ " (symbol '" ++ symbol ++ "' not found in " ++ resolved ++ ")"))

/-- One script of a manifest. -/
def addScript (index : ModuleIndex) (rel rawText : String) (s : Extraction)
    (script : String × String) : Extraction :=
  let target := scriptTarget index s.symbols script
  let s := target.2.2.elim s (s.unknown rel)
  let line := findManifestKeyLine rawText script.1
  { s with
    provenance := s.provenance.cite (locator rel line line (s.hashOf rel) "manifest_parse")
    entrypoints := s.entrypoints ++
      [[("path", .str rel),
        ("reason", .str ("pyproject.toml script '" ++ script.1 ++ "' -> " ++ script.2)),
        ("evidence_ref", .str s.provenance.nextRef), ("resolved_path", Json.ofOption target.1),
        ("target_evidence_ref", Json.ofOption target.2.1)]] }

/-- The table that `tomllib.loads` returns. -/
def tableOf : Json → Dict
  | .obj kvs => kvs
  | _ => []

/-- One manifest. -/
def addManifest (tools : Tools) (index : ModuleIndex) (s : Extraction)
    (manifest : String × String) : Except PyExc Extraction :=
  match tools.toml manifest.2 with
  | .error .refused => .ok (s.unknown manifest.1 "toml_unparseable")
  | .error (.raised e) => .error e
  | .ok data => do
      let scripts ← manifestScriptEntries (tableOf data)
      return scripts.foldl (addScript index manifest.1 manifest.2) s

/-! ### The import graph -/

/-- `xs[:stop]` -/
def sliceTo {α : Type} (xs : List α) (stop : Int) : List α :=
  if 0 ≤ stop then xs.take stop.toNat else xs.take (xs.length + stop).toNat

/-- `package_parts` of `_resolve_import_target` -/
def packageParts (rel : String) : ModuleName :=
  let importing := (moduleName rel).getD []
  let base := if importing.isBlank then [] else importing
  if fileName rel = "__init__.py" then base else base.dropLast

/-- `base` of an import of `level` and `module` -/
def importBase (rel : String) (level : Nat) (module : Option ModuleName) : ModuleName :=
  if level = 0 then module.getD []
  else
    let package := packageParts rel
    let up : Nat := level - 1
    (if up = 0 then package else sliceTo package ((package.length : Int) - up)) ++ module.getD []

/-- `_resolve_import_target` of a `from` import -/
def fromTargets (rel : String) (level : Nat) (module : Option ModuleName) (names : List String) :
    List (String × ModuleName) :=
  let base := importBase rel level module
  let submodule (name : String) : ModuleName := if base.isBlank then [name] else base ++ [name]
  (if base.isBlank then [] else [(base.text, base)]) ++
    names.map fun name =>
      (if level = 0 then (submodule name).text
        else String.ofList (List.replicate level '.') ++ (module.getD []).text ++ "." ++ name,
        submodule name)

/-- `_resolve_import_target` -/
def resolveImportTarget (rel : String) : Node → List (String × ModuleName)
  | .import_ names _ => names.map fun name => (name.text, name)
  | .importFrom level module names _ => fromTargets rel level module names
  | _ => []

/-- `_worth_resolving`, and `candidate` itself -/
def worthResolving (tools : Tools) (candidate : ModuleName) : Bool :=
  !candidate.isBlank && !tools.stdlibModule (candidate.headD "")

/-- What a name stands for, when that makes an edge or an unknown. -/
def addTarget (tools : Tools) (index : ModuleIndex) (rel : String) (lineno : Nat)
    (state : List String × Extraction) (target : String × ModuleName) : List String × Extraction :=
  let (seen, s) := state
  if ! worthResolving tools target.2 then (seen, s)
  else
    match resolveModule target.2 index with
    | none => (seen, s.unknown rel ("unresolved_import:" ++ target.1))
    | some resolved =>
        if resolved = rel ∨ resolved ∈ seen then (seen, s)
        else
          (resolved :: seen,
            { s with
              provenance := s.provenance.cite (locator rel lineno lineno (s.hashOf rel) "ast")
              importsGraph := s.importsGraph ++
                [[("from_path", .str rel), ("to_path", .str resolved),
                  ("evidence_ref", .str s.provenance.nextRef)]] })

def Node.lineno : Node → Nat
  | import_ _ lineno | importFrom _ _ _ lineno => lineno
  | _ => 0

/-- One node of a module. -/
def addNode (tools : Tools) (index : ModuleIndex) (rel : String) (s : Extraction) (node : Node) :
    Extraction :=
  ((resolveImportTarget rel node).foldl (addTarget tools index rel node.lineno) ([], s)).2

/-- One module of the loop for the import graph. -/
def addImports (tools : Tools) (index : ModuleIndex) (s : Extraction)
    (source : String × PyModule) : Extraction :=
  source.2.walk.foldl (addNode tools index source.1) s

/-! ### Modules and tests -/

/-- The number of edges with `path` at one end. -/
def degree (graph : List Dict) (endKey path : String) : Nat :=
  graph.countP fun edge => fieldOf edge endKey = .str path

/-- `_TEST_DIR_MARKERS`, or the name of the file -/
def isTestFile (rel : String) : Bool :=
  ["tests/", "test/"].any (fun marker => decide (marker.toList <:+: '/' :: rel.toList)) ||
    startsWith "test_" (fileName rel)

/-- One module. -/
def addModule (s : Extraction) (source : String × PyModule) : Extraction :=
  let rel := source.1
  let ref := s.provenance.nextRef
  { s with
    provenance := s.provenance.cite (locator rel 1 1 (s.hashOf rel) "ast")
    modules := s.modules ++
      [[("path", .str rel), ("fan_in", .int (degree s.importsGraph "to_path" rel)),
        ("fan_out", .int (degree s.importsGraph "from_path" rel)), ("evidence_ref", .str ref)]]
    testFiles := if isTestFile rel then
        s.testFiles ++ [[("path", .str rel), ("evidence_ref", .str ref)]]
      else s.testFiles }

/-- `test_to_prod_links` -/
def testToProdLinks (testFiles importsGraph : List Dict) : List Dict :=
  testFiles.flatMap fun test =>
    (importsGraph.filter fun edge =>
        fieldOf edge "from_path" = fieldOf test "path" ∧
          ∀ other ∈ testFiles, fieldOf other "path" ≠ fieldOf edge "to_path").map fun edge =>
      [("test_path", fieldOf test "path"), ("prod_path", fieldOf edge "to_path"),
        ("basis", .str "imports"), ("evidence_ref", fieldOf test "evidence_ref")]

/-- `usage_counts.get(name, 0)` -/
def usageCount (parsed : List (String × PyModule)) (name : Json) : Nat :=
  (parsed.flatMap (·.2.walk)).countP fun
    | .loadName id => Json.str id = name
    | .attribute attr => Json.str attr = name
    | _ => false

/-- `dead_code_candidates` -/
def deadCodeCandidates (parsed : List (String × PyModule)) (s : Extraction) : List Dict :=
  (s.symbols.filter fun sym =>
      (∀ test ∈ s.testFiles, fieldOf test "path" ≠ fieldOf sym "path") ∧
      (∀ edge ∈ s.importsGraph, fieldOf edge "to_path" ≠ fieldOf sym "path") ∧
      usageCount parsed (fieldOf sym "name") = 0).map fun sym =>
    [("path", fieldOf sym "path"), ("symbol", fieldOf sym "name"),
      ("basis", .str "no_incoming_import_edge_and_no_ast_reference_found"),
      ("evidence_ref", fieldOf sym "evidence_ref")]

/-- ``re.findall(r"`([^`]+)`", text)``, with what has been read since a backquote, last first -/
def backquoted : Option (List Char) → List Char → List (List Char)
  | _, [] => []
  | none, c :: cs => backquoted (if c = '`' then some [] else none) cs
  | some token, c :: cs =>
      if c = '`' then
        if token = [] then backquoted (some []) cs else token.reverse :: backquoted none cs
      else backquoted (some (c :: token)) cs

/-- `contradiction_candidates` -/
def contradictionCandidates (s : Extraction) : List Dict :=
  let allPyText := "\n".intercalate (s.pySources.map (·.2))
  s.docClaims.flatMap fun claim =>
    let statement := match fieldOf claim "statement" with | .str t => t | _ => ""
    ((backquoted none statement.toList).filter fun token =>
        let bare := token.dropWhile (· = '-')
        bare ≠ [] ∧ ¬ bare <:+: allPyText.toList).map fun token =>
      [("doc_claim_ref", fieldOf claim "evidence_ref"), ("conflicting_source_ref", .null),
        ("basis", .str ("doc references `" ++ String.ofList token ++
          "`, not found in any scanned Python source"))]

/-! ### The pack -/

/-- `RepositoryEvidencePack` -/
structure Pack where
  packId : String
  authorizedRepoRoot : String
  authorization : Dict
  contractVersion : String
  workspaceIdentity : Dict
  scanScopeDigest : String
  scanPaths : List String
  missingTrackedFiles : List String
  languages : List (String × Nat)
  manifests : List Dict
  entrypoints : List Dict
  modules : List Dict
  symbols : List Dict
  importsGraph : List Dict
  testFiles : List Dict
  testToProdLinks : List Dict
  docClaims : List Dict
  contradictionCandidates : List Dict
  deadCodeCandidates : List Dict
  unknowns : List Dict
  provenanceIndex : Index
  generatedAt : String

/-- `CONTRACT_VERSION` -/
def contractVersion : String := "1.0.0"

/-- `scanned`: paths with a hash, or with `MISSING_TRACKED_SENTINEL`. -/
def scanned (scan : Scan) : List (String × String) :=
  scan.missingTracked.map (·, "MISSING_TRACKED") ++
    scan.reads.map fun r => (r.rel, r.contentHash.getD "")

/-- `sorted`, of texts -/
def sorted (xs : List String) : List String := xs.insertionSort (· ≤ ·)

/-- The order of pairs. -/
def pairLe (a b : String × String) : Bool := a.1 < b.1 || (a.1 = b.1 && a.2 ≤ b.2)

/-- `scan_scope_digest` -/
def scanScopeDigest (tools : Tools) (files : List (String × String)) : String :=
  (tools.sha256 ("\n".intercalate
    ((files.insertionSort fun a b => pairLe a b = true).map fun f => f.1 ++ ":" ++ f.2))).1

/-- The pack, from the collections. -/
def packOf (tools : Tools) (scan : Scan) (parsed : List (String × PyModule)) (s : Extraction) :
    Pack :=
  let digest := scanScopeDigest tools (scanned scan)
  let repoRootId := (tools.sha256 scan.root).1
  { packId := String.ofList ((tools.sha256 (repoRootId ++ "|" ++
      (if scan.head = some "" then "none" else scan.head.getD "none") ++ "|" ++ digest ++ "|" ++
        contractVersion)).1.toList.take 32)
    authorizedRepoRoot := scan.root
    authorization :=
      [("authorized_by", .str scan.authorizedBy),
       ("authorization_note", .str scan.authorizationNote),
       ("excluded_paths", .arr (scan.excludedPaths.map .str))]
    contractVersion := contractVersion
    workspaceIdentity :=
      [("repo_root_id", .str repoRootId), ("vcs", .str scan.vcs),
       ("head", Json.ofOption scan.head), ("branch", Json.ofOption scan.branch)]
    scanScopeDigest := digest
    scanPaths := sorted ((scanned scan).map (·.1))
    missingTrackedFiles := sorted scan.missingTracked
    languages := s.languages
    manifests := s.manifests
    entrypoints := s.entrypoints
    modules := s.modules
    symbols := s.symbols
    importsGraph := s.importsGraph
    testFiles := s.testFiles
    testToProdLinks := testToProdLinks s.testFiles s.importsGraph
    docClaims := s.docClaims
    contradictionCandidates := contradictionCandidates s
    deadCodeCandidates := deadCodeCandidates parsed s
    unknowns := s.unknowns
    provenanceIndex := s.provenance
    generatedAt := scan.now }

/-- The unknowns before the first file. -/
def initialExtraction (scan : Scan) : Extraction :=
  scan.missingTracked.foldl (fun s rel => s.unknown rel "tracked_path_deleted_in_worktree")
    (scan.symlinkSkips.foldl (fun s skip => s.unknown skip.1 skip.2) {})

/-- `sys.maxsize`, which the length of a dict does not exceed -/
def maxSize : Nat := 2 ^ 63 - 1

/-- `acquire_repo_evidence`, once the files have been read -/
def acquireRepoEvidence (tools : Tools) (scan : Scan) : Except PyExc Pack := do
  let s ← scan.reads.foldlM (addFile tools) (initialExtraction scan)
  let (parsed, s) ← s.pySources.foldlM (parseSource tools) ([], s)
  let index := buildModuleIndex parsed
  let s := parsed.foldl addModuleBody s
  let s ← s.manifestRawText.foldlM (addManifest tools index) s
  let s := parsed.foldl (addImports tools index) s
  let s := parsed.foldl addModule s
  if maxSize < s.provenance.length then .error (.exception "MemoryError")
  else return packOf tools scan parsed s

end Konoha.RepoEvidence
