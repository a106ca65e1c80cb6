/-
RepoEvidence/Scope.lean

What the digest of the scanned files and the id of a pack identify.

An entry of the text that is hashed is a path, a colon and a mark (a digest, or that the file is
missing), and the entries are the lines of the text.  A path may hold line feeds itself, and comes
apart into several entries at each mark and line feed in it (`Pieces`).  Two sets have one text
exactly when they come apart into the same pieces (`scopeText_eq_iff`); this tells all sets apart in
whose paths there is no mark with a line feed (`apart_of_plain`), and not those of
`merged_scopeText`.
-/
import KonohaRuntime.Base.Lists
import KonohaRuntime.Base.RoundTrip

namespace Konoha.RepoEvidence

open CodePoint

/-! ### The text -/

/-- What is known of the content of a path: `content_hash`, or `MISSING_TRACKED_SENTINEL`. -/
inductive Mark
  | hash (digest : Digest)
  | missing
  deriving DecidableEq

def Mark.text : Mark → PyStr
  | hash digest => PyStr.ofString digest.1
  | missing => PyStr.ofString "MISSING_TRACKED"

/-- A relative path with its mark. -/
abbrev ScopeEntry := PyStr × Mark

/-- `f"{rel}:{content_hash}"` -/
def entryText (e : ScopeEntry) : PyStr := e.1 ++ scalar ':' :: e.2.text

/-- The order of the pairs. -/
def entryLE (e e' : ScopeEntry) : Bool :=
  if e.1 = e'.1 then PyJson.keyLE e.2.text e'.2.text else PyJson.keyLE e.1 e'.1

/-- `sorted(files)` -/
def sortedFiles (files : List ScopeEntry) : List ScopeEntry :=
  files.insertionSort fun e e' => entryLE e e' = true

/-- The text that `scan_scope_digest` hashes. -/
def scopeText (files : List ScopeEntry) : PyStr :=
  List.intercalate [scalar '\n'] ((sortedFiles files).map entryText)

/-- `scan_scope_digest` -/
def scopeDigest (sha256 : String → Digest) (files : List ScopeEntry) : Except PyExc Digest := do
  let text ← PyStr.encode (scopeText files)
  return sha256 text

/-! ### One entry -/

/-- The path has no colon, mark and line feed in it. -/
def PlainPath (path : PyStr) : Prop :=
  ∀ mark : Mark, ¬ scalar ':' :: mark.text ++ [scalar '\n'] <:+: path

theorem Mark.notMem_text (mark : Mark) {c : Char} (hc : c = ':' ∨ c = '\n') :
    scalar c ∉ mark.text := by
  intro hmem
  cases mark with
  | missing =>
      revert hmem
      rcases hc with rfl | rfl <;> decide +kernel
  | hash digest =>
      obtain ⟨d, hd, heq⟩ := List.mem_map.mp hmem
      obtain rfl := CodePoint.scalar.inj heq
      have hall := List.all_eq_true.mp (Bool.and_eq_true_iff.mp digest.2).2 d hd
      revert hall
      rcases hc with rfl | rfl <;> decide

theorem Mark.text_injective : Function.Injective Mark.text := by
  have hmissing : ∀ digest : Digest, Mark.text (.hash digest) ≠ Mark.text .missing := by
    intro digest h
    have hlength : digest.1.toList.length = 64 :=
      eq_of_beq (Bool.and_eq_true_iff.mp digest.2).1
    have hlengths := congrArg List.length h
    rw [Mark.text, PyStr.ofString, List.length_map, hlength] at hlengths
    revert hlengths
    decide +kernel
  intro mark mark' h
  cases mark with
  | missing =>
      cases mark' with
      | missing => rfl
      | hash digest => exact absurd h.symm (hmissing digest)
  | hash digest =>
      cases mark' with
      | missing => exact absurd h (hmissing digest)
      | hash digest' => exact congrArg Mark.hash (Subtype.ext (PyStr.ofString_injective h))

theorem entryText_injective : Function.Injective entryText := by
  intro e e' h
  obtain ⟨hpath, hmark⟩ := List.parted_at_last (e.2.notMem_text (.inl rfl)) (e'.2.notMem_text (.inl rfl)) h
  exact Prod.ext hpath (Mark.text_injective hmark)

/-- An entry does not go on in a longer one with a plain path. -/
theorem not_prefix_of_plain {e e' : ScopeEntry} (hplain : PlainPath e'.1) :
    ¬ entryText e ++ [scalar '\n'] <+: entryText e' := by
  rintro ⟨rest, h⟩
  refine hplain e.2 ?_
  -- the line feed stands in the path of the longer entry
  have hfeed : scalar '\n' ∉ scalar ':' :: e'.2.text := by
    rw [List.mem_cons, not_or]
    exact ⟨by decide, e'.2.notMem_text (.inr rfl)⟩
  have h' : entryText e ++ scalar '\n' :: rest = e'.1 ++ scalar ':' :: e'.2.text :=
    (List.append_cons _ _ _).trans h
  rcases List.append_eq_append_iff.mp h' with ⟨zs, hpath, hrest⟩ | ⟨zs, htext, hrest⟩
  · cases zs with
    | nil =>
        rw [List.nil_append] at hrest
        exact absurd (hrest ▸ List.mem_cons_self) hfeed
    | cons z zs =>
        obtain ⟨rfl, -⟩ := List.cons.inj hrest
        refine ⟨e.1, zs, ?_⟩
        rw [hpath, entryText]
        simp
  · exact absurd (hrest ▸ List.mem_append_right _ List.mem_cons_self) hfeed

/-! ### All entries -/

/-- The entries that follow one. -/
def following (es : List ScopeEntry) : PyStr := es.flatMap fun e => scalar '\n' :: entryText e

theorem intercalate_entries (e : ScopeEntry) (es : List ScopeEntry) :
    List.intercalate [scalar '\n'] ((e :: es).map entryText) = entryText e ++ following es := by
  induction es generalizing e with
  | nil => rw [List.map_singleton, List.intercalate_singleton, following, List.flatMap_nil,
      List.append_nil]
  | cons e' es ih =>
      rw [List.map_cons, List.map_cons, List.intercalate_cons_cons, ← List.map_cons, ih,
        List.append_assoc]
      rfl

theorem following_eq_cons {es : List ScopeEntry} {z : CodePoint} {zs : PyStr}
    (h : following es = z :: zs) : z = scalar '\n' := by
  cases es with
  | nil => cases h
  | cons e es => exact (List.cons.inj h).1.symm

/-- The first of the entries with plain paths can be read. -/
theorem entries_cons_inj {e e' : ScopeEntry} {es es' : List ScopeEntry} (hplain : PlainPath e.1)
    (hplain' : PlainPath e'.1)
    (h : entryText e ++ following es = entryText e' ++ following es') :
    e = e' ∧ following es = following es' := by
  -- what is left of the longer one would begin with a line feed
  have hshort : ∀ {e e' : ScopeEntry} {zs : PyStr} {es es' : List ScopeEntry}, PlainPath e'.1 →
      entryText e' = entryText e ++ zs → following es = zs ++ following es' → zs = [] := by
    intro e e' zs es es' hplain' htext hrest
    cases zs with
    | nil => rfl
    | cons z zs =>
        obtain rfl := following_eq_cons hrest
        refine absurd ⟨zs, ?_⟩ (not_prefix_of_plain (e := e) hplain')
        rw [htext, List.append_assoc]
        rfl
  -- neither of the first entries is longer than the other
  rcases List.append_eq_append_iff.mp h with ⟨zs, htext, hrest⟩ | ⟨zs, htext, hrest⟩
  · obtain rfl := hshort hplain' htext hrest
    rw [List.append_nil] at htext
    exact ⟨(entryText_injective htext).symm, hrest⟩
  · obtain rfl := hshort hplain htext hrest
    rw [List.append_nil] at htext
    exact ⟨entryText_injective htext, hrest.symm⟩

theorem following_inj {es es' : List ScopeEntry} (hplain : ∀ e ∈ es, PlainPath e.1)
    (hplain' : ∀ e ∈ es', PlainPath e.1) (h : following es = following es') : es = es' := by
  induction es generalizing es' with
  | nil =>
      cases es' with
      | nil => rfl
      | cons e' es' => cases h
  | cons e es ih =>
      cases es' with
      | nil => cases h
      | cons e' es' =>
          obtain ⟨he, hes⟩ := List.forall_mem_cons.mp hplain
          obtain ⟨he', hes'⟩ := List.forall_mem_cons.mp hplain'
          obtain ⟨rfl, hrest⟩ := entries_cons_inj he he' (List.cons.inj h).2
          rw [ih hes hes' hrest]

/-! ### The order -/

theorem entryLE_total (e e' : ScopeEntry) : entryLE e e' = true ∨ entryLE e' e = true := by
  unfold entryLE
  by_cases h : e.1 = e'.1
  · rw [if_pos h, if_pos h.symm]
    exact PyJson.keyLE_total _ _
  · rw [if_neg h, if_neg (Ne.symm h)]
    exact PyJson.keyLE_total _ _

theorem entryLE_trans {e e' e'' : ScopeEntry} (h : entryLE e e' = true)
    (h' : entryLE e' e'' = true) : entryLE e e'' = true := by
  obtain ⟨path, mark⟩ := e
  obtain ⟨path', mark'⟩ := e'
  obtain ⟨path'', mark''⟩ := e''
  unfold entryLE at *
  dsimp only at *
  by_cases h₁ : path = path'
  · subst h₁
    rw [if_pos rfl] at h
    by_cases h₂ : path = path''
    · rw [if_pos h₂] at h' ⊢
      exact PyJson.keyLE_trans h h'
    · rw [if_neg h₂] at h' ⊢
      exact h'
  · rw [if_neg h₁] at h
    by_cases h₂ : path' = path''
    · subst h₂
      rw [if_neg h₁]
      exact h
    · rw [if_neg h₂] at h'
      have hne : path ≠ path'' := fun heq => h₁ (PyJson.keyLE_antisymm h (heq ▸ h'))
      rw [if_neg hne]
      exact PyJson.keyLE_trans h h'

theorem entryLE_antisymm {e e' : ScopeEntry} (h : entryLE e e' = true) (h' : entryLE e' e = true) :
    e = e' := by
  unfold entryLE at h h'
  by_cases hpath : e.1 = e'.1
  · rw [if_pos hpath] at h
    rw [if_pos hpath.symm] at h'
    exact Prod.ext hpath (Mark.text_injective (PyJson.keyLE_antisymm h h'))
  · rw [if_neg hpath] at h
    rw [if_neg (Ne.symm hpath)] at h'
    exact absurd (PyJson.keyLE_antisymm h h') hpath

/-- The order in which the files are given is of no importance. -/
theorem sorted_perm {files files' : List ScopeEntry} (h : files.Perm files') :
    sortedFiles files = sortedFiles files' := by
  have hsorted : ∀ files : List ScopeEntry,
      (sortedFiles files).Pairwise fun e e' => entryLE e e' = true := fun files =>
    @List.pairwise_insertionSort _ (fun e e' : ScopeEntry => entryLE e e' = true) _
      ⟨entryLE_total⟩ ⟨fun _ _ _ => entryLE_trans⟩ files
  refine List.Perm.eq_of_pairwise (fun e e' _ _ => entryLE_antisymm) (hsorted files) (hsorted files') ?_
  exact (List.perm_insertionSort _ _).trans (h.trans (List.perm_insertionSort _ _).symm)

/-- Only the same files stand in the same order. -/
theorem sortedFiles_inj {files files' : List ScopeEntry} :
    sortedFiles files = sortedFiles files' ↔ files.Perm files' := by
  refine ⟨fun h => ?_, sorted_perm⟩
  have hp : (sortedFiles files).Perm files := List.perm_insertionSort _ files
  have hp' : (sortedFiles files').Perm files' := List.perm_insertionSort _ files'
  exact hp.symm.trans (h ▸ hp')

/-! ### The pieces of the entries -/

/-- The path `a` with its mark, a line feed, and the path `b`. -/
def mergedPath (a b : PyStr) (mark : Mark) : PyStr :=
  a ++ scalar ':' :: mark.text ++ scalar '\n' :: b

/-- The entries that the entries come apart into when each path is cut after every colon, mark and line
feed in it. -/
inductive Pieces : List ScopeEntry → List ScopeEntry → Prop
  | nil : Pieces [] []
  | whole {path : PyStr} {mark : Mark} {es ps : List ScopeEntry} : PlainPath path → Pieces es ps →
      Pieces ((path, mark) :: es) ((path, mark) :: ps)
  | cut {first rest : PyStr} {mark mark' : Mark} {es ps : List ScopeEntry} : PlainPath first →
      Pieces ((rest, mark') :: es) ps →
      Pieces ((mergedPath first rest mark, mark') :: es) ((first, mark) :: ps)

/-- A path is plain, or can be cut for the first time. -/
theorem plain_or_merged (path : PyStr) : PlainPath path ∨
    ∃ first rest mark, PlainPath first ∧ path = mergedPath first rest mark := by
  induction hn : path.length using Nat.strong_induction_on generalizing path with
  | _ n ih =>
      by_cases hplain : PlainPath path
      · exact .inl hplain
      · right
        unfold PlainPath at hplain
        push Not at hplain
        obtain ⟨mark, before, after, rfl⟩ := hplain
        have hlt : before.length < n := by
          rw [← hn]
          simp only [List.length_append, List.length_cons]
          omega
        -- an earlier mark, if there is one, cuts first
        rcases ih _ hlt before rfl with hbefore | ⟨first, rest, mark', hfirst, rfl⟩
        · exact ⟨before, after, mark, hbefore, by simp [mergedPath]⟩
        · exact ⟨first, rest ++ (scalar ':' :: mark.text ++ [scalar '\n']) ++ after, mark', hfirst,
            by simp [mergedPath]⟩

theorem exists_pieces (es : List ScopeEntry) : ∃ ps, Pieces es ps := by
  induction es with
  | nil => exact ⟨[], .nil⟩
  | cons e es ih =>
      obtain ⟨ps, hps⟩ := ih
      obtain ⟨path, mark'⟩ := e
      -- what is left of the path after a cut is shorter
      induction hn : path.length using Nat.strong_induction_on generalizing path with
      | _ n ih =>
          rcases plain_or_merged path with hplain | ⟨first, rest, mark, hfirst, rfl⟩
          · exact ⟨_, .whole hplain hps⟩
          · have hlt : rest.length < n := by
              rw [← hn]
              simp only [mergedPath, List.length_append, List.length_cons]
              omega
            obtain ⟨ps', hps'⟩ := ih _ hlt rest rfl
            exact ⟨_, .cut hfirst hps'⟩

/-- A plain path is left as it is. -/
theorem pieces_self {es : List ScopeEntry} (hplain : ∀ e ∈ es, PlainPath e.1) : Pieces es es := by
  induction es with
  | nil => exact .nil
  | cons e es ih =>
      obtain ⟨he, hes⟩ := List.forall_mem_cons.mp hplain
      exact .whole he (ih hes)

theorem Pieces.plain {es ps : List ScopeEntry} (h : Pieces es ps) : ∀ p ∈ ps, PlainPath p.1 := by
  induction h with
  | nil => exact fun p hp => absurd hp List.not_mem_nil
  | whole hplain _ ih => exact List.forall_mem_cons.mpr ⟨hplain, ih⟩
  | cut hfirst _ ih => exact List.forall_mem_cons.mpr ⟨hfirst, ih⟩

/-- The pieces are hashed as the entries are. -/
theorem Pieces.following {es ps : List ScopeEntry} (h : Pieces es ps) : following es = following ps := by
  induction h with
  | nil => rfl
  | whole _ _ ih => exact congrArg (scalar '\n' :: _ ++ ·) ih
  | @cut first rest mark mark' es ps _ _ ih =>
      have htail : scalar '\n' :: (entryText (rest, mark') ++ RepoEvidence.following es) =
          RepoEvidence.following ps := ih
      show scalar '\n' :: entryText (mergedPath first rest mark, mark') ++ RepoEvidence.following es =
        scalar '\n' :: entryText (first, mark) ++ RepoEvidence.following ps
      rw [← htail]
      simp [entryText, mergedPath]

/-- There is one way to cut the entries. -/
theorem Pieces.unique {es ps ps' : List ScopeEntry} (h : Pieces es ps) (h' : Pieces es ps') :
    ps = ps' :=
  following_inj h.plain h'.plain (h.following.symm.trans h'.following)

/-- The entries follow one another as their texts do. -/
theorem intercalate_inj_iff {es es' : List ScopeEntry} :
    List.intercalate [scalar '\n'] (es.map entryText) =
        List.intercalate [scalar '\n'] (es'.map entryText) ↔ following es = following es' := by
  cases es with
  | nil =>
      cases es' with
      | nil => exact ⟨fun _ => rfl, fun _ => rfl⟩
      | cons e' es' =>
          rw [intercalate_entries, entryText]
          simp [following]
  | cons e es =>
      cases es' with
      | nil =>
          rw [intercalate_entries, entryText]
          simp [following]
      | cons e' es' =>
          rw [intercalate_entries, intercalate_entries]
          exact ⟨fun h => congrArg (scalar '\n' :: ·) h, fun h => (List.cons.inj h).2⟩

/-- **What the text says**: the pieces of the files, in the order of the files. -/
theorem scopeText_eq_iff {files files' : List ScopeEntry} :
    scopeText files = scopeText files' ↔
      ∃ ps, Pieces (sortedFiles files) ps ∧ Pieces (sortedFiles files') ps := by
  rw [scopeText, scopeText, intercalate_inj_iff]
  constructor
  · intro h
    obtain ⟨ps, hps⟩ := exists_pieces (sortedFiles files)
    obtain ⟨ps', hps'⟩ := exists_pieces (sortedFiles files')
    obtain rfl := following_inj hps.plain hps'.plain
      (hps.following.symm.trans (h.trans hps'.following))
    exact ⟨ps, hps, hps'⟩
  · rintro ⟨ps, hps, hps'⟩
    exact hps.following.trans hps'.following.symm

/-- The sets are the same, or come apart into different pieces. -/
def Apart (files files' : List ScopeEntry) : Prop :=
  ∀ ps, Pieces (sortedFiles files) ps → Pieces (sortedFiles files') ps → files.Perm files'

/-- Sets with plain paths are told apart. -/
theorem apart_of_plain {files files' : List ScopeEntry} (hplain : ∀ e ∈ files, PlainPath e.1)
    (hplain' : ∀ e ∈ files', PlainPath e.1) : Apart files files' := by
  have hself : ∀ {files : List ScopeEntry}, (∀ e ∈ files, PlainPath e.1) →
      Pieces (sortedFiles files) (sortedFiles files) := fun hplain =>
    pieces_self fun e he => hplain e ((List.perm_insertionSort _ _).mem_iff.mp he)
  intro ps hps hps'
  exact sortedFiles_inj.mp (((hself hplain).unique hps).trans ((hself hplain').unique hps').symm)

theorem apart_iff {files files' : List ScopeEntry} :
    Apart files files' ↔ (scopeText files = scopeText files' → files.Perm files') := by
  rw [scopeText_eq_iff]
  exact ⟨fun h ⟨ps, hps, hps'⟩ => h ps hps hps', fun h ps hps hps' => h ⟨ps, hps, hps'⟩⟩

/-! ### The digest -/

theorem surrogate_mem_entryText {e : ScopeEntry} {n : Fin 2048} :
    surrogate n ∈ entryText e ↔ surrogate n ∈ e.1 := by
  have hscalars : ∀ t : String, surrogate n ∉ PyStr.ofString t := by
    intro t hmem
    obtain ⟨c, -, heq⟩ := List.mem_map.mp hmem
    cases heq
  have hmark : surrogate n ∉ e.2.text := by
    cases e.2 with
    | hash digest => exact hscalars _
    | missing => exact hscalars _
  simp [entryText, hmark]

theorem surrogate_mem_scopeText {files : List ScopeEntry} {n : Fin 2048} :
    surrogate n ∈ scopeText files ↔ ∃ e ∈ files, surrogate n ∈ e.1 := by
  have hmem : (∃ e ∈ files, surrogate n ∈ e.1) ↔ ∃ e ∈ sortedFiles files, surrogate n ∈ e.1 :=
    exists_congr fun e => and_congr_left' (List.perm_insertionSort _ files).mem_iff.symm
  rw [hmem]
  unfold scopeText
  generalize sortedFiles files = es
  cases es with
  | nil => simp
  | cons e es =>
      rw [intercalate_entries, List.mem_append, surrogate_mem_entryText, List.exists_mem_cons_iff]
      refine or_congr_right ?_
      rw [following, List.mem_flatMap]
      refine exists_congr fun e' => and_congr_right' ?_
      rw [List.mem_cons, surrogate_mem_entryText]
      exact ⟨fun h => h.resolve_left (by simp), .inr⟩

/-- Whether UTF-8 has the path. -/
def Encodable (path : PyStr) : Prop := ∀ n, surrogate n ∉ path

theorem encode_isOk_iff {s : PyStr} : (∃ t, s.encode = .ok t) ↔ Encodable s := by
  constructor
  · rintro ⟨t, ht⟩ n hn
    obtain ⟨e, he⟩ := PyStr.encode_eq_error_iff.mpr ⟨n, hn⟩
    cases ht.symm.trans he
  · intro h
    rcases hs : s.encode with e | t
    · obtain ⟨n, hn⟩ := PyStr.encode_eq_error_iff.mp ⟨e, hs⟩
      exact absurd hn (h n)
    · exact ⟨t, rfl⟩

theorem encode_scopeText_isOk_iff {files : List ScopeEntry} :
    (∃ t, (scopeText files).encode = .ok t) ↔ ∀ e ∈ files, Encodable e.1 := by
  rw [encode_isOk_iff]
  constructor
  · exact fun h e he n hn => h n (surrogate_mem_scopeText.mpr ⟨e, he, hn⟩)
  · intro h n hn
    obtain ⟨e, he, hn⟩ := surrogate_mem_scopeText.mp hn
    exact h e he n hn

theorem scopeDigest_eq_ok_iff {sha256 : String → Digest} {files : List ScopeEntry} {d : Digest} :
    scopeDigest sha256 files = .ok d ↔ ∃ t, (scopeText files).encode = .ok t ∧ sha256 t = d := by
  rw [scopeDigest]
  rcases (scopeText files).encode with e | t
  · constructor
    · intro h
      cases h
    · rintro ⟨t, ht, -⟩
      cases ht
  · constructor
    · exact fun h => ⟨t, rfl, Except.ok.inj h⟩
    · rintro ⟨t', ht, rfl⟩
      cases ht
      rfl

/-! ### The id of a pack -/

/-- What `git rev-parse HEAD` prints, a commit id or `HEAD`. -/
abbrev GitHead := { s : String // s ≠ "" ∧ s ≠ "none" }

/-- What a pack is named after. -/
structure ScopeIdentity where
  root : PyStr
  head : Option GitHead
  files : List ScopeEntry

/-- `head or 'none'` -/
def headText (head : Option GitHead) : String := (head.map (·.1)).getD "none"

/-- `f"{repo_root_id}|{head or 'none'}|{digest}|{CONTRACT_VERSION}"` -/
def packText (rootId : Digest) (head : Option GitHead) (digest : Digest) : List Char :=
  rootId.1.toList ++ ('|' :: (headText head).toList ++ ('|' :: digest.1.toList ++ "|1.0.0".toList))

/-- `pack_id` -/
def packIdOf (sha256 : String → Digest) (s : ScopeIdentity) : Except PyExc (List Char) := do
  let digest ← scopeDigest sha256 s.files
  let root ← s.root.encode
  return (sha256 (String.ofList (packText (sha256 root) s.head digest))).1.toList.take 32

theorem headText_injective : Function.Injective headText := by
  intro head head' h
  cases head with
  | none =>
      cases head' with
      | none => rfl
      | some s => exact absurd h.symm s.2.2
  | some s =>
      cases head' with
      | none => exact absurd h s.2.2
      | some s' => exact congrArg some (Subtype.ext h)

theorem packText_inj {rootId rootId' digest digest' : Digest} {head head' : Option GitHead}
    (h : packText rootId head digest = packText rootId' head' digest') :
    rootId = rootId' ∧ head = head' ∧ digest = digest' := by
  have hlength : ∀ d : Digest, d.1.toList.length = 64 := fun d =>
    eq_of_beq (Bool.and_eq_true_iff.mp d.2).1
  obtain ⟨hroot, hrest⟩ := List.append_inj h (by rw [hlength, hlength])
  obtain ⟨hhead, htail⟩ := List.append_inj' (List.cons.inj hrest).2 (by simp [hlength])
  obtain ⟨hdigest, -⟩ := List.append_inj (List.cons.inj htail).2 (by rw [hlength, hlength])
  exact ⟨Subtype.ext (String.toList_inj.mp hroot), headText_injective (String.toList_inj.mp hhead),
    Subtype.ext (String.toList_inj.mp hdigest)⟩

/-- What is hashed for the two does not collide, nor does what is left of the digest in the id. -/
structure NoCollision (sha256 : String → Digest) (s s' : ScopeIdentity) : Prop where
  root : ∀ r r', s.root.encode = .ok r → s'.root.encode = .ok r' → sha256 r = sha256 r' → r = r'
  files : ∀ t t', (scopeText s.files).encode = .ok t → (scopeText s'.files).encode = .ok t' →
    sha256 t = sha256 t' → t = t'
  id : ∀ r r' t t', s.root.encode = .ok r → s'.root.encode = .ok r' →
    (scopeText s.files).encode = .ok t → (scopeText s'.files).encode = .ok t' →
    (sha256 (String.ofList (packText (sha256 r) s.head (sha256 t)))).1.toList.take 32 =
      (sha256 (String.ofList (packText (sha256 r') s'.head (sha256 t')))).1.toList.take 32 →
    packText (sha256 r) s.head (sha256 t) = packText (sha256 r') s'.head (sha256 t')

/-- All paths of the scan can be encoded. -/
structure Legible (s : ScopeIdentity) : Prop where
  root : Encodable s.root
  files : ∀ e ∈ s.files, Encodable e.1

/-- The digests agree for the same files only, and the ids for the same repository, commit and files
only. -/
structure Identified (sha256 : String → Digest) (s s' : ScopeIdentity) : Prop where
  digests : ∃ d d', scopeDigest sha256 s.files = .ok d ∧ scopeDigest sha256 s'.files = .ok d' ∧
    (d = d' ↔ s.files.Perm s'.files)
  ids : ∃ i i', packIdOf sha256 s = .ok i ∧ packIdOf sha256 s' = .ok i' ∧
    (i = i' → s.root = s'.root ∧ s.head = s'.head ∧ s.files.Perm s'.files)

theorem packIdOf_eq_ok_iff {sha256 : String → Digest} {s : ScopeIdentity} {i : List Char} :
    packIdOf sha256 s = .ok i ↔ ∃ t r, (scopeText s.files).encode = .ok t ∧
      s.root.encode = .ok r ∧
      (sha256 (String.ofList (packText (sha256 r) s.head (sha256 t)))).1.toList.take 32 = i := by
  rw [packIdOf, scopeDigest]
  rcases (scopeText s.files).encode with e | t
  · constructor
    · intro h
      cases h
    · rintro ⟨t, r, ht, -⟩
      cases ht
  · rcases s.root.encode with e | r
    · constructor
      · intro h
        cases h
      · rintro ⟨t, r, -, hr, -⟩
        cases hr
    · constructor
      · exact fun h => ⟨t, r, rfl, rfl, Except.ok.inj h⟩
      · rintro ⟨t', r', ht, hr, rfl⟩
        cases ht
        cases hr
        rfl

theorem legible_of_packIdOf {sha256 : String → Digest} {s : ScopeIdentity} {i : List Char}
    (h : packIdOf sha256 s = .ok i) : Legible s := by
  obtain ⟨t, r, ht, hr, -⟩ := packIdOf_eq_ok_iff.mp h
  exact ⟨encode_isOk_iff.mp ⟨r, hr⟩, encode_scopeText_isOk_iff.mp ⟨t, ht⟩⟩

/-- Without collisions the digests agree exactly for one text. -/
theorem sha256_scopeText_iff {sha256 : String → Digest} {s s' : ScopeIdentity} {t t' : String}
    (hsha : NoCollision sha256 s s') (ht : (scopeText s.files).encode = .ok t)
    (ht' : (scopeText s'.files).encode = .ok t') :
    sha256 t = sha256 t' ↔ scopeText s.files = scopeText s'.files := by
  constructor
  · intro heq
    obtain rfl := hsha.files t t' ht ht' heq
    exact (PyStr.encode_eq_ok_iff.mp ht).trans (PyStr.encode_eq_ok_iff.mp ht').symm
  · intro heq
    rw [heq, ht'] at ht
    rw [Except.ok.inj ht]

/-- **What a digest and an id identify**: the two scans, exactly when all their paths can be encoded
and the sets are the same or come apart into different pieces. -/
theorem identified_iff {sha256 : String → Digest} {s s' : ScopeIdentity}
    (hsha : NoCollision sha256 s s') :
    Identified sha256 s s' ↔ Legible s ∧ Legible s' ∧ Apart s.files s'.files := by
  have hperm : s.files.Perm s'.files → scopeText s.files = scopeText s'.files := by
    intro h
    rw [scopeText, scopeText, sorted_perm h]
  constructor
  · rintro ⟨⟨d, d', hd, hd', hiff⟩, i, i', hi, hi', -⟩
    refine ⟨legible_of_packIdOf hi, legible_of_packIdOf hi', apart_iff.mpr fun heq => ?_⟩
    obtain ⟨t, ht, rfl⟩ := scopeDigest_eq_ok_iff.mp hd
    obtain ⟨t', ht', rfl⟩ := scopeDigest_eq_ok_iff.mp hd'
    exact hiff.mp ((sha256_scopeText_iff hsha ht ht').mpr heq)
  · rintro ⟨h, h', hapart⟩
    obtain ⟨t, ht⟩ := encode_scopeText_isOk_iff.mpr h.files
    obtain ⟨t', ht'⟩ := encode_scopeText_isOk_iff.mpr h'.files
    obtain ⟨r, hr⟩ := encode_isOk_iff.mpr h.root
    obtain ⟨r', hr'⟩ := encode_isOk_iff.mpr h'.root
    have hsame : sha256 t = sha256 t' ↔ s.files.Perm s'.files :=
      (sha256_scopeText_iff hsha ht ht').trans ⟨apart_iff.mp hapart, hperm⟩
    refine ⟨⟨_, _, scopeDigest_eq_ok_iff.mpr ⟨t, ht, rfl⟩, scopeDigest_eq_ok_iff.mpr ⟨t', ht', rfl⟩,
      hsame⟩, _, _, packIdOf_eq_ok_iff.mpr ⟨t, r, ht, hr, rfl⟩,
      packIdOf_eq_ok_iff.mpr ⟨t', r', ht', hr', rfl⟩, fun heq => ?_⟩
    obtain ⟨hroot, hhead, hfiles⟩ := packText_inj (hsha.id r r' t t' hr hr' ht ht' heq)
    obtain rfl := hsha.root r r' hr hr' hroot
    exact ⟨(PyStr.encode_eq_ok_iff.mp hr).trans (PyStr.encode_eq_ok_iff.mp hr').symm, hhead,
      hsame.mp hfiles⟩

/-! ### A path that reads as two files -/

/-- One file is hashed as the two that its path reads as. -/
theorem merged_scopeText {a b : PyStr} (hne : a ≠ b) (hle : PyJson.keyLE a b = true)
    (mark mark' : Mark) :
    scopeText [(mergedPath a b mark, mark')] = scopeText [(a, mark), (b, mark')] := by
  have hsorted : [(a, mark), (b, mark')].insertionSort (fun e e' => entryLE e e' = true) =
      [(a, mark), (b, mark')] := by
    have hentry : entryLE (a, mark) (b, mark') = true := by
      rw [entryLE, if_neg hne]
      exact hle
    rw [List.insertionSort_cons, List.insertionSort_cons, List.insertionSort_nil,
      List.orderedInsert_nil, List.orderedInsert_cons, if_pos hentry]
  rw [scopeText, scopeText, sortedFiles, sortedFiles, hsorted, List.insertionSort_cons,
    List.insertionSort_nil, List.orderedInsert_nil, intercalate_entries, intercalate_entries]
  simp [following, entryText, mergedPath]

/-- One file is missing, under a name that reads as two. -/
def oneMissing : ScopeIdentity :=
  ⟨PyStr.ofString "r", none,
    [(mergedPath (PyStr.ofString "a") (PyStr.ofString "b") .missing, .missing)]⟩

/-- Two files are missing. -/
def twoMissing : ScopeIdentity :=
  ⟨PyStr.ofString "r", none, [(PyStr.ofString "a", .missing), (PyStr.ofString "b", .missing)]⟩

/-- A path that the file system allows is hashed as two others are, whatever the hash is. -/
theorem merged_not_identified : ¬ ∀ (sha256 : String → Digest) (s s' : ScopeIdentity),
    NoCollision sha256 s s' → (s.files.map Prod.fst).Nodup → (s'.files.map Prod.fst).Nodup →
      (scopeDigest sha256 s.files = scopeDigest sha256 s'.files ↔ s.files.Perm s'.files) := by
  intro h
  have hne : PyStr.ofString "a" ≠ PyStr.ofString "b" := by decide +kernel
  have htext : scopeText oneMissing.files = scopeText twoMissing.files :=
    merged_scopeText hne (by decide +kernel) .missing .missing
  let sha256 : String → Digest := fun _ =>
    ⟨String.ofList (List.replicate 64 'a'), isHex_ofList (by decide +kernel)⟩
  have hsha : NoCollision sha256 oneMissing twoMissing := by
    have hroot : ∀ {r r' : String}, oneMissing.root.encode = .ok r →
        twoMissing.root.encode = .ok r' → r = r' := fun hr hr' => Except.ok.inj (hr.symm.trans hr')
    have hfiles : ∀ {t t' : String}, (scopeText oneMissing.files).encode = .ok t →
        (scopeText twoMissing.files).encode = .ok t' → t = t' := fun ht ht' =>
      Except.ok.inj (ht.symm.trans (htext ▸ ht'))
    refine ⟨fun r r' hr hr' _ => hroot hr hr', fun t t' ht ht' _ => hfiles ht ht', ?_⟩
    intro r r' t t' hr hr' ht ht' _
    rw [hroot hr hr', hfiles ht ht']
    rfl
  have hperm := (h sha256 oneMissing twoMissing hsha (by simp [oneMissing])
    (by simpa [twoMissing] using hne)).mp (by rw [scopeDigest, scopeDigest, htext])
  exact absurd hperm.length_eq (by decide)

/-! ### Two scans -/

/-- There are no files. -/
def noFiles : ScopeIdentity := ⟨PyStr.ofString "r", none, []⟩

def repeated (c : Char) (h : isHex 64 (List.replicate 64 c) = true) : Digest :=
  ⟨String.ofList (List.replicate 64 c), isHex_ofList h⟩

/-- A hash that tells the two apart. -/
def sampleSha (text : String) : Digest :=
  if text = "" ∨ text = String.ofList (packText (repeated 'b' (by decide)) none
    (repeated 'a' (by decide))) then repeated 'a' (by decide) else repeated 'b' (by decide)

theorem encode_twoMissing : (scopeText twoMissing.files).encode =
    .ok "a:MISSING_TRACKED\nb:MISSING_TRACKED" := by
  rw [PyStr.encode_eq_ok_iff]
  decide +kernel

/-- The ids of the two, whose first digits differ. -/
theorem sampleSha_evaluates :
    sampleSha "a:MISSING_TRACKED\nb:MISSING_TRACKED" ≠ sampleSha "" ∧
      (sampleSha (String.ofList (packText (sampleSha "r") none
          (sampleSha "a:MISSING_TRACKED\nb:MISSING_TRACKED")))).1.toList.take 32 ≠
        (sampleSha (String.ofList (packText (sampleSha "r") none (sampleSha "")))).1.toList.take 32 := by
  decide +kernel

theorem noCollision_twoMissing : NoCollision sampleSha twoMissing noFiles := by
  have hroot : ∀ {r : String}, twoMissing.root.encode = .ok r → r = "r" := fun h =>
    (Except.ok.inj ((PyStr.encode_ofString "r").symm.trans h)).symm
  have htwo : ∀ {t : String}, (scopeText twoMissing.files).encode = .ok t →
      t = "a:MISSING_TRACKED\nb:MISSING_TRACKED" := fun h =>
    (Except.ok.inj (encode_twoMissing.symm.trans h)).symm
  have hnone : ∀ {t : String}, (scopeText noFiles.files).encode = .ok t → t = "" := fun h =>
    (Except.ok.inj h).symm
  refine ⟨fun r r' hr hr' _ => ?_, fun t t' ht ht' heq => ?_, fun r r' t t' hr hr' ht ht' heq => ?_⟩
  · rw [hroot hr, hroot hr']
  · rw [htwo ht, hnone ht'] at heq
    exact absurd heq sampleSha_evaluates.1
  · rw [hroot hr, hroot hr', htwo ht, hnone ht'] at heq
    exact absurd heq sampleSha_evaluates.2

theorem twoMissing_identified : ¬ twoMissing.files.Perm noFiles.files ∧
    Identified sampleSha twoMissing noFiles := by
  have hplain : ∀ e ∈ twoMissing.files, PlainPath e.1 := by
    intro e he mark hinfix
    have hlength := hinfix.length_le
    simp only [twoMissing, List.mem_cons, List.not_mem_nil, or_false] at he
    rcases he with rfl | rfl <;> simp [PyStr.ofString] at hlength
  have hscalar : ∀ s : String, Encodable (PyStr.ofString s) := by
    intro s n hn
    obtain ⟨c, -, heq⟩ := List.mem_map.mp hn
    cases heq
  refine ⟨fun h => absurd h.length_eq (by decide), (identified_iff noCollision_twoMissing).mpr
    ⟨⟨hscalar _, ?_⟩, ⟨hscalar _, fun e he => absurd he List.not_mem_nil⟩,
      apart_of_plain hplain fun e he => absurd he List.not_mem_nil⟩⟩
  intro e he
  simp only [twoMissing, List.mem_cons, List.not_mem_nil, or_false] at he
  rcases he with rfl | rfl <;> exact hscalar _

end Konoha.RepoEvidence
