/-
LocalAudit/Suggestions.lean

`partition_evidence_linked_suggestions`: the first ten suggestions of a model, parted into those
that cite known evidence and the others.

The texts of a suggestion are looked at as a whole and kept up to a limit.  So a text that is
accepted may be kept as blanks only (`accounted_iff`).
-/
import KonohaRuntime.LocalAudit.Audit

namespace Konoha.LocalAudit

open CodePoint

/-! ### The code -/

/-- An entry of `linked`. -/
structure LinkedSuggestion where
  index : Nat
  recommendation : PyStr
  risk : PyStr
  scope : PyStr
  textTruncated : Bool
  evidenceRefs : List PyJson
  basis : String
  validation : String
  status : String
  authorizesAction : Bool

/-- An entry of `suppressed`, with the keys that it has. -/
structure SuppressedSuggestion where
  index : Option Nat
  reason : String
  omitted : Option Nat

/-- `("recommendation", "risk", "scope")` -/
def suggestionTexts : List String := ["recommendation", "risk", "scope"]

/-- `item[key]`, where a text is needed -/
def itemText (item : PyDict) (key : String) : Except PyExc PyStr :=
  match get? item key with
  | some (.str s) => .ok s
  | some _ => .error (.typeError "object is not subscriptable")
  | none => .error (.exception "KeyError")

/-- What `evidence_refs` is not refused for. -/
def verifiableRefs (known : List PyStr) : PyJson → Bool
  | .arr refs => !refs.isEmpty && refs.length ≤ 10 && refs.all fun
      | .str ref => ref ∈ known
      | _ => false
  | _ => false

/-- `not isinstance(item.get(key), str) or not item[key].strip()`, for one of the texts -/
def missingText (item : PyDict) : Bool :=
  suggestionTexts.any fun key =>
    match get item key with
    | .str s => s.strip = []
    | _ => true

/-- The entry of a suggestion that is linked. -/
def linkedSuggestion (index : Nat) (item : PyDict) : Except PyExc LinkedSuggestion := do
  let recommendation ← itemText item "recommendation"
  let risk ← itemText item "risk"
  let scope ← itemText item "scope"
  return {
    index := index
    recommendation := recommendation.take 2000
    risk := risk.take 2000
    scope := scope.take 2000
    textTruncated := 2000 < recommendation.length ∨ 2000 < risk.length ∨ 2000 < scope.length
    evidenceRefs := match get item "evidence_refs" with | .arr refs => refs | _ => []
    basis := "model_suggestion"
    validation := "locator_linkage_only_not_deterministic_truth"
    status := "proposed"
    authorizesAction := false }

/-- One round of the loop. -/
def placeSuggestion (known : List PyStr)
    (lists : List LinkedSuggestion × List SuppressedSuggestion) (entry : PyJson × Nat) :
    Except PyExc (List LinkedSuggestion × List SuppressedSuggestion) :=
  let suppress (reason : String) :=
    (lists.1, lists.2 ++ [(⟨some entry.2, reason, none⟩ : SuppressedSuggestion)])
  match entry.1 with
  | .obj item =>
      if !verifiableRefs known (get item "evidence_refs") then
        .ok (suppress "unverifiable_evidence_reference")
      else if missingText item then .ok (suppress "missing_recommendation_risk_or_scope")
      else (linkedSuggestion entry.2 item).map fun linked => (lists.1 ++ [linked], lists.2)
  | _ => .ok (suppress "invalid_suggestion")

/-- `partition_evidence_linked_suggestions` -/
def partitionEvidenceLinkedSuggestions (suggestions : PyJson) (known : List PyStr) :
    Except PyExc (List LinkedSuggestion × List SuppressedSuggestion) :=
  match suggestions with
  | .arr items => do
      let (linked, suppressed) ← (items.take 10).zipIdx.foldlM (placeSuggestion known) ([], [])
      return (linked, suppressed ++
        if 10 < items.length then [⟨none, "suggestion_limit", some (items.length - 10)⟩] else [])
  | _ => .ok ([], [⟨none, "suggestions_must_be_list", none⟩])

/-! ### One suggestion -/

/-- A text that is there and is not blank. -/
def HasText (item : PyDict) (key : String) : Prop :=
  ∃ s, get item key = .str s ∧ ∃ p ∈ s, p.isSpace = false

/-- What a suggestion has to have: known references, and its texts. -/
structure Admissible (known : List PyStr) (item : PyDict) : Prop where
  refs : ∃ refs, get item "evidence_refs" = .arr refs ∧ refs ≠ [] ∧ refs.length ≤ 10 ∧
    ∀ ref ∈ refs, ∃ s ∈ known, ref = .str s
  texts : ∀ key ∈ suggestionTexts, HasText item key

variable {known : List PyStr} {item : PyDict}

theorem verifiableRefs_iff {v : PyJson} : verifiableRefs known v = true ↔
    ∃ refs, v = .arr refs ∧ refs ≠ [] ∧ refs.length ≤ 10 ∧ ∀ ref ∈ refs, ∃ s ∈ known, ref = .str s := by
  have hknown (ref : PyJson) : (match ref with | .str s => decide (s ∈ known) | _ => false) = true ↔
      ∃ s ∈ known, ref = .str s := by
    cases ref <;> simp
  cases v with
  | arr refs =>
      rw [verifiableRefs, Bool.and_eq_true, Bool.and_eq_true, List.all_eq_true]
      simp only [hknown]
      simp [and_assoc]
  | null | bool | int | float | str | obj => simp [verifiableRefs]

theorem missingText_eq_false_iff :
    missingText item = false ↔ ∀ key ∈ suggestionTexts, HasText item key := by
  rw [missingText, List.any_eq_false]
  refine forall₂_congr fun key _ => ?_
  unfold HasText
  rcases get item key with - | - | - | - | s | - | -
  case str =>
    have hblank : s.strip = [] ↔ ∀ p ∈ s, p.isSpace = true := PyStr.strip_eq_nil_iff
    simp [hblank]
  all_goals simp

theorem admissible_iff : Admissible known item ↔
    verifiableRefs known (get item "evidence_refs") = true ∧ missingText item = false := by
  rw [verifiableRefs_iff, missingText_eq_false_iff]
  exact ⟨fun h => ⟨h.refs, h.texts⟩, fun h => ⟨h.1, h.2⟩⟩

/-- The texts that an entry keeps, under their keys. -/
def LinkedSuggestion.texts (linked : LinkedSuggestion) : List (String × PyStr) :=
  [("recommendation", linked.recommendation), ("risk", linked.risk), ("scope", linked.scope)]

/-- The entry is what is kept of a suggestion. -/
structure Renders (item : PyDict) (linked : LinkedSuggestion) : Prop where
  refs : get item "evidence_refs" = .arr linked.evidenceRefs
  texts : ∀ entry ∈ linked.texts, ∃ original, get item entry.1 = .str original ∧
    entry.2 = original.take 2000
  authorizes : linked.authorizesAction = false

theorem itemText_of_get {key : String} {s : PyStr} (h : get item key = .str s) :
    itemText item key = .ok s := by
  rw [itemText]
  rw [get] at h
  rcases hget : get? item key with - | v
  · rw [hget] at h
    cases h
  · rw [hget] at h
    obtain rfl : v = .str s := h
    rfl

/-- A suggestion that has what it has to have does not raise. -/
theorem linkedSuggestion_of_admissible (h : Admissible known item) (index : Nat) :
    ∃ linked, linkedSuggestion index item = .ok linked ∧ linked.index = index ∧
      Renders item linked := by
  obtain ⟨recommendation, hrecommendation, -⟩ := h.texts "recommendation" (by simp [suggestionTexts])
  obtain ⟨risk, hrisk, -⟩ := h.texts "risk" (by simp [suggestionTexts])
  obtain ⟨scope, hscope, -⟩ := h.texts "scope" (by simp [suggestionTexts])
  obtain ⟨refs, hrefs, -⟩ := h.refs
  rw [linkedSuggestion, itemText_of_get hrecommendation, itemText_of_get hrisk,
    itemText_of_get hscope, hrefs]
  refine ⟨_, rfl, rfl, hrefs, ?_, rfl⟩
  intro entry hentry
  simp only [LinkedSuggestion.texts, List.mem_cons, List.not_mem_nil, or_false] at hentry
  rcases hentry with rfl | rfl | rfl
  · exact ⟨recommendation, hrecommendation, rfl⟩
  · exact ⟨risk, hrisk, rfl⟩
  · exact ⟨scope, hscope, rfl⟩

/-! ### The loop -/

/-- Where the suggestions are, after the loop. -/
structure Placed (known : List PyStr) (entries : List (PyJson × Nat))
    (linked : List LinkedSuggestion) (suppressed : List SuppressedSuggestion) : Prop where
  indexes : (linked.map (·.index) ++ suppressed.filterMap (·.index)).Perm (entries.map Prod.snd)
  omitted : suppressed.filterMap (·.omitted) = []
  sound : ∀ l ∈ linked, ∃ item, (.obj item, l.index) ∈ entries ∧ Admissible known item ∧
    Renders item l
  admissible : ∀ item index, (.obj item, index) ∈ entries → Admissible known item →
    index ∈ linked.map (·.index)

variable {linked : List LinkedSuggestion} {suppressed : List SuppressedSuggestion}
  {entries : List (PyJson × Nat)} {entry : PyJson × Nat}

theorem Placed.suppress (h : Placed known entries linked suppressed) {reason : String}
    (hentry : ∀ item, entry.1 = .obj item → ¬ Admissible known item) :
    Placed known (entry :: entries) linked (⟨some entry.2, reason, none⟩ :: suppressed) where
  indexes := by
    show (linked.map (·.index) ++ entry.2 :: suppressed.filterMap (·.index)).Perm
      (entry.2 :: entries.map Prod.snd)
    exact List.perm_middle.trans (h.indexes.cons _)
  omitted := by
    show suppressed.filterMap (·.omitted) = []
    exact h.omitted
  sound l hl := by
    obtain ⟨item, hmem, hrest⟩ := h.sound l hl
    exact ⟨item, List.mem_cons_of_mem _ hmem, hrest⟩
  admissible item index hmem hadmissible := by
    rcases List.mem_cons.mp hmem with rfl | hmem
    · exact absurd hadmissible (hentry item rfl)
    · exact h.admissible item index hmem hadmissible

theorem Placed.link (h : Placed known entries linked suppressed) {item : PyDict} {index : Nat}
    {l : LinkedSuggestion} (hitem : Admissible known item) (hindex : l.index = index)
    (hrenders : Renders item l) :
    Placed known ((.obj item, index) :: entries) (l :: linked) suppressed where
  indexes := by
    rw [List.map_cons, List.map_cons, List.cons_append, hindex]
    exact h.indexes.cons _
  omitted := h.omitted
  sound l' hl' := by
    rcases List.mem_cons.mp hl' with rfl | hl'
    · exact ⟨item, by rw [hindex]; exact List.mem_cons_self, hitem, hrenders⟩
    · obtain ⟨item', hmem, hrest⟩ := h.sound l' hl'
      exact ⟨item', List.mem_cons_of_mem _ hmem, hrest⟩
  admissible item' index' hmem hadmissible := by
    rw [List.map_cons, List.mem_cons]
    rcases List.mem_cons.mp hmem with heq | hmem
    · obtain ⟨-, rfl⟩ := Prod.mk.inj heq
      exact .inl hindex.symm
    · exact .inr (h.admissible item' index' hmem hadmissible)

/-- The loop puts each suggestion behind those before it. -/
theorem placed_of_foldlM (entries : List (PyJson × Nat))
    (lists : List LinkedSuggestion × List SuppressedSuggestion) :
    ∃ linked suppressed, entries.foldlM (placeSuggestion known) lists =
        .ok (lists.1 ++ linked, lists.2 ++ suppressed) ∧
      Placed known entries linked suppressed := by
  induction entries generalizing lists with
  | nil =>
      refine ⟨[], [], ?_, .refl _, rfl, fun _ h => absurd h List.not_mem_nil,
        fun _ _ h => absurd h List.not_mem_nil⟩
      rw [List.append_nil, List.append_nil]
      rfl
  | cons entry entries ih =>
      obtain ⟨v, index⟩ := entry
      -- a suggestion that is not linked goes to the second list
      have hsuppress (reason : String)
          (hstep : placeSuggestion known lists (v, index) =
            .ok (lists.1, lists.2 ++ [⟨some index, reason, none⟩]))
          (hentry : ∀ item, v = .obj item → ¬ Admissible known item) :
          ∃ linked suppressed, ((v, index) :: entries).foldlM (placeSuggestion known) lists =
              .ok (lists.1 ++ linked, lists.2 ++ suppressed) ∧
            Placed known ((v, index) :: entries) linked suppressed := by
        obtain ⟨linked, suppressed, hrest, hplaced⟩ :=
          ih (lists.1, lists.2 ++ [⟨some index, reason, none⟩])
        refine ⟨linked, ⟨some index, reason, none⟩ :: suppressed, ?_, hplaced.suppress hentry⟩
        rw [List.foldlM_cons, hstep]
        refine hrest.trans ?_
        rw [List.append_assoc, List.singleton_append]
      cases v with
      | obj item =>
          by_cases hadmissible : Admissible known item
          · obtain ⟨hrefs, htexts⟩ := admissible_iff.mp hadmissible
            obtain ⟨l, hl, hindex, hrenders⟩ := linkedSuggestion_of_admissible hadmissible index
            obtain ⟨linked, suppressed, hrest, hplaced⟩ := ih (lists.1 ++ [l], lists.2)
            refine ⟨l :: linked, suppressed, ?_, hplaced.link hadmissible hindex hrenders⟩
            have hstep : placeSuggestion known lists (.obj item, index) =
                .ok (lists.1 ++ [l], lists.2) := by
              rw [placeSuggestion]
              dsimp only
              rw [hrefs, htexts, hl]
              rfl
            rw [List.foldlM_cons, hstep]
            refine hrest.trans ?_
            rw [List.append_assoc, List.singleton_append]
          · have hnot : ∀ item', PyJson.obj item = .obj item' → ¬ Admissible known item' := by
              rintro item' heq
              obtain rfl := PyJson.obj.inj heq
              exact hadmissible
            rw [admissible_iff, not_and_or, Bool.not_eq_true, Bool.not_eq_false] at hadmissible
            cases hrefs : verifiableRefs known (get item "evidence_refs")
            · refine hsuppress "unverifiable_evidence_reference" ?_ hnot
              rw [placeSuggestion]
              dsimp only
              rw [hrefs]
              rfl
            · have htexts : missingText item = true :=
                hadmissible.resolve_left (by rw [hrefs]; decide)
              refine hsuppress "missing_recommendation_risk_or_scope" ?_ hnot
              rw [placeSuggestion]
              dsimp only
              rw [hrefs, htexts]
              rfl
      | null | bool | int | float | str | arr =>
          exact hsuppress "invalid_suggestion" rfl fun _ heq => nomatch heq

/-! ### The two lists -/

/-- The entry cites known references only, and its texts are the beginnings of those of the
suggestion, and not blank. -/
structure Linked (known : List PyStr) (item : PyDict) (l : LinkedSuggestion) : Prop where
  refs : get item "evidence_refs" = .arr l.evidenceRefs ∧ 1 ≤ l.evidenceRefs.length ∧
    l.evidenceRefs.length ≤ 10 ∧ ∀ ref ∈ l.evidenceRefs, ∃ s ∈ known, ref = .str s
  texts : ∀ entry ∈ l.texts, ∃ original, get item entry.1 = .str original ∧
    entry.2 <+: original ∧ ∃ p ∈ entry.2, p.isSpace = false
  authorizes : l.authorizesAction = false

/-- Every suggestion of a list is accounted for once. -/
structure Accounted (items : List PyJson) (known : List PyStr) (linked : List LinkedSuggestion)
    (suppressed : List SuppressedSuggestion) : Prop where
  once : (linked.map (·.index) ++ suppressed.filterMap (·.index)).Perm
    (List.range (min 10 items.length))
  omitted : suppressed.filterMap (·.omitted) =
    if 10 < items.length then [items.length - 10] else []
  sound : ∀ l ∈ linked, ∃ item, items[l.index]? = some (.obj item) ∧ Linked known item l
  admissible : ∀ index item, index < 10 → items[index]? = some (.obj item) →
    Admissible known item → index ∈ linked.map (·.index)

/-- The function returns, and what it returns for a list accounts for its elements. -/
def Partitions (suggestions : PyJson) (known : List PyStr) : Prop :=
  ∃ linked suppressed,
    partitionEvidenceLinkedSuggestions suggestions known = .ok (linked, suppressed) ∧
      ∀ items, suggestions = .arr items → Accounted items known linked suppressed

/-- The texts of the suggestions that are looked at are not blank up to the limit. -/
def ShownInTime (suggestions : PyJson) (known : List PyStr) : Prop :=
  ∀ items index item, suggestions = .arr items → index < 10 → items[index]? = some (.obj item) →
    Admissible known item → ∀ key ∈ suggestionTexts, ∀ text, get item key = .str text →
      ∃ p ∈ text.take 2000, p.isSpace = false

theorem mem_entries_iff {items : List PyJson} {v : PyJson} {index : Nat} :
    (v, index) ∈ (items.take 10).zipIdx ↔ index < 10 ∧ items[index]? = some v := by
  rw [List.mk_mem_zipIdx_iff_getElem?, List.getElem?_take]
  split_ifs with h
  · exact (and_iff_right h).symm
  · exact iff_of_false (fun h => nomatch h) fun h' => h h'.1

theorem snd_entries (items : List PyJson) :
    (items.take 10).zipIdx.map Prod.snd = List.range (min 10 items.length) := by
  rw [List.zipIdx_map_snd, List.length_take, List.range_eq_range']

theorem partition_arr (items : List PyJson) (known : List PyStr) :
    ∃ linked suppressed, partitionEvidenceLinkedSuggestions (.arr items) known =
        .ok (linked, suppressed ++
          if 10 < items.length then [⟨none, "suggestion_limit", some (items.length - 10)⟩] else []) ∧
      Placed known (items.take 10).zipIdx linked suppressed := by
  obtain ⟨linked, suppressed, hloop, hplaced⟩ :=
    @placed_of_foldlM known (items.take 10).zipIdx ([], [])
  refine ⟨linked, suppressed, ?_, hplaced⟩
  rw [partitionEvidenceLinkedSuggestions, hloop]
  rfl

/-- An accepted text that is kept as blanks is not accounted for. -/
theorem Partitions.shownInTime {suggestions : PyJson} (h : Partitions suggestions known) :
    ShownInTime suggestions known := by
  obtain ⟨linked, suppressed, hpartition, haccounted⟩ := h
  rintro items index item rfl hindex hitem hadmissible key hkey text htext
  obtain ⟨linked', suppressed', hpartition', hplaced⟩ := partition_arr items known
  obtain ⟨rfl, -⟩ := Prod.mk.inj (Except.ok.inj (hpartition.symm.trans hpartition'))
  have haccounted := haccounted items rfl
  obtain ⟨l, hl, rfl⟩ := List.mem_map.mp
    (hplaced.admissible item index (mem_entries_iff.mpr ⟨hindex, hitem⟩) hadmissible)
  -- the entry is one of this suggestion
  obtain ⟨rendered, hrendered, -, hrenders⟩ := hplaced.sound l hl
  obtain rfl := PyJson.obj.inj (Option.some.inj
    ((mem_entries_iff.mp hrendered).2.symm.trans hitem))
  obtain ⟨shown, hshown, hsound⟩ := haccounted.sound l hl
  obtain rfl := PyJson.obj.inj (Option.some.inj (hshown.symm.trans hitem))
  have hentry : ∃ entry ∈ l.texts, entry.1 = key := by
    simp only [suggestionTexts, List.mem_cons, List.not_mem_nil, or_false] at hkey
    rcases hkey with rfl | rfl | rfl <;> simp [LinkedSuggestion.texts]
  obtain ⟨entry, hentry, rfl⟩ := hentry
  obtain ⟨original, horiginal, hkept⟩ := hrenders.texts entry hentry
  obtain ⟨-, -, -, hvisible⟩ := hsound.texts entry hentry
  obtain rfl := PyJson.str.inj (horiginal.symm.trans htext)
  rwa [hkept] at hvisible

theorem ShownInTime.partitions {suggestions : PyJson} (h : ShownInTime suggestions known) :
    Partitions suggestions known := by
  cases suggestions with
  | arr items =>
      obtain ⟨linked, suppressed, hpartition, hplaced⟩ := partition_arr items known
      refine ⟨linked, _, hpartition, fun items' heq => ?_⟩
      obtain rfl := PyJson.arr.inj heq
      refine ⟨?_, ?_, fun l hl => ?_, fun index item hindex hitem hadmissible =>
        hplaced.admissible item index (mem_entries_iff.mpr ⟨hindex, hitem⟩) hadmissible⟩
      · have hlimit : (if 10 < items.length then
            [(⟨none, "suggestion_limit", some (items.length - 10)⟩ : SuppressedSuggestion)]
            else []).filterMap (·.index) = [] := by
          split_ifs <;> rfl
        rw [List.filterMap_append, hlimit, List.append_nil, ← snd_entries]
        exact hplaced.indexes
      · rw [List.filterMap_append, hplaced.omitted, List.nil_append]
        split_ifs <;> rfl
      · obtain ⟨item, hmem, hadmissible, hrenders⟩ := hplaced.sound l hl
        obtain ⟨hindex, hitem⟩ := mem_entries_iff.mp hmem
        refine ⟨item, hitem, ?_, fun entry hentry => ?_, hrenders.authorizes⟩
        · obtain ⟨refs, hrefs, hne, hlength, hknown⟩ := hadmissible.refs
          obtain rfl := PyJson.arr.inj (hrefs.symm.trans hrenders.refs)
          exact ⟨hrefs, List.length_pos_iff.mpr hne, hlength, hknown⟩
        · obtain ⟨original, horiginal, hkept⟩ := hrenders.texts entry hentry
          have hkey : entry.1 ∈ suggestionTexts := by
            simp only [LinkedSuggestion.texts, List.mem_cons, List.not_mem_nil, or_false] at hentry
            rcases hentry with rfl | rfl | rfl <;> simp [suggestionTexts]
          refine ⟨original, horiginal, ?_, ?_⟩
          · rw [hkept]
            exact List.take_prefix 2000 original
          · rw [hkept]
            exact h items l.index item rfl hindex hitem hadmissible entry.1 hkey original horiginal
  | null | bool | int | float | str | obj => exact ⟨[], _, rfl, fun _ heq => nomatch heq⟩

/-- **Every suggestion is accounted for if and only if the accepted texts are not blank up to their
limit.** -/
theorem accounted_iff (suggestions : PyJson) (known : List PyStr) :
    Partitions suggestions known ↔ ShownInTime suggestions known :=
  ⟨Partitions.shownInTime, ShownInTime.partitions⟩

/-! ### A text that shows too late -/

/-- A suggestion whose risk is said after two thousand blanks. -/
def lateRisk : PyDict :=
  [(.ofString "evidence_refs", .arr [.str (.ofString "prov-1")]),
    (.ofString "recommendation", .str (.ofString "x")), (.ofString "scope", .str (.ofString "x")),
    (.ofString "risk", .str (List.replicate 2000 (scalar ' ') ++ [scalar 'x']))]

/-- The suggestion is linked with a blank risk. -/
theorem late_risk_blank : ¬ ∀ suggestions known, Partitions suggestions known := by
  intro h
  have hadmissible : Admissible [.ofString "prov-1"] lateRisk := by
    rw [admissible_iff]
    decide +kernel
  obtain ⟨p, hp, hvisible⟩ := (h (.arr [.obj lateRisk]) [.ofString "prov-1"]).shownInTime
    [.obj lateRisk] 0 lateRisk rfl (by decide) rfl hadmissible "risk" (by simp [suggestionTexts])
    (List.replicate 2000 (scalar ' ') ++ [scalar 'x']) rfl
  rw [List.take_append_of_le_length (by rw [List.length_replicate]),
    List.take_of_length_le (by rw [List.length_replicate])] at hp
  obtain rfl := List.eq_of_mem_replicate hp
  revert hvisible
  decide

end Konoha.LocalAudit
