/-
Base/Legible.lean

Values whose text can be encoded: neither a string in them nor a key has a lone surrogate.

`json.dumps` with `ensure_ascii=False` writes the code points of a string as they are, so the text of
a value has a surrogate exactly when the value has one (`hasSurrogate_dumps_iff`).  The values without
are those of `Json` (`legible_ofJson`, `ofJson_toJson`), and they are written as `Json.dumps` writes
them (`encodeSorted_eq_ok_iff`).
-/
import KonohaRuntime.Base.RoundTrip

namespace Konoha

open CodePoint PyJson

/-! ### Texts -/

theorem not_hasSurrogate_ofString (s : String) : ¬ HasSurrogate (.ofString s) := by
  rintro ⟨n, hn⟩
  obtain ⟨c, -, hc⟩ := List.mem_map.mp hn
  cases hc

theorem hasSurrogate_append {s t : PyStr} :
    HasSurrogate (s ++ t) ↔ HasSurrogate s ∨ HasSurrogate t := by
  unfold HasSurrogate
  simp only [List.mem_append]
  exact exists_or

theorem hasSurrogate_cons_scalar {c : Char} {s : PyStr} :
    HasSurrogate (scalar c :: s) ↔ HasSurrogate s := by
  simp [HasSurrogate]

/-- A text that is encoded has no surrogate. -/
theorem encode_isOk_iff {s : PyStr} : (∃ t, s.encode = .ok t) ↔ ¬ HasSurrogate s := by
  refine ⟨?_, encode_eq_ok⟩
  rintro ⟨t, ht⟩ h
  obtain ⟨e, he⟩ := encode_eq_error h
  cases ht.symm.trans he

theorem hasSurrogate_intercalate {sep : PyStr} (hsep : ¬ HasSurrogate sep) (texts : List PyStr) :
    HasSurrogate (sep.intercalate texts) ↔ ∃ text ∈ texts, HasSurrogate text := by
  induction texts with
  | nil => simp [HasSurrogate, List.intercalate]
  | cons text texts ih =>
      cases texts with
      | nil => simp [List.intercalate_singleton]
      | cons text' texts =>
          rw [List.intercalate_cons_cons, hasSurrogate_append, hasSurrogate_append, ih,
            or_iff_left hsep, List.exists_mem_cons_iff (l := text' :: texts)]

/-! ### Values -/

namespace PyJson

mutual

/-- No string of the value and no key in it has a surrogate. -/
def Legible : PyJson → Prop
  | str s => ¬ HasSurrogate s
  | arr xs => LegibleList xs
  | obj kvs => LegibleFields kvs
  | _ => True

def LegibleList : List PyJson → Prop
  | [] => True
  | x :: xs => Legible x ∧ LegibleList xs

def LegibleFields : List (PyStr × PyJson) → Prop
  | [] => True
  | (k, v) :: kvs => (¬ HasSurrogate k ∧ Legible v) ∧ LegibleFields kvs

end

theorem legibleFields_iff {kvs : List (PyStr × PyJson)} :
    LegibleFields kvs ↔ ∀ kv ∈ kvs, ¬ HasSurrogate kv.1 ∧ Legible kv.2 := by
  induction kvs with
  | nil => simp [LegibleFields]
  | cons kv kvs ih => rw [LegibleFields, ih, List.forall_mem_cons]

theorem legible_obj_iff {kvs : List (PyStr × PyJson)} :
    Legible (obj kvs) ↔ ∀ kv ∈ kvs, ¬ HasSurrogate kv.1 ∧ Legible kv.2 := legibleFields_iff

mutual

theorem legible_sortKeys : ∀ v : PyJson, Legible (sortKeys v) ↔ Legible v
  | arr xs => by
      rw [sortKeys, Legible, Legible]
      exact legibleList_sortKeysList xs
  | obj kvs => by
      obtain ⟨fields, heq, hperm⟩ := sortKeys_obj_perm kvs
      have hsorted := legibleFields_sortKeysFields kvs
      rw [legibleFields_iff, sortKeysFields_eq_map] at hsorted
      rw [heq, legible_obj_iff, Legible, ← hsorted]
      exact ⟨fun h kv hkv => h kv (hperm.mem_iff.mpr hkv),
        fun h kv hkv => h kv (hperm.mem_iff.mp hkv)⟩
  | null | bool _ | int _ | float _ | str _ => Iff.rfl

theorem legibleList_sortKeysList : ∀ xs : List PyJson,
    LegibleList (sortKeysList xs) ↔ LegibleList xs
  | [] => Iff.rfl
  | x :: xs => and_congr (legible_sortKeys x) (legibleList_sortKeysList xs)

theorem legibleFields_sortKeysFields : ∀ kvs : List (PyStr × PyJson),
    LegibleFields (sortKeysFields kvs) ↔ LegibleFields kvs
  | [] => Iff.rfl
  | (_, v) :: kvs =>
      and_congr (and_congr_right' (legible_sortKeys v)) (legibleFields_sortKeysFields kvs)

end

/-! ### Their text -/

theorem hasSurrogate_quote (s : PyStr) : HasSurrogate (quote s) ↔ HasSurrogate s := by
  have hend : ¬ HasSurrogate [scalar '"'] := not_hasSurrogate_ofString "\""
  rw [quote, List.cons_append, hasSurrogate_cons_scalar, hasSurrogate_append, or_iff_left hend]
  constructor
  · rintro ⟨n, hn⟩
    obtain ⟨p, hp, hn⟩ := List.mem_flatMap.mp hn
    cases p with
    | scalar c =>
        obtain ⟨c', -, hc⟩ := List.mem_map.mp hn
        cases hc
    | surrogate n' =>
        obtain rfl := CodePoint.surrogate.inj (List.mem_singleton.mp hn)
        exact ⟨n, hp⟩
  · rintro ⟨n, hn⟩
    exact ⟨n, List.mem_flatMap.mpr ⟨surrogate n, hn, List.mem_singleton_self _⟩⟩

theorem hasSurrogate_wrap (l : Json.Layout) (level : Nat) (left right : Char) (items : List PyStr) :
    HasSurrogate (wrap l level left right items) ↔ ∃ item ∈ items, HasSurrogate item := by
  unfold wrap
  split_ifs with hempty
  · rw [List.isEmpty_iff.mp hempty]
    simp [HasSurrogate]
  · have hright : ¬ HasSurrogate [scalar right] := by simp [HasSurrogate]
    rw [hasSurrogate_cons_scalar, hasSurrogate_append, hasSurrogate_append, hasSurrogate_append,
      hasSurrogate_intercalate (not_hasSurrogate_ofString _), or_iff_left hright,
      or_iff_left (not_hasSurrogate_ofString _), or_iff_right (not_hasSurrogate_ofString _)]

mutual

/-- **The text of a value has a surrogate** exactly when the value has one. -/
theorem hasSurrogate_dumps_iff (py : Stdlib) (l : Json.Layout) : ∀ (v : PyJson) (level : Nat),
    HasSurrogate (dumps py l level v) ↔ ¬ Legible v
  | null, _ | bool _, _ | int _, _ | float _, _ =>
      iff_of_false (not_hasSurrogate_ofString _) (not_not_intro trivial)
  | str s, _ => by
      rw [dumps, Legible, not_not]
      exact hasSurrogate_quote s
  | arr xs, level => by
      rw [dumps, Legible, hasSurrogate_wrap]
      exact hasSurrogate_dumpsList_iff py l xs (level + 1)
  | obj kvs, level => by
      rw [dumps, Legible, hasSurrogate_wrap]
      exact hasSurrogate_dumpsFields_iff py l kvs (level + 1)

theorem hasSurrogate_dumpsList_iff (py : Stdlib) (l : Json.Layout) :
    ∀ (xs : List PyJson) (level : Nat),
      (∃ text ∈ dumpsList py l level xs, HasSurrogate text) ↔ ¬ LegibleList xs
  | [], _ => by simp [dumpsList, LegibleList]
  | x :: xs, level => by
      rw [dumpsList, LegibleList, List.exists_mem_cons_iff, hasSurrogate_dumps_iff py l x level,
        hasSurrogate_dumpsList_iff py l xs level, not_and_or]

theorem hasSurrogate_dumpsFields_iff (py : Stdlib) (l : Json.Layout) :
    ∀ (kvs : List (PyStr × PyJson)) (level : Nat),
      (∃ text ∈ dumpsFields py l level kvs, HasSurrogate text) ↔ ¬ LegibleFields kvs
  | [], _ => by simp [dumpsFields, LegibleFields]
  | (k, v) :: kvs, level => by
      rw [dumpsFields, LegibleFields, List.exists_mem_cons_iff, hasSurrogate_append,
        hasSurrogate_append, hasSurrogate_quote, or_iff_left (not_hasSurrogate_ofString _),
        hasSurrogate_dumps_iff py l v level, hasSurrogate_dumpsFields_iff py l kvs level,
        not_and_or, not_and_or, not_not]

end

end PyJson

/-! ### Values without surrogates -/

@[simp] theorem replaced_ofString (s : String) : (PyStr.ofString s).replaced = s := by
  rw [PyStr.replaced, PyStr.ofString, List.map_map]
  exact (congrArg String.ofList (List.map_id _)).trans String.ofList_toList

theorem ofString_replaced {s : PyStr} (h : ¬ HasSurrogate s) : PyStr.ofString s.replaced = s := by
  obtain ⟨t, ht⟩ := encode_eq_ok h
  rw [PyStr.encode_eq_ok_iff.mp ht, replaced_ofString]

mutual

theorem toJson_ofJson : ∀ v : Json, (PyJson.ofJson v).toJson = v
  | .null | .bool _ | .int _ | .float _ => rfl
  | .str s => congrArg Json.str (replaced_ofString s)
  | .arr xs => congrArg Json.arr (toJsonList_ofJsonList xs)
  | .obj kvs => congrArg Json.obj (toJsonFields_ofJsonFields kvs)

theorem toJsonList_ofJsonList : ∀ xs : List Json, toJsonList (ofJsonList xs) = xs
  | [] => rfl
  | x :: xs => by
      rw [ofJsonList, toJsonList, toJson_ofJson x, toJsonList_ofJsonList xs]

theorem toJsonFields_ofJsonFields : ∀ kvs : List (String × Json),
    toJsonFields (ofJsonFields kvs) = kvs
  | [] => rfl
  | (k, v) :: kvs => by
      rw [ofJsonFields, toJsonFields, replaced_ofString, toJson_ofJson v,
        toJsonFields_ofJsonFields kvs]

end

mutual

theorem legible_ofJson : ∀ v : Json, Legible (ofJson v)
  | .null | .bool _ | .int _ | .float _ => trivial
  | .str s => not_hasSurrogate_ofString s
  | .arr xs => legibleList_ofJsonList xs
  | .obj kvs => legibleFields_ofJsonFields kvs

theorem legibleList_ofJsonList : ∀ xs : List Json, LegibleList (ofJsonList xs)
  | [] => trivial
  | x :: xs => ⟨legible_ofJson x, legibleList_ofJsonList xs⟩

theorem legibleFields_ofJsonFields : ∀ kvs : List (String × Json), LegibleFields (ofJsonFields kvs)
  | [] => trivial
  | (k, v) :: kvs =>
      ⟨⟨not_hasSurrogate_ofString k, legible_ofJson v⟩, legibleFields_ofJsonFields kvs⟩

end

mutual

/-- A legible value is one of `Json`. -/
theorem ofJson_toJson : ∀ v : PyJson, Legible v → ofJson v.toJson = v
  | .null, _ | .bool _, _ | .int _, _ | .float _, _ => rfl
  | .str _, h => congrArg PyJson.str (ofString_replaced h)
  | .arr xs, h => congrArg PyJson.arr (ofJsonList_toJsonList xs h)
  | .obj kvs, h => congrArg PyJson.obj (ofJsonFields_toJsonFields kvs h)

theorem ofJsonList_toJsonList : ∀ xs : List PyJson, LegibleList xs → ofJsonList (toJsonList xs) = xs
  | [], _ => rfl
  | x :: xs, h => by
      rw [toJsonList, ofJsonList, ofJson_toJson x h.1, ofJsonList_toJsonList xs h.2]

theorem ofJsonFields_toJsonFields : ∀ kvs : List (PyStr × PyJson), LegibleFields kvs →
    ofJsonFields (toJsonFields kvs) = kvs
  | [], _ => rfl
  | (k, v) :: kvs, h => by
      rw [toJsonFields, ofJsonFields, ofString_replaced h.1.1, ofJson_toJson v h.1.2,
        ofJsonFields_toJsonFields kvs h.2]

end

/-! ### Sorted keys -/

theorem map_toNat_lt_iff {xs ys : List Char} :
    xs.map Char.toNat < ys.map Char.toNat ↔ xs < ys := by
  induction xs generalizing ys with
  | nil => cases ys <;> simp
  | cons x xs ih =>
      cases ys with
      | nil => simp
      | cons y ys =>
          have hlt : x.toNat < y.toNat ↔ x < y := Iff.rfl
          rw [List.map_cons, List.map_cons, List.cons_lt_cons_iff, List.cons_lt_cons_iff, ih, hlt,
            Char.toNat_inj]

theorem keyLE_ofString_iff {a b : String} :
    PyJson.keyLE (.ofString a) (.ofString b) = true ↔ a ≤ b := by
  have hmap (s : String) : (PyStr.ofString s).map CodePoint.toNat = s.toList.map Char.toNat :=
    List.map_map
  rw [PyJson.keyLE_iff, hmap, hmap, String.le_iff_toList_le, ← not_lt, map_toNat_lt_iff, not_lt]

theorem ofJsonFields_eq_map (kvs : List (String × Json)) :
    PyJson.ofJsonFields kvs = kvs.map fun kv => (.ofString kv.1, PyJson.ofJson kv.2) := by
  induction kvs with
  | nil => rfl
  | cons kv kvs ih => rw [PyJson.ofJsonFields, ih, List.map_cons]

mutual

/-- Keys without surrogates are sorted as strings are. -/
theorem sortKeys_ofJson : ∀ v : Json, PyJson.sortKeys (ofJson v) = ofJson v.sortKeys
  | .null | .bool _ | .int _ | .float _ | .str _ => rfl
  | .arr xs => congrArg PyJson.arr (sortKeysList_ofJsonList xs)
  | .obj kvs => by
      have hsorted : ((Json.sortKeysFields kvs).insertionSort fun a b => a.1 ≤ b.1).map
          (fun kv => (PyStr.ofString kv.1, PyJson.ofJson kv.2)) =
            (PyJson.sortKeysFields (ofJsonFields kvs)).insertionSort fun a b =>
              PyJson.keyLE a.1 b.1 = true := by
        rw [sortKeysFields_ofJsonFields kvs, ofJsonFields_eq_map]
        exact List.map_insertionSort _ _ _ _ fun a _ b _ => keyLE_ofString_iff.symm
      rw [← ofJsonFields_eq_map] at hsorted
      rw [ofJson, PyJson.sortKeys, Json.sortKeys, ofJson, hsorted]

theorem sortKeysList_ofJsonList : ∀ xs : List Json,
    PyJson.sortKeysList (ofJsonList xs) = ofJsonList (Json.sortKeysList xs)
  | [] => rfl
  | x :: xs => by
      rw [ofJsonList, PyJson.sortKeysList, Json.sortKeysList, ofJsonList, sortKeys_ofJson x,
        sortKeysList_ofJsonList xs]

theorem sortKeysFields_ofJsonFields : ∀ kvs : List (String × Json),
    PyJson.sortKeysFields (ofJsonFields kvs) = ofJsonFields (Json.sortKeysFields kvs)
  | [] => rfl
  | (_, v) :: kvs => by
      rw [ofJsonFields, PyJson.sortKeysFields, Json.sortKeysFields, ofJsonFields, sortKeys_ofJson v,
        sortKeysFields_ofJsonFields kvs]

end

/-! ### Writing in UTF-8 -/

theorem dumpsSorted_eq_ok_iff {py : Stdlib} {depth : Nat} {l : Json.Layout} {v : PyJson}
    {text : PyStr} : dumpsSorted py depth l v = .ok text ↔
      text = dumps py l 0 (sortKeys v) ∧ nesting v ≤ depth ∧ intsFit py.interpreter v = true := by
  unfold dumpsSorted
  split_ifs with hnested hints
  · exact iff_of_false (fun h => nomatch h) fun h => absurd h.2.1 (Nat.not_le.mpr hnested)
  · refine Iff.trans ⟨fun h => (Except.ok.inj h).symm, fun h => congrArg _ h.symm⟩ ?_
    exact (and_iff_left ⟨Nat.le_of_not_lt hnested, hints⟩).symm
  · exact iff_of_false (fun h => nomatch h) fun h => hints h.2.2

/-- `json.dumps(v, ensure_ascii=False, sort_keys=True, …).encode("utf-8")` -/
def encodeSorted (py : Stdlib) (depth : Nat) (l : Json.Layout) (v : PyJson) : Except PyExc String :=
  dumpsSorted py depth l v >>= PyStr.encode

/-- What `json.dumps` writes, and UTF-8 has. -/
structure Writable (py : Stdlib) (depth : Nat) (v : PyJson) : Prop where
  legible : Legible v
  nesting : v.nesting ≤ depth
  ints : v.intsFit py.interpreter = true

/-- The text of a value that can be written is the one that `Json.dumps` gives it. -/
theorem encodeSorted_eq_ok_iff {py : Stdlib} {depth : Nat} {l : Json.Layout} {v : PyJson}
    {text : String} : encodeSorted py depth l v = .ok text ↔
      Writable py depth v ∧ text = Json.dumps py l 0 v.toJson.sortKeys := by
  have htext (h : Legible v) :
      dumps py l 0 (sortKeys v) = .ofString (Json.dumps py l 0 v.toJson.sortKeys) := by
    rw [← dumps_ofJson, ← sortKeys_ofJson, ofJson_toJson v h]
  unfold encodeSorted
  rw [bind_eq_ok]
  constructor
  · rintro ⟨written, hwritten, hencode⟩
    obtain ⟨rfl, hnesting, hints⟩ := dumpsSorted_eq_ok_iff.mp hwritten
    have hlegible : Legible v := by
      by_contra h
      rw [← legible_sortKeys, ← hasSurrogate_dumps_iff py l _ 0] at h
      exact encode_isOk_iff.mp ⟨text, hencode⟩ h
    rw [htext hlegible, PyStr.encode_ofString] at hencode
    exact ⟨⟨hlegible, hnesting, hints⟩, (Except.ok.inj hencode).symm⟩
  · rintro ⟨h, rfl⟩
    refine ⟨_, dumpsSorted_eq_ok_iff.mpr ⟨rfl, h.nesting, h.ints⟩, ?_⟩
    rw [htext h.legible, PyStr.encode_ofString]

end Konoha
