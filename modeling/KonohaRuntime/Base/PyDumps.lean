/-
Base/PyDumps.lean

`json.dumps` of values whose strings may have surrogates, and how deep values are nested.

* `nesting_sortKeys_le_iff`: sorting the keys does not change how deep a value is nested.
* `dumps_ofJson`: a value without surrogates has the text that `Json.dumps` gives it.
-/
import KonohaRuntime.Base.Dumps

namespace Konoha

open CodePoint

namespace CodePoint

/-- `ord(c)` -/
def toNat : CodePoint → Nat
  | scalar c => c.toNat
  | surrogate n => 0xd800 + n

theorem toNat_injective : Function.Injective toNat := by
  have hchar : ∀ (c : Char) (n : Fin 2048), c.toNat ≠ 0xd800 + n.1 := by
    intro c n h
    have hvalid := c.valid
    have hval : c.val.toNat = 0xd800 + n.1 := h
    unfold UInt32.isValidChar Nat.isValidChar at hvalid
    omega
  intro p p' h
  cases p with
  | scalar c =>
      cases p' with
      | scalar c' => exact congrArg scalar (Char.toNat_inj.mp h)
      | surrogate n => exact absurd h (hchar c n)
  | surrogate n =>
      cases p' with
      | scalar c => exact absurd h.symm (hchar c n)
      | surrogate n' => exact congrArg surrogate (Fin.ext (Nat.add_left_cancel h))

end CodePoint

namespace PyJson

/-! ### Nesting -/

mutual

/-- How deep arrays and objects are nested in a value. -/
def nesting : PyJson → Nat
  | arr xs => nestingList xs + 1
  | obj kvs => nestingFields kvs + 1
  | _ => 0

def nestingList : List PyJson → Nat
  | [] => 0
  | x :: xs => max (nesting x) (nestingList xs)

def nestingFields : List (PyStr × PyJson) → Nat
  | [] => 0
  | (_, v) :: kvs => max (nesting v) (nestingFields kvs)

end

theorem nestingList_le_iff {xs : List PyJson} {n : Nat} :
    nestingList xs ≤ n ↔ ∀ x ∈ xs, nesting x ≤ n := by
  induction xs with
  | nil => simp [nestingList]
  | cons x xs ih => rw [nestingList, Nat.max_le, ih, List.forall_mem_cons]

theorem nestingFields_le_iff {kvs : List (PyStr × PyJson)} {n : Nat} :
    nestingFields kvs ≤ n ↔ ∀ kv ∈ kvs, nesting kv.2 ≤ n := by
  induction kvs with
  | nil => simp [nestingFields]
  | cons kv kvs ih => rw [nestingFields, Nat.max_le, ih, List.forall_mem_cons]

theorem nesting_arr_le_iff {xs : List PyJson} {n : Nat} :
    nesting (arr xs) ≤ n + 1 ↔ ∀ x ∈ xs, nesting x ≤ n := by
  rw [nesting, Nat.add_le_add_iff_right, nestingList_le_iff]

theorem nesting_obj_le_iff {kvs : List (PyStr × PyJson)} {n : Nat} :
    nesting (obj kvs) ≤ n + 1 ↔ ∀ kv ∈ kvs, nesting kv.2 ≤ n := by
  rw [nesting, Nat.add_le_add_iff_right, nestingFields_le_iff]

/-! ### Sorted keys -/

/-- The order of keys: that of their code points. -/
def keyLE (s t : PyStr) : Bool := decide (s.map CodePoint.toNat ≤ t.map CodePoint.toNat)

theorem keyLE_iff {s t : PyStr} : keyLE s t = true ↔ s.map CodePoint.toNat ≤ t.map CodePoint.toNat :=
  decide_eq_true_iff

theorem keyLE_total (s t : PyStr) : keyLE s t = true ∨ keyLE t s = true := by
  rw [keyLE_iff, keyLE_iff]
  exact le_total _ _

theorem keyLE_trans {s t u : PyStr} (h : keyLE s t = true) (h' : keyLE t u = true) :
    keyLE s u = true :=
  keyLE_iff.mpr ((keyLE_iff.mp h).trans (keyLE_iff.mp h'))

theorem keyLE_antisymm {s t : PyStr} (h : keyLE s t = true) (h' : keyLE t s = true) : s = t :=
  List.map_injective_iff.mpr CodePoint.toNat_injective
    (le_antisymm (keyLE_iff.mp h) (keyLE_iff.mp h'))

mutual

/-- `sort_keys=True`, at every level. -/
def sortKeys : PyJson → PyJson
  | arr xs => arr (sortKeysList xs)
  | obj kvs => obj ((sortKeysFields kvs).insertionSort fun a b => keyLE a.1 b.1 = true)
  | v => v

def sortKeysList : List PyJson → List PyJson
  | [] => []
  | x :: xs => sortKeys x :: sortKeysList xs

def sortKeysFields : List (PyStr × PyJson) → List (PyStr × PyJson)
  | [] => []
  | (k, v) :: kvs => (k, sortKeys v) :: sortKeysFields kvs

end

/-! ### Text -/

/-- One code point inside a JSON string. -/
def escapePoint : CodePoint → PyStr
  | scalar c => (Json.escapeChar c).map scalar
  | surrogate n => [surrogate n]

def quote (s : PyStr) : PyStr := scalar '"' :: s.flatMap escapePoint ++ [scalar '"']

/-- The items of an array or object between its brackets. -/
def wrap (l : Json.Layout) (level : Nat) (left right : Char) (items : List PyStr) : PyStr :=
  if items.isEmpty then [scalar left, scalar right]
  else scalar left :: (PyStr.ofString (l.newline (level + 1)) ++
    (PyStr.ofString (l.itemSep ++ l.newline (level + 1))).intercalate items ++
    PyStr.ofString (l.newline level) ++ [scalar right])

mutual

/-- `json.dumps(v, ensure_ascii=False, …)` -/
def dumps (py : Stdlib) (l : Json.Layout) (level : Nat) : PyJson → PyStr
  | null => .ofString "null"
  | bool b => .ofString (if b then "true" else "false")
  | int i => .ofString (toString i)
  | float f => .ofString (py.floatRepr f)
  | str s => quote s
  | arr xs => wrap l level '[' ']' (dumpsList py l (level + 1) xs)
  | obj kvs => wrap l level '\x7b' '\x7d' (dumpsFields py l (level + 1) kvs)

def dumpsList (py : Stdlib) (l : Json.Layout) (level : Nat) : List PyJson → List PyStr
  | [] => []
  | x :: xs => dumps py l level x :: dumpsList py l level xs

def dumpsFields (py : Stdlib) (l : Json.Layout) (level : Nat) :
    List (PyStr × PyJson) → List PyStr
  | [] => []
  | (k, v) :: kvs =>
      (quote k ++ PyStr.ofString l.keySep ++ dumps py l level v) :: dumpsFields py l level kvs

end

end PyJson

/-! ### Failures -/

namespace PyJson

mutual

/-- No integer of a value has more digits than `str(i)` writes. -/
def intsFit (it : Interpreter) : PyJson → Bool
  | int i => it.maxStrDigits = 0 ∨ (Nat.toDigits 10 i.natAbs).length ≤ it.maxStrDigits
  | arr xs => intsFitList it xs
  | obj kvs => intsFitFields it kvs
  | _ => true

def intsFitList (it : Interpreter) : List PyJson → Bool
  | [] => true
  | x :: xs => intsFit it x && intsFitList it xs

def intsFitFields (it : Interpreter) : List (PyStr × PyJson) → Bool
  | [] => true
  | (_, v) :: kvs => intsFit it v && intsFitFields it kvs

end

/-- `json.dumps(v, ensure_ascii=False, sort_keys=True, …)`, on a stack that has room for `depth`
levels of nesting -/
def dumpsSorted (py : Stdlib) (depth : Nat) (l : Json.Layout) (v : PyJson) : Except PyExc PyStr :=
  if depth < nesting v then .error (.recursionError "maximum recursion depth exceeded")
  else if intsFit py.interpreter v then .ok (dumps py l 0 (sortKeys v))
  else .error (.valueError "Exceeds the limit for integer string conversion")

/-! ### Sorted keys -/

theorem sortKeysFields_eq_map (kvs : List (PyStr × PyJson)) :
    sortKeysFields kvs = kvs.map fun kv => (kv.1, sortKeys kv.2) := by
  induction kvs with
  | nil => rfl
  | cons kv kvs ih => rw [sortKeysFields, ih, List.map_cons]

/-- The fields of a sorted object are those of the object, with sorted values. -/
theorem sortKeys_obj_perm (kvs : List (PyStr × PyJson)) : ∃ fields,
    sortKeys (obj kvs) = obj fields ∧
      fields.Perm (kvs.map fun kv => (kv.1, sortKeys kv.2)) := by
  refine ⟨_, sortKeys.eq_def (obj kvs), ?_⟩
  rw [← sortKeysFields_eq_map]
  exact List.perm_insertionSort _ _

mutual

theorem nesting_sortKeys_le_iff : ∀ (v : PyJson) (n : Nat), nesting (sortKeys v) ≤ n ↔
    nesting v ≤ n
  | arr xs, 0 => by simp [sortKeys, nesting]
  | arr xs, n + 1 => by
      rw [sortKeys, nesting, nesting, Nat.add_le_add_iff_right, Nat.add_le_add_iff_right]
      exact nestingList_sortKeys_le_iff xs n
  | obj kvs, 0 => by simp [sortKeys, nesting]
  | obj kvs, n + 1 => by
      obtain ⟨fields, heq, hperm⟩ := sortKeys_obj_perm kvs
      rw [heq, nesting_obj_le_iff, nesting, Nat.add_le_add_iff_right]
      have hsorted := nestingFields_sortKeys_le_iff kvs n
      rw [nestingFields_le_iff, sortKeysFields_eq_map] at hsorted
      rw [← hsorted]
      exact ⟨fun h kv hkv => h kv (hperm.mem_iff.mpr hkv), fun h kv hkv => h kv (hperm.mem_iff.mp hkv)⟩
  | null, _ => Iff.rfl
  | bool _, _ => Iff.rfl
  | int _, _ => Iff.rfl
  | float _, _ => Iff.rfl
  | str _, _ => Iff.rfl

theorem nestingList_sortKeys_le_iff : ∀ (xs : List PyJson) (n : Nat),
    nestingList (sortKeysList xs) ≤ n ↔ nestingList xs ≤ n
  | [], _ => Iff.rfl
  | x :: xs, n => by
      rw [sortKeysList, nestingList, nestingList, Nat.max_le, Nat.max_le,
        nesting_sortKeys_le_iff x n, nestingList_sortKeys_le_iff xs n]

theorem nestingFields_sortKeys_le_iff : ∀ (kvs : List (PyStr × PyJson)) (n : Nat),
    nestingFields (sortKeysFields kvs) ≤ n ↔ nestingFields kvs ≤ n
  | [], _ => Iff.rfl
  | (_, v) :: kvs, n => by
      rw [sortKeysFields, nestingFields, nestingFields, Nat.max_le, Nat.max_le,
        nesting_sortKeys_le_iff v n, nestingFields_sortKeys_le_iff kvs n]

end

end PyJson

/-! ### Values without surrogates -/

namespace PyJson

theorem ofString_append (s t : String) :
    PyStr.ofString (s ++ t) = PyStr.ofString s ++ PyStr.ofString t := by
  rw [PyStr.ofString, String.toList_append, List.map_append]
  rfl

theorem ofString_intercalate (sep : String) (items : List String) :
    PyStr.ofString (sep.intercalate items) =
      (PyStr.ofString sep).intercalate (items.map PyStr.ofString) := by
  induction items with
  | nil => rfl
  | cons item items ih =>
      cases items with
      | nil => rw [String.intercalate_singleton, List.map_singleton, List.intercalate_singleton]
      | cons item' items =>
          rw [String.intercalate_cons_cons, List.map_cons, List.map_cons,
            List.intercalate_cons_cons, ofString_append, ofString_append, ih, List.map_cons]

theorem quote_ofString (s : String) : quote (.ofString s) = .ofString (Json.quote s) := by
  rw [quote, Json.quote, PyStr.ofString, PyStr.ofString, String.toList_ofList, List.map_append,
    List.map_cons, List.map_flatMap, List.flatMap_map]
  rfl

theorem wrap_ofString (l : Json.Layout) (level : Nat) {left right : Char} {ls rs : String}
    (hl : ls = String.singleton left) (hr : rs = String.singleton right) (items : List String) :
    wrap l level left right (items.map PyStr.ofString) =
      .ofString (l.wrap level ls rs items) := by
  subst hl hr
  have hsingle (c : Char) : PyStr.ofString (String.singleton c) = [scalar c] := by
    rw [PyStr.ofString, String.toList_singleton]
    rfl
  cases items with
  | nil =>
      show _ = PyStr.ofString (String.singleton left ++ String.singleton right)
      rw [ofString_append, hsingle, hsingle]
      rfl
  | cons item items =>
      rw [Json.Layout.wrap, if_neg (by simp), ofString_append, ofString_append, ofString_append,
        ofString_append, hsingle, hsingle, ofString_intercalate]
      simp [wrap]

mutual

/-- The text of a value without surrogates. -/
theorem dumps_ofJson (py : Stdlib) (l : Json.Layout) : ∀ (v : Json) (level : Nat),
    dumps py l level (ofJson v) = .ofString (Json.dumps py l level v)
  | .null, _ => rfl
  | .bool _, _ => rfl
  | .int _, _ => rfl
  | .float _, _ => rfl
  | .str s, _ => quote_ofString s
  | .arr xs, level => by
      rw [ofJson, dumps, Json.dumps, dumpsList_ofJson py l xs]
      exact wrap_ofString l level (by decide) (by decide) _
  | .obj kvs, level => by
      rw [ofJson, dumps, Json.dumps, dumpsFields_ofJson py l kvs]
      exact wrap_ofString l level (by decide) (by decide) _

theorem dumpsList_ofJson (py : Stdlib) (l : Json.Layout) : ∀ (xs : List Json) (level : Nat),
    dumpsList py l level (ofJsonList xs) = (Json.dumpsList py l level xs).map PyStr.ofString
  | [], _ => rfl
  | x :: xs, level => by
      rw [ofJsonList, dumpsList, Json.dumpsList, dumps_ofJson py l x, dumpsList_ofJson py l xs,
        List.map_cons]

theorem dumpsFields_ofJson (py : Stdlib) (l : Json.Layout) :
    ∀ (kvs : List (String × Json)) (level : Nat),
      dumpsFields py l level (ofJsonFields kvs) =
        (Json.dumpsFields py l level kvs).map PyStr.ofString
  | [], _ => rfl
  | (k, v) :: kvs, level => by
      rw [ofJsonFields, dumpsFields, Json.dumpsFields, dumps_ofJson py l v,
        dumpsFields_ofJson py l kvs, List.map_cons, quote_ofString, ofString_append,
        ofString_append]

end

end PyJson

end Konoha
