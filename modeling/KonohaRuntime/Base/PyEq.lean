/-
Base/PyEq.lean

Python's `==` of the values that `json.loads` builds: numbers are compared by their values, dicts
without regard to the order of their keys, and NaN is equal to nothing.

`pyEq_sortKeys`: sorting the keys of a value does not change what it is equal to.
-/
import KonohaRuntime.Base.PyDumps
import KonohaRuntime.Runtime.Result

namespace Konoha.PyJson

/-! ### Numbers -/

/-- The value of a number. -/
inductive Number
  | finite (q : Rat)
  | infinite (negative : Bool)
  | nan
  deriving DecidableEq

/-- The value of a float. -/
def floatNumber (f : PyFloat) : Number :=
  if f.isFinite then .finite f.toRat
  else if f.mantissa = 0 then .infinite f.negative
  else .nan

/-- The value of a bool, an int or a float. -/
def number? : PyJson → Option Number
  | bool b => some (.finite (if b then 1 else 0))
  | int i => some (.finite i)
  | float f => some (floatNumber f)
  | _ => none

/-- `a == b`, of numbers -/
def Number.same (a b : Number) : Bool := a ≠ .nan ∧ a = b

/-! ### Values -/

/-- The value of a key of a dict. -/
def lookup (key : PyStr) (kvs : List (PyStr × PyJson)) : Option PyJson :=
  (kvs.find? fun kv => kv.1 = key).map (·.2)

mutual

/-- `a == b` -/
def pyEq : PyJson → PyJson → Bool
  | null, null => true
  | str s, str t => s = t
  | arr xs, arr ys => pyEqList xs ys
  | obj kvs, obj lvs => kvs.length = lvs.length && pyEqFields kvs lvs
  | a, b => ((number? a).bind fun m => (number? b).map m.same).getD false

def pyEqList : List PyJson → List PyJson → Bool
  | [], [] => true
  | x :: xs, y :: ys => pyEq x y && pyEqList xs ys
  | _, _ => false

/-- Every field is one of the other dict. -/
def pyEqFields : List (PyStr × PyJson) → List (PyStr × PyJson) → Bool
  | [], _ => true
  | (k, v) :: kvs, lvs => ((lookup k lvs).map (pyEq v)).getD false && pyEqFields kvs lvs

end

theorem pyEqFields_iff {kvs lvs : List (PyStr × PyJson)} : pyEqFields kvs lvs = true ↔
    ∀ kv ∈ kvs, ((lookup kv.1 lvs).map (pyEq kv.2)).getD false = true := by
  induction kvs with
  | nil => simp [pyEqFields]
  | cons kv kvs ih => rw [pyEqFields, Bool.and_eq_true, ih, List.forall_mem_cons]

theorem pyEq_obj_iff {kvs lvs : List (PyStr × PyJson)} : pyEq (obj kvs) (obj lvs) = true ↔
    kvs.length = lvs.length ∧ pyEqFields kvs lvs = true := by
  rw [pyEq, Bool.and_eq_true, decide_eq_true_iff]

/-! ### Sorted keys -/

mutual

/-- A value with sorted keys is equal to what the value is equal to. -/
theorem pyEq_sortKeys : ∀ v w : PyJson, pyEq (sortKeys v) w = pyEq v w
  | arr xs, w => by
      cases w with
      | arr ys =>
          rw [sortKeys, pyEq, pyEq]
          exact pyEqList_sortKeys xs ys
      | _ => rfl
  | obj kvs, w => by
      obtain ⟨fields, heq, hperm⟩ := sortKeys_obj_perm kvs
      rw [heq]
      cases w with
      | obj lvs =>
          have hfields := pyEqFields_sortKeys kvs lvs
          rw [sortKeysFields_eq_map, Bool.eq_iff_iff, pyEqFields_iff] at hfields
          rw [Bool.eq_iff_iff, pyEq_obj_iff, pyEq_obj_iff, hperm.length_eq, List.length_map,
            ← hfields, pyEqFields_iff]
          exact and_congr_right fun _ => ⟨fun h kv hkv => h kv (hperm.mem_iff.mpr hkv),
            fun h kv hkv => h kv (hperm.mem_iff.mp hkv)⟩
      | _ => rfl
  | null, _ => rfl
  | bool _, _ => rfl
  | int _, _ => rfl
  | float _, _ => rfl
  | str _, _ => rfl

theorem pyEqList_sortKeys : ∀ xs ys : List PyJson, pyEqList (sortKeysList xs) ys = pyEqList xs ys
  | [], _ => rfl
  | x :: xs, [] => rfl
  | x :: xs, y :: ys => by
      rw [sortKeysList, pyEqList, pyEqList, pyEq_sortKeys x y, pyEqList_sortKeys xs ys]

theorem pyEqFields_sortKeys : ∀ kvs lvs : List (PyStr × PyJson),
    pyEqFields (sortKeysFields kvs) lvs = pyEqFields kvs lvs
  | [], _ => rfl
  | (k, v) :: kvs, lvs => by
      have hvalue : (pyEq v.sortKeys : PyJson → Bool) = pyEq v := by
        funext w
        exact pyEq_sortKeys v w
      rw [sortKeysFields, pyEqFields, pyEqFields, hvalue, pyEqFields_sortKeys kvs lvs]

end

/-- A field of a dict without double keys. -/
theorem field_eq_iff_of_nodup {kvs : List (PyStr × PyJson)} (h : (kvs.map Prod.fst).Nodup)
    {key : String} {v : PyJson} (hmem : (PyStr.ofString key, v) ∈ kvs) : field kvs key = v := by
  have hfind : (kvs.find? fun kv => kv.1 = PyStr.ofString key) = some (PyStr.ofString key, v) := by
    induction kvs with
    | nil => exact absurd hmem List.not_mem_nil
    | cons kv kvs ih =>
        obtain ⟨hkey, hkeys⟩ := List.nodup_cons.mp h
        rcases List.mem_cons.mp hmem with rfl | hmem
        · rw [List.find?_cons, decide_eq_true rfl]
        · have hne : kv.1 ≠ PyStr.ofString key := fun heq =>
            hkey (heq ▸ List.mem_map_of_mem (f := Prod.fst) hmem)
          rw [List.find?_cons, decide_eq_false hne]
          exact ih hkeys hmem
  rw [field, hfind]
  rfl

theorem field_of_notMem {kvs : List (PyStr × PyJson)} {key : String}
    (h : PyStr.ofString key ∉ kvs.map Prod.fst) : field kvs key = null := by
  have hfind : (kvs.find? fun kv => kv.1 = PyStr.ofString key) = none := by
    rw [List.find?_eq_none]
    intro kv hkv hkey
    exact h (List.mem_map.mpr ⟨kv, hkv, of_decide_eq_true hkey⟩)
  rw [field, hfind]
  rfl

/-- The fields of a sorted dict are those of the dict, sorted. -/
theorem field_sortKeys {kvs fields : List (PyStr × PyJson)} (h : (kvs.map Prod.fst).Nodup)
    (hsort : sortKeys (obj kvs) = obj fields) (key : String) :
    field fields key = sortKeys (field kvs key) := by
  obtain ⟨fields', heq, hperm⟩ := sortKeys_obj_perm kvs
  obtain rfl : fields' = fields := obj.inj (heq.symm.trans hsort)
  have hkeys : (fields'.map Prod.fst).Perm (kvs.map Prod.fst) := by
    have := hperm.map Prod.fst
    rwa [List.map_map] at this
  by_cases hmem : PyStr.ofString key ∈ kvs.map Prod.fst
  · obtain ⟨⟨k, v⟩, hkv, rfl⟩ := List.mem_map.mp hmem
    rw [field_eq_iff_of_nodup h hkv]
    refine field_eq_iff_of_nodup (hkeys.nodup_iff.mpr h) (hperm.mem_iff.mpr ?_)
    exact List.mem_map.mpr ⟨_, hkv, rfl⟩
  · rw [field_of_notMem hmem, field_of_notMem fun hm => hmem (hkeys.mem_iff.mp hm)]
    rfl

end Konoha.PyJson
