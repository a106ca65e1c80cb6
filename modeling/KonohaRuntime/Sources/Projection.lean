/-
Sources/Projection.lean

What a bounded projection keeps of a JSON value.

`bounded_value` cuts in five places.  Four of them leave a mark in the result: the depth, the
length of a list, the number of fields, the length of a text.  The fifth cuts the keys of an
object and leaves none, so two fields whose keys begin alike become one.

* `size_boundedValue`: the size of a projection has a bound that does not depend on the value.
* `unmarked_boundedValue`: which values are projected without a mark.
* `explicit_iff`: a projection without a mark determines the value exactly when the value has no
  key of two thousand characters or more.
-/
import KonohaRuntime.Runtime.Sources
import Mathlib.Algebra.Order.BigOperators.Group.List

namespace Konoha

namespace Json

/-! ### Objects at every level -/

mutual

/-- The fields of every object in the value have the property. -/
def Everywhere (p : List (String × Json) → Prop) : Json → Prop
  | arr xs => EverywhereList p xs
  | obj kvs => p kvs ∧ EverywhereFields p kvs
  | _ => True

def EverywhereList (p : List (String × Json) → Prop) : List Json → Prop
  | [] => True
  | x :: xs => Everywhere p x ∧ EverywhereList p xs

def EverywhereFields (p : List (String × Json) → Prop) : List (String × Json) → Prop
  | [] => True
  | (_, v) :: kvs => Everywhere p v ∧ EverywhereFields p kvs

end

variable {p : List (String × Json) → Prop}

@[simp] theorem everywhere_arr {xs : List Json} :
    Everywhere p (arr xs) ↔ ∀ x ∈ xs, Everywhere p x := by
  rw [Everywhere]
  induction xs with
  | nil => simp [EverywhereList]
  | cons x xs ih => rw [EverywhereList, ih, List.forall_mem_cons]

@[simp] theorem everywhere_obj {kvs : List (String × Json)} :
    Everywhere p (obj kvs) ↔ p kvs ∧ ∀ kv ∈ kvs, Everywhere p kv.2 := by
  rw [Everywhere]
  apply and_congr_right
  intro _
  have hfields (kvs : List (String × Json)) :
      EverywhereFields p kvs ↔ ∀ kv ∈ kvs, Everywhere p kv.2 := by
    induction kvs with
    | nil => simp [EverywhereFields]
    | cons kv kvs ih => rw [EverywhereFields, ih, List.forall_mem_cons]
  exact hfields kvs

/-- No object has a key twice, as in a dict. -/
def KeysOnce (v : Json) : Prop := v.Everywhere fun kvs => (kvs.map (·.1)).Nodup

/-- Every key of every object has fewer than `n` characters. -/
def KeysBelow (n : Nat) (v : Json) : Prop := v.Everywhere fun kvs => ∀ kv ∈ kvs, kv.1.length < n

/-! ### Size -/

mutual

/-- The nodes of a value and the characters of its texts and keys. -/
def size : Json → Nat
  | str s => 1 + s.length
  | arr xs => 1 + sizeList xs
  | obj kvs => 1 + sizeFields kvs
  | _ => 1

def sizeList : List Json → Nat
  | [] => 0
  | x :: xs => size x + sizeList xs

def sizeFields : List (String × Json) → Nat
  | [] => 0
  | (k, v) :: kvs => k.length + size v + sizeFields kvs

end

end Json

open Json

/-! ### The result -/

/-- No `truncated` flag of the projection is true, and nothing in it is omitted. -/
inductive Unmarked : Json → Prop
  | null : Unmarked .null
  | bool (b : Bool) : Unmarked (.bool b)
  | int (i : Int) : Unmarked (.int i)
  | float (f : PyFloat) : Unmarked (.float f)
  | text (s : String) (total : Int) :
      Unmarked (.obj [("text", .str s), ("total_chars", .int total), ("truncated", .bool false)])
  | items (xs : List Json) (total included : Int) : (∀ x ∈ xs, Unmarked x) →
      Unmarked (.obj [("total", .int total), ("included", .int included),
        ("truncated", .bool false), ("items", .arr xs)])
  | fields (kvs : List (String × Json)) (total : Int) : (∀ kv ∈ kvs, Unmarked kv.2) →
      Unmarked (.obj [("fields", .obj kvs), ("total_fields", .int total),
        ("truncated", .bool false)])

/-- The shape of an unmarked object. -/
theorem Unmarked.obj_cases {kvs : List (String × Json)} (h : Unmarked (.obj kvs)) :
    (∃ s total, kvs = [("text", .str s), ("total_chars", .int total),
      ("truncated", .bool false)]) ∨
    (∃ xs total included, kvs = [("total", .int total), ("included", .int included),
      ("truncated", .bool false), ("items", .arr xs)] ∧ ∀ x ∈ xs, Unmarked x) ∨
    ∃ fields total, kvs = [("fields", .obj fields), ("total_fields", .int total),
      ("truncated", .bool false)] ∧ ∀ kv ∈ fields, Unmarked kv.2 := by
  cases h with
  | text s total => exact .inl ⟨s, total, rfl⟩
  | items xs total included hxs => exact .inr (.inl ⟨xs, total, included, rfl, hxs⟩)
  | fields fields total hfields => exact .inr (.inr ⟨fields, total, rfl, hfields⟩)

theorem not_unmarked_omitted (v : Json) : ¬ Unmarked (.obj [("omitted", v)]) := by
  intro h
  obtain ⟨_, _, h⟩ | ⟨_, _, _, h, -⟩ | ⟨_, _, h, -⟩ := h.obj_cases
  · simp at h
  · simp at h
  · simp at h

theorem unmarked_text {s : String} {total : Int} {b : Bool} :
    Unmarked (.obj [("text", .str s), ("total_chars", .int total), ("truncated", .bool b)]) ↔
      b = false := by
  constructor
  · intro h
    obtain ⟨_, _, h⟩ | ⟨_, _, _, h, -⟩ | ⟨_, _, h, -⟩ := h.obj_cases
    · simp at h
      exact h.2.2
    · simp at h
    · simp at h
  · rintro rfl
    exact .text s total

theorem unmarked_items {xs : List Json} {total included : Int} {b : Bool} :
    Unmarked (.obj [("total", .int total), ("included", .int included), ("truncated", .bool b),
      ("items", .arr xs)]) ↔ b = false ∧ ∀ x ∈ xs, Unmarked x := by
  constructor
  · intro h
    obtain ⟨_, _, h⟩ | ⟨_, _, _, h, hxs⟩ | ⟨_, _, h, -⟩ := h.obj_cases
    · simp at h
    · simp at h
      obtain ⟨-, -, rfl, rfl⟩ := h
      exact ⟨rfl, hxs⟩
    · simp at h
  · rintro ⟨rfl, hxs⟩
    exact .items xs total included hxs

theorem unmarked_fields {kvs : List (String × Json)} {total : Int} {b : Bool} :
    Unmarked (.obj [("fields", .obj kvs), ("total_fields", .int total), ("truncated", .bool b)]) ↔
      b = false ∧ ∀ kv ∈ kvs, Unmarked kv.2 := by
  constructor
  · intro h
    obtain ⟨_, _, h⟩ | ⟨_, _, _, h, -⟩ | ⟨_, _, h, hkvs⟩ := h.obj_cases
    · simp at h
    · simp at h
    · simp at h
      obtain ⟨rfl, -, rfl⟩ := h
      exact ⟨rfl, hkvs⟩
  · rintro ⟨rfl, hkvs⟩
    exact .fields kvs total hkvs

/-! ### The fields of an object -/

/-- The key of a field as the projection has it. -/
def cutKey (kv : String × Json) : String := takeChars maxMaterialTextChars kv.1

/-- The fields of a projected object. -/
def projectedFields (room : Nat) (kvs acc : List (String × Json)) : List (String × Json) :=
  kvs.foldl (fun acc kv => setField (cutKey kv) (boundedValue room kv.2) acc) acc

theorem boundedValue_obj (room : Nat) (kvs : List (String × Json)) :
    boundedValue (room + 1) (.obj kvs) =
      .obj [("fields", .obj (projectedFields room (kvs.take maxMaterialListItems) [])),
        ("total_fields", .int kvs.length),
        ("truncated", .bool ((kvs.take maxMaterialListItems).length < kvs.length))] := rfl

theorem mem_setField {k : String} {v : Json} {kvs : List (String × Json)}
    (hkvs : (kvs.map (·.1)).Nodup) {kv : String × Json} :
    kv ∈ setField k v kvs ↔ kv = (k, v) ∨ kv ∈ kvs ∧ kv.1 ≠ k := by
  induction kvs with
  | nil => simp [setField]
  | cons head rest ih =>
      obtain ⟨l, u⟩ := head
      obtain ⟨hl, hrest⟩ := List.nodup_cons.mp hkvs
      by_cases h : l = k
      · subst h
        rw [setField, if_pos rfl, List.mem_cons, List.mem_cons]
        constructor
        · rintro (rfl | hmem)
          · exact .inl rfl
          · refine .inr ⟨.inr hmem, ?_⟩
            intro heq
            exact hl (List.mem_map.mpr ⟨kv, hmem, heq⟩)
        · rintro (rfl | ⟨rfl | hmem, hne⟩)
          · exact .inl rfl
          · exact absurd rfl hne
          · exact .inr hmem
      · rw [setField, if_neg h, List.mem_cons, List.mem_cons, ih hrest]
        constructor
        · rintro (rfl | rfl | ⟨hmem, hne⟩)
          · exact .inr ⟨.inl rfl, h⟩
          · exact .inl rfl
          · exact .inr ⟨.inr hmem, hne⟩
        · rintro (rfl | ⟨rfl | hmem, hne⟩)
          · exact .inr (.inl rfl)
          · exact .inl rfl
          · exact .inr (.inr ⟨hmem, hne⟩)

theorem setField_fresh {k : String} {v : Json} {kvs : List (String × Json)}
    (h : k ∉ kvs.map (·.1)) : setField k v kvs = kvs ++ [(k, v)] := by
  induction kvs with
  | nil => rfl
  | cons head rest ih =>
      obtain ⟨l, u⟩ := head
      have hl : l ≠ k := fun hl => h (List.mem_cons.mpr (.inl hl.symm))
      rw [setField, if_neg hl, ih fun hrest => h (List.mem_cons_of_mem l hrest)]
      rfl

theorem setField_keys {k : String} {v : Json} {kvs : List (String × Json)}
    (h : k ∈ kvs.map (·.1)) : (setField k v kvs).map (·.1) = kvs.map (·.1) := by
  induction kvs with
  | nil => cases h
  | cons head rest ih =>
      obtain ⟨l, u⟩ := head
      by_cases hl : l = k
      · subst hl
        rw [setField, if_pos rfl]
        rfl
      · rw [setField, if_neg hl]
        have hrest : k ∈ rest.map (·.1) := by
          obtain rfl | hrest := List.mem_cons.mp h
          · exact absurd rfl hl
          · exact hrest
        exact congrArg (l :: ·) (ih hrest)

theorem setField_nodup {k : String} {v : Json} {kvs : List (String × Json)}
    (hkvs : (kvs.map (·.1)).Nodup) : ((setField k v kvs).map (·.1)).Nodup := by
  by_cases h : k ∈ kvs.map (·.1)
  · rw [setField_keys h]
    exact hkvs
  · rw [setField_fresh h, List.map_append]
    exact List.nodup_append.mpr ⟨hkvs, List.nodup_singleton k, fun a ha b hb => by
      obtain rfl := List.mem_singleton.mp hb
      exact fun hab => h (hab ▸ ha)⟩

/-- The last field with each key, cut, satisfies `q`. -/
def LastFields (q : Json → Prop) : List (String × Json) → Prop
  | [] => True
  | kv :: kvs => (cutKey kv ∈ kvs.map cutKey ∨ q kv.2) ∧ LastFields q kvs

theorem forall_projectedFields {q : Json → Prop} {room : Nat} (kvs : List (String × Json))
    {acc : List (String × Json)} (hacc : (acc.map (·.1)).Nodup) :
    (∀ y ∈ projectedFields room kvs acc, q y.2) ↔
      (∀ y ∈ acc, y.1 ∈ kvs.map cutKey ∨ q y.2) ∧
        LastFields (fun v => q (boundedValue room v)) kvs := by
  induction kvs generalizing acc with
  | nil => simp [projectedFields, LastFields]
  | cons kv kvs ih =>
      change (∀ y ∈ projectedFields room kvs (setField (cutKey kv) (boundedValue room kv.2) acc),
        q y.2) ↔ _
      rw [ih (setField_nodup hacc), LastFields, List.map_cons, ← and_assoc]
      refine and_congr_left fun _ => ?_
      constructor
      · intro h
        refine ⟨?_, h _ ((mem_setField hacc).mpr (.inl rfl))⟩
        intro y hy
        by_cases hne : y.1 = cutKey kv
        · exact .inl (List.mem_cons.mpr (.inl hne))
        · exact (h y ((mem_setField hacc).mpr (.inr ⟨hy, hne⟩))).imp_left
            (List.mem_cons_of_mem _)
      · rintro ⟨h, hkv⟩ y hy
        obtain rfl | ⟨hy, hne⟩ := (mem_setField hacc).mp hy
        · exact hkv
        · exact (h y hy).imp_left fun hmem => (List.mem_cons.mp hmem).resolve_left hne

theorem projectedFields_length_le (room : Nat) (kvs acc : List (String × Json)) :
    (projectedFields room kvs acc).length ≤ acc.length + kvs.length := by
  induction kvs generalizing acc with
  | nil => exact Nat.le_refl _
  | cons kv kvs ih =>
      have hlen : (setField (cutKey kv) (boundedValue room kv.2) acc).length ≤ acc.length + 1 := by
        by_cases h : cutKey kv ∈ acc.map (·.1)
        · have hkeys : (setField (cutKey kv) (boundedValue room kv.2) acc).length = acc.length := by
            simpa using congrArg List.length (setField_keys (v := boundedValue room kv.2) h)
          omega
        · rw [setField_fresh h]
          simp
      have hrest : (projectedFields room (kv :: kvs) acc).length ≤ _ :=
        ih (setField (cutKey kv) (boundedValue room kv.2) acc)
      rw [List.length_cons]
      omega

/-- Keys that differ when they are cut stay as they are, in their order. -/
theorem projectedFields_eq_map (room : Nat) (kvs : List (String × Json))
    {acc : List (String × Json)} (h : (acc.map (·.1) ++ kvs.map cutKey).Nodup) :
    projectedFields room kvs acc =
      acc ++ kvs.map fun kv => (cutKey kv, boundedValue room kv.2) := by
  induction kvs generalizing acc with
  | nil => exact (List.append_nil acc).symm
  | cons kv kvs ih =>
      have hfresh : cutKey kv ∉ acc.map (·.1) := fun hmem =>
        (List.nodup_append.mp h).2.2 _ hmem _ List.mem_cons_self rfl
      change projectedFields room kvs (setField (cutKey kv) (boundedValue room kv.2) acc) = _
      rw [setField_fresh hfresh, ih, List.append_assoc]
      · rfl
      · rw [List.map_append, List.append_assoc]
        exact h

/-- No field is lost only if the keys differ when they are cut. -/
theorem nodup_of_projectedFields_length {room : Nat} (kvs : List (String × Json))
    {acc : List (String × Json)} (hacc : (acc.map (·.1)).Nodup)
    (h : (projectedFields room kvs acc).length = acc.length + kvs.length) :
    (acc.map (·.1) ++ kvs.map cutKey).Nodup := by
  induction kvs generalizing acc with
  | nil => simpa using hacc
  | cons kv kvs ih =>
      have hrest : (projectedFields room (kv :: kvs) acc).length ≤
          (setField (cutKey kv) (boundedValue room kv.2) acc).length + kvs.length :=
        projectedFields_length_le room kvs _
      rw [List.length_cons] at h
      by_cases hmem : cutKey kv ∈ acc.map (·.1)
      · have hkeys : (setField (cutKey kv) (boundedValue room kv.2) acc).length = acc.length := by
          simpa using congrArg List.length (setField_keys (v := boundedValue room kv.2) hmem)
        omega
      · have hnodup := ih (setField_nodup (k := cutKey kv) (v := boundedValue room kv.2) hacc) (by
          rw [setField_fresh hmem, List.length_append, List.length_singleton]
          rw [setField_fresh hmem] at hrest
          change (projectedFields room kvs (setField (cutKey kv) (boundedValue room kv.2) acc)).length
            = _ at h
          rw [setField_fresh hmem] at h
          omega)
        rw [setField_fresh hmem, List.map_append, List.append_assoc] at hnodup
        exact hnodup

/-! ### Values that are projected without a mark -/

/-- Nothing of the value but its keys is cut, `room` levels being left: the lists, the objects
and the texts are within their bounds, and so is the value of the last field with each key. -/
def Within : Nat → Json → Prop
  | 0, _ => False
  | _ + 1, .str s => s.length ≤ maxMaterialTextChars
  | room + 1, .arr xs => xs.length ≤ maxMaterialListItems ∧ ∀ x ∈ xs, Within room x
  | room + 1, .obj kvs => kvs.length ≤ maxMaterialListItems ∧ LastFields (Within room) kvs
  | _ + 1, _ => True

theorem lastFields_congr {q r : Json → Prop} (h : ∀ v, q v ↔ r v) (kvs : List (String × Json)) :
    LastFields q kvs ↔ LastFields r kvs := by
  have hqr : q = r := funext fun v => propext (h v)
  rw [hqr]

theorem unmarked_boundedValue (room : Nat) (v : Json) :
    Unmarked (boundedValue room v) ↔ Within room v := by
  induction room generalizing v with
  | zero => exact iff_of_false (not_unmarked_omitted _) id
  | succ room ih =>
      cases v with
      | null => exact iff_of_true .null trivial
      | bool b => exact iff_of_true (.bool b) trivial
      | int i => exact iff_of_true (.int i) trivial
      | float f => exact iff_of_true (.float f) trivial
      | str s =>
          apply unmarked_text.trans
          rw [decide_eq_false_iff_not, Nat.not_lt]
          rfl
      | arr xs =>
          apply unmarked_items.trans
          rw [List.forall_mem_map, decide_eq_false_iff_not, Nat.not_lt, List.length_map,
            List.length_take, Within]
          -- the items that are projected are all of them, if none is cut off
          constructor
          · rintro ⟨hlen, hxs⟩
            have hle : xs.length ≤ maxMaterialListItems := by omega
            rw [List.take_of_length_le hle] at hxs
            exact ⟨hle, fun x hx => (ih x).mp (hxs x hx)⟩
          · rintro ⟨hle, hxs⟩
            rw [List.take_of_length_le hle]
            exact ⟨by omega, fun x hx => (ih x).mpr (hxs x hx)⟩
      | obj kvs =>
          have hfields : (∀ y ∈ projectedFields room (kvs.take maxMaterialListItems) [],
              Unmarked y.2) ↔ _ := forall_projectedFields _ List.nodup_nil
          rw [boundedValue_obj]
          apply unmarked_fields.trans
          rw [hfields, lastFields_congr ih, decide_eq_false_iff_not, Nat.not_lt, List.length_take,
            Within]
          constructor
          · rintro ⟨hlen, -, hkvs⟩
            have hle : kvs.length ≤ maxMaterialListItems := by omega
            rw [List.take_of_length_le hle] at hkvs
            exact ⟨hle, hkvs⟩
          · rintro ⟨hle, hkvs⟩
            rw [List.take_of_length_le hle]
            exact ⟨by omega, fun y hy => (nomatch hy), hkvs⟩

/-! ### Size -/

/-- A bound on the size of a projection with `room` levels left. -/
def sizeBound : Nat → Nat
  | 0 => 20
  | room + 1 => 50 + maxMaterialListItems * (maxMaterialTextChars + sizeBound room)

theorem length_takeChars (n : Nat) (s : String) : (takeChars n s).length = min n s.length := by
  rw [takeChars, String.length_ofList, List.length_take, String.length_toList]

theorem sizeList_le {n : Nat} {xs : List Json} (h : ∀ x ∈ xs, x.size ≤ n) :
    sizeList xs ≤ xs.length * n := by
  induction xs with
  | nil => simp [sizeList]
  | cons x xs ih =>
      obtain ⟨hx, hxs⟩ := List.forall_mem_cons.mp h
      have hrest := ih hxs
      rw [sizeList, List.length_cons, Nat.succ_mul]
      omega

theorem sizeFields_setField_le (k : String) (v : Json) (kvs : List (String × Json)) :
    sizeFields (setField k v kvs) ≤ sizeFields kvs + (k.length + v.size) := by
  induction kvs with
  | nil => simp [setField, sizeFields]
  | cons head rest ih =>
      obtain ⟨l, u⟩ := head
      by_cases hl : l = k
      · subst hl
        rw [setField, if_pos rfl, sizeFields, sizeFields]
        omega
      · rw [setField, if_neg hl, sizeFields, sizeFields]
        omega

theorem sizeFields_projectedFields_le {n room : Nat} (h : ∀ v, (boundedValue room v).size ≤ n)
    (kvs acc : List (String × Json)) :
    sizeFields (projectedFields room kvs acc) ≤
      sizeFields acc + kvs.length * (maxMaterialTextChars + n) := by
  induction kvs generalizing acc with
  | nil => simp [projectedFields]
  | cons kv kvs ih =>
      have hfield : sizeFields (setField (cutKey kv) (boundedValue room kv.2) acc) ≤ _ :=
        sizeFields_setField_le _ _ _
      have hkey : (cutKey kv).length ≤ maxMaterialTextChars := by
        rw [cutKey, length_takeChars]
        exact Nat.min_le_left _ _
      have hvalue := h kv.2
      have hrest : sizeFields (projectedFields room (kv :: kvs) acc) ≤ _ :=
        ih (setField (cutKey kv) (boundedValue room kv.2) acc)
      rw [List.length_cons, Nat.succ_mul]
      omega

/-- The size of a projection is bounded independently of the value. -/
theorem size_boundedValue (room : Nat) (v : Json) : (boundedValue room v).size ≤ sizeBound room := by
  induction room generalizing v with
  | zero =>
      have homitted : (Json.obj [("omitted", .str "depth_limit")]).size ≤ 20 := by decide +kernel
      exact homitted
  | succ room ih =>
      have hone : 1 ≤ sizeBound (room + 1) := by
        rw [sizeBound]
        omega
      cases v with
      | null => exact hone
      | bool b => exact hone
      | int i => exact hone
      | float f => exact hone
      | str s =>
          have hlen : (takeChars maxMaterialTextChars s).length ≤ maxMaterialTextChars := by
            rw [length_takeChars]
            exact Nat.min_le_left _ _
          have hsize : (boundedText s).size =
              1 + (4 + (1 + (takeChars maxMaterialTextChars s).length) + (11 + 1 + (9 + 1))) := rfl
          change (boundedText s).size ≤ _
          rw [hsize, sizeBound]
          simp only [maxMaterialTextChars, maxMaterialListItems] at hlen ⊢
          omega
      | arr xs =>
          have hsize : (boundedValue (room + 1) (.arr xs)).size =
              1 + (5 + 1 + (8 + 1 + (9 + 1 + (5 + (1 + sizeList
                ((xs.take maxMaterialListItems).map (boundedValue room))))))) := rfl
          have hitems : sizeList ((xs.take maxMaterialListItems).map (boundedValue room)) ≤
              ((xs.take maxMaterialListItems).map (boundedValue room)).length * sizeBound room := by
            apply sizeList_le
            rw [List.forall_mem_map]
            exact fun x _ => ih x
          have hcount : ((xs.take maxMaterialListItems).map (boundedValue room)).length *
              sizeBound room ≤ maxMaterialListItems * sizeBound room := by
            apply Nat.mul_le_mul_right
            rw [List.length_map, List.length_take]
            exact Nat.min_le_left _ _
          rw [hsize, sizeBound, Nat.mul_add]
          omega
      | obj kvs =>
          have hsize : (boundedValue (room + 1) (.obj kvs)).size =
              1 + (6 + (1 + sizeFields
                (projectedFields room (kvs.take maxMaterialListItems) [])) +
                (12 + 1 + (9 + 1))) := rfl
          have hfields : sizeFields (projectedFields room (kvs.take maxMaterialListItems) []) ≤
              0 + (kvs.take maxMaterialListItems).length *
                (maxMaterialTextChars + sizeBound room) :=
            sizeFields_projectedFields_le ih _ []
          have hcount : (kvs.take maxMaterialListItems).length *
              (maxMaterialTextChars + sizeBound room) ≤
                maxMaterialListItems * (maxMaterialTextChars + sizeBound room) := by
            apply Nat.mul_le_mul_right
            rw [List.length_take]
            exact Nat.min_le_left _ _
          rw [hsize, sizeBound]
          omega

/-! ### Recovering the value -/

theorem takeChars_of_length_le {n : Nat} {s : String} (h : s.length ≤ n) : takeChars n s = s := by
  rw [takeChars, List.take_of_length_le (by rw [String.length_toList]; exact h),
    String.ofList_toList]

/-- A text that is shorter than the bound when it is cut has not been cut. -/
theorem eq_of_takeChars_eq {n : Nat} {s t : String} (hs : s.length < n)
    (h : takeChars n t = s) : t = s := by
  have hlen : min n t.length = s.length := by rw [← h, length_takeChars]
  rw [← h, takeChars_of_length_le (by omega)]

theorem eq_of_map_eq {α β : Type} {f : α → β} {xs ys : List α}
    (h : ∀ x ∈ xs, ∀ y, f y = f x → y = x) (hmap : ys.map f = xs.map f) : ys = xs := by
  induction xs generalizing ys with
  | nil => exact List.map_eq_nil_iff.mp hmap
  | cons x xs ih =>
      obtain ⟨hx, hxs⟩ := List.forall_mem_cons.mp h
      cases ys with
      | nil => cases hmap
      | cons y ys =>
          obtain ⟨hy, hys⟩ := List.cons.inj hmap
          rw [hx y hy, ih hxs hys]

theorem boundedValue_arr (room : Nat) (xs : List Json) :
    boundedValue (room + 1) (.arr xs) =
      .obj [("total", .int xs.length),
        ("included", .int ((xs.take maxMaterialListItems).map (boundedValue room)).length),
        ("truncated", .bool
          (((xs.take maxMaterialListItems).map (boundedValue room)).length < xs.length)),
        ("items", .arr ((xs.take maxMaterialListItems).map (boundedValue room)))] := rfl

theorem boundedValue_str (room : Nat) (s : String) :
    boundedValue (room + 1) (.str s) =
      .obj [("text", .str (takeChars maxMaterialTextChars s)), ("total_chars", .int s.length),
        ("truncated", .bool (maxMaterialTextChars < s.length))] := rfl

/-- Nothing but the value itself has its projection. -/
theorem eq_of_boundedValue_eq {room : Nat} {v w : Json} (hkeys : KeysOnce v)
    (hbelow : KeysBelow maxMaterialTextChars v) (hmark : Unmarked (boundedValue room v))
    (h : boundedValue room w = boundedValue room v) : w = v := by
  induction room generalizing v w with
  | zero => exact absurd hmark (not_unmarked_omitted _)
  | succ room ih =>
      cases v with
      | str s =>
          rw [boundedValue_str, unmarked_text, decide_eq_false_iff_not, Nat.not_lt] at hmark
          cases w with
          | str t =>
              rw [boundedValue_str, boundedValue_str] at h
              simp at h
              obtain ⟨htext, hlen, -⟩ := h
              rw [takeChars_of_length_le hmark, takeChars_of_length_le (by omega)] at htext
              rw [htext]
          | arr ys =>
              rw [boundedValue_str, boundedValue_arr] at h
              simp at h
          | obj lvs =>
              rw [boundedValue_str, boundedValue_obj] at h
              simp at h
          | _ => cases h
      | arr xs =>
          rw [boundedValue_arr, unmarked_items, decide_eq_false_iff_not, Nat.not_lt,
            List.length_map, List.length_take] at hmark
          obtain ⟨hlen, hmark⟩ := hmark
          cases w with
          | str t =>
              rw [boundedValue_str, boundedValue_arr] at h
              simp at h
          | arr ys =>
              rw [boundedValue_arr, boundedValue_arr] at h
              have hlength : (ys.length : Int) = xs.length := by
                simp at h
                omega
              have hitems : (ys.take maxMaterialListItems).map (boundedValue room) =
                  (xs.take maxMaterialListItems).map (boundedValue room) := by
                simp only [Json.obj.injEq, List.cons.injEq, Prod.mk.injEq, Json.arr.injEq] at h
                exact h.2.2.2.1.2
              rw [List.take_of_length_le (by omega : xs.length ≤ maxMaterialListItems)] at hmark
              rw [List.take_of_length_le (by omega : xs.length ≤ maxMaterialListItems),
                List.take_of_length_le (by omega : ys.length ≤ maxMaterialListItems)] at hitems
              refine congrArg Json.arr (eq_of_map_eq ?_ hitems)
              intro x hx y hy
              exact ih (everywhere_arr.mp hkeys x hx) (everywhere_arr.mp hbelow x hx)
                (hmark _ (List.mem_map_of_mem hx)) hy
          | obj lvs =>
              rw [boundedValue_arr, boundedValue_obj] at h
              simp at h
          | _ => cases h
      | obj kvs =>
          rw [boundedValue_obj, unmarked_fields, decide_eq_false_iff_not, Nat.not_lt,
            List.length_take] at hmark
          obtain ⟨hlen, hmark⟩ := hmark
          cases w with
          | str t =>
              rw [boundedValue_str, boundedValue_obj] at h
              simp at h
          | arr ys =>
              rw [boundedValue_arr, boundedValue_obj] at h
              simp at h
          | obj lvs =>
              obtain ⟨honce, hkeys⟩ := everywhere_obj.mp hkeys
              obtain ⟨hshort, hbelow⟩ := everywhere_obj.mp hbelow
              rw [boundedValue_obj, boundedValue_obj] at h
              have hlength : (lvs.length : Int) = kvs.length := by
                simp at h
                omega
              have hfields : projectedFields room (lvs.take maxMaterialListItems) [] =
                  projectedFields room (kvs.take maxMaterialListItems) [] := by
                simp only [Json.obj.injEq, List.cons.injEq, Prod.mk.injEq] at h
                exact h.1.2
              rw [List.take_of_length_le (by omega : kvs.length ≤ maxMaterialListItems)]
                at hmark hfields
              rw [List.take_of_length_le (by omega : lvs.length ≤ maxMaterialListItems)] at hfields
              have hcut : kvs.map cutKey = kvs.map (·.1) := by
                apply List.map_congr_left
                intro kv hkv
                exact takeChars_of_length_le (hshort kv hkv).le
              have hmap : projectedFields room kvs [] =
                  kvs.map fun kv => (cutKey kv, boundedValue room kv.2) := by
                apply projectedFields_eq_map
                rw [hcut]
                exact honce
              -- as many fields are left, so the keys of the other object differ as well
              have hcount : (projectedFields room lvs []).length = 0 + lvs.length := by
                rw [hfields, hmap, List.length_map]
                omega
              have hmap' : projectedFields room lvs [] =
                  lvs.map fun kv => (cutKey kv, boundedValue room kv.2) :=
                projectedFields_eq_map room lvs
                  (nodup_of_projectedFields_length lvs List.nodup_nil hcount)
              rw [hmap] at hmark
              rw [hmap, hmap'] at hfields
              refine congrArg Json.obj (eq_of_map_eq ?_ hfields)
              intro kv hkv lv hlv
              obtain ⟨hkey, hvalue⟩ := Prod.mk.inj hlv
              rw [cutKey, cutKey, takeChars_of_length_le (hshort kv hkv).le] at hkey
              exact Prod.ext (eq_of_takeChars_eq (hshort kv hkv) hkey)
                (ih (hkeys kv hkv) (hbelow kv hkv) (hmark _ (List.mem_map_of_mem hkv)) hvalue)
          | _ => cases h
      | _ =>
          cases w with
          | str t => cases h
          | arr ys => cases h
          | obj lvs => cases h
          | _ => exact h

/-! ### Another value with the projection -/

theorem boundedValue_arr_congr {xs ys : List Json} (room : Nat)
    (h : ys.map (boundedValue room) = xs.map (boundedValue room)) :
    boundedValue (room + 1) (.arr ys) = boundedValue (room + 1) (.arr xs) := by
  have hlen : ys.length = xs.length := by simpa using congrArg List.length h
  rw [boundedValue_arr, boundedValue_arr, List.map_take, List.map_take, h, hlen]

theorem projectedFields_congr {kvs lvs : List (String × Json)} {room : Nat}
    (h : lvs.map (fun kv => (cutKey kv, boundedValue room kv.2)) =
      kvs.map fun kv => (cutKey kv, boundedValue room kv.2)) (acc : List (String × Json)) :
    projectedFields room lvs acc = projectedFields room kvs acc := by
  have hfold (kvs : List (String × Json)) : projectedFields room kvs acc =
      (kvs.map fun kv => (cutKey kv, boundedValue room kv.2)).foldl
        (fun acc kv => setField kv.1 kv.2 acc) acc := by
    rw [List.foldl_map]
    rfl
  rw [hfold, hfold, h]

theorem boundedValue_obj_congr {kvs lvs : List (String × Json)} (room : Nat)
    (h : lvs.map (fun kv => (cutKey kv, boundedValue room kv.2)) =
      kvs.map fun kv => (cutKey kv, boundedValue room kv.2)) :
    boundedValue (room + 1) (.obj lvs) = boundedValue (room + 1) (.obj kvs) := by
  have hlen : lvs.length = kvs.length := by simpa using congrArg List.length h
  have htake : (lvs.take maxMaterialListItems).map (fun kv => (cutKey kv, boundedValue room kv.2)) =
      (kvs.take maxMaterialListItems).map fun kv => (cutKey kv, boundedValue room kv.2) := by
    rw [List.map_take, List.map_take, h]
  rw [boundedValue_obj, boundedValue_obj, projectedFields_congr htake, List.length_take,
    List.length_take, hlen]

/-- A key of the same beginning that none of the keys is. -/
theorem exists_fresh_key {k : String} (h : maxMaterialTextChars ≤ k.length) (keys : List String) :
    ∃ k', k' ∉ keys ∧ k' ≠ k ∧
      takeChars maxMaterialTextChars k' = takeChars maxMaterialTextChars k := by
  let n := ((k :: keys).map String.length).sum
  have hlonger : ∀ l ∈ k :: keys, l.length ≤ n := fun l hl =>
    List.le_sum_of_mem (List.mem_map_of_mem hl)
  let k' := String.ofList (k.toList.take maxMaterialTextChars ++ List.replicate (n + 1) 'x')
  have hlen : n < k'.length := by
    rw [String.length_ofList, List.length_append, List.length_replicate]
    omega
  refine ⟨k', ?_, ?_, ?_⟩
  · intro hmem
    have hle := hlonger k' (List.mem_cons_of_mem k hmem)
    omega
  · intro heq
    have hle := hlonger k List.mem_cons_self
    rw [heq] at hlen
    omega
  · rw [takeChars, takeChars, String.toList_ofList, List.take_append_of_le_length,
      List.take_take, Nat.min_self]
    rw [List.length_take, String.length_toList]
    omega

/-- A long key leaves room for another value with the projection. -/
theorem exists_other : ∀ v : Json, KeysOnce v → ¬ KeysBelow maxMaterialTextChars v →
    ∃ w, KeysOnce w ∧ w ≠ v ∧ ∀ room, boundedValue room w = boundedValue room v
  | .arr xs, honce, hlong => by
      rw [KeysBelow, everywhere_arr] at hlong
      push Not at hlong
      obtain ⟨x, hx, hlong⟩ := hlong
      have hsmaller : sizeOf x < sizeOf (Json.arr xs) := by
        have := List.sizeOf_lt_of_mem hx
        simp
        omega
      obtain ⟨y, hy, hne, hsame⟩ := exists_other x (everywhere_arr.mp honce x hx) hlong
      obtain ⟨as, bs, rfl⟩ := List.append_of_mem hx
      refine ⟨.arr (as ++ y :: bs), ?_, ?_, ?_⟩
      · apply everywhere_arr.mpr
        intro z hz
        obtain hz | hz := List.mem_append.mp hz
        · exact everywhere_arr.mp honce z (List.mem_append_left _ hz)
        · obtain rfl | hz := List.mem_cons.mp hz
          · exact hy
          · exact everywhere_arr.mp honce z (List.mem_append_right _ (List.mem_cons_of_mem x hz))
      · intro heq
        have hcons := List.append_cancel_left (Json.arr.inj heq)
        exact hne (List.cons.inj hcons).1
      · intro room
        cases room with
        | zero => rfl
        | succ room =>
            apply boundedValue_arr_congr
            rw [List.map_append, List.map_append, List.map_cons, List.map_cons, hsame room]
  | .obj kvs, honce, hlong => by
      rw [KeysBelow, everywhere_obj] at hlong
      obtain ⟨hnodup, hvalues⟩ := everywhere_obj.mp honce
      by_cases hkeys : ∀ kv ∈ kvs, kv.1.length < maxMaterialTextChars
      · -- a value of a field has a long key in it
        have hlong : ¬ ∀ kv ∈ kvs, KeysBelow maxMaterialTextChars kv.2 := fun h => hlong ⟨hkeys, h⟩
        push Not at hlong
        obtain ⟨⟨k, x⟩, hx, hlong⟩ := hlong
        have hsmaller : sizeOf x < sizeOf (Json.obj kvs) := by
          have := List.sizeOf_lt_of_mem hx
          simp at this ⊢
          omega
        obtain ⟨y, hy, hne, hsame⟩ := exists_other x (hvalues _ hx) hlong
        obtain ⟨as, bs, rfl⟩ := List.append_of_mem hx
        refine ⟨.obj (as ++ (k, y) :: bs), ?_, ?_, ?_⟩
        · apply everywhere_obj.mpr
          refine ⟨by simpa using hnodup, ?_⟩
          intro z hz
          obtain hz | hz := List.mem_append.mp hz
          · exact hvalues z (List.mem_append_left _ hz)
          · obtain rfl | hz := List.mem_cons.mp hz
            · exact hy
            · exact hvalues z (List.mem_append_right _ (List.mem_cons_of_mem _ hz))
        · intro heq
          have hcons := List.append_cancel_left (Json.obj.inj heq)
          exact hne (Prod.mk.inj (List.cons.inj hcons).1).2
        · intro room
          cases room with
          | zero => rfl
          | succ room =>
              apply boundedValue_obj_congr
              rw [List.map_append, List.map_append, List.map_cons, List.map_cons, hsame room]
              rfl
      · push Not at hkeys
        obtain ⟨⟨k, x⟩, hx, hlong⟩ := hkeys
        obtain ⟨k', hfresh, hne, hcut⟩ := exists_fresh_key hlong (kvs.map (·.1))
        obtain ⟨as, bs, rfl⟩ := List.append_of_mem hx
        refine ⟨.obj (as ++ (k', x) :: bs), ?_, ?_, ?_⟩
        · apply everywhere_obj.mpr
          constructor
          · rw [List.map_append, List.map_cons, List.nodup_middle] at hnodup ⊢
            refine List.nodup_cons.mpr ⟨?_, (List.nodup_cons.mp hnodup).2⟩
            intro hmem
            apply hfresh
            rw [List.map_append, List.map_cons]
            exact List.mem_append.mpr
              ((List.mem_append.mp hmem).imp_right (List.mem_cons_of_mem _))
          · intro z hz
            obtain hz | hz := List.mem_append.mp hz
            · exact hvalues z (List.mem_append_left _ hz)
            · obtain rfl | hz := List.mem_cons.mp hz
              · exact hvalues (k, x) hx
              · exact hvalues z (List.mem_append_right _ (List.mem_cons_of_mem _ hz))
        · intro heq
          have hcons := List.append_cancel_left (Json.obj.inj heq)
          exact hne (Prod.mk.inj (List.cons.inj hcons).1).1
        · intro room
          cases room with
          | zero => rfl
          | succ room =>
              apply boundedValue_obj_congr
              rw [List.map_append, List.map_append, List.map_cons, List.map_cons, cutKey, cutKey,
                hcut]
  | .null, _, hlong | .bool _, _, hlong | .int _, _, hlong | .float _, _, hlong
  | .str _, _, hlong => absurd trivial hlong
termination_by v => sizeOf v
decreasing_by
  · exact hsmaller
  · exact hsmaller

/-! ### What the projection makes explicit -/

/-- The projection has a bounded size, and it determines the value unless it is marked. -/
structure Explicit (v : Json) : Prop where
  bounded : (boundedValue 7 v).size ≤ sizeBound 7
  recovered : Unmarked (boundedValue 7 v) →
    ∀ w, KeysOnce w → boundedValue 7 w = boundedValue 7 v → w = v

/-- The projection makes every truncation explicit exactly when a value of which nothing but
keys can be cut has no long key. -/
theorem explicit_iff (v : Json) (hv : KeysOnce v) :
    Explicit v ↔ (Within 7 v → KeysBelow maxMaterialTextChars v) := by
  constructor
  · rintro ⟨-, hrecovered⟩ hwithin
    by_contra hlong
    obtain ⟨w, hw, hne, hsame⟩ := exists_other v hv hlong
    exact hne (hrecovered ((unmarked_boundedValue 7 v).mpr hwithin) w hw (hsame 7))
  · intro h
    refine ⟨size_boundedValue 7 v, ?_⟩
    intro hmark w _ heq
    exact eq_of_boundedValue_eq hv (h ((unmarked_boundedValue 7 v).mp hmark)) hmark heq

/-- A list of a text and an object is recovered. -/
theorem sampleValue_explicit :
    Explicit (.arr [.str "a", .obj [("b", .null)]]) := by
  refine (explicit_iff _ ?_).mpr fun _ => ?_
  · simp [KeysOnce]
    exact ⟨trivial, trivial⟩
  · simp [KeysBelow]
    exact ⟨trivial, by decide, trivial⟩

/-- An object whose only key has 2001 characters. -/
def longKey : Json := .obj [(String.ofList (List.replicate 2001 'k'), .null)]

/-- The projection of the object is not marked, although its key is cut. -/
theorem longKey_not_explicit : KeysOnce longKey ∧ ¬ Explicit longKey := by
  have honce : KeysOnce longKey :=
    everywhere_obj.mpr ⟨List.nodup_singleton _, fun kv hkv => by
      obtain rfl := List.mem_singleton.mp hkv
      trivial⟩
  have hlong : ¬ KeysBelow maxMaterialTextChars longKey := by
    intro hbelow
    obtain ⟨hshort, -⟩ := everywhere_obj.mp hbelow
    have hlen := hshort _ List.mem_cons_self
    rw [String.length_ofList, List.length_replicate] at hlen
    exact absurd hlen (by decide)
  obtain ⟨w, hw, hne, hsame⟩ := exists_other longKey honce hlong
  refine ⟨honce, fun h => hne (h.recovered ?_ w hw (hsame 7))⟩
  exact (unmarked_boundedValue 7 longKey).mpr ⟨by decide, .inr trivial, trivial⟩

end Konoha
