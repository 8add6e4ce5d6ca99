/-
# JSON objects as the signer reads them

The signer takes its credentials and its device descriptor as `nlohmann::json`
objects and keeps them as such (`m_credentials`, `m_device`). It reads and writes
members by name and compares whole objects; it never looks inside an array or a
nested object, so those are kept by their serialisation. An object is its list of
members; `set` replaces a member in place or appends it. `nlohmann::json` keeps an
object's members in a map, so where the code compares two objects the model compares them
member by member (`sameMembers`), whatever order their members were added in.

The empty list is the empty object. Where the code holds a null that it reads as an
object, as the signer's credentials (`get_credentials_json` returns `{}`, a null, when it is
given none), the module that models it says so and models what null does there.

The helpers of `json_utils.hpp` (not under `src/`) are modelled by what their names
and uses say: `j_str` reads a string member, `j_array` an array member,
`json_add_if_missing` adds a member that is absent or null, `j_rename` moves a member.
-/
import Mathlib.Data.List.Basic

namespace Gdk

/-- A JSON value. Arrays and nested objects are kept by their serialisation, which
`nlohmann::json` writes with an object's members in key order, so that equal values have
equal serialisations. -/
inductive Json where
  | null
  | bool (b : Bool)
  | num (n : Int)
  | str (s : String)
  | arr (dump : String)
  | obj (dump : String)
  deriving DecidableEq, Repr

namespace Json

/-- Whether a value is a JSON boolean. -/
def isBool : Json → Bool
  | .bool _ => true
  | _ => false

/-- Whether a value is a JSON number. -/
def isNum : Json → Bool
  | .num _ => true
  | _ => false
end Json

/-- A JSON object: its members in order. -/
abbrev JsonObj := List (String × Json)

namespace JsonObj

/-- `j.find(key)`: the member's value. -/
def find? : JsonObj → String → Option Json
  | [], _ => none
  | (k, v) :: o, key => if k = key then some v else find? o key

/-- `j.contains(key)`. -/
def contains (o : JsonObj) (key : String) : Bool :=
  (o.find? key).isSome

/-- `j[key] = v`: replace the member, or append it. -/
def set (o : JsonObj) (key : String) (v : Json) : JsonObj :=
  if o.contains key then o.map fun kv => if kv.1 = key then (key, v) else kv
  else o ++ [(key, v)]

/-- `j.erase(key)`. -/
def erase (o : JsonObj) (key : String) : JsonObj :=
  o.filter fun kv => kv.1 ≠ key

/-- `j_str(j, key)`: the member when it is a string. -/
def jStr (o : JsonObj) (key : String) : Option String :=
  match o.find? key with
  | some (.str s) => some s
  | _ => none

/-- `j_str_or_empty(j, key)`. -/
def jStrOrEmpty (o : JsonObj) (key : String) : String :=
  (o.jStr key).getD ""

/-- `j_array(j, key)`: the member when it is an array. -/
def jArray (o : JsonObj) (key : String) : Option String :=
  match o.find? key with
  | some (.arr a) => some a
  | _ => none

/-- `json_add_if_missing(j, key, v, overwrite_null = true)`. -/
def addIfMissing (o : JsonObj) (key : String) (v : Json) : JsonObj :=
  match o.find? key with
  | none | some .null => o.set key v
  | some _ => o

/-- The member is missing, null, or of the type `typed` accepts: after
`json_add_if_missing` with a default of that type, it has that type. -/
def typedOrMissing (o : JsonObj) (key : String) (typed : Json → Bool) : Bool :=
  match o.find? key with
  | none | some .null => true
  | some v => typed v

/-- `j.update(other)`: every member of `other` set in `j`. -/
def update (o other : JsonObj) : JsonObj :=
  other.foldl (fun acc kv => acc.set kv.1 kv.2) o

/-- `j_rename(j, src, dst)`: the member under `src` moved to `dst`. -/
def rename (o : JsonObj) (src dst : String) : JsonObj :=
  match o.find? src with
  | some v => (o.set dst v).erase src
  | none => o

/-- `j == other` on two objects: every key has the same value in both. -/
def sameMembers (o o' : JsonObj) : Bool :=
  (o ++ o').all fun kv => o.find? kv.1 = o'.find? kv.1

@[simp] theorem find?_nil (key : String) : find? [] key = none := rfl

theorem find?_cons (k key : String) (v : Json) (o : JsonObj) :
    find? ((k, v) :: o) key = if k = key then some v else find? o key := rfl

theorem find?_append (o o' : JsonObj) (key : String) :
    find? (o ++ o') key = (find? o key).or (find? o' key) := by
  induction o with
  | nil => rfl
  | cons kv o ih =>
    obtain ⟨k, v⟩ := kv
    by_cases h : k = key <;> simp [find?_cons, h, ih]

theorem set_of_find?_eq_none {o : JsonObj} {key : String} (h : o.find? key = none) (v : Json) :
    o.set key v = o ++ [(key, v)] := by
  simp [set, contains, h]

theorem erase_of_find?_eq_none {o : JsonObj} {key : String} (h : o.find? key = none) :
    o.erase key = o := by
  induction o with
  | nil => rfl
  | cons kv o ih =>
    obtain ⟨k, v⟩ := kv
    by_cases hk : k = key
    · simp [find?_cons, hk] at h
    · simp only [find?_cons, hk, if_false] at h
      rw [erase, List.filter_cons_of_pos (by simpa using hk)]
      exact congrArg _ (ih h)

theorem find?_eq_none_iff {o : JsonObj} {key : String} :
    o.find? key = none ↔ ∀ kv ∈ o, kv.1 ≠ key := by
  induction o with
  | nil => simp
  | cons kv o ih =>
    obtain ⟨k, v⟩ := kv
    by_cases hk : k = key <;> simp [find?_cons, hk, ih]

theorem find?_set_self (o : JsonObj) (key : String) (v : Json) : (o.set key v).find? key = some v := by
  unfold set
  split
  · rename_i h
    induction o with
    | nil => simp [contains] at h
    | cons kv o ih =>
      obtain ⟨k, w⟩ := kv
      by_cases hk : k = key
      · simp [find?_cons, hk]
      · simp only [contains, find?_cons, hk, if_false] at h
        simp [find?_cons, hk, ih h]
  · rename_i h
    simp only [contains, Option.isSome_iff_ne_none, not_not] at h
    simp [find?_append, find?_cons, h]

theorem find?_set_ne (o : JsonObj) {key k : String} (h : key ≠ k) (v : Json) :
    (o.set key v).find? k = o.find? k := by
  have hmap : ∀ o : JsonObj,
      find? (o.map fun kv => if kv.1 = key then (key, v) else kv) k = o.find? k := by
    intro o
    induction o with
    | nil => rfl
    | cons kv o ih =>
      obtain ⟨k', w⟩ := kv
      by_cases hk : k' = key
      · subst hk
        simp [find?_cons, h, ih]
      · simp [find?_cons, hk, ih]
  unfold set
  split
  · exact hmap o
  · simp [find?_append, find?_cons, h]

/-- Erasing a member undoes setting it. -/
theorem erase_set_self (o : JsonObj) (key : String) (v : Json) :
    (o.set key v).erase key = o.erase key := by
  unfold set erase
  split
  · have hp : ((fun kv : String × Json => decide (kv.1 ≠ key)) ∘
        fun kv => if kv.1 = key then (key, v) else kv) = fun kv => decide (kv.1 ≠ key) := by
      funext kv
      by_cases h : kv.1 = key <;> simp [h]
    rw [List.filter_map, hp]
    refine (List.map_congr_left fun kv hkv => if_neg ?_).trans (List.map_id' _)
    simpa using (List.mem_filter.1 hkv).2
  · simp [List.filter_append]

theorem find?_addIfMissing_ne (o : JsonObj) {key k : String} (h : key ≠ k) (v : Json) :
    (o.addIfMissing key v).find? k = o.find? k := by
  unfold addIfMissing
  split
  · exact find?_set_ne o h v
  · exact find?_set_ne o h v
  · rfl

theorem typedOrMissing_addIfMissing_ne (o : JsonObj) {key k : String} (h : key ≠ k) (v : Json)
    (typed : Json → Bool) :
    (o.addIfMissing key v).typedOrMissing k typed = o.typedOrMissing k typed := by
  rw [typedOrMissing, typedOrMissing, find?_addIfMissing_ne o h v]

/-- A default of the right type leaves the member of that type exactly when the member was
missing, null, or already of that type. -/
theorem any_find?_addIfMissing (o : JsonObj) (key : String) {v : Json} {typed : Json → Bool}
    (hv : typed v = true) :
    ((o.addIfMissing key v).find? key).any typed = o.typedOrMissing key typed := by
  unfold addIfMissing typedOrMissing
  split <;> simp_all [find?_set_self]

/-- Two objects are equal as `nlohmann::json` objects exactly when every key reads the same
in both. -/
theorem sameMembers_iff (o o' : JsonObj) :
    o.sameMembers o' = true ↔ ∀ key, o.find? key = o'.find? key := by
  refine ⟨fun h key => ?_, fun h => List.all_eq_true.2 fun kv _ => decide_eq_true (h kv.1)⟩
  by_cases hk : ∃ kv ∈ o ++ o', kv.1 = key
  · obtain ⟨kv, hmem, rfl⟩ := hk
    exact of_decide_eq_true (List.all_eq_true.1 h kv hmem)
  · push_neg at hk
    rw [find?_eq_none_iff.2 fun kv h => hk kv (List.mem_append_left _ h),
      find?_eq_none_iff.2 fun kv h => hk kv (List.mem_append_right _ h)]

end JsonObj

end Gdk
