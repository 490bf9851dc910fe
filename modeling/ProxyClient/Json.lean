import Mathlib.Data.Rat.Defs
import Mathlib.Data.String.Basic

/-!
# JSON values as the Python client sees them

Frames and response bodies are the values `json.loads` returns. A dict is its list
of fields; the code only ever looks fields up by name, so that the order of the
fields matters in one place only, equality, where they are kept sorted by name.
Floats are finite and carried by their exact value.
-/

namespace ProxyClient

/-- The values of `json.loads`: `None`, booleans, numbers, strings, lists and dicts. -/
inductive Json
  | null
  | bool (b : Bool)
  | int (n : ℤ)
  | float (x : ℚ)
  | str (s : String)
  | arr (xs : List Json)
  | obj (fields : List (String × Json))

/-- The fields of a dict, in the order of the text. -/
abbrev Fields := List (String × Json)

namespace Json

mutual

/-- Structural equality of JSON values is decidable. -/
def decEq : (a b : Json) → Decidable (a = b)
  | null, null => isTrue rfl
  | bool a, bool b => decidable_of_iff (a = b) (by simp)
  | int a, int b => decidable_of_iff (a = b) (by simp)
  | float a, float b => decidable_of_iff (a = b) (by simp)
  | str a, str b => decidable_of_iff (a = b) (by simp)
  | arr a, arr b =>
    have := decEqList a b
    decidable_of_iff (a = b) (by simp)
  | obj a, obj b =>
    have := decEqFields a b
    decidable_of_iff (a = b) (by simp)
  | null, bool _ | null, int _ | null, float _ | null, str _ | null, arr _ | null, obj _
  | bool _, null | bool _, int _ | bool _, float _ | bool _, str _ | bool _, arr _
  | bool _, obj _ | int _, null | int _, bool _ | int _, float _ | int _, str _ | int _, arr _
  | int _, obj _ | float _, null | float _, bool _ | float _, int _ | float _, str _
  | float _, arr _ | float _, obj _ | str _, null | str _, bool _ | str _, int _
  | str _, float _ | str _, arr _ | str _, obj _ | arr _, null | arr _, bool _ | arr _, int _
  | arr _, float _ | arr _, str _ | arr _, obj _ | obj _, null | obj _, bool _ | obj _, int _
  | obj _, float _ | obj _, str _ | obj _, arr _ => isFalse (by simp)

/-- Structural equality of arrays is decidable, by recursion on both. -/
def decEqList : (a b : List Json) → Decidable (a = b)
  | [], [] => isTrue rfl
  | [], _ :: _ | _ :: _, [] => isFalse (by simp)
  | x :: xs, y :: ys =>
    have := decEq x y
    have := decEqList xs ys
    decidable_of_iff (x = y ∧ xs = ys) (by simp)

/-- Structural equality of field lists is decidable. -/
def decEqFields : (a b : List (String × Json)) → Decidable (a = b)
  | [], [] => isTrue rfl
  | [], _ :: _ | _ :: _, [] => isFalse (by simp)
  | (k, x) :: xs, (l, y) :: ys =>
    have := decEq x y
    have := decEqFields xs ys
    decidable_of_iff ((k = l ∧ x = y) ∧ xs = ys) (by simp)

end

instance : DecidableEq Json := decEq

/-- `bool(value)`, by which `or` and `if` decide. -/
def truthy : Json → Bool
  | null => false
  | bool b => b
  | int n => n ≠ 0
  | float x => x ≠ 0
  | str s => s ≠ ""
  | arr xs => !xs.isEmpty
  | obj fields => !fields.isEmpty

mutual

/-- Python's `==`. It identifies a bool with the numbers 0 and 1 and an int with the float
of the same value; two dicts are equal when they have equal values under the same names. -/
def pyEq : Json → Json → Bool
  | null, null => true
  | bool a, bool b => a == b
  | bool a, int b => (if a then 1 else 0) == b
  | bool a, float b => (if a then 1 else 0) == b
  | int a, bool b => a == (if b then 1 else 0)
  | int a, int b => a == b
  | int a, float b => (a : ℚ) == b
  | float a, bool b => a == (if b then 1 else 0)
  | float a, int b => a == (b : ℚ)
  | float a, float b => a == b
  | str a, str b => a == b
  | arr a, arr b => pyEqList a b
  | obj a, obj b => pyEqFields a b
  | _, _ => false

/-- `==` on lists: the same length, and equal elements. -/
def pyEqList : List Json → List Json → Bool
  | [], [] => true
  | x :: xs, y :: ys => pyEq x y && pyEqList xs ys
  | _, _ => false

/-- `==` on dicts, whose fields are kept sorted by name. -/
def pyEqFields : List (String × Json) → List (String × Json) → Bool
  | [], [] => true
  | (k, x) :: xs, (l, y) :: ys => k == l && pyEq x y && pyEqFields xs ys
  | _, _ => false

end

mutual

/-- Every dict inside the value has its fields in strictly increasing order of their names,
so that equal dicts are equal lists. -/
def Canonical : Json → Prop
  | arr xs => CanonicalList xs
  | obj fields => (fields.map Prod.fst).Pairwise (· < ·) ∧ CanonicalFields fields
  | _ => True

/-- Every member of the array is canonical. -/
def CanonicalList : List Json → Prop
  | [] => True
  | x :: xs => x.Canonical ∧ CanonicalList xs

/-- Every field's value is canonical, and so is every value in it. -/
def CanonicalFields : List (String × Json) → Prop
  | [] => True
  | (_, x) :: xs => x.Canonical ∧ CanonicalFields xs

end

end Json

/-- `dict.get(name)`: an absent field reads as `None`. -/
def Fields.get (fields : Fields) (name : String) : Json := (fields.lookup name).getD .null

/-- `dict.get(name, default)`: the default stands in for an absent field only. -/
def Fields.getD (fields : Fields) (name : String) (default : Json) : Json :=
  (fields.lookup name).getD default

/-- `dict[name] = value`, keeping the names sorted. -/
def Fields.set (name : String) (value : Json) : Fields → Fields
  | [] => [(name, value)]
  | (k, v) :: rest =>
    if name < k then (name, value) :: (k, v) :: rest
    else if name = k then (name, value) :: rest
    else (k, v) :: Fields.set name value rest

/-- What a Python dict key or a member of a set is compared by: equal numbers are one key
whatever their type. -/
inductive Key
  | none
  | num (x : ℚ)
  | str (s : String)
  deriving DecidableEq

/-- `hash(value)` as a key; `none` for the unhashable lists and dicts. -/
def Json.key? : Json → Option Key
  | .null => some .none
  | .bool b => some (.num (if b then 1 else 0))
  | .int n => some (.num n)
  | .float x => some (.num x)
  | .str s => some (.str s)
  | .arr _ => none
  | .obj _ => none

/-- A `params` dict: its fields are in canonical order at every depth. -/
structure Params where
  /-- The dict's fields. -/
  fields : Fields
  /-- Equal dicts have equal field lists. -/
  canonical : (Json.obj fields).Canonical

instance : DecidableEq Params := fun p q =>
  decidable_of_iff (p.fields = q.fields) (by cases p; cases q; simp)

/-- Every name of an updated field list is the new one or an old one. -/
theorem Fields.mem_set_names {name k : String} {value : Json} {fields : Fields}
    (h : k ∈ (Fields.set name value fields).map Prod.fst) :
    k = name ∨ k ∈ fields.map Prod.fst := by
  induction fields with
  | nil => simpa [Fields.set] using h
  | cons field rest ih =>
    obtain ⟨l, v⟩ := field
    unfold Fields.set at h
    split at h
    · simpa using h
    · split at h
      · rename_i heq
        subst heq
        rcases List.mem_cons.mp h with h | h
        · exact Or.inl h
        · exact Or.inr (List.mem_cons_of_mem _ h)
      · rcases List.mem_cons.mp h with h | h
        · exact Or.inr (by simp [h])
        · rcases ih h with h | h
          · exact Or.inl h
          · exact Or.inr (List.mem_cons_of_mem _ h)

/-- Setting a field keeps the names strictly increasing. -/
theorem Fields.pairwise_set (name : String) (value : Json) {fields : Fields}
    (h : (fields.map Prod.fst).Pairwise (· < ·)) :
    ((Fields.set name value fields).map Prod.fst).Pairwise (· < ·) := by
  induction fields with
  | nil => simp [Fields.set]
  | cons field rest ih =>
    obtain ⟨k, v⟩ := field
    simp only [List.map_cons, List.pairwise_cons] at h
    obtain ⟨hk, hrest⟩ := h
    unfold Fields.set
    split
    · rename_i hlt
      simp only [List.map_cons, List.pairwise_cons, List.mem_cons, forall_eq_or_imp]
      exact ⟨⟨hlt, fun l hl => hlt.trans (hk l hl)⟩, hk, hrest⟩
    · split
      · rename_i heq
        subst heq
        simp only [List.map_cons, List.pairwise_cons]
        exact ⟨hk, hrest⟩
      · rename_i hge hne
        have hkn : k < name := lt_of_le_of_ne (not_lt.mp hge) (Ne.symm hne)
        simp only [List.map_cons, List.pairwise_cons]
        refine ⟨fun l hl => ?_, ih hrest⟩
        rcases Fields.mem_set_names hl with rfl | hl
        · exact hkn
        · exact hk l hl

/-- Setting a field to a canonical value keeps the values canonical. -/
theorem Fields.canonicalFields_set (name : String) {value : Json} {fields : Fields}
    (hvalue : value.Canonical) (h : Json.CanonicalFields fields) :
    Json.CanonicalFields (Fields.set name value fields) := by
  induction fields with
  | nil => simpa [Fields.set, Json.CanonicalFields] using hvalue
  | cons field rest ih =>
    obtain ⟨k, v⟩ := field
    rw [Json.CanonicalFields] at h
    obtain ⟨hv, hrest⟩ := h
    unfold Fields.set
    split
    · exact ⟨hvalue, hv, hrest⟩
    · split
      · exact ⟨hvalue, hrest⟩
      · exact ⟨hv, ih hrest⟩

/-- Dropping fields keeps the values canonical, as it changes none of them. -/
theorem Json.canonicalFields_filter (p : String × Json → Bool) {fields : Fields}
    (h : Json.CanonicalFields fields) : Json.CanonicalFields (fields.filter p) := by
  induction fields with
  | nil => exact h
  | cons field rest ih =>
    obtain ⟨k, v⟩ := field
    rw [Json.CanonicalFields] at h
    by_cases hp : p (k, v) = true
    · rw [List.filter_cons_of_pos hp]
      exact ⟨h.1, ih h.2⟩
    · rw [List.filter_cons_of_neg hp]
      exact ih h.2

namespace Params

/-- `{}`, the parameters of a call that gives none. -/
def empty : Params := ⟨[], by simp [Json.Canonical, Json.CanonicalFields]⟩

/-- Keep the fields that pass a test. -/
def filter (params : Params) (p : String × Json → Bool) : Params where
  fields := params.fields.filter p
  canonical := by
    have hcanonical := params.canonical
    rw [Json.Canonical] at hcanonical ⊢
    refine ⟨?_, Json.canonicalFields_filter p hcanonical.2⟩
    exact hcanonical.1.sublist (List.Sublist.map _ List.filter_sublist)

/-- `params["channel"] = channel`, in the order that makes equal parameters identical. -/
def withChannel (params : Params) (channel : String) : Params where
  fields := Fields.set "channel" (.str channel) params.fields
  canonical := by
    have hcanonical := params.canonical
    rw [Json.Canonical] at hcanonical ⊢
    exact ⟨Fields.pairwise_set _ _ hcanonical.1,
      Fields.canonicalFields_set _ (by simp [Json.Canonical]) hcanonical.2⟩

/-- `{k: v for k, v in params.items() if k != "channel"}`. -/
def withoutChannel (params : Params) : Params := params.filter (fun field => field.1 ≠ "channel")

/-- Parameters are the same when their fields are. -/
@[ext] theorem ext {p q : Params} (h : p.fields = q.fields) : p = q := by
  cases p
  cases q
  simpa using h

end Params

end ProxyClient
