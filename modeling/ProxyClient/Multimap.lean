import Mathlib.Data.List.AList

/-!
# Dicts of lists

A dict whose values are lists represents the list of all pairs of a key and a value: the values
of a key, in the order of the pairs, are its list. The dict tells an empty list from an absent
key, the pairs do not.
-/

namespace ProxyClient

/-- A dict of lists, in which a key may also have an empty list. -/
abbrev Multimap (κ β : Type*) := AList (fun _ : κ => List β)

namespace Multimap

variable {κ β : Type*} [DecidableEq κ] {m : Multimap κ β} {pairs : List (κ × β)} {key : κ}
  {value : β}

/-- `m.get(key, [])`, which adds no key. -/
def get (m : Multimap κ β) (key : κ) : List β := (m.lookup key).getD []

/-- `m.setdefault(key, []).append(value)`, which puts the value behind the others of its key. -/
def append (m : Multimap κ β) (key : κ) (value : β) : Multimap κ β :=
  m.insert key (m.get key ++ [value])

/-- `m.get(key, []).remove(value)`, where a `ValueError` is ignored. -/
def remove [DecidableEq β] (m : Multimap κ β) (key : κ) (value : β) : Multimap κ β :=
  match m.lookup key with
  | some values => m.insert key (values.erase value)
  | none => m

/-- The values of a key in a list of pairs. -/
def valuesOf (pairs : List (κ × β)) (key : κ) : List β :=
  (pairs.filter (fun pair => pair.1 = key)).map Prod.snd

/-- The dict represents the pairs: each key has the values of its pairs, in their order. -/
def Represents (m : Multimap κ β) (pairs : List (κ × β)) : Prop :=
  ∀ key, m.get key = valuesOf pairs key

/-- The values of one key are replaced, and the other keys keep theirs. -/
theorem get_insert (m : Multimap κ β) (key key' : κ) (values : List β) :
    get (m.insert key values) key' = if key' = key then values else m.get key' := by
  unfold get
  split
  · rename_i heq
    rw [heq, AList.lookup_insert, Option.getD_some]
  · rename_i hne
    rw [AList.lookup_insert_ne hne]

/-- A pair adds its value to the values of its own key only. -/
theorem valuesOf_cons (pair : κ × β) (pairs : List (κ × β)) (key : κ) :
    valuesOf (pair :: pairs) key =
      if pair.1 = key then pair.2 :: valuesOf pairs key else valuesOf pairs key := by
  unfold valuesOf
  rw [List.filter_cons]
  split <;> simp_all

/-- The values of a key are those of the first pairs and then those of the second. -/
theorem valuesOf_append (pairs pairs' : List (κ × β)) (key : κ) :
    valuesOf (pairs ++ pairs') key = valuesOf pairs key ++ valuesOf pairs' key := by
  simp [valuesOf]

/-- Erasing a pair erases its value from the values of its key. -/
theorem valuesOf_erase [DecidableEq β] (pairs : List (κ × β)) (key key' : κ) (value : β) :
    valuesOf (pairs.erase (key, value)) key' =
      if key' = key then (valuesOf pairs key').erase value else valuesOf pairs key' := by
  induction pairs with
  | nil => split <;> rfl
  | cons pair pairs ih =>
    by_cases hsame : pair = (key, value)
    · subst hsame
      rw [List.erase_cons_head, valuesOf_cons]
      by_cases hkey : key' = key
      · rw [if_pos hkey, if_pos hkey.symm, List.erase_cons_head]
      · rw [if_neg hkey, if_neg (Ne.symm hkey)]
    · rw [List.erase_cons_tail (by simpa using hsame), valuesOf_cons, valuesOf_cons, ih]
      by_cases hkey : key' = key
      · subst hkey
        simp only [if_true]
        split
        · rename_i heq
          have hvalue : pair.2 ≠ value := fun h => hsame (Prod.ext heq h)
          rw [List.erase_cons_tail (by simpa using hvalue)]
        · rfl
      · simp only [if_neg hkey]

/-! ## Operations -/

/-- Without pairs there are no values under any key. -/
theorem empty_represents : Represents (∅ : Multimap κ β) [] := fun _ => rfl

/-- Appending a value to the list of a key adds a pair. -/
theorem Represents.append (h : m.Represents pairs) :
    (m.append key value).Represents (pairs ++ [(key, value)]) := by
  intro key'
  rw [Multimap.append, get_insert, valuesOf_append, valuesOf_cons, h key, h key']
  by_cases hkey : key' = key
  · rw [if_pos hkey, if_pos hkey.symm, hkey]
    rfl
  · rw [if_neg hkey, if_neg (Ne.symm hkey)]
    exact (List.append_nil _).symm

/-- Removing a value from the list of a key erases the first such pair. -/
theorem Represents.remove [DecidableEq β] (h : m.Represents pairs) :
    (m.remove key value).Represents (pairs.erase (key, value)) := by
  intro key'
  rw [valuesOf_erase, ← h key']
  unfold Multimap.remove
  cases hvalues : m.lookup key with
  | some values =>
    simp only
    rw [get_insert]
    by_cases hkey : key' = key
    · rw [if_pos hkey, if_pos hkey, hkey, get, hvalues, Option.getD_some]
    · rw [if_neg hkey, if_neg hkey]
  | none =>
    simp only
    by_cases hkey : key' = key
    · rw [if_pos hkey, hkey, get, hvalues]
      rfl
    · rw [if_neg hkey]

/-- Deleting a key drops its pairs, and the others keep their order. -/
theorem Represents.erase (h : m.Represents pairs) :
    Represents (m.erase key) (pairs.filter (fun pair => pair.1 ≠ key)) := by
  intro key'
  have hvalues : valuesOf (pairs.filter (fun pair => pair.1 ≠ key)) key' =
      if key' = key then [] else valuesOf pairs key' := by
    unfold valuesOf
    rw [List.filter_filter]
    split
    · rename_i hkey
      subst hkey
      simp
    · rename_i hkey
      congr 1
      apply List.filter_congr
      intro pair _
      grind
  rw [hvalues, ← h key', get, get]
  by_cases hkey : key' = key
  · rw [if_pos hkey, hkey, AList.lookup_erase]
    rfl
  · rw [if_neg hkey, AList.lookup_erase_ne hkey]

/-! ## Keys -/

/-- Only the key to which a value is appended can become a new key. -/
theorem mem_append {key' : κ} : key' ∈ m.append key value ↔ key' = key ∨ key' ∈ m :=
  AList.mem_insert m

/-- Removing values keeps the keys, even those whose list becomes empty. -/
theorem mem_remove [DecidableEq β] {key' : κ} : key' ∈ m.remove key value ↔ key' ∈ m := by
  unfold Multimap.remove
  split
  · rename_i values hvalues
    rw [AList.mem_insert, or_iff_right_iff_imp]
    rintro rfl
    exact AList.lookup_isSome.mp (by rw [hvalues]; rfl)
  · rfl

end Multimap

end ProxyClient
