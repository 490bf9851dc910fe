import Mathlib.Data.List.Induction

/-!
# Formats that join fields by a delimiter

A format writes its fields one after the other with a delimiter between them. One field may
hold the delimiter itself: the fields before it are found from the front, those after it from
the back.
-/

namespace ProxyClient.Delimited

variable {α : Type*} {d : α}

/-- The fields, each followed by the delimiter, and the last field. -/
def join (d : α) (fields : List (List α)) (last : List α) : List α :=
  fields.foldr (fun field rest => field ++ d :: rest) last

/-- Nothing stands between no fields and the last one. -/
@[simp] theorem join_nil (last : List α) : join d [] last = last := rfl

/-- A field in front adds itself and one delimiter. -/
@[simp] theorem join_cons (field : List α) (fields : List (List α)) (last : List α) :
    join d (field :: fields) last = field ++ d :: join d fields last := rfl

/-- The field before the last one stands in front of a delimiter and the last one. -/
theorem join_concat (fields : List (List α)) (field last : List α) :
    join d (fields ++ [field]) last = join d fields field ++ d :: last := by
  induction fields with
  | nil => rfl
  | cons first fields ih => simp [ih]

/-- Two lists agree up to the first delimiter. -/
theorem append_first_inj {a a' b b' : List α} (ha : d ∉ a) (ha' : d ∉ a')
    (h : a ++ d :: b = a' ++ d :: b') : a = a' ∧ b = b' := by
  induction a generalizing a' with
  | nil =>
    cases a' with
    | nil => exact ⟨rfl, List.tail_eq_of_cons_eq h⟩
    | cons x a' => exact absurd (List.head_eq_of_cons_eq h) (by rintro rfl; simp at ha')
  | cons x a ih =>
    cases a' with
    | nil => exact absurd (List.head_eq_of_cons_eq h) (by rintro rfl; simp at ha)
    | cons x' a' =>
      obtain ⟨rfl, hrest⟩ := List.cons_eq_cons.mp h
      obtain ⟨rfl, hb⟩ := ih (List.not_mem_of_not_mem_cons ha)
        (List.not_mem_of_not_mem_cons ha') hrest
      exact ⟨rfl, hb⟩

/-- Two lists agree from the last delimiter on. -/
theorem append_last_inj {a a' b b' : List α} (hb : d ∉ b) (hb' : d ∉ b')
    (h : a ++ d :: b = a' ++ d :: b') : a = a' ∧ b = b' := by
  have hrev : b.reverse ++ d :: a.reverse = b'.reverse ++ d :: a'.reverse := by
    simpa using congrArg List.reverse h
  obtain ⟨hback, hfront⟩ := append_first_inj (by simpa using hb) (by simpa using hb') hrev
  exact ⟨List.reverse_inj.mp hfront, List.reverse_inj.mp hback⟩

/-- The last field may hold the delimiter. -/
theorem join_inj {fields fields' : List (List α)} {last last' : List α}
    (hlength : fields.length = fields'.length) (hfields : ∀ field ∈ fields, d ∉ field)
    (hfields' : ∀ field ∈ fields', d ∉ field) (h : join d fields last = join d fields' last') :
    fields = fields' ∧ last = last' := by
  induction fields generalizing fields' with
  | nil =>
    obtain rfl := List.eq_nil_of_length_eq_zero hlength.symm
    exact ⟨rfl, h⟩
  | cons field fields ih =>
    cases fields' with
    | nil => cases hlength
    | cons field' fields' =>
      obtain ⟨rfl, hrest⟩ := append_first_inj (hfields _ (by simp)) (hfields' _ (by simp)) h
      obtain ⟨rfl, hlast⟩ := ih (Nat.succ.inj hlength)
        (fun field hfield => hfields field (by simp [hfield]))
        (fun field hfield => hfields' field (by simp [hfield])) hrest
      exact ⟨rfl, hlast⟩

/-- The first field may hold the delimiter. -/
theorem append_join_inj {first first' : List α} {fields fields' : List (List α)}
    {last last' : List α} (hlength : fields.length = fields'.length)
    (hfields : ∀ field ∈ fields, d ∉ field) (hfields' : ∀ field ∈ fields', d ∉ field)
    (hlast : d ∉ last) (hlast' : d ∉ last')
    (h : first ++ d :: join d fields last = first' ++ d :: join d fields' last') :
    first = first' ∧ fields = fields' ∧ last = last' := by
  induction fields using List.reverseRecOn generalizing fields' last last' with
  | nil =>
    obtain rfl := List.eq_nil_of_length_eq_zero hlength.symm
    obtain ⟨hfirst, hback⟩ := append_last_inj hlast hlast' h
    exact ⟨hfirst, rfl, hback⟩
  | append_singleton fields field ih =>
    cases fields' using List.reverseRecOn with
    | nil => simp at hlength
    | append_singleton fields' field' =>
      rw [join_concat, join_concat, ← List.cons_append, ← List.cons_append, ← List.append_assoc,
        ← List.append_assoc] at h
      obtain ⟨hfront, rfl⟩ := append_last_inj hlast hlast' h
      obtain ⟨rfl, rfl, rfl⟩ := ih (by simpa using hlength)
        (fun field hfield => hfields field (by simp [hfield]))
        (fun field hfield => hfields' field (by simp [hfield]))
        (hfields field (by simp)) (hfields' field' (by simp)) hfront
      exact ⟨rfl, rfl, rfl⟩

end ProxyClient.Delimited
