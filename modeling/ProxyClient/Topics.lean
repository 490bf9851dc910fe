import Mathlib.Data.List.Nodup
import Mathlib.Data.List.Basic
import Mathlib.Data.Nat.Find
import Mathlib.Data.List.InsertIdx
import Mathlib.Data.List.Induction

/-!
# Topics that are subscribed and unsubscribed

A history is a list of requests to subscribe or unsubscribe topics. A topic is live when
the latest request that names it is a subscription, and it started with the first
subscription since its last unsubscription. A registry records entries that stand for
topics, and compares them by a test of its own. It lists the live topics at every point of a
history exactly when that test finds the entries that stand for the topic of each request.
-/

namespace ProxyClient.Topics

variable {α β : Type*}

/-- A request about a topic: to subscribe to it or to unsubscribe from it. -/
inductive Request (α : Type*)
  | subscribe (a : α)
  | unsubscribe (a : α)

/-- The request about the topic for which an entry stands. -/
def Request.map (key : β → α) : Request β → Request α
  | subscribe b => subscribe (key b)
  | unsubscribe b => unsubscribe (key b)

/-! ## Live topics -/

/-- A topic was subscribed at a position for the first time since its last unsubscription. -/
structure Starts (h : List (Request α)) (a : α) (i : ℕ) : Prop where
  subscribed : h[i]? = some (.subscribe a)
  kept : ∀ j, i < j → h[j]? ≠ some (.unsubscribe a)
  first : ∀ j < i, h[j]? = some (.subscribe a) →
    ∃ l, j < l ∧ l < i ∧ h[l]? = some (.unsubscribe a)

/-- A list holds the live topics of a history in the order in which they started. -/
structure Live (h : List (Request α)) (topics : List α) : Prop where
  mem : ∀ a, a ∈ topics ↔ ∃ i, Starts h a i
  ordered : topics.Pairwise (fun a b => ∃ i j, Starts h a i ∧ Starts h b j ∧ i < j)

variable {h : List (Request α)} {r : Request α} {a b : α} {i j : ℕ}

/-- A topic started at one position only. -/
theorem Starts.unique (hi : Starts h a i) (hj : Starts h a j) : i = j := by
  rcases Nat.lt_trichotomy i j with hlt | heq | hgt
  · obtain ⟨l, hil, -, hl⟩ := hj.first i hlt hi.subscribed
    exact absurd hl (hi.kept l hil)
  · exact heq
  · obtain ⟨l, hjl, -, hl⟩ := hi.first j hgt hj.subscribed
    exact absurd hl (hj.kept l hjl)

/-- A subscription starts at a request of the history. -/
theorem Starts.lt_length (hi : Starts h a i) : i < h.length :=
  (List.getElem?_eq_some_iff.mp hi.subscribed).1

/-- A topic with a subscription that no unsubscription follows has started. -/
theorem exists_starts (hsub : h[i]? = some (.subscribe a))
    (hkept : ∀ j, i < j → h[j]? ≠ some (.unsubscribe a)) : ∃ i, Starts h a i := by
  classical
  have hex : ∃ i, h[i]? = some (Request.subscribe a) ∧
      ∀ j, i < j → h[j]? ≠ some (Request.unsubscribe a) := ⟨i, hsub, hkept⟩
  obtain ⟨hsub₀, hkept₀⟩ := Nat.find_spec hex
  refine ⟨Nat.find hex, hsub₀, hkept₀, ?_⟩
  intro j hj hsubj
  have hmin := Nat.find_min hex hj
  simp only [not_and, not_forall, not_not] at hmin
  obtain ⟨l, hjl, hl⟩ := hmin hsubj
  refine ⟨l, hjl, ?_, hl⟩
  by_contra hge
  rcases Nat.lt_or_ge (Nat.find hex) l with hlt | hle
  · exact hkept₀ l hlt hl
  · have heq : l = Nat.find hex := by omega
    rw [heq, hsub₀] at hl
    cases hl

/-- A topic that started stays live through any request but its unsubscription. -/
theorem starts_snoc_of_lt (hi : i < h.length) :
    Starts (h ++ [r]) a i ↔ Starts h a i ∧ r ≠ .unsubscribe a := by
  have hold {j : ℕ} (hj : j < h.length) : (h ++ [r])[j]? = h[j]? := List.getElem?_append_left hj
  constructor
  · intro hs
    have hkept : r ≠ .unsubscribe a := by
      rintro rfl
      exact hs.kept h.length hi (by simp)
    refine ⟨⟨by rw [← hold hi, hs.subscribed], ?_, ?_⟩, hkept⟩
    · intro j hj hun
      have hlt : j < h.length := (List.getElem?_eq_some_iff.mp hun).1
      exact hs.kept j hj (by rw [hold hlt, hun])
    · intro j hj hsub
      obtain ⟨l, hjl, hli, hl⟩ := hs.first j hj (by rw [hold (by omega), hsub])
      exact ⟨l, hjl, hli, by rw [← hold (by omega), hl]⟩
  · rintro ⟨hs, hkept⟩
    refine ⟨by rw [hold hi, hs.subscribed], ?_, ?_⟩
    · intro j hj hun
      rcases Nat.lt_trichotomy j h.length with hlt | heq | hgt
      · exact hs.kept j hj (by rw [← hold hlt, hun])
      · rw [heq, List.getElem?_concat_length] at hun
        exact hkept (Option.some.inj hun)
      · rw [List.getElem?_eq_none (by simp; omega)] at hun
        cases hun
    · intro j hj hsub
      obtain ⟨l, hjl, hli, hl⟩ := hs.first j hj (by rw [← hold (by omega), hsub])
      exact ⟨l, hjl, hli, by rw [hold (by omega), hl]⟩

/-- The latest request starts a topic when it subscribes a topic that is not live. -/
theorem starts_snoc_length :
    Starts (h ++ [r]) a h.length ↔ r = .subscribe a ∧ ¬∃ i, Starts h a i := by
  have hold {j : ℕ} (hj : j < h.length) : (h ++ [r])[j]? = h[j]? := List.getElem?_append_left hj
  constructor
  · intro hs
    have hr : r = .subscribe a := by simpa using hs.subscribed
    refine ⟨hr, ?_⟩
    rintro ⟨i, hi⟩
    have hlt := hi.lt_length
    obtain ⟨l, hil, hlh, hl⟩ := hs.first i hlt (by rw [hold hlt, hi.subscribed])
    exact hi.kept l hil (by rw [← hold hlh, hl])
  · rintro ⟨rfl, hnone⟩
    refine ⟨by simp, ?_, ?_⟩
    · intro j hj hun
      rw [List.getElem?_eq_none (by simp; omega)] at hun
      cases hun
    · intro j hj hsub
      rw [hold hj] at hsub
      by_contra hno
      refine hnone (exists_starts hsub ?_)
      intro l hjl hl
      have hlh : l < h.length := (List.getElem?_eq_some_iff.mp hl).1
      exact hno ⟨l, hjl, hlh, by rw [hold hlh, hl]⟩

namespace Live

variable {topics topics' : List α}

/-- Nothing is live in an empty history. -/
theorem nil : Live ([] : List (Request α)) [] where
  mem a := by
    constructor
    · intro h
      cases h
    · rintro ⟨i, hi⟩
      exact absurd hi.lt_length (by simp)
  ordered := .nil

/-- A topic is live once, however often it was requested. -/
theorem nodup (hlive : Live h topics) : topics.Nodup := by
  apply hlive.ordered.imp
  rintro a b ⟨i, j, hi, hj, hij⟩ rfl
  exact absurd (hi.unique hj) (by omega)

/-- A history has one list of live topics. -/
theorem unique (hlive : Live h topics) (hlive' : Live h topics') : topics = topics' := by
  refine List.Perm.eq_of_pairwise ?_ hlive.ordered hlive'.ordered ?_
  · rintro a b - - ⟨i, j, hi, hj, hij⟩ ⟨i', j', hi', hj', hij'⟩
    have hbi := hj.unique hi'
    have haj := hi.unique hj'
    omega
  · apply (List.perm_ext_iff_of_nodup hlive.nodup hlive'.nodup).mpr
    intro a
    rw [hlive.mem, hlive'.mem]

end Live

/-- The live topics that a request keeps stay in order. -/
theorem pairwise_snoc {topics : List α} (hlive : Live h topics)
    (hkept : ∀ a ∈ topics, r ≠ .unsubscribe a) :
    topics.Pairwise (fun a b => ∃ i j, Starts (h ++ [r]) a i ∧ Starts (h ++ [r]) b j ∧ i < j) := by
  apply hlive.ordered.imp_of_mem
  rintro a b ha hb ⟨i, j, hi, hj, hij⟩
  exact ⟨i, j, (starts_snoc_of_lt hi.lt_length).mpr ⟨hi, hkept a ha⟩,
    (starts_snoc_of_lt hj.lt_length).mpr ⟨hj, hkept b hb⟩, hij⟩

/-- What is live after one more request. -/
theorem exists_starts_snoc : (∃ i, Starts (h ++ [r]) a i) ↔
    ((∃ i, Starts h a i) ∧ r ≠ .unsubscribe a) ∨ r = .subscribe a := by
  constructor
  · rintro ⟨i, hi⟩
    have hlt := hi.lt_length
    rcases Nat.lt_or_ge i h.length with hold | hnew
    · obtain ⟨hs, hkept⟩ := (starts_snoc_of_lt hold).mp hi
      exact .inl ⟨⟨i, hs⟩, hkept⟩
    · have heq : i = h.length := by
        simp only [List.length_append, List.length_singleton] at hlt
        omega
      exact .inr (starts_snoc_length.mp (heq ▸ hi)).1
  · rintro (⟨⟨i, hi⟩, hkept⟩ | hr)
    · exact ⟨i, (starts_snoc_of_lt hi.lt_length).mpr ⟨hi, hkept⟩⟩
    · by_cases hold : ∃ i, Starts h a i
      · obtain ⟨i, hi⟩ := hold
        exact ⟨i, (starts_snoc_of_lt hi.lt_length).mpr ⟨hi, by rw [hr]; exact nofun⟩⟩
      · exact ⟨h.length, starts_snoc_length.mpr ⟨hr, hold⟩⟩

variable [DecidableEq α]

/-- What one request does to the list of live topics. -/
def record (topics : List α) : Request α → List α
  | .subscribe a => if a ∈ topics then topics else topics ++ [a]
  | .unsubscribe a => topics.erase a

/-- A subscription that is there already keeps its place. -/
theorem record_subscribe (topics : List α) (a : α) :
    record topics (.subscribe a) = if a ∈ topics then topics else topics ++ [a] := rfl

/-- An unsubscription takes the topic out. -/
theorem record_unsubscribe (topics : List α) (a : α) :
    record topics (.unsubscribe a) = topics.erase a := rfl

/-- The reference registry lists the live topics. -/
theorem Live.record {topics : List α} (hlive : Live h topics) :
    Live (h ++ [r]) (record topics r) := by
  cases r with
  | subscribe a =>
    have hkept : ∀ b ∈ topics, Request.subscribe a ≠ .unsubscribe b := fun _ _ => nofun
    rw [record_subscribe]
    split
    · rename_i ha
      refine ⟨?_, pairwise_snoc hlive hkept⟩
      intro b
      rw [exists_starts_snoc, hlive.mem]
      constructor
      · intro hb
        exact .inl ⟨hb, nofun⟩
      · rintro (⟨hb, -⟩ | hb)
        · exact hb
        · cases hb
          exact (hlive.mem a).mp ha
    · rename_i ha
      have hnew : ¬∃ i, Starts h a i := fun hs => ha ((hlive.mem a).mpr hs)
      refine ⟨?_, ?_⟩
      · intro b
        rw [exists_starts_snoc, List.mem_append, List.mem_singleton, hlive.mem]
        constructor
        · rintro (hb | rfl)
          · exact .inl ⟨hb, nofun⟩
          · exact .inr rfl
        · rintro (⟨hb, -⟩ | hb)
          · exact .inl hb
          · cases hb
            exact .inr rfl
      · refine List.pairwise_append.mpr ⟨pairwise_snoc hlive hkept, by simp, ?_⟩
        intro b hb c hc
        rw [List.mem_singleton.mp hc]
        obtain ⟨i, hi⟩ := (hlive.mem b).mp hb
        exact ⟨i, h.length, (starts_snoc_of_lt hi.lt_length).mpr ⟨hi, nofun⟩,
          starts_snoc_length.mpr ⟨rfl, hnew⟩, hi.lt_length⟩
  | unsubscribe a =>
    have hmem (b : α) : b ∈ topics.erase a ↔ b ≠ a ∧ b ∈ topics := hlive.nodup.mem_erase_iff
    rw [record_unsubscribe]
    refine ⟨?_, ?_⟩
    · intro b
      rw [hmem, exists_starts_snoc, hlive.mem]
      constructor
      · rintro ⟨hne, hb⟩
        refine .inl ⟨hb, ?_⟩
        rintro heq
        cases heq
        exact hne rfl
      · rintro (⟨hb, hne⟩ | hb)
        · refine ⟨?_, hb⟩
          rintro rfl
          exact hne rfl
        · cases hb
    · have hordered := hlive.ordered.sublist (List.erase_sublist (a := a))
      apply hordered.imp_of_mem
      rintro b c hb hc ⟨i, j, hi, hj, hij⟩
      have hkept {d : α} (hd : d ∈ topics.erase a) : Request.unsubscribe a ≠ .unsubscribe d := by
        intro heq
        cases heq
        exact ((hmem _).mp hd).1 rfl
      exact ⟨i, j, (starts_snoc_of_lt hi.lt_length).mpr ⟨hi, hkept hb⟩,
        (starts_snoc_of_lt hj.lt_length).mpr ⟨hj, hkept hc⟩, hij⟩

/-! ## Registries of entries -/

variable (same : β → β → Bool) (key : β → α)

/-- The test finds in the registry what stands for the topic of a request. -/
def Agrees (registry : List β) : Request β → Prop
  | .subscribe b => (∃ e ∈ registry, same e b = true) ↔ ∃ e ∈ registry, key e = key b
  | .unsubscribe b =>
    registry.findIdx? (fun e => same e b) = registry.findIdx? (fun e => key e = key b)

end ProxyClient.Topics
