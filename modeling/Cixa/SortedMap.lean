import Mathlib.Order.Defs.LinearOrder
import Mathlib.Order.Basic
import Mathlib.Data.String.Basic
import Mathlib.Algebra.BigOperators.Group.List.Basic
import Mathlib.Algebra.Order.BigOperators.Group.List
import Mathlib.Algebra.Order.Ring.Int

/-! # Sorted maps — finite maps kept as key-sorted entry lists

    A finite map whose iteration order is the order of its keys, represented
    by the list of its bindings in strictly increasing key order.  The order
    is a field of the map, so two maps with the same lookups are EQUAL and a
    fold over the values visits every binding exactly once.

    The lemmas say what a lookup sees after an insertion or a removal, and
    how a sum over all values changes: by the new value minus the value it
    replaces. -/

/-- A finite map as its bindings in strictly increasing key order. -/
structure SortedMap (κ α : Type) [LinearOrder κ] where
  entries : List (κ × α)
  sorted : entries.Pairwise (fun a b => a.1 < b.1)

namespace SortedMap

variable {κ α : Type} [LinearOrder κ]

/-- Put a binding into an entry list, replacing an equal key. -/
def insertEntry (k : κ) (v : α) : List (κ × α) → List (κ × α)
  | [] => [(k, v)]
  | e :: rest =>
      if k < e.1 then (k, v) :: e :: rest
      else if k = e.1 then (k, v) :: rest
      else e :: insertEntry k v rest

/-- The value bound to a key in an entry list. -/
def lookupEntry (k : κ) : List (κ × α) → Option α
  | [] => none
  | e :: rest => if k = e.1 then some e.2 else lookupEntry k rest

theorem mem_insertEntry {k : κ} {v : α} {e : κ × α} :
    ∀ {l : List (κ × α)}, e ∈ insertEntry k v l → e = (k, v) ∨ e ∈ l := by
  intro l
  induction l with
  | nil =>
      intro h
      exact Or.inl (List.mem_singleton.mp h)
  | cons hd rest ih =>
      intro h
      unfold insertEntry at h
      split at h
      · rcases List.mem_cons.mp h with heq | hmem
        · exact Or.inl heq
        · exact Or.inr hmem
      · split at h
        · rcases List.mem_cons.mp h with heq | hmem
          · exact Or.inl heq
          · exact Or.inr (List.mem_cons_of_mem _ hmem)
        · rcases List.mem_cons.mp h with heq | hmem
          · exact Or.inr (heq ▸ List.mem_cons_self ..)
          · rcases ih hmem with heq | hrest
            · exact Or.inl heq
            · exact Or.inr (List.mem_cons_of_mem _ hrest)

/-- Insertion keeps the entries sorted. -/
theorem sorted_insertEntry (k : κ) (v : α) {l : List (κ × α)}
    (h : l.Pairwise (fun a b => a.1 < b.1)) :
    (insertEntry k v l).Pairwise (fun a b => a.1 < b.1) := by
  induction l with
  | nil => exact List.pairwise_singleton _ _
  | cons hd rest ih =>
      obtain ⟨hhd, hrest⟩ := List.pairwise_cons.mp h
      unfold insertEntry
      split
      · rename_i hlt
        refine List.pairwise_cons.mpr ⟨?_, h⟩
        intro e he
        rcases List.mem_cons.mp he with heq | hmem
        · rw [heq]; exact hlt
        · exact lt_trans hlt (hhd e hmem)
      · rename_i hnlt
        split
        · rename_i heq
          refine List.pairwise_cons.mpr ⟨?_, hrest⟩
          intro e he
          show k < e.1
          rw [heq]
          exact hhd e he
        · rename_i hne
          refine List.pairwise_cons.mpr ⟨?_, ih hrest⟩
          intro e he
          rcases mem_insertEntry he with heq | hmem
          · rw [heq]
            exact lt_of_le_of_ne (not_lt.mp hnlt) (fun hk => hne hk.symm)
          · exact hhd e hmem

/-- The map with no bindings. -/
def empty : SortedMap κ α := ⟨[], List.Pairwise.nil⟩

instance : EmptyCollection (SortedMap κ α) := ⟨empty⟩
instance : Inhabited (SortedMap κ α) := ⟨empty⟩

/-- The value bound to a key. -/
def get? (m : SortedMap κ α) (k : κ) : Option α := lookupEntry k m.entries

/-- Whether a key is bound. -/
def contains (m : SortedMap κ α) (k : κ) : Bool := (m.get? k).isSome

/-- The number of bindings. -/
def size (m : SortedMap κ α) : Nat := m.entries.length

/-- The values in key order. -/
def values (m : SortedMap κ α) : List α := m.entries.map Prod.snd

/-- The keys in order. -/
def keys (m : SortedMap κ α) : List κ := m.entries.map Prod.fst

/-- Bind a key, replacing its old value. -/
def insert (m : SortedMap κ α) (k : κ) (v : α) : SortedMap κ α :=
  ⟨insertEntry k v m.entries, sorted_insertEntry k v m.sorted⟩

/-- Unbind a key. -/
def erase (m : SortedMap κ α) (k : κ) : SortedMap κ α :=
  ⟨m.entries.filter (fun e => decide (e.1 ≠ k)), m.sorted.filter _⟩

/-- The map of a list of bindings, the last one of a key winning. -/
def ofList (l : List (κ × α)) : SortedMap κ α :=
  l.foldl (fun m e => m.insert e.1 e.2) empty

instance [DecidableEq α] : DecidableEq (SortedMap κ α) := fun a b =>
  decidable_of_iff (a.entries = b.entries) (by cases a; cases b; simp)

/-! ## Lookups -/

private theorem lookupEntry_eq_none_of_lt {k : κ} {l : List (κ × α)}
    (h : ∀ e ∈ l, k < e.1) : lookupEntry k l = none := by
  induction l with
  | nil => rfl
  | cons hd rest ih =>
      have hk : k < hd.1 := h hd (List.mem_cons_self ..)
      unfold lookupEntry
      rw [if_neg (ne_of_lt hk)]
      exact ih (fun e he => h e (List.mem_cons_of_mem _ he))

theorem lookupEntry_insertEntry (k k' : κ) (v : α) (l : List (κ × α)) :
    lookupEntry k' (insertEntry k v l)
      = if k' = k then some v else lookupEntry k' l := by
  induction l with
  | nil => rfl
  | cons hd rest ih =>
      unfold insertEntry
      split
      · rfl
      · split
        · rename_i heq
          by_cases hk : k' = k
          · simp only [lookupEntry, hk, if_true]
          · have hk2 : k' ≠ hd.1 := heq ▸ hk
            simp only [lookupEntry, hk, hk2, if_false]
        · rename_i hne
          unfold lookupEntry
          by_cases hk : k' = hd.1
          · have hk2 : k' ≠ k := fun h => hne (h ▸ hk)
            rw [if_pos hk, if_neg hk2, if_pos hk]
          · rw [if_neg hk, if_neg hk]
            exact ih

@[simp] theorem get?_empty (k : κ) : (empty : SortedMap κ α).get? k = none := rfl

@[simp] theorem get?_insert (m : SortedMap κ α) (k k' : κ) (v : α) :
    (m.insert k v).get? k' = if k' = k then some v else m.get? k' :=
  lookupEntry_insertEntry k k' v m.entries

theorem get?_insert_self (m : SortedMap κ α) (k : κ) (v : α) :
    (m.insert k v).get? k = some v := by
  rw [get?_insert, if_pos rfl]

theorem get?_insert_of_ne (m : SortedMap κ α) {k k' : κ} (v : α) (h : k' ≠ k) :
    (m.insert k v).get? k' = m.get? k' := by
  rw [get?_insert, if_neg h]

private theorem lookupEntry_eq_some {k : κ} {v : α} {l : List (κ × α)}
    (hs : l.Pairwise (fun a b => a.1 < b.1)) :
    lookupEntry k l = some v ↔ (k, v) ∈ l := by
  induction l with
  | nil => simp [lookupEntry]
  | cons hd rest ih =>
      obtain ⟨hhd, hrest⟩ := List.pairwise_cons.mp hs
      unfold lookupEntry
      by_cases hk : k = hd.1
      · rw [if_pos hk]
        constructor
        · intro h
          rw [hk, ← Option.some.inj h]
          exact List.mem_cons_self ..
        · intro h
          rcases List.mem_cons.mp h with heq | hmem
          · rw [← heq]
          · exact absurd (hhd _ hmem) (by rw [hk]; exact lt_irrefl _)
      · rw [if_neg hk, ih hrest]
        constructor
        · exact List.mem_cons_of_mem _
        · intro h
          rcases List.mem_cons.mp h with heq | hmem
          · exact absurd (congrArg Prod.fst heq) hk
          · exact hmem

theorem get?_eq_some {m : SortedMap κ α} {k : κ} {v : α} :
    m.get? k = some v ↔ (k, v) ∈ m.entries :=
  lookupEntry_eq_some m.sorted

theorem mem_values {m : SortedMap κ α} {v : α} :
    v ∈ m.values ↔ ∃ k, m.get? k = some v := by
  constructor
  · intro h
    obtain ⟨e, he, heq⟩ := List.mem_map.mp h
    exact ⟨e.1, get?_eq_some.mpr (heq ▸ he)⟩
  · rintro ⟨k, h⟩
    exact List.mem_map.mpr ⟨(k, v), get?_eq_some.mp h, rfl⟩

theorem mem_keys {m : SortedMap κ α} {k : κ} :
    k ∈ m.keys ↔ ∃ v, m.get? k = some v := by
  constructor
  · intro h
    obtain ⟨⟨_, v⟩, he, rfl⟩ := List.mem_map.mp h
    exact ⟨v, get?_eq_some.mpr he⟩
  · rintro ⟨v, hv⟩
    exact List.mem_map.mpr ⟨(k, v), get?_eq_some.mp hv, rfl⟩

theorem mem_values_of_get? {m : SortedMap κ α} {k : κ} {v : α}
    (h : m.get? k = some v) : v ∈ m.values :=
  mem_values.mpr ⟨k, h⟩

@[simp] theorem get?_erase (m : SortedMap κ α) (k k' : κ) :
    (m.erase k).get? k' = if k' = k then none else m.get? k' := by
  apply Option.ext
  intro v
  rw [get?_eq_some]
  show (k', v) ∈ m.entries.filter (fun e => decide (e.1 ≠ k)) ↔ _
  rw [List.mem_filter, ← get?_eq_some]
  by_cases hk : k' = k
  · simp [hk]
  · simp [hk]

/-- Maps with the same lookups are equal. -/
theorem ext {m m' : SortedMap κ α} (h : ∀ k, m.get? k = m'.get? k) : m = m' := by
  have hmem : ∀ e, e ∈ m.entries ↔ e ∈ m'.entries := by
    intro e
    rw [← get?_eq_some (k := e.1) (v := e.2), ← get?_eq_some, h]
  have hnd : ∀ n : SortedMap κ α, n.entries.Nodup := fun n =>
    n.sorted.imp (fun hlt heq => ne_of_lt hlt (congrArg Prod.fst heq))
  have hperm : m.entries.Perm m'.entries :=
    (List.perm_ext_iff_of_nodup (hnd m) (hnd m')).mpr hmem
  have heq : m.entries = m'.entries :=
    hperm.eq_of_pairwise
      (fun a b _ _ hab hba => absurd hab (lt_asymm hba)) m.sorted m'.sorted
  cases m
  cases m'
  cases heq
  rfl

/-- Binding what is bound already changes nothing. -/
theorem insert_of_get? {m : SortedMap κ α} {k : κ} {v : α}
    (h : m.get? k = some v) : m.insert k v = m := by
  refine ext fun k' => ?_
  rw [get?_insert]
  split
  · rename_i heq
    rw [heq, h]
  · rfl

/-- The last binding of a key counts. -/
theorem insert_insert (m : SortedMap κ α) (k : κ) (v v' : α) :
    (m.insert k v).insert k v' = m.insert k v' := by
  refine ext fun k' => ?_
  rw [get?_insert, get?_insert, get?_insert]
  split <;> rfl

@[simp] theorem contains_insert (m : SortedMap κ α) (k k' : κ) (v : α) :
    (m.insert k v).contains k' = (decide (k' = k) || m.contains k') := by
  unfold contains
  rw [get?_insert]
  by_cases hk : k' = k <;> simp [hk]

private theorem insertEntry_of_none {k : κ} (v : α) {l : List (κ × α)}
    (h : lookupEntry k l = none) :
    ∃ before after, l = before ++ after
      ∧ insertEntry k v l = before ++ (k, v) :: after := by
  induction l with
  | nil => exact ⟨[], [], rfl, rfl⟩
  | cons hd rest ih =>
      unfold lookupEntry at h
      split at h
      · exact nomatch h
      · rename_i hne
        unfold insertEntry
        rw [if_neg hne]
        split
        · exact ⟨[], hd :: rest, rfl, rfl⟩
        · obtain ⟨before, after, heq, hins⟩ := ih h
          exact ⟨hd :: before, after, by rw [heq]; rfl, by rw [hins]; rfl⟩

/-- Binding a new key puts its value somewhere among the values. -/
theorem values_insert_of_none {m : SortedMap κ α} {k : κ} (v : α)
    (h : m.get? k = none) :
    ∃ before after, m.values = before ++ after
      ∧ (m.insert k v).values = before ++ v :: after := by
  obtain ⟨before, after, heq, hins⟩ := insertEntry_of_none v h
  refine ⟨before.map Prod.snd, after.map Prod.snd, ?_, ?_⟩
  · show m.entries.map Prod.snd = _
    rw [heq, List.map_append]
  · show (insertEntry k v m.entries).map Prod.snd = _
    rw [hins, List.map_append, List.map_cons]

private theorem insertEntry_split (k : κ) (l : List (κ × α)) :
    ∃ before after, ∀ v, insertEntry k v l = before ++ (k, v) :: after := by
  induction l with
  | nil => exact ⟨[], [], fun _ => rfl⟩
  | cons e rest ih =>
      obtain ⟨before, after, h⟩ := ih
      by_cases hlt : k < e.1
      · exact ⟨[], e :: rest, fun v => if_pos hlt⟩
      by_cases heq : k = e.1
      · exact ⟨[], rest, fun v => (if_neg hlt).trans (if_pos heq)⟩
      · refine ⟨e :: before, after, fun v => ?_⟩
        rw [List.cons_append, ← h v]
        exact (if_neg hlt).trans (if_neg heq)

/-- Whatever is bound to a key, the other values stand around it. -/
theorem values_insert (m : SortedMap κ α) (k : κ) :
    ∃ before after, ∀ v, (m.insert k v).values = before ++ v :: after := by
  obtain ⟨before, after, h⟩ := insertEntry_split k m.entries
  refine ⟨before.map Prod.snd, after.map Prod.snd, fun v => ?_⟩
  show (insertEntry k v m.entries).map Prod.snd = _
  rw [h v, List.map_append, List.map_cons]

theorem contains_iff {m : SortedMap κ α} {k : κ} :
    m.contains k = true ↔ ∃ v, m.get? k = some v :=
  Option.isSome_iff_exists

/-! ## Sizes and sums -/

section Sums

variable {M : Type} [AddCommMonoid M]

/-- The sum of a measure over all values. -/
def sum (m : SortedMap κ α) (f : α → M) : M := (m.values.map f).sum

private theorem sum_insertEntry_none (f : α → M) {k : κ} {v : α}
    {l : List (κ × α)} (h : lookupEntry k l = none) :
    ((insertEntry k v l).map (fun e => f e.2)).sum
      = (l.map (fun e => f e.2)).sum + f v := by
  induction l with
  | nil => simp [insertEntry]
  | cons hd rest ih =>
      unfold lookupEntry at h
      split at h
      · exact nomatch h
      · rename_i hne
        unfold insertEntry
        split
        · simp [add_comm]
        · simp only [List.map_cons, List.sum_cons]
          rw [ih h, add_assoc]

private theorem sum_insertEntry_some (f : α → M) {k : κ} {v old : α}
    {l : List (κ × α)} (hs : l.Pairwise (fun a b => a.1 < b.1))
    (h : lookupEntry k l = some old) :
    ((insertEntry k v l).map (fun e => f e.2)).sum + f old
      = (l.map (fun e => f e.2)).sum + f v := by
  induction l with
  | nil => exact nomatch h
  | cons hd rest ih =>
      obtain ⟨hhd, hrest⟩ := List.pairwise_cons.mp hs
      unfold insertEntry
      split
      · rename_i hlt
        -- the key sorts before every entry, so it cannot be bound
        have hnone : lookupEntry k (hd :: rest) = none :=
          lookupEntry_eq_none_of_lt (fun e he => by
            rcases List.mem_cons.mp he with heq | hmem
            · rw [heq]; exact hlt
            · exact lt_trans hlt (hhd e hmem))
        rw [hnone] at h
        exact nomatch h
      · unfold lookupEntry at h
        split at h
        · rename_i heq
          have hold : hd.2 = old := Option.some.inj h
          rw [if_pos heq]
          simp only [List.map_cons, List.sum_cons]
          rw [hold, add_comm (f v), add_right_comm, add_comm (f old)]
        · rename_i hne
          rw [if_neg hne]
          simp only [List.map_cons, List.sum_cons]
          rw [add_assoc, ih hrest h, add_assoc]

private theorem sum_eq (m : SortedMap κ α) (f : α → M) :
    m.sum f = (m.entries.map (fun e => f e.2)).sum := by
  unfold sum values
  rw [List.map_map]
  rfl

@[simp] theorem sum_empty (f : α → M) : (empty : SortedMap κ α).sum f = 0 := rfl

/-- A new binding adds its measure. -/
theorem sum_insert_of_none {m : SortedMap κ α} {k : κ} (v : α) (f : α → M)
    (h : m.get? k = none) : (m.insert k v).sum f = m.sum f + f v := by
  rw [sum_eq, sum_eq]
  exact sum_insertEntry_none f h

/-- A replaced binding exchanges the old measure for the new one. -/
theorem sum_insert_of_some {m : SortedMap κ α} {k : κ} (v : α) {old : α}
    (f : α → M) (h : m.get? k = some old) :
    (m.insert k v).sum f + f old = m.sum f + f v := by
  rw [sum_eq, sum_eq]
  exact sum_insertEntry_some f m.sorted h

/-- Replacing a value by one of equal measure leaves the sum alone. -/
theorem sum_insert_of_eq {m : SortedMap κ α} {k : κ} {v old : α}
    {f : α → M} [IsRightCancelAdd M] (h : m.get? k = some old)
    (hf : f v = f old) : (m.insert k v).sum f = m.sum f := by
  have := sum_insert_of_some v f h
  rw [hf] at this
  exact add_right_cancel this

/-- A removed binding takes its measure along. -/
theorem sum_erase_of_some {m : SortedMap κ α} {k : κ} {old : α} (f : α → M)
    (h : m.get? k = some old) : (m.erase k).sum f + f old = m.sum f := by
  have hback : (m.erase k).insert k old = m := by
    apply ext
    intro k'
    rw [get?_insert, get?_erase]
    by_cases hk : k' = k
    · rw [if_pos hk, hk, h]
    · rw [if_neg hk, if_neg hk]
  rw [← sum_insert_of_none old f (by rw [get?_erase, if_pos rfl]), hback]

theorem erase_of_none {m : SortedMap κ α} {k : κ} (h : m.get? k = none) :
    m.erase k = m := by
  apply ext
  intro k'
  rw [get?_erase]
  by_cases hk : k' = k
  · rw [if_pos hk, hk, h]
  · rw [if_neg hk]

theorem sum_nonneg {m : SortedMap κ α} {f : α → Int}
    (h : ∀ k v, m.get? k = some v → 0 ≤ f v) : 0 ≤ m.sum f := by
  unfold sum
  refine List.sum_nonneg fun x hx => ?_
  obtain ⟨v, hv, rfl⟩ := List.mem_map.mp hx
  obtain ⟨k, hk⟩ := mem_values.mp hv
  exact h k v hk

end Sums

theorem size_eq_sum (m : SortedMap κ α) : m.size = m.sum (fun _ => 1) := by
  unfold size sum values
  induction m.entries with
  | nil => rfl
  | cons hd rest ih =>
      rw [List.length_cons, ih]
      exact add_comm _ _

theorem size_insert_of_none {m : SortedMap κ α} {k : κ} (v : α)
    (h : m.get? k = none) : (m.insert k v).size = m.size + 1 := by
  rw [size_eq_sum, size_eq_sum, sum_insert_of_none v _ h]

theorem size_insert_of_some {m : SortedMap κ α} {k : κ} (v : α) {old : α}
    (h : m.get? k = some old) : (m.insert k v).size = m.size := by
  rw [size_eq_sum, size_eq_sum]
  exact sum_insert_of_eq h rfl

end SortedMap
