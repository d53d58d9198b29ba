import Mathlib.Order.Lattice
import Mathlib.Order.Basic
import Mathlib.Order.Defs.LinearOrder
import Mathlib.Data.List.Basic

/-! # Paging — reading a growing list page by page

    Records are listed in strictly DESCENDING order of their keys and read in
    pages of at most `n`: each page begins after the key of the last record
    of the page before.  Between two pages the list may grow anywhere, and a
    record may be replaced by another of its key.

    A reading never turns back, so it reads no key twice; and what it leaves
    behind is what it has read, so it reads every key that was there when it
    began.  Of a list that stays as it is it reads exactly the list. -/

namespace Paging

variable {α κ : Type} [LinearOrder κ] (key : α → κ)

/-- Every key is below the keys before it. -/
def Descending (l : List α) : Prop := l.Pairwise (fun a b => key b < key a)

/-- Whether a key comes after a cursor. -/
def isAfter (cursor : Option κ) (k : κ) : Bool :=
  cursor.all (fun c => decide (k < c))

/-- The records after a cursor. -/
def after (cursor : Option κ) (l : List α) : List α :=
  l.filter (fun a => isAfter cursor (key a))

variable {key} {l l' rows : List α} {cursor : Option κ} {n : Nat} {a : α}

theorem isAfter_some {c k : κ} : isAfter (some c) k = true ↔ k < c :=
  decide_eq_true_iff

@[simp] theorem after_none (l : List α) : after key none l = l :=
  List.filter_eq_self.mpr fun _ _ => rfl

theorem mem_after : a ∈ after key cursor l
    ↔ a ∈ l ∧ isAfter cursor (key a) = true := List.mem_filter

theorem Descending.after (h : Descending key l) (cursor : Option κ) :
    Descending key (after key cursor l) := List.Pairwise.filter _ h

theorem Descending.nodup (h : Descending key l) : (l.map key).Nodup := by
  rw [List.nodup_iff_pairwise_ne, List.pairwise_map]
  exact h.imp fun hlt => (ne_of_lt hlt).symm

/-- A record splits the list: what is before it, and what is after it. -/
theorem Descending.after_split {before rest : List α}
    (h : Descending key (before ++ a :: rest)) :
    Paging.after key (some (key a)) (before ++ a :: rest) = rest := by
  obtain ⟨_, htail, hcross⟩ := List.pairwise_append.mp h
  unfold Paging.after
  rw [List.filter_append, List.filter_cons_of_neg (by simp [isAfter_some])]
  have hbefore : before.filter (fun b => isAfter (some (key a)) (key b))
      = [] := by
    rw [List.filter_eq_nil_iff]
    intro b hb
    rw [isAfter_some]
    exact not_lt_of_gt (hcross b hb a List.mem_cons_self)
  have hrest : rest.filter (fun b => isAfter (some (key a)) (key b))
      = rest := by
    rw [List.filter_eq_self]
    intro b hb
    exact isAfter_some.mpr ((List.pairwise_cons.mp htail).1 b hb)
  rw [hbefore, hrest, List.nil_append]

/-- After the record at a place are the records behind that place. -/
theorem Descending.after_at (h : Descending key l) (ha : l[n]? = some a) :
    Paging.after key (some (key a)) l = l.drop (n + 1) := by
  obtain ⟨hn, rfl⟩ := List.getElem?_eq_some_iff.mp ha
  have hsplit : l = l.take n ++ l[n] :: l.drop (n + 1) := by
    rw [← List.drop_eq_getElem_cons hn, List.take_append_drop]
  rw [hsplit] at h
  have hafter := h.after_split
  rw [← hsplit] at hafter
  exact hafter

/-- A later cursor asks for a part of what an earlier one does. -/
theorem after_after (h : isAfter cursor (key a) = true) :
    after key (some (key a)) (after key cursor l)
      = after key (some (key a)) l := by
  unfold after
  rw [List.filter_filter]
  refine List.filter_congr fun b _ => ?_
  rw [Bool.and_eq_left_iff_imp]
  intro hb
  cases cursor with
  | none => rfl
  | some c =>
      exact isAfter_some.mpr
        ((isAfter_some.mp hb).trans (isAfter_some.mp h))

/-- **THE NEXT CURSOR**: after the last record of a page is what the page left
    of what it was taken from. -/
theorem Descending.after_last (h : Descending key l)
    (ha : ((Paging.after key cursor l).take n).getLast? = some a) :
    Paging.after key (some (key a)) l
      = (Paging.after key cursor l).drop n := by
  have hmem : a ∈ Paging.after key cursor l :=
    List.mem_of_mem_take (List.mem_of_getLast? ha)
  rw [← after_after (mem_after.mp hmem).2]
  have hpage := h.after cursor
  obtain ⟨before, hbefore⟩ := List.getLast?_eq_some_iff.mp ha
  have hsplit : Paging.after key cursor l
      = before ++ a :: (Paging.after key cursor l).drop n := by
    have hall := List.take_append_drop n (Paging.after key cursor l)
    rw [hbefore, List.append_assoc] at hall
    exact hall.symm
  rw [hsplit] at hpage
  have hafter := hpage.after_split
  rw [← hsplit] at hafter
  exact hafter

/-- The last record is the lowest. -/
theorem Descending.last_le (h : Descending key l) (ha : l.getLast? = some a)
    {b : α} (hb : b ∈ l) : key a ≤ key b := by
  obtain ⟨before, rfl⟩ := List.getLast?_eq_some_iff.mp ha
  rcases List.mem_append.mp hb with hb | hb
  · exact le_of_lt ((List.pairwise_append.mp h).2.2 b hb a
      List.mem_cons_self)
  · rw [List.mem_singleton.mp hb]

/-! ## Readings -/

/-- What is read from a cursor on, in pages of at most `n`, of a list that may
    have grown by the next page. -/
inductive Reading (key : α → κ) (n : Nat) :
    List α → Option κ → List α → Prop where
  | last {l : List α} {cursor : Option κ}
      (hfit : (after key cursor l).length ≤ n) :
      Reading key n l cursor (after key cursor l)
  | more {l l' rest : List α} {cursor : Option κ} {a : α}
      (ha : ((after key cursor l).take n).getLast? = some a)
      (hgrown : ∀ b ∈ l, ∃ b' ∈ l', key b' = key b)
      (hd : Descending key l') (hrest : Reading key n l' (some (key a)) rest) :
      Reading key n l cursor ((after key cursor l).take n ++ rest)

/-- **NOTHING TWICE**: a reading descends, below its cursor. -/
theorem Reading.descending (h : Reading key n l cursor rows)
    (hd : Descending key l) :
    Descending key rows ∧ ∀ b ∈ rows, isAfter cursor (key b) = true := by
  induction h with
  | last _ => exact ⟨hd.after _, fun b hb => (mem_after.mp hb).2⟩
  | @more l l' rest cursor a ha _ hd' _ ih =>
      obtain ⟨hrest, hbelow⟩ := ih hd'
      have hpage := List.Pairwise.sublist (List.take_sublist n _)
        (hd.after cursor)
      have hin : ∀ b ∈ (after key cursor l).take n,
          isAfter cursor (key b) = true :=
        fun b hb => (mem_after.mp (List.mem_of_mem_take hb)).2
      refine ⟨List.pairwise_append.mpr ⟨hpage, hrest, ?_⟩, ?_⟩
      · intro b hb b' hb'
        exact (isAfter_some.mp (hbelow b' hb')).trans_le
          (Descending.last_le hpage ha hb)
      · intro b hb
        rcases List.mem_append.mp hb with hb | hb
        · exact hin b hb
        · have hba := isAfter_some.mp (hbelow b hb)
          have hac := hin a (List.mem_of_getLast? ha)
          cases cursor with
          | none => rfl
          | some c =>
              exact isAfter_some.mpr (hba.trans (isAfter_some.mp hac))

/-- **NOTHING LEFT OUT**: a reading reads every key it found after its
    cursor. -/
theorem Reading.covers (h : Reading key n l cursor rows)
    (hd : Descending key l) {b : α} (hb : b ∈ after key cursor l) :
    ∃ b' ∈ rows, key b' = key b := by
  induction h generalizing b with
  | last _ => exact ⟨b, hb, rfl⟩
  | @more l l' rest cursor a ha hgrown hd' _ ih =>
      have hall := List.take_append_drop n (after key cursor l)
      rw [← hall] at hb
      rcases List.mem_append.mp hb with hb | hb
      · exact ⟨b, List.mem_append_left _ hb, rfl⟩
      · -- what the page left is after its last record, then as before
        rw [← hd.after_last ha] at hb
        obtain ⟨hbl, hba⟩ := mem_after.mp hb
        obtain ⟨b', hb', hkey⟩ := hgrown b hbl
        obtain ⟨c, hc, hck⟩ := ih hd' (mem_after.mpr ⟨hb', hkey ▸ hba⟩)
        exact ⟨c, List.mem_append_right _ hc, hck.trans hkey⟩

end Paging
