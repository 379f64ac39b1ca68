-- SUMMARY: Tables keyed by a rowid, and what each statement does to a lookup.
import Mathlib

/-!
# Rowid tables

A table is its rows in the order of their rowids, which is how a scan returns
them. A rowid names one row, and a new row gets the largest rowid plus one.
Every statement has a lemma for the lookup after it, so that a proof about a
table never looks at the list of its rows.
-/

namespace WFA

/-- Rows in the order of their rowids, which are 64-bit. -/
structure Table (α : Type) where
  rows : List (Int × α)
  sorted : rows.Pairwise (fun a b => a.1 < b.1)
  bounded : ∀ row ∈ rows, row.1 < 2 ^ 63

namespace Table

variable {α : Type}

def empty : Table α where
  rows := []
  sorted := List.Pairwise.nil
  bounded := by simp

/-- The row with this rowid. -/
def get (t : Table α) (id : Int) : Option α :=
  (t.rows.find? (·.1 == id)).map (·.2)

/-- The rows that satisfy a condition, in rowid order. -/
def select (t : Table α) (p : Int → α → Bool) : List (Int × α) :=
  t.rows.filter fun row => p row.1 row.2

/-- The rows in the order in which a statement reads them: that of the rowids, or that of
an index which has all the columns it needs. -/
abbrev Scan (t : Table α) : Type :=
  { rows : List (Int × α) // rows.Perm t.rows }

/-- `max(rowid) + 1`, and `1` in an empty table. -/
def nextId (t : Table α) : Int :=
  match t.rows.getLast? with
  | some row => row.1 + 1
  | none => 1

theorem lt_nextId (t : Table α) {row : Int × α} (h : row ∈ t.rows) : row.1 < t.nextId := by
  unfold nextId
  rcases List.eq_nil_or_concat t.rows with hnil | ⟨front, last, hrows⟩
  · simp [hnil] at h
  · rw [List.concat_eq_append] at hrows
    have hsorted := t.sorted
    rw [hrows] at h hsorted
    simp only [hrows, List.getLast?_append, List.getLast?_singleton, Option.some_or]
    rcases List.mem_append.mp h with hfront | hlast
    · have := (List.pairwise_append.mp hsorted).2.2 row hfront last (by simp)
      omega
    · obtain rfl : row = last := by simpa using hlast
      omega

/-- A new row, with the rowid it gets. At the largest rowid the engine would try
others at random; here the insert fails. -/
def insert (t : Table α) (a : α) : Option (Int × Table α) :=
  if h : t.nextId < 2 ^ 63 then
    some (t.nextId,
      { rows := t.rows ++ [(t.nextId, a)]
        sorted := by
          refine List.pairwise_append.mpr ⟨t.sorted, List.pairwise_singleton _ _, ?_⟩
          intro row hrow new hnew
          obtain rfl : new = (t.nextId, a) := by simpa using hnew
          exact t.lt_nextId hrow
        bounded := by
          intro row hrow
          rcases List.mem_append.mp hrow with hold | hnew
          · exact t.bounded row hold
          · obtain rfl : row = (t.nextId, a) := by simpa using hnew
            exact h })
  else none

/-- A new row with a given rowid. -/
def insertAt (t : Table α) (id : Int) (a : α) : Option (Table α) :=
  if h : id < 2 ^ 63 ∧ (t.get id).isNone then
    some
      { rows := t.rows.filter (·.1 < id) ++ (id, a) :: t.rows.filter (id < ·.1)
        sorted := by
          refine List.pairwise_append.mpr ⟨t.sorted.filter _, ?_, ?_⟩
          · refine List.pairwise_cons.mpr ⟨?_, t.sorted.filter _⟩
            intro row hrow
            simpa using (List.mem_filter.mp hrow).2
          · intro row hrow next hnext
            have hlow : row.1 < id := by simpa using (List.mem_filter.mp hrow).2
            rcases List.mem_cons.mp hnext with rfl | hnext
            · exact hlow
            · have hhigh : id < next.1 := by simpa using (List.mem_filter.mp hnext).2
              omega
        bounded := by
          intro row hrow
          rcases List.mem_append.mp hrow with hlow | hhigh
          · exact t.bounded row (List.mem_filter.mp hlow).1
          · rcases List.mem_cons.mp hhigh with rfl | hhigh
            · exact h.1
            · exact t.bounded row (List.mem_filter.mp hhigh).1 }
  else none

/-- `DELETE` of the rows that satisfy a condition. -/
def delete (t : Table α) (p : Int → α → Bool) : Table α where
  rows := t.rows.filter fun row => !p row.1 row.2
  sorted := t.sorted.filter _
  bounded := fun row hrow => t.bounded row (List.mem_filter.mp hrow).1

/-- `UPDATE` of the rows that satisfy a condition. -/
def update (t : Table α) (p : Int → α → Bool) (f : Int → α → α) : Table α where
  rows := t.rows.map fun row => (row.1, if p row.1 row.2 then f row.1 row.2 else row.2)
  sorted := List.pairwise_map.mpr t.sorted
  bounded := by
    intro row hrow
    obtain ⟨old, hold, rfl⟩ := List.mem_map.mp hrow
    exact t.bounded old hold

/-! ## Lookups -/

theorem get_eq_some_iff (t : Table α) {id : Int} {a : α} : t.get id = some a ↔ (id, a) ∈ t.rows := by
  obtain ⟨rows, sorted, bounded⟩ := t
  unfold get
  simp only
  induction rows with
  | nil => simp
  | cons row rows ih =>
    obtain ⟨hfirst, hrest⟩ := List.pairwise_cons.mp sorted
    have ih := ih hrest fun row hrow => bounded row (by simp [hrow])
    rw [List.find?_cons]
    cases hid : row.1 == id with
    | true =>
      obtain rfl : row.1 = id := by simpa using hid
      simp only [Option.map_some, Option.some.injEq, List.mem_cons]
      constructor
      · rintro rfl
        exact .inl rfl
      · rintro (heq | hmem)
        · exact (congrArg Prod.snd heq).symm
        · exact absurd (hfirst _ hmem) (lt_irrefl _)
    | false =>
      rw [ih, List.mem_cons]
      constructor
      · exact .inr
      · rintro (heq | hmem)
        · simp [← heq] at hid
        · exact hmem

theorem get_lt (t : Table α) {id : Int} {a : α} (h : t.get id = some a) : id < 2 ^ 63 :=
  t.bounded _ (t.get_eq_some_iff.mp h)

theorem get_lt_nextId (t : Table α) {id : Int} {a : α} (h : t.get id = some a) : id < t.nextId :=
  t.lt_nextId (t.get_eq_some_iff.mp h)

theorem mem_select (t : Table α) {p : Int → α → Bool} {id : Int} {a : α} :
    (id, a) ∈ t.select p ↔ t.get id = some a ∧ p id a = true := by
  rw [select, List.mem_filter, get_eq_some_iff]

/-- Two lookups that agree on every possible answer. -/
private theorem get_ext {t' : Table α} {id : Int} {o : Option α}
    (h : ∀ a, (id, a) ∈ t'.rows ↔ o = some a) : t'.get id = o := by
  cases hget : t'.get id with
  | none =>
    cases o with
    | none => rfl
    | some a => exact absurd (t'.get_eq_some_iff.mpr ((h a).mpr rfl)) (by simp [hget])
  | some a => exact ((h a).mp (t'.get_eq_some_iff.mp hget)).symm

@[simp] theorem get_empty (id : Int) : (empty : Table α).get id = none := rfl

theorem get_nextId (t : Table α) : t.get t.nextId = none := by
  cases hget : t.get t.nextId with
  | none => rfl
  | some a => exact absurd (t.get_lt_nextId hget) (lt_irrefl _)

theorem nextId_pos {t : Table α} (h : ∀ id a, t.get id = some a → 0 < id) : 0 < t.nextId := by
  unfold nextId
  cases hlast : t.rows.getLast? with
  | none => simp
  | some row =>
    have := h row.1 row.2 (t.get_eq_some_iff.mpr (List.mem_of_getLast? hlast))
    simp only
    omega

theorem insert_id {t t' : Table α} {a : α} {new : Int} (h : t.insert a = some (new, t')) :
    new = t.nextId := by
  unfold insert at h
  split at h
  · simp only [Option.some.injEq, Prod.mk.injEq] at h
    exact h.1.symm
  · simp at h

theorem get_insert {t t' : Table α} {a : α} {new : Int} (h : t.insert a = some (new, t'))
    (id : Int) : t'.get id = if id = new then some a else t.get id := by
  have hnew := insert_id h
  subst hnew
  unfold insert at h
  split at h
  · simp only [Option.some.injEq, Prod.mk.injEq, true_and] at h
    subst h
    refine get_ext fun b => ?_
    simp only [List.mem_append, List.mem_singleton, Prod.mk.injEq]
    split
    · rename_i hid
      subst hid
      have hnone : (t.nextId, b) ∉ t.rows := fun hmem => lt_irrefl _ (t.lt_nextId hmem)
      simp [hnone, eq_comm]
    · rename_i hid
      simp [hid, get_eq_some_iff]
  · simp at h

theorem get_insert_nextId {t t' : Table α} {a : α} {new : Int} (h : t.insert a = some (new, t')) :
    t'.get t.nextId = some a := by
  rw [get_insert h, if_pos (insert_id h).symm]

theorem insertAt_isNone {t t' : Table α} {a : α} {new : Int} (h : t.insertAt new a = some t') :
    t.get new = none := by
  unfold insertAt at h
  split at h
  · rename_i hid
    simpa using hid.2
  · simp at h

theorem get_insertAt {t t' : Table α} {a : α} {new : Int} (h : t.insertAt new a = some t')
    (id : Int) : t'.get id = if id = new then some a else t.get id := by
  have hnone := insertAt_isNone h
  unfold insertAt at h
  split at h
  · simp only [Option.some.injEq] at h
    subst h
    refine get_ext fun b => ?_
    simp only [List.mem_append, List.mem_cons, List.mem_filter, Prod.mk.injEq, decide_eq_true_eq]
    split
    · rename_i hid
      subst hid
      simp [eq_comm]
    · rename_i hid
      rw [get_eq_some_iff]
      constructor
      · rintro (⟨hmem, -⟩ | ⟨heq, -⟩ | ⟨hmem, -⟩)
        · exact hmem
        · exact absurd heq hid
        · exact hmem
      · intro hmem
        rcases lt_or_gt_of_ne hid with hlt | hgt
        · exact .inl ⟨hmem, hlt⟩
        · exact .inr (.inr ⟨hmem, hgt⟩)
  · simp at h

theorem get_delete (t : Table α) (p : Int → α → Bool) (id : Int) :
    (t.delete p).get id = (t.get id).filter fun a => !p id a := by
  refine get_ext fun b => ?_
  rw [delete, List.mem_filter, Option.filter_eq_some_iff, get_eq_some_iff]

theorem get_update (t : Table α) (p : Int → α → Bool) (f : Int → α → α) (id : Int) :
    (t.update p f).get id = (t.get id).map fun a => if p id a then f id a else a := by
  refine get_ext fun b => ?_
  simp only [update, List.mem_map, Prod.mk.injEq, Option.map_eq_some_iff, get_eq_some_iff]
  constructor
  · rintro ⟨row, hmem, rfl, rfl⟩
    exact ⟨row.2, hmem, rfl⟩
  · rintro ⟨a, hmem, rfl⟩
    exact ⟨(id, a), hmem, rfl, rfl⟩

/-- The rows that satisfy a condition are counted by their rowids. -/
theorem select_eq_singleton (t : Table α) {p : Int → α → Bool} {id : Int} {a : α}
    (hget : t.get id = some a) (hp : p id a = true)
    (honly : ∀ id' a', t.get id' = some a' → p id' a' = true → id' = id) :
    t.select p = [(id, a)] := by
  have hsorted : (t.select p).Pairwise (fun a b => a.1 < b.1) := t.sorted.filter _
  have hmem : (id, a) ∈ t.select p := t.mem_select.mpr ⟨hget, hp⟩
  have hall : ∀ row ∈ t.select p, row.1 = id := by
    intro row hrow
    obtain ⟨hrow, hprow⟩ := t.mem_select.mp (show (row.1, row.2) ∈ t.select p from hrow)
    exact honly _ _ hrow hprow
  match hlist : t.select p with
  | [] => simp [hlist] at hmem
  | [row] =>
    rw [hlist, List.mem_singleton] at hmem
    rw [hmem]
  | row :: next :: rest =>
    rw [hlist] at hsorted hall
    have hlt := (List.pairwise_cons.mp hsorted).1 next (by simp)
    rw [hall row (by simp), hall next (by simp)] at hlt
    exact absurd hlt (lt_irrefl _)

theorem select_eq_nil (t : Table α) {p : Int → α → Bool}
    (h : ∀ id a, t.get id = some a → p id a = false) : t.select p = [] := by
  rw [List.eq_nil_iff_forall_not_mem]
  intro row hrow
  obtain ⟨hget, hp⟩ := t.mem_select.mp (show (row.1, row.2) ∈ t.select p from hrow)
  simp [h _ _ hget] at hp

/-! ## Writing one row -/

/-- One row of the table is written or deleted, and no other one. -/
def Writes (t t' : Table α) (id : Int) (written : Option α) : Prop :=
  ∀ other, t'.get other = if other = id then written else t.get other

section Writes

variable {t t' : Table α} {id : Int} {written : Option α}

theorem insert_writes {a : α} {new : Int} (h : t.insert a = some (new, t')) :
    Writes t t' new (some a) :=
  get_insert h

/-- A row that is neither the one before nor the one that is written. -/
theorem Writes.frame (h : Writes t t' id written) {a : α} (hbefore : t.get id ≠ some a)
    (hafter : written ≠ some a) (other : Int) : t'.get other = some a ↔ t.get other = some a := by
  rw [h other]
  split
  · rename_i hother
    rw [hother]
    exact ⟨fun hwritten => absurd hwritten hafter, fun hget => absurd hget hbefore⟩
  · rfl

/-- What every row has, once the written one has it. -/
theorem Writes.forall {P : Int → α → Prop} (h : Writes t t' id written)
    (hrows : ∀ other a, t.get other = some a → P other a)
    (hwritten : ∀ a, written = some a → P id a) (other : Int) (a : α)
    (hget : t'.get other = some a) : P other a := by
  rw [h other] at hget
  split at hget
  · rename_i hother
    exact hother ▸ hwritten a hget
  · exact hrows other a hget

end Writes

/-- Tables with the same rows that satisfy a condition: lists in the order of their
rowids are determined by their members. -/
theorem select_congr {t t' : Table α} {p : Int → α → Bool}
    (h : ∀ id a, p id a = true → (t'.get id = some a ↔ t.get id = some a)) :
    t'.select p = t.select p := by
  have : Std.Irrefl fun a b : Int × α => a.1 < b.1 := ⟨fun a => lt_irrefl a.1⟩
  have : Std.Antisymm fun a b : Int × α => a.1 < b.1 :=
    ⟨fun a b hab hba => absurd hab (lt_asymm hba)⟩
  refine List.Pairwise.eq_of_mem_iff (t'.sorted.filter _) (t.sorted.filter _) ?_
  rintro ⟨id, a⟩
  rw [mem_select, mem_select]
  constructor
  · rintro ⟨hget, hp⟩
    exact ⟨(h id a hp).mp hget, hp⟩
  · rintro ⟨hget, hp⟩
    exact ⟨(h id a hp).mpr hget, hp⟩

end Table

end WFA
