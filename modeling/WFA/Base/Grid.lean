-- SUMMARY: Grids of texts: stored row after row, and printed as a table whose columns line up.
import WFA.Base.Script

/-!
# Grids

A row of a grid is a function from its columns. The cells of all rows in one list are
found again by the number of the row and the column. In a table, every cell is filled
up to the width of its column, and a bar stands behind it.
-/

namespace WFA

open Text

/-! ## Storage -/

section Storage

variable {α : Type}

/-- The cells of the rows, one row after the other. -/
def rowMajor (n : Nat) (rows : List (Nat → α)) : List α :=
  rows.flatMap fun row => (List.range n).map row

theorem length_rowMajor (n : Nat) (rows : List (Nat → α)) :
    (rowMajor n rows).length = rows.length * n := by
  induction rows with
  | nil => simp [rowMajor]
  | cons row rows ih =>
    unfold rowMajor at ih ⊢
    rw [List.flatMap_cons, List.length_append, ih]
    simp [Nat.add_mul, Nat.add_comm]

theorem getElem?_rowMajor {n c : Nat} (hc : c < n) (rows : List (Nat → α)) (r : Nat) :
    (rowMajor n rows)[r * n + c]? = rows[r]?.map (· c) := by
  induction rows generalizing r with
  | nil => simp [rowMajor]
  | cons row rows ih =>
    unfold rowMajor at ih ⊢
    rw [List.flatMap_cons]
    cases r with
    | zero =>
      rw [Nat.zero_mul, Nat.zero_add, List.getElem?_append_left (by simpa using hc)]
      simp [hc]
    | succ r =>
      -- the first row is behind the cell
      have hindex : (r + 1) * n + c = n + (r * n + c) := by
        rw [Nat.add_mul]
        omega
      rw [hindex, List.getElem?_append_right (by simp)]
      simpa using ih r

end Storage

/-! ## Loops over numbers -/

/-- A loop over the numbers of the items is one over the items. -/
theorem foldl_range_getD {σ α : Type} (f : σ → α → σ) (items : List α) (d : α) (state : σ) :
    (List.range items.length).foldl (fun state i => f state (items.getD i d)) state =
      items.foldl f state := by
  have hitems : (List.range items.length).map (fun i => items.getD i d) = items := by
    apply List.ext_getElem
    · simp
    · intro i hi hi'
      simp [hi']
  calc (List.range items.length).foldl (fun state i => f state (items.getD i d)) state
      = ((List.range items.length).map fun i => items.getD i d).foldl f state :=
        List.foldl_map.symm
    _ = items.foldl f state := by rw [hitems]

/-- A loop whose body cannot fail. -/
theorem foldlM_eq_ok {ε σ α : Type} {f : σ → α → Except ε σ} {g : σ → α → σ} {items : List α}
    (h : ∀ item ∈ items, ∀ state, f state item = .ok (g state item)) (state : σ) :
    items.foldlM f state = .ok (items.foldl g state) := by
  induction items generalizing state with
  | nil => rfl
  | cons item items ih =>
    rw [List.foldlM_cons, h item (by simp) state]
    exact ih (fun other hother => h other (by simp [hother])) _

/-! ## Widths -/

/-- A column is made as wide as a cell. -/
def widen (sizes : Nat → Nat) (c size : Nat) : Nat → Nat :=
  if size > sizes c then Function.update sizes c size else sizes

theorem widen_apply (sizes : Nat → Nat) (c size i : Nat) :
    widen sizes c size i = if i = c then max (sizes i) size else sizes i := by
  unfold widen
  split
  · by_cases hi : i = c
    · subst hi
      rw [Function.update_self, if_pos rfl]
      omega
    · rw [Function.update_of_ne hi, if_neg hi]
  · split
    · rename_i hsize hi
      subst hi
      omega
    · rfl

/-- The columns in front of `n` are made as wide as the cells of a row. -/
def widenRow (n : Nat) (sizes : Nat → Nat) (row : Nat → Text) : Nat → Nat :=
  (List.range n).foldl (fun sizes c => widen sizes c (row c).length) sizes

theorem widenRow_succ (n : Nat) (sizes : Nat → Nat) (row : Nat → Text) :
    widenRow (n + 1) sizes row = widen (widenRow n sizes row) n (row n).length := by
  rw [widenRow, List.range_succ, List.foldl_append]
  rfl

theorem widenRow_apply (n : Nat) (sizes : Nat → Nat) (row : Nat → Text) (i : Nat) :
    widenRow n sizes row i = if i < n then max (sizes i) (row i).length else sizes i := by
  induction n with
  | zero => simp [widenRow]
  | succ n ih =>
    rw [widenRow_succ, widen_apply, ih]
    by_cases hi : i = n
    · subst hi
      simp
    · have hlt : i < n + 1 ↔ i < n := by omega
      simp [hi, hlt]

/-- `sizes` fits the rows: no cell is wider than its column, and some cell is as wide. -/
def Fitting (n : Nat) (rows : List (Nat → Text)) (sizes : Nat → Nat) : Prop :=
  ∀ c < n, (∀ row ∈ rows, (row c).length ≤ sizes c) ∧
    (rows = [] ∧ sizes c = 0 ∨ ∃ row ∈ rows, (row c).length = sizes c)

theorem Fitting.widenRow {n : Nat} {rows : List (Nat → Text)} {sizes : Nat → Nat}
    (h : Fitting n rows sizes) (row : Nat → Text) :
    Fitting n (rows ++ [row]) (widenRow n sizes row) := by
  intro c hc
  obtain ⟨hle, hmax⟩ := h c hc
  rw [widenRow_apply, if_pos hc]
  refine ⟨?_, .inr ?_⟩
  · intro other hother
    rcases List.mem_append.mp hother with hold | hnew
    · exact (hle other hold).trans (le_max_left _ _)
    · obtain rfl := List.mem_singleton.mp hnew
      exact le_max_right _ _
  · rcases le_total (sizes c) (row c).length with hrow | hrow
    · exact ⟨row, by simp, by omega⟩
    · rcases hmax with ⟨-, hzero⟩ | ⟨widest, hmem, hwidest⟩
      · exact ⟨row, by simp, by omega⟩
      · exact ⟨widest, by simp [hmem], by omega⟩

/-! ## Tables -/

/-- A cell, filled up to the width of its column, and a bar. -/
def padded (size : Nat) (cell : Text) : Text :=
  cell ++ (List.replicate (size - cell.length) (' ' : Byte) ++ [('|' : Byte)])

/-- A line of a table. -/
def tableLine (n : Nat) (sizes : Nat → Nat) (row : Nat → Text) : Text :=
  ('|' : Byte) :: (List.range n).flatMap fun c => padded (sizes c) (row c)

theorem tableLine_succ (n : Nat) (sizes : Nat → Nat) (row : Nat → Text) :
    tableLine (n + 1) sizes row = tableLine n sizes row ++ padded (sizes n) (row n) := by
  simp [tableLine, List.range_succ]

/-- Only the widths of its columns matter for a line. -/
theorem tableLine_congr {n : Nat} {sizes sizes' : Nat → Nat} (h : ∀ c < n, sizes c = sizes' c)
    (row : Nat → Text) : tableLine n sizes row = tableLine n sizes' row := by
  unfold tableLine
  rw [List.flatMap_congr]
  intro c hc
  rw [h c (List.mem_range.mp hc)]

end WFA
