-- SUMMARY: What a column of a table holds, and how each statement changes it.
import WFA.Base.Table

/-!
# Columns

Invariants over several tables speak of the values in one column: which row
holds a value, and whether any row does. Each statement has one lemma for the
column after it.
-/

namespace WFA

namespace Table

variable {α β : Type} {t t' : Table α} {column : α → β} {v : β} {id : Int}

/-- The row with this rowid is there and has the value in its column. -/
def Holds (t : Table α) (column : α → β) (id : Int) (v : β) : Prop :=
  ∃ row, t.get id = some row ∧ column row = v

/-- Some row has the value in its column. -/
def Occurs (t : Table α) (column : α → β) (v : β) : Prop :=
  ∃ id, t.Holds column id v

theorem Holds.occurs (h : t.Holds column id v) : t.Occurs column v :=
  ⟨id, h⟩

@[simp] theorem not_holds_empty : ¬ (empty : Table α).Holds column id v := by
  rintro ⟨row, hget, -⟩
  simp at hget

@[simp] theorem not_occurs_empty : ¬ (empty : Table α).Occurs column v := by
  rintro ⟨id, h⟩
  exact not_holds_empty h

theorem not_holds_nextId : ¬ t.Holds column t.nextId v := by
  rintro ⟨row, hget, -⟩
  simp [t.get_nextId] at hget

theorem holds_insert {row : α} {new : Int} (h : t.insert row = some (new, t')) :
    t'.Holds column id v ↔ t.Holds column id v ∨ id = new ∧ column row = v := by
  have hnew : ¬ t.Holds column new v := by
    rw [insert_id h]
    exact not_holds_nextId
  unfold Holds
  rw [get_insert h]
  by_cases hid : id = new
  · subst hid
    rw [if_pos rfl]
    constructor
    · rintro ⟨found, hfound, hv⟩
      exact .inr ⟨rfl, Option.some.inj hfound ▸ hv⟩
    · rintro (hold | ⟨-, hv⟩)
      · exact absurd hold hnew
      · exact ⟨row, rfl, hv⟩
  · simp [hid]

theorem occurs_insert {row : α} {new : Int} (h : t.insert row = some (new, t')) :
    t'.Occurs column v ↔ t.Occurs column v ∨ column row = v := by
  simp only [Occurs, holds_insert h]
  constructor
  · rintro ⟨id, hold | ⟨-, hv⟩⟩
    · exact .inl ⟨id, hold⟩
    · exact .inr hv
  · rintro (⟨id, hold⟩ | hv)
    · exact ⟨id, .inl hold⟩
    · exact ⟨new, .inr ⟨rfl, hv⟩⟩

theorem holds_delete [DecidableEq β] {gone : β} :
    (t.delete fun _ row => column row == gone).Holds column id v ↔
      t.Holds column id v ∧ v ≠ gone := by
  unfold Holds
  rw [get_delete]
  constructor
  · rintro ⟨row, hget, rfl⟩
    obtain ⟨hget, hne⟩ := Option.filter_eq_some_iff.mp hget
    exact ⟨⟨row, hget, rfl⟩, by simpa using hne⟩
  · rintro ⟨⟨row, hget, rfl⟩, hne⟩
    exact ⟨row, Option.filter_eq_some_iff.mpr ⟨hget, by simpa using hne⟩, rfl⟩

theorem occurs_delete [DecidableEq β] {gone : β} :
    (t.delete fun _ row => column row == gone).Occurs column v ↔ t.Occurs column v ∧ v ≠ gone := by
  simp only [Occurs, holds_delete, exists_and_right]

/-- An update of other columns. -/
theorem holds_update {p : Int → α → Bool} {f : Int → α → α}
    (hf : ∀ id row, column (f id row) = column row) :
    (t.update p f).Holds column id v ↔ t.Holds column id v := by
  unfold Holds
  rw [get_update]
  cases t.get id with
  | none => simp
  | some row =>
    simp only [Option.map_some, Option.some.injEq, exists_eq_left']
    split
    · rw [hf]
    · rfl

theorem occurs_update {p : Int → α → Bool} {f : Int → α → α}
    (hf : ∀ id row, column (f id row) = column row) :
    (t.update p f).Occurs column v ↔ t.Occurs column v := by
  simp only [Occurs, holds_update hf]

theorem isEmpty_select_column [DecidableEq β] :
    (t.select fun _ row => column row == v).isEmpty = true ↔ ¬ t.Occurs column v := by
  rw [List.isEmpty_iff]
  constructor
  · rintro hnil ⟨id, row, hget, rfl⟩
    have hmem : (id, row) ∈ t.select fun _ found => column found == column row :=
      t.mem_select.mpr ⟨hget, by simp⟩
    simp [hnil] at hmem
  · intro hnone
    refine t.select_eq_nil ?_
    intro id row hget
    rw [beq_eq_false_iff_ne]
    rintro rfl
    exact hnone ⟨id, row, hget, rfl⟩

end Table

end WFA
