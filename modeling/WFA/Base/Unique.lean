-- SUMMARY: Columns in which no two rows have the same value, and the statements that keep them so.
import WFA.Base.Column

/-!
# Unique columns

A column is unique when a value names at most one row. An insert keeps it so when
the new value does not occur, and so does an update of one row to a value that no
other row has.
-/

namespace WFA

namespace Table

variable {α β : Type} {t t' : Table α} {column : α → β}

/-- No two rows have the same value in this column. -/
def Unique (t : Table α) (column : α → β) : Prop :=
  ∀ id other v, t.Holds column id v → t.Holds column other v → id = other

theorem unique_empty : (empty : Table α).Unique column := by
  intro id other v h
  exact absurd h not_holds_empty

theorem Unique.insert (h : t.Unique column) {row : α} {new : Int}
    (hinsert : t.insert row = some (new, t')) (hfree : ¬ t.Occurs column (column row)) :
    t'.Unique column := by
  intro id other v hid hother
  rcases (holds_insert hinsert).mp hid with hid | ⟨rfl, rfl⟩
  · rcases (holds_insert hinsert).mp hother with hother | ⟨rfl, rfl⟩
    · exact h id other v hid hother
    · exact absurd hid.occurs hfree
  · rcases (holds_insert hinsert).mp hother with hother | ⟨rfl, -⟩
    · exact absurd hother.occurs hfree
    · rfl

theorem Unique.delete (h : t.Unique column) (p : Int → α → Bool) : (t.delete p).Unique column := by
  have hkept : ∀ id v, (t.delete p).Holds column id v → t.Holds column id v := by
    rintro id v ⟨row, hget, hv⟩
    rw [get_delete] at hget
    exact ⟨row, (Option.filter_eq_some_iff.mp hget).1, hv⟩
  intro id other v hid hother
  exact h id other v (hkept id v hid) (hkept other v hother)

/-- An update of at most one row, to a value that no other row has. -/
theorem Unique.update (h : t.Unique column) {p : Int → α → Bool} {f : Int → α → α}
    (hone : ∀ id row other row', t.get id = some row → t.get other = some row' →
      p id row = true → p other row' = true → id = other)
    (hfree : ∀ id row, t.get id = some row → p id row = true →
      ∀ other, other ≠ id → ¬ t.Holds column other (column (f id row))) :
    (t.update p f).Unique column := by
  -- a row after the update is an old one, or the one that was updated
  have hcases : ∀ id v, (t.update p f).Holds column id v →
      t.Holds column id v ∨ ∃ row, t.get id = some row ∧ p id row = true ∧ column (f id row) = v := by
    rintro id v ⟨found, hget, rfl⟩
    rw [get_update] at hget
    obtain ⟨row, hrow, rfl⟩ := Option.map_eq_some_iff.mp hget
    split
    · rename_i hp
      exact .inr ⟨row, hrow, hp, rfl⟩
    · exact .inl ⟨row, hrow, rfl⟩
  intro id other v hid hother
  rcases hcases id v hid with hold | ⟨row, hget, hp, rfl⟩
  · rcases hcases other v hother with hold' | ⟨row', hget', hp', rfl⟩
    · exact h id other v hold hold'
    · by_contra hne
      exact hfree other row' hget' hp' id hne hold
  · rcases hcases other _ hother with hold' | ⟨row', hget', hp', -⟩
    · by_contra hne
      exact hfree id row hget hp other (Ne.symm hne) hold'
    · exact hone id row other row' hget hget' hp hp'

/-- A condition that asks for one value selects at most one row. -/
theorem Unique.select_le_one (h : t.Unique column) {p : Int → α → Bool} (v : β)
    (hp : ∀ id row, p id row = true → column row = v) :
    t.select p = [] ∨ ∃ id row, t.select p = [(id, row)] := by
  cases hselect : t.select p with
  | nil => exact .inl rfl
  | cons first rest =>
    have hfirst : (first.1, first.2) ∈ t.select p := by simp [hselect]
    obtain ⟨hget, hpfirst⟩ := t.mem_select.mp hfirst
    refine .inr ⟨first.1, first.2, ?_⟩
    rw [← hselect]
    apply t.select_eq_singleton hget hpfirst
    intro other row' hget' hp'
    exact h other first.1 v ⟨row', hget', hp other row' hp'⟩ ⟨first.2, hget, hp _ _ hpfirst⟩

end Table

end WFA
