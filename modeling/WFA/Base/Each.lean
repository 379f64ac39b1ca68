-- SUMMARY: A property of every row of a table, and the statements that keep it.
import WFA.Base.Table

/-!
# Properties of every row

An insert keeps such a property when the new row has it, an update when it makes
rows with it of rows with it, and a deletion always.
-/

namespace WFA

namespace Table

variable {α : Type} {t t' : Table α} {P : α → Prop}

/-- Every row has the property. -/
def Each (t : Table α) (P : α → Prop) : Prop :=
  ∀ id row, t.get id = some row → P row

theorem Each.insert (h : t.Each P) {row : α} {new : Int} (hinsert : t.insert row = some (new, t'))
    (hrow : P row) : t'.Each P := by
  intro id found hget
  rw [get_insert hinsert] at hget
  split at hget
  · obtain rfl := Option.some.inj hget
    exact hrow
  · exact h id found hget

theorem Each.delete (h : t.Each P) (p : Int → α → Bool) : (t.delete p).Each P := by
  intro id row hget
  rw [get_delete] at hget
  exact h id row (Option.filter_eq_some_iff.mp hget).1

theorem Each.update (h : t.Each P) {p : Int → α → Bool} {f : Int → α → α}
    (hf : ∀ id row, P row → P (f id row)) : (t.update p f).Each P := by
  intro id row hget
  rw [get_update] at hget
  obtain ⟨old, hold, rfl⟩ := Option.map_eq_some_iff.mp hget
  split
  · exact hf id old (h id old hold)
  · exact h id old hold

theorem Each.select (h : t.Each P) {p : Int → α → Bool} {row : Int × α} (hrow : row ∈ t.select p) :
    P row.2 :=
  h row.1 row.2 (t.mem_select.mp hrow).1

theorem Each.rows (h : t.Each P) {row : Int × α} (hrow : row ∈ t.rows) : P row.2 :=
  h row.1 row.2 (t.get_eq_some_iff.mpr hrow)

end Table

end WFA
