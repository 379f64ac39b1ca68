-- SUMMARY: Bounds-checked iterators into a text, and the ways a run can stop without a result.
import WFA.Base.Text

/-!
# Checked iterators

A C++ scanner moves iterators through a text. Here an iterator is a position,
and every operation checks that it stays inside the text: leaving it is a trap,
not a value. A run that returns is a value of `Exec`.
-/

namespace WFA

/-- Why a run stops without a result. -/
inductive Trap where
  /-- An iterator is dereferenced at the end, or moved past it. -/
  | outOfRange
  /-- An `assert` that is compiled in fails. -/
  | assertion
  /-- An exception leaves the function. -/
  | exception
  /-- The model's step budget is used up. -/
  | fuel
  deriving DecidableEq, Repr

abbrev Exec := Except Trap

namespace Text

/-- `*it`. -/
def deref (t : Text) (it : Nat) : Exec Byte :=
  match t[it]? with
  | some b => .ok b
  | none => .error .outOfRange

/-- `it + n`. -/
def advance (t : Text) (it n : Nat) : Exec Nat :=
  if it + n ≤ t.length then .ok (it + n) else .error .outOfRange

/-- `std::find(first, last, c)`. -/
def find (t : Text) (first last : Nat) (c : Byte) : Exec Nat :=
  if first ≤ last ∧ last ≤ t.length then .ok (first + indexOf c (slice t first last))
  else .error .outOfRange

/-- `std::string(first, last)`. -/
def range (t : Text) (first last : Nat) : Exec Text :=
  if first ≤ last ∧ last ≤ t.length then .ok (slice t first last) else .error .outOfRange

/-- `std::string_view(&*it, n)`: the view dereferences its start. -/
def view (t : Text) (it n : Nat) : Exec Text :=
  if it < t.length ∧ it + n ≤ t.length then .ok (slice t it (it + n)) else .error .outOfRange

/-! ## Equations

A position is known by the part of the text in front of it: each equation asks
how the text falls apart there. -/

section Equations

variable {t a b c : Text} {it first last n : Nat} {x : Byte}

theorem deref_eq (ht : t = a ++ x :: c) (hit : it = a.length) : deref t it = .ok x := by
  subst ht hit
  simp [deref]

theorem advance_le (h : it + n ≤ t.length) : advance t it n = .ok (it + n) := by
  simp [advance, h]

theorem advance_gt (h : t.length < it + n) : advance t it n = .error .outOfRange := by
  have hle : ¬ it + n ≤ t.length := by omega
  simp [advance, hle]

private theorem range_le (ht : t = a ++ (b ++ c)) (hfirst : first = a.length)
    (hlast : last = a.length + b.length) : first ≤ last ∧ last ≤ t.length := by
  subst ht
  simp only [List.length_append]
  omega

theorem find_eq (ht : t = a ++ (b ++ c)) (hfirst : first = a.length)
    (hlast : last = a.length + b.length) : find t first last x = .ok (first + indexOf x b) := by
  rw [find, if_pos (range_le ht hfirst hlast), slice_eq ht hfirst hlast]

theorem range_eq (ht : t = a ++ (b ++ c)) (hfirst : first = a.length)
    (hlast : last = a.length + b.length) : range t first last = .ok b := by
  rw [range, if_pos (range_le ht hfirst hlast), slice_eq ht hfirst hlast]

theorem view_eq (ht : t = a ++ (b ++ c)) (hbc : b ++ c ≠ []) (hit : it = a.length)
    (hn : n = b.length) : view t it n = .ok b := by
  have hpos : 0 < (b ++ c).length := List.length_pos_iff.mpr hbc
  have hin : it < t.length ∧ it + n ≤ t.length := by
    subst ht
    simp only [List.length_append] at hpos ⊢
    omega
  rw [view, if_pos hin, slice_eq ht hit (by omega)]

end Equations

end Text

end WFA
