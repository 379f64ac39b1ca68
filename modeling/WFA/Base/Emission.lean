-- SUMMARY: Actions that only append to their output, and how they compose.
import Mathlib

/-!
# Appending actions

A printer that writes into a buffer takes the buffer and returns it longer. What
it appends, and whether it fails, does not depend on what the buffer holds. Such
an action is known by what it does to an empty output, and two of them in a row
append what each appends.
-/

namespace WFA

/-- The action appends the same, or fails the same way, whatever is there. -/
def Appends {ε ω : Type} [Monoid ω] (f : ω → Except ε ω) : Prop :=
  ∀ out, f out = (f 1).map (out * ·)

namespace Appends

variable {ε ω α : Type} [Monoid ω] {f g : ω → Except ε ω}

theorem emit (a : ω) : Appends (fun out : ω => (.ok (out * a) : Except ε ω)) := by
  intro out
  simp [Except.map]

theorem skip : Appends (fun out : ω => (.ok out : Except ε ω)) := by
  intro out
  simp [Except.map]

theorem fail (e : ε) : Appends (fun _ : ω => (.error e : Except ε ω)) := by
  intro out
  rfl

theorem andThen (hf : Appends f) (hg : Appends g) : Appends fun out => f out >>= g := by
  intro out
  change f out >>= g = Except.map (out * ·) (f 1 >>= g)
  rw [hf out]
  cases f 1 with
  | error e => rfl
  | ok a =>
    change g (out * a) = Except.map (out * ·) (g a)
    rw [hg (out * a), hg a]
    cases g 1 with
    | error e => rfl
    | ok b => simp [Except.map, mul_assoc]

theorem foldlM {f : α → ω → Except ε ω} (items : List α) (hf : ∀ item ∈ items, Appends (f item)) :
    Appends fun out => items.foldlM (fun out item => f item out) out := by
  induction items with
  | nil => exact skip
  | cons item items ih =>
    have hrest := ih fun other hother => hf other (by simp [hother])
    have hboth := (hf item (by simp)).andThen hrest
    simpa [List.foldlM_cons] using hboth

/-- Two actions in a row return exactly when both do, and append both parts. -/
theorem andThen_eq_ok (hg : Appends g) (f : ω → Except ε ω) (out : ω) :
    f 1 >>= g = .ok out ↔ ∃ a b, f 1 = .ok a ∧ g 1 = .ok b ∧ out = a * b := by
  cases f 1 with
  | error e => simp [bind, Except.bind]
  | ok a =>
    change g a = .ok out ↔ _
    rw [hg a]
    cases g 1 with
    | error e => simp [Except.map]
    | ok b => simp [Except.map, eq_comm]

end Appends

end WFA
