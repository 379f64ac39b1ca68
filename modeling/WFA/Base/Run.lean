-- SUMMARY: Runs of a machine: every state that a sequence of allowed actions reaches.
import Mathlib

/-!
# Runs

A machine takes one action at a time. `allowed` says which actions may be taken
in a state; a machine that is told what happened may keep it in its state, and a
property of the history is then a property of the state.
-/

namespace WFA

/-- The actions and the state they lead to, from the state `start`. -/
inductive Run {State Action : Type} (step : State → Action → State)
    (allowed : State → Action → Prop) (start : State) : List Action → State → Prop
  | nil : Run step allowed start [] start
  | snoc {actions : List Action} {state : State} {action : Action} :
      Run step allowed start actions state → allowed state action →
      Run step allowed start (actions ++ [action]) (step state action)

namespace Run

variable {State Action : Type} {step : State → Action → State}
  {allowed : State → Action → Prop} {start : State}

/-- What holds at the start and is kept by every allowed action holds in every
state reached. -/
theorem invariant {P : State → Prop} (hstart : P start)
    (hstep : ∀ state action, P state → allowed state action → P (step state action))
    {actions : List Action} {state : State} (h : Run step allowed start actions state) :
    P state := by
  induction h with
  | nil => exact hstart
  | snoc _ hallowed ih => exact hstep _ _ ih hallowed

/-- The state of a run is what its actions make of the start. -/
theorem eq_foldl {actions : List Action} {state : State}
    (h : Run step allowed start actions state) : state = actions.foldl step start := by
  induction h with
  | nil => rfl
  | snoc _ _ ih => rw [List.foldl_concat, ← ih]

/-! ## What was brought about and not undone since -/

/-- Some action brought it about, in the state it found, and no later one undid it. -/
def Standing (step : State → Action → State) (start : State) (cause : State → Action → Prop)
    (undo : Action → Prop) (actions : List Action) : Prop :=
  ∃ before action after, actions = before ++ action :: after ∧
    cause (before.foldl step start) action ∧ ∀ later ∈ after, ¬ undo later

section Standing

variable {cause : State → Action → Prop} {undo : Action → Prop} {P : State → Prop}
  {actions : List Action} {action : Action} {state : State}

theorem not_standing_nil : ¬ Standing step start cause undo [] := by
  rintro ⟨before, action, after, hactions, -⟩
  simp at hactions

/-- One more action brings it about, or leaves it as it stands. -/
theorem standing_append :
    Standing step start cause undo (actions ++ [action]) ↔
      cause (actions.foldl step start) action ∨
        (Standing step start cause undo actions ∧ ¬ undo action) := by
  constructor
  · rintro ⟨before, caused, after, hactions, hcause, hafter⟩
    rcases List.eq_nil_or_concat after with rfl | ⟨front, last, rfl⟩
    · obtain ⟨rfl, hlast⟩ := List.append_inj' hactions rfl
      obtain rfl : action = caused := by simpa using hlast
      exact .inl hcause
    · rw [List.concat_eq_append] at hactions hafter
      have hsplit : actions ++ [action] = (before ++ caused :: front) ++ [last] := by
        simpa using hactions
      obtain ⟨hfront, hlast⟩ := List.append_inj' hsplit rfl
      obtain rfl : action = last := by simpa using hlast
      refine .inr ⟨⟨before, caused, front, hfront, hcause, ?_⟩, hafter action (by simp)⟩
      exact fun later hlater => hafter later (by simp [hlater])
  · rintro (hcause | ⟨⟨before, caused, after, rfl, hcause, hafter⟩, hundo⟩)
    · exact ⟨actions, action, [], rfl, hcause, by simp⟩
    · refine ⟨before, caused, after ++ [action], by simp, hcause, ?_⟩
      intro later hlater
      rcases List.mem_append.mp hlater with hold | hnew
      · exact hafter later hold
      · rw [List.mem_singleton.mp hnew]
        exact hundo

/-- What does not hold at the start, and holds after an action exactly when the action
brings it about or it held and the action does not undo it, holds at the end of a run
exactly when it stands. -/
theorem iff_standing (hstart : ¬ P start)
    (hstep : ∀ state action, allowed state action →
      (P (step state action) ↔ cause state action ∨ (P state ∧ ¬ undo action)))
    (h : Run step allowed start actions state) :
    P state ↔ Standing step start cause undo actions := by
  induction h with
  | nil => exact iff_of_false hstart not_standing_nil
  | snoc hrun hallowed ih => rw [hstep _ _ hallowed, standing_append, ih, hrun.eq_foldl]

/-- Some action brought it about, in the state it found. -/
abbrev Ever (step : State → Action → State) (start : State) (cause : State → Action → Prop)
    (actions : List Action) : Prop :=
  Standing step start cause (fun _ => False) actions

theorem ever_append : Ever step start cause (actions ++ [action]) ↔
    cause (actions.foldl step start) action ∨ Ever step start cause actions := by
  rw [Ever, standing_append, not_false_eq_true, and_true]

end Standing

/-- Actions that are allowed in every state. -/
theorem of_forall {q : Action → Prop} {actions : List Action} (h : ∀ action ∈ actions, q action) :
    Run step (fun _ action => q action) start actions (actions.foldl step start) := by
  induction actions using List.reverseRecOn with
  | nil => exact .nil
  | append_singleton actions action ih =>
    rw [List.foldl_append]
    exact .snoc (ih fun other hother => h other (by simp [hother])) (h action (by simp))

/-- `P` holds since the first action of `rest` was taken: it did not hold after
`front`, and it holds after each action from then on. -/
inductive Since (step : State → Action → State) (allowed : State → Action → Prop) (start : State)
    (P : State → Prop) (front : List Action) : List Action → State → Prop
  | began {state : State} {action : Action} :
      Run step allowed start front state → ¬ P state → allowed state action →
      P (step state action) → Since step allowed start P front [action] (step state action)
  | kept {rest : List Action} {state : State} {action : Action} :
      Since step allowed start P front rest state → allowed state action →
      P (step state action) →
      Since step allowed start P front (rest ++ [action]) (step state action)

/-- What holds now and did not hold at the start began to hold on the way. -/
theorem exists_since {P : State → Prop} (hstart : ¬ P start) {actions : List Action} {state : State}
    (h : Run step allowed start actions state) (hP : P state) :
    ∃ front rest, actions = front ++ rest ∧ Since step allowed start P front rest state := by
  induction h with
  | nil => exact absurd hP hstart
  | snoc hrun hallowed ih =>
    rename_i actions state action
    by_cases hbefore : P state
    · obtain ⟨front, rest, rfl, hsince⟩ := ih hbefore
      exact ⟨front, rest ++ [action], by simp, .kept hsince hallowed hP⟩
    · exact ⟨actions, [action], rfl, .began hrun hbefore hallowed hP⟩

variable {P : State → Prop} {front rest : List Action} {state : State}

theorem Since.run (h : Since step allowed start P front rest state) :
    Run step allowed start (front ++ rest) state := by
  induction h with
  | began hrun _ hallowed _ => exact .snoc hrun hallowed
  | kept _ hallowed _ ih =>
    rw [← List.append_assoc]
    exact .snoc ih hallowed

theorem Since.holds (h : Since step allowed start P front rest state) : P state := by
  cases h with
  | began _ _ _ hP => exact hP
  | kept _ _ hP => exact hP

end Run

end WFA
