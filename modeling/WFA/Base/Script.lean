-- SUMMARY: Texts that are taken line by line, until a line is refused.
import WFA.Base.Text

/-!
# Scripts

A loop over the lines of a file goes on from line to line, stops at a line that it
refuses, or fails. `Loops` says by rules what such a loop comes to, so that a proof
about one goes by the lines it took.
-/

namespace WFA

/-! ## Lines -/

namespace Text

/-- The lines that `std::getline` reads. A line break at the end begins no further
line. -/
def lines (t : Text) : List Text :=
  let parts := t.splitOn ('\n' : Byte)
  if parts.getLast? = some [] then parts.dropLast else parts

/-- The text with these lines, each of them ended by a line break. -/
def unlines (ls : List Text) : Text :=
  (ls.map (· ++ [('\n' : Byte)])).flatten

@[simp] theorem lines_nil : lines [] = [] := by
  simp [lines, List.splitOn, List.splitOnP_nil]

theorem lines_append {a b : Text} (h : ('\n' : Byte) ∉ a) :
    lines (a ++ ('\n' : Byte) :: b) = a :: lines b := by
  have hne : b.splitOn ('\n' : Byte) ≠ [] := List.splitOnP_ne_nil _ _
  unfold lines
  rw [splitOn_append h]
  cases hparts : b.splitOn ('\n' : Byte) with
  | nil => exact absurd hparts hne
  | cons part parts =>
    dsimp only
    rw [List.getLast?_cons_cons]
    split <;> simp

theorem lines_unlines {ls : List Text} (h : ∀ line ∈ ls, ('\n' : Byte) ∉ line) :
    lines (unlines ls) = ls := by
  induction ls with
  | nil => simp [unlines]
  | cons line ls ih =>
    have htext : unlines (line :: ls) = line ++ ('\n' : Byte) :: unlines ls := by simp [unlines]
    rw [htext, lines_append (h line (by simp)), ih fun other hother => h other (by simp [hother])]

end Text

/-! ## Loops -/

/-- What a loop does after an item. -/
inductive Progress (ε σ : Type) where
  | next (state : σ)
  | stop (state : σ)
  | fail (error : ε)

section Loops

variable {ε σ α : Type} (step : σ → α → Progress ε σ)

/-- Takes the items one after the other. The flag says whether it took all of them. -/
def loop : List α → σ → Except ε (σ × Bool)
  | [], state => .ok (state, true)
  | item :: items, state =>
    match step state item with
    | .next state => loop items state
    | .stop state => .ok (state, false)
    | .fail error => .error error

/-- From the first state, the items lead to the last one, all of them or up to one
that the loop stops at. -/
inductive Loops : List α → σ → σ → Bool → Prop
  | done {state : σ} : Loops [] state state true
  | next {item : α} {items : List α} {first second last : σ} {all : Bool} :
      step first item = .next second → Loops items second last all →
      Loops (item :: items) first last all
  | stop {item : α} {items : List α} {first last : σ} :
      step first item = .stop last → Loops (item :: items) first last false

variable {step}

theorem loop_eq_ok {items : List α} {first last : σ} {all : Bool} :
    loop step items first = .ok (last, all) ↔ Loops step items first last all := by
  induction items generalizing first with
  | nil =>
    constructor
    · intro h
      obtain ⟨rfl, rfl⟩ : first = last ∧ true = all := by simpa [loop] using h
      exact .done
    · intro h
      cases h
      rfl
  | cons item items ih =>
    constructor
    · intro h
      unfold loop at h
      cases hstep : step first item with
      | next second =>
        rw [hstep] at h
        exact .next hstep (ih.mp h)
      | stop second =>
        rw [hstep] at h
        obtain ⟨rfl, rfl⟩ : second = last ∧ false = all := by simpa using h
        exact .stop hstep
      | fail error =>
        rw [hstep] at h
        simp at h
    · intro h
      unfold loop
      cases h with
      | next hstep hrest =>
        rw [hstep]
        exact ih.mpr hrest
      | stop hstep => rw [hstep]

/-- After items that pass comes one with the property. -/
def Meets (pass P : α → Prop) (items : List α) : Prop :=
  ∃ front item rest, items = front ++ item :: rest ∧ (∀ other ∈ front, pass other) ∧ P item

theorem not_meets_nil {pass P : α → Prop} : ¬ Meets pass P ([] : List α) := by
  rintro ⟨front, item, rest, hitems, -⟩
  simp at hitems

theorem meets_cons {pass P : α → Prop} {item : α} {items : List α} :
    Meets pass P (item :: items) ↔ P item ∨ pass item ∧ Meets pass P items := by
  constructor
  · rintro ⟨front, found, rest, hitems, hpass, hfound⟩
    cases front with
    | nil =>
      obtain ⟨rfl, rfl⟩ := List.cons.inj hitems
      exact .inl hfound
    | cons first front =>
      obtain ⟨rfl, rfl⟩ := List.cons.inj hitems
      exact .inr ⟨hpass _ (by simp), front, found, rest, rfl,
        fun other hother => hpass other (by simp [hother]), hfound⟩
  · rintro (hitem | ⟨hitem, front, found, rest, rfl, hpass, hfound⟩)
    · exact ⟨[], item, items, rfl, by simp, hitem⟩
    · refine ⟨item :: front, found, rest, rfl, ?_, hfound⟩
      intro other hother
      rcases List.mem_cons.mp hother with rfl | hother
      · exact hitem
      · exact hpass other hother

/-- A loop that knows by the item alone whether it goes on, stops or fails, for items that
are in order. -/
structure Decides (step : σ → α → Progress ε σ) (valid stops fails : α → Prop) : Prop where
  stop : ∀ state item, valid item → stops item → ∃ last, step state item = .stop last
  fail : ∀ state item, valid item → fails item → ∃ error, step state item = .fail error
  next : ∀ state item, valid item → ¬ stops item → ¬ fails item →
    ∃ second, step state item = .next second

/-- Such a loop stops, or fails, at the first item where it does not go on. -/
theorem Decides.loop_iff {valid stops fails : α → Prop} (h : Decides step valid stops fails)
    {items : List α} (hvalid : ∀ item ∈ items, valid item) (state : σ) :
    ((∃ last, loop step items state = .ok (last, false)) ↔
        Meets (fun item => ¬ stops item ∧ ¬ fails item) stops items) ∧
      ((∃ error, loop step items state = .error error) ↔
        Meets (fun item => ¬ stops item ∧ ¬ fails item) fails items) := by
  induction items generalizing state with
  | nil => simp [loop, not_meets_nil]
  | cons item items ih =>
    have hitem := hvalid item (by simp)
    unfold loop
    rw [meets_cons, meets_cons]
    by_cases hstops : stops item
    · obtain ⟨last, hstep⟩ := h.stop state item hitem hstops
      have hfails : ¬ fails item := by
        intro hfails
        obtain ⟨error, hfail⟩ := h.fail state item hitem hfails
        simp [hstep] at hfail
      simp [hstep, hstops, hfails]
    · by_cases hfails : fails item
      · obtain ⟨error, hstep⟩ := h.fail state item hitem hfails
        simp [hstep, hstops, hfails]
      · obtain ⟨second, hstep⟩ := h.next state item hitem hstops hfails
        simpa [hstep, hstops, hfails] using
          ih (fun other hother => hvalid other (by simp [hother])) second

end Loops

end WFA
