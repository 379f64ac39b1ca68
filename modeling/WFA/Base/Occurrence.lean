-- SUMMARY: Searching a text for a word, and why a word with its mark only in front cannot straddle pieces.
import WFA.Base.Text

/-!
# Occurrences of a word

`findText` is the search of `std::string_view::find`. A word is *marked* when it
starts with a byte that it has nowhere else. A marked word is found in a text
made of pieces only where it stands inside one piece or where a piece starts
with the mark, so a search passes over the pieces one by one.
-/

namespace WFA.Text

/-- The first position at which `word` occurs, `none` for `npos`. -/
def findText (word : Text) : Text → Option Nat
  | [] => if word.isEmpty then some 0 else none
  | b :: t => if word.isPrefixOf (b :: t) then some 0 else (findText word t).map (· + 1)

theorem findText_here {word t : Text} (h : word <+: t) : findText word t = some 0 := by
  cases t with
  | nil =>
    obtain rfl : word = [] := List.prefix_nil.mp h
    rfl
  | cons b t => simp [findText, List.isPrefixOf_iff_prefix.mpr h]

/-- The word starts nowhere in `a`, also where it would end in `t`. -/
def Passed (word a t : Text) : Prop :=
  ∀ i < a.length, ¬ word <+: (a ++ t).drop i

section Passing

variable {word a b t : Text} {c : Byte}

theorem findText_passed (h : Passed word a t) :
    findText word (a ++ t) = (findText word t).map (a.length + ·) := by
  induction a with
  | nil => simp
  | cons x a ih =>
    have hhere : ¬ word <+: x :: (a ++ t) := by simpa using h 0 (by simp)
    have hrest : Passed word a t := by
      intro i hi
      simpa using h (i + 1) (by simpa using hi)
    have hnot : word.isPrefixOf (x :: (a ++ t)) = false := by
      rw [← Bool.not_eq_true, List.isPrefixOf_iff_prefix]
      exact hhere
    rw [List.cons_append, findText, hnot, ih hrest]
    cases findText word t with
    | none => simp
    | some i =>
      simp
      omega

theorem findText_passed_nil (hword : word ≠ []) (h : Passed word a []) : findText word a = none := by
  have hend : findText word [] = none := by simp [findText, hword]
  have hall := findText_passed h
  rwa [List.append_nil, hend, Option.map_none] at hall

theorem passed_nil : Passed word [] t := by
  intro i hi
  simp at hi

theorem Passed.append (ha : Passed word a (b ++ t)) (hb : Passed word b t) :
    Passed word (a ++ b) t := by
  intro i hi
  rw [List.append_assoc]
  cases Nat.lt_or_ge i a.length with
  | inl hlt => exact ha i hlt
  | inr hge =>
    rw [List.drop_append, List.drop_eq_nil_of_le hge, List.nil_append]
    exact hb (i - a.length) (by simp only [List.length_append] at hi; omega)

/-- The word starts with `c` and has no other `c`. -/
def Marked (c : Byte) (word : Text) : Prop :=
  ∃ body, word = c :: body ∧ c ∉ body

theorem Marked.head (hword : Marked c word) {s : Text} (h : word <+: s) : s.head? = some c := by
  obtain ⟨body, rfl, -⟩ := hword
  obtain ⟨rest, rfl⟩ := h
  simp

theorem Marked.ne_nil (hword : Marked c word) : word ≠ [] := by
  obtain ⟨body, rfl, -⟩ := hword
  simp

theorem passed_of_not_mem (hword : Marked c word) (ha : c ∉ a) : Passed word a t := by
  intro i hi hstarts
  have hhead := hword.head hstarts
  rw [List.drop_append_of_le_length (by omega), List.drop_eq_getElem_cons hi] at hhead
  have hmem : a[i] ∈ a := List.getElem_mem hi
  simp only [List.cons_append, List.head?_cons, Option.some.injEq] at hhead
  exact ha (hhead ▸ hmem)

/-- A piece that starts with the mark and has no other one: only its start
counts. -/
theorem passed_piece (hword : Marked c word) {q : Text} (hq : c ∉ q)
    (hhere : ¬ word <+: (c :: q) ++ t) : Passed word (c :: q) t := by
  intro i hi
  cases i with
  | zero => exact hhere
  | succ i => simpa using passed_of_not_mem (t := t) hword hq i (by simpa using hi)

/-- The word is too long for a piece that is followed by the mark. -/
theorem Marked.prefix_piece (hword : Marked c word) {s : Text} (hs : s ≠ [])
    (ht : t = [] ∨ t.head? = some c) (h : word <+: s ++ t) : word <+: s := by
  obtain ⟨body, rfl, hbody⟩ := hword
  cases ht with
  | inl ht => rwa [ht, List.append_nil] at h
  | inr ht =>
    cases s with
    | nil => exact absurd rfl hs
    | cons x s =>
      rw [List.cons_append, List.cons_prefix_cons] at h
      rw [List.cons_prefix_cons]
      refine ⟨h.1, ?_⟩
      rcases List.prefix_or_prefix_of_prefix h.2 (List.prefix_append s t) with hin | ⟨tail, rfl⟩
      · exact hin
      · have htail : tail <+: t := (List.prefix_append_right_inj s).mp h.2
        cases tail with
        | nil => simp
        | cons y tail =>
          obtain ⟨rest, rfl⟩ := htail
          obtain rfl : y = c := by simpa using ht
          exact absurd (by simp) hbody

/-- A piece in which the word does not occur, followed by the mark. -/
theorem passed_raw (hword : Marked c word) (ha : ¬ word <:+: a) (ht : t = [] ∨ t.head? = some c) :
    Passed word a t := by
  intro i hi hstarts
  rw [List.drop_append_of_le_length (by omega)] at hstarts
  have hne : a.drop i ≠ [] := by
    intro hnil
    have := congrArg List.length hnil
    simp only [List.length_drop, List.length_nil] at this
    omega
  exact ha ((hword.prefix_piece hne ht hstarts).isInfix.trans (List.drop_suffix i a).isInfix)

/-- Two words neither of which starts the other. -/
theorem not_prefix_append {other : Text} (h : ¬ word <+: other) (h' : ¬ other <+: word) :
    ¬ word <+: other ++ t := by
  intro hstarts
  rcases List.prefix_or_prefix_of_prefix hstarts (List.prefix_append other t) with hin | hin
  · exact h hin
  · exact h' hin

end Passing

end WFA.Text
