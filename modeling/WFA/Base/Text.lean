-- SUMMARY: Byte strings: ranges, searching for a byte, cutting at a byte, and closing brackets.
import Mathlib

/-!
# Byte strings

Text is a list of bytes. An iterator into a text is a position, and a range is a
pair of positions. This file has the few operations on ranges that scanners are
written with, and the lemmas that read them as equations on lists.
-/

namespace WFA

abbrev Byte := UInt8

abbrev Text := List Byte

instance : Coe Char Byte := ⟨Char.toUInt8⟩

instance : Coe String Text := ⟨fun s => s.toList.map Char.toUInt8⟩

namespace Text

/-! ## Ranges -/

/-- The bytes of the range `[first, last)`. -/
def slice (t : Text) (first last : Nat) : Text :=
  (t.drop first).take (last - first)

/-- A range that lies inside a text is the part between its two ends. -/
theorem slice_eq {t a b c : Text} {first last : Nat} (ht : t = a ++ (b ++ c))
    (hfirst : first = a.length) (hlast : last = a.length + b.length) :
    slice t first last = b := by
  subst ht hfirst hlast
  simp [slice]

/-! ## Searching for a byte -/

/-- The offset of the first `c`, or the length when there is none. -/
def indexOf (c : Byte) (t : Text) : Nat :=
  t.findIdx (· == c)

theorem indexOf_of_not_mem {c : Byte} {t : Text} (h : c ∉ t) : indexOf c t = t.length := by
  apply List.findIdx_eq_length_of_false
  intro b hb
  simp only [beq_eq_false_iff_ne]
  rintro rfl
  exact h hb

theorem indexOf_append {c : Byte} {a b : Text} (h : c ∉ a) : indexOf c (a ++ c :: b) = a.length := by
  have hlen : a.findIdx (· == c) = a.length := indexOf_of_not_mem h
  simp [indexOf, List.findIdx_append, hlen, List.findIdx_cons]

/-! ## Cutting at a byte -/

/-- The part before the first `c` and, when there is one, the part after it. -/
def cut (c : Byte) : Text → Text × Option Text
  | [] => ([], none)
  | b :: t => if b == c then ([], some t) else (b :: (cut c t).1, (cut c t).2)

theorem cut_of_not_mem {c : Byte} {t : Text} (h : c ∉ t) : cut c t = (t, none) := by
  induction t with
  | nil => rfl
  | cons b t ih =>
    rw [List.mem_cons, not_or] at h
    have hb : (b == c) = false := by simpa using fun hbc => h.1 hbc.symm
    simp [cut, hb, ih h.2]

theorem cut_append {c : Byte} {a b : Text} (h : c ∉ a) : cut c (a ++ c :: b) = (a, some b) := by
  induction a with
  | nil => simp [cut]
  | cons x a ih =>
    rw [List.mem_cons, not_or] at h
    have hx : (x == c) = false := by simpa using fun hxc => h.1 hxc.symm
    simp [cut, hx, ih h.2]

/-- Every text either has no `c` or is cut at its first one. -/
theorem mem_cases (c : Byte) (t : Text) : c ∉ t ∨ ∃ a b, t = a ++ c :: b ∧ c ∉ a := by
  induction t with
  | nil => exact .inl (by simp)
  | cons x t ih =>
    by_cases hx : x = c
    · subst hx
      exact .inr ⟨[], t, rfl, by simp⟩
    · rcases ih with h | ⟨a, b, rfl, h⟩
      · exact .inl (by simp [Ne.symm hx, h])
      · exact .inr ⟨x :: a, b, rfl, by simp [Ne.symm hx, h]⟩

theorem cut_length {c : Byte} {t key tail : Text} (h : cut c t = (key, some tail)) :
    t.length = key.length + 1 + tail.length := by
  rcases mem_cases c t with hmem | ⟨a, b, rfl, hmem⟩
  · rw [cut_of_not_mem hmem] at h
    simp at h
  · rw [cut_append hmem] at h
    simp only [Prod.mk.injEq, Option.some.injEq] at h
    obtain ⟨rfl, rfl⟩ := h
    simp
    omega

theorem cut_rest_length (c : Byte) (t : Text) : ((cut c t).2.getD []).length ≤ t.length := by
  cases h : cut c t with
  | mk key rest =>
    cases rest with
    | none => simp
    | some rest =>
      have := cut_length h
      simp only [Option.getD_some]
      omega

theorem splitOn_of_not_mem {c : Byte} {t : Text} (h : c ∉ t) : t.splitOn c = [t] := by
  apply List.splitOnP_eq_singleton
  intro b hb
  simp only [beq_eq_false_iff_ne]
  rintro rfl
  exact h hb

theorem splitOn_append {c : Byte} {a b : Text} (h : c ∉ a) :
    (a ++ c :: b).splitOn c = a :: b.splitOn c := by
  have ha : a.splitOnP (· == c) = [a] := splitOn_of_not_mem h
  have hsplit : (a ++ c :: b).splitOnP (· == c) = a.splitOnP (· == c) ++ b.splitOnP (· == c) :=
    List.splitOnP_append_cons a b (by simp)
  simpa [List.splitOn, ha] using hsplit

/-! ## Closing brackets -/

/-- Scan for the bracket that closes at nesting `depth`. The scan starts at `-1`
in front of an opening bracket, which takes the depth to `0`. -/
def closing (opening close : Byte) : Int → Text → Option Nat
  | _, [] => none
  | depth, b :: t =>
    let depth := if b == opening then depth + 1 else depth
    if b == close then
      if depth == 0 then some 0 else (closing opening close (depth - 1) t).map (· + 1)
    else
      (closing opening close depth t).map (· + 1)

theorem closing_cons_other {o c b : Byte} {depth : Int} {t : Text} (ho : b ≠ o) (hc : b ≠ c) :
    closing o c depth (b :: t) = (closing o c depth t).map (· + 1) := by
  simp [closing, ho, hc]

theorem closing_cons_opening {o c : Byte} {depth : Int} {t : Text} (hoc : o ≠ c) :
    closing o c depth (o :: t) = (closing o c (depth + 1) t).map (· + 1) := by
  simp [closing, hoc]

theorem closing_cons_close {o c : Byte} {depth : Int} {t : Text} (hoc : o ≠ c) :
    closing o c depth (c :: t) =
      if depth = 0 then some 0 else (closing o c (depth - 1) t).map (· + 1) := by
  simp [closing, hoc.symm]

/-- A closing position is a position of the closing bracket. -/
theorem closing_spec {o c : Byte} {depth : Int} {t : Text} {k : Nat} (hoc : o ≠ c)
    (h : closing o c depth t = some k) : ∃ a b, t = a ++ c :: b ∧ a.length = k := by
  induction t generalizing depth k with
  | nil => simp [closing] at h
  | cons x t ih =>
    have tail : ∀ {d : Int}, (closing o c d t).map (· + 1) = some k →
        ∃ a b, x :: t = a ++ c :: b ∧ a.length = k := by
      intro d hd
      obtain ⟨j, hj, rfl⟩ := Option.map_eq_some_iff.mp hd
      obtain ⟨a, b, rfl, rfl⟩ := ih hj
      exact ⟨x :: a, b, rfl, rfl⟩
    by_cases hc : x = c
    · subst hc
      rw [closing_cons_close hoc] at h
      split at h
      · exact ⟨[], t, rfl, by simpa using h⟩
      · exact tail h
    · by_cases ho : x = o
      · subst ho
        rw [closing_cons_opening hoc] at h
        exact tail h
      · rw [closing_cons_other ho hc] at h
        exact tail h

theorem closing_lt {o c : Byte} {depth : Int} {t : Text} {k : Nat} (hoc : o ≠ c)
    (h : closing o c depth t = some k) : k < t.length := by
  obtain ⟨a, b, rfl, rfl⟩ := closing_spec hoc h
  simp

/-- What stands behind the closing bracket does not matter. -/
theorem closing_take {o c : Byte} {depth : Int} {t : Text} {k : Nat} (hoc : o ≠ c) :
    closing o c depth t = some k ↔
      k < t.length ∧ closing o c depth (t.take (k + 1)) = some k := by
  induction t generalizing depth k with
  | nil => simp [closing]
  | cons x t ih =>
    have tail : ∀ {d : Int}, (closing o c d t).map (· + 1) = some k ↔
        k < (x :: t).length ∧ (closing o c d (t.take k)).map (· + 1) = some k := by
      intro d
      cases k with
      | zero => simp
      | succ k => simp [ih]
    rw [List.take_succ_cons]
    by_cases hc : x = c
    · subst hc
      rw [closing_cons_close hoc, closing_cons_close hoc]
      split
      · constructor
        · intro h
          have hk : k = 0 := by simpa [eq_comm] using h
          simp [hk]
        · exact fun h => h.2
      · exact tail
    · by_cases ho : x = o
      · subst ho
        rw [closing_cons_opening hoc, closing_cons_opening hoc]
        exact tail
      · rw [closing_cons_other ho hc, closing_cons_other ho hc]
        exact tail

/-- The bracket the text starts with is closed by its last byte. -/
def Closed (o c : Byte) (t : Text) : Prop :=
  t.head? = some o ∧ closing o c (-1) t = some (t.length - 1)

/-- The bracket the text starts with is not closed in it. -/
def Unclosed (o c : Byte) (t : Text) : Prop :=
  t.head? = some o ∧ closing o c (-1) t = none

theorem Closed.closing_append {o c : Byte} {block : Text} (after : Text) (hoc : o ≠ c)
    (h : Closed o c block) : closing o c (-1) (block ++ after) = some (block.length - 1) := by
  have hlt := closing_lt hoc h.2
  have hpos : block.length - 1 + 1 = block.length := by omega
  rw [closing_take hoc, hpos, List.take_left' rfl]
  exact ⟨by simp only [List.length_append]; omega, h.2⟩

/-- A closing bracket cuts a text into the block it closes and the rest. -/
theorem closed_take {o c : Byte} {t : Text} {k : Nat} (hoc : o ≠ c) (hhead : t.head? = some o)
    (h : closing o c (-1) t = some k) : Closed o c (t.take (k + 1)) := by
  have hk := (closing_take hoc).mp h
  refine ⟨by simpa [List.head?_take] using hhead, ?_⟩
  rw [hk.2, List.length_take]
  congr 1
  omega

/-- A text is neutral for a pair of brackets when a scan at any depth passes
over it: it closes everything it opens and nothing else. -/
def Neutral (o c : Byte) (t : Text) : Prop :=
  ∀ (depth : Int) (rest : Text), 0 ≤ depth →
    closing o c depth (t ++ rest) = (closing o c depth rest).map (· + t.length)

theorem neutral_nil (o c : Byte) : Neutral o c [] := by
  intro depth rest _
  simp

theorem Neutral.append {o c : Byte} {s t : Text} (hs : Neutral o c s) (ht : Neutral o c t) :
    Neutral o c (s ++ t) := by
  intro depth rest hd
  rw [List.append_assoc, hs depth (t ++ rest) hd, ht depth rest hd, Option.map_map]
  congr 1
  funext n
  simp only [Function.comp_apply, List.length_append]
  omega

theorem neutral_of_not_mem {o c : Byte} {t : Text} (ho : o ∉ t) (hc : c ∉ t) : Neutral o c t := by
  induction t with
  | nil => exact neutral_nil o c
  | cons b t ih =>
    rw [List.mem_cons, not_or] at ho hc
    intro depth rest hd
    rw [List.cons_append, closing_cons_other (Ne.symm ho.1) (Ne.symm hc.1),
      ih ho.2 hc.2 depth rest hd, Option.map_map]
    rfl

/-- The bracket in front of a neutral text is closed by the one behind it. -/
theorem closing_neutral {o c : Byte} {t rest : Text} {depth : Int} (hoc : o ≠ c)
    (ht : Neutral o c t) (hd : -1 ≤ depth) :
    closing o c depth (o :: (t ++ c :: rest)) =
      if depth = -1 then some (t.length + 1)
      else (closing o c depth rest).map (· + (t.length + 2)) := by
  rw [closing_cons_opening hoc, ht (depth + 1) (c :: rest) (by omega), closing_cons_close hoc]
  by_cases h : depth = -1
  · subst h
    simp
  · have hne : ¬ depth + 1 = 0 := by omega
    rw [if_neg hne, if_neg h, Option.map_map, Option.map_map, add_sub_cancel_right]
    congr 1
    funext n
    simp only [Function.comp_apply]
    omega

theorem Neutral.bracket {o c : Byte} {t : Text} (hoc : o ≠ c) (ht : Neutral o c t) :
    Neutral o c (o :: (t ++ [c])) := by
  intro depth rest hd
  have happ : o :: (t ++ [c]) ++ rest = o :: (t ++ c :: rest) := by simp
  have hne : ¬ depth = -1 := by omega
  rw [happ, closing_neutral hoc ht (by omega), if_neg hne]
  simp

end Text

end WFA
