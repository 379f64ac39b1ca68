-- SUMMARY: Pairs of an opening and a closing word: where the first opening word is closed, and where a scan runs over the end.
import WFA.Base.Iterator
import WFA.Base.Occurrence

/-!
# Nested pairs of words

The occurrences of an opening and a closing word in a text nest like brackets. A
closing word closes the pair at which it makes the two counts equal. Both words
are marked by one byte, so occurrences do not overlap. A scan that compares a
word only as far as the text goes takes an unfinished word at the end for a
whole one, and then moves past the end.
-/

namespace WFA.Text

/-! ## Counting -/

/-- How often the word starts before the position `n`. -/
def seen (word t : Text) (n : Nat) : Nat :=
  Nat.count (fun i => word <+: t.drop i) n

theorem seen_cons (word t : Text) (b : Byte) (n : Nat) :
    seen word (b :: t) (n + 1) = seen word t n + if word <+: b :: t then 1 else 0 := by
  simp [seen, Nat.count_succ']

theorem seen_one (word t : Text) : seen word t 1 = if word <+: t then 1 else 0 := by
  simp [seen, Nat.count_succ]

theorem seen_eq_zero {word t : Text} {n : Nat} (h : ∀ i, ¬ word <+: t.drop i) : seen word t n = 0 := by
  simp [seen, h]

/-! ## Pairs -/

/-- Two words that one byte marks and neither of which starts the other. -/
structure TagPair (mark : Byte) (o c : Text) : Prop where
  opening : Marked mark o
  closing : Marked mark c
  opening_not_front : ¬ o <+: c
  closing_not_front : ¬ c <+: o

/-- The closing word at `i` is the first at which as many pairs are closed as
were opened, of which `depth + 1` before the text. -/
def ClosesFrom (o c : Text) (depth : Int) (t : Text) (i : Nat) : Prop :=
  c <+: t.drop i ∧ (seen c t (i + 1) : Int) = seen o t (i + 1) + depth + 1

/-- At the closing word at `i`, as many closing as opening words have been seen. -/
def ClosesAt (o c : Text) (t : Text) (i : Nat) : Prop :=
  c <+: t.drop i ∧ seen c t (i + 1) = seen o t (i + 1)

instance (o c t : Text) (i : Nat) : Decidable (ClosesAt o c t i) :=
  inferInstanceAs (Decidable (_ ∧ _))

/-- The text ends inside the word. -/
def EndsInside (word t : Text) : Prop :=
  ∃ i < t.length, t.drop i <+: word ∧ t.drop i ≠ word

instance (word t : Text) : Decidable (EndsInside word t) :=
  inferInstanceAs (Decidable (∃ i < t.length, _))

/-- A scan that compares a word as far as the text goes runs over the end: the
text ends inside or directly behind an opening word, or inside a closing word
where one pair is open. -/
def Overrun (o c : Text) (depth : Int) (t : Text) : Prop :=
  EndsInside o t ∨ o <:+ t ∨
    (EndsInside c t ∧ (seen o t t.length : Int) + depth = seen c t t.length)

/-- What a scan comes to: how many bytes are left behind the closing word, none
when there is no such word, or a trap. -/
inductive Searched (o c : Text) (depth : Int) (t : Text) : Exec Nat → Prop where
  | found {i : Nat} (h : IsLeast {i | ClosesFrom o c depth t i} i) :
      Searched o c depth t (.ok (t.length - (i + c.length)))
  | ended (h : ∀ i, ¬ ClosesFrom o c depth t i) (hin : ¬ Overrun o c depth t) :
      Searched o c depth t (.ok 0)
  | overrun (h : ∀ i, ¬ ClosesFrom o c depth t i) (hover : Overrun o c depth t) :
      Searched o c depth t (.error .outOfRange)

section Scan

variable {mark b : Byte} {o c t a : Text} {depth : Int} {left : Exec Nat}

/-- How the depth changes at the start of a text. -/
def shift (o c t : Text) : Int :=
  (if o <+: t then 1 else 0) - (if c <+: t then 1 else 0)

theorem closesFrom_zero :
    ClosesFrom o c depth t 0 ↔ c <+: t ∧ depth + (if o <+: t then 1 else 0) = 0 := by
  rw [ClosesFrom, List.drop_zero, zero_add, seen_one, seen_one]
  apply and_congr_right
  intro hc
  rw [if_pos hc]
  split <;> omega

theorem closesFrom_succ {i : Nat} :
    ClosesFrom o c depth (b :: t) (i + 1) ↔ ClosesFrom o c (depth + shift o c (b :: t)) t i := by
  simp only [ClosesFrom, List.drop_succ_cons, seen_cons, shift]
  apply and_congr_right
  intro _
  split <;> split <;> push_cast <;> omega

theorem closesAt_iff {i : Nat} : ClosesFrom o c (-1) t i ↔ ClosesAt o c t i := by
  apply and_congr_right
  intro _
  omega

theorem endsInside_cons {word : Text} :
    EndsInside word (b :: t) ↔ (b :: t <+: word ∧ b :: t ≠ word) ∨ EndsInside word t := by
  constructor
  · rintro ⟨i, hi, hcut⟩
    cases i with
    | zero => exact .inl hcut
    | succ i => exact .inr ⟨i, by simpa using hi, hcut⟩
  · rintro (hcut | ⟨i, hi, hcut⟩)
    · exact ⟨0, by simp, hcut⟩
    · exact ⟨i + 1, by simpa using hi, hcut⟩

/-- The end is reached from the next byte on, unless a word is cut short here. -/
theorem overrun_cons (ho : ¬ b :: t <+: o) (hc : ¬ (b :: t <+: c ∧ b :: t ≠ c)) :
    Overrun o c depth (b :: t) ↔ Overrun o c (depth + shift o c (b :: t)) t := by
  have hself : o ≠ b :: t := by
    rintro rfl
    exact ho (List.prefix_refl _)
  have hcount : (seen o (b :: t) (t.length + 1) : Int) + depth = seen c (b :: t) (t.length + 1) ↔
      (seen o t t.length : Int) + (depth + shift o c (b :: t)) = seen c t t.length := by
    simp only [seen_cons, shift]
    split <;> split <;> push_cast <;> omega
  simp only [Overrun, endsInside_cons, List.suffix_cons_iff, ho, hc, hself, false_and, false_or,
    List.length_cons, hcount]

theorem not_endsInside_of_not_mem (hword : Marked mark a) (h : mark ∉ t) : ¬ EndsInside a t := by
  rintro ⟨i, hi, hcut, -⟩
  obtain ⟨body, rfl, -⟩ := hword
  rw [List.drop_eq_getElem_cons hi, List.cons_prefix_cons] at hcut
  exact h (hcut.1 ▸ List.getElem_mem hi)

theorem not_prefix_of_not_mem (hword : Marked mark a) (h : mark ∉ t) : ¬ a <+: t := by
  obtain ⟨body, rfl, -⟩ := hword
  intro hstarts
  exact h (hstarts.subset (by simp))

/-- A word starts nowhere in a text without its mark. -/
theorem not_prefix_drop (hword : Marked mark a) (h : mark ∉ t) (i : Nat) : ¬ a <+: t.drop i :=
  not_prefix_of_not_mem hword fun hmem => h (List.mem_of_mem_drop hmem)

namespace Searched

/-- One byte at which no pair is closed and no word is cut short. -/
theorem step (hclose : ¬ ClosesFrom o c depth (b :: t) 0) (ho : ¬ b :: t <+: o)
    (hc : ¬ (b :: t <+: c ∧ b :: t ≠ c))
    (h : Searched o c (depth + shift o c (b :: t)) t left) : Searched o c depth (b :: t) left := by
  have hnone : (∀ i, ¬ ClosesFrom o c (depth + shift o c (b :: t)) t i) →
      ∀ i, ¬ ClosesFrom o c depth (b :: t) i := by
    intro hall i
    cases i with
    | zero => exact hclose
    | succ i => exact fun hi => hall i (closesFrom_succ.mp hi)
  cases h with
  | @found i h =>
    have hleft : t.length - (i + c.length) = (b :: t).length - (i + 1 + c.length) := by
      simp only [List.length_cons]
      omega
    rw [hleft]
    refine .found ⟨closesFrom_succ.mpr h.1, ?_⟩
    intro j hj
    cases j with
    | zero => exact absurd hj hclose
    | succ j => exact Nat.succ_le_succ (h.2 (closesFrom_succ.mp hj))
  | ended h hin => exact .ended (hnone h) (mt (overrun_cons ho hc).mp hin)
  | overrun h hover => exact .overrun (hnone h) ((overrun_cons ho hc).mpr hover)

/-- Bytes without the mark are passed over. -/
theorem pass (hpair : TagPair mark o c) (ha : mark ∉ a) (h : Searched o c depth t left) :
    Searched o c depth (a ++ t) left := by
  induction a with
  | nil => exact h
  | cons b a ih =>
    rw [List.mem_cons, not_or] at ha
    have hhead : ∀ {word}, Marked mark word → ¬ word <+: b :: (a ++ t) ∧ ¬ b :: (a ++ t) <+: word := by
      rintro word ⟨body, rfl, -⟩
      rw [List.cons_prefix_cons, List.cons_prefix_cons]
      exact ⟨fun hstarts => ha.1 hstarts.1, fun hstarts => ha.1 hstarts.1.symm⟩
    have ho := hhead hpair.opening
    have hc := hhead hpair.closing
    have hshift : shift o c (b :: (a ++ t)) = 0 := by simp [shift, ho.1, hc.1]
    rw [List.cons_append]
    refine step (fun hclose => hc.1 (closesFrom_zero.mp hclose).1) ho.2
      (fun hcut => hc.2 hcut.1) ?_
    rw [hshift, add_zero]
    exact ih ha.2

/-- A text without the mark is passed over to its end. -/
theorem of_not_mem (hpair : TagPair mark o c) (h : mark ∉ t) : Searched o c depth t (.ok 0) := by
  have hnil : Searched o c depth [] (.ok 0) := by
    obtain ⟨body, rfl, -⟩ := hpair.opening
    obtain ⟨body', rfl, -⟩ := hpair.closing
    refine .ended (fun i hi => ?_) ?_
    · have := hi.1
      simp at this
    · simp [Overrun, EndsInside]
  have hall := pass hpair h hnil
  rwa [List.append_nil] at hall

end Searched

end Scan

/-! ## The end of a pair -/

section Ends

variable {mark : Byte} {o c t : Text} {m n : Nat} {left : Exec Nat}

/-- Where the pair ends that the text starts with: behind the first closing word
at which the counts are equal, or at the end of the text. -/
def PairEnd (o c t : Text) (n : Nat) : Prop :=
  (∃ i, IsLeast {i | ClosesAt o c t i} i ∧ n = i + c.length) ∨
    ((∀ i, ¬ ClosesAt o c t i) ∧ n = t.length)

/-- The text ends inside or directly behind an opening word, or inside a closing
word where one more opening than closing words have been seen. -/
def CutShort (o c t : Text) : Prop :=
  EndsInside o t ∨ o <:+ t ∨
    (EndsInside c t ∧ seen o t t.length = seen c t t.length + 1)

instance (o c t : Text) : Decidable (CutShort o c t) :=
  inferInstanceAs (Decidable (_ ∨ _))

/-- The pair is closed, or the text does not end inside a word. -/
def Completes (o c t : Text) : Prop :=
  (∃ i, ClosesAt o c t i) ∨ ¬ CutShort o c t

theorem PairEnd.unique (hm : PairEnd o c t m) (hn : PairEnd o c t n) : m = n := by
  rcases hm with ⟨i, hi, rfl⟩ | ⟨hm, rfl⟩
  · rcases hn with ⟨j, hj, rfl⟩ | ⟨hn, -⟩
    · rw [hi.unique hj]
    · exact absurd hi.1 (hn i)
  · rcases hn with ⟨j, hj, -⟩ | ⟨-, rfl⟩
    · exact absurd hj.1 (hm j)
    · rfl

theorem PairEnd.le (hc : c ≠ []) (h : PairEnd o c t n) : n ≤ t.length := by
  rcases h with ⟨i, hi, rfl⟩ | ⟨-, rfl⟩
  · have hlen := hi.1.1.length_le
    have hpos := List.length_pos_of_ne_nil hc
    simp only [List.length_drop] at hlen
    omega
  · exact le_refl _

theorem overrun_iff : Overrun o c (-1) t ↔ CutShort o c t := by
  have hcount : (seen o t t.length : Int) + (-1) = seen c t t.length ↔
      seen o t t.length = seen c t t.length + 1 := by omega
  rw [Overrun, CutShort, hcount]

/-- A scan from the front of the opening word ends where the pair does, or runs
over the end. -/
theorem Searched.ends (h : Searched o c (-1) t left) :
    (Completes o c t ∧ ∃ n, PairEnd o c t n ∧ left = .ok (t.length - n)) ∨
      (¬ Completes o c t ∧ left = .error .outOfRange) := by
  have hset : {i | ClosesFrom o c (-1) t i} = {i | ClosesAt o c t i} :=
    Set.ext fun i => closesAt_iff
  cases h with
  | @found i h =>
    rw [hset] at h
    exact .inl ⟨.inl ⟨i, h.1⟩, _, .inl ⟨i, h, rfl⟩, rfl⟩
  | ended h hin =>
    have hnone : ∀ i, ¬ ClosesAt o c t i := fun i hi => h i (closesAt_iff.mpr hi)
    refine .inl ⟨.inr (mt overrun_iff.mpr hin), _, .inr ⟨hnone, rfl⟩, ?_⟩
    rw [Nat.sub_self]
  | overrun h hover =>
    refine .inr ⟨?_, rfl⟩
    rintro (⟨i, hi⟩ | hin)
    · exact h i (closesAt_iff.mpr hi)
    · exact hin (overrun_iff.mp hover)

end Ends

/-! ## The byte behind an opening word -/

/-- The text as a scan sees it that jumps over one byte more than the opening
word: a mark directly behind an opening word is masked. -/
def masked (mark : Byte) (o : Text) : Nat → Text → Text
  | _, [] => []
  | 0, b :: t => b :: masked mark o (if o <+: b :: t then o.length else 0) t
  | 1, b :: t => (if b = mark then mark + 1 else b) :: masked mark o 0 t
  | skip + 2, b :: t => b :: masked mark o (skip + 1) t

section Masked

variable {mark b : Byte} {o t a : Text}

theorem length_masked (skip : Nat) : (masked mark o skip t).length = t.length := by
  induction t generalizing skip with
  | nil => simp [masked]
  | cons b t ih =>
    match skip with
    | 0 => simp [masked, ih]
    | 1 => simp [masked, ih]
    | skip + 2 => simp [masked, ih]

theorem masked_cons (h : ¬ o <+: b :: t) :
    masked mark o 0 (b :: t) = b :: masked mark o 0 t := by
  simp [masked, h]

/-- Inside the opening word nothing is masked. -/
theorem masked_skip : masked mark o (a.length + 1) (a ++ t) = a ++ masked mark o 1 t := by
  induction a with
  | nil => rfl
  | cons x a ih => simp [masked, ih]

theorem masked_opening (ho : o ≠ []) :
    ∃ x, x ≠ mark ∧ masked mark o 0 (o ++ b :: t) = o ++ x :: masked mark o 0 t := by
  have hone : mark + 1 ≠ mark := by simp
  cases o with
  | nil => exact absurd rfl ho
  | cons y o =>
    have hstarts : y :: o <+: y :: (o ++ b :: t) := by simp
    refine ⟨if b = mark then mark + 1 else b, ?_, ?_⟩
    · split
      · exact hone
      · assumption
    · rw [List.cons_append, masked, if_pos hstarts, List.length_cons, masked_skip, masked]
      rfl

theorem masked_self (ho : o ≠ []) : masked mark o 0 o = o := by
  cases o with
  | nil => exact absurd rfl ho
  | cons y o =>
    have hskip : masked mark (y :: o) (o.length + 1) (o ++ []) = o ++ _ := masked_skip
    rw [List.append_nil] at hskip
    rw [masked, if_pos (List.prefix_refl _), List.length_cons, hskip]
    simp [masked]

/-- A text without the mark is seen as it is. -/
theorem masked_of_not_mem (hword : Marked mark o) (ha : mark ∉ a) :
    masked mark o 0 (a ++ t) = a ++ masked mark o 0 t := by
  induction a with
  | nil => rfl
  | cons x a ih =>
    rw [List.mem_cons, not_or] at ha
    have hnot : ¬ o <+: x :: (a ++ t) := by
      intro hstarts
      have hhead := hword.head hstarts
      exact ha.1 (by simpa [eq_comm] using hhead)
    rw [List.cons_append, masked_cons hnot, ih ha.2]
    rfl

/-- Nothing is masked when no opening word is followed by a mark. -/
theorem masked_eq_self (hword : Marked mark o)
    (h : ∀ i, o <+: t.drop i → t[i + o.length]? ≠ some mark) : masked mark o 0 t = t := by
  obtain ⟨n, hn⟩ : ∃ n, t.length ≤ n := ⟨_, le_refl _⟩
  induction n generalizing t with
  | zero =>
    obtain rfl : t = [] := List.length_eq_zero_iff.mp (Nat.le_zero.mp hn)
    rfl
  | succ n ih =>
    cases t with
    | nil => rfl
    | cons b t =>
      by_cases hstarts : o <+: b :: t
      · obtain ⟨s, hs⟩ := hstarts
        have hpos := List.length_pos_of_ne_nil hword.ne_nil
        rw [← hs] at h hn ⊢
        cases s with
        | nil =>
          rw [List.append_nil]
          exact masked_self hword.ne_nil
        | cons x s =>
          have hx : x ≠ mark := by simpa using h 0 (by simp)
          have hrest : masked mark o 0 s = s := by
            apply ih
            · intro i hi
              have hdrop : (o ++ x :: s).drop (o.length + 1 + i) = s.drop i := by
                rw [← List.drop_drop, ← List.drop_drop]
                simp
              have hnext := h (o.length + 1 + i) (by rwa [hdrop])
              rw [← List.getElem?_drop] at hnext ⊢
              rw [hdrop] at hnext
              exact hnext
            · simp only [List.length_append, List.length_cons] at hn
              omega
          cases o with
          | nil => simp at hpos
          | cons y o =>
            have hself : y :: o <+: y :: (o ++ x :: s) := by simp
            rw [List.cons_append, masked, if_pos hself, List.length_cons, masked_skip, masked,
              if_neg hx, hrest]
      · rw [masked_cons hstarts, ih]
        · intro i hi
          simpa [Nat.succ_add] using h (i + 1) (by simpa using hi)
        · simpa using hn

end Masked

end WFA.Text
