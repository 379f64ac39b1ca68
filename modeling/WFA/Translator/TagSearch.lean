-- SUMMARY: `tagSearch` finds the closing tag of a block, unless the text ends inside a tag.
import WFA.Base.Nesting
import WFA.Translator.Print

/-!
# The search for the closing tag

`tagSearch` compares each tag only as far as the text goes, so an unfinished tag at
the end counts as a whole one: the iterator is then moved past the end. Elsewhere
the search stops behind the closing tag at which the two counts are equal.
-/

namespace WFA

open Text Node

/-- The opening and the closing tag of a kind of blocks. -/
theorem tagPair (type : BlockType) : TagPair '<' type.tagOpen type.tagClose where
  opening := marked_tags _ (tagOpen_mem type)
  closing := marked_tags _ (tagClose_mem type)
  opening_not_front := by cases type <;> decide
  closing_not_front := by cases type <;> decide

/-- The comparison succeeds with a whole tag and with an unfinished one. -/
theorem startsTag_eq {tag t : Text} : startsTag tag t = true ↔ tag <+: t ∨ t <+: tag := by
  rw [startsTag, List.isPrefixOf_iff_prefix]
  constructor
  · intro h
    rcases Nat.le_total tag.length t.length with hle | hle
    · rw [List.take_of_length_le hle] at h
      exact .inl h
    · have hall : tag.take t.length = t := h.eq_of_length (by simpa using hle)
      exact .inr (hall ▸ List.take_prefix _ _)
  · rintro (h | h)
    · exact (List.take_prefix _ _).trans h
    · rw [← List.prefix_iff_eq_take.mp h]

section Search

variable {type : BlockType} {b : Byte} {t : Text} {depth : Int}

/-- The steps of the search at a byte that is not jumped over. -/
theorem tagSearchFrom_other (ho : ¬ type.tagOpen <+: b :: t ∧ ¬ b :: t <+: type.tagOpen)
    (hc : ¬ type.tagClose <+: b :: t ∧ ¬ b :: t <+: type.tagClose) :
    tagSearchFrom type.tagOpen type.tagClose 0 depth (b :: t) =
      tagSearchFrom type.tagOpen type.tagClose 0 depth t := by
  have hopen : ¬ startsTag type.tagOpen (b :: t) = true := by simp [startsTag_eq, ho]
  have hclose : ¬ startsTag type.tagClose (b :: t) = true := by simp [startsTag_eq, hc]
  rw [tagSearchFrom, if_neg hopen, if_neg hclose]

theorem tagSearchFrom_inner (hdepth : depth ≠ 0)
    (ho : ¬ type.tagOpen <+: b :: t ∧ ¬ b :: t <+: type.tagOpen)
    (hc : type.tagClose <+: b :: t ∨ b :: t <+: type.tagClose) :
    tagSearchFrom type.tagOpen type.tagClose 0 depth (b :: t) =
      tagSearchFrom type.tagOpen type.tagClose 0 (depth - 1) t := by
  have hopen : ¬ startsTag type.tagOpen (b :: t) = true := by simp [startsTag_eq, ho]
  rw [tagSearchFrom, if_neg hopen, if_pos (startsTag_eq.mpr hc), if_neg hdepth]

/-- An opening tag with nothing behind it, or an unfinished one: the jump goes
past the end. -/
theorem tagSearchFrom_cut (h : b :: t <+: type.tagOpen) :
    tagSearchFrom type.tagOpen type.tagClose 0 depth (b :: t) = .error .outOfRange := by
  have hjump : ∀ (rest : Text) (skip : Nat) (depth : Int), rest.length < skip →
      tagSearchFrom type.tagOpen type.tagClose skip depth rest = .error .outOfRange := by
    intro rest
    induction rest with
    | nil =>
      intro skip depth hskip
      obtain ⟨skip, rfl⟩ := Nat.exists_eq_succ_of_ne_zero (Nat.ne_of_gt hskip)
      rfl
    | cons x rest ih =>
      intro skip depth hskip
      obtain ⟨skip, rfl⟩ := Nat.exists_eq_succ_of_ne_zero (Nat.ne_of_gt (Nat.zero_lt_of_lt hskip))
      exact ih skip depth (by simpa using hskip)
  rw [tagSearchFrom, if_pos (startsTag_eq.mpr (.inr h))]
  exact hjump t _ _ h.length_le

/-- An unfinished closing tag where one block is open. -/
theorem tagSearchFrom_cut_close (ho : ¬ b :: t <+: type.tagOpen) (hc : b :: t <+: type.tagClose)
    (hne : b :: t ≠ type.tagClose) :
    tagSearchFrom type.tagOpen type.tagClose 0 0 (b :: t) = .error .outOfRange := by
  have hno : ¬ type.tagOpen <+: b :: t := fun h => (tagPair type).opening_not_front (h.trans hc)
  have hopen : ¬ startsTag type.tagOpen (b :: t) = true := by simp [startsTag_eq, hno, ho]
  have hlen : ¬ type.tagClose.length ≤ (b :: t).length := fun hle =>
    hne (hc.eq_of_length_le hle)
  rw [tagSearchFrom, if_neg hopen, if_pos (startsTag_eq.mpr (.inr hc)), if_pos rfl, if_neg hlen]

theorem tagSearchFrom_of_not_mem (h : ('<' : Byte) ∉ t) :
    tagSearchFrom type.tagOpen type.tagClose 0 depth t = .ok [] := by
  induction t with
  | nil => rfl
  | cons b t ih =>
    rw [List.mem_cons, not_or] at h
    have hhead : ∀ {word}, Marked '<' word → ¬ word <+: b :: t ∧ ¬ b :: t <+: word := by
      rintro word ⟨body, rfl, -⟩
      rw [List.cons_prefix_cons, List.cons_prefix_cons]
      exact ⟨fun hstarts => h.1 hstarts.1, fun hstarts => h.1 hstarts.1.symm⟩
    rw [tagSearchFrom_other (hhead (tagPair type).opening) (hhead (tagPair type).closing)]
    exact ih h.2

/-- The bytes behind the first of an unfinished tag have no `<`. -/
theorem not_mem_of_cut {word : Text} (hword : Marked '<' word) (h : b :: t <+: word) :
    ('<' : Byte) ∉ t := by
  obtain ⟨body, rfl, hbody⟩ := hword
  rw [List.cons_prefix_cons] at h
  exact fun hmem => hbody (h.2.subset hmem)

/-- A tag that does not start in the text with its jumped bytes masked. -/
theorem masked_prefix_iff {o word : Text} (ho : Marked '<' o) (hword : Marked '<' word)
    (hnot : ¬ o <+: b :: t) :
    (word <+: masked '<' o 0 (b :: t) ↔ word <+: b :: t) ∧
      (masked '<' o 0 (b :: t) <+: word ↔ b :: t <+: word) := by
  have hbody : ∀ (body t : Text), ('<' : Byte) ∉ body →
      (body <+: masked '<' o 0 t ↔ body <+: t) ∧ (masked '<' o 0 t <+: body ↔ t <+: body) := by
    intro body
    induction body with
    | nil =>
      intro t _
      have hnil : masked '<' o 0 t = [] ↔ t = [] := by
        rw [← List.length_eq_zero_iff, length_masked, List.length_eq_zero_iff]
      simp [hnil]
    | cons x body ih =>
      intro t hmem
      rw [List.mem_cons, not_or] at hmem
      cases t with
      | nil => simp [masked]
      | cons y t =>
        by_cases hy : y = x
        · subst hy
          have hno : ¬ o <+: y :: t := fun hstarts =>
            hmem.1 (by simpa [eq_comm] using ho.head hstarts)
          rw [masked_cons hno, List.cons_prefix_cons, List.cons_prefix_cons, List.cons_prefix_cons,
            List.cons_prefix_cons]
          simp [ih t hmem.2]
        · simp [masked, List.cons_prefix_cons, hy, Ne.symm hy]
  obtain ⟨body, rfl, hmem⟩ := hword
  rw [masked_cons hnot, List.cons_prefix_cons, List.cons_prefix_cons, List.cons_prefix_cons,
    List.cons_prefix_cons, (hbody body t hmem).1, (hbody body t hmem).2]
  exact ⟨Iff.rfl, Iff.rfl⟩

/-! ### The cases of the search -/

section Cases

variable {left : Exec Nat}

theorem searched_other (ho : ¬ type.tagOpen <+: b :: t ∧ ¬ b :: t <+: type.tagOpen)
    (hc : ¬ type.tagClose <+: b :: t ∧ ¬ b :: t <+: type.tagClose)
    (h : Searched type.tagOpen type.tagClose depth (masked '<' type.tagOpen 0 t) left) :
    Searched type.tagOpen type.tagClose depth (masked '<' type.tagOpen 0 (b :: t)) left := by
  have hpair := tagPair type
  have hopen := masked_prefix_iff hpair.opening hpair.opening ho.1
  have hclose := masked_prefix_iff hpair.opening hpair.closing ho.1
  rw [masked_cons ho.1] at hopen hclose ⊢
  refine .step ?_ ?_ ?_ ?_
  · exact fun hzero => hc.1 (hclose.1.mp (closesFrom_zero.mp hzero).1)
  · exact fun hcut => ho.2 (hopen.2.mp hcut)
  · exact fun hcut => hc.2 (hclose.2.mp hcut.1)
  · have hshift : shift type.tagOpen type.tagClose (b :: masked '<' type.tagOpen 0 t) = 0 := by
      simp [shift, hopen.1, hclose.1, ho.1, hc.1]
    rwa [hshift, add_zero]

/-- A closing tag inside. -/
theorem searched_close (hzero : depth ≠ 0)
    (ho : ¬ type.tagOpen <+: b :: t ∧ ¬ b :: t <+: type.tagOpen) (hc : type.tagClose <+: b :: t)
    (h : Searched type.tagOpen type.tagClose (depth - 1) (masked '<' type.tagOpen 0 t) left) :
    Searched type.tagOpen type.tagClose depth (masked '<' type.tagOpen 0 (b :: t)) left := by
  have hpair := tagPair type
  have hopen := masked_prefix_iff hpair.opening hpair.opening ho.1
  have hclose := masked_prefix_iff hpair.opening hpair.closing ho.1
  rw [masked_cons ho.1] at hopen hclose ⊢
  refine .step ?_ ?_ ?_ ?_
  · rw [closesFrom_zero, if_neg (mt hopen.1.mp ho.1), add_zero]
    exact fun hclosed => hzero hclosed.2
  · exact fun hcut => ho.2 (hopen.2.mp hcut)
  · rintro ⟨hcut, hne⟩
    exact hne (hcut.eq_of_length_le (hclose.1.mpr hc).length_le)
  · have hshift : shift type.tagOpen type.tagClose (b :: masked '<' type.tagOpen 0 t) = -1 := by
      simp [shift, hopen.1, hclose.1, ho.1, hc]
    rwa [hshift]

/-- The closing tag of the block. -/
theorem searched_found (ho : ¬ type.tagOpen <+: type.tagClose ++ t) :
    Searched type.tagOpen type.tagClose 0 (masked '<' type.tagOpen 0 (type.tagClose ++ t))
      ((tagSearchFrom type.tagOpen type.tagClose 0 0 (type.tagClose ++ t)).map List.length) := by
  have hpair := tagPair type
  rw [tagSearchFrom_close]
  obtain ⟨body, hbody, -⟩ := hpair.closing
  have hcons : type.tagClose ++ t = ('<' : Byte) :: (body ++ t) := by simp [hbody]
  rw [hcons] at ho ⊢
  have hopen := masked_prefix_iff hpair.opening hpair.opening ho
  have hclose := masked_prefix_iff hpair.opening hpair.closing ho
  have hstarts : type.tagClose <+: ('<' : Byte) :: (body ++ t) := hcons ▸ List.prefix_append _ _
  have hleft : t.length = (masked '<' type.tagOpen 0 (('<' : Byte) :: (body ++ t))).length -
      (0 + type.tagClose.length) := by
    rw [length_masked, ← hcons]
    simp
  have hclosed : ClosesFrom type.tagOpen type.tagClose 0
      (masked '<' type.tagOpen 0 (('<' : Byte) :: (body ++ t))) 0 := by
    rw [closesFrom_zero, if_neg (mt hopen.1.mp ho)]
    exact ⟨hclose.1.mpr hstarts, rfl⟩
  change Searched _ _ _ _ (.ok t.length)
  rw [hleft]
  exact .found ⟨hclosed, fun i _ => Nat.zero_le i⟩

/-- Nothing is closed in a tag that is cut short. -/
theorem not_closesFrom_cut {word : Text} (hword : Marked '<' word) (h : b :: t <+: word)
    (hc : ¬ type.tagClose <+: b :: t) (i : Nat) :
    ¬ ClosesFrom type.tagOpen type.tagClose depth (b :: t) i := by
  rintro ⟨hstarts, -⟩
  cases i with
  | zero => exact hc hstarts
  | succ i => exact not_prefix_drop (tagPair type).closing (not_mem_of_cut hword h) i hstarts

theorem searched_cut (ho : ¬ type.tagOpen <+: b :: t) (hcut : b :: t <+: type.tagOpen) :
    Searched type.tagOpen type.tagClose depth (masked '<' type.tagOpen 0 (b :: t))
      ((tagSearchFrom type.tagOpen type.tagClose 0 depth (b :: t)).map List.length) := by
  have hpair := tagPair type
  have hmem := not_mem_of_cut hpair.opening hcut
  have hself : masked '<' type.tagOpen 0 (b :: t) = b :: t := by
    rw [masked_cons ho]
    have hrest := masked_of_not_mem (t := []) hpair.opening hmem
    rw [List.append_nil] at hrest
    simp [hrest, masked]
  have hne : b :: t ≠ type.tagOpen := fun heq => ho (heq ▸ List.prefix_refl _)
  rw [tagSearchFrom_cut hcut, hself]
  refine .overrun (fun i => not_closesFrom_cut hpair.opening hcut ?_ i) ?_
  · exact fun hc => hpair.closing_not_front (hc.trans hcut)
  · exact .inl ⟨0, by simp, hcut, hne⟩

/-- An unfinished closing tag: past the end where one block is open, and ignored
elsewhere. -/
theorem searched_cut_close (hdepth : 0 ≤ depth)
    (ho : ¬ type.tagOpen <+: b :: t ∧ ¬ b :: t <+: type.tagOpen)
    (hc : ¬ type.tagClose <+: b :: t ∧ b :: t <+: type.tagClose) :
    Searched type.tagOpen type.tagClose depth (masked '<' type.tagOpen 0 (b :: t))
      ((tagSearchFrom type.tagOpen type.tagClose 0 depth (b :: t)).map List.length) := by
  have hpair := tagPair type
  have hmem := not_mem_of_cut hpair.closing hc.2
  have hself : masked '<' type.tagOpen 0 (b :: t) = b :: t := by
    rw [masked_cons ho.1]
    have hrest := masked_of_not_mem (t := []) hpair.opening hmem
    rw [List.append_nil] at hrest
    simp [hrest, masked]
  have hne : b :: t ≠ type.tagClose := fun heq => hc.1 (heq ▸ List.prefix_refl _)
  have hnone : ∀ i, ¬ ClosesFrom type.tagOpen type.tagClose depth (b :: t) i :=
    not_closesFrom_cut hpair.closing hc.2 hc.1
  have hseen : ∀ word, Marked '<' word → ¬ word <+: b :: t → seen word (b :: t) (b :: t).length = 0 := by
    intro word hword hnot
    apply seen_eq_zero
    intro i
    cases i with
    | zero => exact hnot
    | succ i => exact not_prefix_drop hword hmem i
  have hopened := hseen _ hpair.opening ho.1
  have hclosed := hseen _ hpair.closing hc.1
  rw [hself]
  by_cases hzero : depth = 0
  · subst hzero
    rw [tagSearchFrom_cut_close ho.2 hc.2 hne]
    refine .overrun hnone (.inr (.inr ⟨⟨0, by simp, hc.2, hne⟩, ?_⟩))
    rw [hopened, hclosed]
    rfl
  · rw [tagSearchFrom_inner hzero ho (.inr hc.2), tagSearchFrom_of_not_mem hmem]
    refine .ended hnone ?_
    rintro (hinside | hsuffix | ⟨-, hcount⟩)
    · rcases endsInside_cons.mp hinside with hhere | hlater
      · exact ho.2 hhere.1
      · exact not_endsInside_of_not_mem hpair.opening hmem hlater
    · rcases List.suffix_cons_iff.mp hsuffix with heq | hlater
      · exact ho.2 (heq ▸ List.prefix_refl _)
      · obtain ⟨body, hbody, -⟩ := hpair.opening
        exact hmem (hlater.subset (by simp [hbody]))
    · rw [hopened, hclosed] at hcount
      omega

/-- An opening tag: whole, with nothing behind it or with a byte that is jumped
over. -/
theorem searched_open {rest : Text} {n : Nat} (hdepth : -1 ≤ depth)
    (hn : (type.tagOpen ++ rest).length ≤ n + 1)
    (ih : ∀ (t : Text) (depth : Int), (0 ≤ depth ∨ depth = -1 ∧ type.tagOpen <+: t) → t.length ≤ n →
      Searched type.tagOpen type.tagClose depth (masked '<' type.tagOpen 0 t)
        ((tagSearchFrom type.tagOpen type.tagClose 0 depth t).map List.length)) :
    Searched type.tagOpen type.tagClose depth (masked '<' type.tagOpen 0 (type.tagOpen ++ rest))
      ((tagSearchFrom type.tagOpen type.tagClose 0 depth (type.tagOpen ++ rest)).map List.length) := by
  have hpair := tagPair type
  obtain ⟨body, hbody, hmem⟩ := hpair.opening
  cases rest with
  | nil =>
    have hcut : ('<' : Byte) :: body <+: type.tagOpen := hbody ▸ List.prefix_refl _
    rw [List.append_nil, masked_self hpair.opening.ne_nil]
    have herror : tagSearchFrom type.tagOpen type.tagClose 0 depth (('<' : Byte) :: body) =
        .error .outOfRange := tagSearchFrom_cut hcut
    rw [← hbody] at herror
    rw [herror]
    refine .overrun ?_ (.inr (.inl (List.suffix_refl _)))
    rw [hbody] at hcut ⊢
    intro i
    have hnot : ¬ ClosesFrom type.tagOpen type.tagClose depth (('<' : Byte) :: body) i :=
      not_closesFrom_cut hpair.opening (hbody ▸ List.prefix_refl _)
        (by rw [← hbody]; exact hpair.closing_not_front) i
    rwa [hbody] at hnot
  | cons x rest =>
    obtain ⟨y, hy, hmasked⟩ : ∃ y, y ≠ ('<' : Byte) ∧
        masked '<' type.tagOpen 0 (type.tagOpen ++ x :: rest) = _ :=
      masked_opening hpair.opening.ne_nil
    rw [tagSearchFrom_open, hmasked]
    have hrest := ih rest (depth + 1) (.inl (by omega)) (by
      simp only [List.length_append, List.length_cons] at hn
      omega)
    have hpassed : Searched type.tagOpen type.tagClose (depth + 1)
        ((body ++ [y]) ++ masked '<' type.tagOpen 0 rest) _ :=
      .pass hpair (by simp [hmem, Ne.symm hy]) hrest
    have htext : type.tagOpen ++ y :: masked '<' type.tagOpen 0 rest =
        ('<' : Byte) :: ((body ++ [y]) ++ masked '<' type.tagOpen 0 rest) := by simp [hbody]
    have hopen : type.tagOpen <+: ('<' : Byte) :: ((body ++ [y]) ++ masked '<' type.tagOpen 0 rest) :=
      htext ▸ List.prefix_append _ _
    have hclose : ¬ type.tagClose <+:
        ('<' : Byte) :: ((body ++ [y]) ++ masked '<' type.tagOpen 0 rest) :=
      htext ▸ not_prefix_append hpair.closing_not_front hpair.opening_not_front
    rw [htext]
    refine .step ?_ ?_ ?_ ?_
    · exact fun hzero => hclose (closesFrom_zero.mp hzero).1
    · intro hcut
      have := hcut.length_le
      rw [← htext] at this
      simp at this
    · exact fun hcut => hpair.opening_not_front (hopen.trans hcut.1)
    · have hshift : shift type.tagOpen type.tagClose
          (('<' : Byte) :: ((body ++ [y]) ++ masked '<' type.tagOpen 0 rest)) = 1 := by
        simp only [shift, if_pos hopen, if_neg hclose, sub_zero]
      rw [hshift]
      exact hpassed

end Cases

/-- What the search comes to, on any text that starts with an opening tag or
stands inside a block. -/
theorem tagSearchFrom_searched (type : BlockType) (t : Text) (depth : Int)
    (hdepth : 0 ≤ depth ∨ depth = -1 ∧ type.tagOpen <+: t) :
    Searched type.tagOpen type.tagClose depth (masked '<' type.tagOpen 0 t)
      ((tagSearchFrom type.tagOpen type.tagClose 0 depth t).map List.length) := by
  have hpair := tagPair type
  obtain ⟨n, hn⟩ : ∃ n, t.length ≤ n := ⟨_, le_refl _⟩
  induction n generalizing t depth with
  | zero =>
    obtain rfl : t = [] := List.length_eq_zero_iff.mp (Nat.le_zero.mp hn)
    exact .of_not_mem hpair (by simp [masked])
  | succ n ih =>
    cases t with
    | nil => exact .of_not_mem hpair (by simp [masked])
    | cons b t =>
      have htail : t.length ≤ n := by simpa using hn
      by_cases ho : type.tagOpen <+: b :: t
      · obtain ⟨rest, hrest⟩ := ho
        rw [← hrest] at hn hdepth ⊢
        exact searched_open (by omega) hn ih
      · have hnonneg : 0 ≤ depth := hdepth.resolve_right fun h => ho h.2
        by_cases hcut : b :: t <+: type.tagOpen
        · exact searched_cut ho hcut
        · by_cases hc : type.tagClose <+: b :: t
          · by_cases hzero : depth = 0
            · subst hzero
              obtain ⟨rest, hrest⟩ := hc
              rw [← hrest] at ho ⊢
              exact searched_found ho
            · rw [tagSearchFrom_inner hzero ⟨ho, hcut⟩ (.inl hc)]
              exact searched_close hzero ⟨ho, hcut⟩ hc (ih t (depth - 1) (.inl (by omega)) htail)
          · by_cases hcc : b :: t <+: type.tagClose
            · exact searched_cut_close hnonneg ⟨ho, hcut⟩ ⟨hc, hcc⟩
            · rw [tagSearchFrom_other ⟨ho, hcut⟩ ⟨hc, hcc⟩]
              exact searched_other ⟨ho, hcut⟩ ⟨hc, hcc⟩ (ih t depth (.inl hnonneg) htail)

end Search

/-! ## The end of a block -/

/-- The text from an opening tag on, as the search sees it. -/
def scanned (type : BlockType) (t : Text) : Text :=
  masked '<' type.tagOpen 0 t

theorem length_scanned (type : BlockType) (t : Text) : (scanned type t).length = t.length :=
  length_masked 0

section Ends

variable {type : BlockType} {source : Text} {first n : Nat}

theorem tagSearch_searched (h : type.tagOpen <+: source.drop first) :
    ∃ left, Searched type.tagOpen type.tagClose (-1) (scanned type (source.drop first)) left ∧
      tagSearch source first type = left.map (source.length - ·) := by
  refine ⟨_, tagSearchFrom_searched type _ (-1) (.inr ⟨rfl, h⟩), ?_⟩
  rw [tagSearch]
  cases tagSearchFrom type.tagOpen type.tagClose 0 (-1) (source.drop first) with
  | error trap => rfl
  | ok rest => rfl

/-- Where the block ends, the search stops. -/
theorem tagSearch_ok (h : type.tagOpen <+: source.drop first)
    (hcomplete : Completes type.tagOpen type.tagClose (scanned type (source.drop first)))
    (hend : PairEnd type.tagOpen type.tagClose (scanned type (source.drop first)) n) :
    tagSearch source first type = .ok (first + n) := by
  obtain ⟨left, hsearched, heq⟩ := tagSearch_searched h
  rcases hsearched.ends with ⟨-, k, hk, rfl⟩ | ⟨hnot, -⟩
  · obtain rfl := hk.unique hend
    have hle := hk.le (tagPair type).closing.ne_nil
    have hpos : 0 < (source.drop first).length :=
      Nat.lt_of_lt_of_le (List.length_pos_of_ne_nil (tagPair type).opening.ne_nil) h.length_le
    rw [length_scanned] at hle
    rw [heq, length_scanned]
    simp only [List.length_drop] at hle hpos ⊢
    have hsub : source.length - (source.length - first - k) = first + k := by omega
    exact congrArg Except.ok hsub
  · exact absurd hcomplete hnot

theorem tagSearch_error (h : type.tagOpen <+: source.drop first)
    (hcut : ¬ Completes type.tagOpen type.tagClose (scanned type (source.drop first))) :
    tagSearch source first type = .error .outOfRange := by
  obtain ⟨left, hsearched, heq⟩ := tagSearch_searched h
  rcases hsearched.ends with ⟨hcomplete, -⟩ | ⟨-, rfl⟩
  · exact absurd hcomplete hcut
  · exact heq

theorem exists_pairEnd (h : type.tagOpen <+: source.drop first)
    (hcomplete : Completes type.tagOpen type.tagClose (scanned type (source.drop first))) :
    ∃ n, PairEnd type.tagOpen type.tagClose (scanned type (source.drop first)) n := by
  obtain ⟨left, hsearched, -⟩ := tagSearch_searched h
  rcases hsearched.ends with ⟨-, n, hn, -⟩ | ⟨hnot, -⟩
  · exact ⟨n, hn⟩
  · exact absurd hcomplete hnot

end Ends

/-- The search ends behind the closing tag of the block, or at the end when it is
not closed, exactly when the block is closed or the text does not end inside a
tag. -/
theorem tagSearch_closes_iff (type : BlockType) (text : Text) (hstart : type.tagOpen <+: text)
    (hfollow : ∀ i, type.tagOpen <+: text.drop i →
      ∃ b, text[i + type.tagOpen.length]? = some b ∧ b ≠ ('<' : Byte)) :
    (∃ pos, tagSearch text 0 type = .ok pos ∧ pos ≤ text.length ∧
      PairEnd type.tagOpen type.tagClose text pos) ↔
    ((∃ i, ClosesAt type.tagOpen type.tagClose text i) ∨
      ¬ CutShort type.tagOpen type.tagClose text) := by
  have hself : scanned type text = text := by
    apply masked_eq_self (tagPair type).opening
    intro i hi
    obtain ⟨b, hb, hne⟩ := hfollow i hi
    rw [hb]
    exact fun heq => hne (Option.some.inj heq)
  have hdrop : type.tagOpen <+: text.drop 0 := hstart
  constructor
  · rintro ⟨pos, hpos, -, -⟩
    by_contra hcut
    have herror := tagSearch_error hdrop (by rwa [List.drop_zero, hself])
    rw [hpos] at herror
    cases herror
  · intro hcomplete
    have hscanned : Completes type.tagOpen type.tagClose (scanned type (text.drop 0)) := by
      rw [List.drop_zero, hself]
      exact hcomplete
    obtain ⟨n, hn⟩ := exists_pairEnd hdrop hscanned
    refine ⟨n, ?_, ?_, ?_⟩
    · rw [tagSearch_ok hdrop hscanned hn, zero_add]
    · rw [List.drop_zero, hself] at hn
      exact hn.le (tagPair type).closing.ne_nil
    · rwa [List.drop_zero, hself] at hn

/-- In a text with one opening tag, a byte behind it. -/
theorem follows_first {type : BlockType} {text : Text} {b : Byte}
    (hfirst : ∀ i < text.length, type.tagOpen <+: text.drop i → i = 0)
    (hb : text[type.tagOpen.length]? = some b) (hne : b ≠ ('<' : Byte)) (i : Nat)
    (hi : type.tagOpen <+: text.drop i) :
    ∃ b, text[i + type.tagOpen.length]? = some b ∧ b ≠ ('<' : Byte) := by
  have hlt : i < text.length := by
    by_contra hge
    rw [List.drop_eq_nil_of_le (Nat.le_of_not_lt hge)] at hi
    exact (tagPair type).opening.ne_nil (List.prefix_nil.mp hi)
  obtain rfl := hfirst i hlt hi
  exact ⟨b, by rwa [Nat.zero_add], hne⟩

theorem tagSearch_closes_paragraph :
    ∃ pos, tagSearch ("<HTMT:a>x</HTMT>y" : Text) 0 .tag = .ok pos ∧
      pos ≤ ("<HTMT:a>x</HTMT>y" : Text).length ∧
      PairEnd BlockType.tag.tagOpen BlockType.tag.tagClose ("<HTMT:a>x</HTMT>y" : Text) pos := by
  refine (tagSearch_closes_iff .tag _ (by decide +kernel)
    (follows_first (b := 'a') (by decide +kernel) (by decide +kernel) (by decide))).mpr (.inl ⟨9, ?_⟩)
  decide +kernel

/-- A text that ends inside its closing tag: the search goes past the end. -/
theorem tagSearch_cut_close :
    BlockType.tag.tagOpen <+: ("<HTMT:a>x</HT" : Text) ∧
    (∀ i, BlockType.tag.tagOpen <+: ("<HTMT:a>x</HT" : Text).drop i →
      ∃ b, ("<HTMT:a>x</HT" : Text)[i + BlockType.tag.tagOpen.length]? = some b ∧ b ≠ ('<' : Byte)) ∧
    tagSearch ("<HTMT:a>x</HT" : Text) 0 .tag = .error .outOfRange := by
  refine ⟨by decide +kernel, ?_, by decide +kernel⟩
  exact follows_first (b := 'a') (by decide +kernel) (by decide +kernel) (by decide)

end WFA
