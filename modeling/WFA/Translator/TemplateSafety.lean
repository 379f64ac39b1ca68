-- SUMMARY: Which sources `translation::parse` stays inside of.
import WFA.Translator.ParsePrint
import WFA.Translator.TagSearch

/-!
# Staying inside the source

`translation::parse` ends on every source. It stays inside of it as long as every
tag it meets is finished: a single tag has two bytes behind its word, an opening
tag has its `>`, the search for its closing tag does not run into an unfinished
tag, and the block is long enough for a closing tag. A number that cannot be read
ends the parse before what follows is looked at.
-/

namespace WFA

open Text Translation Node

/-! ## Raw HTML -/

/-- Raw HTML in which every single tag that is met has at least two bytes behind
its word. The next one is looked for behind the `>` of the last. -/
inductive HtmlInside : Text → Prop where
  | plain {html : Text} (h : nextStatement html = none) : HtmlInside html
  | statement {html : Text} {pos : Nat} {type : StatementType}
      (h : nextStatement html = some (pos, type))
      (hroom : pos + type.tagOpen.length + 1 < html.length)
      (hrest : HtmlInside ((cut '>' (html.drop (pos + type.tagOpen.length + 1))).2.getD [])) :
      HtmlInside html

theorem htmlInside_nil : HtmlInside [] :=
  .plain rfl

theorem htmlInside_statement {html : Text} {pos : Nat} {type : StatementType}
    (h : nextStatement html = some (pos, type)) :
    HtmlInside html ↔ pos + type.tagOpen.length + 1 < html.length ∧
      HtmlInside ((cut '>' (html.drop (pos + type.tagOpen.length + 1))).2.getD []) := by
  constructor
  · intro hinside
    cases hinside with
    | plain hnone => simp [h] at hnone
    | statement hfound hroom hrest =>
      obtain ⟨rfl, rfl⟩ : pos = _ ∧ type = _ := by simpa [h] using hfound
      exact ⟨hroom, hrest⟩
  · rintro ⟨hroom, hrest⟩
    exact .statement h hroom hrest

/-- What follows the first `c`. -/
theorem cut_rest_eq_drop (c : Byte) (t : Text) : (cut c t).2.getD [] = t.drop (indexOf c t + 1) := by
  rcases mem_cases c t with hmem | ⟨a, b, rfl, hmem⟩
  · simp [cut_of_not_mem hmem, indexOf_of_not_mem hmem]
  · simp [cut_append hmem, indexOf_append hmem]

section Html

variable {fuel left pos : Nat} {html : Text} {values : List TranslationValue} {type : StatementType}

theorem slice_to_end (t : Text) (first : Nat) : slice t first t.length = t.drop first :=
  List.take_of_length_le (by simp)

theorem indexOf_le (c : Byte) (t : Text) : indexOf c t ≤ t.length :=
  List.findIdx_le_length

/-- One round of `parseSubHTML` over a single tag with room behind its word. -/
theorem parseSubHTMLFrom_round (fuel : Nat) (values : List TranslationValue)
    (h : nextStatement (html.drop left) = some (pos, type))
    (hroom : pos + type.tagOpen.length + 1 < (html.drop left).length) :
    ∃ next found, left < next ∧ next ≤ html.length ∧
      html.drop next =
        (cut '>' ((html.drop left).drop (pos + type.tagOpen.length + 1))).2.getD [] ∧
      parseSubHTMLFrom (fuel + 1) html left values = parseSubHTMLFrom fuel html next found := by
  rw [List.length_drop] at hroom
  generalize hstart : left + pos + (type.tagOpen.length + 1) = nameStart
  have hne : left ≠ html.length := by omega
  have hdrop : (html.drop left).drop (pos + type.tagOpen.length + 1) = html.drop nameStart := by
    rw [List.drop_drop, ← hstart]
    congr 1
    omega
  have hindex := indexOf_le '>' (html.drop nameStart)
  rw [List.length_drop] at hindex
  generalize hend : nameStart + indexOf '>' (html.drop nameStart) = nameEnd
  have hadvance : advance html (left + pos) (type.tagOpen.length + 1) = .ok nameStart := by
    rw [advance_le (by omega), hstart]
  have hfind : find html nameStart html.length '>' = .ok nameEnd := by
    rw [find, if_pos (by omega), slice_to_end, hend]
  have hview : view html nameStart (nameEnd - nameStart) =
      .ok (slice html nameStart (nameStart + (nameEnd - nameStart))) := if_pos (by omega)
  refine ⟨if nameEnd ≠ html.length then nameEnd + 1 else nameEnd,
    (if left ≠ left + pos then values ++ [.html (slice html left (left + pos))] else values) ++
      [type.value (slice html nameStart (nameStart + (nameEnd - nameStart)))], ?_, ?_, ?_, ?_⟩
  · split <;> omega
  · split <;> omega
  · rw [hdrop, cut_rest_eq_drop, List.drop_drop, ← Nat.add_assoc, hend]
    split
    · rfl
    · rename_i hlast
      rw [List.drop_eq_nil_of_le (by omega), List.drop_eq_nil_of_le (by omega)]
  · rw [parseSubHTMLFrom]
    simp only [if_neg hne, h, hadvance, hfind, hview, bind, Except.bind]

/-- A single tag without room behind its word. -/
theorem parseSubHTMLFrom_cut (hleft : left ≤ html.length)
    (h : nextStatement (html.drop left) = some (pos, type))
    (hroom : ¬ pos + type.tagOpen.length + 1 < (html.drop left).length) :
    parseSubHTMLFrom (fuel + 1) html left values = .error .outOfRange := by
  rw [List.length_drop] at hroom
  have hne : left ≠ html.length := by
    rintro rfl
    rw [List.drop_length] at h
    cases h
  rw [parseSubHTMLFrom]
  simp only [if_neg hne, h, bind, Except.bind]
  by_cases hin : left + pos + (type.tagOpen.length + 1) ≤ html.length
  · have hview : ∀ n, view html (left + pos + (type.tagOpen.length + 1)) n = .error .outOfRange :=
      fun n => if_neg (by omega)
    have hfind : find html (left + pos + (type.tagOpen.length + 1)) html.length '>' = .ok _ :=
      if_pos (by omega)
    simp only [advance_le hin, hfind, hview]
  · simp only [advance_gt (Nat.lt_of_not_le hin)]

/-- `parseSubHTML` ends, and stays inside exactly when the tags do. -/
theorem parseSubHTMLFrom_inside (hleft : left ≤ html.length) (hfuel : html.length - left < fuel) :
    (HtmlInside (html.drop left) ∧ ∃ found, parseSubHTMLFrom fuel html left values = .ok found) ∨
      (¬ HtmlInside (html.drop left) ∧
        parseSubHTMLFrom fuel html left values = .error .outOfRange) := by
  induction fuel generalizing left values with
  | zero => omega
  | succ fuel ih =>
    cases hfound : nextStatement (html.drop left) with
    | none =>
      refine .inl ⟨.plain hfound, ?_⟩
      rw [parseSubHTMLFrom]
      split
      · exact ⟨_, rfl⟩
      · simp only [hfound]
        exact ⟨_, rfl⟩
    | some found =>
      obtain ⟨pos, type⟩ := found
      rw [htmlInside_statement hfound]
      by_cases hroom : pos + type.tagOpen.length + 1 < (html.drop left).length
      · obtain ⟨next, found, hlt, hle, hrest, hround⟩ :=
          parseSubHTMLFrom_round fuel values hfound hroom
        rw [hround, ← hrest]
        simp only [hroom, true_and]
        exact ih hle (by omega)
      · exact .inr ⟨fun h => hroom h.1, parseSubHTMLFrom_cut hleft hfound hroom⟩

theorem parseSubHTML_inside (values : List TranslationValue) (html : Text) :
    (HtmlInside html ∧ ∃ found, parseSubHTML values html = .ok found) ∨
      (¬ HtmlInside html ∧ parseSubHTML values html = .error .outOfRange) :=
  parseSubHTMLFrom_inside (Nat.zero_le html.length) (by omega)

theorem parseFront_inside (values : List TranslationValue) (html : Text) :
    (HtmlInside html ∧ ∃ found, parseFront values html.length html = .ok found) ∨
      (¬ HtmlInside html ∧ parseFront values html.length html = .error .outOfRange) := by
  cases html with
  | nil => exact .inl ⟨htmlInside_nil, _, rfl⟩
  | cons b html => exact parseSubHTML_inside values (b :: html)

end Html

/-! ## Blocks -/

/-- The first block of a text, read the way `parse` reads it: what stands in
front, the text of its opening tag, its inside, and what follows. The last bytes
of a block count as its closing tag. -/
structure BlockAt (s : Text) (type : BlockType) (front name body rest : Text) : Prop where
  first : minElement (findNextSet s) = (type, some front.length)
  text : ∃ closer : Text, closer.length = type.tagClose.length ∧
    s = front ++ (type.tagOpen ++ (name ++ ('>' : Byte) :: (body ++ (closer ++ rest))))
  name_plain : ('>' : Byte) ∉ name
  front_inside : HtmlInside front
  completes : Completes type.tagOpen type.tagClose (scanned type (s.drop front.length))
  ends : PairEnd type.tagOpen type.tagClose (scanned type (s.drop front.length))
    (s.length - front.length - rest.length)

/-- The text of a code tag that `std::stol` does not take. -/
def BadNumber (longMax : Nat) (type : BlockType) (name : Text) : Prop :=
  type = .code ∧ stol longMax name = .error .exception

/-- A source in which every tag that `parse` meets is finished, and whether the
parse is ended by a number that cannot be read. -/
inductive Inside (longMax : Nat) : Text → Bool → Prop where
  | plain {s : Text} (hnone : (minElement (findNextSet s)).2 = none) (h : HtmlInside s) :
      Inside longMax s false
  | block {s front name body rest : Text} {type : BlockType} {thrown : Bool}
      (h : BlockAt s type front name body rest) (hbody : Inside longMax body false)
      (htag : ¬ BadNumber longMax type name) (hrest : Inside longMax rest thrown) :
      Inside longMax s thrown
  | badNumber {s front name body rest : Text} {type : BlockType}
      (h : BlockAt s type front name body rest) (hbody : Inside longMax body false)
      (htag : BadNumber longMax type name) : Inside longMax s true
  | badBody {s front name body rest : Text} {type : BlockType}
      (h : BlockAt s type front name body rest) (hbody : Inside longMax body true) :
      Inside longMax s true

section Blocks

variable {longMax : Nat} {s front name body rest : Text} {type : BlockType}

theorem findText_starts {word t : Text} {i : Nat} (h : findText word t = some i) :
    word <+: t.drop i := by
  induction t generalizing i with
  | nil =>
    simp only [findText] at h
    split at h
    · rename_i hword
      rw [List.isEmpty_iff.mp hword]
      exact List.nil_prefix
    · cases h
  | cons b t ih =>
    simp only [findText] at h
    split at h
    · rename_i hstarts
      obtain rfl : 0 = i := by simpa using h
      exact List.isPrefixOf_iff_prefix.mp hstarts
    · obtain ⟨j, hj, rfl⟩ := Option.map_eq_some_iff.mp h
      exact ih hj

theorem minElement_mem (first : BlockType × Option Nat) (found : List (BlockType × Option Nat)) :
    minElement (first :: found) ∈ first :: found := by
  have hfold : ∀ (found : List (BlockType × Option Nat)) (min : BlockType × Option Nat),
      found.foldl (fun min next => if before next.2 min.2 then next else min) min ∈ min :: found := by
    intro found
    induction found with
    | nil => simp
    | cons next found ih =>
      intro min
      rw [List.foldl_cons]
      by_cases hbefore : before next.2 min.2 = true
      · rw [if_pos hbefore]
        exact List.mem_cons_of_mem _ (ih next)
      · rw [if_neg hbefore]
        rcases List.mem_cons.mp (ih min) with heq | hlater
        · rw [heq]
          simp
        · simp [hlater]
  exact hfold found first

/-- The nearest opening tag stands where it is found. -/
theorem tagOpen_of_minElement {pos : Nat} (h : minElement (findNextSet s) = (type, some pos)) :
    type.tagOpen <+: s.drop pos := by
  have hmem : (type, some pos) ∈ findNextSet s := by
    rw [← h]
    exact minElement_mem _ _
  obtain ⟨kind, -, hkind⟩ := List.mem_map.mp hmem
  obtain ⟨rfl, hfound⟩ : kind = type ∧ findText kind.tagOpen s = some pos := by simpa using hkind
  exact findText_starts hfound

theorem stol_trap {t : Text} {trap : Trap} (h : stol longMax t = .error trap) :
    trap = .exception := by
  simp only [stol] at h
  split_ifs at h <;> first | exact (Except.error.inj h).symm | cases h

theorem parseTag_cases (longMax : Nat) (type : BlockType) (name : Text) :
    (BadNumber longMax type name ∧ parseTag longMax type name = .error .exception) ∨
      (¬ BadNumber longMax type name ∧ ∃ tag, parseTag longMax type name = .ok tag) := by
  cases type with
  | tag =>
    refine .inr ⟨by simp [BadNumber], ?_⟩
    cases name with
    | nil => exact ⟨_, rfl⟩
    | cons b name => exact ⟨_, rfl⟩
  | condition => exact .inr ⟨by simp [BadNumber], _, rfl⟩
  | code =>
    cases hstol : stol longMax name with
    | ok code => exact .inr ⟨by simp [BadNumber, hstol], _, by rw [parseTag, hstol]; rfl⟩
    | error trap =>
      obtain rfl := stol_trap hstol
      exact .inl ⟨⟨rfl, hstol⟩, by rw [parseTag, hstol]; rfl⟩

namespace BlockAt

theorem length_eq (h : BlockAt s type front name body rest) :
    s.length = front.length + type.tagOpen.length + name.length + 1 + body.length +
      type.tagClose.length + rest.length := by
  obtain ⟨closer, hcloser, htext⟩ := h.text
  rw [htext]
  simp only [List.length_append, List.length_cons, hcloser]
  omega

/-- A text is cut into its first block in one way only. -/
theorem unique {front' name' body' rest' : Text} {type' : BlockType}
    (h : BlockAt s type front name body rest) (h' : BlockAt s type' front' name' body' rest') :
    type = type' ∧ name = name' ∧ body = body' ∧ rest = rest' := by
  obtain ⟨rfl, hlength⟩ : type = type' ∧ front.length = front'.length := by
    simpa using h.first.symm.trans h'.first
  have hends := h.ends.unique (hlength ▸ h'.ends)
  have hrest : rest.length = rest'.length := by
    have := h.length_eq
    have := h'.length_eq
    omega
  obtain ⟨closer, hcloser, htext⟩ := h.text
  obtain ⟨closer', hcloser', htext'⟩ := h'.text
  have hafter := (List.append_inj (htext.symm.trans htext') hlength).2
  have hname := List.append_cancel_left hafter
  have hcut := congrArg (cut '>') hname
  rw [cut_append h.name_plain, cut_append h'.name_plain] at hcut
  obtain ⟨rfl, hinner⟩ : name = name' ∧ body ++ (closer ++ rest) = body' ++ (closer' ++ rest') := by
    simpa using hcut
  have hbody : body.length = body'.length := by
    have := congrArg List.length hinner
    simp only [List.length_append] at this
    omega
  obtain ⟨rfl, htail⟩ := List.append_inj hinner hbody
  exact ⟨rfl, rfl, rfl, (List.append_inj htail (by omega)).2⟩

end BlockAt

/-- What the parser comes to on a text. -/
def Outcome {α : Type} (longMax : Nat) (s : Text) (result : Exec α) : Prop :=
  (Inside longMax s false ∧ ∃ value, result = .ok value) ∨
    (Inside longMax s true ∧ result = .error .exception) ∨
    ((∀ thrown, ¬ Inside longMax s thrown) ∧ result = .error .outOfRange)

/-- A text is inside in one way only. -/
theorem Inside.unique {thrown thrown' : Bool} (h : Inside longMax s thrown)
    (h' : Inside longMax s thrown') : thrown = thrown' := by
  induction h generalizing thrown' with
  | plain hnone _ =>
    cases h' with
    | plain => rfl
    | block hblock => simp [hblock.first] at hnone
    | badNumber hblock => simp [hblock.first] at hnone
    | badBody hblock => simp [hblock.first] at hnone
  | block hblock _ htag _ ihBody ihRest =>
    cases h' with
    | plain hnone => simp [hblock.first] at hnone
    | block hblock' _ _ hrest' =>
      obtain ⟨rfl, rfl, rfl, rfl⟩ := hblock.unique hblock'
      exact ihRest hrest'
    | badNumber hblock' _ htag' =>
      obtain ⟨rfl, rfl, rfl, rfl⟩ := hblock.unique hblock'
      exact absurd htag' htag
    | badBody hblock' hbody' =>
      obtain ⟨rfl, rfl, rfl, rfl⟩ := hblock.unique hblock'
      exact absurd (ihBody hbody') (by simp)
  | badNumber hblock _ htag _ =>
    cases h' with
    | plain hnone => simp [hblock.first] at hnone
    | block hblock' _ htag' _ =>
      obtain ⟨rfl, rfl, rfl, rfl⟩ := hblock.unique hblock'
      exact absurd htag htag'
    | badNumber => rfl
    | badBody => rfl
  | badBody hblock _ ihBody =>
    cases h' with
    | plain hnone => simp [hblock.first] at hnone
    | block hblock' hbody' _ _ =>
      obtain ⟨rfl, rfl, rfl, rfl⟩ := hblock.unique hblock'
      exact absurd (ihBody hbody') (by simp)
    | badNumber => rfl
    | badBody => rfl

/-- A text with a block is inside only through that block. -/
theorem BlockAt.not_inside (h : BlockAt s type front name body rest)
    (hbody : ∀ thrown, Inside longMax body thrown →
      thrown = false ∧ ¬ BadNumber longMax type name ∧ ∀ thrown, ¬ Inside longMax rest thrown)
    (thrown : Bool) : ¬ Inside longMax s thrown := by
  intro hinside
  cases hinside with
  | plain hnone _ => simp [h.first] at hnone
  | block h' hbody' _ hrest' =>
    obtain ⟨rfl, rfl, rfl, rfl⟩ := h.unique h'
    exact (hbody _ hbody').2.2 _ hrest'
  | badNumber h' hbody' htag' =>
    obtain ⟨rfl, rfl, rfl, rfl⟩ := h.unique h'
    exact (hbody _ hbody').2.1 htag'
  | badBody h' hbody' =>
    obtain ⟨rfl, rfl, rfl, rfl⟩ := h.unique h'
    exact absurd (hbody _ hbody').1 (by simp)

/-- A tag with its `>`, and an end of its pair with room for a closing tag behind
that, make a block. -/
theorem BlockAt.of_pairEnd {pos n : Nat} {inner : Text}
    (hmin : minElement (findNextSet s) = (type, some pos)) (hfront : HtmlInside (s.take pos))
    (htext : s.drop pos = type.tagOpen ++ (name ++ ('>' : Byte) :: inner))
    (hname : ('>' : Byte) ∉ name)
    (hcomplete : Completes type.tagOpen type.tagClose (scanned type (s.drop pos)))
    (hn : PairEnd type.tagOpen type.tagClose (scanned type (s.drop pos)) n)
    (hroom : type.tagOpen.length + name.length + 1 + type.tagClose.length ≤ n) :
    ∃ front name body rest, BlockAt s type front name body rest := by
  have hle := hn.le (tagPair type).closing.ne_nil
  rw [length_scanned] at hle
  have hlength := congrArg List.length htext
  simp only [List.length_append, List.length_cons, List.length_drop] at hle hlength
  have hfrontLength : (s.take pos).length = pos := by
    rw [List.length_take]
    omega
  generalize hm : n - type.tagOpen.length - name.length - 1 - type.tagClose.length = m
  refine ⟨s.take pos, name, inner.take m, (inner.drop m).drop type.tagClose.length, ?_⟩
  exact {
    first := by rw [hfrontLength]; exact hmin
    text := by
      refine ⟨(inner.drop m).take type.tagClose.length, ?_, ?_⟩
      · rw [List.length_take, List.length_drop]
        omega
      · rw [List.take_append_drop, List.take_append_drop, ← htext, List.take_append_drop]
    name_plain := hname
    front_inside := hfront
    completes := by rw [hfrontLength]; exact hcomplete
    ends := by
      have hn' : s.length - pos - ((inner.drop m).drop type.tagClose.length).length = n := by
        simp only [List.length_drop]
        omega
      rw [hfrontLength, hn']
      exact hn }

/-- When the first tag is not one of a finished block, the parser leaves the
source. -/
theorem parseBlocks_cut {fuel left pos : Nat} {source : Text} {values : List TranslationValue}
    (hleft : left ≤ source.length)
    (hmin : minElement (findNextSet (source.drop left)) = (type, some pos))
    (hnone : ∀ front name body rest, ¬ BlockAt (source.drop left) type front name body rest) :
    parseBlocks longMax (fuel + 1) source left values = .error .outOfRange := by
  have hopen := tagOpen_of_minElement hmin
  have hopen' : type.tagOpen <+: source.drop (left + pos) := by rwa [List.drop_drop] at hopen
  obtain ⟨after, hafter⟩ := hopen'
  have hroom := congrArg List.length hafter
  simp only [List.length_append, List.length_drop] at hroom
  have hpositive := List.length_pos_of_ne_nil (tagPair type).opening.ne_nil
  have hafter' : source.drop (left + pos + type.tagOpen.length) = after := by
    rw [← List.drop_drop, ← hafter, List.drop_left]
  have hfrontLength : ((source.drop left).take pos).length = pos := by
    rw [List.length_take, List.length_drop]
    omega
  have hslice : slice source left (left + pos) = (source.drop left).take pos := by
    rw [slice, Nat.add_sub_cancel_left]
  rw [parseBlocks, slice_to_end, hmin]
  simp only [hslice, bind, Except.bind]
  rcases parseFront_inside values ((source.drop left).take pos) with
    ⟨hinside, found, hfront⟩ | ⟨-, hfront⟩
  swap
  · rw [hfrontLength] at hfront
    simp only [hfront]
  rw [hfrontLength] at hfront
  have hadvance : advance source (left + pos) type.tagOpen.length =
      .ok (left + pos + type.tagOpen.length) := advance_le (by omega)
  have hfind : find source (left + pos + type.tagOpen.length) source.length '>' =
      .ok (left + pos + type.tagOpen.length + indexOf '>' after) := by
    rw [find, if_pos (by omega), slice_to_end, hafter']
  simp only [hfront, hadvance, hfind]
  have hscan : (source.drop left).drop pos = source.drop (left + pos) := List.drop_drop
  by_cases hcomplete : Completes type.tagOpen type.tagClose (scanned type (source.drop (left + pos)))
  swap
  · simp only [tagSearch_error (hafter ▸ List.prefix_append _ _) hcomplete]
  have hstarts : type.tagOpen <+: source.drop (left + pos) := hafter ▸ List.prefix_append _ _
  obtain ⟨n, hn⟩ := exists_pairEnd hstarts hcomplete
  have hle := hn.le (tagPair type).closing.ne_nil
  rw [length_scanned, List.length_drop] at hle
  simp only [tagSearch_ok hstarts hcomplete hn]
  rcases mem_cases '>' after with hmem | ⟨name, inner, hinner, hmem⟩
  · -- no end of the opening tag
    rw [indexOf_of_not_mem hmem]
    simp only [advance_gt (show source.length <
      left + pos + type.tagOpen.length + after.length + 1 by omega)]
  have hlength := congrArg List.length hinner
  simp only [List.length_append, List.length_cons] at hlength
  rw [hinner, indexOf_append hmem]
  simp only [advance_le (show left + pos + type.tagOpen.length + name.length + 1 ≤ source.length by
    omega)]
  rw [if_pos]
  · rfl
  -- otherwise there is a block
  by_contra hlong
  obtain ⟨front, name, body, rest, hblock⟩ := BlockAt.of_pairEnd hmin hinside
    (by rw [hscan, ← hafter, hinner]) hmem (hscan ▸ hcomplete) (hscan ▸ hn) (by omega)
  exact hnone front name body rest hblock

/-- A finished block: its inside, its tag, and what follows. -/
theorem parseBlocks_blockAt (longMax fuel : Nat) {left : Nat} {source : Text}
    (values : List TranslationValue)
    (hleft : left ≤ source.length) (h : BlockAt (source.drop left) type front name body rest) :
    ∃ found, source.drop (source.length - rest.length) = rest ∧
      parseBlocks longMax (fuel + 1) source left values = (do
        let (.mk _ _ children) ← parseWithin longMax fuel body
        let (matchType, tag) ← parseTag longMax type name
        parseBlocks longMax fuel source (source.length - rest.length)
          (found ++ [.translation (.mk matchType tag children)])) := by
  obtain ⟨closer, hcloser, htext⟩ := h.text
  have hpre : (source.take left).length = left := by
    rw [List.length_take]
    omega
  have hsource : source = source.take left ++ (front ++ (type.tagOpen ++
      (name ++ ('>' : Byte) :: (body ++ (closer ++ rest))))) := by
    rw [← htext, List.take_append_drop]
  have hlength := h.length_eq
  rw [List.length_drop] at hlength
  have hopen : type.tagOpen <+: source.drop (left + front.length) := by
    rw [← List.drop_drop]
    exact tagOpen_of_minElement h.first
  have hscan : (source.drop left).drop front.length = source.drop (left + front.length) :=
    List.drop_drop
  have hlast : tagSearch source (left + front.length) type = .ok (source.length - rest.length) := by
    rw [tagSearch_ok hopen (hscan ▸ h.completes) (hscan ▸ h.ends), List.length_drop]
    congr 1
    omega
  rcases parseFront_inside values front with ⟨-, found, hfront⟩ | ⟨hnot, -⟩
  · refine ⟨found, ?_, ?_⟩
    · have hsuffix : rest <:+ source := by
        refine ⟨source.take left ++ (front ++ (type.tagOpen ++
          (name ++ ('>' : Byte) :: (body ++ closer)))), ?_⟩
        conv_rhs => rw [hsource]
        simp
      exact (List.suffix_iff_eq_drop.mp hsuffix).symm
    · have hround : parseBlocks longMax (fuel + 1) source (source.take left).length values = _ :=
        parseBlocks_round hsource (by rw [hpre]; exact h.first) hfront h.name_plain hcloser
          (by rw [hpre]; exact hlast)
      rwa [hpre] at hround
  · exact absurd h.front_inside hnot

/-- A text without a block. -/
theorem outcome_plain {source : Text} {left : Nat} (fuel : Nat) (values : List TranslationValue)
    (hmin : minElement (findNextSet (source.drop left)) = (type, none)) :
    Outcome longMax (source.drop left) (parseBlocks longMax (fuel + 1) source left values) := by
  have hplain : parseBlocks longMax (fuel + 1) source left values =
      parseSubHTML values (source.drop left) := by
    rw [parseBlocks, slice_to_end, hmin]
  rw [hplain]
  rcases parseSubHTML_inside values (source.drop left) with ⟨hin, found, hfound⟩ | ⟨hnot, herror⟩
  · exact .inl ⟨.plain (by rw [hmin]) hin, found, hfound⟩
  · refine .inr (.inr ⟨?_, herror⟩)
    intro thrown hinside
    cases hinside with
    | plain _ h => exact hnot h
    | block h => simp [h.first] at hmin
    | badNumber h => simp [h.first] at hmin
    | badBody h => simp [h.first] at hmin

/-- A text whose first tag is not one of a finished block. -/
theorem outcome_cut {source : Text} {left pos : Nat} (fuel : Nat) (values : List TranslationValue)
    (hleft : left ≤ source.length)
    (hmin : minElement (findNextSet (source.drop left)) = (type, some pos))
    (hnone : ∀ front name body rest, ¬ BlockAt (source.drop left) type front name body rest) :
    Outcome longMax (source.drop left) (parseBlocks longMax (fuel + 1) source left values) := by
  refine .inr (.inr ⟨?_, parseBlocks_cut hleft hmin hnone⟩)
  intro thrown hinside
  cases hinside with
  | plain h => simp [hmin] at h
  | block h =>
    obtain ⟨rfl, -⟩ : type = _ ∧ _ := by simpa [hmin] using h.first
    exact hnone _ _ _ _ h
  | badNumber h =>
    obtain ⟨rfl, -⟩ : type = _ ∧ _ := by simpa [hmin] using h.first
    exact hnone _ _ _ _ h
  | badBody h =>
    obtain ⟨rfl, -⟩ : type = _ ∧ _ := by simpa [hmin] using h.first
    exact hnone _ _ _ _ h

/-- A text with a block ends as the inside of the block, its tag and the text
behind it do. -/
theorem BlockAt.outcome {inner : Exec (List TranslationValue)}
    {next : List TranslationValue → Exec (List TranslationValue)}
    (h : BlockAt s type front name body rest) (hbody : Outcome longMax body inner)
    (hrest : ∀ values, Outcome longMax rest (next values)) (found : List TranslationValue) :
    Outcome longMax s (do
      let (.mk _ _ children) ← inner.map (Translation.mk .always (.name []))
      let (matchType, tag) ← parseTag longMax type name
      next (found ++ [.translation (.mk matchType tag children)])) := by
  rcases hbody with ⟨hin, children, hvalue⟩ | ⟨hin, hvalue⟩ | ⟨hnot, hvalue⟩
  · rw [hvalue]
    rcases parseTag_cases longMax type name with ⟨hbad, htag⟩ | ⟨hgood, tag, htag⟩
    · exact .inr (.inl ⟨.badNumber h hin hbad, by rw [htag]; rfl⟩)
    · rw [htag]
      rcases hrest (found ++ [.translation (.mk tag.1 tag.2 children)]) with
        ⟨hin', value, hresult⟩ | ⟨hin', hresult⟩ | ⟨hnot, hresult⟩
      · exact .inl ⟨.block h hin hgood hin', value, hresult⟩
      · exact .inr (.inl ⟨.block h hin hgood hin', hresult⟩)
      · refine .inr (.inr ⟨h.not_inside ?_, hresult⟩)
        intro thrown hthrown
        exact ⟨hthrown.unique hin, hgood, hnot⟩
  · rw [hvalue]
    exact .inr (.inl ⟨.badBody h hin, rfl⟩)
  · rw [hvalue]
    refine .inr (.inr ⟨h.not_inside ?_, rfl⟩)
    intro thrown hin
    exact absurd hin (hnot thrown)

/-- The parser ends on every text, and stays inside exactly when the text does. -/
theorem parseBlocks_inside (longMax fuel : Nat) :
    ∀ (source : Text) (left : Nat) (values : List TranslationValue), left ≤ source.length →
    2 * (source.length - left) + 1 ≤ fuel →
    Outcome longMax (source.drop left) (parseBlocks longMax fuel source left values) := by
  induction fuel using Nat.strong_induction_on with
  | h fuel ih =>
    intro source left values hleft hfuel
    obtain ⟨fuel, rfl⟩ : ∃ k, fuel = k + 1 := ⟨fuel - 1, by omega⟩
    cases hmin : minElement (findNextSet (source.drop left)) with
    | mk type min =>
      cases min with
      | none => exact outcome_plain fuel values hmin
      | some pos =>
        by_cases hblock : ∃ front name body rest,
            BlockAt (source.drop left) type front name body rest
        swap
        · apply outcome_cut fuel values hleft hmin
          intro front name body rest h
          exact hblock ⟨front, name, body, rest, h⟩
        · obtain ⟨front, name, body, rest, h⟩ := hblock
          obtain ⟨found, hdrop, hround⟩ := parseBlocks_blockAt longMax fuel values hleft h
          have hlength := h.length_eq
          rw [List.length_drop] at hlength
          obtain ⟨k, rfl⟩ : ∃ k, fuel = k + 1 := ⟨fuel - 1, by omega⟩
          have hbody := ih k (by omega) body 0 [] (Nat.zero_le _) (by omega)
          have hrest := fun values => ih (k + 1) (by omega) source (source.length - rest.length)
            values (Nat.sub_le _ _) (by omega)
          rw [List.drop_zero] at hbody
          rw [hdrop] at hrest
          rw [hround, parseWithin]
          exact h.outcome hbody hrest found

end Blocks

theorem parse_outcome (longMax : Nat) (source : Text) :
    Outcome longMax source (Translation.parse longMax source) := by
  have hblocks := parseBlocks_inside longMax (2 * source.length + 1) source 0 []
    (Nat.zero_le _) (by omega)
  rw [List.drop_zero] at hblocks
  have hparse : Translation.parse longMax source =
      (parseBlocks longMax (2 * source.length + 1) source 0 []).map (.mk .always (.name [])) := by
    rw [Translation.parse, parseWithin]
    rfl
  rw [hparse]
  rcases hblocks with ⟨hin, value, hvalue⟩ | ⟨hin, hvalue⟩ | ⟨hnot, hvalue⟩
  · exact .inl ⟨hin, _, by rw [hvalue]; rfl⟩
  · exact .inr (.inl ⟨hin, by rw [hvalue]; rfl⟩)
  · exact .inr (.inr ⟨hnot, by rw [hvalue]; rfl⟩)

/-- The text of a well-formed template is inside. -/
theorem inside_printAll {longMax : Nat} {nodes : List Node} (hwf : WfAll longMax nodes) :
    Inside longMax (printAll nodes) false := by
  have hparsed := parseBlocks_printAll nodes [] trivial hwf (2 * (printAll nodes).length + 1) [] []
    (by simp [printAll])
  have houtcome := parseBlocks_inside longMax (2 * (printAll nodes).length + 1)
    (printAll nodes) 0 [] (Nat.zero_le _) (by omega)
  simp only [printAll, List.nil_append, List.length_nil] at hparsed
  rw [hparsed, List.drop_zero] at houtcome
  rcases houtcome with ⟨hin, -⟩ | ⟨-, herror⟩ | ⟨-, herror⟩
  · exact hin
  · cases herror
  · cases herror

/-- `translation::parse` ends on every source, and stays inside of it exactly when
every tag it meets is finished. -/
theorem parse_inside_iff (longMax : Nat) (source : Text) :
    Translation.parse longMax source ≠ .error .fuel ∧
      (Translation.parse longMax source ≠ .error .outOfRange ↔
        ∃ thrown, Inside longMax source thrown) := by
  rcases parse_outcome longMax source with ⟨hin, value, hvalue⟩ | ⟨hin, hvalue⟩ | ⟨hnot, hvalue⟩
  · rw [hvalue]
    exact ⟨by simp, fun _ => ⟨false, hin⟩, fun _ => by simp⟩
  · rw [hvalue]
    exact ⟨by simp, fun _ => ⟨true, hin⟩, fun _ => by simp⟩
  · rw [hvalue]
    refine ⟨by simp, fun hne => absurd rfl hne, ?_⟩
    rintro ⟨thrown, hin⟩
    exact absurd hin (hnot thrown)

/-- An opening tag without its `>` takes the parser out of the source. -/
theorem parse_unfinished_tag :
    Translation.parse (2 ^ 31 - 1) ("<HTMT:a" : Text) = .error .outOfRange := by
  rfl

end WFA
