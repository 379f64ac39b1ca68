-- SUMMARY: Well-formed templates, their text, and how a search for tags walks over it.
import WFA.Translator.Template

/-!
# Templates and their text

A template is a list of nodes, with its text and its tree. All eight tags start
with `<` and have no other `<`, so they are found where a node starts and nowhere
else, and the search for a closing tag passes over every node in between.
-/

namespace WFA

open Text

/-! ## Templates -/

inductive Node where
  | raw (html : Text)
  | statement (type : StatementType) (name : Text)
  | block (type : BlockType) (contents : Text) (children : List Node)

namespace Node

mutual
def print : Node → Text
  | .raw html => html
  | .statement type name => type.tagOpen ++ (':' : Byte) :: (name ++ [('>' : Byte)])
  | .block type contents children =>
    type.tagOpen ++ (contents ++ (('>' : Byte) :: (printAll children ++ type.tagClose)))

def printAll : List Node → Text
  | [] => []
  | node :: nodes => node.print ++ printAll nodes
end

/-- The match type and the tag of a block. -/
def blockTag : BlockType → Text → MatchType × TranslationTag
  | .tag, contents => if contents.isEmpty then (.always, .name []) else (.tag, .name contents)
  | .code, contents => (.code, .code ((decimal contents).getD 0))
  | .condition, contents => (.condition, .condition (TranslationCondition.parse contents))

mutual
/-- The tree a node stands for. -/
def build : Node → TranslationValue
  | .raw html => .html html
  | .statement type name => type.value name
  | .block type contents children =>
    .translation (.mk (blockTag type contents).1 (blockTag type contents).2 (buildAll children))

def buildAll : List Node → List TranslationValue
  | [] => []
  | node :: nodes => node.build :: buildAll nodes
end

/-- All tags, none of which may stand in raw HTML. -/
def tags : List Text :=
  BlockType.all.map BlockType.tagOpen ++
    ([StatementType.val.tagOpen, StatementType.query.tagOpen] ++
      BlockType.all.map BlockType.tagClose)

/-- A text that stays inside its tag. -/
def Plain (t : Text) : Prop :=
  ('<' : Byte) ∉ t ∧ ('>' : Byte) ∉ t

/-- The number of a code block is a decimal `long`. -/
def CodeInRange (longMax : Nat) : BlockType → Text → Prop
  | .code, contents =>
    ∃ n, decimal contents = some n ∧ -(longMax + 1 : Int) ≤ n ∧ n ≤ longMax
  | _, _ => True

/-- Not raw HTML in front of raw HTML. -/
def Apart : Node → List Node → Prop
  | .raw _, .raw _ :: _ => False
  | _, _ => True

mutual
def Wf (longMax : Nat) : Node → Prop
  | .raw html => html ≠ [] ∧ ∀ tag ∈ tags, ¬ tag <:+: html
  | .statement _ name => Plain name
  | .block type contents children =>
    Plain contents ∧ CodeInRange longMax type contents ∧ WfAll longMax children

def WfAll (longMax : Nat) : List Node → Prop
  | [] => True
  | node :: nodes => node.Wf longMax ∧ Apart node nodes ∧ WfAll longMax nodes
end

section Lists

variable {longMax : Nat}

theorem printAll_append (ns ms : List Node) : printAll (ns ++ ms) = printAll ns ++ printAll ms := by
  induction ns with
  | nil => rfl
  | cons node ns ih => simp [printAll, ih]

theorem buildAll_append (ns ms : List Node) : buildAll (ns ++ ms) = buildAll ns ++ buildAll ms := by
  induction ns with
  | nil => rfl
  | cons node ns ih => simp [buildAll, ih]

theorem WfAll.left {ns ms : List Node} (h : WfAll longMax (ns ++ ms)) : WfAll longMax ns := by
  induction ns with
  | nil => trivial
  | cons node ns ih =>
    obtain ⟨hnode, hapart, hrest⟩ := h
    refine ⟨hnode, ?_, ih hrest⟩
    cases ns with
    | nil => cases node <;> trivial
    | cons next ns => cases node <;> cases next <;> exact hapart

theorem WfAll.right {ns ms : List Node} (h : WfAll longMax (ns ++ ms)) : WfAll longMax ms := by
  induction ns with
  | nil => exact h
  | cons node ns ih => exact ih h.2.2

end Lists

/-! ## Tags and where they start -/

/-- Nothing follows, or a tag does. -/
def AtTag (t : Text) : Prop :=
  t = [] ∨ t.head? = some ('<' : Byte)

theorem marked_tags : ∀ tag ∈ tags, Marked '<' tag := by
  intro tag htag
  simp only [tags, BlockType.all, List.map_cons, List.map_nil, List.cons_append, List.nil_append,
    List.mem_cons, List.not_mem_nil, or_false] at htag
  rcases htag with rfl | rfl | rfl | rfl | rfl | rfl | rfl | rfl
  all_goals exact ⟨_, rfl, by decide⟩

theorem tagOpen_mem (type : BlockType) : type.tagOpen ∈ tags := by
  cases type <;> simp [tags, BlockType.all]

theorem tagClose_mem (type : BlockType) : type.tagClose ∈ tags := by
  cases type <;> simp [tags, BlockType.all]

theorem statement_mem (type : StatementType) : type.tagOpen ∈ tags := by
  cases type <;> simp [tags, BlockType.all]

/-- Tags that differ do not start each other. -/
theorem tags_apart : ∀ tag ∈ tags, ∀ other ∈ tags, tag ≠ other → ¬ tag <+: other := by
  decide +kernel

/-- A text that starts with one tag does not start with another. -/
theorem not_starts {tag other t : Text} (htag : tag ∈ tags) (hother : other ∈ tags)
    (hne : tag ≠ other) : ¬ tag <+: other ++ t :=
  not_prefix_append (tags_apart tag htag other hother hne) (tags_apart other hother tag htag hne.symm)

/-- A tag, with more text that has no `<` in it, is passed by every other tag. -/
theorem passed_tag {tag other q t : Text} (htag : tag ∈ tags) (hother : other ∈ tags)
    (hne : tag ≠ other) (hq : ('<' : Byte) ∉ q) : Passed tag (other ++ q) t := by
  obtain ⟨body, rfl, hbody⟩ := marked_tags other hother
  refine passed_piece (q := body ++ q) (marked_tags tag htag) (by simp [hbody, hq]) ?_
  have := not_starts (t := q ++ t) htag hother hne
  simpa using this

theorem atTag_of_mem {tag t : Text} (htag : tag ∈ tags) : (tag ++ t).head? = some ('<' : Byte) := by
  obtain ⟨body, rfl, -⟩ := marked_tags tag htag
  rfl

/-- What follows raw HTML starts with a tag. -/
theorem atTag_printAll {html : Text} {ns : List Node} {t : Text} (h : Apart (.raw html) ns)
    (ht : AtTag t) : AtTag (printAll ns ++ t) := by
  cases ns with
  | nil => exact ht
  | cons node ns =>
    cases node with
    | raw html => exact h.elim
    | statement type name =>
      refine .inr ?_
      simp only [printAll, print, List.append_assoc]
      exact atTag_of_mem (statement_mem type)
    | block type contents children =>
      refine .inr ?_
      simp only [printAll, print, List.append_assoc]
      exact atTag_of_mem (tagOpen_mem type)

/-! ## Searching for the closing tag -/

section Searching

variable {longMax : Nat} {type : BlockType}

/-- Away from the end, the comparison with a tag is not cut short. -/
theorem startsTag_iff {tag t : Text} (hlen : tag.length ≤ t.length) :
    startsTag tag t = true ↔ tag <+: t := by
  rw [startsTag, List.take_of_length_le hlen, List.isPrefixOf_iff_prefix]

theorem tagOpen_length_le (type : BlockType) : type.tagOpen.length ≤ type.tagClose.length := by
  cases type <;> decide

/-- Text in which neither tag starts is walked over. -/
theorem tagSearchFrom_passed {depth : Int} {a t : Text} (hopen : Passed type.tagOpen a t)
    (hclose : Passed type.tagClose a t) (hlen : type.tagClose.length ≤ t.length) :
    tagSearchFrom type.tagOpen type.tagClose 0 depth (a ++ t) =
      tagSearchFrom type.tagOpen type.tagClose 0 depth t := by
  induction a with
  | nil => rfl
  | cons b a ih =>
    have hlong : type.tagClose.length ≤ (b :: (a ++ t)).length := by
      simp only [List.length_cons, List.length_append]
      omega
    have hopenHere : startsTag type.tagOpen (b :: (a ++ t)) = false := by
      rw [← Bool.not_eq_true, startsTag_iff (Nat.le_trans (tagOpen_length_le type) hlong)]
      exact hopen 0 (by simp)
    have hcloseHere : startsTag type.tagClose (b :: (a ++ t)) = false := by
      rw [← Bool.not_eq_true, startsTag_iff hlong]
      exact hclose 0 (by simp)
    rw [List.cons_append, tagSearchFrom, hopenHere, hcloseHere]
    refine ih ?_ ?_
    · intro i hi
      exact hopen (i + 1) (by simpa using hi)
    · intro i hi
      exact hclose (i + 1) (by simpa using hi)

/-- Bytes that are jumped over are not looked at. -/
theorem tagSearchFrom_skip (depth : Int) (tagOpen tagClose a t : Text) :
    tagSearchFrom tagOpen tagClose a.length depth (a ++ t) =
      tagSearchFrom tagOpen tagClose 0 depth t := by
  induction a with
  | nil => rfl
  | cons b a ih => exact ih

/-- An opening tag: the search goes on behind the byte after it. -/
theorem tagSearchFrom_open {depth : Int} (b : Byte) (t : Text) :
    tagSearchFrom type.tagOpen type.tagClose 0 depth (type.tagOpen ++ b :: t) =
      tagSearchFrom type.tagOpen type.tagClose 0 (depth + 1) t := by
  obtain ⟨body, hbody, -⟩ := marked_tags _ (tagOpen_mem type)
  have hstarts : startsTag type.tagOpen (type.tagOpen ++ b :: t) = true := by
    rw [startsTag_iff (by simp)]
    exact List.prefix_append _ _
  have hlen : type.tagOpen.length = (body ++ [b]).length := by simp [hbody]
  have hskip := tagSearchFrom_skip (depth + 1) type.tagOpen type.tagClose (body ++ [b]) t
  rw [← hlen, List.append_assoc, List.singleton_append] at hskip
  have htext : type.tagOpen ++ b :: t = ('<' : Byte) :: (body ++ b :: t) := by simp [hbody]
  rw [htext] at hstarts ⊢
  rw [tagSearchFrom, if_pos hstarts, hskip]

/-- A closing tag is not taken for the opening one. -/
theorem startsTag_close (type : BlockType) (t : Text) :
    startsTag type.tagOpen (type.tagClose ++ t) = false ∧
      startsTag type.tagClose (type.tagClose ++ t) = true := by
  have hlong : type.tagClose.length ≤ (type.tagClose ++ t).length := by simp
  constructor
  · rw [← Bool.not_eq_true, startsTag_iff (Nat.le_trans (tagOpen_length_le type) hlong)]
    exact not_starts (tagOpen_mem type) (tagClose_mem type) (by cases type <;> decide)
  · rw [startsTag_iff hlong]
    exact List.prefix_append _ _

/-- A closing tag inside: one level up, and the search walks over its rest. -/
theorem tagSearchFrom_close_inner {depth : Int} {t : Text} (hdepth : depth ≠ 0)
    (hlen : type.tagClose.length ≤ t.length) :
    tagSearchFrom type.tagOpen type.tagClose 0 depth (type.tagClose ++ t) =
      tagSearchFrom type.tagOpen type.tagClose 0 (depth - 1) t := by
  obtain ⟨body, hbody, hmark⟩ := marked_tags _ (tagClose_mem type)
  obtain ⟨hopen, hclose⟩ := startsTag_close type t
  have htext : type.tagClose ++ t = ('<' : Byte) :: (body ++ t) := by simp [hbody]
  rw [htext] at hopen hclose ⊢
  rw [tagSearchFrom, hopen, if_neg (by simp), if_pos hclose, if_neg hdepth]
  exact tagSearchFrom_passed (passed_of_not_mem (marked_tags _ (tagOpen_mem type)) hmark)
    (passed_of_not_mem (marked_tags _ (tagClose_mem type)) hmark) hlen

/-- The closing tag of the block. -/
theorem tagSearchFrom_close (t : Text) :
    tagSearchFrom type.tagOpen type.tagClose 0 0 (type.tagClose ++ t) = .ok t := by
  obtain ⟨body, hbody, -⟩ := marked_tags _ (tagClose_mem type)
  obtain ⟨hopen, hclose⟩ := startsTag_close type t
  have hlong : type.tagClose.length ≤ (type.tagClose ++ t).length := by simp
  have hdrop : (type.tagClose ++ t).drop type.tagClose.length = t := by simp
  have htext : type.tagClose ++ t = ('<' : Byte) :: (body ++ t) := by simp [hbody]
  rw [htext] at hopen hclose hlong hdrop ⊢
  rw [tagSearchFrom, hopen, if_neg (by simp), if_pos hclose, if_pos rfl, if_pos hlong, hdrop]

/-- The text of an opening tag behind its first byte, up to its `>`. -/
theorem contents_step {contents : Text} (h : Plain contents) (t : Text) :
    ∃ b q, contents ++ ('>' : Byte) :: t = b :: (q ++ t) ∧ ('<' : Byte) ∉ q := by
  cases contents with
  | nil => exact ⟨'>', [], rfl, by simp⟩
  | cons b q =>
    refine ⟨b, q ++ [('>' : Byte)], by simp, ?_⟩
    have hq : ('<' : Byte) ∉ q := fun hmem => h.1 (by simp [hmem])
    simp +decide [hq]

mutual
/-- The search for a closing tag passes over a node. -/
theorem tagSearchFrom_print {depth : Int} (hdepth : 0 ≤ depth) :
    (node : Node) → node.Wf longMax → ∀ t : Text, type.tagClose.length ≤ t.length →
    (∀ html, node = .raw html → AtTag t) →
    tagSearchFrom type.tagOpen type.tagClose 0 depth (node.print ++ t) =
      tagSearchFrom type.tagOpen type.tagClose 0 depth t
  | .raw html, hwf, t, hlen, hat => by
    exact tagSearchFrom_passed
      (passed_raw (marked_tags _ (tagOpen_mem type)) (hwf.2 _ (tagOpen_mem type)) (hat html rfl))
      (passed_raw (marked_tags _ (tagClose_mem type)) (hwf.2 _ (tagClose_mem type)) (hat html rfl))
      hlen
  | .statement kind name, hwf, t, hlen, _ => by
    have hq : ('<' : Byte) ∉ (':' : Byte) :: (name ++ [('>' : Byte)]) := by
      simp +decide [hwf.1]
    exact tagSearchFrom_passed
      (passed_tag (tagOpen_mem type) (statement_mem kind)
        (by cases type <;> cases kind <;> decide) hq)
      (passed_tag (tagClose_mem type) (statement_mem kind)
        (by cases type <;> cases kind <;> decide) hq) hlen
  | .block inner contents children, hwf, t, hlen, _ => by
    obtain ⟨hcontents, -, hchildren⟩ := hwf
    have hinner : type.tagClose.length ≤ (inner.tagClose ++ t).length := by
      simp only [List.length_append]
      omega
    have hbody : type.tagClose.length ≤ (printAll children ++ (inner.tagClose ++ t)).length := by
      simp only [List.length_append] at hinner ⊢
      omega
    have hat : AtTag (inner.tagClose ++ t) := .inr (atTag_of_mem (tagClose_mem inner))
    by_cases hsame : type = inner
    · subst hsame
      obtain ⟨b, q, htext, hq⟩ := contents_step hcontents (printAll children ++ (type.tagClose ++ t))
      have hopen := marked_tags _ (tagOpen_mem type)
      have hclose := marked_tags _ (tagClose_mem type)
      calc tagSearchFrom type.tagOpen type.tagClose 0 depth
            ((Node.block type contents children).print ++ t)
          = tagSearchFrom type.tagOpen type.tagClose 0 depth (type.tagOpen ++ b :: (q ++
              (printAll children ++ (type.tagClose ++ t)))) := by
            rw [← htext]
            simp [print]
        _ = tagSearchFrom type.tagOpen type.tagClose 0 (depth + 1) (q ++
              (printAll children ++ (type.tagClose ++ t))) := tagSearchFrom_open _ _
        _ = tagSearchFrom type.tagOpen type.tagClose 0 (depth + 1)
              (printAll children ++ (type.tagClose ++ t)) :=
            tagSearchFrom_passed (passed_of_not_mem hopen hq) (passed_of_not_mem hclose hq) hbody
        _ = tagSearchFrom type.tagOpen type.tagClose 0 (depth + 1) (type.tagClose ++ t) :=
            tagSearchFrom_printAll (by omega) children hchildren _ hinner hat
        _ = tagSearchFrom type.tagOpen type.tagClose 0 depth t := by
            rw [tagSearchFrom_close_inner (by omega) hlen, Int.add_sub_cancel]
    · have hq : ('<' : Byte) ∉ contents ++ [('>' : Byte)] := by
        simp +decide [hcontents.1]
      have hopenOpen : type.tagOpen ≠ inner.tagOpen := by
        cases type <;> cases inner <;> first | exact absurd rfl hsame | decide
      have hcloseOpen : type.tagClose ≠ inner.tagOpen := by
        cases type <;> cases inner <;> decide
      have hopenClose : type.tagOpen ≠ inner.tagClose := by
        cases type <;> cases inner <;> decide
      have hcloseClose : type.tagClose ≠ inner.tagClose := by
        cases type <;> cases inner <;> first | exact absurd rfl hsame | decide
      calc tagSearchFrom type.tagOpen type.tagClose 0 depth
            ((Node.block inner contents children).print ++ t)
          = tagSearchFrom type.tagOpen type.tagClose 0 depth ((inner.tagOpen ++
              (contents ++ [('>' : Byte)])) ++ (printAll children ++ (inner.tagClose ++ t))) := by
            simp [print]
        _ = tagSearchFrom type.tagOpen type.tagClose 0 depth
              (printAll children ++ (inner.tagClose ++ t)) :=
            tagSearchFrom_passed (passed_tag (tagOpen_mem type) (tagOpen_mem inner) hopenOpen hq)
              (passed_tag (tagClose_mem type) (tagOpen_mem inner) hcloseOpen hq) hbody
        _ = tagSearchFrom type.tagOpen type.tagClose 0 depth ((inner.tagClose ++ []) ++ t) := by
            rw [List.append_nil]
            exact tagSearchFrom_printAll hdepth children hchildren _ hinner hat
        _ = tagSearchFrom type.tagOpen type.tagClose 0 depth t :=
            tagSearchFrom_passed
              (passed_tag (tagOpen_mem type) (tagClose_mem inner) hopenClose (by simp))
              (passed_tag (tagClose_mem type) (tagClose_mem inner) hcloseClose (by simp)) hlen

theorem tagSearchFrom_printAll {depth : Int} (hdepth : 0 ≤ depth) :
    (nodes : List Node) → WfAll longMax nodes → ∀ t : Text,
    type.tagClose.length ≤ t.length → AtTag t →
    tagSearchFrom type.tagOpen type.tagClose 0 depth (printAll nodes ++ t) =
      tagSearchFrom type.tagOpen type.tagClose 0 depth t
  | [], _, _, _, _ => rfl
  | node :: nodes, hwf, t, hlen, hat => by
    obtain ⟨hnode, hapart, hnodes⟩ := hwf
    have hrest : type.tagClose.length ≤ (printAll nodes ++ t).length := by
      simp only [List.length_append]
      omega
    rw [printAll, List.append_assoc, tagSearchFrom_print hdepth node hnode _ hrest ?_]
    · exact tagSearchFrom_printAll hdepth nodes hnodes t hlen hat
    · rintro html rfl
      exact atTag_printAll hapart hat
end

/-- From the start of a block, the search ends behind it. -/
theorem tagSearchFrom_block {contents : Text} {children : List Node} (hcontents : Plain contents)
    (hchildren : WfAll longMax children) (t : Text) :
    tagSearchFrom type.tagOpen type.tagClose 0 (-1)
      ((Node.block type contents children).print ++ t) = .ok t := by
  obtain ⟨b, q, htext, hq⟩ := contents_step hcontents (printAll children ++ (type.tagClose ++ t))
  have hopen := marked_tags _ (tagOpen_mem type)
  have hclose := marked_tags _ (tagClose_mem type)
  have hlen : type.tagClose.length ≤ (type.tagClose ++ t).length := by simp
  have hprint : (Node.block type contents children).print ++ t =
      type.tagOpen ++ b :: (q ++ (printAll children ++ (type.tagClose ++ t))) := by
    rw [← htext]
    simp [print]
  rw [hprint, tagSearchFrom_open, tagSearchFrom_passed (passed_of_not_mem hopen hq)
      (passed_of_not_mem hclose hq) (by simp only [List.length_append]; omega),
    tagSearchFrom_printAll (by omega) children hchildren _ hlen
      (.inr (atTag_of_mem (tagClose_mem type)))]
  exact tagSearchFrom_close t

end Searching

end Node

end WFA
