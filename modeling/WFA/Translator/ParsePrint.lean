-- SUMMARY: `translation::parse` reads the text of a template back to its tree.
import WFA.Translator.Print

/-!
# Parsing undoes printing

The text of a well-formed template is parsed to exactly its tree:
`parse_printAll`. The parser takes the nodes in front of a block together, so the
induction over a list of nodes carries the flat nodes met so far.
-/

namespace WFA

open Text Translation

namespace Node

section Flat

variable {longMax : Nat}

/-! ## Finding the next tag -/

theorem findText_ne_zero {word t : Text} (h : ¬ word <+: t) : findText word t ≠ some 0 := by
  cases t with
  | nil =>
    cases word with
    | nil => exact absurd List.nil_prefix h
    | cons b word => simp [findText]
  | cons b t =>
    have hnot : word.isPrefixOf (b :: t) = false := by
      rw [← Bool.not_eq_true, List.isPrefixOf_iff_prefix]
      exact h
    simp [findText, hnot]

/-- Where the first tag is found behind a text that is passed. -/
theorem findText_at {tag a t : Text} (hpassed : Passed tag a (tag ++ t)) :
    findText tag (a ++ (tag ++ t)) = some a.length := by
  rw [findText_passed hpassed, findText_here (List.prefix_append tag t)]
  rfl

/-- Another tag is found later. -/
theorem findText_later {tag other a t : Text} {j : Nat} (htag : tag ∈ tags) (hother : other ∈ tags)
    (hne : tag ≠ other) (hpassed : Passed tag a (other ++ t))
    (hj : findText tag (a ++ (other ++ t)) = some j) : a.length < j := by
  rw [findText_passed hpassed] at hj
  cases hfound : findText tag (other ++ t) with
  | none => simp [hfound] at hj
  | some i =>
    have hpos : i ≠ 0 := by
      rintro rfl
      exact findText_ne_zero (not_starts htag hother hne) hfound
    simp only [hfound, Option.map_some, Option.some.injEq] at hj
    omega

theorem nextStatement_at {a t : Text} (type : StatementType)
    (hpassed : ∀ other : StatementType, Passed other.tagOpen a (type.tagOpen ++ t)) :
    nextStatement (a ++ (type.tagOpen ++ t)) = some (a.length, type) := by
  have hown := findText_at (hpassed type)
  unfold nextStatement
  cases type with
  | val =>
    rw [hown]
    cases hquery : findText StatementType.query.tagOpen (a ++ (StatementType.val.tagOpen ++ t)) with
    | none => rfl
    | some j =>
      have hlt := findText_later (statement_mem .query) (statement_mem .val) (by decide)
        (hpassed .query) hquery
      simp [Nat.not_lt_of_lt hlt]
  | query =>
    rw [hown]
    cases hval : findText StatementType.val.tagOpen (a ++ (StatementType.query.tagOpen ++ t)) with
    | none => rfl
    | some j =>
      have hlt := findText_later (statement_mem .val) (statement_mem .query) (by decide)
        (hpassed .val) hval
      simp [hlt]

theorem nextStatement_none {a : Text}
    (hpassed : ∀ other : StatementType, Passed other.tagOpen a []) : nextStatement a = none := by
  have hnone : ∀ other : StatementType, findText other.tagOpen a = none := fun other =>
    findText_passed_nil (marked_tags _ (statement_mem other)).ne_nil (hpassed other)
  simp [nextStatement, hnone]

theorem minElement_at {a t : Text} (type : BlockType)
    (hpassed : ∀ other : BlockType, Passed other.tagOpen a (type.tagOpen ++ t)) :
    minElement (findNextSet (a ++ (type.tagOpen ++ t))) = (type, some a.length) := by
  have hown := findText_at (hpassed type)
  have hlater : ∀ other : BlockType, other.tagOpen ≠ type.tagOpen → ∀ j,
      findText other.tagOpen (a ++ (type.tagOpen ++ t)) = some j → a.length < j :=
    fun other hne j hj => findText_later (tagOpen_mem other) (tagOpen_mem type) hne
      (hpassed other) hj
  -- `before` on the two other kinds, whichever they are.
  have hafter : ∀ other : BlockType, other.tagOpen ≠ type.tagOpen →
      before (findText other.tagOpen (a ++ (type.tagOpen ++ t))) (some a.length) = false ∧
        before (some a.length) (findText other.tagOpen (a ++ (type.tagOpen ++ t))) = true := by
    intro other hne
    cases hfound : findText other.tagOpen (a ++ (type.tagOpen ++ t)) with
    | none => exact ⟨rfl, rfl⟩
    | some j =>
      have := hlater other hne j hfound
      simp only [before, decide_eq_false_iff_not, decide_eq_true_eq]
      omega
  unfold minElement findNextSet
  cases type with
  | tag =>
    simp [BlockType.all, hown, (hafter .code (by decide)).1, (hafter .condition (by decide)).1]
  | code =>
    simp [BlockType.all, hown, (hafter .tag (by decide)).2, (hafter .condition (by decide)).1]
  | condition =>
    have htag := hafter .tag (by decide)
    have hcode := hafter .code (by decide)
    simp only [BlockType.all, List.map_cons, List.map_nil, List.foldl_cons, List.foldl_nil, hown]
    -- Whichever of the first two is nearer, the third one is before it.
    cases before (findText BlockType.code.tagOpen (a ++ (BlockType.condition.tagOpen ++ t)))
        (findText BlockType.tag.tagOpen (a ++ (BlockType.condition.tagOpen ++ t))) with
    | true => simp [hcode.2]
    | false => simp [htag.2]

theorem minElement_none {a : Text} (hpassed : ∀ other : BlockType, Passed other.tagOpen a []) :
    (minElement (findNextSet a)).2 = none := by
  have hnone : ∀ other : BlockType, findText other.tagOpen a = none := fun other =>
    findText_passed_nil (marked_tags _ (tagOpen_mem other)).ne_nil (hpassed other)
  simp [minElement, findNextSet, BlockType.all, hnone, before]

/-! ## Flat nodes -/

/-- Raw HTML and single statements only. -/
def Flat : List Node → Prop
  | [] => True
  | .block _ _ _ :: _ => False
  | _ :: nodes => Flat nodes

theorem Flat.append {ns ms : List Node} (hns : Flat ns) (hms : Flat ms) : Flat (ns ++ ms) := by
  induction ns with
  | nil => exact hms
  | cons node ns ih =>
    cases node with
    | raw html => exact ih hns
    | statement type name => exact ih hns
    | block type contents children => exact hns.elim

theorem passed_statement {tag name t : Text} (htag : tag ∈ tags) (type : StatementType)
    (hne : tag ≠ type.tagOpen) (hname : Plain name) : Passed tag (Node.statement type name).print t := by
  have hq : ('<' : Byte) ∉ (':' : Byte) :: (name ++ [('>' : Byte)]) := by
    simp +decide [hname.1]
  exact passed_tag htag (statement_mem type) hne hq

theorem tagOpen_ne_statement (type : BlockType) (kind : StatementType) :
    type.tagOpen ≠ kind.tagOpen := by
  cases type <;> cases kind <;> decide

/-- No block starts in flat nodes. -/
theorem passed_flat {type : BlockType} {nodes : List Node} {t : Text} (hflat : Flat nodes)
    (hwf : WfAll longMax nodes) (hat : AtTag t) : Passed type.tagOpen (printAll nodes) t := by
  induction nodes with
  | nil => exact passed_nil
  | cons node nodes ih =>
    obtain ⟨hnode, hapart, hnodes⟩ := hwf
    cases node with
    | raw html =>
      have hraw := passed_raw (marked_tags _ (tagOpen_mem type)) (hnode.2 _ (tagOpen_mem type))
        (atTag_printAll hapart hat)
      exact hraw.append (ih hflat hnodes)
    | statement kind name =>
      exact (passed_statement (tagOpen_mem type) kind (tagOpen_ne_statement type kind) hnode).append
        (ih hflat hnodes)
    | block kind contents children => exact hflat.elim

/-- Raw HTML in front of a statement or at the end, or none. -/
theorem passed_raw_statements {html t : Text} (other : StatementType)
    (hhtml : ∀ tag ∈ tags, ¬ tag <:+: html) (hat : AtTag t) : Passed other.tagOpen html t :=
  passed_raw (marked_tags _ (statement_mem other)) (hhtml _ (statement_mem other)) hat

/-! ## `parseSubHTML` -/

/-- Raw HTML, when there is any. -/
def rawValues (html : Text) : List TranslationValue :=
  if html.isEmpty then [] else [.html html]

/-- The empty text holds no tag. -/
theorem noTag_nil : ∀ tag ∈ tags, ¬ tag <:+: [] := by
  intro tag htag hinside
  exact (marked_tags tag htag).ne_nil (List.infix_nil.mp hinside)

/-- The last round: raw HTML up to the end. -/
theorem parseSubHTMLFrom_raw {fuel : Nat} {pre html : Text} {values : List TranslationValue}
    (hhtml : ∀ tag ∈ tags, ¬ tag <:+: html) :
    parseSubHTMLFrom (fuel + 1) (pre ++ html) pre.length values =
      .ok (values ++ rawValues html) := by
  have hnone : nextStatement html = none :=
    nextStatement_none fun other => passed_raw_statements other hhtml (.inl rfl)
  unfold parseSubHTMLFrom
  cases html with
  | nil => simp [rawValues, pure, Except.pure]
  | cons b html =>
    have hslice : slice (pre ++ b :: html) pre.length (pre ++ b :: html).length = b :: html :=
      slice_eq (c := []) (by simp) rfl (by simp)
    simp only [List.drop_left', hnone, hslice]
    simp [rawValues, pure, Except.pure]

/-- One round: raw HTML and the statement behind it. -/
theorem parseSubHTMLFrom_statement {fuel : Nat} {pre html name t : Text}
    {values : List TranslationValue} (type : StatementType)
    (hhtml : ∀ tag ∈ tags, ¬ tag <:+: html) (hname : Plain name) :
    parseSubHTMLFrom (fuel + 1) (pre ++ (html ++ ((Node.statement type name).print ++ t)))
        pre.length values =
      parseSubHTMLFrom fuel (pre ++ (html ++ ((Node.statement type name).print ++ t)))
        (pre ++ (html ++ (Node.statement type name).print)).length
        (values ++ (rawValues html ++ [type.value name])) := by
  have hfound : nextStatement (html ++ ((Node.statement type name).print ++ t)) =
      some (html.length, type) := by
    simp only [print, List.append_assoc]
    exact nextStatement_at type fun other =>
      passed_raw_statements other hhtml (.inr (atTag_of_mem (statement_mem type)))
  generalize hsource : pre ++ (html ++ ((Node.statement type name).print ++ t)) = source
  have hdrop : source.drop pre.length = html ++ ((Node.statement type name).print ++ t) := by
    simp [← hsource]
  have hlen : pre.length ≠ source.length := by
    simp only [← hsource, print, List.length_append, List.length_cons]
    omega
  have hstart : advance source (pre.length + html.length) (type.tagOpen.length + 1) =
      .ok (pre.length + html.length + (type.tagOpen.length + 1)) := by
    apply advance_le
    simp only [← hsource, print, List.length_append, List.length_cons]
    omega
  have hend : find source (pre.length + html.length + (type.tagOpen.length + 1)) source.length '>' =
      .ok (pre.length + html.length + (type.tagOpen.length + 1) + name.length) := by
    have := find_eq (t := source) (a := pre ++ (html ++ (type.tagOpen ++ [(':' : Byte)])))
      (b := name ++ ('>' : Byte) :: t) (c := []) (x := '>') (by simp [← hsource, print])
      (by simp only [List.length_append, List.length_singleton]; omega :
        pre.length + html.length + (type.tagOpen.length + 1) = _)
      (by simp [← hsource, print]; omega : source.length = _)
    rwa [indexOf_append hname.2] at this
  have hview : view source (pre.length + html.length + (type.tagOpen.length + 1))
      (pre.length + html.length + (type.tagOpen.length + 1) + name.length -
        (pre.length + html.length + (type.tagOpen.length + 1))) = .ok name :=
    view_eq (a := pre ++ (html ++ (type.tagOpen ++ [(':' : Byte)]))) (b := name)
      (c := ('>' : Byte) :: t) (by simp [← hsource, print]) (by simp)
      (by simp only [List.length_append, List.length_singleton]; omega) (by omega)
  have hnext : pre.length + html.length + (type.tagOpen.length + 1) + name.length ≠
      source.length := by
    simp only [← hsource, print, List.length_append, List.length_cons]
    omega
  have hafter : pre.length + html.length + (type.tagOpen.length + 1) + name.length + 1 =
      (pre ++ (html ++ (Node.statement type name).print)).length := by
    simp only [print, List.length_append, List.length_cons, List.length_nil]
    omega
  have hslice : slice source pre.length (pre.length + html.length) = html :=
    slice_eq (a := pre) (b := html) (c := (Node.statement type name).print ++ t) hsource.symm rfl rfl
  have hraw : (if pre.length ≠ pre.length + html.length then values ++ [.html html] else values) =
      values ++ rawValues html := by
    cases html <;> simp [rawValues]
  rw [parseSubHTMLFrom, if_neg hlen]
  simp only [hdrop, hfound, hslice, hraw, hstart, hend, hview, bind, Except.bind]
  rw [if_pos hnext, hafter, List.append_assoc]

/-- Flat nodes are taken over as they are. -/
theorem parseSubHTMLFrom_flat :
    (nodes : List Node) → Flat nodes → WfAll longMax nodes →
    ∀ (pre : Text) (values : List TranslationValue) (fuel : Nat), (printAll nodes).length < fuel →
    parseSubHTMLFrom fuel (pre ++ printAll nodes) pre.length values =
      .ok (values ++ buildAll nodes)
  | [], _, _, pre, values, fuel, hfuel => by
    obtain ⟨fuel, rfl⟩ : ∃ m, fuel = m + 1 := ⟨fuel - 1, by omega⟩
    have hraw : parseSubHTMLFrom (fuel + 1) (pre ++ []) pre.length values =
        .ok (values ++ rawValues []) := parseSubHTMLFrom_raw noTag_nil
    simpa [printAll, buildAll, rawValues] using hraw
  | [.raw html], _, hwf, pre, values, fuel, hfuel => by
    obtain ⟨fuel, rfl⟩ : ∃ m, fuel = m + 1 := ⟨fuel - 1, by omega⟩
    simp only [printAll, print, List.append_nil, buildAll, build]
    rw [parseSubHTMLFrom_raw hwf.1.2]
    simp [rawValues, hwf.1.1]
  | .raw html :: .statement type name :: nodes, hflat, hwf, pre, values, fuel, hfuel => by
    obtain ⟨⟨hne, hhtml⟩, -, hname, -, hnodes⟩ := hwf
    obtain ⟨fuel, rfl⟩ : ∃ m, fuel = m + 1 := ⟨fuel - 1, by omega⟩
    have hrest := parseSubHTMLFrom_flat nodes hflat hnodes
      (pre ++ (html ++ (Node.statement type name).print))
      (values ++ (rawValues html ++ [type.value name])) fuel (by
        simp only [printAll, print, List.length_append, List.length_cons] at hfuel
        omega)
    simp only [printAll]
    rw [show (Node.raw html).print = html from rfl, parseSubHTMLFrom_statement type hhtml hname]
    simpa [rawValues, hne, buildAll, build] using hrest
  | .statement type name :: nodes, hflat, hwf, pre, values, fuel, hfuel => by
    obtain ⟨hname, -, hnodes⟩ := hwf
    obtain ⟨fuel, rfl⟩ : ∃ m, fuel = m + 1 := ⟨fuel - 1, by omega⟩
    have hrest := parseSubHTMLFrom_flat nodes hflat hnodes
      (pre ++ ([] ++ (Node.statement type name).print))
      (values ++ (rawValues [] ++ [type.value name])) fuel (by
        simp only [printAll, print, List.length_append, List.length_cons] at hfuel
        omega)
    -- the statement lemma at an empty stretch of text before the statement
    have hround :
        parseSubHTMLFrom (fuel + 1) (pre ++ ([] ++ ((Node.statement type name).print ++ printAll nodes)))
            pre.length values = _ :=
      parseSubHTMLFrom_statement type noTag_nil hname
    simp only [printAll]
    rw [List.nil_append] at hround
    rw [hround]
    simpa [rawValues, buildAll, build] using hrest

theorem parseSubHTML_flat {nodes : List Node} (hflat : Flat nodes) (hwf : WfAll longMax nodes)
    (values : List TranslationValue) :
    parseSubHTML values (printAll nodes) = .ok (values ++ buildAll nodes) :=
  parseSubHTMLFrom_flat nodes hflat hwf [] values _ (Nat.lt_succ_self _)

theorem parseFront_flat {nodes : List Node} (hflat : Flat nodes) (hwf : WfAll longMax nodes)
    (values : List TranslationValue) :
    parseFront values (printAll nodes).length (printAll nodes) =
      .ok (values ++ buildAll nodes) := by
  have hparsed := parseSubHTML_flat hflat hwf values
  unfold parseFront
  split
  · exact hparsed
  · rename_i hempty
    have hnil : printAll nodes = [] := List.length_eq_zero_iff.mp (by omega)
    rw [← hparsed, hnil]
    rfl

end Flat

/-! ## The loop over the blocks -/

section Blocks

variable {longMax : Nat}

theorem parseTag_eq {type : BlockType} {contents : Text} (h : CodeInRange longMax type contents) :
    parseTag longMax type contents = .ok (blockTag type contents) := by
  cases type with
  | tag => cases contents <;> rfl
  | code =>
    obtain ⟨n, hn, hlow, hhigh⟩ := h
    simp [parseTag, blockTag, stol_decimal hn hlow hhigh, hn, bind, Except.bind, pure, Except.pure]
  | condition => rfl

/-- The last round: no block is left. -/
theorem parseBlocks_flat {fuel : Nat} {pre : Text} {flat : List Node}
    {values : List TranslationValue} (hflat : Flat flat) (hwf : WfAll longMax flat) :
    parseBlocks longMax (fuel + 1) (pre ++ printAll flat) pre.length values =
      .ok (values ++ buildAll flat) := by
  have hslice : slice (pre ++ printAll flat) pre.length (pre ++ printAll flat).length =
      printAll flat := slice_eq (c := []) (by simp) rfl (by simp)
  have hmin : (minElement (findNextSet (printAll flat))).2 = none :=
    minElement_none fun other => passed_flat hflat hwf (.inl rfl)
  rw [parseBlocks, hslice]
  cases hfound : minElement (findNextSet (printAll flat)) with
  | mk type min =>
    obtain rfl : min = none := by simpa [hfound] using hmin
    exact parseSubHTML_flat hflat hwf values

/-- One round over a block, wherever its last bytes come from: the text in front
of it, its inside, its tag, and the rest. -/
theorem parseBlocks_round {fuel : Nat} {source pre front name body closer rest : Text}
    {type : BlockType} {values found : List TranslationValue}
    (hsource : source =
      pre ++ (front ++ (type.tagOpen ++ (name ++ ('>' : Byte) :: (body ++ (closer ++ rest))))))
    (hmin : minElement (findNextSet (source.drop pre.length)) = (type, some front.length))
    (hfront : parseFront values front.length front = .ok found) (hname : ('>' : Byte) ∉ name)
    (hcloser : closer.length = type.tagClose.length)
    (hlast : tagSearch source (pre.length + front.length) type =
      .ok (source.length - rest.length)) :
    parseBlocks longMax (fuel + 1) source pre.length values = (do
      let (.mk _ _ children) ← parseWithin longMax fuel body
      let (matchType, tag) ← parseTag longMax type name
      parseBlocks longMax fuel source (source.length - rest.length)
        (found ++ [.translation (.mk matchType tag children)])) := by
  have hlength : source.length = pre.length + front.length + type.tagOpen.length + name.length + 1 +
      body.length + type.tagClose.length + rest.length := by
    simp only [hsource, List.length_append, List.length_cons, hcloser]
    omega
  have hslice : slice source pre.length source.length = source.drop pre.length :=
    List.take_of_length_le (by simp)
  have hslice' : slice source pre.length (pre.length + front.length) = front :=
    slice_eq hsource rfl rfl
  -- The positions inside the block.
  have hopen : advance source (pre.length + front.length) type.tagOpen.length =
      .ok (pre.length + front.length + type.tagOpen.length) := advance_le (by omega)
  have hclose : find source (pre.length + front.length + type.tagOpen.length) source.length '>' =
      .ok (pre.length + front.length + type.tagOpen.length + name.length) := by
    have hfind := find_eq (t := source) (a := pre ++ (front ++ type.tagOpen))
      (b := name ++ ('>' : Byte) :: (body ++ (closer ++ rest))) (c := []) (x := '>')
      (by simp [hsource]) (by simp only [List.length_append]; omega :
        pre.length + front.length + type.tagOpen.length = _)
      (by simp [hsource]; omega : source.length = _)
    rwa [indexOf_append hname] at hfind
  have hfirst : advance source (pre.length + front.length + type.tagOpen.length + name.length) 1 =
      .ok (pre.length + front.length + type.tagOpen.length + name.length + 1) :=
    advance_le (by omega)
  have hroom : ¬ pre.length + front.length + type.tagOpen.length + name.length + 1 +
      type.tagClose.length > source.length - rest.length := by omega
  have hbody : view source (pre.length + front.length + type.tagOpen.length + name.length + 1)
      (source.length - rest.length -
        (pre.length + front.length + type.tagOpen.length + name.length + 1) -
        type.tagClose.length) = .ok body := by
    refine view_eq (a := pre ++ (front ++ (type.tagOpen ++ (name ++ [('>' : Byte)]))))
      (c := closer ++ rest) (by simp [hsource]) ?_ ?_ ?_
    · obtain ⟨tag, hmark, -⟩ := marked_tags _ (tagClose_mem type)
      have hpos : 0 < closer.length := by simp [hcloser, hmark]
      have hne : closer ≠ [] := List.ne_nil_of_length_pos hpos
      simp [hne]
    · simp only [List.length_append, List.length_singleton]
      omega
    · omega
  have htag : slice source (pre.length + front.length + type.tagOpen.length)
      (pre.length + front.length + type.tagOpen.length + name.length) = name :=
    slice_eq (a := pre ++ (front ++ type.tagOpen)) (b := name)
      (c := ('>' : Byte) :: (body ++ (closer ++ rest))) (by simp [hsource])
      (by simp only [List.length_append]; omega) (by simp only [List.length_append]; omega)
  rw [parseBlocks, hslice, hmin]
  rcases hinner : parseWithin longMax fuel body with trap | ⟨_, _, children⟩ <;>
    simp only [hslice', hfront, hopen, hclose, hlast, hfirst, hroom, hbody, htag, hinner, bind,
      Except.bind, if_false]

/-- One round: the flat nodes in front of a block, and the block. -/
theorem parseBlocks_block {fuel : Nat} {pre contents t : Text} {type : BlockType}
    {flat children : List Node} {values : List TranslationValue}
    (hflat : Flat flat) (hwf : WfAll longMax flat)
    (hblock : (Node.block type contents children).Wf longMax)
    (hchildren : parseWithin longMax fuel (printAll children) =
      .ok (.mk .always (.name []) (buildAll children))) :
    parseBlocks longMax (fuel + 1)
        (pre ++ (printAll flat ++ ((Node.block type contents children).print ++ t))) pre.length
        values =
      parseBlocks longMax fuel
        (pre ++ (printAll flat ++ ((Node.block type contents children).print ++ t)))
        (pre ++ (printAll flat ++ (Node.block type contents children).print)).length
        (values ++ buildAll flat ++ [(Node.block type contents children).build]) := by
  obtain ⟨hcontents, hcode, hwfChildren⟩ := hblock
  generalize hsource :
    pre ++ (printAll flat ++ ((Node.block type contents children).print ++ t)) = source
  have hmin : minElement (findNextSet (source.drop pre.length)) =
      (type, some (printAll flat).length) := by
    rw [← hsource, List.drop_left]
    simp only [print, List.append_assoc]
    exact minElement_at type fun other =>
      passed_flat hflat hwf (.inr (atTag_of_mem (tagOpen_mem type)))
  have hend : (pre ++ (printAll flat ++ (Node.block type contents children).print)).length =
      source.length - t.length := by
    simp only [← hsource, List.length_append]
    omega
  have hlast : tagSearch source (pre.length + (printAll flat).length) type =
      .ok (source.length - t.length) := by
    have hdrop : source.drop (pre.length + (printAll flat).length) =
        (Node.block type contents children).print ++ t := by
      rw [← hsource, ← List.append_assoc, ← List.length_append, List.drop_left]
    simp [tagSearch, hdrop, tagSearchFrom_block hcontents hwfChildren, bind, Except.bind,
      pure, Except.pure]
  have hblock : source = pre ++ (printAll flat ++ (type.tagOpen ++ (contents ++
      ('>' : Byte) :: (printAll children ++ (type.tagClose ++ t))))) := by
    simp [← hsource, print]
  rw [hend, parseBlocks_round hblock hmin (parseFront_flat hflat hwf values) hcontents.2 rfl hlast]
  simp only [hchildren, parseTag_eq hcode, bind, Except.bind, build]

theorem parseWithin_of_blocks {fuel : Nat} {nodes : List Node}
    (h : parseBlocks longMax fuel ([] ++ (printAll [] ++ printAll nodes)) ([] : Text).length [] =
      .ok ([] ++ (buildAll [] ++ buildAll nodes))) :
    parseWithin longMax (fuel + 1) (printAll nodes) =
      .ok (.mk .always (.name []) (buildAll nodes)) := by
  simp only [printAll, buildAll, List.nil_append, List.length_nil] at h
  simp [parseWithin, h, bind, Except.bind, pure, Except.pure]

theorem parseBlocks_printAll :
    (nodes : List Node) → ∀ flat : List Node, Flat flat → WfAll longMax (flat ++ nodes) →
    ∀ (fuel : Nat) (pre : Text) (values : List TranslationValue),
    2 * (printAll flat ++ printAll nodes).length + 1 ≤ fuel →
    parseBlocks longMax fuel (pre ++ (printAll flat ++ printAll nodes)) pre.length values =
      .ok (values ++ (buildAll flat ++ buildAll nodes))
  | [], flat, hflat, hwf, fuel, pre, values, hfuel => by
    obtain ⟨fuel, rfl⟩ : ∃ m, fuel = m + 1 := ⟨fuel - 1, by omega⟩
    simpa [printAll, buildAll] using parseBlocks_flat hflat hwf.left
  | .raw html :: nodes, flat, hflat, hwf, fuel, pre, values, hfuel => by
    have h := parseBlocks_printAll nodes (flat ++ [.raw html])
      (hflat.append (show Flat [.raw html] from trivial))
      (by simpa using hwf) fuel pre values (by simpa [printAll_append, printAll] using hfuel)
    simpa [printAll_append, printAll, buildAll_append, buildAll] using h
  | .statement type name :: nodes, flat, hflat, hwf, fuel, pre, values, hfuel => by
    have h := parseBlocks_printAll nodes (flat ++ [.statement type name])
      (hflat.append (show Flat [.statement type name] from trivial))
      (by simpa using hwf) fuel pre values (by simpa [printAll_append, printAll] using hfuel)
    simpa [printAll_append, printAll, buildAll_append, buildAll] using h
  | .block type contents children :: nodes, flat, hflat, hwf, fuel, pre, values, hfuel => by
    obtain ⟨hblock, -, hnodes⟩ := hwf.right
    simp only [printAll, print, List.length_append, List.length_cons] at hfuel
    obtain ⟨fuel, rfl⟩ : ∃ m, fuel = m + 1 + 1 := ⟨fuel - 2, by omega⟩
    have hinner := parseBlocks_printAll children [] trivial hblock.2.2 fuel [] []
      (by simp only [printAll, List.nil_append]; omega)
    have hchildren := parseWithin_of_blocks hinner
    have hrest := parseBlocks_printAll nodes [] trivial hnodes (fuel + 1)
      (pre ++ (printAll flat ++ (Node.block type contents children).print))
      (values ++ buildAll flat ++ [(Node.block type contents children).build])
      (by simp only [printAll, List.nil_append]; omega)
    rw [printAll, parseBlocks_block hflat hwf.left hblock hchildren]
    simpa [printAll, buildAll] using hrest

/-- With enough fuel for its text, the nodes of a template are parsed. -/
theorem parseWithin_printAll {nodes : List Node} (hwf : WfAll longMax nodes) {fuel : Nat}
    (hfuel : 2 * (printAll nodes).length + 1 ≤ fuel) :
    parseWithin longMax (fuel + 1) (printAll nodes) =
      .ok (.mk .always (.name []) (buildAll nodes)) :=
  parseWithin_of_blocks (parseBlocks_printAll nodes [] trivial hwf fuel [] []
    (by simpa [printAll] using hfuel))

/-- Parsing the text of a well-formed template gives its tree. -/
theorem parse_printAll {nodes : List Node} (hwf : WfAll longMax nodes) :
    Translation.parse longMax (printAll nodes) = .ok (.mk .always (.name []) (buildAll nodes)) :=
  parseWithin_printAll hwf (Nat.le_refl _)

/-- A page with a repeated block in it, one of the same kind inside, an empty
tag, a code block and a condition. -/
def samplePage : List Node :=
  [.raw ("<h1>Parts</h1><" : Text),
    .block .tag ("parts" : Text)
      [.statement .val ("name" : Text), .raw ("</td>" : Text),
        .block .tag [] [.block .tag ("suppliers" : Text) []],
        .block .condition ("quantity=0" : Text) [.raw ("none <HTMT" : Text)]],
    .block .code ("-404" : Text) [.statement .query ("ID" : Text)]]

theorem samplePage_wf : WfAll (2 ^ 31 - 1) samplePage := by
  simp only [samplePage, WfAll, Wf, Apart, Plain, CodeInRange, and_true, true_and]
  decide +kernel

theorem parse_samplePage :
    Translation.parse (2 ^ 31 - 1) (printAll samplePage) =
      .ok (.mk .always (.name []) (buildAll samplePage)) :=
  parse_printAll samplePage_wf

end Blocks

end Node

end WFA
