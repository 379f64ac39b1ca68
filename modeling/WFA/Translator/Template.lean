-- SUMMARY: The HTMT template parser: tags, conditions, and the tree `translation::parse` builds.
import WFA.Base.Occurrence
import WFA.Base.Numeral

/-!
# HTMT templates

`Translator/src/Source.cpp`. A template is HTML with tags in it: single ones that
stand for a value of the response or of the query, and pairs that repeat or
choose the part between them. `Translation.parse` cuts the source at the
outermost pairs, hands what lies between to `parseSubHTML`, and parses the
inside of each pair again.
-/

namespace WFA

open Text

/-! ## Conditions -/

inductive Condition where
  | equal
  | notEqual
  | always
  deriving DecidableEq, Repr

structure SubCondition where
  action : Condition := .always
  constant : Text := []
  variableName : Text := []
  deriving DecidableEq, Repr

inductive Conjunction where
  | and
  | or
  deriving DecidableEq, Repr

/-- One conjunction fewer than conditions. -/
structure TranslationCondition where
  conditions : List SubCondition := []
  conjunctions : List Conjunction := []
  deriving DecidableEq, Repr

namespace TranslationCondition

/-- The first operator that occurs at all, in the order of the table, and not
the one that occurs first. -/
def parseSubCondition (source : Text) : SubCondition :=
  match cut '=' source with
  | (name, some constant) => { action := .equal, constant, variableName := name }
  | (_, none) =>
    match cut '!' source with
    | (name, some constant) => { action := .notEqual, constant, variableName := name }
    | (_, none) => {}

/-- `source.find(c, left)`. -/
def findFrom (source : Text) (c : Byte) (left : Nat) : Option Nat :=
  if c ∈ source.drop left then some (left + indexOf c (source.drop left)) else none

/-- The nearest of the divisors `&` and `|`, and what it stands for. -/
def nextDivisor (source : Text) (left : Nat) : Option (Nat × Conjunction) :=
  match findFrom source '&' left, findFrom source '|' left with
  | none, none => none
  | some i, none => some (i, .and)
  | none, some j => some (j, .or)
  | some i, some j => if j < i then some (j, .or) else some (i, .and)

theorem findFrom_bounds {source : Text} {c : Byte} {left i : Nat}
    (h : findFrom source c left = some i) : left ≤ i ∧ i < source.length := by
  unfold findFrom at h
  split at h
  · rename_i hmem
    have hlt : indexOf c (source.drop left) < (source.drop left).length :=
      List.findIdx_lt_length_of_exists ⟨c, hmem, by simp⟩
    simp only [Option.some.injEq, List.length_drop] at h hlt
    omega
  · simp at h

theorem nextDivisor_bounds {source : Text} {left div : Nat} {type : Conjunction}
    (h : nextDivisor source left = some (div, type)) : left ≤ div ∧ div < source.length := by
  unfold nextDivisor at h
  split at h
  · simp at h
  · rename_i i hi _
    obtain ⟨rfl, -⟩ : i = div ∧ _ := by simpa using h
    exact findFrom_bounds hi
  · rename_i j _ hj
    obtain ⟨rfl, -⟩ : j = div ∧ _ := by simpa using h
    exact findFrom_bounds hj
  · rename_i i j hi hj
    split at h
    · obtain ⟨rfl, -⟩ : j = div ∧ _ := by simpa using h
      exact findFrom_bounds hj
    · obtain ⟨rfl, -⟩ : i = div ∧ _ := by simpa using h
      exact findFrom_bounds hi

/-- The loop of `parse`, from `left` on. -/
def parseFrom (source : Text) (left : Nat) (ret : TranslationCondition) : TranslationCondition :=
  match h : nextDivisor source left with
  | none =>
    { ret with
      conditions := ret.conditions ++ [parseSubCondition (slice source left source.length)] }
  | some (div, type) =>
    parseFrom source (div + 1)
      { conditions := ret.conditions ++ [parseSubCondition (slice source left div)]
        conjunctions := ret.conjunctions ++ [type] }
termination_by source.length - left
decreasing_by
  have := nextDivisor_bounds h
  omega

def parse (source : Text) : TranslationCondition :=
  parseFrom source 0 {}

/-- The assertion at the end of `parse` holds. -/
theorem parse_sizes (source : Text) :
    (parse source).conditions.length = (parse source).conjunctions.length + 1 := by
  have hloop : ∀ left ret, ret.conditions.length = ret.conjunctions.length →
      (parseFrom source left ret).conditions.length =
        (parseFrom source left ret).conjunctions.length + 1 := by
    intro left ret hret
    fun_induction parseFrom source left ret with
    | case1 left ret h => simp [hret]
    | case2 left ret div type h ih => exact ih (by simp [hret])
  exact hloop 0 {} rfl

end TranslationCondition

/-! ## The parsed tree -/

inductive MatchType where
  | always
  | tag
  | code
  | condition
  deriving DecidableEq, Repr

/-- The variant `tag`: it starts as the empty name. -/
inductive TranslationTag where
  | name (name : Text)
  | code (code : Int)
  | condition (condition : TranslationCondition)
  deriving DecidableEq, Repr

mutual
/-- A collection of HTMT conditions, sections, accesses etc. -/
inductive Translation where
  | mk (matchType : MatchType) (tag : TranslationTag) (values : List TranslationValue)

/-- A single HTMT statement. -/
inductive TranslationValue where
  | access (name : Text)
  | html (html : Text)
  | translation (translation : Translation)
  | query (name : Text)
end

/-! ## Tags -/

/-- The three kinds of tag pairs, in the order of `tagOpens`. -/
inductive BlockType where
  | tag
  | code
  | condition
  deriving DecidableEq, Repr

namespace BlockType

def tagOpen : BlockType → Text
  | .tag => ("<HTMT:" : Text)
  | .code => ("<HTMTCODE:" : Text)
  | .condition => ("<HTMTCOND:" : Text)

def tagClose : BlockType → Text
  | .tag => ("</HTMT>" : Text)
  | .code => ("</HTMTCODE>" : Text)
  | .condition => ("</HTMTCOND>" : Text)

def all : List BlockType := [.tag, .code, .condition]

end BlockType

/-- The tags of single statements, in the order of `tags`. -/
inductive StatementType where
  | val
  | query
  deriving DecidableEq, Repr

namespace StatementType

def tagOpen : StatementType → Text
  | .val => ("<HTMTVAL" : Text)
  | .query => ("<HTMTQUERY" : Text)

def value : StatementType → Text → TranslationValue
  | .val, name => .access name
  | .query, name => .query name

end StatementType

/-- `std::strncmp` against a tag, with the length cut to what is left: a tag that
runs over the end matches as far as it goes. -/
def startsTag (tag rest : Text) : Bool :=
  (tag.take rest.length).isPrefixOf rest

/-- The loop of `tagSearch`, where the iterator is the text from it to the end.
`skip` bytes are still jumped over after an opening tag; the depth starts in
front of the first opening tag, where the `size_t` at its maximum rolls over to
`0`. -/
def tagSearchFrom (tagOpen tagClose : Text) : Nat → Int → Text → Exec Text
  | 0, _, [] => .ok []
  | _ + 1, _, [] => .error .outOfRange
  | skip + 1, depth, _ :: rest => tagSearchFrom tagOpen tagClose skip depth rest
  | 0, depth, b :: rest =>
    if startsTag tagOpen (b :: rest) then
      tagSearchFrom tagOpen tagClose tagOpen.length (depth + 1) rest
    else if startsTag tagClose (b :: rest) then
      if depth = 0 then
        if tagClose.length ≤ (b :: rest).length then .ok ((b :: rest).drop tagClose.length)
        else .error .outOfRange
      else tagSearchFrom tagOpen tagClose 0 (depth - 1) rest
    else tagSearchFrom tagOpen tagClose 0 depth rest

/-- `tagSearch` from the position `first` to the end. `parse` calls it where the
opening tag stands, so its assertion holds. -/
def tagSearch (source : Text) (first : Nat) (type : BlockType) : Exec Nat := do
  let rest ← tagSearchFrom type.tagOpen type.tagClose 0 (-1) (source.drop first)
  pure (source.length - rest.length)

/-! ## `translation::parse` -/

namespace Translation

/-- The nearest statement tag, relative to the start of the text. -/
def nextStatement (rest : Text) : Option (Nat × StatementType) :=
  match findText StatementType.val.tagOpen rest, findText StatementType.query.tagOpen rest with
  | none, none => none
  | some i, none => some (i, .val)
  | none, some j => some (j, .query)
  | some i, some j => if j < i then some (j, .query) else some (i, .val)

/-- The loop of `parseSubHTML`. -/
def parseSubHTMLFrom : Nat → Text → Nat → List TranslationValue → Exec (List TranslationValue)
  | 0, _, _, _ => throw .fuel
  | fuel + 1, html, left, values => do
    if left = html.length then pure values
    else
      let found := nextStatement (html.drop left)
      let it := match found with
        | some (fpos, _) => left + fpos
        | none => html.length
      -- Any text before the statement is raw HTML.
      let values := if left ≠ it then values ++ [.html (slice html left it)] else values
      match found with
      | none => pure values
      | some (_, type) =>
        let nameStart ← advance html it (type.tagOpen.length + 1)
        let nameEnd ← find html nameStart html.length '>'
        let contents ← view html nameStart (nameEnd - nameStart)
        let values := values ++ [type.value contents]
        -- Skip the closing '>', if present.
        let left := if nameEnd ≠ html.length then nameEnd + 1 else nameEnd
        parseSubHTMLFrom fuel html left values

def parseSubHTML (values : List TranslationValue) (html : Text) : Exec (List TranslationValue) :=
  parseSubHTMLFrom (html.length + 1) html 0 values

/-- What lies in front of a tag that is found at the offset `min`. -/
def parseFront (values : List TranslationValue) (min : Nat) (html : Text) :
    Exec (List TranslationValue) :=
  if min ≠ 0 then parseSubHTML values html else pure values

/-- `findNextSet`, with the kind each position belongs to. -/
def findNextSet (source : Text) : List (BlockType × Option Nat) :=
  BlockType.all.map fun type => (type, findText type.tagOpen source)

/-- `<` on positions, where `npos` is the largest. -/
def before : Option Nat → Option Nat → Bool
  | some i, some j => i < j
  | some _, none => true
  | none, _ => false

/-- `std::min_element`: the first one that no other is before. -/
def minElement : List (BlockType × Option Nat) → BlockType × Option Nat
  | [] => (.tag, none)
  | first :: found =>
    found.foldl (fun min next => if before next.2 min.2 then next else min) first

/-- What the opening tag says, and the resulting kind of match. -/
def parseTag (longMax : Nat) (type : BlockType) (tagContents : Text) :
    Exec (MatchType × TranslationTag) :=
  match type with
  | .tag =>
    -- Special case for empty tags: the variant keeps its empty name.
    if tagContents.isEmpty then pure (.always, .name []) else pure (.tag, .name tagContents)
  | .code => do
    -- The C string goes on behind the view, but a number ends at the '>' at the latest.
    let code ← stol longMax tagContents
    pure (.code, .code code)
  | .condition => pure (.condition, .condition (TranslationCondition.parse tagContents))

mutual
/-- `parse`, within a step budget. -/
def parseWithin (longMax : Nat) : Nat → Text → Exec Translation
  | 0, _ => throw .fuel
  | fuel + 1, source => do
    let values ← parseBlocks longMax fuel source 0 []
    pure (.mk .always (.name []) values)

/-- The loop of `parse`. -/
def parseBlocks (longMax : Nat) :
    Nat → Text → Nat → List TranslationValue → Exec (List TranslationValue)
  | 0, _, _, _ => throw .fuel
  | fuel + 1, source, left, values => do
    let (type, min) := minElement (findNextSet (slice source left source.length))
    match min with
    | none =>
      -- No tag found, everything else is plain HTML.
      parseSubHTML values (slice source left source.length)
    | some min =>
      let values ← parseFront values min (slice source left (left + min))
      let tagStart := left + min
      let nameStart ← advance source tagStart type.tagOpen.length
      let tagClose ← find source nameStart source.length '>'
      let last ← tagSearch source tagStart type
      let first ← advance source tagClose 1
      -- The length is unsigned: below zero it is far beyond the source.
      if first + type.tagClose.length > last then throw .outOfRange
      let body ← view source first (last - first - type.tagClose.length)
      let (.mk _ _ children) ← parseWithin longMax fuel body
      let tagContents := slice source nameStart tagClose
      let (matchType, tag) ← parseTag longMax type tagContents
      parseBlocks longMax fuel source last (values ++ [.translation (.mk matchType tag children)])
end

/-- `translation::parse`, where `long` goes up to `longMax`. -/
def parse (longMax : Nat) (source : Text) : Exec Translation :=
  parseWithin longMax (2 * source.length + 2) source

end Translation

end WFA
