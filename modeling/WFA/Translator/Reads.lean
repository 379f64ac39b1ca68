-- SUMMARY: The reads a page makes of a response: when all of them succeed, and which of them warn.
import WFA.Translator.Meaning

/-!
# Reads

A statement is reached with a response when every block around it is entered on
the way: a repeated block with each of its items, a code block at its code, a
condition that holds. Applying a template fails exactly when a reached read finds
something of the wrong kind, and warns exactly of the reached names that are not
there.
-/

namespace WFA

open Text

namespace Node

/-! ## What is reached -/

/-- Inside the block, the children are walked over for this response. -/
inductive Enters (httpCode : Int) (data : ResponseWrapper) :
    Node → ResponseWrapper → List Node → Prop
  | group {children : List Node} : Enters httpCode data (.block .tag [] children) data children
  | item {contents : Text} {children : List Node} {items : List ResponseWrapper}
      {item : ResponseWrapper} :
      contents ≠ [] → data.search contents = some (.objects items) → item ∈ items →
      Enters httpCode data (.block .tag contents children) item children
  | code {contents : Text} {children : List Node} :
      decimal contents = some httpCode →
      Enters httpCode data (.block .code contents children) data children
  | condition {contents : Text} {children : List Node} :
      (TranslationCondition.parse contents).check data = .ok true →
      Enters httpCode data (.block .condition contents children) data children

/-- From these nodes and this response, the walk comes to that response and node. -/
inductive Reaches (httpCode : Int) :
    ResponseWrapper → List Node → ResponseWrapper → Node → Prop
  | here {data : ResponseWrapper} {nodes : List Node} {node : Node} :
      node ∈ nodes → Reaches httpCode data nodes data node
  | inside {data inner last : ResponseWrapper} {nodes children : List Node} {block node : Node} :
      block ∈ nodes → Enters httpCode data block inner children →
      Reaches httpCode inner children last node → Reaches httpCode data nodes last node

/-- What the node reads is of the kind it needs, or is not there: one text for a
value, and sub-responses for a repeated block. -/
def Fits (asserts : Bool) (data : ResponseWrapper) : Node → Prop
  | .statement .val name =>
    ∀ container, data.search name = some container →
      ∃ v vs, container = .strings (v :: vs) ∧ (asserts = true → vs = [])
  | .block .tag contents _ =>
    contents ≠ [] → ∀ container, data.search contents = some container →
      ∃ items, container = .objects items
  | _ => True

/-- The name the node reads is not there, and this is the warning. -/
inductive Misses (q : Query) (data : ResponseWrapper) : Node → Text → Prop
  | value {name : Text} : data.search name = none →
      Misses q data (.statement .val name) (missingValue name)
  | element {name : Text} : (∀ v, q.getElement name = some v → v = []) →
      Misses q data (.statement .query name) (missingElement name)

section Reaching

variable {asserts : Bool} {httpCode : Int} {q : Query} {data : ResponseWrapper} {node : Node}
  {nodes : List Node}

/-- Whatever response a block is entered with, the nodes inside are its children. -/
theorem Enters.nodes_eq {type : BlockType} {contents : Text} {children : List Node}
    {inner : ResponseWrapper} (h : Enters httpCode data (.block type contents children) inner nodes) :
    nodes = children := by
  cases h <;> rfl

theorem reaches_cons {last : ResponseWrapper} {n : Node} :
    Reaches httpCode data (node :: nodes) last n ↔
      (last = data ∧ n = node) ∨
      (∃ inner children, Enters httpCode data node inner children ∧
        Reaches httpCode inner children last n) ∨
      Reaches httpCode data nodes last n := by
  constructor
  · intro h
    cases h with
    | here hmem =>
      obtain rfl | hmem := List.mem_cons.mp hmem
      · exact .inl ⟨rfl, rfl⟩
      · exact .inr (.inr (.here hmem))
    | inside hmem hinto hrest =>
      obtain rfl | hmem := List.mem_cons.mp hmem
      · exact .inr (.inl ⟨_, _, hinto, hrest⟩)
      · exact .inr (.inr (.inside hmem hinto hrest))
  · rintro (⟨rfl, rfl⟩ | ⟨inner, children, hinto, hrest⟩ | h)
    · exact .here (by simp)
    · exact .inside (by simp) hinto hrest
    · cases h with
      | here hmem => exact .here (by simp [hmem])
      | inside hmem hinto hrest => exact .inside (by simp [hmem]) hinto hrest

theorem not_reaches_nil {last : ResponseWrapper} : ¬ Reaches httpCode data [] last node := by
  intro h
  cases h with
  | here hmem => simp at hmem
  | inside hmem _ _ => simp at hmem

end Reaching

/-! ## When there is a page -/

section Fitting

variable {asserts : Bool} {httpCode : Int} {q : Query}

/-- A parsed condition has a truth value for every response. -/
theorem check_parse (contents : Text) (data : ResponseWrapper) :
    ∃ result, (TranslationCondition.parse contents).check data = .ok result := by
  have hrow : ∀ (conditions : List SubCondition) (conjunctions : List Conjunction) (state : Bool),
      conditions.length = conjunctions.length →
      ∃ result, TranslationCondition.checkFrom data state conditions conjunctions = .ok result := by
    intro conditions
    induction conditions with
    | nil => exact fun _ state _ => ⟨state, rfl⟩
    | cons condition conditions ih =>
      intro conjunctions state hlen
      cases conjunctions with
      | nil => simp at hlen
      | cons conjunction conjunctions => exact ih conjunctions _ (by simpa using hlen)
  have hsizes := TranslationCondition.parse_sizes contents
  unfold TranslationCondition.check
  cases hconditions : (TranslationCondition.parse contents).conditions with
  | nil => exact ⟨true, rfl⟩
  | cons first conditions =>
    apply hrow
    rw [hconditions] at hsizes
    simpa using hsizes

theorem exists_showsEach {children : List Node} {items : List ResponseWrapper} :
    (∃ out, ShowsEach asserts httpCode q items children out) ↔
      ∀ item ∈ items, ∃ out, ShowsAll asserts httpCode q item children out := by
  induction items with
  | nil => exact ⟨fun _ item hitem => by simp at hitem, fun _ => ⟨1, .nil⟩⟩
  | cons item items ih =>
    rw [List.forall_mem_cons, ← ih]
    constructor
    · rintro ⟨out, h⟩
      cases h with
      | cons ha hb => exact ⟨⟨_, ha⟩, ⟨_, hb⟩⟩
    · rintro ⟨⟨a, ha⟩, ⟨b, hb⟩⟩
      exact ⟨a * b, .cons ha hb⟩

/-- A node shows something when its own read fits and everything inside shows
something. -/
theorem exists_shows {data : ResponseWrapper} {node : Node} :
    (∃ out, Shows asserts httpCode q data node out) ↔
      node.Fits asserts data ∧ ∀ inner children, Enters httpCode data node inner children →
        ∃ out, ShowsAll asserts httpCode q inner children out := by
  constructor
  · rintro ⟨out, h⟩
    cases h with
    | raw => exact ⟨trivial, fun _ _ h => by cases h⟩
    | value hsearch =>
      refine ⟨?_, fun _ _ h => by cases h⟩
      intro container hcontainer
      obtain rfl : _ = container := by simpa [hsearch] using hcontainer
      exact ⟨_, [], rfl, fun _ => rfl⟩
    | firstValue hasserts _ hsearch =>
      refine ⟨?_, fun _ _ h => by cases h⟩
      intro container hcontainer
      obtain rfl : _ = container := by simpa [hsearch] using hcontainer
      exact ⟨_, _, rfl, fun htrue => by simp [hasserts] at htrue⟩
    | noValue hsearch =>
      refine ⟨?_, fun _ _ h => by cases h⟩
      intro container hcontainer
      simp [hsearch] at hcontainer
    | element _ _ => exact ⟨trivial, fun _ _ h => by cases h⟩
    | noElement _ => exact ⟨trivial, fun _ _ h => by cases h⟩
    | group hall =>
      refine ⟨fun hne => absurd rfl hne, ?_⟩
      intro inner children hinto
      cases hinto with
      | group => exact ⟨_, hall⟩
      | item hne _ _ => exact absurd rfl hne
    | absent hne hsearch =>
      refine ⟨fun _ container hcontainer => by simp [hsearch] at hcontainer, ?_⟩
      intro inner children hinto
      cases hinto with
      | group => exact absurd rfl hne
      | item _ hitems _ => simp [hsearch] at hitems
    | each hne hsearch heach =>
      refine ⟨?_, ?_⟩
      · intro _ container hcontainer
        exact ⟨_, by simpa [hsearch, eq_comm] using hcontainer⟩
      · intro inner children hinto
        cases hinto with
        | group => exact absurd rfl hne
        | item _ hitems hmem =>
          obtain rfl : _ = _ := by simpa [hsearch] using hitems
          exact exists_showsEach.mp ⟨_, heach⟩ _ hmem
    | code _ hall =>
      refine ⟨trivial, ?_⟩
      intro inner children hinto
      cases hinto with
      | code _ => exact ⟨_, hall⟩
    | otherCode hother =>
      refine ⟨trivial, ?_⟩
      intro inner children hinto
      cases hinto with
      | code hcode => exact absurd hcode hother
    | condition _ hall =>
      refine ⟨trivial, ?_⟩
      intro inner children hinto
      cases hinto with
      | condition _ => exact ⟨_, hall⟩
    | unmet hunmet =>
      refine ⟨trivial, ?_⟩
      intro inner children hinto
      cases hinto with
      | condition hmet => simp [hunmet] at hmet
  · rintro ⟨hfits, hinside⟩
    cases node with
    | raw html => exact ⟨_, .raw⟩
    | statement type name =>
      cases type with
      | val =>
        cases hsearch : data.search name with
        | none => exact ⟨_, .noValue hsearch⟩
        | some container =>
          obtain ⟨v, vs, rfl, hone⟩ := hfits container hsearch
          cases vs with
          | nil => exact ⟨_, .value hsearch⟩
          | cons w vs =>
            have hasserts : asserts = false := by simpa using hone
            exact ⟨_, .firstValue hasserts (by simp) hsearch⟩
      | query =>
        by_cases hhas : ∃ v, q.getElement name = some v ∧ v ≠ []
        · obtain ⟨v, hget, hne⟩ := hhas
          exact ⟨_, .element hget hne⟩
        · push Not at hhas
          exact ⟨_, .noElement hhas⟩
    | block type contents children =>
      cases type with
      | tag =>
        by_cases hempty : contents = []
        · subst hempty
          obtain ⟨out, hout⟩ := hinside _ _ .group
          exact ⟨out, .group hout⟩
        · cases hsearch : data.search contents with
          | none => exact ⟨_, .absent hempty hsearch⟩
          | some container =>
            obtain ⟨items, rfl⟩ := hfits hempty container hsearch
            obtain ⟨out, hout⟩ := exists_showsEach.mpr fun item hitem =>
              hinside item children (.item hempty hsearch hitem)
            exact ⟨out, .each hempty hsearch hout⟩
      | code =>
        by_cases hcode : decimal contents = some httpCode
        · obtain ⟨out, hout⟩ := hinside _ _ (.code hcode)
          exact ⟨out, .code hcode hout⟩
        · exact ⟨_, .otherCode hcode⟩
      | condition =>
        obtain ⟨result, hresult⟩ := check_parse contents data
        cases result with
        | true =>
          obtain ⟨out, hout⟩ := hinside _ _ (.condition hresult)
          exact ⟨out, .condition hresult hout⟩
        | false => exact ⟨_, .unmet hresult⟩

mutual
theorem exists_shows_iff_fits : (node : Node) → ∀ data : ResponseWrapper,
    (∃ out, Shows asserts httpCode q data node out) ↔
      node.Fits asserts data ∧ ∀ inner children, Enters httpCode data node inner children →
        ∀ last n, Reaches httpCode inner children last n → Fits asserts last n
  | .raw html, data => by
    rw [exists_shows]
    exact and_congr_right fun _ => ⟨fun _ _ _ h => (by cases h), fun _ _ _ h => (by cases h)⟩
  | .statement type name, data => by
    rw [exists_shows]
    exact and_congr_right fun _ => ⟨fun _ _ _ h => (by cases h), fun _ _ _ h => (by cases h)⟩
  | .block type contents children, data => by
    have hchildren := exists_showsAll_iff_fits children
    rw [exists_shows]
    apply and_congr_right
    intro _
    constructor
    · intro h inner nodes hinto
      obtain rfl := hinto.nodes_eq
      exact (hchildren inner).mp (h inner _ hinto)
    · intro h inner nodes hinto
      obtain rfl := hinto.nodes_eq
      exact (hchildren inner).mpr (h inner _ hinto)

theorem exists_showsAll_iff_fits : (nodes : List Node) → ∀ data : ResponseWrapper,
    (∃ out, ShowsAll asserts httpCode q data nodes out) ↔
      ∀ last n, Reaches httpCode data nodes last n → Fits asserts last n
  | [], data => ⟨fun _ _ _ h => absurd h not_reaches_nil, fun _ => ⟨1, .nil⟩⟩
  | node :: nodes, data => by
    have hnode := exists_shows_iff_fits node data
    have hnodes := exists_showsAll_iff_fits nodes data
    constructor
    · rintro ⟨out, h⟩
      cases h with
      | cons ha hb =>
        obtain ⟨hfits, hinside⟩ := hnode.mp ⟨_, ha⟩
        intro last n hreach
        obtain ⟨rfl, rfl⟩ | ⟨inner, children, hinto, hrest⟩ | hrest := reaches_cons.mp hreach
        · exact hfits
        · exact hinside _ _ hinto _ _ hrest
        · exact hnodes.mp ⟨_, hb⟩ _ _ hrest
    · intro h
      obtain ⟨a, ha⟩ := hnode.mpr ⟨h _ _ (.here (by simp)), fun inner children hinto last n hrest =>
        h _ _ (.inside (by simp) hinto hrest)⟩
      obtain ⟨b, hb⟩ := hnodes.mpr fun last n hrest => h _ _ (reaches_cons.mpr (.inr (.inr hrest)))
      exact ⟨a * b, .cons ha hb⟩
end

/-- The text of a template gives a page for a response exactly when everything it
reaches finds a value of the kind it needs, or none. -/
theorem apply_parse_ok_iff_fits {longMax : Nat} {nodes : List Node} (hwf : WfAll longMax nodes)
    (data : ResponseWrapper) :
    (∃ out, (do
        let translation ← Translation.parse longMax (printAll nodes)
        translation.apply asserts data httpCode q) = .ok out) ↔
      ∀ last node, Reaches httpCode data nodes last node → Fits asserts last node := by
  have hrun : ∀ out, (do
        let translation ← Translation.parse longMax (printAll nodes)
        translation.apply asserts data httpCode q) = .ok out ↔
      ShowsAll asserts httpCode q data nodes out := by
    intro out
    rw [Translation.parse, parseWithin_printAll hwf (Nat.le_refl _)]
    exact applyAll_iff_showsAll nodes hwf data out
  rw [← exists_showsAll_iff_fits nodes data]
  exact exists_congr hrun

theorem fits_samplePage :
    WfAll (2 ^ 31 - 1) samplePage ∧
      ∀ last node, Reaches 200 sampleParts samplePage last node → Fits true last node := by
  have hpage : (do
      let translation ← Translation.parse (2 ^ 31 - 1) (printAll samplePage)
      translation.apply true sampleParts 200 (.ofList [])) = .ok samplePartsPage := by
    decide +kernel
  exact ⟨samplePage_wf,
    (apply_parse_ok_iff_fits samplePage_wf sampleParts).mp ⟨samplePartsPage, hpage⟩⟩

end Fitting

/-! ## What is warned of -/

section Warnings

variable {asserts : Bool} {httpCode : Int} {q : Query}

/-- A node that is reached from these nodes misses its name. -/
def Warned (httpCode : Int) (q : Query) (data : ResponseWrapper) (nodes : List Node) (w : Text) :
    Prop :=
  ∃ last n, Reaches httpCode data nodes last n ∧ Misses q last n w

theorem warned_cons {data : ResponseWrapper} {node : Node} {nodes : List Node} {w : Text} :
    Warned httpCode q data (node :: nodes) w ↔
      (Misses q data node w ∨ ∃ inner children, Enters httpCode data node inner children ∧
        Warned httpCode q inner children w) ∨ Warned httpCode q data nodes w := by
  constructor
  · rintro ⟨last, n, hreach, hmisses⟩
    obtain ⟨rfl, rfl⟩ | ⟨inner, children, hinto, hrest⟩ | hrest := reaches_cons.mp hreach
    · exact .inl (.inl hmisses)
    · exact .inl (.inr ⟨inner, children, hinto, last, n, hrest, hmisses⟩)
    · exact .inr ⟨last, n, hrest, hmisses⟩
  · rintro ((hmisses | ⟨inner, children, hinto, last, n, hrest, hmisses⟩) |
      ⟨last, n, hrest, hmisses⟩)
    · exact ⟨data, node, .here (by simp), hmisses⟩
    · exact ⟨last, n, .inside (by simp) hinto hrest, hmisses⟩
    · exact ⟨last, n, reaches_cons.mpr (.inr (.inr hrest)), hmisses⟩

theorem not_warned_nil {data : ResponseWrapper} {w : Text} : ¬ Warned httpCode q data [] w := by
  rintro ⟨last, n, hreach, -⟩
  exact not_reaches_nil hreach

theorem statement_warnings {data : ResponseWrapper} {type : StatementType} {name w : Text}
    {out : Output} (h : Shows asserts httpCode q data (.statement type name) out) :
    w ∈ out.warnings ↔ Misses q data (.statement type name) w := by
  -- a read that succeeds warns of nothing
  have htext : ∀ v, w ∉ (Output.text v).warnings := fun v => by simp [Output.text]
  cases h with
  | value hsearch =>
    refine ⟨fun hw => absurd hw (htext _), fun hmisses => ?_⟩
    cases hmisses with
    | value hnone => simp [hsearch] at hnone
  | firstValue _ _ hsearch =>
    refine ⟨fun hw => absurd hw (htext _), fun hmisses => ?_⟩
    cases hmisses with
    | value hnone => simp [hsearch] at hnone
  | noValue hnone =>
    constructor
    · intro hw
      obtain rfl : w = missingValue name := by simpa [Output.warn] using hw
      exact .value hnone
    · intro hmisses
      cases hmisses
      simp [Output.warn]
  | element hget hne =>
    refine ⟨fun hw => absurd hw (htext _), fun hmisses => ?_⟩
    cases hmisses with
    | element hnone => exact absurd (hnone _ hget) hne
  | noElement hnone =>
    constructor
    · intro hw
      obtain rfl : w = missingElement name := by simpa [Output.warn] using hw
      exact .element hnone
    · intro hmisses
      cases hmisses
      simp [Output.warn]

theorem showsEach_warnings {children : List Node} {w : Text}
    (hchildren : ∀ item out, ShowsAll asserts httpCode q item children out →
      (w ∈ out.warnings ↔ Warned httpCode q item children w)) (items : List ResponseWrapper)
    (out : Output) (h : ShowsEach asserts httpCode q items children out) :
    w ∈ out.warnings ↔ ∃ item ∈ items, Warned httpCode q item children w := by
  induction items generalizing out with
  | nil =>
    cases h
    simp
  | cons item items ih =>
    cases h with
    | cons ha hb =>
      rw [Output.warnings_mul, List.mem_append, hchildren item _ ha, ih _ hb]
      simp

mutual
theorem shows_warnings {w : Text} : (node : Node) → ∀ (data : ResponseWrapper) (out : Output),
    Shows asserts httpCode q data node out →
    (w ∈ out.warnings ↔ Misses q data node w ∨ ∃ inner children,
      Enters httpCode data node inner children ∧ Warned httpCode q inner children w)
  | .raw html, data, out, h => by
    cases h
    constructor
    · intro hw
      simp [Output.text] at hw
    · rintro (hmisses | ⟨_, _, hinto, -⟩)
      · cases hmisses
      · cases hinto
  | .statement type name, data, out, h => by
    rw [statement_warnings h]
    constructor
    · exact .inl
    · rintro (hmisses | ⟨_, _, hinto, -⟩)
      · exact hmisses
      · cases hinto
  | .block type contents children, data, out, h => by
    have hchildren := showsAll_warnings (w := w) children
    have hblock : ¬ Misses q data (.block type contents children) w := nofun
    rw [or_iff_right hblock]
    cases h with
    | group hall =>
      rw [hchildren data out hall]
      constructor
      · exact fun hwarned => ⟨data, children, .group, hwarned⟩
      · rintro ⟨inner, nodes, hinto, hwarned⟩
        cases hinto with
        | group => exact hwarned
        | item hne _ _ => exact absurd rfl hne
    | absent hne hsearch =>
      constructor
      · intro hw
        simp at hw
      · rintro ⟨inner, nodes, hinto, -⟩
        cases hinto with
        | group => exact absurd rfl hne
        | item _ hitems _ => simp [hsearch] at hitems
    | each hne hsearch heach =>
      rw [showsEach_warnings hchildren _ out heach]
      constructor
      · rintro ⟨item, hitem, hwarned⟩
        exact ⟨item, children, .item hne hsearch hitem, hwarned⟩
      · rintro ⟨inner, nodes, hinto, hwarned⟩
        cases hinto with
        | group => exact absurd rfl hne
        | item _ hitems hmem =>
          obtain rfl : _ = _ := by simpa [hsearch] using hitems
          exact ⟨inner, hmem, hwarned⟩
    | code hcode hall =>
      rw [hchildren data out hall]
      constructor
      · exact fun hwarned => ⟨data, children, .code hcode, hwarned⟩
      · rintro ⟨inner, nodes, hinto, hwarned⟩
        cases hinto with
        | code _ => exact hwarned
    | otherCode hother =>
      constructor
      · intro hw
        simp at hw
      · rintro ⟨inner, nodes, hinto, -⟩
        cases hinto with
        | code hcode => exact absurd hcode hother
    | condition hmet hall =>
      rw [hchildren data out hall]
      constructor
      · exact fun hwarned => ⟨data, children, .condition hmet, hwarned⟩
      · rintro ⟨inner, nodes, hinto, hwarned⟩
        cases hinto with
        | condition _ => exact hwarned
    | unmet hunmet =>
      constructor
      · intro hw
        simp at hw
      · rintro ⟨inner, nodes, hinto, -⟩
        cases hinto with
        | condition hmet => simp [hunmet] at hmet

theorem showsAll_warnings {w : Text} : (nodes : List Node) → ∀ (data : ResponseWrapper)
    (out : Output), ShowsAll asserts httpCode q data nodes out →
    (w ∈ out.warnings ↔ Warned httpCode q data nodes w)
  | [], data, out, h => by
    cases h
    simp [not_warned_nil]
  | node :: nodes, data, out, h => by
    have hnode := shows_warnings (w := w) node data
    have hnodes := showsAll_warnings (w := w) nodes data
    cases h with
    | cons ha hb =>
      rw [Output.warnings_mul, List.mem_append, hnode _ ha, hnodes _ hb, warned_cons]
end

/-- The lines printed on the console while a page is written are exactly the warnings
of the names that a reached statement reads and that are not there. -/
theorem apply_parse_warnings {longMax : Nat} {nodes : List Node} (hwf : WfAll longMax nodes)
    {data : ResponseWrapper} {out : Output}
    (hpage : (do
      let translation ← Translation.parse longMax (printAll nodes)
      translation.apply asserts data httpCode q) = .ok out) (w : Text) :
    w ∈ out.warnings ↔
      ∃ last node, Reaches httpCode data nodes last node ∧ Misses q last node w := by
  rw [Translation.parse, parseWithin_printAll hwf (Nat.le_refl _)] at hpage
  exact showsAll_warnings nodes data out ((applyAll_iff_showsAll nodes hwf data out).mp hpage)

theorem warned_samplePage :
    ∃ last node, Reaches (-404) sampleParts samplePage last node ∧
      Misses (.ofList []) last node (missingElement ("ID" : Text)) := by
  have hpage : (do
      let translation ← Translation.parse (2 ^ 31 - 1) (printAll samplePage)
      translation.apply true sampleParts (-404) (.ofList [])) =
      .ok { samplePartsPage with warnings := [missingElement ("ID" : Text)] } := by
    decide +kernel
  exact (apply_parse_warnings samplePage_wf hpage _).mp (by simp)

end Warnings

end Node

end WFA
