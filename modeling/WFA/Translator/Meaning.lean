-- SUMMARY: What a template means, as rules on its nodes, and that parsing and applying its text gives it.
import WFA.Translator.Apply
import WFA.Translator.ParsePrint

/-!
# The meaning of a template

`Shows` says by rules what each node of a template writes for a response, an HTTP
code and a query. The translator parses the text of the template and walks over
the tree; `apply_parse_iff` says that the page is the one the rules derive, and
that there is no page where they derive none.
-/

namespace WFA

open Text

namespace Node

section Rules

variable (asserts : Bool) (httpCode : Int) (q : Query)

mutual
inductive Shows : ResponseWrapper → Node → Output → Prop
  | raw {data : ResponseWrapper} {html : Text} : Shows data (.raw html) (.text html)
  | value {data : ResponseWrapper} {name v : Text} :
      data.search name = some (.strings [v]) → Shows data (.statement .val name) (.text v)
  /-- Without assertions, the first of several values stands for all of them. -/
  | firstValue {data : ResponseWrapper} {name v : Text} {vs : List Text} :
      asserts = false → vs ≠ [] → data.search name = some (.strings (v :: vs)) →
      Shows data (.statement .val name) (.text v)
  | noValue {data : ResponseWrapper} {name : Text} :
      data.search name = none → Shows data (.statement .val name) (.warn (missingValue name))
  | element {data : ResponseWrapper} {name v : Text} :
      q.getElement name = some v → v ≠ [] → Shows data (.statement .query name) (.text v)
  | noElement {data : ResponseWrapper} {name : Text} :
      (∀ v, q.getElement name = some v → v = []) →
      Shows data (.statement .query name) (.warn (missingElement name))
  | group {data : ResponseWrapper} {children : List Node} {out : Output} :
      ShowsAll data children out → Shows data (.block .tag [] children) out
  | absent {data : ResponseWrapper} {contents : Text} {children : List Node} :
      contents ≠ [] → data.search contents = none → Shows data (.block .tag contents children) 1
  | each {data : ResponseWrapper} {contents : Text} {children : List Node}
      {items : List ResponseWrapper} {out : Output} :
      contents ≠ [] → data.search contents = some (.objects items) →
      ShowsEach items children out → Shows data (.block .tag contents children) out
  | code {data : ResponseWrapper} {contents : Text} {children : List Node} {out : Output} :
      decimal contents = some httpCode → ShowsAll data children out →
      Shows data (.block .code contents children) out
  | otherCode {data : ResponseWrapper} {contents : Text} {children : List Node} :
      decimal contents ≠ some httpCode → Shows data (.block .code contents children) 1
  | condition {data : ResponseWrapper} {contents : Text} {children : List Node} {out : Output} :
      (TranslationCondition.parse contents).check data = .ok true → ShowsAll data children out →
      Shows data (.block .condition contents children) out
  | unmet {data : ResponseWrapper} {contents : Text} {children : List Node} :
      (TranslationCondition.parse contents).check data = .ok false →
      Shows data (.block .condition contents children) 1

/-- The nodes one after the other, for one response. -/
inductive ShowsAll : ResponseWrapper → List Node → Output → Prop
  | nil {data : ResponseWrapper} : ShowsAll data [] 1
  | cons {data : ResponseWrapper} {node : Node} {nodes : List Node} {a b : Output} :
      Shows data node a → ShowsAll data nodes b → ShowsAll data (node :: nodes) (a * b)

/-- The nodes once for each of the items. -/
inductive ShowsEach : List ResponseWrapper → List Node → Output → Prop
  | nil {nodes : List Node} : ShowsEach [] nodes 1
  | cons {item : ResponseWrapper} {items : List ResponseWrapper} {nodes : List Node}
      {a b : Output} :
      ShowsAll item nodes a → ShowsEach items nodes b → ShowsEach (item :: items) nodes (a * b)
end

end Rules

/-! ## Statements -/

section Statements

variable {asserts : Bool} {httpCode : Int} {q : Query} {data : ResponseWrapper} {name : Text}
  {out : Output}

theorem applyAccess_iff :
    applyAccess asserts name data 1 = .ok out ↔
      Shows asserts httpCode q data (.statement .val name) out := by
  unfold applyAccess
  constructor
  · intro h
    cases hsearch : data.search name with
    | none =>
      obtain rfl : Output.warn (missingValue name) = out := by simpa [hsearch] using h
      exact .noValue hsearch
    | some container =>
      cases container with
      | objects items => simp [hsearch] at h
      | strings values =>
        cases values with
        | nil => cases asserts <;> simp [hsearch] at h
        | cons v values =>
          cases values with
          | nil =>
            obtain rfl : Output.text v = out := by simpa [hsearch] using h
            exact .value hsearch
          | cons w vs =>
            cases asserts with
            | true => simp [hsearch] at h
            | false =>
              obtain rfl : Output.text v = out := by simpa [hsearch] using h
              exact .firstValue rfl (by simp) hsearch
  · intro h
    cases h with
    | value hsearch => simp [hsearch]
    | firstValue hasserts hvs hsearch => simp [hsearch, hasserts]
    | noValue hsearch => simp [hsearch]

theorem applyQuery_iff :
    applyQuery q name 1 = .ok out ↔ Shows asserts httpCode q data (.statement .query name) out := by
  unfold applyQuery
  constructor
  · intro h
    by_cases hhas : q.hasElement name = true
    · obtain ⟨v, hget, hne⟩ := QueryBase.hasElement_iff.mp hhas
      obtain rfl : Output.text v = out := by simpa [hhas, hget] using h
      exact .element hget hne
    · obtain rfl : Output.warn (missingElement name) = out := by simpa [hhas] using h
      apply Shows.noElement
      intro v hget
      by_contra hne
      exact hhas (QueryBase.hasElement_iff.mpr ⟨v, hget, hne⟩)
  · intro h
    cases h with
    | element hget hne =>
      have hhas := QueryBase.hasElement_iff.mpr ⟨_, hget, hne⟩
      simp [hhas, hget]
    | noElement hnone =>
      have hhas : q.hasElement name = false := by
        rw [← Bool.not_eq_true, QueryBase.hasElement_iff]
        rintro ⟨v, hget, hne⟩
        exact hne (hnone v hget)
      simp [hhas]

end Statements

/-! ## Blocks and lists of nodes -/

section Blocks

variable {asserts : Bool} {httpCode : Int} {q : Query} {longMax : Nat}

/-- A part under a condition: it is written when the condition holds, and else
nothing is. -/
theorem matches_eq_ok {check : Exec Bool} {f : Output → Exec Output} {out : Output} :
    (do if ← check then f 1 else pure 1 : Exec Output) = .ok out ↔
      check = .ok true ∧ f 1 = .ok out ∨ check = .ok false ∧ out = 1 := by
  cases check with
  | error trap => simp [bind, Except.bind]
  | ok holds => cases holds <;> simp [bind, Except.bind, pure, Except.pure, eq_comm]

/-- The rounds of a repeated block. -/
theorem foldlM_iff_showsEach {children : List Node} {values : List TranslationValue}
    (hchildren : ∀ item out, applyAll asserts httpCode q values item 1 = .ok out ↔
      ShowsAll asserts httpCode q item children out) (items : List ResponseWrapper) (out : Output) :
    items.foldlM (fun out item => applyAll asserts httpCode q values item out) 1 = .ok out ↔
      ShowsEach asserts httpCode q items children out := by
  induction items generalizing out with
  | nil =>
    constructor
    · intro h
      obtain rfl : 1 = out := by simpa [pure, Except.pure] using h
      exact .nil
    · intro h
      cases h
      rfl
  | cons item items ih =>
    have happends : Appends fun out => items.foldlM
        (fun out item => applyAll asserts httpCode q values item out) out :=
      Appends.foldlM items fun item _ => appends_applyAll asserts httpCode q values item
    have hboth := happends.andThen_eq_ok
      (fun out => applyAll asserts httpCode q values item out) out
    rw [List.foldlM_cons, hboth]
    constructor
    · rintro ⟨a, b, ha, hb, rfl⟩
      exact .cons ((hchildren item a).mp ha) ((ih b).mp hb)
    · intro h
      cases h with
      | cons ha hb => exact ⟨_, _, (hchildren item _).mpr ha, (ih _).mpr hb, rfl⟩

mutual
theorem applyInto_iff_shows : (node : Node) → node.Wf longMax → ∀ (data : ResponseWrapper)
    (out : Output), node.build.applyInto asserts httpCode q data 1 = .ok out ↔
      Shows asserts httpCode q data node out
  | .raw html, _, data, out => by
    constructor
    · intro h
      obtain rfl : Output.text html = out := by simpa [build, TranslationValue.applyInto] using h
      exact .raw
    · intro h
      cases h
      simp [build, TranslationValue.applyInto]
  | .statement .val name, _, data, out => by
    simpa only [build, StatementType.value, TranslationValue.applyInto] using applyAccess_iff
  | .statement .query name, _, data, out => by
    simpa only [build, StatementType.value, TranslationValue.applyInto] using applyQuery_iff
  | .block .tag contents children, hwf, data, out => by
    have hchildren := applyAll_iff_showsAll children hwf.2.2
    simp only [build, TranslationValue.applyInto, blockTag]
    cases contents with
    | nil =>
      simp only [List.isEmpty_nil, if_true, Translation.applyInto, hchildren]
      constructor
      · exact .group
      · intro h
        cases h with
        | group hall => exact hall
        | absent hne _ => exact absurd rfl hne
        | each hne _ _ => exact absurd rfl hne
    | cons b contents =>
      simp only [List.isEmpty_cons, Bool.false_eq_true, if_false, Translation.applyInto]
      have hne : b :: contents ≠ [] := by simp
      constructor
      · intro h
        cases hsearch : data.search (b :: contents) with
        | none =>
          obtain rfl : 1 = out := by simpa [hsearch] using h
          exact .absent hne hsearch
        | some container =>
          cases container with
          | strings values => simp [hsearch] at h
          | objects items =>
            simp only [hsearch] at h
            exact .each hne hsearch ((foldlM_iff_showsEach hchildren items out).mp h)
      · intro h
        cases h with
        | absent _ hsearch => simp [hsearch]
        | each _ hsearch heach =>
          simp only [hsearch]
          exact (foldlM_iff_showsEach hchildren _ out).mpr heach
  | .block .code contents children, hwf, data, out => by
    have hchildren := applyAll_iff_showsAll children hwf.2.2
    obtain ⟨n, hn, -⟩ := hwf.2.1
    simp only [build, TranslationValue.applyInto, blockTag, Translation.applyInto, matches_eq_ok,
      Translation.matches, hn, Option.getD_some, Except.ok.injEq, beq_iff_eq, beq_eq_false_iff_ne,
      hchildren]
    constructor
    · rintro (⟨rfl, hall⟩ | ⟨hother, rfl⟩)
      · exact .code hn hall
      · exact .otherCode (by simpa [hn, eq_comm] using hother)
    · intro h
      cases h with
      | code hcode hall =>
        obtain rfl : n = httpCode := by simpa [hn] using hcode
        exact .inl ⟨rfl, hall⟩
      | otherCode hother => exact .inr ⟨by simpa [hn, eq_comm] using hother, rfl⟩
  | .block .condition contents children, hwf, data, out => by
    have hchildren := applyAll_iff_showsAll children hwf.2.2
    simp only [build, TranslationValue.applyInto, blockTag, Translation.applyInto, matches_eq_ok,
      Translation.matches, hchildren]
    constructor
    · rintro (⟨hmet, hall⟩ | ⟨hunmet, rfl⟩)
      · exact .condition hmet hall
      · exact .unmet hunmet
    · intro h
      cases h with
      | condition hmet hall => exact .inl ⟨hmet, hall⟩
      | unmet hunmet => exact .inr ⟨hunmet, rfl⟩

theorem applyAll_iff_showsAll : (nodes : List Node) → WfAll longMax nodes →
    ∀ (data : ResponseWrapper) (out : Output),
    applyAll asserts httpCode q (buildAll nodes) data 1 = .ok out ↔
      ShowsAll asserts httpCode q data nodes out
  | [], _, data, out => by
    constructor
    · intro h
      obtain rfl : 1 = out := by simpa [buildAll, applyAll] using h
      exact .nil
    · intro h
      cases h
      rfl
  | node :: nodes, hwf, data, out => by
    have hfirst := applyInto_iff_shows node hwf.1 data
    have hrest := applyAll_iff_showsAll nodes hwf.2.2 data
    have hboth := (appends_applyAll asserts httpCode q (buildAll nodes) data).andThen_eq_ok
      (fun out => node.build.applyInto asserts httpCode q data out) out
    rw [buildAll, applyAll, hboth]
    constructor
    · rintro ⟨a, b, ha, hb, rfl⟩
      exact .cons ((hfirst a).mp ha) ((hrest b).mp hb)
    · intro h
      cases h with
      | cons ha hb => exact ⟨_, _, (hfirst _).mpr ha, (hrest _).mpr hb, rfl⟩
end

/-- The text of a template, parsed and applied to a response, gives exactly the
page that the rules derive for its nodes. -/
theorem apply_parse_iff {nodes : List Node} (hwf : WfAll longMax nodes) (data : ResponseWrapper)
    (out : Output) :
    (do
      let translation ← Translation.parse longMax (printAll nodes)
      translation.apply asserts data httpCode q) = .ok out ↔
      ShowsAll asserts httpCode q data nodes out := by
  rw [Translation.parse, parseWithin_printAll hwf (Nat.le_refl _)]
  change applyAll asserts httpCode q (buildAll nodes) data 1 = .ok out ↔ _
  exact applyAll_iff_showsAll nodes hwf data out

/-- Two parts, the first of which is out of stock. -/
def sampleParts : ResponseWrapper :=
  .mk
    [(("parts" : Text), .objects
      [.mk [(("name" : Text), .strings [("bolt" : Text)]),
          (("quantity" : Text), .strings [("0" : Text)])] [false, false],
        .mk [(("name" : Text), .strings [("nut" : Text)]),
          (("quantity" : Text), .strings [("12" : Text)])] [false, false]])]
    [true]

def samplePartsPage : Output where
  source := ("<h1>Parts</h1><bolt</td>none <HTMTnut</td>" : Text)

theorem shows_samplePage :
    ShowsAll true 200 (.ofList []) sampleParts samplePage samplePartsPage :=
  (apply_parse_iff samplePage_wf sampleParts samplePartsPage).mp (by decide +kernel)

end Blocks

end Node

end WFA
