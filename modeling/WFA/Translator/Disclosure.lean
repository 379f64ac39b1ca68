-- SUMMARY: A page depends on nothing but the fields its template names.
import WFA.Translator.Meaning

/-!
# What a page discloses

The back end answers with a whole record, and a template shows some of it. The
fields that the template does not name, at any depth, have no influence on the
page, the warnings, or whether there is a page at all; nor have the array flags
that only the printer looks at.
-/

namespace WFA

open Text

/-! ## The names in a template -/

/-- The names a tag looks up: the repeated field, or the variables of a condition. -/
def TranslationTag.names : TranslationTag → List Text
  | .name field => [field]
  | .code _ => []
  | .condition row => row.conditions.map SubCondition.variableName

/-- A block that always applies looks nothing up. -/
def MatchType.names : MatchType → TranslationTag → List Text
  | .always, _ => []
  | _, lookedUp => lookedUp.names

mutual
def Translation.names : Translation → List Text
  | .mk matchType tag values => matchType.names tag ++ allNames values

def TranslationValue.names : TranslationValue → List Text
  | .access name => [name]
  | .html _ => []
  | .translation translation => translation.names
  | .query _ => []

def allNames : List TranslationValue → List Text
  | [] => []
  | value :: values => value.names ++ allNames values
end

/-! ## Leaving fields out -/

mutual
/-- The response without the fields that are not kept, at any depth, and without
flags. -/
def ResponseWrapper.restrict (keep : Text → Bool) : ResponseWrapper → ResponseWrapper
  | .mk elements _ => .mk (restrictElements keep elements) []

def ElementContainer.restrict (keep : Text → Bool) : ElementContainer → ElementContainer
  | .strings values => .strings values
  | .objects values => .objects (restrictAll keep values)

def restrictElements (keep : Text → Bool) :
    List (Text × ElementContainer) → List (Text × ElementContainer)
  | [] => []
  | (key, value) :: elements =>
    if keep key then (key, value.restrict keep) :: restrictElements keep elements
    else restrictElements keep elements

def restrictAll (keep : Text → Bool) : List ResponseWrapper → List ResponseWrapper
  | [] => []
  | value :: values => value.restrict keep :: restrictAll keep values
end

section Restricting

variable {keep : Text → Bool}

theorem restrictAll_eq_map (values : List ResponseWrapper) :
    restrictAll keep values = values.map (ResponseWrapper.restrict keep) := by
  induction values with
  | nil => rfl
  | cons value values ih => simp [restrictAll, ih]

theorem find?_restrictElements {name : Text} (hname : keep name = true)
    (elements : List (Text × ElementContainer)) :
    ((restrictElements keep elements).find? (·.1 == name)).map (·.2) =
      ((elements.find? (·.1 == name)).map (·.2)).map (ElementContainer.restrict keep) := by
  induction elements with
  | nil => rfl
  | cons element elements ih =>
    obtain ⟨key, value⟩ := element
    by_cases hkey : key = name
    · subst hkey
      simp [restrictElements, hname]
    · by_cases hkeep : keep key = true
      · simpa [restrictElements, hkeep, hkey] using ih
      · simpa [restrictElements, hkeep, hkey] using ih

/-- A kept field is found, with the rest left out of it. -/
theorem search_restrict {name : Text} (hname : keep name = true) (data : ResponseWrapper) :
    (data.restrict keep).search name = (data.search name).map (ElementContainer.restrict keep) := by
  obtain ⟨elements, flags⟩ := data
  exact find?_restrictElements hname elements

theorem check_restrict {condition : SubCondition} (hname : keep condition.variableName = true)
    (data : ResponseWrapper) : condition.check (data.restrict keep) = condition.check data := by
  unfold SubCondition.check
  rw [search_restrict hname]
  cases data.search condition.variableName with
  | none => rfl
  | some container => cases container <;> rfl

theorem checkFrom_restrict (data : ResponseWrapper) (conditions : List SubCondition)
    (hnames : ∀ condition ∈ conditions, keep condition.variableName = true)
    (conjunctions : List Conjunction) (state : Bool) :
    TranslationCondition.checkFrom (data.restrict keep) state conditions conjunctions =
      TranslationCondition.checkFrom data state conditions conjunctions := by
  induction conditions generalizing conjunctions state with
  | nil => rfl
  | cons condition conditions ih =>
    have hfirst := check_restrict (hnames condition (by simp)) data
    cases conjunctions with
    | nil => rfl
    | cons conjunction conjunctions =>
      simp only [TranslationCondition.checkFrom, hfirst]
      exact ih (fun other hother => hnames other (by simp [hother])) _ _

theorem matches_restrict {matchType : MatchType} {tag : TranslationTag} {httpCode : Int}
    (hnames : ∀ name ∈ tag.names, keep name = true) (data : ResponseWrapper) :
    Translation.matches matchType tag (data.restrict keep) httpCode =
      Translation.matches matchType tag data httpCode := by
  cases tag with
  | name name => cases matchType <;> rfl
  | code code => cases matchType <;> rfl
  | condition condition =>
    have hvariables : ∀ c ∈ condition.conditions, keep c.variableName = true := by
      intro c hc
      apply hnames
      exact List.mem_map_of_mem hc
    cases matchType with
    | always => rfl
    | tag => rfl
    | code => rfl
    | condition =>
      simp only [Translation.matches, TranslationCondition.check]
      cases hconditions : condition.conditions with
      | nil => rfl
      | cons first conditions =>
        rw [hconditions] at hvariables
        simp only [check_restrict (hvariables first (by simp))]
        exact checkFrom_restrict data conditions (fun c hc => hvariables c (by simp [hc])) _ _

end Restricting

/-! ## Applying -/

section Applying

variable {keep : Text → Bool} {asserts : Bool} {httpCode : Int} {q : Query}

theorem applyAccess_restrict {name : Text} (hname : keep name = true) (data : ResponseWrapper)
    (out : Output) : applyAccess asserts name (data.restrict keep) out =
      applyAccess asserts name data out := by
  unfold applyAccess
  rw [search_restrict hname]
  cases data.search name with
  | none => rfl
  | some container => cases container <;> rfl

theorem names_translation {matchType : MatchType} {tag : TranslationTag}
    {values : List TranslationValue}
    (h : ∀ name ∈ (Translation.mk matchType tag values).names, keep name = true) :
    (∀ name ∈ matchType.names tag, keep name = true) ∧
      ∀ name ∈ allNames values, keep name = true := by
  simpa only [Translation.names, List.forall_mem_append] using h

theorem names_cons {value : TranslationValue} {values : List TranslationValue}
    (h : ∀ name ∈ allNames (value :: values), keep name = true) :
    (∀ name ∈ value.names, keep name = true) ∧ ∀ name ∈ allNames values, keep name = true := by
  simpa only [allNames, List.forall_mem_append] using h

mutual
theorem applyInto_restrict : (translation : Translation) →
    (∀ name ∈ translation.names, keep name = true) → ∀ (data : ResponseWrapper) (out : Output),
    translation.applyInto asserts httpCode q (data.restrict keep) out =
      translation.applyInto asserts httpCode q data out
  | .mk .always tag values, hnames, data, out => by
    have hvalues := applyAll_restrict values (names_translation hnames).2
    simp only [Translation.applyInto, hvalues]
  | .mk .tag (.name name) values, hnames, data, out => by
    have hname : keep name = true := (names_translation hnames).1 name (by
      simp [MatchType.names, TranslationTag.names])
    have hvalues := applyAll_restrict values (names_translation hnames).2
    simp only [Translation.applyInto, search_restrict hname]
    cases data.search name with
    | none => rfl
    | some container =>
      cases container with
      | strings texts => rfl
      | objects items =>
        simp only [Option.map_some, ElementContainer.restrict, restrictAll_eq_map,
          List.foldlM_map, hvalues]
  | .mk .tag (.code _) values, _, data, out => by simp only [Translation.applyInto]
  | .mk .tag (.condition _) values, _, data, out => by simp only [Translation.applyInto]
  | .mk .code tag values, hnames, data, out => by
    have hmatches : Translation.matches .code tag (data.restrict keep) httpCode = _ :=
      matches_restrict (names_translation hnames).1 data
    have hvalues := applyAll_restrict values (names_translation hnames).2
    simp only [Translation.applyInto, hmatches, hvalues]
  | .mk .condition tag values, hnames, data, out => by
    have hmatches : Translation.matches .condition tag (data.restrict keep) httpCode = _ :=
      matches_restrict (names_translation hnames).1 data
    have hvalues := applyAll_restrict values (names_translation hnames).2
    simp only [Translation.applyInto, hmatches, hvalues]

theorem applyValue_restrict : (value : TranslationValue) →
    (∀ name ∈ value.names, keep name = true) → ∀ (data : ResponseWrapper) (out : Output),
    value.applyInto asserts httpCode q (data.restrict keep) out =
      value.applyInto asserts httpCode q data out
  | .access name, hnames, data, out => by
    have hname : keep name = true := hnames name (by simp [TranslationValue.names])
    simp only [TranslationValue.applyInto, applyAccess_restrict hname]
  | .html html, _, data, out => by simp only [TranslationValue.applyInto]
  | .translation translation, hnames, data, out => by
    simp only [TranslationValue.applyInto]
    exact applyInto_restrict translation hnames data out
  | .query name, _, data, out => by simp only [TranslationValue.applyInto]

theorem applyAll_restrict : (values : List TranslationValue) →
    (∀ name ∈ allNames values, keep name = true) → ∀ (data : ResponseWrapper) (out : Output),
    applyAll asserts httpCode q values (data.restrict keep) out =
      applyAll asserts httpCode q values data out
  | [], _, data, out => by simp only [applyAll]
  | value :: values, hnames, data, out => by
    have hvalue := applyValue_restrict value (names_cons hnames).1
    have hvalues := applyAll_restrict values (names_cons hnames).2
    simp only [applyAll, hvalue, hvalues]
end

/-- Two responses that agree, at every depth, on the fields a template names give
the same page and the same warnings, or fail in the same way. -/
theorem apply_eq_of_restrict_eq {translation : Translation} {data data' : ResponseWrapper}
    (hnames : ∀ name ∈ translation.names, keep name = true)
    (h : data.restrict keep = data'.restrict keep) :
    translation.apply asserts data httpCode q = translation.apply asserts data' httpCode q := by
  unfold Translation.apply
  rw [← applyInto_restrict translation hnames data, h, applyInto_restrict translation hnames data']

/-- The parts of `sampleParts`, with the price of one of them. -/
def samplePriced : ResponseWrapper :=
  .mk
    [(("parts" : Text), .objects
      [.mk [(("name" : Text), .strings [("bolt" : Text)]),
          (("price" : Text), .strings [("3" : Text)]),
          (("quantity" : Text), .strings [("0" : Text)])] [false, false, false],
        .mk [(("name" : Text), .strings [("nut" : Text)]),
          (("quantity" : Text), .strings [("12" : Text)])] [false, false]])]
    [true]

/-- A page that does not name the price does not depend on it. -/
theorem apply_samplePriced :
    (Translation.mk .always (.name []) (Node.buildAll Node.samplePage)).apply true
        Node.sampleParts 200 (.ofList []) =
      (Translation.mk .always (.name []) (Node.buildAll Node.samplePage)).apply true
        samplePriced 200 (.ofList []) := by
  have hnames : ∀ name ∈ (Translation.mk .always (.name []) (Node.buildAll Node.samplePage)).names,
      (name != ("price" : Text)) = true := by decide +kernel
  exact apply_eq_of_restrict_eq hnames rfl

end Applying

end WFA
