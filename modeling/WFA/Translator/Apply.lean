-- SUMMARY: Applying a parsed template to a response: the page it writes and the warnings it prints.
import WFA.Base.Emission
import WFA.Translator.Conditions
import WFA.Shared.Query

/-!
# Applying a template

`Translator/src/Source.cpp`, the two functions `apply`. A translation writes into
the page text as it walks over its values; a name that is not there is left out
of the page and reported on the console. A value of the wrong kind is no such
case: it fails an assertion or, without it, a `std::get`.
-/

namespace WFA

open Text

/-! ## Output -/

/-- What a run of `apply` writes: the page, and the lines on the console. -/
@[ext]
structure Output where
  source : Text := []
  warnings : List Text := []
  deriving DecidableEq, Repr

namespace Output

instance : Monoid Output where
  one := {}
  mul a b := { source := a.source ++ b.source, warnings := a.warnings ++ b.warnings }
  mul_assoc a b c := Output.ext (List.append_assoc ..) (List.append_assoc ..)
  one_mul _ := rfl
  mul_one _ := Output.ext (List.append_nil _) (List.append_nil _)

@[simp] theorem warnings_one : (1 : Output).warnings = [] := rfl

@[simp] theorem warnings_mul (a b : Output) : (a * b).warnings = a.warnings ++ b.warnings := rfl

/-- `source += t`. -/
def text (t : Text) : Output := { source := t }

/-- `std::cout << t`. -/
def warn (t : Text) : Output := { warnings := [t] }

end Output

/-- What is printed for a value that the response does not have. -/
def missingValue (name : Text) : Text :=
  ("Warning: Value \"" : Text) ++ (name ++ ("\" was not present in reponse.\n" : Text))

/-- What is printed for an element that the query does not have. -/
def missingElement (name : Text) : Text :=
  ("Warning: Query element " : Text) ++ (name ++ (" was not present in request.\n" : Text))

/-! ## The two functions -/

/-- `translation::matches`. A tag of another kind than the match type fails the
`std::get`. -/
def Translation.matches (matchType : MatchType) (tag : TranslationTag) (data : ResponseWrapper)
    (httpCode : Int) : Exec Bool :=
  match matchType, tag with
  | .code, .code code => .ok (httpCode == code)
  | .code, _ => .error .exception
  | .condition, .condition condition => condition.check data
  | .condition, _ => .error .exception
  | _, _ => .ok true

/-- The branch `access` of `translationValue::apply`. -/
def applyAccess (asserts : Bool) (name : Text) (data : ResponseWrapper) (out : Output) :
    Exec Output :=
  match data.search name with
  | none => .ok (out * .warn (missingValue name))
  | some (.objects _) => .error .exception
  | some (.strings values) =>
    if asserts && values.length ≠ 1 then .error .assertion
    else
      match values with
      | [] => .error .outOfRange
      | value :: _ => .ok (out * .text value)

/-- The branch `query` of `translationValue::apply`: an element that is there but
empty is reported as missing. -/
def applyQuery (q : Query) (name : Text) (out : Output) : Exec Output :=
  if q.hasElement name then
    match q.getElement name with
    | some value => .ok (out * .text value)
    | none => .error .exception
  else .ok (out * .warn (missingElement name))

mutual
/-- `translation::apply`, which appends to `out`. -/
def Translation.applyInto (asserts : Bool) (httpCode : Int) (q : Query) :
    Translation → ResponseWrapper → Output → Exec Output
  | .mk .always _ values, data, out => applyAll asserts httpCode q values data out
  | .mk .tag tag values, data, out =>
    match tag with
    | .name name =>
      match data.search name with
      -- Unmatched tags are repeated 0 times.
      | none => .ok out
      | some (.strings _) => .error (if asserts then .assertion else .exception)
      | some (.objects items) =>
        items.foldlM (fun out item => applyAll asserts httpCode q values item out) out
    | _ => .error .exception
  | .mk matchType tag values, data, out => do
    if ← Translation.matches matchType tag data httpCode then
      applyAll asserts httpCode q values data out
    else pure out

/-- `translationValue::apply`. -/
def TranslationValue.applyInto (asserts : Bool) (httpCode : Int) (q : Query) :
    TranslationValue → ResponseWrapper → Output → Exec Output
  | .access name, data, out => applyAccess asserts name data out
  | .html html, _, out => .ok (out * .text html)
  | .translation translation, data, out => translation.applyInto asserts httpCode q data out
  | .query name, _, out => applyQuery q name out

/-- The loop over the values. -/
def applyAll (asserts : Bool) (httpCode : Int) (q : Query) :
    List TranslationValue → ResponseWrapper → Output → Exec Output
  | [], _, out => .ok out
  | value :: values, data, out => do
    let out ← value.applyInto asserts httpCode q data out
    applyAll asserts httpCode q values data out
end

/-- `translation::apply` into an empty page. -/
def Translation.apply (asserts : Bool) (translation : Translation) (data : ResponseWrapper)
    (httpCode : Int) (q : Query) : Exec Output :=
  translation.applyInto asserts httpCode q data {}

/-! ## Only appending -/

section Appending

variable (asserts : Bool) (httpCode : Int) (q : Query)

theorem appends_access (name : Text) (data : ResponseWrapper) :
    Appends (applyAccess asserts name data) := by
  unfold applyAccess
  cases data.search name with
  | none => exact Appends.emit _
  | some container =>
    cases container with
    | objects items => exact Appends.fail _
    | strings values =>
      dsimp only
      split
      · exact Appends.fail _
      · cases values with
        | nil => exact Appends.fail _
        | cons value values => exact Appends.emit _

theorem appends_query (name : Text) : Appends (applyQuery q name) := by
  unfold applyQuery
  split
  · cases q.getElement name with
    | none => exact Appends.fail _
    | some value => exact Appends.emit _
  · exact Appends.emit _

/-- A part that is written under a condition. -/
theorem appends_matches {check : Exec Bool} {f : Output → Exec Output} (hf : Appends f) :
    Appends fun out => (do if ← check then f out else pure out : Exec Output) := by
  cases check with
  | error trap => exact Appends.fail trap
  | ok holds =>
    cases holds with
    | false => exact Appends.skip
    | true => exact hf

mutual
theorem appends_translation : (translation : Translation) → ∀ data : ResponseWrapper,
    Appends fun out => translation.applyInto asserts httpCode q data out
  | .mk .always tag values, data => appends_applyAll values data
  | .mk .tag (.name name) values, data => by
    simp only [Translation.applyInto]
    cases data.search name with
    | none => exact Appends.skip
    | some container =>
      cases container with
      | strings texts => exact Appends.fail _
      | objects items =>
        apply Appends.foldlM
        intro item _
        exact appends_applyAll values item
  | .mk .tag (.code _) values, data => Appends.fail _
  | .mk .tag (.condition _) values, data => Appends.fail _
  | .mk .code tag values, data => by
    simp only [Translation.applyInto]
    exact appends_matches (appends_applyAll values data)
  | .mk .condition tag values, data => by
    simp only [Translation.applyInto]
    exact appends_matches (appends_applyAll values data)

theorem appends_value : (value : TranslationValue) → ∀ data : ResponseWrapper,
    Appends fun out => value.applyInto asserts httpCode q data out
  | .access name, data => appends_access asserts name data
  | .html _, _ => Appends.emit _
  | .translation translation, data => appends_translation translation data
  | .query name, _ => appends_query q name

theorem appends_applyAll : (values : List TranslationValue) → ∀ data : ResponseWrapper,
    Appends fun out => applyAll asserts httpCode q values data out
  | [], data => Appends.skip
  | value :: values, data => by
    have hboth := (appends_value value data).andThen (appends_applyAll values data)
    simpa only [applyAll] using hboth
end

end Appending

end WFA
