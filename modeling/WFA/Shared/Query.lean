-- SUMMARY: The named values of a request, from its query string or its body.
import WFA.Base.Text

/-!
# Queries and bodies

`Shared/include/Query.h`. A query and a body are both a map from names to texts.
`getElement` throws on a name that is not there, so its result is optional here.
-/

namespace WFA

/-- `queryBase`. -/
structure QueryBase where
  elements : Text → Option Text

abbrev Body := QueryBase

abbrev Query := QueryBase

/-! ## The names of the elements the routes read -/

namespace Field

def username : Text := ("username" : Text)
def password : Text := ("password" : Text)
/-- What `createUser` and `updateUser` check. -/
def permission : Text := ("permission" : Text)
/-- What `updateUser` writes. -/
def permissions : Text := ("permissions" : Text)
def id : Text := ("ID" : Text)
def vid : Text := ("VID" : Text)
def uid : Text := ("UID" : Text)
def request : Text := ("request" : Text)
def quote : Text := ("quote" : Text)
def notes : Text := ("notes" : Text)
def hours : Text := ("hours" : Text)
def paid : Text := ("paid" : Text)
def unauthorisedServices : Text := ("unauthorised" : Text)
def openServices : Text := ("open" : Text)
def closedServices : Text := ("closed" : Text)
def name : Text := ("name" : Text)
def rename : Text := ("rename" : Text)
def phone : Text := ("phone" : Text)
def email : Text := ("email" : Text)
def searchTerm : Text := ("searchterm" : Text)
def quantity : Text := ("quantity" : Text)
def supplier : Text := ("supplier" : Text)
def price : Text := ("price" : Text)
def group : Text := ("group" : Text)
def plate : Text := ("plate" : Text)
def make : Text := ("make" : Text)
def model : Text := ("model" : Text)
def owner : Text := ("owner" : Text)
def year : Text := ("year" : Text)
def colour : Text := ("colour" : Text)
def serviceID : Text := ("serviceID" : Text)
def partID : Text := ("partID" : Text)
def entry : Text := ("entry" : Text)

end Field

/-- No pair is the last one of a name that none has. -/
theorem find?_reverse_of_not_mem {pairs : List (Text × Text)} {name : Text}
    (h : ∀ pair ∈ pairs, pair.1 ≠ name) : pairs.reverse.find? (·.1 == name) = none := by
  apply List.find?_eq_none.mpr
  intro pair hpair
  simpa using h pair (List.mem_reverse.mp hpair)

namespace QueryBase

/-- The map with these pairs, the last one of a name counting. -/
def ofList (pairs : List (Text × Text)) : QueryBase where
  elements name := (pairs.reverse.find? (·.1 == name)).map (·.2)

/-- `hasElement(name)`: the element is there and not empty. -/
def hasElement (b : QueryBase) (name : Text) : Bool :=
  match b.elements name with
  | some value => !value.isEmpty
  | none => false

/-- `hasElement(name, true)`. -/
def hasElementOrEmpty (b : QueryBase) (name : Text) : Bool :=
  (b.elements name).isSome

/-- `getElement`, which throws `std::out_of_range` on a missing name. -/
def getElement (b : QueryBase) (name : Text) : Option Text :=
  b.elements name

def containsAll (b : QueryBase) (names : List Text) : Bool :=
  names.all b.hasElement

/-- `containsAny(names, true)`. -/
def containsAnyOrEmpty (b : QueryBase) (names : List Text) : Bool :=
  names.any b.hasElementOrEmpty

theorem hasElement_iff {b : QueryBase} {name : Text} :
    b.hasElement name = true ↔ ∃ value, b.getElement name = some value ∧ value ≠ [] := by
  unfold hasElement getElement
  cases b.elements name with
  | none => simp
  | some value => simp

end QueryBase

end WFA
