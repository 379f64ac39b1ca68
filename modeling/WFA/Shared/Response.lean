-- SUMMARY: `responseWrapper`: the recursive key/value record the two servers exchange, and its printer.
import WFA.Base.Iterator

/-!
# Response wrappers

`Shared/include/Response.h`. A wrapper is an ordered list of keys, each with a
list of strings or a list of sub-wrappers, and a parallel list of flags that
force the array layout. This file has the record, `add`, `search` and the
printer `toData`; the decoder is in `WFA/Shared/Decode.lean`.

An `assert` is part of the model: the argument `asserts` says whether the build
compiles assertions in (it does unless `NDEBUG` is defined).
-/

namespace WFA

mutual
/-- `elements` and `forcedArrays` are parallel, but nothing in the type says so. -/
inductive ResponseWrapper where
  | mk (elements : List (Text × ElementContainer)) (forcedArrays : List Bool)

/-- Elements are arrays of strings or of objects, not mixed. -/
inductive ElementContainer where
  | strings (values : List Text)
  | objects (values : List ResponseWrapper)
end

namespace ResponseWrapper

def elements : ResponseWrapper → List (Text × ElementContainer)
  | .mk elements _ => elements

def forcedArrays : ResponseWrapper → List Bool
  | .mk _ forcedArrays => forcedArrays

@[simp] theorem elements_mk (es : List (Text × ElementContainer)) (fs : List Bool) :
    (ResponseWrapper.mk es fs).elements = es := rfl

@[simp] theorem forcedArrays_mk (es : List (Text × ElementContainer)) (fs : List Bool) :
    (ResponseWrapper.mk es fs).forcedArrays = fs := rfl

def empty : ResponseWrapper := .mk [] []

/-- Append one element with its flag, as the decoder does. -/
def push (w : ResponseWrapper) (key : Text) (value : ElementContainer) (forced : Bool) :
    ResponseWrapper :=
  .mk (w.elements ++ [(key, value)]) (w.forcedArrays ++ [forced])

/-- The container of the first element with this key. -/
def search (w : ResponseWrapper) (key : Text) : Option ElementContainer :=
  (w.elements.find? (·.1 == key)).map (·.2)

theorem search_push_of_some {w : ResponseWrapper} {key k : Text} {c value : ElementContainer}
    {forced : Bool} (h : w.search k = some c) : (w.push key value forced).search k = some c := by
  unfold search at h ⊢
  obtain ⟨element, hfind, rfl⟩ := Option.map_eq_some_iff.mp h
  simp [push, List.find?_append, hfind]

theorem search_push_self {w : ResponseWrapper} {key : Text} {value : ElementContainer}
    {forced : Bool} (h : w.search key = none) :
    (w.push key value forced).search key = some value := by
  unfold search at h ⊢
  rw [Option.map_eq_none_iff] at h
  simp [push, List.find?_append, h]

theorem search_push_of_ne {w : ResponseWrapper} {key k : Text} {value : ElementContainer}
    {forced : Bool} (h : key ≠ k) : (w.push key value forced).search k = w.search k := by
  unfold search
  simp [push, List.find?_append, h]

/-! ## Adding values -/

/-- `genericAdd<T>`. `single` is the container of a new key, `append` extends the
container of a key that exists; a container of the other kind fails the
assertion or, without it, the `std::get`. -/
def genericAdd (asserts : Bool) (w : ResponseWrapper) (key : Text) (single : ElementContainer)
    (append : ElementContainer → Option ElementContainer) (isForced : Bool) :
    Exec ResponseWrapper :=
  match w.elements.findIdx? (·.1 == key) with
  | none => .ok (w.push key single isForced)
  | some i =>
    match (w.elements[i]?).bind (fun element => append element.2) with
    | none => .error (if asserts then .assertion else .exception)
    | some value => .ok (.mk (w.elements.set i (key, value)) w.forcedArrays)

/-- `add` for a text value. -/
def addString (asserts : Bool) (w : ResponseWrapper) (key value : Text) (forceArray : Bool) :
    Exec ResponseWrapper :=
  w.genericAdd asserts key (.strings [value])
    (fun
      | .strings values => some (.strings (values ++ [value]))
      | .objects _ => none)
    forceArray

/-- `add` for a sub-wrapper. -/
def addObject (asserts : Bool) (w : ResponseWrapper) (key : Text) (value : ResponseWrapper)
    (forceArray : Bool) : Exec ResponseWrapper :=
  w.genericAdd asserts key (.objects [value])
    (fun
      | .strings _ => none
      | .objects values => some (.objects (values ++ [value])))
    forceArray

/-- The wrappers a program can build: the empty one, and what `add` returns. -/
inductive Built (asserts : Bool) : ResponseWrapper → Prop
  | empty : Built asserts empty
  | addString {w w' : ResponseWrapper} {key value : Text} {forceArray : Bool} :
      Built asserts w → w.addString asserts key value forceArray = .ok w' → Built asserts w'
  | addObject {w w' value : ResponseWrapper} {key : Text} {forceArray : Bool} :
      Built asserts w → Built asserts value →
      w.addObject asserts key value forceArray = .ok w' → Built asserts w'

/-! ## Printing -/

/-- The lambda `addPadding`. -/
def addPadding (pad : Bool) (src : Text) (val : Byte) (count : Nat) : Text :=
  if pad then src ++ List.replicate count val else src

/-- `src.erase(src.end() - (size_t(1) + pad))`. -/
def eraseSeparator (pad : Bool) (src : Text) : Text :=
  src.eraseIdx (src.length - (1 + pad.toNat))

/-- `elementToData` for a text value. -/
def stringToData (src : Text) (depth : Nat) (value : Text) (prespace pad : Bool) : Text :=
  let src := if pad && prespace then src ++ List.replicate depth ('\t' : Byte) else src
  if pad then src ++ (('"' : Byte) :: (value ++ [('"' : Byte)])) else src ++ value

/-- The start of the array layout in `containerToData`. -/
def openArray (pad : Bool) (src : Text) : Text :=
  addPadding pad (src ++ [('[' : Byte)]) '\n' 1

/-- What follows every item of an array and every element of an object. -/
def separate (pad : Bool) (src : Text) : Text :=
  addPadding pad (src ++ [(',' : Byte)]) '\n' 1

/-- The end of the array layout in `containerToData`. -/
def closeArray (pad : Bool) (depth : Nat) (src : Text) : Text :=
  addPadding pad (eraseSeparator pad src) '\t' depth ++ [(']' : Byte)]

/-- The loop of `containerToData` over text values. -/
def stringItems (pad : Bool) (depth : Nat) (src : Text) (values : List Text) : Text :=
  values.foldl (fun src value => separate pad (stringToData src depth value true pad)) src

mutual
/-- The private `toData`, which appends to `src`. -/
def toDataInto (asserts pad : Bool) (src : Text) (depth : Nat) (prespace : Bool) :
    ResponseWrapper → Exec Text
  | .mk elements forcedArrays => do
    let src := if prespace then addPadding pad src '\t' depth else src
    let src := addPadding pad (src ++ [('{' : Byte)]) '\n' 1
    let src ← elementsToData asserts pad src (depth + 1) forcedArrays 0 elements
    let src := if elements.isEmpty then src else eraseSeparator pad src
    pure (addPadding pad src '\t' depth ++ [('}' : Byte)])

/-- The loop of `toData` over the elements, at index `i`. -/
def elementsToData (asserts pad : Bool) (src : Text) (depth : Nat) (forcedArrays : List Bool)
    (i : Nat) : List (Text × ElementContainer) → Exec Text
  | [] => pure src
  | (key, value) :: elements => do
    let src := addPadding pad src '\t' depth
    let src := stringToData src 0 key false false
    let src := addPadding pad (src ++ [(':' : Byte)]) ' ' 1
    match forcedArrays[i]? with
    | none => throw .outOfRange
    | some forceArray =>
      let src ← containerToData asserts pad src depth forceArray value
      elementsToData asserts pad (separate pad src) depth forcedArrays (i + 1) elements

/-- `containerToData`, at each of its two instances. -/
def containerToData (asserts pad : Bool) (src : Text) (depth : Nat) (forceArray : Bool) :
    ElementContainer → Exec Text
  | .strings values =>
    if asserts && values.isEmpty then throw .assertion
    else if values.length > 1 || forceArray then
      pure (closeArray pad depth (stringItems pad (depth + 1) (openArray pad src) values))
    else
      match values with
      | [] => throw .outOfRange
      | value :: _ => pure (stringToData src depth value false pad)
  | .objects values =>
    if asserts && values.isEmpty then throw .assertion
    else if values.length > 1 || forceArray then do
      let src ← objectItems asserts pad (depth + 1) (openArray pad src) values
      pure (closeArray pad depth src)
    else
      match values with
      | [] => throw .outOfRange
      | value :: _ => toDataInto asserts pad src depth false value

/-- The loop of `containerToData` over sub-wrappers. -/
def objectItems (asserts pad : Bool) (depth : Nat) (src : Text) :
    List ResponseWrapper → Exec Text
  | [] => pure src
  | value :: values => do
    let src ← toDataInto asserts pad src depth true value
    objectItems asserts pad depth (separate pad src) values
end

def toData (asserts pad : Bool) (w : ResponseWrapper) : Exec Text :=
  toDataInto asserts pad [] 0 false w

end ResponseWrapper

end WFA
