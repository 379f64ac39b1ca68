-- SUMMARY: The representation of a wrapper under `add` and `fromData`, and what a row of `add` calls leaves under each key.
import WFA.Shared.Decode
import WFA.Shared.Render

/-!
# Adding to a wrapper

The elements of a wrapper and their flags are two lists that `add` and `fromData`
extend in different places. They stay parallel and no container is ever empty, at
every depth, so every wrapper a program obtains can be printed. A wrapper built by
`add` alone holds under each key the values that were added there, in order, with
the flag of the first.
-/

namespace WFA

open Text

/-- The index of the variant: `0` for strings and `1` for objects. -/
def ElementContainer.isObject : ElementContainer → Bool
  | .strings _ => false
  | .objects _ => true

namespace ResponseWrapper

/-! ## Calls of `add` -/

/-- One call of `add`. -/
inductive AddCall where
  | string (key value : Text) (forceArray : Bool)
  | object (key : Text) (value : ResponseWrapper) (forceArray : Bool)

namespace AddCall

def key : AddCall → Text
  | .string key _ _ => key
  | .object key _ _ => key

def forceArray : AddCall → Bool
  | .string _ _ forceArray => forceArray
  | .object _ _ forceArray => forceArray

def isObject : AddCall → Bool
  | .string _ _ _ => false
  | .object _ _ _ => true

def run (asserts : Bool) (w : ResponseWrapper) : AddCall → Exec ResponseWrapper
  | .string key value forceArray => w.addString asserts key value forceArray
  | .object key value forceArray => w.addObject asserts key value forceArray

/-- The container of a new key. -/
def single : AddCall → ElementContainer
  | .string _ value _ => .strings [value]
  | .object _ value _ => .objects [value]

/-- The container of a key that exists, with the new value. -/
def append : AddCall → ElementContainer → Option ElementContainer
  | .string _ value _, .strings values => some (.strings (values ++ [value]))
  | .object _ value _, .objects values => some (.objects (values ++ [value]))
  | _, _ => none

theorem run_eq (asserts : Bool) (w : ResponseWrapper) (call : AddCall) :
    call.run asserts w =
      w.genericAdd asserts call.key call.single call.append call.forceArray := by
  cases call with
  | string key value forceArray =>
    rw [run, addString]
    congr 1
    funext container
    cases container <;> rfl
  | object key value forceArray =>
    rw [run, addObject]
    congr 1
    funext container
    cases container <;> rfl

theorem append_of_isObject {call : AddCall} {container : ElementContainer}
    (h : container.isObject = call.isObject) :
    ∃ longer, call.append container = some longer ∧ longer.isObject = container.isObject := by
  cases call with
  | string key value forceArray =>
    cases container with
    | strings values => exact ⟨_, rfl, rfl⟩
    | objects values => cases h
  | object key value forceArray =>
    cases container with
    | strings values => cases h
    | objects values => exact ⟨_, rfl, rfl⟩

end AddCall

/-- A row of `add` calls. -/
def addCalls (asserts : Bool) (w : ResponseWrapper) (calls : List AddCall) : Exec ResponseWrapper :=
  calls.foldlM (fun w call => call.run asserts w) w

/-- Each key is used with one kind of value. -/
def OneKind (calls : List AddCall) : Prop :=
  ∀ a ∈ calls, ∀ b ∈ calls, a.key = b.key → a.isObject = b.isObject

/-- What is there already under a key is of the kind that is added. -/
def Compatible (w : ResponseWrapper) (calls : List AddCall) : Prop :=
  ∀ call ∈ calls, ∀ container, w.search call.key = some container →
    container.isObject = call.isObject

/-! ## The place of a key -/

/-- The place of the first element with this key. -/
def place (w : ResponseWrapper) (key : Text) : Option Nat :=
  w.elements.findIdx? (·.1 == key)

def keys (w : ResponseWrapper) : List Text :=
  w.elements.map Prod.fst

/-- The array flag of a key. -/
def flag (w : ResponseWrapper) (key : Text) : Option Bool :=
  (w.place key).bind fun i => w.forcedArrays[i]?

section Places

variable {asserts isForced : Bool} {w w' : ResponseWrapper} {key k : Text} {value : ElementContainer}

theorem place_eq_keys : w.place key = w.keys.findIdx? (· == key) := by
  rw [place, keys, List.findIdx?_map]
  rfl

theorem search_eq_place : w.search key = (w.place key).bind fun i => (w.elements[i]?).map (·.2) := by
  rw [search, place, List.find?_eq_bind_findIdx?_getElem?]
  cases w.elements.findIdx? (·.1 == key) with
  | none => rfl
  | some i => rfl

theorem place_lt {i : Nat} (h : w.place key = some i) : i < w.elements.length := by
  obtain ⟨hlt, -⟩ := List.findIdx?_eq_some_iff_getElem.mp h
  exact hlt

theorem place_key {i : Nat} (h : w.place key = some i) : ∃ c, w.elements[i]? = some (key, c) := by
  obtain ⟨hlt, hkey, -⟩ := List.findIdx?_eq_some_iff_getElem.mp h
  refine ⟨w.elements[i].2, ?_⟩
  rw [List.getElem?_eq_getElem hlt]
  have heq : w.elements[i].1 = key := by simpa using hkey
  rw [← heq]

theorem place_eq_none_iff : w.place key = none ↔ key ∉ w.keys := by
  rw [place_eq_keys, List.findIdx?_eq_none_iff]
  constructor
  · intro h hmem
    simpa using h key hmem
  · intro h other hother
    simp only [beq_eq_false_iff_ne]
    rintro rfl
    exact h hother

/-- What `genericAdd` can do. -/
theorem genericAdd_cases {single : ElementContainer}
    {append : ElementContainer → Option ElementContainer}
    (h : w.genericAdd asserts key single append isForced = .ok w') :
    (w.place key = none ∧ w' = w.push key single isForced) ∨
      ∃ i c longer, w.place key = some i ∧ w.elements[i]? = some (key, c) ∧ append c = some longer ∧
        w' = .mk (w.elements.set i (key, longer)) w.forcedArrays := by
  unfold genericAdd at h
  split at h
  · rename_i hplace
    exact .inl ⟨hplace, (Except.ok.inj h).symm⟩
  · rename_i i hplace
    obtain ⟨c, hc⟩ := place_key hplace
    split at h
    · cases h
    · rename_i longer hlonger
      rw [hc, Option.bind_some] at hlonger
      exact .inr ⟨i, c, longer, hplace, hc, hlonger, (Except.ok.inj h).symm⟩

end Places

/-! ### A new key -/

section Push

variable {isForced : Bool} {w : ResponseWrapper} {key k : Text} {value : ElementContainer}

theorem keys_push : (w.push key value isForced).keys = w.keys ++ [key] := by
  simp [push, keys]

theorem place_push_of_ne (hk : k ≠ key) : (w.push key value isForced).place k = w.place k := by
  have hbeq : (key == k) = false := by simpa using hk.symm
  rw [place_eq_keys, place_eq_keys, keys_push, List.findIdx?_append]
  simp [List.findIdx?_cons, hbeq]

theorem place_push_self (h : w.place key = none) :
    (w.push key value isForced).place key = some w.elements.length := by
  rw [place_eq_keys] at h ⊢
  rw [keys_push, List.findIdx?_append, h]
  simp [List.findIdx?_cons, keys]

theorem flag_push_of_ne (hlen : w.forcedArrays.length = w.elements.length) (hk : k ≠ key) :
    (w.push key value isForced).flag k = w.flag k := by
  rw [flag, flag, place_push_of_ne hk]
  cases hplace : w.place k with
  | none => rfl
  | some i =>
    have hlt := place_lt hplace
    rw [← hlen] at hlt
    simp [push, List.getElem?_append_left hlt]

theorem flag_push_self (hlen : w.forcedArrays.length = w.elements.length)
    (h : w.place key = none) : (w.push key value isForced).flag key = some isForced := by
  rw [flag, place_push_self h, ← hlen]
  simp [push]

end Push

/-! ### A key that exists -/

section Set

variable {w : ResponseWrapper} {key k : Text} {i : Nat} {c longer : ElementContainer}

theorem keys_set (h : w.elements[i]? = some (key, c)) :
    (ResponseWrapper.mk (w.elements.set i (key, longer)) w.forcedArrays).keys = w.keys := by
  have hkey : (w.elements.map Prod.fst)[i]? = some key := by simp [h]
  obtain ⟨hlt, hkey⟩ := List.getElem?_eq_some_iff.mp hkey
  simp only [keys, elements_mk, List.map_set]
  rw [← hkey]
  exact List.set_getElem_self hlt

theorem place_set (h : w.elements[i]? = some (key, c)) :
    (ResponseWrapper.mk (w.elements.set i (key, longer)) w.forcedArrays).place k = w.place k := by
  rw [place_eq_keys, place_eq_keys, keys_set h]

theorem flag_set (h : w.elements[i]? = some (key, c)) :
    (ResponseWrapper.mk (w.elements.set i (key, longer)) w.forcedArrays).flag k = w.flag k := by
  rw [flag, flag, place_set h]
  rfl

theorem search_set_self (hplace : w.place key = some i) (h : w.elements[i]? = some (key, c)) :
    (ResponseWrapper.mk (w.elements.set i (key, longer)) w.forcedArrays).search key =
      some longer := by
  rw [search_eq_place, place_set h, hplace]
  simp [place_lt hplace]

theorem search_set_of_ne (h : w.elements[i]? = some (key, c)) (hk : k ≠ key) :
    (ResponseWrapper.mk (w.elements.set i (key, longer)) w.forcedArrays).search k = w.search k := by
  rw [search_eq_place, search_eq_place, place_set h]
  cases hplace : w.place k with
  | none => rfl
  | some j =>
    have hne : i ≠ j := by
      rintro rfl
      obtain ⟨c', hc'⟩ := place_key hplace
      rw [h] at hc'
      exact hk (congrArg Prod.fst (Option.some.inj hc')).symm
    simp [List.getElem?_set_ne hne]

end Set

/-! ## One call -/

section Run

variable {asserts : Bool} {w w' : ResponseWrapper} {call : AddCall} {k : Text}

theorem search_eq_none_iff : w.search k = none ↔ w.place k = none := by
  rw [search_eq_place]
  cases hplace : w.place k with
  | none => simp
  | some i =>
    obtain ⟨c, hc⟩ := place_key hplace
    simp [hc]

/-- What is found under the key of a call, before and after. -/
theorem AddCall.run_search_self (h : call.run asserts w = .ok w') :
    (w.search call.key = none ∧ w'.search call.key = some call.single) ∨
      ∃ c longer, w.search call.key = some c ∧ call.append c = some longer ∧
        w'.search call.key = some longer := by
  rw [run_eq] at h
  rcases genericAdd_cases h with ⟨hplace, rfl⟩ | ⟨i, c, longer, hplace, hc, hlonger, rfl⟩
  · have hnone := search_eq_none_iff.mpr hplace
    exact .inl ⟨hnone, search_push_self hnone⟩
  · refine .inr ⟨c, longer, ?_, hlonger, search_set_self hplace hc⟩
    rw [search_eq_place, hplace]
    simp [hc]

theorem AddCall.run_search_of_ne (h : call.run asserts w = .ok w') (hk : k ≠ call.key) :
    w'.search k = w.search k := by
  rw [run_eq] at h
  rcases genericAdd_cases h with ⟨-, rfl⟩ | ⟨i, c, longer, -, hc, -, rfl⟩
  · exact search_push_of_ne hk.symm
  · exact search_set_of_ne hc hk

/-- A call gives a flag to a new key only. -/
theorem AddCall.run_flag (hlen : w.forcedArrays.length = w.elements.length)
    (h : call.run asserts w = .ok w') :
    w'.flag k = if k = call.key ∧ w.search k = none then some call.forceArray else w.flag k := by
  rw [run_eq] at h
  rcases genericAdd_cases h with ⟨hplace, rfl⟩ | ⟨i, c, longer, hplace, hc, -, rfl⟩
  · by_cases hk : k = call.key
    · subst hk
      rw [if_pos ⟨rfl, search_eq_none_iff.mpr hplace⟩]
      exact flag_push_self hlen hplace
    · rw [if_neg fun hboth => hk hboth.1]
      exact flag_push_of_ne hlen hk
  · have hold : ¬ (k = call.key ∧ w.search k = none) := by
      rintro ⟨rfl, hnone⟩
      rw [search_eq_none_iff, hplace] at hnone
      cases hnone
    rw [if_neg hold]
    exact flag_set hc

theorem AddCall.run_nodup (hnodup : w.keys.Nodup) (h : call.run asserts w = .ok w') :
    w'.keys.Nodup := by
  rw [run_eq] at h
  rcases genericAdd_cases h with ⟨hplace, rfl⟩ | ⟨i, c, longer, -, hc, -, rfl⟩
  · rw [keys_push, ← List.concat_eq_append]
    exact hnodup.concat (place_eq_none_iff.mp hplace)
  · rwa [keys_set hc]

/-- A call with the kind that is there returns. -/
theorem AddCall.run_ok (asserts : Bool)
    (h : ∀ container, w.search call.key = some container → container.isObject = call.isObject) :
    ∃ w', call.run asserts w = .ok w' := by
  rw [run_eq, genericAdd]
  cases hplace : w.place call.key with
  | none =>
    rw [place] at hplace
    exact ⟨_, by rw [hplace]⟩
  | some i =>
    obtain ⟨c, hc⟩ := place_key hplace
    have hfound : w.search call.key = some c := by
      rw [search_eq_place, hplace]
      simp [hc]
    obtain ⟨longer, hlonger, -⟩ := AddCall.append_of_isObject (h c hfound)
    rw [place] at hplace
    exact ⟨.mk (w.elements.set i (call.key, longer)) w.forcedArrays, by
      simp only [hplace, hc, Option.bind_some, hlonger]⟩

end Run

/-! ## Rows of calls -/

section Calls

variable {asserts : Bool} {w w' : ResponseWrapper} {calls : List AddCall}

/-- Calls of one kind for each key return. -/
theorem addCalls_ok (asserts : Bool) (hcompatible : Compatible w calls) (hkind : OneKind calls) :
    ∃ w', addCalls asserts w calls = .ok w' := by
  induction calls generalizing w with
  | nil => exact ⟨w, rfl⟩
  | cons call calls ih =>
    obtain ⟨next, hnext⟩ := AddCall.run_ok asserts (hcompatible call (by simp))
    have hrest : Compatible next calls := by
      intro other hother container hcontainer
      by_cases hkey : other.key = call.key
      · have hsame : call.isObject = other.isObject :=
          hkind call (by simp) other (by simp [hother]) hkey.symm
        rw [hkey] at hcontainer
        rcases AddCall.run_search_self hnext with ⟨-, hsingle⟩ | ⟨c, longer, hc, hlonger, hfound⟩
        · rw [hsingle] at hcontainer
          obtain rfl := Option.some.inj hcontainer
          rw [← hsame]
          cases call <;> rfl
        · rw [hfound] at hcontainer
          obtain rfl := Option.some.inj hcontainer
          have hc' := hcompatible call (by simp) c hc
          obtain ⟨longer', hlonger', hobject⟩ := AddCall.append_of_isObject hc'
          rw [hlonger] at hlonger'
          obtain rfl := Option.some.inj hlonger'
          rw [hobject, hc', hsame]
      · rw [AddCall.run_search_of_ne hnext hkey] at hcontainer
        exact hcompatible other (by simp [hother]) container hcontainer
    obtain ⟨w', hw'⟩ := ih hrest fun a ha b hb => hkind a (by simp [ha]) b (by simp [hb])
    exact ⟨w', by rw [addCalls, List.foldlM_cons, hnext]; exact hw'⟩

/-- The strings added under a key, in order. -/
def stringsUnder (k : Text) (calls : List AddCall) : List Text :=
  calls.filterMap fun
    | .string key value _ => if key = k then some value else none
    | .object _ _ _ => none

/-- The objects added under a key, in order. -/
def objectsUnder (k : Text) (calls : List AddCall) : List ResponseWrapper :=
  calls.filterMap fun
    | .string _ _ _ => none
    | .object key value _ => if key = k then some value else none

/-- The container of the values added under a key: nothing when there are none. -/
def addedUnder (k : Text) (calls : List AddCall) : Option ElementContainer :=
  match stringsUnder k calls, objectsUnder k calls with
  | [], [] => none
  | [], objects => some (.objects objects)
  | strings, _ => some (.strings strings)

/-- The flag of the first call under a key. -/
def firstFlag (k : Text) (calls : List AddCall) : Option Bool :=
  (calls.find? (·.key == k)).map AddCall.forceArray

section Added

variable {k : Text} {call : AddCall}

theorem addedUnder_eq_none_iff :
    addedUnder k calls = none ↔ stringsUnder k calls = [] ∧ objectsUnder k calls = [] := by
  unfold addedUnder
  cases stringsUnder k calls <;> cases objectsUnder k calls <;> simp

theorem addedUnder_eq_strings_iff {values : List Text} :
    addedUnder k calls = some (.strings values) ↔ stringsUnder k calls = values ∧ values ≠ [] := by
  unfold addedUnder
  cases stringsUnder k calls with
  | nil => cases objectsUnder k calls <;> simp +contextual [eq_comm]
  | cons value rest =>
    simp only [Option.some.injEq, ElementContainer.strings.injEq]
    constructor
    · rintro rfl
      simp
    · exact fun h => h.1

theorem addedUnder_eq_objects_iff {values : List ResponseWrapper} :
    addedUnder k calls = some (.objects values) ↔
      stringsUnder k calls = [] ∧ objectsUnder k calls = values ∧ values ≠ [] := by
  unfold addedUnder
  cases stringsUnder k calls with
  | nil =>
    cases objectsUnder k calls with
    | nil => simp +contextual [eq_comm]
    | cons value rest =>
      simp only [Option.some.injEq, ElementContainer.objects.injEq, true_and]
      constructor
      · rintro rfl
        simp
      · exact fun h => h.1
  | cons value rest => simp

theorem addedUnder_concat_of_ne (hk : call.key ≠ k) :
    addedUnder k (calls ++ [call]) = addedUnder k calls := by
  have hstrings : stringsUnder k (calls ++ [call]) = stringsUnder k calls := by
    cases call <;> simp_all [stringsUnder, AddCall.key]
  have hobjects : objectsUnder k (calls ++ [call]) = objectsUnder k calls := by
    cases call <;> simp_all [objectsUnder, AddCall.key]
  simp only [addedUnder, hstrings, hobjects]

/-- The first value under a key. -/
theorem addedUnder_concat_first (h : addedUnder call.key calls = none) :
    addedUnder call.key (calls ++ [call]) = some call.single := by
  obtain ⟨hstrings, hobjects⟩ := addedUnder_eq_none_iff.mp h
  cases call with
  | string key value forceArray =>
    apply addedUnder_eq_strings_iff.mpr
    simp only [stringsUnder, AddCall.key] at hstrings
    simp [stringsUnder, AddCall.key, hstrings]
  | object key value forceArray =>
    apply addedUnder_eq_objects_iff.mpr
    simp only [stringsUnder, objectsUnder, AddCall.key] at hstrings hobjects
    simp [stringsUnder, objectsUnder, AddCall.key, hstrings, hobjects]

/-- One more value under a key. -/
theorem addedUnder_concat_next {c longer : ElementContainer} (h : addedUnder call.key calls = some c)
    (happend : call.append c = some longer) :
    addedUnder call.key (calls ++ [call]) = some longer := by
  cases call with
  | string key value forceArray =>
    cases c with
    | objects values => cases happend
    | strings values =>
      obtain rfl := Option.some.inj happend
      have hstrings := (addedUnder_eq_strings_iff.mp h).1
      apply addedUnder_eq_strings_iff.mpr
      simp only [stringsUnder, AddCall.key] at hstrings
      simp [stringsUnder, AddCall.key, hstrings]
  | object key value forceArray =>
    cases c with
    | strings values => cases happend
    | objects values =>
      obtain rfl := Option.some.inj happend
      obtain ⟨hstrings, hobjects, -⟩ := addedUnder_eq_objects_iff.mp h
      apply addedUnder_eq_objects_iff.mpr
      simp only [stringsUnder, objectsUnder, AddCall.key] at hstrings hobjects
      simp [stringsUnder, objectsUnder, AddCall.key, hstrings, hobjects]

/-- There are no values under a key exactly when there was no call. -/
theorem firstFlag_eq_none_iff : firstFlag k calls = none ↔ addedUnder k calls = none := by
  rw [firstFlag, Option.map_eq_none_iff, List.find?_eq_none, addedUnder_eq_none_iff, stringsUnder,
    objectsUnder, List.filterMap_eq_nil_iff, List.filterMap_eq_nil_iff, ← forall₂_and]
  refine forall₂_congr fun call _ => ?_
  cases call <;> simp [AddCall.key]

theorem firstFlag_concat :
    firstFlag k (calls ++ [call]) =
      if k = call.key ∧ firstFlag k calls = none then some call.forceArray
      else firstFlag k calls := by
  cases hfind : calls.find? (·.key == k) with
  | some first => simp [firstFlag, hfind]
  | none =>
    by_cases hk : k = call.key
    · subst hk
      simp [firstFlag, hfind]
    · simp [firstFlag, hfind, hk, Ne.symm hk]

end Added

theorem addCalls_concat (call : AddCall) :
    addCalls asserts w (calls ++ [call]) = (addCalls asserts w calls).bind (call.run asserts) := by
  simp only [addCalls, List.foldlM_append, List.foldlM_cons, List.foldlM_nil, bind_pure]
  rfl

/-- What a row of calls leaves of the empty wrapper. -/
theorem addCalls_spec (h : addCalls asserts empty calls = .ok w) :
    w.forcedArrays.length = w.elements.length ∧ w.keys.Nodup ∧
      ∀ k, w.search k = addedUnder k calls ∧ w.flag k = firstFlag k calls := by
  induction calls using List.reverseRecOn generalizing w with
  | nil =>
    obtain rfl := Except.ok.inj h
    exact ⟨rfl, List.nodup_nil, fun k => ⟨rfl, rfl⟩⟩
  | append_singleton calls call ih =>
    rw [addCalls_concat] at h
    cases hbefore : addCalls asserts empty calls with
    | error trap =>
      rw [hbefore] at h
      cases h
    | ok before =>
      obtain ⟨hlen, hnodup, hfound⟩ := ih hbefore
      have hrun : call.run asserts before = .ok w := by rwa [hbefore] at h
      refine ⟨?_, AddCall.run_nodup hnodup hrun, fun k => ⟨?_, ?_⟩⟩
      · rw [AddCall.run_eq] at hrun
        rcases genericAdd_cases hrun with ⟨-, rfl⟩ | ⟨i, c, longer, -, -, -, rfl⟩
        · simp [push, hlen]
        · simp [hlen]
      · by_cases hk : call.key = k
        · subst hk
          have hsearch := (hfound call.key).1
          rcases AddCall.run_search_self hrun with ⟨hnone, hsingle⟩ | ⟨c, longer, hc, hlonger, hnew⟩
          · rw [hsingle, addedUnder_concat_first (hsearch ▸ hnone)]
          · rw [hnew, addedUnder_concat_next (hsearch ▸ hc) hlonger]
        · rw [AddCall.run_search_of_ne hrun (Ne.symm hk), (hfound k).1, addedUnder_concat_of_ne hk]
      · rw [AddCall.run_flag hlen hrun, (hfound k).1, (hfound k).2, firstFlag_concat]
        simp only [firstFlag_eq_none_iff]

end Calls

/-! ## Decoded wrappers -/

section Decoded

variable {asserts : Bool} {w : ResponseWrapper}

theorem readText_wf_succ {fuel : Nat}
    (hfields : ∀ rest ret w, ret.Wf → readFields asserts fuel rest ret = .ok (some w) → w.Wf)
    {data : Text} (h : readText asserts (fuel + 1) data = .ok (some w)) : w.Wf := by
  rw [readText] at h
  split at h
  · obtain rfl := Option.some.inj (Except.ok.inj h)
    exact wf_empty
  · split at h
    · cases h
    · exact hfields _ _ _ wf_empty h

/-- Every branch of the decoder extends both lists, by a container that is not
empty. -/
theorem readFields_wf_succ {fuel : Nat}
    (htext : ∀ data w, readText asserts fuel data = .ok (some w) → w.Wf)
    (hfields : ∀ rest ret w, ret.Wf → readFields asserts fuel rest ret = .ok (some w) → w.Wf)
    (hitems : ∀ content stop values found, WfAll values →
      readItems asserts fuel content stop values = .ok (some found) → found ≠ [] ∧ WfAll found)
    {rest : Text} {ret : ResponseWrapper} (hret : ret.Wf)
    (h : readFields asserts (fuel + 1) rest ret = .ok (some w)) : w.Wf := by
  rw [readFields] at h
  split at h
  · obtain rfl := Option.some.inj (Except.ok.inj h)
    exact hret
  · split at h
    · -- one object
      split at h
      · rcases ifPresent_eq_ok h with ⟨-, hnone⟩ | ⟨val, hval, hrest⟩
        · cases hnone
        · refine hfields _ _ _ (hret.push false ?_) hrest
          exact ⟨by simp, htext _ _ hval, trivial⟩
      · rcases ifPresent_eq_ok h with ⟨-, hnone⟩ | ⟨val, -, herror⟩
        · cases hnone
        · cases herror
    · split at h
      · -- an array
        split at h
        · dsimp only at h
          split at h
          · rcases ifPresent_eq_ok h with ⟨-, hnone⟩ | ⟨values, hvalues, hrest⟩
            · cases hnone
            · have hcontainer : WfContainer (.objects values) :=
                hitems _ _ _ _ (show WfAll [] from trivial) hvalues
              exact hfields _ _ _ (hret.push true hcontainer) hrest
          · refine hfields _ _ _ (hret.push true ?_) h
            exact List.splitOn_ne_nil _ _
        · split at h
          · rcases ifPresent_eq_ok h with ⟨-, hnone⟩ | ⟨values, -, herror⟩
            · cases hnone
            · cases herror
          · cases h
      · -- one string
        refine hfields _ _ _ (hret.push false ?_) h
        simp [WfContainer]

theorem readItems_wf_succ {fuel : Nat}
    (htext : ∀ data w, readText asserts fuel data = .ok (some w) → w.Wf)
    (hitems : ∀ content stop values found, WfAll values →
      readItems asserts fuel content stop values = .ok (some found) → found ≠ [] ∧ WfAll found)
    {content : Text} {stop : Byte} {values found : List ResponseWrapper} (hvalues : WfAll values)
    (h : readItems asserts (fuel + 1) content stop values = .ok (some found)) :
    found ≠ [] ∧ WfAll found := by
  rw [readItems] at h
  split at h
  · cases h
  · split at h
    · rcases ifPresent_eq_ok h with ⟨-, hnone⟩ | ⟨val, hval, hrest⟩
      · cases hnone
      · have hall : WfAll (values ++ [val]) := by
          rw [wfAll_iff] at hvalues ⊢
          intro value hmem
          rcases List.mem_append.mp hmem with hmem | hmem
          · exact hvalues value hmem
          · rw [List.mem_singleton.mp hmem]
            exact htext _ _ hval
        split at hrest
        · obtain rfl := Option.some.inj (Except.ok.inj hrest)
          exact ⟨by simp, hall⟩
        · exact hitems _ _ _ _ hall hrest
    · rcases ifPresent_eq_ok h with ⟨-, hnone⟩ | ⟨val, -, herror⟩
      · cases hnone
      · cases herror

/-- The three parts of the decoder together, by induction on the steps left. -/
theorem read_wf (asserts : Bool) (fuel : Nat) :
    (∀ data w, readText asserts fuel data = .ok (some w) → w.Wf) ∧
    (∀ rest ret w, ret.Wf → readFields asserts fuel rest ret = .ok (some w) → w.Wf) ∧
    (∀ content stop values found, WfAll values →
      readItems asserts fuel content stop values = .ok (some found) → found ≠ [] ∧ WfAll found) := by
  induction fuel with
  | zero =>
    refine ⟨?_, ?_, ?_⟩
    · intro data w h
      cases h
    · intro rest ret w _ h
      cases h
    · intro content stop values found _ h
      cases h
  | succ fuel ih =>
    obtain ⟨htext, hfields, hitems⟩ := ih
    exact ⟨fun _ _ h => readText_wf_succ hfields h,
      fun _ _ _ hret h => readFields_wf_succ htext hfields hitems hret h,
      fun _ _ _ _ hvalues h => readItems_wf_succ htext hitems hvalues h⟩

theorem fromData_wf {data : Text} (h : fromData asserts data = .ok (some w)) : w.Wf := by
  rw [fromData_eq_readText] at h
  exact (read_wf asserts _).1 _ _ h

end Decoded

/-! ## The representation -/

/-- The wrappers a program can obtain: the empty one, what `fromData` decodes
within its input, and what `add` makes of them. -/
inductive Obtained (asserts : Bool) : ResponseWrapper → Prop where
  | empty : Obtained asserts empty
  | decoded {data : Text} {w : ResponseWrapper} (h : fromData asserts data = .ok (some w)) :
      Obtained asserts w
  | addString {w w' : ResponseWrapper} {key value : Text} {forceArray : Bool}
      (hw : Obtained asserts w)
      (h : (AddCall.string key value forceArray).run asserts w = .ok w') : Obtained asserts w'
  | addObject {w w' value : ResponseWrapper} {key : Text} {forceArray : Bool}
      (hw : Obtained asserts w) (hvalue : Obtained asserts value)
      (h : (AddCall.object key value forceArray).run asserts w = .ok w') : Obtained asserts w'

theorem Obtained.wf {asserts : Bool} {w : ResponseWrapper} (h : Obtained asserts w) : w.Wf := by
  induction h with
  | empty => exact wf_empty
  | decoded h => exact fromData_wf h
  | addString _ h ih => exact ih.addString h
  | addObject _ _ h ih ihvalue => exact ih.addObject ihvalue h

/-- The value of a call is itself obtained. -/
def AddCall.Given (asserts : Bool) : AddCall → Prop
  | .string _ _ _ => True
  | .object _ value _ => Obtained asserts value

theorem Obtained.addCalls {asserts : Bool} {w w' : ResponseWrapper} {calls : List AddCall}
    (hw : Obtained asserts w) (hgiven : ∀ call ∈ calls, call.Given asserts)
    (h : addCalls asserts w calls = .ok w') : Obtained asserts w' := by
  induction calls using List.reverseRecOn generalizing w' with
  | nil =>
    obtain rfl := Except.ok.inj h
    exact hw
  | append_singleton calls call ih =>
    rw [addCalls_concat] at h
    cases hbefore : ResponseWrapper.addCalls asserts w calls with
    | error trap =>
      rw [hbefore] at h
      cases h
    | ok before =>
      rw [hbefore] at h
      have hobtained := ih (fun c hc => hgiven c (by simp [hc])) hbefore
      have hcall := hgiven call (by simp)
      cases call with
      | string key value forceArray => exact .addString hobtained h
      | object key value forceArray => exact .addObject hobtained hcall h

/-- Calls of `add` with one kind of value for each key, on any wrapper a program
has obtained, return a wrapper that is parallel and without empty containers at
every depth, so that it prints. Calls on the empty wrapper leave unique keys, under
each key the values in order, and the flag of its first call. -/
theorem representation (asserts : Bool) :
    (∀ w calls, Obtained asserts w → (∀ call ∈ calls, call.Given asserts) → Compatible w calls →
      OneKind calls → ∃ w', addCalls asserts w calls = .ok w' ∧ w'.Wf ∧
        ∀ pad, ∃ text, w'.toData asserts pad = .ok text) ∧
    (∀ calls w, addCalls asserts empty calls = .ok w →
      w.keys.Nodup ∧ ∀ k, w.search k = addedUnder k calls ∧ w.flag k = firstFlag k calls) := by
  refine ⟨?_, ?_⟩
  · intro w calls hw hgiven hcompatible hkind
    obtain ⟨w', hw'⟩ := addCalls_ok asserts hcompatible hkind
    have hwf := (hw.addCalls hgiven hw').wf
    exact ⟨w', hw', hwf, fun pad => ⟨_, toData_eq hwf⟩⟩
  · intro calls w h
    exact (addCalls_spec h).2

/-- Two strings under one key, with an object under another in between. -/
def sampleCalls : List AddCall :=
  [.string ("a" : Text) ("1" : Text) false, .object ("b" : Text) empty true,
    .string ("a" : Text) ("2" : Text) true]

theorem representation_sampleCalls :
    ∃ w, addCalls true empty sampleCalls = .ok w ∧ w.Wf ∧
      w.search ("a" : Text) = some (.strings [("1" : Text), ("2" : Text)]) ∧
      w.flag ("a" : Text) = some false := by
  have hgiven : ∀ call ∈ sampleCalls, call.Given true := by
    simp [sampleCalls, AddCall.Given, Obtained.empty]
  have hkind : OneKind sampleCalls := by
    have hdecided : ∀ a ∈ sampleCalls.map (fun call => (call.key, call.isObject)),
        ∀ b ∈ sampleCalls.map (fun call => (call.key, call.isObject)), a.1 = b.1 → a.2 = b.2 := by
      decide +kernel
    intro a ha b hb hkey
    exact hdecided _ (List.mem_map_of_mem ha) _ (List.mem_map_of_mem hb) hkey
  have hcompatible : Compatible empty sampleCalls := by
    intro call _ container h
    cases h
  obtain ⟨w, hw, hwf, -⟩ :=
    (representation true).1 empty sampleCalls .empty hgiven hcompatible hkind
  have hfound := ((representation true).2 sampleCalls w hw).2 ("a" : Text)
  exact ⟨w, hw, hwf, hfound.1, hfound.2⟩

end ResponseWrapper

end WFA
