-- SUMMARY: Lists of records in the answer of a route, and how a record is looked up in it.
import WFA.Server.User

/-!
# Records of an answer

Most answers are a few fields and a list of records under one key. The lemmas say
what `search` finds after the fields and the lists were added.
-/

namespace WFA

open Text

/-! ## Optional results of a list -/

section Options

variable {α β γ : Type} {f : α → Option β} {l : List α} {out : List β}

theorem mapM_eq_some_iff : l.mapM f = some out ↔ l.map f = out.map some := by
  induction l generalizing out with
  | nil => cases out <;> simp
  | cons a l ih =>
    cases ha : f a with
    | none => cases out <;> simp [ha]
    | some b =>
      cases out with
      | nil => simp [ha, Option.bind_eq_some_iff]
      | cons c out => simp [ha, ← ih, Option.bind_eq_some_iff, and_comm]

theorem mapM_isSome (h : ∀ a ∈ l, (f a).isSome = true) : ∃ out, l.mapM f = some out := by
  induction l with
  | nil => exact ⟨[], rfl⟩
  | cons a l ih =>
    obtain ⟨b, hb⟩ := Option.isSome_iff_exists.mp (h a (by simp))
    obtain ⟨out, hout⟩ := ih fun a ha => h a (by simp [ha])
    exact ⟨b :: out, by simp [hb, hout]⟩

theorem isSome_of_mapM (h : l.mapM f = some out) {a : α} (ha : a ∈ l) : (f a).isSome = true := by
  have hmem : f a ∈ out.map some := by
    rw [← mapM_eq_some_iff.mp h]
    exact List.mem_map_of_mem ha
  obtain ⟨b, -, hb⟩ := List.mem_map.mp hmem
  simp [← hb]

theorem mapM_isSome_iff : (l.mapM f).isSome = true ↔ ∀ a ∈ l, (f a).isSome = true := by
  constructor
  · intro h a ha
    obtain ⟨out, hout⟩ := Option.isSome_iff_exists.mp h
    exact isSome_of_mapM hout ha
  · intro h
    obtain ⟨out, hout⟩ := mapM_isSome h
    simp [hout]

/-- A field that every result has. -/
theorem filterMap_of_mapM {g : β → Option γ} {c : α → γ}
    (hg : ∀ a b, f a = some b → g b = some (c a)) (h : l.mapM f = some out) :
    out.filterMap g = l.map c := by
  rw [mapM_eq_some_iff] at h
  induction l generalizing out with
  | nil => cases out <;> simp_all
  | cons a l ih =>
    cases out with
    | nil => simp at h
    | cons b out =>
      simp only [List.map_cons, List.cons.injEq] at h
      simp [hg a b h.1, ih h.2]

/-- The results with a property that their arguments determine. -/
theorem filter_of_mapM {good : β → Bool} {good' : α → Bool}
    (hgood : ∀ a b, f a = some b → good b = good' a) (h : l.mapM f = some out) :
    (out.filter good).map some = (l.filter good').map f := by
  rw [mapM_eq_some_iff] at h
  induction l generalizing out with
  | nil => cases out <;> simp_all
  | cons a l ih =>
    cases out with
    | nil => simp at h
    | cons b out =>
      simp only [List.map_cons, List.cons.injEq] at h
      rw [List.filter_cons, List.filter_cons, hgood a b h.1]
      split
      · rw [List.map_cons, List.map_cons, ih h.2, h.1]
      · exact ih h.2

end Options

/-! ## Looking up what was added -/

namespace ResponseWrapper

theorem search_addAll_of_some {w : ResponseWrapper} {key k : Text} {c : ElementContainer}
    {records : List ResponseWrapper} (h : w.search k = some c) :
    (w.addAll key records).search k = some c := by
  unfold addAll
  split
  · exact h
  · exact search_push_of_some h

theorem search_addAll_of_ne {w : ResponseWrapper} {key k : Text}
    {records : List ResponseWrapper} (h : key ≠ k) :
    (w.addAll key records).search k = w.search k := by
  unfold addAll
  split
  · rfl
  · exact search_push_of_ne h

theorem search_ofFields (key value : Text) (fields : List (Text × Text)) :
    (ofFields ((key, value) :: fields)).search key = some (.strings [value]) := by
  simp [search, ofFields]

/-- A key that no field has. -/
theorem search_ofFields_none {fields : List (Text × Text)} {key : Text}
    (h : key ∉ fields.map Prod.fst) : (ofFields fields).search key = none := by
  rw [search, Option.map_eq_none_iff, List.find?_eq_none]
  rintro element helement hkey
  obtain ⟨found, hfound, rfl⟩ := List.mem_map.mp helement
  exact h (List.mem_map.mpr ⟨found, hfound, by simpa using hkey⟩)

/-- The records of a list. -/
def recordsAt (w : ResponseWrapper) (list : Text) : List ResponseWrapper :=
  match w.search list with
  | some (.objects records) => records
  | _ => []

theorem recordsAt_addAll_self {w : ResponseWrapper} {list : Text} {records : List ResponseWrapper}
    (h : w.search list = none) : (w.addAll list records).recordsAt list = records := by
  unfold addAll
  split
  · rename_i hnil
    simp [recordsAt, h, List.isEmpty_iff.mp hnil]
  · simp [recordsAt, search_push_self h]

/-- A field with one text. -/
def field (w : ResponseWrapper) (key : Text) : Option Text :=
  match w.search key with
  | some (.strings [t]) => some t
  | _ => none

theorem field_ofFields (key value : Text) (fields : List (Text × Text)) :
    (ofFields ((key, value) :: fields)).field key = some value := by
  rw [field, search_ofFields]

/-- The first field with a key. -/
theorem field_ofFields_eq (fields : List (Text × Text)) (key : Text) :
    (ofFields fields).field key = (fields.find? (·.1 == key)).map (·.2) := by
  induction fields with
  | nil => rfl
  | cons found fields ih =>
    cases hkey : found.1 == key with
    | true => simp [field, search, ofFields, hkey]
    | false => simpa [field, search, ofFields, hkey] using ih

theorem field_push_self {w : ResponseWrapper} {key value : Text} {forced : Bool}
    (h : w.search key = none) : (w.push key (.strings [value]) forced).field key = some value := by
  rw [field, search_push_self h]

theorem field_push_of_ne {w : ResponseWrapper} {key k : Text} {value : ElementContainer}
    {forced : Bool} (h : key ≠ k) : (w.push key value forced).field k = w.field k := by
  rw [field, search_push_of_ne h, field]

theorem field_addAll_of_ne {w : ResponseWrapper} {key k : Text} {records : List ResponseWrapper}
    (h : key ≠ k) : (w.addAll key records).field k = w.field k := by
  rw [field, search_addAll_of_ne h, field]

theorem field_of_search {w : ResponseWrapper} {key : Text} (h : w.search key = none) :
    w.field key = none := by
  rw [field, h]

theorem ofFields_inj {fields fields' : List (Text × Text)}
    (h : ofFields fields = ofFields fields') : fields = fields' := by
  have hmap := (ResponseWrapper.mk.inj h).1
  refine List.map_injective_iff.mpr ?_ hmap
  rintro ⟨key, value⟩ ⟨key', value'⟩ heq
  simpa using heq

end ResponseWrapper

/-- The record that a route answers with. -/
def Ending.record : Ending → Option ResponseWrapper
  | .reply .ok response => response
  | _ => none

/-- The records that a route answers with in a list. -/
def Ending.records (ending : Ending) (list : Text) : List ResponseWrapper :=
  match ending with
  | .reply .ok (some response) => response.recordsAt list
  | _ => []

end WFA
