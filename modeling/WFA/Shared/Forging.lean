-- SUMMARY: Which texts stay inside their own field on the wire, and that such fields do not affect each other.
import WFA.Shared.RoundTrip
import WFA.Shared.DecoderSafety

/-!
# Field forging

Nothing on the wire is escaped, so a text with a comma in it ends its field and
starts another one. A text is *contained* when the decoder takes exactly its
printed form for the value of its field: `Contained`. The fields of a flat
record whose values are contained are read apart from each other:
`search_alike`.
-/

namespace WFA

open Text

namespace ResponseWrapper

/-! ## Flat records -/

/-- The record that one `add` call for each key of `fields` makes, with the
flag given there and the value `values` has for the key. -/
def record (asserts : Bool) (values : Text → Text) (fields : List (Text × Bool)) :
    Exec ResponseWrapper :=
  fields.foldlM (fun w field => w.addString asserts field.1 (values field.1) field.2) empty

/-- What the receiver makes of such a record. -/
def received (asserts : Bool) (values : Text → Text) (fields : List (Text × Bool)) :
    Exec (Option ResponseWrapper) := do
  let w ← record asserts values fields
  let data ← toData asserts false w
  fromData asserts data

/-- The one element of a field, as `add` builds it. -/
def fieldElement (values : Text → Text) (field : Text × Bool) : Text × ElementContainer :=
  (field.1, .strings [values field.1])

/-- The printed form of one value. -/
def valueText (forceArray : Bool) (value : Text) : Text :=
  if forceArray then ('[' : Byte) :: (value ++ [(']' : Byte)]) else value

/-- The printed form of one field. -/
def fieldText (values : Text → Text) (field : Text × Bool) : Text :=
  field.1 ++ (':' : Byte) :: valueText field.2 (values field.1)

theorem addString_new {asserts : Bool} {w : ResponseWrapper} {key value : Text} {force : Bool}
    (h : ∀ element ∈ w.elements, element.1 ≠ key) :
    w.addString asserts key value force = .ok (w.push key (.strings [value]) force) := by
  have hidx : w.elements.findIdx? (·.1 == key) = none := by
    rw [List.findIdx?_eq_none_iff]
    intro element hmem
    simpa using h element hmem
  unfold addString genericAdd
  rw [hidx]

theorem foldlM_addString {asserts : Bool} {values : Text → Text} {fields : List (Text × Bool)}
    (hnodup : (fields.map Prod.fst).Nodup) (w : ResponseWrapper)
    (hnew : ∀ element ∈ w.elements, ∀ field ∈ fields, element.1 ≠ field.1) :
    fields.foldlM (fun w field => w.addString asserts field.1 (values field.1) field.2) w =
      .ok (.mk (w.elements ++ fields.map (fieldElement values))
        (w.forcedArrays ++ fields.map Prod.snd)) := by
  induction fields generalizing w with
  | nil =>
    obtain ⟨es, fs⟩ := w
    simp [pure, Except.pure]
  | cons field fields ih =>
    rw [List.map_cons, List.nodup_cons] at hnodup
    have hfirst : w.addString asserts field.1 (values field.1) field.2 =
        .ok (w.push field.1 (.strings [values field.1]) field.2) :=
      addString_new fun element hmem => hnew element hmem field (by simp)
    have hrest := ih hnodup.2 (w.push field.1 (.strings [values field.1]) field.2) (by
      intro element hmem other hother
      simp only [push, elements_mk, List.mem_append, List.mem_singleton] at hmem
      rcases hmem with hmem | rfl
      · exact hnew element hmem other (by simp [hother])
      · intro heq
        exact hnodup.1 (heq ▸ List.mem_map_of_mem hother))
    rw [List.foldlM_cons, hfirst]
    simpa [bind, Except.bind, push, fieldElement] using hrest

theorem record_eq {asserts : Bool} {values : Text → Text} {fields : List (Text × Bool)}
    (hnodup : (fields.map Prod.fst).Nodup) :
    record asserts values fields =
      .ok (.mk (fields.map (fieldElement values)) (fields.map Prod.snd)) := by
  unfold record
  rw [foldlM_addString hnodup empty (by simp [empty])]
  simp [empty]

theorem wfElements_record (values : Text → Text) (fields : List (Text × Bool)) :
    WfElements (fields.map (fieldElement values)) := by
  induction fields with
  | nil => trivial
  | cons field fields ih => exact ⟨by simp [WfContainer], ih⟩

theorem renderFields_record (depth : Nat) (values : Text → Text) (fields : List (Text × Bool)) :
    renderFields false depth (fields.map Prod.snd) (fields.map (fieldElement values)) =
      fields.map (fieldText values) := by
  induction fields with
  | nil => rfl
  | cons field fields ih =>
    obtain ⟨key, force⟩ := field
    have hvalue : renderContainer false depth force (.strings [values key]) =
        valueText force (values key) := by
      cases force <;>
        simp [renderContainer, valueText, joined, renderString, newline, tabs]
    simp only [List.map_cons, fieldElement, renderFields, fieldText, List.headD_cons, List.tail_cons]
    rw [hvalue, ih]
    simp [tabs, blank]

/-- The text of a flat record on the wire. -/
theorem toData_record {asserts : Bool} (values : Text → Text) (fields : List (Text × Bool)) :
    toData asserts false (.mk (fields.map (fieldElement values)) (fields.map Prod.snd)) =
      .ok (('{' : Byte) :: (joined false (fields.map (fieldText values)) ++ [('}' : Byte)])) := by
  have hwf : Wf (.mk (fields.map (fieldElement values)) (fields.map Prod.snd)) :=
    ⟨by simp, wfElements_record values fields⟩
  rw [toData_eq hwf]
  simp [render, renderFields_record, newline, tabs]

/-! ## Contained values -/

/-- The decoder takes exactly this text for a value: a scalar that ends at its
separator, or a block that is closed at its end and has a value. -/
inductive Contained (asserts : Bool) : Text → Prop
  | scalar {value : Text} : (',' : Byte) ∉ value → Scalar value → Contained asserts value
  | object {block : Text} : Closed '{' '}' block → Readable asserts block .accepted →
      Contained asserts block
  | strings {content : Text} : Closed '[' ']' (('[' : Byte) :: (content ++ [(']' : Byte)])) →
      content.head? ≠ some ('{' : Byte) →
      Contained asserts (('[' : Byte) :: (content ++ [(']' : Byte)]))
  | objects {content : Text} : Closed '[' ']' (('[' : Byte) :: (content ++ [(']' : Byte)])) →
      content.head? = some ('{' : Byte) → ReadableItems asserts content ']' .accepted →
      Contained asserts (('[' : Byte) :: (content ++ [(']' : Byte)]))

/-- The decoder adds this container for the text, whatever stands around it. -/
def Delivers (asserts : Bool) (text : Text) (value : ElementContainer) (forced : Bool) : Prop :=
  ∀ (fuel : Nat) (key : Text) (items : List Text) (ret : ResponseWrapper),
    2 * text.length + 4 ≤ fuel → (':' : Byte) ∉ key →
    readFields asserts (fuel + 1) (key ++ (':' : Byte) :: (text ++ behind items)) ret =
      readFields asserts fuel (joined false items) (ret.push key value forced)

theorem Contained.delivers {asserts : Bool} {text : Text} (h : Contained asserts text) :
    ∃ value forced, Delivers asserts text value forced := by
  cases h with
  | scalar hcomma hscalar =>
    refine ⟨.strings [text], false, ?_⟩
    intro fuel key items ret _ hkey
    exact readFields_scalar_behind hkey hcomma hscalar
  | object hblock hread =>
    obtain ⟨r, hr, hverdict⟩ := returns_readText (Nat.le_refl _) hread
    cases r with
    | none => simp at hverdict
    | some val =>
      refine ⟨.objects [val], false, ?_⟩
      intro fuel key items ret hfuel hkey
      rw [readFields_object hkey hblock, readText_mono (by omega) _ hr, ifPresent_some, behind_drop]
  | @strings content hblock hcontent =>
    refine ⟨.strings (content.splitOn (',' : Byte)), true, ?_⟩
    intro fuel key items ret _ hkey
    rw [List.cons_append, List.append_assoc, List.singleton_append,
      readFields_strings hkey hblock hcontent, behind_drop]
  | @objects content hblock hcontent hread =>
    obtain ⟨r, hr, hverdict⟩ := returns_readItems [] (by decide) (Nat.le_refl _) hread
    cases r with
    | none => simp at hverdict
    | some vals =>
      refine ⟨.objects vals, true, ?_⟩
      intro fuel key items ret hfuel hkey
      simp only [List.length_cons, List.length_append] at hfuel
      rw [List.cons_append, List.append_assoc, List.singleton_append,
        readFields_objects hkey hblock hcontent, readItems_mono (by omega) _ hr, ifPresent_some,
        behind_drop]

/-! ## Reading a record of contained values -/

/-- Every key is free of delimiters, and every printed value is contained. -/
def ContainedRecord (asserts : Bool) (values : Text → Text) (fields : List (Text × Bool)) : Prop :=
  ∀ field ∈ fields, FreeOf keyDelimiters field.1 ∧
    Contained asserts (valueText field.2 (values field.1))

/-- What the decoder adds for each field, when `value` and `forced` say what it
adds for a printed value. -/
theorem readFields_record {asserts : Bool} {values : Text → Text} {value : Text → ElementContainer}
    {forced : Text → Bool}
    (hdelivers : ∀ text, Contained asserts text → Delivers asserts text (value text) (forced text))
    {fields : List (Text × Bool)} (hfields : ContainedRecord asserts values fields)
    {fuel : Nat} (hfuel : 2 * (joined false (fields.map (fieldText values))).length + 3 ≤ fuel)
    (ret : ResponseWrapper) :
    ∃ flags, readFields asserts fuel (joined false (fields.map (fieldText values))) ret =
      .ok (some (.mk (ret.elements ++ fields.map fun field =>
        (field.1, value (valueText field.2 (values field.1)))) flags)) := by
  induction fields generalizing fuel ret with
  | nil =>
    obtain ⟨fuel, rfl⟩ : ∃ m, fuel = m + 1 := ⟨fuel - 1, by omega⟩
    refine ⟨ret.forcedArrays, ?_⟩
    simp only [List.map_nil, joined]
    rw [readFields_noKey (by simp)]
    obtain ⟨es, fs⟩ := ret
    simp
  | cons field fields ih =>
    obtain ⟨hkey, hcontained⟩ := hfields field (by simp)
    have hbehind : (joined false (fields.map (fieldText values))).length ≤
        (behind (fields.map (fieldText values))).length := by
      rw [← behind_drop, List.length_drop]
      omega
    have htext : joined false ((field :: fields).map (fieldText values)) =
        field.1 ++ (':' : Byte) :: (valueText field.2 (values field.1) ++
          behind (fields.map (fieldText values))) := by
      simp [joined_cons, fieldText]
    rw [htext] at hfuel ⊢
    simp only [List.length_cons, List.length_append] at hfuel
    obtain ⟨fuel, rfl⟩ : ∃ m, fuel = m + 1 := ⟨fuel - 1, by omega⟩
    rw [hdelivers _ hcontained fuel field.1 _ ret (by omega) (hkey.not_mem (by decide))]
    obtain ⟨flags, hrest⟩ := ih (fun other hmem => hfields other (by simp [hmem]))
      (by omega : _ ≤ fuel) (ret.push field.1 (value (valueText field.2 (values field.1)))
        (forced (valueText field.2 (values field.1))))
    exact ⟨flags, by simpa [push] using hrest⟩

theorem received_eq {asserts : Bool} {values : Text → Text} {value : Text → ElementContainer}
    {forced : Text → Bool}
    (hdelivers : ∀ text, Contained asserts text → Delivers asserts text (value text) (forced text))
    {fields : List (Text × Bool)} (hnodup : (fields.map Prod.fst).Nodup)
    (hfields : ContainedRecord asserts values fields) :
    ∃ flags, received asserts values fields =
      .ok (some (.mk (fields.map fun field =>
        (field.1, value (valueText field.2 (values field.1)))) flags)) := by
  have hreceived : received asserts values fields = fromData asserts
      (('{' : Byte) :: (joined false (fields.map (fieldText values)) ++ [('}' : Byte)])) := by
    simp only [received, record_eq hnodup, toData_record, bind, Except.bind]
  rw [hreceived, fromData_eq_readText]
  simp only [List.length_cons, List.length_append, List.length_nil]
  rw [readText_braces]
  obtain ⟨flags, h⟩ := readFields_record hdelivers hfields
    (by omega : _ ≤ 2 * ((joined false (fields.map (fieldText values))).length + (0 + 1) + 1)) empty
  exact ⟨flags, by simpa [empty] using h⟩

/-- Looking a key up depends only on the element made for that key. -/
theorem search_map_congr {fields : List (Text × Bool)} {g₁ g₂ : Text × Bool → ElementContainer}
    {flags₁ flags₂ : List Bool} {key : Text} (h : ∀ field, field.1 = key → g₁ field = g₂ field) :
    search (.mk (fields.map fun field => (field.1, g₁ field)) flags₁) key =
      search (.mk (fields.map fun field => (field.1, g₂ field)) flags₂) key := by
  unfold search
  simp only [elements_mk]
  induction fields with
  | nil => rfl
  | cons field fields ih =>
    simp only [List.map_cons, List.find?_cons]
    cases hkey : field.1 == key with
    | true => simp [h field (by simpa using hkey)]
    | false => exact ih

/-- No field of contained values forges another: two records that differ in the
value of `f` only are both received, and every other key has the same value in
both. -/
theorem search_alike {asserts : Bool} {values₁ values₂ : Text → Text} {f : Text}
    {fields : List (Text × Bool)} (hnodup : (fields.map Prod.fst).Nodup)
    (hsame : ∀ key, key ≠ f → values₁ key = values₂ key)
    (hfields₁ : ContainedRecord asserts values₁ fields)
    (hfields₂ : ContainedRecord asserts values₂ fields) :
    ∃ r₁ r₂, received asserts values₁ fields = .ok (some r₁) ∧
      received asserts values₂ fields = .ok (some r₂) ∧
      ∀ key, key ≠ f → r₁.search key = r₂.search key := by
  have hall : ∀ text, ∃ value forced, Contained asserts text →
      Delivers asserts text value forced := by
    intro text
    by_cases h : Contained asserts text
    · obtain ⟨value, forced, hdelivers⟩ := h.delivers
      exact ⟨value, forced, fun _ => hdelivers⟩
    · exact ⟨.strings [], false, fun hcontained => absurd hcontained h⟩
  choose value forced hdelivers using hall
  obtain ⟨flags₁, h₁⟩ := received_eq hdelivers hnodup hfields₁
  obtain ⟨flags₂, h₂⟩ := received_eq hdelivers hnodup hfields₂
  refine ⟨_, _, h₁, h₂, ?_⟩
  intro key hkey
  apply search_map_congr
  rintro field rfl
  rw [hsame field.1 hkey]

/-- The fields of a request as `selectService` puts them on the wire, cut down
to two. -/
def requestFields : List (Text × Bool) := [(("request" : Text), false), (("quote" : Text), false)]

def honest (_ : Text) : Text := ("10" : Text)

def forging (key : Text) : Text :=
  if key = ("request" : Text) then ("x,quote:0" : Text) else ("10" : Text)

/-- A comma in a request text sets the quote. -/
theorem search_forged :
    (requestFields.map Prod.fst).Nodup ∧
    (∀ field ∈ requestFields, FreeOf keyDelimiters field.1) ∧
    (∀ key, key ≠ ("request" : Text) → honest key = forging key) ∧
    ∀ asserts, ¬ ∃ r₁ r₂, received asserts honest requestFields = .ok (some r₁) ∧
      received asserts forging requestFields = .ok (some r₂) ∧
      ∀ key, key ≠ ("request" : Text) → r₁.search key = r₂.search key := by
  refine ⟨by decide +kernel, by decide +kernel, ?_, ?_⟩
  · intro key hkey
    unfold honest forging
    rw [if_neg hkey]
  · rintro asserts ⟨r₁, r₂, h₁, h₂, hsearch⟩
    have hhonest : received asserts honest requestFields = .ok (some (.mk
        [(("request" : Text), .strings [("10" : Text)]), (("quote" : Text), .strings [("10" : Text)])]
        [false, false])) := by
      cases asserts <;> rfl
    have hforging : received asserts forging requestFields = .ok (some (.mk
        [(("request" : Text), .strings [("x" : Text)]), (("quote" : Text), .strings [("0" : Text)]),
          (("quote" : Text), .strings [("10" : Text)])]
        [false, false, false])) := by
      cases asserts <;> rfl
    rw [hhonest] at h₁
    rw [hforging] at h₂
    cases h₁
    cases h₂
    have hquote : some (ElementContainer.strings [("10" : Text)]) = some (.strings [("0" : Text)]) :=
      hsearch ("quote" : Text) (by decide)
    injection hquote with hquote
    injection hquote with hquote
    exact absurd hquote (by decide)

/-- A request that is an object of its own. -/
def bracketed (key : Text) : Text :=
  if key = ("request" : Text) then ("\x7ba:b\x7d" : Text) else ("10" : Text)

theorem contained_ten : Contained true ("10" : Text) :=
  .scalar (by decide) ⟨by decide, by decide⟩

theorem contained_bracketed : Contained true ("\x7ba:b\x7d" : Text) := by
  have hbody : ReadableFields true (("a" : Text) ++ (':' : Byte) :: ("b" : Text)) .accepted :=
    .lastScalar (by decide) (by decide) ⟨by decide, by decide⟩
  exact .object ⟨rfl, rfl⟩ (.braces hbody)

theorem search_alike_bracketed :
    ∃ r₁ r₂, received true honest requestFields = .ok (some r₁) ∧
      received true bracketed requestFields = .ok (some r₂) ∧
      ∀ key, key ≠ ("request" : Text) → r₁.search key = r₂.search key := by
  have hkeys : ∀ field ∈ requestFields, FreeOf keyDelimiters field.1 := by decide +kernel
  refine search_alike (by decide +kernel) ?_ ?_ ?_
  · intro key hkey
    unfold honest bracketed
    rw [if_neg hkey]
  · intro field hmem
    refine ⟨hkeys field hmem, ?_⟩
    simp only [requestFields, List.mem_cons, List.not_mem_nil, or_false] at hmem
    rcases hmem with rfl | rfl
    · exact contained_ten
    · exact contained_ten
  · intro field hmem
    refine ⟨hkeys field hmem, ?_⟩
    simp only [requestFields, List.mem_cons, List.not_mem_nil, or_false] at hmem
    rcases hmem with rfl | rfl
    · exact contained_bracketed
    · exact contained_ten

end ResponseWrapper

end WFA
