-- SUMMARY: The padded and the compact text of a wrapper agree once blanks and quotes are taken out.
import WFA.Base.Numeral
import WFA.Shared.Decode
import WFA.Shared.Render

/-!
# Padded texts

`fromUnformattedData` takes the whitespace outside quotes and then the quotes out
of a text before it decodes it. On the padded text of a wrapper this leaves the
compact text of the same wrapper with the whitespace taken out of its keys, which
are printed without quotes. A wrapper that does not print, does not print in
either form.
-/

namespace WFA

open Text

namespace ResponseWrapper

/-! ## `fromUnformattedData` -/

/-- The first pass, with its quote state. -/
def removeSpaces : Bool → Text → Text
  | _, [] => []
  | isQuote, v :: data =>
    let isQuote := if v = '"' then !isQuote else isQuote
    if !isQuote && isSpace v then removeSpaces isQuote data else v :: removeSpaces isQuote data

/-- The second pass. -/
def removeQuotes (data : Text) : Text :=
  data.filter (· != '"')

/-- Both passes. -/
def unformat (data : Text) : Text :=
  removeQuotes (removeSpaces false data)

/-- Special overload that formats the data before interpreting. -/
def fromUnformattedData (asserts : Bool) (data : Text) : Exec (Option ResponseWrapper) :=
  fromData asserts (unformat data)

/-! ## Wrappers without empty containers and quotes -/

mutual
/-- No container is empty, at any depth. -/
def Filled : ResponseWrapper → Prop
  | .mk elements _ => FilledElements elements

def FilledElements : List (Text × ElementContainer) → Prop
  | [] => True
  | (_, value) :: elements => FilledContainer value ∧ FilledElements elements

def FilledContainer : ElementContainer → Prop
  | .strings values => values ≠ []
  | .objects values => values ≠ [] ∧ FilledAll values

def FilledAll : List ResponseWrapper → Prop
  | [] => True
  | value :: values => value.Filled ∧ FilledAll values
end

mutual
/-- No key and no value has a quote, at any depth. -/
def Unquoted : ResponseWrapper → Prop
  | .mk elements _ => UnquotedElements elements

def UnquotedElements : List (Text × ElementContainer) → Prop
  | [] => True
  | (key, value) :: elements =>
    ('"' : Byte) ∉ key ∧ UnquotedContainer value ∧ UnquotedElements elements

def UnquotedContainer : ElementContainer → Prop
  | .strings values => ∀ value ∈ values, ('"' : Byte) ∉ value
  | .objects values => UnquotedAll values

def UnquotedAll : List ResponseWrapper → Prop
  | [] => True
  | value :: values => value.Unquoted ∧ UnquotedAll values
end

/-- A key without its whitespace. -/
def stripKey (key : Text) : Text :=
  key.filter fun b => !isSpace b

mutual
/-- The wrapper with the whitespace taken out of its keys, at every depth. -/
def stripKeys : ResponseWrapper → ResponseWrapper
  | .mk elements forcedArrays => .mk (stripElements elements) forcedArrays

def stripElements : List (Text × ElementContainer) → List (Text × ElementContainer)
  | [] => []
  | (key, value) :: elements => (stripKey key, stripContainer value) :: stripElements elements

def stripContainer : ElementContainer → ElementContainer
  | .strings values => .strings values
  | .objects values => .objects (stripAll values)

def stripAll : List ResponseWrapper → List ResponseWrapper
  | [] => []
  | value :: values => value.stripKeys :: stripAll values
end

/-! ## Wrappers that do not print -/

section Errors

variable {asserts pad : Bool}

mutual
/-- A flag is missing: the printer reads past the flags. -/
theorem toDataInto_error {src : Text} {depth : Nat} {prespace : Bool} :
    (w : ResponseWrapper) → w.Filled → ¬ w.Printable →
    toDataInto asserts pad src depth prespace w = .error .outOfRange
  | .mk elements forcedArrays, hfilled, hnot => by
    unfold toDataInto
    simp only []
    rw [elementsToData_error elements hfilled (by simpa [Printable] using hnot)]
    rfl

theorem elementsToData_error {src : Text} {depth : Nat} {fs : List Bool} {i : Nat} :
    (elements : List (Text × ElementContainer)) → FilledElements elements →
    ¬ (elements.length ≤ (fs.drop i).length ∧ PrintableElements elements) →
    elementsToData asserts pad src depth fs i elements = .error .outOfRange
  | [], _, hnot => absurd ⟨by simp, trivial⟩ hnot
  | (key, value) :: elements, hfilled, hnot => by
    obtain ⟨hvalue, helements⟩ := hfilled
    unfold elementsToData
    cases hget : fs[i]? with
    | none => simp [throw, throwThe, MonadExceptOf.throw]
    | some forceArray =>
      have hi : i < fs.length := (List.getElem?_eq_some_iff.mp hget).1
      by_cases hprints : PrintableContainer value
      · simp only [containerToData_eq value hprints, bind, Except.bind]
        apply elementsToData_error elements helements
        rintro ⟨hlen, hrest⟩
        refine hnot ⟨?_, hprints, hrest⟩
        simp only [List.length_cons, List.length_drop] at hlen ⊢
        omega
      · simp only [containerToData_error value hvalue hprints, bind, Except.bind]

theorem containerToData_error {src : Text} {depth : Nat} {forceArray : Bool} :
    (value : ElementContainer) → FilledContainer value → ¬ PrintableContainer value →
    containerToData asserts pad src depth forceArray value = .error .outOfRange
  | .strings _, hfilled, hnot => absurd hfilled hnot
  | .objects values, hfilled, hnot => by
    obtain ⟨hne, hall⟩ := hfilled
    have hempty : values.isEmpty = false := by simpa using hne
    have hvalues : ¬ PrintableAll values := fun h => hnot ⟨hne, h⟩
    unfold containerToData
    simp only [hempty, Bool.and_false, Bool.false_eq_true, if_false]
    split
    · rw [objectItems_error values hall hvalues]
      rfl
    · rename_i hsingle
      match values, hall, hvalues, hsingle with
      | [], _, hvalues, _ => exact absurd trivial hvalues
      | [value], hall, hvalues, _ =>
        exact toDataInto_error value hall.1 fun h => hvalues ⟨h, trivial⟩
      | _ :: _ :: _, _, _, hsingle => simp at hsingle

theorem objectItems_error {src : Text} {depth : Nat} :
    (values : List ResponseWrapper) → FilledAll values → ¬ PrintableAll values →
    objectItems asserts pad depth src values = .error .outOfRange
  | [], _, hnot => absurd trivial hnot
  | value :: values, hfilled, hnot => by
    unfold objectItems
    by_cases hprints : value.Printable
    · rw [toDataInto_eq value hprints]
      exact objectItems_error values hfilled.2 fun h => hnot ⟨hprints, h⟩
    · rw [toDataInto_error value hfilled.1 hprints]
      rfl
end

end Errors

theorem stripElements_length (elements : List (Text × ElementContainer)) :
    (stripElements elements).length = elements.length := by
  induction elements with
  | nil => rfl
  | cons element elements ih => simp [stripElements, ih]

theorem stripAll_length (values : List ResponseWrapper) :
    (stripAll values).length = values.length := by
  induction values with
  | nil => rfl
  | cons value values ih => simp [stripAll, ih]

theorem stripAll_ne_nil {values : List ResponseWrapper} : stripAll values ≠ [] ↔ values ≠ [] := by
  rw [← List.length_pos_iff, stripAll_length, List.length_pos_iff]

mutual
theorem printable_stripKeys : (w : ResponseWrapper) → (w.stripKeys.Printable ↔ w.Printable)
  | .mk elements forcedArrays => by
    simp only [stripKeys, Printable, stripElements_length, printableElements_strip elements]

theorem printableElements_strip : (elements : List (Text × ElementContainer)) →
    (PrintableElements (stripElements elements) ↔ PrintableElements elements)
  | [] => Iff.rfl
  | (_, value) :: elements => by
    simp only [stripElements, PrintableElements, printableContainer_strip value,
      printableElements_strip elements]

theorem printableContainer_strip : (value : ElementContainer) →
    (PrintableContainer (stripContainer value) ↔ PrintableContainer value)
  | .strings _ => Iff.rfl
  | .objects values => by
    simp only [stripContainer, PrintableContainer, stripAll_ne_nil, printableAll_strip values]

theorem printableAll_strip : (values : List ResponseWrapper) →
    (PrintableAll (stripAll values) ↔ PrintableAll values)
  | [] => Iff.rfl
  | value :: values => by
    simp only [stripAll, PrintableAll, printable_stripKeys value, printableAll_strip values]
end

mutual
theorem filled_stripKeys : (w : ResponseWrapper) → w.Filled → w.stripKeys.Filled
  | .mk elements _, h => filledElements_strip elements h

theorem filledElements_strip : (elements : List (Text × ElementContainer)) →
    FilledElements elements → FilledElements (stripElements elements)
  | [], _ => trivial
  | (_, value) :: elements, h => ⟨filledContainer_strip value h.1, filledElements_strip elements h.2⟩

theorem filledContainer_strip : (value : ElementContainer) →
    FilledContainer value → FilledContainer (stripContainer value)
  | .strings _, h => h
  | .objects values, h => ⟨stripAll_ne_nil.mpr h.1, filledAll_strip values h.2⟩

theorem filledAll_strip : (values : List ResponseWrapper) → FilledAll values → FilledAll (stripAll values)
  | [], _ => trivial
  | value :: values, h => ⟨filled_stripKeys value h.1, filledAll_strip values h.2⟩
end

/-! ## Taking padding out -/

/-- Outside quotes, `a` becomes `b` and what follows is still outside quotes. -/
def Unformats (a b : Text) : Prop :=
  ∀ rest, unformat (a ++ rest) = b ++ unformat rest

namespace Unformats

variable {a a' b b' : Text} {c : Byte}

theorem nil : Unformats [] [] := fun _ => rfl

theorem append (ha : Unformats a b) (ha' : Unformats a' b') : Unformats (a ++ a') (b ++ b') := by
  intro rest
  rw [List.append_assoc, ha, ha', List.append_assoc]

theorem space (hc : isSpace c = true) : Unformats [c] [] := by
  intro rest
  have hquote : c ≠ '"' := by
    rintro rfl
    revert hc
    decide
  simp [unformat, removeSpaces, hquote, hc]

theorem byte (hquote : c ≠ '"') (hc : isSpace c = false) : Unformats [c] [c] := by
  intro rest
  simp [unformat, removeSpaces, removeQuotes, hquote, hc]

theorem cons (hquote : c ≠ '"') (hc : isSpace c = false) (ha : Unformats a b) :
    Unformats (c :: a) (c :: b) :=
  append (byte hquote hc) ha

/-- A key loses its whitespace. -/
theorem key {key : Text} (h : ('"' : Byte) ∉ key) : Unformats key (stripKey key) := by
  induction key with
  | nil => exact nil
  | cons c key ih =>
    rw [List.mem_cons, not_or] at h
    have hrest := ih h.2
    cases hc : isSpace c with
    | true =>
      have hstrip : stripKey (c :: key) = [] ++ stripKey key := by simp [stripKey, hc]
      rw [hstrip]
      exact append (space hc) hrest
    | false =>
      have hstrip : stripKey (c :: key) = [c] ++ stripKey key := by simp [stripKey, hc]
      rw [hstrip]
      exact append (byte (Ne.symm h.1) hc) hrest

/-- A value in quotes is left as it is. -/
theorem quoted {value : Text} (h : ('"' : Byte) ∉ value) :
    Unformats (('"' : Byte) :: (value ++ [('"' : Byte)])) value := by
  have hspace : isSpace ('"' : Byte) = false := by decide
  have hinside : ∀ rest, removeSpaces true (value ++ (('"' : Byte) :: rest)) =
      value ++ (('"' : Byte) :: removeSpaces false rest) := by
    induction value with
    | nil =>
      intro rest
      simp [removeSpaces, hspace]
    | cons c value ih =>
      intro rest
      rw [List.mem_cons, not_or] at h
      have hc : c ≠ '"' := Ne.symm h.1
      simp [removeSpaces, hc, ih h.2]
  have hvalue : removeQuotes value = value := by
    apply List.filter_eq_self.mpr
    intro c hc
    simp only [bne_iff_ne, ne_eq]
    rintro rfl
    exact h hc
  intro rest
  rw [List.cons_append, List.append_assoc, List.singleton_append]
  simp only [unformat, removeSpaces, if_true, Bool.not_false, Bool.not_true, Bool.false_and,
    Bool.false_eq_true, if_false]
  rw [hinside]
  simp only [removeQuotes] at hvalue ⊢
  simp [hvalue]

theorem newline : Unformats (newline true) (ResponseWrapper.newline false) :=
  space (by decide)

theorem blank : Unformats (blank true) (ResponseWrapper.blank false) :=
  space (by decide)

theorem tabs (count : Nat) : Unformats (tabs true count) (ResponseWrapper.tabs false count) := by
  induction count with
  | zero => exact nil
  | succ count ih =>
    have htab : ResponseWrapper.tabs true (count + 1) =
        [('\t' : Byte)] ++ ResponseWrapper.tabs true count := by
      simp [ResponseWrapper.tabs, List.replicate_succ]
    rw [htab]
    exact append (a := [('\t' : Byte)]) (b := []) (space (by decide)) ih

theorem string {value : Text} (depth : Nat) (prespace : Bool) (h : ('"' : Byte) ∉ value) :
    Unformats (renderString true depth prespace value) (renderString false depth prespace value) := by
  refine append ?_ (quoted h)
  cases prespace with
  | false => exact nil
  | true => exact tabs depth

/-- Items one by one. -/
theorem joined {items items' : List Text} (h : List.Forall₂ Unformats items items') :
    Unformats (joined true items) (ResponseWrapper.joined false items') := by
  induction h with
  | nil => exact nil
  | @cons item item' items items' hitem hitems ih =>
    cases hitems with
    | nil => exact append hitem newline
    | cons hnext hrest => exact append hitem (cons (by decide) (by decide) (append newline ih))

theorem first {items items' : List Text} (h : List.Forall₂ Unformats items items') :
    Unformats (items.headD []) (items'.headD []) := by
  cases h with
  | nil => exact nil
  | cons hitem _ => exact hitem

/-- An array around its items. -/
theorem array {items items' : List Text} (depth : Nat) (h : List.Forall₂ Unformats items items') :
    Unformats (('[' : Byte) :: (ResponseWrapper.newline true ++ (ResponseWrapper.joined true items ++
        (ResponseWrapper.tabs true depth ++ [(']' : Byte)]))))
      (('[' : Byte) :: (ResponseWrapper.newline false ++ (ResponseWrapper.joined false items' ++
        (ResponseWrapper.tabs false depth ++ [(']' : Byte)])))) :=
  cons (by decide) (by decide)
    (append newline (append (joined h) (append (tabs depth) (byte (by decide) (by decide)))))

end Unformats

mutual
/-- The padded text of a wrapper becomes its compact text, with its keys stripped. -/
theorem unformats_render (depth : Nat) (prespace : Bool) :
    (w : ResponseWrapper) → w.Unquoted →
    Unformats (w.render true depth prespace) (w.stripKeys.render false depth prespace)
  | .mk elements forcedArrays, h => by
    have hfields := unformats_fields (depth + 1) forcedArrays elements h
    have hstart : Unformats (if prespace then tabs true depth else [])
        (if prespace then tabs false depth else []) := by
      cases prespace with
      | false => exact .nil
      | true => exact .tabs depth
    exact .append hstart (.cons (by decide) (by decide) (.append .newline (.append (.joined hfields)
      (.append (.tabs depth) (.byte (by decide) (by decide))))))

theorem unformats_fields (depth : Nat) (forcedArrays : List Bool) :
    (elements : List (Text × ElementContainer)) → UnquotedElements elements →
    List.Forall₂ Unformats (renderFields true depth forcedArrays elements)
      (renderFields false depth forcedArrays (stripElements elements))
  | [], _ => .nil
  | (_, value) :: elements, h => by
    have hvalue := unformats_container depth (forcedArrays.headD false) value h.2.1
    refine .cons ?_ (unformats_fields depth forcedArrays.tail elements h.2.2)
    exact .append (.tabs depth) (.append (.key h.1) (.cons (by decide) (by decide)
      (.append .blank hvalue)))

theorem unformats_container (depth : Nat) (forceArray : Bool) :
    (value : ElementContainer) → UnquotedContainer value →
    Unformats (renderContainer true depth forceArray value)
      (renderContainer false depth forceArray (stripContainer value))
  | .strings values, h => by
    have hitems : List.Forall₂ Unformats (values.map (renderString true (depth + 1) true))
        (values.map (renderString false (depth + 1) true)) := by
      induction values with
      | nil => exact .nil
      | cons value values ih =>
        exact .cons (.string _ _ (h value (by simp))) (ih fun v hv => h v (by simp [hv]))
    simp only [stripContainer, renderContainer]
    split
    · exact .array depth hitems
    · apply Unformats.string
      cases values with
      | nil => simp
      | cons value values => exact h value (by simp)
  | .objects values, h => by
    simp only [stripContainer, renderContainer, stripAll_length]
    split
    · exact .array depth (unformats_objects (depth + 1) true values h)
    · exact .first (unformats_objects depth false values h)

theorem unformats_objects (depth : Nat) (prespace : Bool) :
    (values : List ResponseWrapper) → UnquotedAll values →
    List.Forall₂ Unformats (renderObjects true depth prespace values)
      (renderObjects false depth prespace (stripAll values))
  | [], _ => .nil
  | value :: values, h =>
    .cons (unformats_render depth prespace value h.1) (unformats_objects depth prespace values h.2)
end

theorem unformat_render {w : ResponseWrapper} (h : w.Unquoted) :
    unformat (w.render true 0 false) = w.stripKeys.render false 0 false := by
  have hrest := unformats_render 0 false w h []
  rwa [List.append_nil, show unformat [] = [] from rfl, List.append_nil] at hrest

/-- Taking whitespace outside quotes and then quotes out of the padded text gives
the compact text with stripped keys, and the two decode to the same wrapper. -/
theorem fromUnformattedData_toData (asserts : Bool) (w : ResponseWrapper) (hfilled : w.Filled)
    (hquotes : w.Unquoted) :
    (w.toData asserts true).map unformat = w.stripKeys.toData asserts false ∧
      (w.toData asserts true).bind (fromUnformattedData asserts) =
        (w.stripKeys.toData asserts false).bind (fromData asserts) := by
  have htext : (w.toData asserts true).map unformat = w.stripKeys.toData asserts false := by
    by_cases hprints : w.Printable
    · have hstripped := (printable_stripKeys w).mpr hprints
      rw [toData, toData, toDataInto_eq w hprints, toDataInto_eq w.stripKeys hstripped,
        List.nil_append, List.nil_append]
      exact congrArg Except.ok (unformat_render hquotes)
    · have hstripped := mt (printable_stripKeys w).mp hprints
      rw [toData, toData, toDataInto_error w hfilled hprints,
        toDataInto_error w.stripKeys (filled_stripKeys w hfilled) hstripped]
      rfl
  refine ⟨htext, ?_⟩
  rw [← htext]
  cases w.toData asserts true with
  | error trap => rfl
  | ok text => rfl

/-- A wrapper with a blank in a key, a tab in a value, and an array of objects. -/
def sampleWrapper : ResponseWrapper :=
  .mk [(("Full name" : Text), .strings [("A\tB" : Text)]),
    (("Parts" : Text), .objects [.mk [(("ID" : Text), .strings [("1" : Text)])] [false], .mk [] []])]
    [false, true]

theorem fromUnformattedData_sampleWrapper :
    (sampleWrapper.toData true true).map unformat =
        .ok ("\x7bFullname:A\tB,Parts:[\x7bID:1\x7d,\x7b\x7d]\x7d" : Text) ∧
      (sampleWrapper.toData true true).bind (fromUnformattedData true) =
        (sampleWrapper.stripKeys.toData true false).bind (fromData true) := by
  have hquotes : sampleWrapper.Unquoted := by
    simp only [sampleWrapper, Unquoted, UnquotedElements, UnquotedContainer, UnquotedAll]
    decide +kernel
  have hfilled : sampleWrapper.Filled := by
    simp [sampleWrapper, Filled, FilledElements, FilledContainer, FilledAll]
  have hagree := fromUnformattedData_toData true sampleWrapper hfilled hquotes
  exact ⟨hagree.1.trans (by decide +kernel), hagree.2⟩

end ResponseWrapper

end WFA
