-- SUMMARY: The text `toData` prints, as an append-only function, and the wrappers on which it prints.
import WFA.Shared.Response

/-!
# What the printer prints

`toData` appends to a string, writes a separator after every item and erases the
last one again. `render` is the text itself: the items joined by separators.
`toDataInto_eq` says that the printer appends exactly this text, on every
wrapper whose two lists are parallel and whose containers are not empty; these
are the wrappers `add` can build (`Built.wf`).
-/

namespace WFA

namespace ResponseWrapper

/-! ## Well-formed wrappers -/

mutual
/-- The flags are parallel to the elements and no container is empty, at every
depth. -/
def Wf : ResponseWrapper → Prop
  | .mk elements forcedArrays => forcedArrays.length = elements.length ∧ WfElements elements

def WfElements : List (Text × ElementContainer) → Prop
  | [] => True
  | (_, value) :: elements => WfContainer value ∧ WfElements elements

def WfContainer : ElementContainer → Prop
  | .strings values => values ≠ []
  | .objects values => values ≠ [] ∧ WfAll values

def WfAll : List ResponseWrapper → Prop
  | [] => True
  | value :: values => value.Wf ∧ WfAll values
end

theorem wfElements_iff {elements : List (Text × ElementContainer)} :
    WfElements elements ↔ ∀ element ∈ elements, WfContainer element.2 := by
  induction elements with
  | nil => simp [WfElements]
  | cons element elements ih =>
    obtain ⟨key, value⟩ := element
    simp [WfElements, ih]

theorem wfAll_iff {values : List ResponseWrapper} : WfAll values ↔ ∀ value ∈ values, value.Wf := by
  induction values with
  | nil => simp [WfAll]
  | cons value values ih => simp [WfAll, ih]

theorem wf_iff {w : ResponseWrapper} :
    w.Wf ↔ w.forcedArrays.length = w.elements.length ∧
      ∀ element ∈ w.elements, WfContainer element.2 := by
  obtain ⟨es, fs⟩ := w
  simp [Wf, wfElements_iff]

theorem wf_empty : empty.Wf := by
  simp [wf_iff, empty]

theorem Wf.push {w : ResponseWrapper} {key : Text} {value : ElementContainer} (isForced : Bool)
    (hw : w.Wf) (hvalue : WfContainer value) : (w.push key value isForced).Wf := by
  rw [wf_iff] at hw ⊢
  refine ⟨by simp [ResponseWrapper.push, hw.1], ?_⟩
  intro element hmem
  simp only [ResponseWrapper.push, elements_mk, List.mem_append, List.mem_singleton] at hmem
  rcases hmem with hmem | rfl
  · exact hw.2 element hmem
  · exact hvalue

/-- Adding under a key keeps a wrapper well formed when the new container and
the extended one are. -/
theorem Wf.genericAdd {asserts : Bool} {w w' : ResponseWrapper} {key : Text}
    {single : ElementContainer} {append : ElementContainer → Option ElementContainer}
    {isForced : Bool} (hw : w.Wf) (hsingle : WfContainer single)
    (happend : ∀ c c', append c = some c' → WfContainer c → WfContainer c')
    (h : w.genericAdd asserts key single append isForced = .ok w') : w'.Wf := by
  unfold ResponseWrapper.genericAdd at h
  split at h
  · obtain rfl := Except.ok.inj h
    exact hw.push isForced hsingle
  · split at h
    · cases h
    · rename_i i _ _ value hvalue
      obtain rfl := Except.ok.inj h
      obtain ⟨element, hget, hext⟩ := Option.bind_eq_some_iff.mp hvalue
      rw [wf_iff] at hw ⊢
      refine ⟨by simp [hw.1], ?_⟩
      intro element' hmem
      simp only [elements_mk] at hmem
      rcases List.mem_or_eq_of_mem_set hmem with hmem | rfl
      · exact hw.2 element' hmem
      · exact happend _ _ hext (hw.2 element (List.mem_of_getElem? hget))

theorem Wf.addString {asserts : Bool} {w w' : ResponseWrapper} {key value : Text}
    {forceArray : Bool} (hw : w.Wf) (h : w.addString asserts key value forceArray = .ok w') :
    w'.Wf := by
  refine hw.genericAdd (by simp [WfContainer]) ?_ h
  intro c c' hc hwf
  cases c with
  | strings values =>
    obtain rfl := Option.some.inj hc
    simp [WfContainer]
  | objects values => cases hc

theorem Wf.addObject {asserts : Bool} {w w' value : ResponseWrapper} {key : Text}
    {forceArray : Bool} (hw : w.Wf) (hvalue : value.Wf)
    (h : w.addObject asserts key value forceArray = .ok w') : w'.Wf := by
  refine hw.genericAdd (by simp [WfContainer, WfAll, hvalue]) ?_ h
  intro c c' hc hwf
  cases c with
  | strings values => cases hc
  | objects values =>
    obtain rfl := Option.some.inj hc
    simp only [WfContainer, wfAll_iff] at hwf ⊢
    refine ⟨by simp, ?_⟩
    intro v hmem
    rcases List.mem_append.mp hmem with hmem | hmem
    · exact hwf.2 v hmem
    · rw [List.mem_singleton.mp hmem]
      exact hvalue

theorem Built.wf {asserts : Bool} {w : ResponseWrapper} (h : Built asserts w) : w.Wf := by
  induction h with
  | empty => exact wf_empty
  | addString _ hadd ih => exact ih.addString hadd
  | addObject _ _ hadd ih ihvalue => exact ih.addObject ihvalue hadd

/-! ## Wrappers that print -/

mutual
/-- What the printer needs: a flag for every element and no empty container, at
every depth. -/
def Printable : ResponseWrapper → Prop
  | .mk elements forcedArrays =>
    elements.length ≤ forcedArrays.length ∧ PrintableElements elements

def PrintableElements : List (Text × ElementContainer) → Prop
  | [] => True
  | (_, value) :: elements => PrintableContainer value ∧ PrintableElements elements

def PrintableContainer : ElementContainer → Prop
  | .strings values => values ≠ []
  | .objects values => values ≠ [] ∧ PrintableAll values

def PrintableAll : List ResponseWrapper → Prop
  | [] => True
  | value :: values => value.Printable ∧ PrintableAll values
end

mutual
theorem Wf.printable : (w : ResponseWrapper) → w.Wf → w.Printable
  | .mk _ _, h => ⟨h.1.ge, printableElements_of_wf _ h.2⟩

theorem printableElements_of_wf :
    (elements : List (Text × ElementContainer)) → WfElements elements → PrintableElements elements
  | [], _ => trivial
  | (_, value) :: elements, h =>
    ⟨printableContainer_of_wf value h.1, printableElements_of_wf elements h.2⟩

theorem printableContainer_of_wf :
    (value : ElementContainer) → WfContainer value → PrintableContainer value
  | .strings _, h => h
  | .objects values, h => ⟨h.1, printableAll_of_wf values h.2⟩

theorem printableAll_of_wf : (values : List ResponseWrapper) → WfAll values → PrintableAll values
  | [], _ => trivial
  | value :: values, h => ⟨Wf.printable value h.1, printableAll_of_wf values h.2⟩
end

/-! ## The printed text -/

def newline (pad : Bool) : Text := if pad then [('\n' : Byte)] else []

def blank (pad : Bool) : Text := if pad then [(' ' : Byte)] else []

def tabs (pad : Bool) (count : Nat) : Text := if pad then List.replicate count ('\t' : Byte) else []

/-- A text value, after its tabs. -/
def renderString (pad : Bool) (depth : Nat) (prespace : Bool) (value : Text) : Text :=
  (if prespace then tabs pad depth else []) ++
    (if pad then ('"' : Byte) :: (value ++ [('"' : Byte)]) else value)

/-- Items with a separator after each. -/
def separated (pad : Bool) : List Text → Text
  | [] => []
  | item :: items => item ++ ((',' : Byte) :: (newline pad ++ separated pad items))

/-- Items with a separator between them. -/
def joined (pad : Bool) : List Text → Text
  | [] => []
  | [item] => item ++ newline pad
  | item :: next :: items => item ++ ((',' : Byte) :: (newline pad ++ joined pad (next :: items)))

mutual
def render (pad : Bool) (depth : Nat) (prespace : Bool) : ResponseWrapper → Text
  | .mk elements forcedArrays =>
    (if prespace then tabs pad depth else []) ++
      (('{' : Byte) :: (newline pad ++ (joined pad (renderFields pad (depth + 1) forcedArrays elements) ++
        (tabs pad depth ++ [('}' : Byte)]))))

def renderFields (pad : Bool) (depth : Nat) (forcedArrays : List Bool) :
    List (Text × ElementContainer) → List Text
  | [] => []
  | (key, value) :: elements =>
    (tabs pad depth ++ (key ++ ((':' : Byte) :: (blank pad ++
      renderContainer pad depth (forcedArrays.headD false) value)))) ::
      renderFields pad depth forcedArrays.tail elements

def renderContainer (pad : Bool) (depth : Nat) (forceArray : Bool) : ElementContainer → Text
  | .strings values =>
    if values.length > 1 || forceArray then
      ('[' : Byte) :: (newline pad ++ (joined pad (values.map (renderString pad (depth + 1) true)) ++
        (tabs pad depth ++ [(']' : Byte)])))
    else renderString pad depth false (values.headD [])
  | .objects values =>
    if values.length > 1 || forceArray then
      ('[' : Byte) :: (newline pad ++ (joined pad (renderObjects pad (depth + 1) true values) ++
        (tabs pad depth ++ [(']' : Byte)])))
    else (renderObjects pad depth false values).headD []

def renderObjects (pad : Bool) (depth : Nat) (prespace : Bool) : List ResponseWrapper → List Text
  | [] => []
  | value :: values => value.render pad depth prespace :: renderObjects pad depth prespace values
end

/-! ## The printer appends the printed text -/

section Pieces

variable {pad : Bool} {src : Text}

theorem addPadding_eq (pad : Bool) (src : Text) (val : Byte) (count : Nat) :
    addPadding pad src val count = src ++ (if pad then List.replicate count val else []) := by
  cases pad <;> simp [addPadding]

theorem addPadding_tabs (depth : Nat) : addPadding pad src '\t' depth = src ++ tabs pad depth :=
  addPadding_eq pad src '\t' depth

theorem addPadding_newline : addPadding pad src '\n' 1 = src ++ newline pad :=
  addPadding_eq pad src '\n' 1

theorem addPadding_blank : addPadding pad src ' ' 1 = src ++ blank pad :=
  addPadding_eq pad src ' ' 1

theorem stringToData_eq (depth : Nat) (value : Text) (prespace : Bool) :
    stringToData src depth value prespace pad = src ++ renderString pad depth prespace value := by
  cases pad <;> cases prespace <;> simp [stringToData, renderString, tabs]

theorem openArray_eq : openArray pad src = src ++ (('[' : Byte) :: newline pad) := by
  simp [openArray, addPadding_newline]

theorem separate_eq : separate pad src = src ++ ((',' : Byte) :: newline pad) := by
  simp [separate, addPadding_newline]

theorem newline_length (pad : Bool) : (newline pad).length = pad.toNat := by
  cases pad <;> rfl

/-- Erasing the separator after the last item leaves the items joined. -/
theorem eraseSeparator_separated {items : List Text} (h : items ≠ []) :
    eraseSeparator pad (src ++ separated pad items) = src ++ joined pad items := by
  induction items generalizing src with
  | nil => exact absurd rfl h
  | cons item items ih =>
    cases items with
    | nil =>
      have hlen : (src ++ (item ++ ((',' : Byte) :: newline pad))).length - (1 + pad.toNat) =
          (src ++ item).length := by
        simp only [List.length_append, List.length_cons, newline_length]
        omega
      simp only [separated, joined, List.append_nil, eraseSeparator, hlen]
      rw [← List.append_assoc, List.eraseIdx_append_of_length_le (Nat.le_refl _)]
      simp
    | cons next items =>
      have hassoc : src ++ separated pad (item :: next :: items) =
          (src ++ (item ++ ((',' : Byte) :: newline pad))) ++ separated pad (next :: items) := by
        simp [separated]
      rw [hassoc, ih (by simp)]
      simp [joined]

theorem closeArray_eq {items : List Text} (depth : Nat) (h : items ≠ []) :
    closeArray pad depth (src ++ separated pad items) =
      src ++ (joined pad items ++ (tabs pad depth ++ [(']' : Byte)])) := by
  simp [closeArray, addPadding_tabs, eraseSeparator_separated h]

theorem stringItems_eq (depth : Nat) (values : List Text) :
    stringItems pad depth src values =
      src ++ separated pad (values.map (renderString pad depth true)) := by
  induction values generalizing src with
  | nil => simp [stringItems, separated]
  | cons value values ih =>
    have hstep : stringItems pad depth src (value :: values) =
        stringItems pad depth (separate pad (stringToData src depth value true pad)) values := rfl
    rw [hstep, ih, separate_eq, stringToData_eq]
    simp [separated]

end Pieces

theorem renderFields_ne_nil {pad : Bool} {depth : Nat} {fs : List Bool}
    {elements : List (Text × ElementContainer)} (h : elements ≠ []) :
    renderFields pad depth fs elements ≠ [] := by
  cases elements with
  | nil => exact absurd rfl h
  | cons element elements => simp [renderFields]

theorem renderObjects_ne_nil {pad : Bool} {depth : Nat} {prespace : Bool}
    {values : List ResponseWrapper} (h : values ≠ []) :
    renderObjects pad depth prespace values ≠ [] := by
  cases values with
  | nil => exact absurd rfl h
  | cons value values => simp [renderObjects]

mutual
theorem toDataInto_eq {asserts pad : Bool} {src : Text} {depth : Nat} {prespace : Bool} :
    (w : ResponseWrapper) → w.Printable →
    toDataInto asserts pad src depth prespace w = .ok (src ++ render pad depth prespace w)
  | .mk elements forcedArrays, hwf => by
    obtain ⟨hlen, helements⟩ := hwf
    unfold toDataInto
    simp only [addPadding_newline, addPadding_tabs]
    rw [elementsToData_eq elements helements (by simpa using hlen)]
    simp only [bind, Except.bind, List.drop_zero, pure, Except.pure]
    cases elements with
    | nil => cases prespace <;> simp [render, renderFields, separated, joined]
    | cons element elements =>
      simp only [List.isEmpty_cons, Bool.false_eq_true, if_false]
      rw [eraseSeparator_separated (renderFields_ne_nil (by simp))]
      cases prespace <;> simp [render]

theorem elementsToData_eq {asserts pad : Bool} {src : Text} {depth : Nat} {fs : List Bool} {i : Nat} :
    (elements : List (Text × ElementContainer)) → PrintableElements elements →
    elements.length ≤ (fs.drop i).length →
    elementsToData asserts pad src depth fs i elements =
      .ok (src ++ separated pad (renderFields pad depth (fs.drop i) elements))
  | [], _, _ => by
    unfold elementsToData
    simp [renderFields, separated, pure, Except.pure]
  | (key, value) :: elements, hwf, hlen => by
    obtain ⟨hvalue, helements⟩ := hwf
    simp only [List.length_cons, List.length_drop] at hlen
    have hi : i < fs.length := by omega
    have hget : fs[i]? = some fs[i] := List.getElem?_eq_getElem hi
    have hdrop : fs.drop i = fs[i] :: fs.drop (i + 1) := List.drop_eq_getElem_cons hi
    unfold elementsToData
    simp only [hget, addPadding_tabs, addPadding_blank, stringToData_eq]
    rw [containerToData_eq value hvalue]
    simp only [bind, Except.bind]
    rw [elementsToData_eq elements helements (by simp only [List.length_drop]; omega), hdrop,
      separate_eq]
    simp [renderFields, separated, renderString, hget]

theorem containerToData_eq {asserts pad : Bool} {src : Text} {depth : Nat} {forceArray : Bool} :
    (value : ElementContainer) → PrintableContainer value →
    containerToData asserts pad src depth forceArray value =
      .ok (src ++ renderContainer pad depth forceArray value)
  | .strings values, hwf => by
    have hne : values ≠ [] := hwf
    have hempty : values.isEmpty = false := by simpa using hne
    unfold containerToData
    simp only [hempty, Bool.and_false, Bool.false_eq_true, if_false, renderContainer]
    split
    · rw [stringItems_eq, closeArray_eq depth (by simpa using hne), openArray_eq]
      simp [pure, Except.pure]
    · cases values with
      | nil => exact absurd rfl hne
      | cons value values => simp [stringToData_eq, pure, Except.pure]
  | .objects values, hwf => by
    obtain ⟨hne, hall⟩ := hwf
    have hempty : values.isEmpty = false := by simpa using hne
    unfold containerToData
    simp only [hempty, Bool.and_false, Bool.false_eq_true, if_false, renderContainer]
    split
    · rw [objectItems_eq values hall]
      simp only [bind, Except.bind]
      rw [closeArray_eq depth (renderObjects_ne_nil hne), openArray_eq]
      simp [pure, Except.pure]
    · match values, hne, hall with
      | value :: values, _, hall =>
        simp only []
        rw [toDataInto_eq value hall.1]
        simp [renderObjects]

theorem objectItems_eq {asserts pad : Bool} {depth : Nat} {src : Text} :
    (values : List ResponseWrapper) → PrintableAll values →
    objectItems asserts pad depth src values =
      .ok (src ++ separated pad (renderObjects pad depth true values))
  | [], _ => by
    unfold objectItems
    simp [renderObjects, separated, pure, Except.pure]
  | value :: values, hwf => by
    obtain ⟨hvalue, hall⟩ := hwf
    unfold objectItems
    rw [toDataInto_eq value hvalue]
    simp only [bind, Except.bind]
    rw [objectItems_eq values hall, separate_eq]
    simp [renderObjects, separated]
end

/-- The printer prints a well-formed wrapper. -/
theorem toData_eq {asserts pad : Bool} {w : ResponseWrapper} (hw : w.Wf) :
    toData asserts pad w = .ok (render pad 0 false w) := by
  rw [toData, toDataInto_eq w (Wf.printable w hw), List.nil_append]

end ResponseWrapper

end WFA
