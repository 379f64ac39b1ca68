-- SUMMARY: The compact text of a wrapper without delimiters in its texts decodes to the wrapper.
import WFA.Shared.Render
import WFA.Shared.Decode

/-!
# The wire round trip

`toData(false)` and `fromData` are two recursions written apart from each other.
They agree on every wrapper whose keys and values are free of the delimiters:
`fromData_toData`. The decoder cannot see a flag on an array that needs the
brackets anyway, so the flags come back as `flagged` says.

The proof follows the printer. Every printed piece is balanced, so the bracket
matcher passes over it, and each printed element takes the reader one element
further.
-/

namespace WFA

open Text

namespace ResponseWrapper

/-! ## Texts without delimiters -/

/-- No byte of the text is one of `delimiters`. -/
def FreeOf (delimiters t : Text) : Prop :=
  ∀ b ∈ t, b ∉ delimiters

instance (delimiters t : Text) : Decidable (FreeOf delimiters t) :=
  inferInstanceAs (Decidable (∀ b ∈ t, b ∉ delimiters))

/-- The delimiters that may not stand in a value. -/
def valueDelimiters : Text := [',', '{', '}', '[', ']']

/-- The delimiters that may not stand in a key. -/
def keyDelimiters : Text := [':', ',', '{', '}', '[', ']']

theorem FreeOf.not_mem {delimiters t : Text} {b : Byte} (h : FreeOf delimiters t)
    (hb : b ∈ delimiters) : b ∉ t :=
  fun hmem => h b hmem hb

mutual
/-- No key and no value has a delimiter in it, at every depth. -/
def Clean : ResponseWrapper → Prop
  | .mk elements _ => CleanElements elements

def CleanElements : List (Text × ElementContainer) → Prop
  | [] => True
  | (key, value) :: elements =>
    FreeOf keyDelimiters key ∧ CleanContainer value ∧ CleanElements elements

def CleanContainer : ElementContainer → Prop
  | .strings values => ∀ value ∈ values, FreeOf valueDelimiters value
  | .objects values => CleanAll values

def CleanAll : List ResponseWrapper → Prop
  | [] => True
  | value :: values => value.Clean ∧ CleanAll values
end

/-! ## What comes back -/

def ElementContainer.size : ElementContainer → Nat
  | .strings values => values.length
  | .objects values => values.length

/-- The original flag, or that the container has several values. -/
def elementFlags : List Bool → List (Text × ElementContainer) → List Bool
  | flag :: flags, (_, value) :: elements =>
    (flag || decide (ElementContainer.size value > 1)) :: elementFlags flags elements
  | _, _ => []

mutual
/-- The wrapper with the same elements whose flags say which containers are
printed as arrays. -/
def flagged : ResponseWrapper → ResponseWrapper
  | .mk elements forcedArrays =>
    .mk (flaggedElements elements) (elementFlags forcedArrays elements)

def flaggedElements : List (Text × ElementContainer) → List (Text × ElementContainer)
  | [] => []
  | (key, value) :: elements => (key, flaggedContainer value) :: flaggedElements elements

def flaggedContainer : ElementContainer → ElementContainer
  | .strings values => .strings values
  | .objects values => .objects (flaggedAll values)

def flaggedAll : List ResponseWrapper → List ResponseWrapper
  | [] => []
  | value :: values => value.flagged :: flaggedAll values
end

/-! ## Printed pieces are balanced -/

/-- Neutral for both pairs of brackets. -/
def Balanced (t : Text) : Prop :=
  Neutral '{' '}' t ∧ Neutral '[' ']' t

theorem balanced_nil : Balanced [] := ⟨neutral_nil _ _, neutral_nil _ _⟩

theorem Balanced.append {s t : Text} (hs : Balanced s) (ht : Balanced t) : Balanced (s ++ t) :=
  ⟨hs.1.append ht.1, hs.2.append ht.2⟩

theorem balanced_of_freeOf {t : Text} (h : FreeOf valueDelimiters t) : Balanced t :=
  ⟨neutral_of_not_mem (h.not_mem (by decide)) (h.not_mem (by decide)),
    neutral_of_not_mem (h.not_mem (by decide)) (h.not_mem (by decide))⟩

theorem balanced_singleton {b : Byte} (h : b ∉ valueDelimiters.drop 1) : Balanced [b] := by
  simp only [valueDelimiters, List.drop_succ_cons, List.drop_zero, List.mem_cons, not_or] at h
  exact ⟨neutral_of_not_mem (by simp [Ne.symm h.1]) (by simp [Ne.symm h.2.1]),
    neutral_of_not_mem (by simp [Ne.symm h.2.2.1]) (by simp [Ne.symm h.2.2.2.1])⟩

/-- A bracket of one pair, seen by the other. -/
private theorem neutral_other {o c b : Byte} (ho : b ≠ o) (hc : b ≠ c) : Neutral o c [b] :=
  neutral_of_not_mem (by simp [Ne.symm ho]) (by simp [Ne.symm hc])

theorem Balanced.braces {t : Text} (h : Balanced t) :
    Balanced (('{' : Byte) :: (t ++ [('}' : Byte)])) :=
  ⟨h.1.bracket (by decide),
    (neutral_other (by decide) (by decide)).append (h.2.append (neutral_other (by decide) (by decide)))⟩

theorem Balanced.brackets {t : Text} (h : Balanced t) :
    Balanced (('[' : Byte) :: (t ++ [(']' : Byte)])) :=
  ⟨(neutral_other (by decide) (by decide)).append (h.1.append (neutral_other (by decide) (by decide))),
    h.2.bracket (by decide)⟩

theorem Balanced.closed_braces {t : Text} (h : Balanced t) :
    Closed '{' '}' (('{' : Byte) :: (t ++ [('}' : Byte)])) := by
  refine ⟨rfl, ?_⟩
  rw [closing_neutral (by decide) h.1 (by omega), if_pos rfl]
  simp

theorem Balanced.closed_brackets {t : Text} (h : Balanced t) :
    Closed '[' ']' (('[' : Byte) :: (t ++ [(']' : Byte)])) := by
  refine ⟨rfl, ?_⟩
  rw [closing_neutral (by decide) h.2 (by omega), if_pos rfl]
  simp

/-- What stands behind an item in a compact list of items. -/
def behind : List Text → Text
  | [] => []
  | item :: items => (',' : Byte) :: joined false (item :: items)

theorem joined_cons (item : Text) (items : List Text) :
    joined false (item :: items) = item ++ behind items := by
  cases items with
  | nil => simp [joined, behind, newline]
  | cons next items => simp [joined, behind, newline]

theorem behind_drop (items : List Text) : (behind items).drop 1 = joined false items := by
  cases items <;> rfl

theorem balanced_joined {items : List Text} (h : ∀ item ∈ items, Balanced item) :
    Balanced (joined false items) := by
  induction items with
  | nil => exact balanced_nil
  | cons item items ih =>
    rw [joined_cons]
    refine (h item (by simp)).append ?_
    cases items with
    | nil => exact balanced_nil
    | cons next items =>
      have hcomma : Balanced [(',' : Byte)] := balanced_singleton (by decide)
      exact hcomma.append (ih fun item hmem => h item (by simp [hmem]))

mutual
theorem render_braces (depth : Nat) (prespace : Bool) :
    (w : ResponseWrapper) → w.Wf → w.Clean →
    ∃ body, render false depth prespace w = ('{' : Byte) :: (body ++ [('}' : Byte)]) ∧ Balanced body
  | .mk elements forcedArrays, hwf, hclean => by
    refine ⟨joined false (renderFields false (depth + 1) forcedArrays elements), ?_,
      balanced_joined (balanced_renderFields elements hwf.2 hclean)⟩
    cases prespace <;> simp [render, newline, tabs]

theorem balanced_renderFields {depth : Nat} {fs : List Bool} :
    (elements : List (Text × ElementContainer)) → WfElements elements → CleanElements elements →
    ∀ field ∈ renderFields false depth fs elements, Balanced field
  | [], _, _ => by simp [renderFields]
  | (key, value) :: elements, hwf, hclean => by
    obtain ⟨hkey, hvalue, helements⟩ := hclean
    intro field hmem
    simp only [renderFields, List.mem_cons] at hmem
    rcases hmem with rfl | hmem
    · have hkey' : Balanced key :=
        balanced_of_freeOf fun b hb hdel => hkey b hb (List.mem_cons_of_mem _ hdel)
      have hcolon : Balanced [(':' : Byte)] := balanced_singleton (by decide)
      simpa [tabs, blank] using
        hkey'.append (hcolon.append (balanced_renderContainer value hwf.1 hvalue))
    · exact balanced_renderFields elements hwf.2 helements field hmem

theorem balanced_renderContainer {depth : Nat} {forceArray : Bool} :
    (value : ElementContainer) → WfContainer value → CleanContainer value →
    Balanced (renderContainer false depth forceArray value)
  | .strings values, _, hclean => by
    have hvalue : ∀ prespace depth value, value ∈ values →
        Balanced (renderString false depth prespace value) := by
      intro prespace depth value hmem
      have := balanced_of_freeOf (hclean value hmem)
      cases prespace <;> simpa [renderString, tabs] using this
    simp only [renderContainer]
    split
    · have hjoined : Balanced (joined false (values.map (renderString false (depth + 1) true))) := by
        apply balanced_joined
        intro item hmem
        obtain ⟨value, hvalues, rfl⟩ := List.mem_map.mp hmem
        exact hvalue _ _ value hvalues
      simpa [newline, tabs] using hjoined.brackets
    · cases values with
      | nil => simpa [renderString, tabs] using balanced_nil
      | cons value values => exact hvalue _ _ value (by simp)
  | .objects values, hwf, hclean => by
    simp only [renderContainer]
    split
    · have hjoined := balanced_joined
        (balanced_renderObjects (depth + 1) true values hwf.2 hclean)
      simpa [newline, tabs] using hjoined.brackets
    · match values, hwf.2, hclean with
      | [], _, _ => exact balanced_nil
      | value :: values, hwf, hclean =>
        obtain ⟨body, hbody, hbalanced⟩ :=
          render_braces depth false value hwf.1 hclean.1
        simp only [renderObjects, List.headD_cons, hbody]
        exact hbalanced.braces

theorem balanced_renderObjects (depth : Nat) (prespace : Bool) :
    (values : List ResponseWrapper) → WfAll values → CleanAll values →
    ∀ item ∈ renderObjects false depth prespace values, Balanced item
  | [], _, _ => by simp [renderObjects]
  | value :: values, hwf, hclean => by
    intro item hmem
    simp only [renderObjects, List.mem_cons] at hmem
    rcases hmem with rfl | hmem
    · obtain ⟨body, hbody, hbalanced⟩ :=
        render_braces depth prespace value hwf.1 hclean.1
      rw [hbody]
      exact hbalanced.braces
    · exact balanced_renderObjects depth prespace values hwf.2 hclean.2 item hmem
end

/-! ## Reading the printed pieces -/

section Reading

variable {asserts : Bool} {fuel : Nat} {ret : ResponseWrapper}

theorem freeOf_scalar {value : Text} (h : FreeOf valueDelimiters value) : Scalar value := by
  cases value with
  | nil => exact ⟨by simp, by simp⟩
  | cons x value =>
    have hx := h x (by simp)
    simp only [valueDelimiters, List.mem_cons, not_or] at hx
    exact ⟨by simpa using hx.2.1, by simpa using hx.2.2.2.1⟩

/-- A scalar with nothing behind it, or a comma. -/
theorem readFields_scalar_behind {key value : Text} {items : List Text}
    (hkey : (':' : Byte) ∉ key) (hvalue : (',' : Byte) ∉ value) (hscalar : Scalar value) :
    readFields asserts (fuel + 1) (key ++ (':' : Byte) :: (value ++ behind items)) ret =
      readFields asserts fuel (joined false items) (ret.push key (.strings [value]) false) := by
  cases items with
  | nil =>
    rw [behind, List.append_nil]
    exact readFields_lastScalar hkey hvalue hscalar
  | cons item items => exact readFields_scalar hkey hvalue hscalar

theorem joined_strings (depth : Nat) (values : List Text) :
    joined false (values.map (renderString false depth true)) = joined false values := by
  have hid : values.map (renderString false depth true) = values := by
    rw [List.map_congr_left (g := id) (by intro value _; simp [renderString, tabs]), List.map_id]
  rw [hid]

theorem splitOn_joined {values : List Text} (hne : values ≠ [])
    (h : ∀ value ∈ values, (',' : Byte) ∉ value) :
    (joined false values).splitOn (',' : Byte) = values := by
  induction values with
  | nil => exact absurd rfl hne
  | cons value values ih =>
    rw [joined_cons]
    cases values with
    | nil =>
      rw [behind, List.append_nil]
      exact splitOn_of_not_mem (h value (by simp))
    | cons next values =>
      rw [behind, splitOn_append (h value (by simp)), ih (by simp) fun v hv => h v (by simp [hv])]

theorem joined_head_ne {values : List Text} {b : Byte} (hb : b ≠ ',')
    (h : ∀ value ∈ values, b ∉ value) : (joined false values).head? ≠ some b := by
  cases values with
  | nil => simp [joined]
  | cons value values =>
    rw [joined_cons]
    cases value with
    | nil =>
      cases values with
      | nil => simp [behind]
      | cons next values => simpa [behind] using hb.symm
    | cons x value =>
      have hx := h (x :: value) (by simp)
      simp only [List.mem_cons, not_or] at hx
      simpa using fun hxb => hx.1 hxb.symm

theorem readFields_strings_render {depth : Nat} {forceArray : Bool} {key : Text}
    {values items : List Text} (hne : values ≠ [])
    (hclean : ∀ value ∈ values, FreeOf valueDelimiters value) (hkey : (':' : Byte) ∉ key) :
    readFields asserts (fuel + 1)
        (key ++ (':' : Byte) :: (renderContainer false depth forceArray (.strings values) ++ behind items))
        ret =
      readFields asserts fuel (joined false items)
        (ret.push key (.strings values) (forceArray || decide (values.length > 1))) := by
  simp only [renderContainer]
  split
  · rename_i harray
    have hflag : (forceArray || decide (values.length > 1)) = true := by
      simpa [or_comm] using harray
    have hbalanced : Balanced (joined false values) :=
      balanced_joined fun value hmem => balanced_of_freeOf (hclean value hmem)
    have hhead : (joined false values).head? ≠ some ('{' : Byte) :=
      joined_head_ne (by decide) fun value hmem => (hclean value hmem).not_mem (by decide)
    have htext : ('[' : Byte) :: (newline false ++
        (joined false (values.map (renderString false (depth + 1) true)) ++
          (tabs false depth ++ [(']' : Byte)]))) ++ behind items =
        ('[' : Byte) :: (joined false values ++ (']' : Byte) :: behind items) := by
      rw [joined_strings]
      simp [newline, tabs]
    rw [htext, readFields_strings hkey hbalanced.closed_brackets hhead, behind_drop, hflag,
      splitOn_joined hne fun value hmem => (hclean value hmem).not_mem (by decide)]
  · rename_i hscalar
    obtain ⟨value, rfl⟩ : ∃ value, values = [value] := by
      simp only [Bool.or_eq_true, decide_eq_true_eq, not_or, not_lt] at hscalar
      match values, hne, hscalar.1 with
      | [value], _, _ => exact ⟨value, rfl⟩
    have hfree := hclean value (by simp)
    have hflag : (forceArray || decide ([value].length > 1)) = false := by
      simpa [or_comm] using hscalar
    rw [hflag]
    simpa [renderString] using
      readFields_scalar_behind hkey (hfree.not_mem (by decide)) (freeOf_scalar hfree)

mutual
theorem readText_render (depth : Nat) (prespace : Bool) :
    (w : ResponseWrapper) → w.Wf → w.Clean → ∀ fuel,
    2 * (render false depth prespace w).length + 1 ≤ fuel →
    readText asserts fuel (render false depth prespace w) = .ok (some w.flagged)
  | .mk elements forcedArrays, hwf, hclean, fuel, hfuel => by
    have htext : render false depth prespace (.mk elements forcedArrays) =
        ('{' : Byte) :: (joined false (renderFields false (depth + 1) forcedArrays elements) ++
          [('}' : Byte)]) := by
      cases prespace <;> simp [render, newline, tabs]
    rw [htext] at hfuel ⊢
    simp only [List.length_cons, List.length_append, List.length_nil] at hfuel
    obtain ⟨fuel, rfl⟩ : ∃ m, fuel = m + 1 := ⟨fuel - 1, by omega⟩
    rw [readText_braces, readFields_render elements hwf.2 hclean (by simp [hwf.1]) fuel (by omega)]
    simp [empty, flagged]

theorem readFields_render {depth : Nat} {fs : List Bool} {ret : ResponseWrapper} :
    (elements : List (Text × ElementContainer)) → WfElements elements → CleanElements elements →
    elements.length ≤ fs.length → ∀ fuel,
    2 * (joined false (renderFields false depth fs elements)).length + 3 ≤ fuel →
    readFields asserts fuel (joined false (renderFields false depth fs elements)) ret =
      .ok (some (.mk (ret.elements ++ flaggedElements elements)
        (ret.forcedArrays ++ elementFlags fs elements)))
  | [], _, _, _, fuel, hfuel => by
    obtain ⟨fuel, rfl⟩ : ∃ m, fuel = m + 1 := ⟨fuel - 1, by omega⟩
    simp only [renderFields, joined]
    rw [readFields_noKey (by simp)]
    obtain ⟨es, gs⟩ := ret
    simp [flaggedElements, elementFlags]
  | (key, value) :: elements, hwf, hclean, hlen, fuel, hfuel => by
    obtain ⟨hkey, hvalue, helements⟩ := hclean
    obtain ⟨flag, fs, rfl⟩ : ∃ flag gs, fs = flag :: gs := by
      cases fs with
      | nil => simp at hlen
      | cons flag gs => exact ⟨flag, gs, rfl⟩
    have htext : joined false (renderFields false depth (flag :: fs) ((key, value) :: elements)) =
        key ++ (':' : Byte) :: (renderContainer false depth flag value ++
          behind (renderFields false depth fs elements)) := by
      simp [renderFields, joined_cons, tabs, blank]
    have hbehind : (joined false (renderFields false depth fs elements)).length ≤
        (behind (renderFields false depth fs elements)).length := by
      rw [← behind_drop, List.length_drop]
      omega
    rw [htext] at hfuel ⊢
    simp only [List.length_cons, List.length_append] at hfuel
    obtain ⟨fuel, rfl⟩ : ∃ m, fuel = m + 1 := ⟨fuel - 1, by omega⟩
    rw [readFields_container value hwf.1 hvalue (hkey.not_mem (by decide)) fuel (by omega),
      readFields_render elements hwf.2 helements (by simpa using hlen) fuel (by omega)]
    simp [push, flaggedElements, elementFlags]

theorem readFields_container {depth : Nat} {forceArray : Bool} {key : Text} {items : List Text}
    {ret : ResponseWrapper} :
    (value : ElementContainer) → WfContainer value → CleanContainer value →
    (':' : Byte) ∉ key → ∀ fuel,
    2 * (renderContainer false depth forceArray value).length + 1 ≤ fuel →
    readFields asserts (fuel + 1)
        (key ++ (':' : Byte) :: (renderContainer false depth forceArray value ++ behind items)) ret =
      readFields asserts fuel (joined false items)
        (ret.push key (flaggedContainer value)
          (forceArray || decide (ElementContainer.size value > 1)))
  | .strings values, hwf, hclean, hkey, fuel, _ => by
    exact readFields_strings_render hwf hclean hkey
  | .objects values, hwf, hclean, hkey, fuel, hfuel => by
    obtain ⟨hne, hall⟩ := hwf
    simp only [renderContainer] at hfuel ⊢
    split
    · rename_i harray
      have hflag : (forceArray || decide (ElementContainer.size (.objects values) > 1)) = true := by
        simpa [or_comm, ElementContainer.size] using harray
      have hbalanced := balanced_joined (balanced_renderObjects (depth + 1) true values hall hclean)
      have hhead : (joined false (renderObjects false (depth + 1) true values)).head? =
          some ('{' : Byte) := by
        match values, hne, hall, hclean with
        | value :: values, _, hall, hclean =>
          obtain ⟨body, hbody, -⟩ := render_braces (depth + 1) true value hall.1 hclean.1
          simp [renderObjects, joined_cons, hbody]
      have htext : ('[' : Byte) :: (newline false ++
          (joined false (renderObjects false (depth + 1) true values) ++
            (tabs false depth ++ [(']' : Byte)]))) ++ behind items =
          ('[' : Byte) :: (joined false (renderObjects false (depth + 1) true values) ++
            (']' : Byte) :: behind items) := by
        simp [newline, tabs]
      rw [if_pos harray] at hfuel
      simp only [List.length_cons, List.length_append, List.length_nil] at hfuel
      rw [htext, readFields_objects hkey hbalanced.closed_brackets hhead,
        readItems_render values hne hall hclean fuel (by omega), behind_drop, hflag]
      simp [flaggedContainer]
    · rename_i hscalar
      rw [if_neg hscalar] at hfuel
      match values, hne, hall, hclean, hscalar, hfuel with
      | [value], _, hall, hclean, hscalar, hfuel =>
        have hflag : (forceArray || decide (ElementContainer.size (.objects [value]) > 1)) =
            false := by
          simpa [or_comm, ElementContainer.size] using hscalar
        obtain ⟨body, hbody, hbalanced⟩ := render_braces depth false value hall.1 hclean.1
        have hval := readText_render depth false value hall.1 hclean.1 fuel
          (by simpa [renderObjects] using hfuel)
        simp only [renderObjects, List.headD_cons]
        rw [hbody] at hval ⊢
        rw [readFields_object hkey hbalanced.closed_braces, hval, behind_drop, hflag]
        simp [flaggedContainer, flaggedAll]
      | _ :: _ :: _, _, _, _, hscalar, _ => simp at hscalar

theorem readItems_render {depth : Nat} {acc : List ResponseWrapper} :
    (values : List ResponseWrapper) → values ≠ [] → WfAll values → CleanAll values → ∀ fuel,
    2 * (joined false (renderObjects false depth true values)).length + 4 ≤ fuel →
    readItems asserts fuel (joined false (renderObjects false depth true values)) ']' acc =
      .ok (some (acc ++ flaggedAll values))
  | value :: values, _, hwf, hclean, fuel, hfuel => by
    obtain ⟨body, hbody, hbalanced⟩ := render_braces depth true value hwf.1 hclean.1
    have hbehind : (joined false (renderObjects false depth true values)).length ≤
        (behind (renderObjects false depth true values)).length := by
      rw [← behind_drop, List.length_drop]
      omega
    have hpos : 0 < (render false depth true value).length := by simp [hbody]
    simp only [renderObjects, joined_cons, List.length_append] at hfuel ⊢
    obtain ⟨fuel, rfl⟩ : ∃ m, fuel = m + 1 := ⟨fuel - 1, by omega⟩
    have hval := readText_render depth true value hwf.1 hclean.1 fuel
      (by omega)
    rw [hbody] at hval ⊢
    rw [readItems_block hbalanced.closed_braces, hval, ifPresent_some]
    cases hvalues : values with
    | nil => simp [renderObjects, behind, flaggedAll]
    | cons next rest =>
      rw [← hvalues]
      have hempty : (behind (renderObjects false depth true values)).isEmpty = false := by
        simp [hvalues, renderObjects, behind]
      rw [hempty, if_neg (by simp), behind_drop,
        readItems_render values (by simp [hvalues]) hwf.2 hclean.2 fuel (by omega)]
      simp [flaggedAll]
end

end Reading

/-- The wire round trip: what `toData(false)` prints of a wrapper built by `add`
decodes to the same wrapper, up to flags the text cannot carry. -/
theorem fromData_toData {asserts : Bool} {w : ResponseWrapper} (hbuilt : Built asserts w)
    (hclean : w.Clean) :
    ∃ data, toData asserts false w = .ok data ∧ fromData asserts data = .ok (some w.flagged) := by
  refine ⟨_, toData_eq hbuilt.wf, ?_⟩
  rw [fromData_eq_readText]
  exact readText_render 0 false w hbuilt.wf hclean _ (Nat.le_refl _)

/-- A record as the service pages get it: a forced one-element array of objects
with an empty text and an empty object inside, and a text with a colon in it. -/
def sampleService : ResponseWrapper :=
  .mk
    [(("services" : Text), .objects
      [.mk [(("service" : Text), .strings [("4" : Text)]), (("notes" : Text), .strings [[]]),
          (("parts" : Text), .objects [empty])] [false, false, false]]),
      (("times" : Text), .strings [("9:30" : Text), []])]
    [true, false]

theorem sampleService_built : Built true sampleService := by
  have hservice := Built.addString .empty
    (rfl : addString true empty ("service" : Text) ("4" : Text) false = .ok _)
  have hnotes := hservice.addString (rfl : addString true _ ("notes" : Text) [] false = .ok _)
  have hinner := hnotes.addObject .empty
    (rfl : addObject true _ ("parts" : Text) empty false = .ok _)
  have hservices := Built.addObject .empty hinner
    (rfl : addObject true empty ("services" : Text) _ true = .ok _)
  have htime := hservices.addString
    (rfl : addString true _ ("times" : Text) ("9:30" : Text) false = .ok _)
  exact htime.addString (rfl : addString true _ ("times" : Text) [] false = .ok _)

theorem sampleService_clean : sampleService.Clean := by
  simp only [sampleService, Clean, CleanElements, CleanContainer, CleanAll, empty]
  decide +kernel

theorem fromData_toData_sampleService :
    ∃ data, toData true false sampleService = .ok data ∧
      fromData true data = .ok (some sampleService.flagged) :=
  fromData_toData sampleService_built sampleService_clean

end ResponseWrapper

end WFA
