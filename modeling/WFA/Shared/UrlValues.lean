-- SUMMARY: How a query string or a body is read, and that it undoes the encoding of a form.
import WFA.Base.Percent
import WFA.Shared.Query

/-!
# Reading forms

`parseURLValues` in `Shared/include/Query.h`. The loop takes the text up to the
next `&`, cuts it at its first `=`, and stores the value under the name. What
`curl_easy_unescape` does to a value is `unescape`.
-/

namespace WFA

open Text

/-! ## The parser -/

namespace QueryBase

def empty : QueryBase where
  elements _ := none

/-- `ret[name] = value`. -/
def set (b : QueryBase) (name value : Text) : QueryBase where
  elements other := if other = name then some value else b.elements other

end QueryBase

/-- `std::replace(…, '+', ' ')`. -/
def plusToSpace (t : Text) : Text :=
  t.map fun (b : Byte) => if b == '+' then (' ' : Byte) else b

/-- The value behind the divisor of a segment, if there is a divisor. -/
def segmentValue : Option Text → Text
  | none => []
  -- Empty values are allowed.
  | some [] => []
  | some value => unescape (plusToSpace value)

/-- The loop of `parseURLValues`, on the source from `it` on. -/
def valuesFrom (rest : Text) (ret : QueryBase) : QueryBase :=
  match rest with
  | [] => ret
  | b :: t =>
    let segment := cut '&' (b :: t)
    let pair := cut '=' segment.1
    valuesFrom (segment.2.getD []) (ret.set pair.1 (segmentValue pair.2))
termination_by rest.length
decreasing_by
  rcases hcut : cut '&' (b :: t) with ⟨front, _ | behind⟩
  · simp
  · have := cut_length hcut
    simp only [List.length_cons, Option.getD_some] at this ⊢
    omega

def parseURLValues (source : Text) : QueryBase :=
  valuesFrom source .empty

/-! ## The encoder of a form -/

/-- A space as `+`, an unreserved byte as itself, and any other byte escaped. -/
def encodeByte (b : Byte) : Text :=
  if unreserved b then [b] else if b == ' ' then [('+' : Byte)] else escape b

def encodeValue (value : Text) : Text :=
  value.flatMap encodeByte

def encodePair (pair : Text × Text) : Text :=
  pair.1 ++ ('=' : Byte) :: encodeValue pair.2

def encode (pairs : List (Text × Text)) : Text :=
  List.intercalate [('&' : Byte)] (pairs.map encodePair)

/-! ## Values -/

theorem unreserved_ne {b : Byte} (h : unreserved b = true) :
    b ≠ '%' ∧ b ≠ '+' ∧ b ≠ '&' ∧ b ≠ '=' := by
  revert h
  exact forall_byte (P := fun b => unreserved b = true → b ≠ '%' ∧ b ≠ '+' ∧ b ≠ '&' ∧ b ≠ '=')
    (by decide +kernel) b

theorem plusToSpace_append (s t : Text) : plusToSpace (s ++ t) = plusToSpace s ++ plusToSpace t :=
  List.map_append

theorem plusToSpace_of_not_mem {t : Text} (h : ('+' : Byte) ∉ t) : plusToSpace t = t := by
  unfold plusToSpace
  refine (List.map_congr_left ?_).trans (List.map_id t)
  intro b hb
  rw [if_neg (by simpa using ne_of_mem_of_not_mem hb h), id]

theorem plus_not_mem_escape (b : Byte) : ('+' : Byte) ∉ escape b := by
  obtain ⟨hhigh, hlow⟩ := unreserved_hexDigit b
  have hhigh := (unreserved_ne hhigh).2.1
  have hlow := (unreserved_ne hlow).2.1
  simp only [escape, List.mem_cons, List.not_mem_nil, or_false, not_or]
  exact ⟨by decide, hhigh.symm, hlow.symm⟩

/-- One byte is read back in front of any rest. -/
theorem unescape_encodeByte (b : Byte) (t : Text) :
    unescape (plusToSpace (encodeByte b) ++ t) = b :: unescape t := by
  unfold encodeByte
  split
  · rename_i hunreserved
    obtain ⟨hpercent, hplus, -⟩ := unreserved_ne hunreserved
    rw [plusToSpace_of_not_mem (by simpa using hplus.symm)]
    exact unescape_cons hpercent t
  · split
    · rename_i hspace
      obtain rfl : b = ' ' := by simpa using hspace
      exact unescape_cons (by decide) t
    · rw [plusToSpace_of_not_mem (plus_not_mem_escape b)]
      exact unescape_escape b t

theorem unescape_encodeValue (value : Text) : unescape (plusToSpace (encodeValue value)) = value := by
  induction value with
  | nil => rfl
  | cons b value ih =>
    have hsplit : encodeValue (b :: value) = encodeByte b ++ encodeValue value := rfl
    rw [hsplit, plusToSpace_append, unescape_encodeByte, ih]

/-- The encoder writes no separator. -/
theorem separator_not_mem {value : Text} {c : Byte} (hc : c = '&' ∨ c = '=') :
    c ∉ encodeValue value := by
  have hbyte : ∀ b, c ∉ encodeByte b := by
    intro b
    obtain ⟨hhigh, hlow⟩ := unreserved_hexDigit b
    obtain ⟨-, -, hhigh⟩ := unreserved_ne hhigh
    obtain ⟨-, -, hlow⟩ := unreserved_ne hlow
    unfold encodeByte
    split
    · rename_i hunreserved
      obtain ⟨-, -, hb⟩ := unreserved_ne hunreserved
      rcases hc with rfl | rfl
      · simpa using hb.1.symm
      · simpa using hb.2.symm
    · split
      · rcases hc with rfl | rfl <;> decide
      · simp only [escape, List.mem_cons, List.not_mem_nil, or_false, not_or]
        rcases hc with rfl | rfl
        · exact ⟨by decide, hhigh.1.symm, hlow.1.symm⟩
        · exact ⟨by decide, hhigh.2.symm, hlow.2.symm⟩
  intro hmem
  obtain ⟨b, -, hb⟩ := List.mem_flatMap.mp hmem
  exact hbyte b hb

theorem segmentValue_encodeValue (value : Text) :
    segmentValue (some (encodeValue value)) = value := by
  cases hencoded : encodeValue value with
  | nil =>
    have hback := unescape_encodeValue value
    rw [hencoded] at hback
    exact hback
  | cons b t =>
    rw [← unescape_encodeValue value, hencoded]
    rfl

/-! ## Lists of pairs -/

/-- A name that a form may have. -/
def FormName (name : Text) : Prop :=
  name ≠ [] ∧ ∀ b ∈ name, unreserved b = true

section Pairs

variable {pair : Text × Text}

theorem FormName.not_mem {name : Text} (h : FormName name) :
    ('&' : Byte) ∉ name ∧ ('=' : Byte) ∉ name :=
  ⟨fun hmem => (unreserved_ne (h.2 _ hmem)).2.2.1 rfl,
    fun hmem => (unreserved_ne (h.2 _ hmem)).2.2.2 rfl⟩

theorem encodePair_not_mem (h : FormName pair.1) : ('&' : Byte) ∉ encodePair pair := by
  simp only [encodePair, List.mem_append, List.mem_cons, not_or]
  exact ⟨h.not_mem.1, by decide, separator_not_mem (.inl rfl)⟩

theorem encodePair_ne_nil : encodePair pair ≠ [] := by
  simp [encodePair]

theorem cut_encodePair (h : FormName pair.1) :
    cut '=' (encodePair pair) = (pair.1, some (encodeValue pair.2)) :=
  cut_append h.not_mem.2

/-- One round of the loop. -/
theorem valuesFrom_pair (h : FormName pair.1) (rest : Option Text) (ret : QueryBase) {source : Text}
    (hsource : cut '&' source = (encodePair pair, rest)) (hne : source ≠ []) :
    valuesFrom source ret = valuesFrom (rest.getD []) (ret.set pair.1 pair.2) := by
  obtain ⟨b, t, rfl⟩ := List.exists_cons_of_ne_nil hne
  rw [valuesFrom, hsource, cut_encodePair h, segmentValue_encodeValue]

/-- The pairs are stored one after the other. -/
theorem valuesFrom_encode {pairs : List (Text × Text)} (h : ∀ pair ∈ pairs, FormName pair.1)
    (ret : QueryBase) :
    valuesFrom (encode pairs) ret = pairs.foldl (fun ret pair => ret.set pair.1 pair.2) ret := by
  induction pairs generalizing ret with
  | nil => rw [encode, List.map_nil, List.intercalate_nil, valuesFrom, List.foldl_nil]
  | cons pair pairs ih =>
    have hpair : FormName pair.1 := h pair (by simp)
    have hrest : ∀ pair ∈ pairs, FormName pair.1 := fun other hother => h other (by simp [hother])
    cases pairs with
    | nil =>
      rw [encode, List.map_singleton, List.intercalate_singleton,
        valuesFrom_pair hpair none ret (cut_of_not_mem (encodePair_not_mem hpair))
          encodePair_ne_nil]
      rw [Option.getD_none, valuesFrom, List.foldl_cons, List.foldl_nil]
    | cons next pairs =>
      have hsplit : encode (pair :: next :: pairs) =
          encodePair pair ++ ('&' : Byte) :: encode (next :: pairs) := by
        simp [encode, List.intercalate_cons_cons]
      rw [hsplit, valuesFrom_pair hpair (some (encode (next :: pairs))) ret
        (cut_append (encodePair_not_mem hpair)) (by simp [encodePair]), Option.getD_some, ih hrest]
      rfl

theorem elements_ofList_concat (pairs : List (Text × Text)) (pair : Text × Text) (name : Text) :
    (QueryBase.ofList (pairs ++ [pair])).elements name =
      if name = pair.1 then some pair.2 else (QueryBase.ofList pairs).elements name := by
  simp only [QueryBase.ofList, List.reverse_append, List.reverse_singleton, List.singleton_append,
    List.find?_cons]
  by_cases hname : name = pair.1
  · simp [hname]
  · have hne : (pair.1 == name) = false := by simpa using Ne.symm hname
    rw [hne, if_neg hname]

/-- Storing one pair after the other keeps the last one of a name. -/
theorem foldl_set_eq_ofList (pairs : List (Text × Text)) :
    pairs.foldl (fun ret pair => ret.set pair.1 pair.2) QueryBase.empty = .ofList pairs := by
  induction pairs using List.reverseRecOn with
  | nil => rfl
  | append_singleton pairs pair ih =>
    rw [List.foldl_append, ih, List.foldl_cons, List.foldl_nil]
    refine congrArg QueryBase.mk (funext fun name => ?_)
    exact (elements_ofList_concat pairs pair name).symm

theorem elements_ofList_mem {pairs : List (Text × Text)} {name value : Text}
    (h : (QueryBase.ofList pairs).elements name = some value) : (name, value) ∈ pairs := by
  induction pairs using List.reverseRecOn with
  | nil => simp [QueryBase.ofList] at h
  | append_singleton pairs pair ih =>
    rw [elements_ofList_concat] at h
    split at h
    · rename_i hname
      obtain rfl : pair.2 = value := Option.some.inj h
      simp [hname]
    · exact List.mem_append.mpr (.inl (ih h))

/-- With distinct names, a name is sent to the one value it stands with. -/
theorem elements_ofList_iff {pairs : List (Text × Text)} (h : (pairs.map Prod.fst).Nodup)
    {name value : Text} :
    (QueryBase.ofList pairs).elements name = some value ↔ (name, value) ∈ pairs := by
  refine ⟨elements_ofList_mem, ?_⟩
  induction pairs using List.reverseRecOn with
  | nil => simp
  | append_singleton pairs pair ih =>
    rw [List.map_append, List.nodup_append] at h
    obtain ⟨hfront, -, hlast⟩ := h
    intro hmem
    rw [elements_ofList_concat]
    rcases List.mem_append.mp hmem with hold | hnew
    · have hne : name ≠ pair.1 :=
        hlast name (List.mem_map.mpr ⟨_, hold, rfl⟩) pair.1 (by simp)
      rw [if_neg hne]
      exact ih hfront hold
    · obtain rfl : (name, value) = pair := by simpa using hnew
      rw [if_pos rfl]

theorem ofList_perm {pairs pairs' : List (Text × Text)} (h : (pairs.map Prod.fst).Nodup)
    (hperm : pairs.Perm pairs') : QueryBase.ofList pairs = .ofList pairs' := by
  refine congrArg QueryBase.mk (funext fun name => Option.ext fun value => ?_)
  have h' : (pairs'.map Prod.fst).Nodup := (hperm.map Prod.fst).nodup_iff.mp h
  exact (elements_ofList_iff h).trans (hperm.mem_iff.trans (elements_ofList_iff h').symm)

end Pairs

/-- Decoding undoes encoding: every name has the value of its last occurrence,
and for distinct names the order does not matter. -/
theorem parseURLValues_encode (pairs : List (Text × Text))
    (hnames : ∀ pair ∈ pairs, FormName pair.1) :
    parseURLValues (encode pairs) = .ofList pairs ∧
      ((pairs.map Prod.fst).Nodup → ∀ pairs', pairs.Perm pairs' →
        parseURLValues (encode pairs') = parseURLValues (encode pairs)) := by
  have hparse : ∀ pairs, (∀ pair ∈ pairs, FormName pair.1) →
      parseURLValues (encode pairs) = .ofList pairs := by
    intro pairs hnames
    rw [parseURLValues, valuesFrom_encode hnames, foldl_set_eq_ofList]
  refine ⟨hparse pairs hnames, ?_⟩
  intro hnodup pairs' hperm
  have hnames' : ∀ pair ∈ pairs', FormName pair.1 :=
    fun pair hpair => hnames pair (hperm.mem_iff.mpr hpair)
  rw [hparse pairs hnames, hparse pairs' hnames', ofList_perm hnodup hperm]

/-- A form with an empty value, a repeated name and every separator in a value. -/
def sampleForm : List (Text × Text) :=
  [(Field.id, ("1" : Text)), (Field.notes, []), (Field.id, ("a&b=c + 100%" : Text))]

theorem parseURLValues_encode_sampleForm :
    (∀ pair ∈ sampleForm, FormName pair.1) ∧
      parseURLValues (encode sampleForm) = .ofList sampleForm := by
  have hnames : ∀ pair ∈ sampleForm, FormName pair.1 := by
    unfold FormName
    decide +kernel
  exact ⟨hnames, (parseURLValues_encode sampleForm hnames).1⟩

end WFA
