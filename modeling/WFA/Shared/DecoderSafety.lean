-- SUMMARY: The texts on which `fromData` returns: a grammar of the readable texts, and that it is exact.
import WFA.Shared.Decode

/-!
# When the decoder returns

The decoder moves its iterators by fixed offsets after searches that may fail.
It returns on exactly the texts of the grammar below. A text is *accepted* when
every bracket that opens a value is closed inside its object, and *refused* when
an item of an array of objects is no object; a refusal ends the decoding, so
nothing behind it matters. Every other text leaves a bracket open in front of
the end of an object, and the decoder steps over that end.
-/

namespace WFA

open Text

namespace ResponseWrapper

/-- Whether a text has a value. -/
inductive Verdict where
  | accepted
  | refused
  deriving DecidableEq, Repr

mutual
/-- A whole text. -/
inductive Readable (asserts : Bool) : Text → Verdict → Prop
  | empty : Readable asserts [] .accepted
  | foreign {data : Text} :
      data ≠ [] → (data.head? ≠ some ('{' : Byte) ∨ data.getLast? ≠ some ('}' : Byte)) →
      Readable asserts data .refused
  | braces {body : Text} {v : Verdict} :
      ReadableFields asserts body v → Readable asserts (('{' : Byte) :: (body ++ [('}' : Byte)])) v

/-- The elements of an object, up to its closing brace. -/
inductive ReadableFields (asserts : Bool) : Text → Verdict → Prop
  | noKey {rest : Text} : (':' : Byte) ∉ rest → ReadableFields asserts rest .accepted
  | scalar {key value rest : Text} {v : Verdict} :
      (':' : Byte) ∉ key → (',' : Byte) ∉ value → Scalar value →
      ReadableFields asserts rest v →
      ReadableFields asserts (key ++ (':' : Byte) :: (value ++ (',' : Byte) :: rest)) v
  | lastScalar {key value : Text} :
      (':' : Byte) ∉ key → (',' : Byte) ∉ value → Scalar value →
      ReadableFields asserts (key ++ (':' : Byte) :: value) .accepted
  | object {key block after : Text} {v : Verdict} :
      (':' : Byte) ∉ key → Closed '{' '}' block → Readable asserts block .accepted →
      ReadableFields asserts (after.drop 1) v →
      ReadableFields asserts (key ++ (':' : Byte) :: (block ++ after)) v
  | objectRefused {key block after : Text} :
      (':' : Byte) ∉ key → Closed '{' '}' block → Readable asserts block .refused →
      ReadableFields asserts (key ++ (':' : Byte) :: (block ++ after)) .refused
  | openObjectRefused {key tail : Text} :
      (':' : Byte) ∉ key → Unclosed '{' '}' tail →
      Readable asserts (tail ++ [('}' : Byte)]) .refused →
      ReadableFields asserts (key ++ (':' : Byte) :: tail) .refused
  | strings {key content after : Text} {v : Verdict} :
      (':' : Byte) ∉ key → Closed '[' ']' (('[' : Byte) :: (content ++ [(']' : Byte)])) →
      content.head? ≠ some ('{' : Byte) → ReadableFields asserts (after.drop 1) v →
      ReadableFields asserts
        (key ++ (':' : Byte) :: (('[' : Byte) :: (content ++ (']' : Byte) :: after))) v
  | objects {key content after : Text} {v : Verdict} :
      (':' : Byte) ∉ key → Closed '[' ']' (('[' : Byte) :: (content ++ [(']' : Byte)])) →
      content.head? = some ('{' : Byte) → ReadableItems asserts content ']' .accepted →
      ReadableFields asserts (after.drop 1) v →
      ReadableFields asserts
        (key ++ (':' : Byte) :: (('[' : Byte) :: (content ++ (']' : Byte) :: after))) v
  | objectsRefused {key content after : Text} :
      (':' : Byte) ∉ key → Closed '[' ']' (('[' : Byte) :: (content ++ [(']' : Byte)])) →
      content.head? = some ('{' : Byte) → ReadableItems asserts content ']' .refused →
      ReadableFields asserts
        (key ++ (':' : Byte) :: (('[' : Byte) :: (content ++ (']' : Byte) :: after))) .refused
  | openObjectsRefused {key content : Text} :
      (':' : Byte) ∉ key → Unclosed '[' ']' (('[' : Byte) :: content) →
      content.head? = some ('{' : Byte) → ReadableItems asserts content '}' .refused →
      ReadableFields asserts (key ++ (':' : Byte) :: (('[' : Byte) :: content)) .refused

/-- The items of an array of objects, up to the byte `stop`. An item that does
not start with a brace fails the assertion of the bracket matcher; without
assertions it is refused. -/
inductive ReadableItems (asserts : Bool) : Text → Byte → Verdict → Prop
  | last {block : Text} {stop : Byte} :
      Closed '{' '}' block → Readable asserts block .accepted →
      ReadableItems asserts block stop .accepted
  | item {block rest : Text} {sep stop : Byte} {v : Verdict} :
      Closed '{' '}' block → Readable asserts block .accepted →
      ReadableItems asserts rest stop v →
      ReadableItems asserts (block ++ sep :: rest) stop v
  | itemRefused {block after : Text} {stop : Byte} :
      Closed '{' '}' block → Readable asserts block .refused →
      ReadableItems asserts (block ++ after) stop .refused
  | openRefused {content : Text} {stop : Byte} :
      Unclosed '{' '}' content → Readable asserts (content ++ [stop]) .refused →
      ReadableItems asserts content stop .refused
  | foreign {content : Text} {stop : Byte} :
      asserts = false → content.head? ≠ some ('{' : Byte) →
      ReadableItems asserts content stop .refused
end

/-- The verdict a result of the decoder stands for. -/
def verdict {α : Type} : Option α → Verdict
  | some _ => .accepted
  | none => .refused

@[simp] theorem verdict_some {α : Type} (a : α) : verdict (some a) = .accepted := rfl

@[simp] theorem verdict_none {α : Type} : verdict (none : Option α) = .refused := rfl

section Exactness

variable {asserts : Bool}

/-! ## Where the decoder returns, the text is readable -/

theorem readable_of_readText_succ {fuel : Nat}
    (hfields : ∀ rest ret r, readFields asserts fuel rest ret = .ok r →
      ReadableFields asserts rest (verdict r))
    {data : Text} {r : Option ResponseWrapper} (h : readText asserts (fuel + 1) data = .ok r) :
    Readable asserts data (verdict r) := by
  by_cases hne : data = []
  · subst hne
    obtain rfl : some empty = r := by simpa [readText] using h
    exact .empty
  · by_cases hforeign : data.head? ≠ some ('{' : Byte) ∨ data.getLast? ≠ some ('}' : Byte)
    · rw [readText_foreign hne hforeign] at h
      obtain rfl : none = r := by simpa using h
      exact .foreign hne hforeign
    · rw [not_or, not_not, not_not] at hforeign
      rw [braces_interior hforeign.1 hforeign.2] at h ⊢
      rw [readText_braces] at h
      exact .braces (hfields _ _ _ h)

theorem braces_ne : ('{' : Byte) ≠ '}' := by decide

theorem brackets_ne : ('[' : Byte) ≠ ']' := by decide

theorem cons_of_head? {x : Byte} {t : Text} (h : t.head? = some x) : ∃ tl, t = x :: tl := by
  cases t with
  | nil => simp at h
  | cons y tl => exact ⟨tl, by simpa using h⟩

/-- A text that opens with a bracket either closes it, and is a block with
something behind it, or does not. -/
theorem block_cases {o c : Byte} {t : Text} (hoc : o ≠ c) (h : t.head? = some o) :
    (∃ block after, t = block ++ after ∧ Closed o c block) ∨ Unclosed o c t := by
  cases hclose : closing o c (-1) t with
  | none => exact .inr ⟨h, hclose⟩
  | some k =>
    exact .inl ⟨t.take (k + 1), t.drop (k + 1), (List.take_append_drop _ _).symm,
      closed_take hoc h hclose⟩

/-- A closed block has its brackets at both ends. -/
theorem Closed.eq_brackets {o c : Byte} {block : Text} (hoc : o ≠ c) (h : Closed o c block) :
    ∃ content, block = o :: (content ++ [c]) := by
  obtain ⟨u, v, rfl, hlen⟩ := closing_spec hoc h.2
  simp only [List.length_append, List.length_cons] at hlen
  obtain rfl : v = [] := List.length_eq_zero_iff.mp (by omega)
  cases u with
  | nil => exact absurd (by simpa using h.1) hoc.symm
  | cons x content =>
    obtain rfl : x = o := by simpa using h.1
    exact ⟨content, rfl⟩

theorem readable_of_readFields_succ {fuel : Nat}
    (htext : ∀ data r, readText asserts fuel data = .ok r → Readable asserts data (verdict r))
    (hfields : ∀ rest ret r, readFields asserts fuel rest ret = .ok r →
      ReadableFields asserts rest (verdict r))
    (hitems : ∀ content (stop : Byte) values r, stop ≠ '{' →
      readItems asserts fuel content stop values = .ok r →
      ReadableItems asserts content stop (verdict r))
    {rest : Text} {ret : ResponseWrapper} {r : Option ResponseWrapper}
    (h : readFields asserts (fuel + 1) rest ret = .ok r) :
    ReadableFields asserts rest (verdict r) := by
  rcases mem_cases ':' rest with hmem | ⟨key, tail, rfl, hkey⟩
  · rw [readFields_noKey hmem] at h
    obtain rfl : some ret = r := by simpa using h
    exact .noKey hmem
  · by_cases hobject : tail.head? = some ('{' : Byte)
    · rcases block_cases braces_ne hobject with ⟨block, after, rfl, hblock⟩ | hopen
      · rw [readFields_object hkey hblock] at h
        rcases ifPresent_eq_ok h with ⟨hval, rfl⟩ | ⟨val, hval, hrest⟩
        · exact .objectRefused hkey hblock (htext _ _ hval)
        · exact .object hkey hblock (htext _ _ hval) (hfields _ _ _ hrest)
      · rw [readFields_openObject hkey hopen] at h
        rcases ifPresent_eq_ok h with ⟨hval, rfl⟩ | ⟨val, -, hrest⟩
        · exact .openObjectRefused hkey hopen (htext _ _ hval)
        · simp at hrest
    · by_cases harray : tail.head? = some ('[' : Byte)
      · rcases block_cases brackets_ne harray with ⟨block, after, rfl, hblock⟩ | hopen
        · obtain ⟨content, rfl⟩ := Closed.eq_brackets brackets_ne hblock
          rw [List.cons_append, List.append_assoc, List.singleton_append] at h ⊢
          by_cases hcontent : content.head? = some ('{' : Byte)
          · rw [readFields_objects hkey hblock hcontent] at h
            rcases ifPresent_eq_ok h with ⟨hval, rfl⟩ | ⟨values, hval, hrest⟩
            · exact .objectsRefused hkey hblock hcontent (hitems _ _ _ _ (by decide) hval)
            · exact .objects hkey hblock hcontent (hitems _ _ _ _ (by decide) hval) (hfields _ _ _ hrest)
          · rw [readFields_strings hkey hblock hcontent] at h
            exact .strings hkey hblock hcontent (hfields _ _ _ h)
        · obtain ⟨content, rfl⟩ := cons_of_head? harray
          rw [readFields_openArray hkey hopen] at h
          split at h
          · rename_i hcontent
            rcases ifPresent_eq_ok h with ⟨hval, rfl⟩ | ⟨values, -, hrest⟩
            · exact .openObjectsRefused hkey hopen hcontent (hitems _ _ _ _ (by decide) hval)
            · simp at hrest
          · simp at h
      · rcases mem_cases ',' tail with hcomma | ⟨value, rest, rfl, hcomma⟩
        · rw [readFields_lastScalar hkey hcomma ⟨hobject, harray⟩] at h
          cases fuel with
          | zero => simp [readFields] at h
          | succ fuel =>
            rw [readFields_noKey (by simp)] at h
            obtain rfl := Except.ok.inj h
            exact .lastScalar hkey hcomma ⟨hobject, harray⟩
        · have hscalar : Scalar value := by
            cases value with
            | nil => exact ⟨by simp, by simp⟩
            | cons x value => exact ⟨hobject, harray⟩
          rw [readFields_scalar hkey hcomma hscalar] at h
          exact .scalar hkey hcomma hscalar (hfields _ _ _ h)

/-- An item that does not start with a brace, and what is read of it. -/
theorem readItems_foreign {content : Text} {stop : Byte} (fuel : Nat)
    (values : List ResponseWrapper) (hassert : asserts = false) (hstop : stop ≠ '{')
    (hhead : content.head? ≠ some ('{' : Byte)) :
    ∃ (item : Text) (k : ResponseWrapper → Exec (Option (List ResponseWrapper))),
      item ≠ [] ∧ item.head? ≠ some ('{' : Byte) ∧ item.length ≤ content.length + 1 ∧
      readItems asserts (fuel + 1) content stop values =
        ifPresent (readText asserts fuel item) k := by
  subst hassert
  rw [readItems, if_neg (by simp)]
  cases hclose : closing '{' '}' (-1) content with
  | some k =>
    have hlt := closing_lt (by decide) hclose
    refine ⟨content.take (k + 1), _, ?_, ?_, ?_, rfl⟩
    · intro hnil
      have := congrArg List.length hnil
      simp only [List.length_take, List.length_nil] at this
      omega
    · rwa [List.head?_take, if_neg (by omega)]
    · simp only [List.length_take]
      omega
  | none =>
    refine ⟨content ++ [stop], _, by simp, ?_, by simp, rfl⟩
    cases content with
    | nil => simpa using hstop
    | cons x content => exact hhead

theorem readable_of_readItems_succ {fuel : Nat}
    (htext : ∀ data r, readText asserts fuel data = .ok r → Readable asserts data (verdict r))
    (hitems : ∀ content (stop : Byte) values r, stop ≠ '{' →
      readItems asserts fuel content stop values = .ok r →
      ReadableItems asserts content stop (verdict r))
    {content : Text} {stop : Byte} {values : List ResponseWrapper}
    {r : Option (List ResponseWrapper)} (hstop : stop ≠ '{')
    (h : readItems asserts (fuel + 1) content stop values = .ok r) :
    ReadableItems asserts content stop (verdict r) := by
  by_cases hhead : content.head? = some ('{' : Byte)
  · rcases block_cases braces_ne hhead with ⟨block, after, rfl, hblock⟩ | hopen
    · rw [readItems_block hblock] at h
      rcases ifPresent_eq_ok h with ⟨hval, rfl⟩ | ⟨val, hval, hrest⟩
      · exact .itemRefused hblock (htext _ _ hval)
      · cases after with
        | nil =>
          obtain rfl : some (values ++ [val]) = r := by simpa using hrest
          rw [List.append_nil]
          exact .last hblock (htext _ _ hval)
        | cons sep rest =>
          exact .item hblock (htext _ _ hval) (hitems _ _ _ _ hstop (by simpa using hrest))
    · rw [readItems_open hopen] at h
      rcases ifPresent_eq_ok h with ⟨hval, rfl⟩ | ⟨val, -, hrest⟩
      · exact .openRefused hopen (htext _ _ hval)
      · simp at hrest
  · cases hassert : asserts with
    | true =>
      rw [readItems, if_pos ⟨hassert, hhead⟩] at h
      simp at h
    | false =>
      subst hassert
      obtain ⟨item, k, hne, hitem, -, heq⟩ := readItems_foreign fuel values rfl hstop hhead
      rw [heq] at h
      cases fuel with
      | zero => simp [readText] at h
      | succ fuel =>
        rw [readText_foreign hne (.inl hitem)] at h
        obtain rfl : none = r := by simpa using h
        exact .foreign rfl hhead

theorem readable_of_readText (fuel : Nat) {data : Text} {r : Option ResponseWrapper}
    (h : readText asserts fuel data = .ok r) : Readable asserts data (verdict r) := by
  have hall : (∀ data r, readText asserts fuel data = .ok r → Readable asserts data (verdict r)) ∧
      (∀ rest ret r, readFields asserts fuel rest ret = .ok r →
        ReadableFields asserts rest (verdict r)) ∧
      (∀ content (stop : Byte) values r, stop ≠ '{' →
        readItems asserts fuel content stop values = .ok r →
        ReadableItems asserts content stop (verdict r)) := by
    clear h
    induction fuel with
    | zero =>
      refine ⟨?_, ?_, ?_⟩
      · intro data r h
        simp [readText] at h
      · intro rest ret r h
        simp [readFields] at h
      · intro content stop values r _ h
        simp [readItems] at h
    | succ fuel ih =>
      obtain ⟨htext, hfields, hitems⟩ := ih
      exact ⟨fun _ _ h => readable_of_readText_succ hfields h,
        fun _ _ _ h => readable_of_readFields_succ htext hfields hitems h,
        fun _ _ _ _ hstop h => readable_of_readItems_succ htext hitems hstop h⟩
  exact hall.1 _ _ h

/-! ## On a readable text, the decoder returns -/

/-- The run has a result, and its verdict is `v`. -/
def Returns {α : Type} (run : Exec (Option α)) (v : Verdict) : Prop :=
  ∃ r, run = .ok r ∧ verdict r = v

theorem returns_some {α : Type} (a : α) : Returns (.ok (some a)) .accepted := ⟨_, rfl, rfl⟩

theorem returns_none {α : Type} : Returns (.ok (none : Option α)) .refused := ⟨_, rfl, rfl⟩

theorem Returns.ifPresent_refused {α β : Type} {run : Exec (Option α)}
    {k : α → Exec (Option β)} (h : Returns run .refused) : Returns (ifPresent run k) .refused := by
  obtain ⟨r, rfl, hr⟩ := h
  cases r with
  | none => exact returns_none
  | some a => simp at hr

theorem Returns.ifPresent_accepted {α β : Type} {run : Exec (Option α)}
    {k : α → Exec (Option β)} {v : Verdict} (h : Returns run .accepted)
    (hk : ∀ a, Returns (k a) v) : Returns (ifPresent run k) v := by
  obtain ⟨r, rfl, hr⟩ := h
  cases r with
  | none => simp at hr
  | some a => exact hk a

theorem returns_readText_succ {fuel : Nat}
    (hfields : ∀ rest ret v, 2 * rest.length + 3 ≤ fuel → ReadableFields asserts rest v →
      Returns (readFields asserts fuel rest ret) v)
    {data : Text} {v : Verdict} (hfuel : 2 * data.length + 1 ≤ fuel + 1)
    (h : Readable asserts data v) : Returns (readText asserts (fuel + 1) data) v := by
  cases h with
  | empty => exact returns_some _
  | foreign hne hforeign =>
    rw [readText_foreign hne hforeign]
    exact returns_none
  | braces hbody =>
    rw [readText_braces]
    simp only [List.length_cons, List.length_append, List.length_nil] at hfuel
    exact hfields _ _ _ (by omega) hbody

theorem returns_readFields_succ {fuel : Nat}
    (htext : ∀ data v, 2 * data.length + 1 ≤ fuel → Readable asserts data v →
      Returns (readText asserts fuel data) v)
    (hfields : ∀ rest ret v, 2 * rest.length + 3 ≤ fuel → ReadableFields asserts rest v →
      Returns (readFields asserts fuel rest ret) v)
    (hitems : ∀ content (stop : Byte) values v, stop ≠ '{' → 2 * content.length + 4 ≤ fuel →
      ReadableItems asserts content stop v → Returns (readItems asserts fuel content stop values) v)
    {rest : Text} {ret : ResponseWrapper} {v : Verdict} (hfuel : 2 * rest.length + 3 ≤ fuel + 1)
    (h : ReadableFields asserts rest v) : Returns (readFields asserts (fuel + 1) rest ret) v := by
  cases h with
  | noKey hmem =>
    rw [readFields_noKey hmem]
    exact returns_some _
  | scalar hkey hvalue hscalar hrest =>
    simp only [List.length_append, List.length_cons] at hfuel
    rw [readFields_scalar hkey hvalue hscalar]
    exact hfields _ _ _ (by omega) hrest
  | lastScalar hkey hvalue hscalar =>
    simp only [List.length_append, List.length_cons] at hfuel
    rw [readFields_lastScalar hkey hvalue hscalar]
    exact hfields _ _ _ (by simp only [List.length_nil]; omega) (.noKey (by simp))
  | object hkey hblock hval hrest =>
    simp only [List.length_append, List.length_cons] at hfuel
    rw [readFields_object hkey hblock]
    exact (htext _ _ (by omega) hval).ifPresent_accepted fun _ =>
      hfields _ _ _ (by simp only [List.length_drop]; omega) hrest
  | objectRefused hkey hblock hval =>
    simp only [List.length_append, List.length_cons] at hfuel
    rw [readFields_object hkey hblock]
    exact (htext _ _ (by omega) hval).ifPresent_refused
  | openObjectRefused hkey hopen hval =>
    simp only [List.length_append, List.length_cons] at hfuel
    rw [readFields_openObject hkey hopen]
    exact (htext _ _ (by simp only [List.length_append, List.length_singleton]; omega)
      hval).ifPresent_refused
  | strings hkey hblock hcontent hrest =>
    simp only [List.length_append, List.length_cons] at hfuel
    rw [readFields_strings hkey hblock hcontent]
    exact hfields _ _ _ (by simp only [List.length_drop]; omega) hrest
  | objects hkey hblock hcontent hval hrest =>
    simp only [List.length_append, List.length_cons] at hfuel
    rw [readFields_objects hkey hblock hcontent]
    exact (hitems _ _ _ _ (by decide) (by omega) hval).ifPresent_accepted fun _ =>
      hfields _ _ _ (by simp only [List.length_drop]; omega) hrest
  | objectsRefused hkey hblock hcontent hval =>
    simp only [List.length_append, List.length_cons] at hfuel
    rw [readFields_objects hkey hblock hcontent]
    exact (hitems _ _ _ _ (by decide) (by omega) hval).ifPresent_refused
  | openObjectsRefused hkey hopen hcontent hval =>
    simp only [List.length_append, List.length_cons] at hfuel
    rw [readFields_openArray hkey hopen, if_pos hcontent]
    exact (hitems _ _ _ _ (by decide) (by omega) hval).ifPresent_refused

theorem returns_readItems_succ {fuel : Nat}
    (htext : ∀ data v, 2 * data.length + 1 ≤ fuel → Readable asserts data v →
      Returns (readText asserts fuel data) v)
    (hitems : ∀ content (stop : Byte) values v, stop ≠ '{' → 2 * content.length + 4 ≤ fuel →
      ReadableItems asserts content stop v → Returns (readItems asserts fuel content stop values) v)
    {content : Text} {stop : Byte} {values : List ResponseWrapper} {v : Verdict}
    (hstop : stop ≠ '{') (hfuel : 2 * content.length + 4 ≤ fuel + 1)
    (h : ReadableItems asserts content stop v) :
    Returns (readItems asserts (fuel + 1) content stop values) v := by
  cases h with
  | last hblock hval =>
    rw [← List.append_nil content, readItems_block hblock]
    exact (htext _ _ (by omega) hval).ifPresent_accepted fun _ => returns_some _
  | item hblock hval hrest =>
    simp only [List.length_append, List.length_cons] at hfuel
    rw [readItems_block hblock]
    exact (htext _ _ (by omega) hval).ifPresent_accepted fun _ =>
      hitems _ _ _ _ hstop (by simp only [List.drop_succ_cons, List.drop_zero]; omega) hrest
  | itemRefused hblock hval =>
    simp only [List.length_append] at hfuel
    rw [readItems_block hblock]
    exact (htext _ _ (by omega) hval).ifPresent_refused
  | openRefused hopen hval =>
    rw [readItems_open hopen]
    exact (htext _ _ (by simp only [List.length_append, List.length_singleton]; omega)
      hval).ifPresent_refused
  | foreign hassert hhead =>
    obtain ⟨item, k, hne, hitem, hlen, heq⟩ := readItems_foreign fuel values hassert hstop hhead
    rw [heq]
    exact (htext _ _ (by omega) (.foreign hne (.inl hitem))).ifPresent_refused

theorem returns_read (fuel : Nat) :
    (∀ data v, 2 * data.length + 1 ≤ fuel → Readable asserts data v →
      Returns (readText asserts fuel data) v) ∧
    (∀ rest ret v, 2 * rest.length + 3 ≤ fuel → ReadableFields asserts rest v →
      Returns (readFields asserts fuel rest ret) v) ∧
    (∀ content (stop : Byte) values v, stop ≠ '{' → 2 * content.length + 4 ≤ fuel →
      ReadableItems asserts content stop v →
      Returns (readItems asserts fuel content stop values) v) := by
  induction fuel with
  | zero =>
    exact ⟨fun _ _ h => by omega, fun _ _ _ h => by omega, fun _ _ _ _ _ h => by omega⟩
  | succ fuel ih =>
    obtain ⟨htext, hfields, hitems⟩ := ih
    exact ⟨fun _ _ hf h => returns_readText_succ hfields hf h,
      fun _ _ _ hf h => returns_readFields_succ htext hfields hitems hf h,
      fun _ _ _ _ hs hf h => returns_readItems_succ htext hitems hs hf h⟩

theorem returns_readText {fuel : Nat} {data : Text} {v : Verdict}
    (hfuel : 2 * data.length + 1 ≤ fuel) (h : Readable asserts data v) :
    Returns (readText asserts fuel data) v :=
  (returns_read fuel).1 data v hfuel h

theorem returns_readItems {fuel : Nat} {content : Text} {stop : Byte} {v : Verdict}
    (values : List ResponseWrapper) (hstop : stop ≠ '{')
    (hfuel : 2 * content.length + 4 ≤ fuel) (h : ReadableItems asserts content stop v) :
    Returns (readItems asserts fuel content stop values) v :=
  (returns_read fuel).2.2 content stop values v hstop hfuel h

/-- The decoder returns on exactly the readable texts. -/
theorem fromData_returns_iff (asserts : Bool) (data : Text) :
    (∃ r, fromData asserts data = .ok r) ↔ ∃ v, Readable asserts data v := by
  rw [fromData_eq_readText]
  constructor
  · rintro ⟨r, h⟩
    exact ⟨_, readable_of_readText _ h⟩
  · rintro ⟨v, h⟩
    obtain ⟨r, hr, -⟩ := returns_readText (Nat.le_refl _) h
    exact ⟨r, hr⟩

/-- An object that is left open: the iterator moves past the end of the text. -/
theorem fromData_open_object :
    (¬ ∃ r, fromData true ("\x7ba:\x7b\x7d" : String) = .ok r) ∧
      ¬ ∃ r, fromData false ("\x7ba:\x7b\x7d" : String) = .ok r := by
  have htrap : ∀ asserts, fromData asserts ("\x7ba:\x7b\x7d" : String) = .error .outOfRange := by
    intro asserts
    cases asserts <;> rfl
  constructor
  · rintro ⟨r, hr⟩
    rw [htrap] at hr
    cases hr
  · rintro ⟨r, hr⟩
    rw [htrap] at hr
    cases hr

end Exactness

end ResponseWrapper

end WFA
