-- SUMMARY: `responseWrapper::fromData`, iterator by iterator, and the same decoder read off the text.
import WFA.Shared.Response

/-!
# The decoder

`fromData` walks two iterators through the text, searches for delimiters, and
matches brackets with a depth counter. `decode` follows it step for step, with
every iterator checked. `readText` is the same decoder as a function of the text
that is left to read: no positions, only the parts the delimiters cut it into.
`decode_eq_readText` says they agree, and it is the one place where positions
are computed with.

The recursion of `fromData` and its loops share a step budget. `readText_ne_fuel`
says that twice the length of the text is enough.
-/

namespace WFA

open Text

namespace ResponseWrapper

/-- Continue with a value that is present; pass on a missing one and a trap. -/
def ifPresent {α β : Type} (r : Exec (Option α)) (k : α → Exec (Option β)) : Exec (Option β) :=
  match r with
  | .error trap => .error trap
  | .ok none => .ok none
  | .ok (some a) => k a

@[simp] theorem ifPresent_error {α β : Type} (trap : Trap) (k : α → Exec (Option β)) :
    ifPresent (.error trap) k = .error trap := rfl

@[simp] theorem ifPresent_none {α β : Type} (k : α → Exec (Option β)) :
    ifPresent (.ok none) k = .ok none := rfl

@[simp] theorem ifPresent_some {α β : Type} (a : α) (k : α → Exec (Option β)) :
    ifPresent (.ok (some a)) k = k a := rfl

theorem ifPresent_congr {α β : Type} {r : Exec (Option α)} {k k' : α → Exec (Option β)}
    (h : ∀ a, r = .ok (some a) → k a = k' a) : ifPresent r k = ifPresent r k' := by
  match r with
  | .error _ => rfl
  | .ok none => rfl
  | .ok (some a) => exact h a rfl

/-- A result through `ifPresent` is a result of each of its stages. -/
theorem ifPresent_eq_ok {α β : Type} {r : Exec (Option α)} {k : α → Exec (Option β)}
    {res : Option β} (h : ifPresent r k = .ok res) :
    (r = .ok none ∧ res = none) ∨ ∃ a, r = .ok (some a) ∧ k a = .ok res := by
  match r with
  | .error trap => simp at h
  | .ok none => exact .inl ⟨rfl, by simpa [eq_comm] using h⟩
  | .ok (some a) => exact .inr ⟨a, rfl, h⟩

/-! ## `fromData` with iterators -/

/-- The lambda `match`. The depth starts in front of the opening bracket: the
`size_t` at its maximum rolls over to `0`, which is the step from `-1`. -/
def matchBracket (asserts : Bool) (data : Text) (first last : Nat) (opening close : Byte) :
    Exec Nat := do
  if asserts then
    let c ← deref data first
    if c ≠ opening then throw .assertion
  if first ≤ last ∧ last ≤ data.length then
    match closing opening close (-1) (slice data first last) with
    | some k => pure (first + k)
    | none => pure last
  else throw .outOfRange

/-- `left = std::next(blockEnd); if (left != end) ++left;` -/
def skipBlock (data : Text) (blockEnd last : Nat) : Exec Nat := do
  let left ← advance data blockEnd 1
  if left ≠ last then advance data left 1 else pure left

/-- The loop over an array of values, `while (add()) {}`. -/
def decodeStrings : Nat → Text → Nat → Nat → List Text → Exec (List Text)
  | 0, _, _, _, _ => throw .fuel
  | fuel + 1, data, subleft, blockEnd, values => do
    let subdiv ← find data subleft blockEnd ','
    let value ← range data subleft subdiv
    if subdiv = blockEnd then pure (values ++ [value])
    else
      let subleft ← advance data subdiv 1
      decodeStrings fuel data subleft blockEnd (values ++ [value])

mutual
/-- `fromData`, within a step budget. -/
def decode (asserts : Bool) : Nat → Text → Exec (Option ResponseWrapper)
  | 0, _ => throw .fuel
  | fuel + 1, data =>
    if data.isEmpty then pure (some empty)
    else if data.head? ≠ some ('{' : Byte) ∨ data.getLast? ≠ some ('}' : Byte) then pure none
    else decodeElements asserts fuel data 1 (data.length - 1) empty

/-- The loop `while (left != end)`. -/
def decodeElements (asserts : Bool) :
    Nat → Text → Nat → Nat → ResponseWrapper → Exec (Option ResponseWrapper)
  | 0, _, _, _, _ => throw .fuel
  | fuel + 1, data, left, last, ret =>
    if left = last then pure (some ret)
    else do
      let div ← find data left last ':'
      if div = last then
        -- no divisor found: what was found so far is the result
        pure (some ret)
      else
        let key ← view data left (div - left)
        let next ← advance data div 1
        let c ← deref data next
        if c = '{' then
          let blockEnd ← matchBracket asserts data next last '{' '}'
          let block ← view data next (blockEnd - div)
          ifPresent (decode asserts fuel block) fun val => do
            let left ← skipBlock data blockEnd last
            decodeElements asserts fuel data left last (ret.push key (.objects [val]) false)
        else if c = '[' then
          let blockEnd ← matchBracket asserts data next last '[' ']'
          let subleft ← advance data div 2
          let sub ← deref data subleft
          if sub = '{' then
            ifPresent (decodeObjects asserts fuel data subleft blockEnd []) fun values => do
              let left ← skipBlock data blockEnd last
              decodeElements asserts fuel data left last (ret.push key (.objects values) true)
          else
            let values ← decodeStrings (blockEnd - subleft + 1) data subleft blockEnd []
            let left ← skipBlock data blockEnd last
            decodeElements asserts fuel data left last (ret.push key (.strings values) true)
        else
          let blockEnd ← find data div last ','
          let value ← range data next blockEnd
          let left ← if blockEnd ≠ last then advance data blockEnd 1 else pure blockEnd
          decodeElements asserts fuel data left last (ret.push key (.strings [value]) false)

/-- The loop over an array of objects. It stops on a failed `add`, and after the
item that ends right before `blockEnd`. -/
def decodeObjects (asserts : Bool) :
    Nat → Text → Nat → Nat → List ResponseWrapper → Exec (Option (List ResponseWrapper))
  | 0, _, _, _, _ => throw .fuel
  | fuel + 1, data, subleft, blockEnd, values => do
    let subdiv ← matchBracket asserts data subleft blockEnd '{' '}'
    let item ← view data subleft (subdiv - subleft + 1)
    ifPresent (decode asserts fuel item) fun val =>
      if subdiv = blockEnd - 1 then pure (some (values ++ [val]))
      else do
        let subleft ← advance data subdiv 2
        decodeObjects asserts fuel data subleft blockEnd (values ++ [val])
end

def fromData (asserts : Bool) (data : Text) : Exec (Option ResponseWrapper) :=
  decode asserts (2 * data.length + 1) data

/-! ## The decoder on the text left to read -/

/-- The text between the first and the last byte. -/
def interior (data : Text) : Text :=
  (data.drop 1).dropLast

mutual
/-- `decode`, on a whole text. -/
def readText (asserts : Bool) : Nat → Text → Exec (Option ResponseWrapper)
  | 0, _ => .error .fuel
  | fuel + 1, data =>
    if data.isEmpty then .ok (some empty)
    else if data.head? ≠ some ('{' : Byte) ∨ data.getLast? ≠ some ('}' : Byte) then .ok none
    else readFields asserts fuel (interior data) empty

/-- `decodeElements`, on the text from `left` to the end of the object. A block
that is still open there takes the iterator past the end, unless the part that
was read has no value. -/
def readFields (asserts : Bool) :
    Nat → Text → ResponseWrapper → Exec (Option ResponseWrapper)
  | 0, _, _ => .error .fuel
  | fuel + 1, rest, ret =>
    match cut ':' rest with
    | (_, none) => .ok (some ret)
    | (key, some tail) =>
      if tail.head? = some ('{' : Byte) then
        match closing '{' '}' (-1) tail with
        | some k =>
          ifPresent (readText asserts fuel (tail.take (k + 1))) fun val =>
            readFields asserts fuel ((tail.drop (k + 1)).drop 1)
              (ret.push key (.objects [val]) false)
        | none =>
          ifPresent (readText asserts fuel (tail ++ [('}' : Byte)])) fun _ => .error .outOfRange
      else if tail.head? = some ('[' : Byte) then
        match closing '[' ']' (-1) tail with
        | some k =>
          let content := (tail.take k).drop 1
          let after := (tail.drop (k + 1)).drop 1
          if content.head? = some ('{' : Byte) then
            ifPresent (readItems asserts fuel content ']' []) fun values =>
              readFields asserts fuel after (ret.push key (.objects values) true)
          else
            readFields asserts fuel after
              (ret.push key (.strings (content.splitOn (',' : Byte))) true)
        | none =>
          if (tail.drop 1).head? = some ('{' : Byte) then
            ifPresent (readItems asserts fuel (tail.drop 1) '}' []) fun _ => .error .outOfRange
          else .error .outOfRange
      else
        readFields asserts fuel ((cut ',' tail).2.getD [])
          (ret.push key (.strings [(cut ',' tail).1]) false)

/-- `decodeObjects`, on the text from `subleft` to `blockEnd`, where the byte
`stop` stands. -/
def readItems (asserts : Bool) :
    Nat → Text → Byte → List ResponseWrapper → Exec (Option (List ResponseWrapper))
  | 0, _, _, _ => .error .fuel
  | fuel + 1, content, stop, values =>
    if asserts ∧ content.head? ≠ some ('{' : Byte) then .error .assertion
    else
      match closing '{' '}' (-1) content with
      | some k =>
        ifPresent (readText asserts fuel (content.take (k + 1))) fun val =>
          if (content.drop (k + 1)).isEmpty then .ok (some (values ++ [val]))
          else readItems asserts fuel ((content.drop (k + 1)).drop 1) stop (values ++ [val])
      | none =>
        ifPresent (readText asserts fuel (content ++ [stop])) fun _ => .error .outOfRange
end

/-! ## The two decoders agree -/

section Pieces

variable {asserts : Bool} {data a b c : Text} {first last : Nat}

theorem matchBracket_eq {o cl x : Byte} (hdata : data = a ++ (b ++ c))
    (hx : (b ++ c).head? = some x) (hfirst : first = a.length)
    (hlast : last = a.length + b.length) :
    matchBracket asserts data first last o cl =
      if asserts ∧ x ≠ o then .error .assertion
      else .ok (match closing o cl (-1) b with
        | some k => first + k
        | none => last) := by
  obtain ⟨tl, htl⟩ : ∃ tl, b ++ c = x :: tl := by
    cases hbc : b ++ c with
    | nil => simp [hbc] at hx
    | cons y tl => exact ⟨tl, by simpa [hbc] using hx⟩
  have hderef : deref data first = .ok x := deref_eq (by rw [hdata, htl]) hfirst
  have hin : first ≤ last ∧ last ≤ data.length := by
    rw [hdata]
    simp only [List.length_append]
    omega
  unfold matchBracket
  rw [hderef, if_pos hin, slice_eq hdata hfirst hlast]
  cases asserts with
  | false =>
    simp only [Bool.false_eq_true, if_false, false_and]
    cases closing o cl (-1) b <;> rfl
  | true =>
    by_cases hxo : x = o
    · subst hxo
      simp only [if_true, true_and, ne_eq, not_true_eq_false, if_false, bind, Except.bind]
      cases closing x cl (-1) b <;> rfl
    · simp [hxo, bind, Except.bind, throw, throwThe, MonadExceptOf.throw]

/-- After a block that is closed, the separator is skipped when there is one. -/
theorem skipBlock_eq {x : Byte} (hdata : data = a ++ (x :: (b ++ c))) (hc : c ≠ [])
    (hfirst : first = a.length) (hlast : last = a.length + 1 + b.length) :
    skipBlock data first last = .ok (last - (b.drop 1).length) := by
  have hpos : 0 < c.length := List.length_pos_iff.mpr hc
  have hlen : data.length = a.length + 1 + b.length + c.length := by
    rw [hdata]
    simp only [List.length_append, List.length_cons]
    omega
  unfold skipBlock
  rw [advance_le (by omega)]
  by_cases hb : b = []
  · subst hb
    have heq : first + 1 = last := by
      simp only [List.length_nil] at hlast
      omega
    simp only [bind, Except.bind, heq, ne_eq, not_true_eq_false, if_false]
    rfl
  · have hbpos : 0 < b.length := List.length_pos_iff.mpr hb
    have hne : first + 1 ≠ last := by omega
    simp only [bind, Except.bind, hne, ne_eq, not_false_eq_true, if_true, List.length_drop]
    rw [advance_le (by omega)]
    congr 1
    omega

/-- A block that is open at the end of the object takes the iterator past the
end of the text. -/
theorem skipBlock_end (hlast : last + 1 = data.length) :
    skipBlock data last last = .error .outOfRange := by
  have hne : last + 1 ≠ last := by omega
  unfold skipBlock
  rw [advance_le (by omega)]
  simp only [bind, Except.bind, hne, ne_eq, not_false_eq_true, if_true]
  exact advance_gt (by omega)

theorem decodeStrings_eq {fuel : Nat} {values : List Text} (hdata : data = a ++ (b ++ c))
    (hfuel : b.length + 1 ≤ fuel) (hfirst : first = a.length)
    (hlast : last = a.length + b.length) :
    decodeStrings fuel data first last values = .ok (values ++ b.splitOn (',' : Byte)) := by
  -- induction on the budget: each turn reads up to one more comma
  induction fuel generalizing a b first values with
  | zero => omega
  | succ fuel ih =>
    unfold decodeStrings
    rw [find_eq hdata hfirst hlast]
    rcases mem_cases ',' b with hmem | ⟨v, t, rfl, hmem⟩
    · rw [indexOf_of_not_mem hmem, splitOn_of_not_mem hmem]
      simp only [bind, Except.bind]
      rw [range_eq hdata hfirst (by omega)]
      have heq : first + b.length = last := by omega
      simp only [heq, if_true]
      rfl
    · have hhere : data = a ++ (v ++ ((',' : Byte) :: (t ++ c))) := by simp [hdata]
      have hnext : data = (a ++ v ++ [(',' : Byte)]) ++ (t ++ c) := by simp [hdata]
      have hpre : (a ++ v ++ [(',' : Byte)]).length = a.length + v.length + 1 := by
        simp [add_assoc]
      have hlen : last + c.length = data.length := by
        simp [hdata, hlast]
        omega
      simp only [List.length_append, List.length_cons] at hlast hfuel
      have hne : first + v.length ≠ last := by omega
      rw [indexOf_append hmem, splitOn_append hmem]
      simp only [bind, Except.bind]
      rw [range_eq hhere hfirst (by omega)]
      simp only [hne, if_false]
      rw [advance_le (by omega)]
      simp only []
      rw [ih hnext (by omega) (by omega) (by omega)]
      simp only [List.append_assoc, List.singleton_append]

end Pieces

/-- A text in braces is its interior in braces. -/
theorem braces_interior {data : Text} (hhead : data.head? = some ('{' : Byte))
    (hlast : data.getLast? = some ('}' : Byte)) :
    data = ('{' : Byte) :: (interior data ++ [('}' : Byte)]) := by
  obtain ⟨tl, rfl⟩ : ∃ tl, data = ('{' : Byte) :: tl := by
    cases data with
    | nil => simp at hhead
    | cons x tl => exact ⟨tl, by simpa using hhead⟩
  have htl : tl ≠ [] := by
    rintro rfl
    simp +decide at hlast
  rw [List.getLast?_cons_of_ne_nil htl] at hlast
  obtain ⟨init, rfl⟩ : ∃ init, tl = init ++ [('}' : Byte)] :=
    List.getLast?_eq_some_iff.mp hlast
  simp [interior]

section Agreement

variable (asserts : Bool)

/-- Within `fuel` steps, the decoder agrees with the reader on every text. -/
def AgreeText (fuel : Nat) : Prop :=
  ∀ data, decode asserts fuel data = readText asserts fuel data

/-- The element loop agrees with the reader of the text it still has in front. -/
def AgreeFields (fuel : Nat) : Prop :=
  ∀ (data pre rest : Text) (left last : Nat) (ret : ResponseWrapper),
    data = pre ++ (rest ++ [('}' : Byte)]) → left = pre.length → last = pre.length + rest.length →
    decodeElements asserts fuel data left last ret = readFields asserts fuel rest ret

/-- The item loop agrees with the reader of the items it still has in front. The
range ends at the array's `]`, or at the end of the object. -/
def AgreeItems (fuel : Nat) : Prop :=
  ∀ (data pre content post : Text) (stop : Byte) (subleft blockEnd : Nat)
    (values : List ResponseWrapper),
    data = pre ++ (content ++ stop :: post) → pre ≠ [] →
    (stop = ']' ∨ stop = '}' ∧ post = []) →
    subleft = pre.length → blockEnd = pre.length + content.length →
    decodeObjects asserts fuel data subleft blockEnd values =
      readItems asserts fuel content stop values

variable {asserts} {fuel : Nat}

theorem agreeText_succ (hfields : AgreeFields asserts fuel) : AgreeText asserts (fuel + 1) := by
  intro data
  unfold decode readText
  by_cases hempty : data.isEmpty
  · simp only [hempty, if_true]
    rfl
  · by_cases hbraces : data.head? ≠ some ('{' : Byte) ∨ data.getLast? ≠ some ('}' : Byte)
    · simp only [hempty, hbraces, if_true]
      rfl
    · simp only [hempty, hbraces, if_false]
      rw [not_or, not_not, not_not] at hbraces
      have hdata := braces_interior hbraces.1 hbraces.2
      have hlen : data.length = (interior data).length + 2 := by
        conv_lhs => rw [hdata]
        simp
      exact hfields data [('{' : Byte)] (interior data) 1 (data.length - 1) empty hdata rfl
        (by simp only [List.length_singleton]; omega)

/-- Behind a block that is closed, the element loop resumes on the rest. -/
theorem agree_resume (hfields : AgreeFields asserts fuel) {data pre v : Text} {x : Byte}
    {blockEnd last : Nat} {ret : ResponseWrapper}
    (hdata : data = pre ++ (x :: (v ++ [('}' : Byte)]))) (hblock : blockEnd = pre.length)
    (hlast : last = pre.length + 1 + v.length) :
    (skipBlock data blockEnd last >>= fun left =>
      decodeElements asserts fuel data left last ret) =
      readFields asserts fuel (v.drop 1) ret := by
  have hrest : data = (pre ++ x :: v.take 1) ++ (v.drop 1 ++ [('}' : Byte)]) := by
    rw [hdata]
    conv_lhs => rw [← List.take_append_drop 1 v]
    simp
  rw [skipBlock_eq hdata (by simp) hblock hlast]
  refine hfields data _ _ _ _ _ hrest ?_ ?_
  · simp only [List.length_append, List.length_cons, List.length_take, List.length_drop]
    omega
  · simp only [List.length_append, List.length_cons, List.length_take, List.length_drop]
    omega

/-- The byte the array branch looks at: the first item of the content, or the
byte that ends it. -/
theorem deref_content {data pre content post : Text} {stop : Byte} {it : Nat}
    (hdata : data = pre ++ (content ++ stop :: post)) (hstop : stop ≠ '{')
    (hit : it = pre.length) :
    ∃ x, deref data it = .ok x ∧ (x = '{' ↔ content.head? = some ('{' : Byte)) := by
  cases content with
  | nil => exact ⟨stop, deref_eq hdata hit, by simp [hstop]⟩
  | cons x content => exact ⟨x, deref_eq hdata hit, by simp⟩

section Tail

/- The element loop has found a key: `pre` ends with its `:`, and `tail` is what
is left of the object. -/

variable {data pre tail key : Text} {div next last : Nat} {ret : ResponseWrapper}

theorem agree_object (htext : AgreeText asserts fuel) (hfields : AgreeFields asserts fuel)
    (hdata : data = pre ++ (tail ++ [('}' : Byte)])) (hhead : tail.head? = some ('{' : Byte))
    (hdiv : div + 1 = pre.length) (hnext : next = pre.length)
    (hlast : last = pre.length + tail.length) :
    (do
      let blockEnd ← matchBracket asserts data next last '{' '}'
      let block ← view data next (blockEnd - div)
      ifPresent (decode asserts fuel block) fun val => do
        let left ← skipBlock data blockEnd last
        decodeElements asserts fuel data left last (ret.push key (.objects [val]) false)) =
      match closing '{' '}' (-1) tail with
      | some k =>
        ifPresent (readText asserts fuel (tail.take (k + 1))) fun val =>
          readFields asserts fuel ((tail.drop (k + 1)).drop 1)
            (ret.push key (.objects [val]) false)
      | none =>
        ifPresent (readText asserts fuel (tail ++ [('}' : Byte)])) fun _ =>
          .error .outOfRange := by
  have hx : (tail ++ [('}' : Byte)]).head? = some ('{' : Byte) := by simp [hhead]
  rw [matchBracket_eq hdata hx hnext hlast, if_neg (by simp)]
  simp only [bind, Except.bind]
  cases hclose : closing '{' '}' (-1) tail with
  | some k =>
    obtain ⟨u, v, rfl, rfl⟩ := closing_spec (by decide) hclose
    have hblock : data = pre ++ ((u ++ [('}' : Byte)]) ++ (v ++ [('}' : Byte)])) := by
      simp [hdata]
    have hafter : data = (pre ++ u) ++ (('}' : Byte) :: (v ++ [('}' : Byte)])) := by simp [hdata]
    have htake : (u ++ ('}' : Byte) :: v).take (u.length + 1) = u ++ [('}' : Byte)] := by
      simp [List.take_append]
    have hdrop : (u ++ ('}' : Byte) :: v).drop (u.length + 1) = v := by
      simp [List.drop_append]
    simp only [htake, hdrop]
    rw [view_eq hblock (by simp) hnext (by simp; omega)]
    simp only []
    rw [htext]
    apply ifPresent_congr
    intro val _
    exact agree_resume hfields hafter (by simp [hnext])
      (by simp only [hlast, List.length_append, List.length_cons]; omega)
  | none =>
    have hblock : data = pre ++ ((tail ++ [('}' : Byte)]) ++ []) := by simp [hdata]
    have hend : last + 1 = data.length := by simp [hdata, hlast, add_assoc]
    simp only []
    rw [view_eq hblock (by simp) hnext (by simp; omega)]
    simp only []
    rw [htext]
    apply ifPresent_congr
    intro val _
    rw [skipBlock_end hend]

theorem agree_array (hfields : AgreeFields asserts fuel) (hitems : AgreeItems asserts fuel)
    (hdata : data = pre ++ (tail ++ [('}' : Byte)])) (hhead : tail.head? = some ('[' : Byte))
    (hdiv : div + 1 = pre.length) (hnext : next = pre.length)
    (hlast : last = pre.length + tail.length) :
    (do
      let blockEnd ← matchBracket asserts data next last '[' ']'
      let subleft ← advance data div 2
      let sub ← deref data subleft
      if sub = '{' then
        ifPresent (decodeObjects asserts fuel data subleft blockEnd []) fun values => do
          let left ← skipBlock data blockEnd last
          decodeElements asserts fuel data left last (ret.push key (.objects values) true)
      else
        let values ← decodeStrings (blockEnd - subleft + 1) data subleft blockEnd []
        let left ← skipBlock data blockEnd last
        decodeElements asserts fuel data left last (ret.push key (.strings values) true)) =
      match closing '[' ']' (-1) tail with
      | some k =>
        let content := (tail.take k).drop 1
        let after := (tail.drop (k + 1)).drop 1
        if content.head? = some ('{' : Byte) then
          ifPresent (readItems asserts fuel content ']' []) fun values =>
            readFields asserts fuel after (ret.push key (.objects values) true)
        else
          readFields asserts fuel after
            (ret.push key (.strings (content.splitOn (',' : Byte))) true)
      | none =>
        if (tail.drop 1).head? = some ('{' : Byte) then
          ifPresent (readItems asserts fuel (tail.drop 1) '}' []) fun _ => .error .outOfRange
        else .error .outOfRange := by
  obtain ⟨inner, rfl⟩ : ∃ inner, tail = ('[' : Byte) :: inner := by
    cases tail with
    | nil => simp at hhead
    | cons x inner => exact ⟨inner, by simpa using hhead⟩
  have hx : (('[' : Byte) :: inner ++ [('}' : Byte)]).head? = some ('[' : Byte) := rfl
  have hend : last + 1 = data.length := by
    simp [hdata, hlast]
    omega
  simp only [List.length_cons] at hlast
  have hsub : div + 2 = (pre ++ [('[' : Byte)]).length := by simp; omega
  rw [matchBracket_eq hdata hx hnext (by simp [hlast]), if_neg (by simp),
    advance_le (by omega)]
  simp only [bind, Except.bind]
  cases hclose : closing '[' ']' (-1) (('[' : Byte) :: inner) with
  | some k =>
    obtain ⟨u, v, hsplit, rfl⟩ := closing_spec (by decide) hclose
    -- the closing bracket is not the opening one, so the content lies between them
    obtain ⟨content, rfl⟩ : ∃ content, u = ('[' : Byte) :: content := by
      cases u with
      | nil => simp +decide at hsplit
      | cons x content => exact ⟨content, by simpa using congrArg List.head? hsplit.symm⟩
    obtain rfl : inner = content ++ (']' : Byte) :: v := by simpa using hsplit
    have hcontent : data = (pre ++ [('[' : Byte)]) ++
        (content ++ (']' : Byte) :: (v ++ [('}' : Byte)])) := by simp [hdata]
    have hafter : data = (pre ++ ('[' : Byte) :: content) ++
        ((']' : Byte) :: (v ++ [('}' : Byte)])) := by simp [hdata]
    have htake : ((('[' : Byte) :: (content ++ (']' : Byte) :: v)).take
        (('[' : Byte) :: content).length).drop 1 = content := by simp
    have hdrop : (('[' : Byte) :: (content ++ (']' : Byte) :: v)).drop
        ((('[' : Byte) :: content).length + 1) = v := by simp [List.drop_append]
    simp only [List.length_append, List.length_cons] at hlast
    have hresume : ∀ ret', (skipBlock data (next + (('[' : Byte) :: content).length) last >>=
        fun left => decodeElements asserts fuel data left last ret') =
          readFields asserts fuel (v.drop 1) ret' := fun ret' =>
      agree_resume hfields hafter (by simp [hnext])
        (by simp only [List.length_append, List.length_cons]; omega)
    simp only [htake, hdrop]
    obtain ⟨x, hderef, hiff⟩ := deref_content hcontent (by decide) hsub
    rw [hderef]
    simp only [hiff]
    split
    · rw [hitems data _ content _ ']' _ _ [] hcontent (by simp) (.inl rfl) hsub
        (by simp [hnext]; omega)]
      apply ifPresent_congr
      intro values _
      exact hresume _
    · rw [decodeStrings_eq hcontent (by simp; omega) hsub (by simp [hnext]; omega)]
      exact hresume _
  | none =>
    have hcontent : data = (pre ++ [('[' : Byte)]) ++ (inner ++ ('}' : Byte) :: []) := by
      simp [hdata]
    have hblock : last = (pre ++ [('[' : Byte)]).length + inner.length := by
      simp only [List.length_append, List.length_singleton]
      omega
    obtain ⟨x, hderef, hiff⟩ := deref_content hcontent (by decide) hsub
    simp only []
    rw [hderef]
    simp only [hiff, List.drop_succ_cons, List.drop_zero]
    split
    · rw [hitems data _ inner [] '}' _ _ [] hcontent (by simp) (.inr ⟨rfl, rfl⟩) hsub hblock]
      apply ifPresent_congr
      intro values _
      rw [skipBlock_end hend]
    · rw [decodeStrings_eq hcontent (by omega) hsub hblock]
      simp only []
      rw [skipBlock_end hend]

theorem agree_scalar (hfields : AgreeFields asserts fuel)
    (hdata : data = pre ++ (tail ++ [('}' : Byte)])) (hpre : pre.getLast? = some (':' : Byte))
    (hdiv : div + 1 = pre.length) (hnext : next = pre.length)
    (hlast : last = pre.length + tail.length) :
    (do
      let blockEnd ← find data div last ','
      let value ← range data next blockEnd
      let left ← if blockEnd ≠ last then advance data blockEnd 1 else pure blockEnd
      decodeElements asserts fuel data left last (ret.push key (.strings [value]) false)) =
      readFields asserts fuel ((cut ',' tail).2.getD [])
        (ret.push key (.strings [(cut ',' tail).1]) false) := by
  -- the search starts at the `:`, which is not a comma
  obtain ⟨pre', rfl⟩ := List.getLast?_eq_some_iff.mp hpre
  simp only [List.length_append, List.length_singleton] at hdiv hnext hlast
  have hfind : data = pre' ++ ((':' : Byte) :: tail ++ [('}' : Byte)]) := by simp [hdata]
  rw [find_eq hfind (by omega) (by simp [hlast]; omega)]
  simp only [bind, Except.bind]
  rcases mem_cases ',' tail with hmem | ⟨value, rest, rfl, hmem⟩
  · have hcomma : (',' : Byte) ∉ (':' : Byte) :: tail := by
      simp only [List.mem_cons, not_or]
      exact ⟨by decide, hmem⟩
    have hstop : div + ((':' : Byte) :: tail).length = last := by
      simp only [List.length_cons]
      omega
    rw [indexOf_of_not_mem hcomma, cut_of_not_mem hmem, hstop,
      range_eq hdata (by simp [hnext]) (by simp [hlast])]
    simp only [ne_eq, not_true_eq_false, if_false]
    refine hfields data (pre' ++ [(':' : Byte)] ++ tail) [] _ _ _ (by simp [hdata]) ?_ ?_
    · simp only [List.length_append, List.length_singleton]
      omega
    · simp only [List.length_append, List.length_singleton, List.length_nil]
      omega
  · have hcomma : (',' : Byte) ∉ (':' : Byte) :: value := by
      simp only [List.mem_cons, not_or]
      exact ⟨by decide, hmem⟩
    have hrange : data = (pre' ++ [(':' : Byte)]) ++
        (value ++ ((',' : Byte) :: (rest ++ [('}' : Byte)]))) := by simp [hdata]
    have hrest : data = (pre' ++ [(':' : Byte)] ++ value ++ [(',' : Byte)]) ++
        (rest ++ [('}' : Byte)]) := by simp [hdata]
    have hlen : data.length = last + 1 := by
      simp [hdata, hlast]
      omega
    simp only [List.length_append, List.length_cons] at hlast
    have hindex : indexOf ',' ((':' : Byte) :: (value ++ (',' : Byte) :: rest)) =
        value.length + 1 := indexOf_append hcomma
    have hne : div + (value.length + 1) ≠ last := by omega
    rw [hindex, cut_append hmem, range_eq hrange (by simp [hnext]) (by simp; omega)]
    simp only [ne_eq, hne, not_false_eq_true, if_true]
    rw [advance_le (by omega)]
    refine hfields data _ rest _ _ _ hrest ?_ ?_
    · simp only [List.length_append, List.length_singleton]
      omega
    · simp only [List.length_append, List.length_singleton]
      omega

end Tail

theorem agreeFields_succ (htext : AgreeText asserts fuel) (hfields : AgreeFields asserts fuel)
    (hitems : AgreeItems asserts fuel) : AgreeFields asserts (fuel + 1) := by
  intro data pre rest left last ret hdata hleft hlast
  unfold decodeElements readFields
  rcases mem_cases ':' rest with hmem | ⟨key, tail, rfl, hmem⟩
  · rw [cut_of_not_mem hmem]
    by_cases heq : left = last
    · simp only [heq, if_true]
      rfl
    · rw [find_eq hdata hleft hlast, indexOf_of_not_mem hmem]
      have hstop : left + rest.length = last := by omega
      simp only [heq, if_false, bind, Except.bind, hstop, if_true]
      rfl
  · have hkey : data = pre ++ (key ++ ((':' : Byte) :: (tail ++ [('}' : Byte)]))) := by
      simp [hdata]
    have htail : data = (pre ++ key ++ [(':' : Byte)]) ++ (tail ++ [('}' : Byte)]) := by
      simp [hdata]
    have hlen : data.length = last + 1 := by
      simp [hdata, hlast]
      omega
    simp only [List.length_append, List.length_cons] at hlast
    have hne : left ≠ last := by omega
    have hdiv : left + key.length ≠ last := by omega
    have hnext : left + key.length + 1 = (pre ++ key ++ [(':' : Byte)]).length := by
      simp only [List.length_append, List.length_singleton]
      omega
    have hend : last = (pre ++ key ++ [(':' : Byte)]).length + tail.length := by omega
    have hview : view data left (left + key.length - left) = .ok key :=
      view_eq hkey (by simp) hleft (by omega)
    rw [find_eq hdata hleft (by simp; omega), indexOf_append hmem, cut_append hmem]
    simp only [hne, if_false, bind, Except.bind, hdiv]
    rw [hview]
    simp only []
    rw [advance_le (by omega)]
    simp only []
    cases tail with
    | nil =>
      have hderef : deref data (left + key.length + 1) = .ok ('}' : Byte) := deref_eq htail hnext
      rw [hderef]
      simp only [List.head?_nil, reduceCtorEq, if_false]
      have hopen : ¬ ('}' : Byte) = '{' := by decide
      have harr : ¬ ('}' : Byte) = '[' := by decide
      simp only [hopen, harr, if_false]
      exact agree_scalar hfields htail (by simp) hnext hnext hend
    | cons x tail =>
      have hderef : deref data (left + key.length + 1) = .ok x := deref_eq htail hnext
      rw [hderef]
      simp only [List.head?_cons, Option.some.injEq]
      split
      · rename_i hx
        exact agree_object htext hfields htail (by simp [hx]) hnext hnext hend
      · split
        · rename_i hx
          exact agree_array hfields hitems htail (by simp [hx]) hnext hnext hend
        · exact agree_scalar hfields htail (by simp) hnext hnext hend

theorem readText_none {data : Text} (hlast : data.getLast? ≠ some ('}' : Byte)) (hne : data ≠ []) :
    readText asserts (fuel + 1) data = .ok none := by
  unfold readText
  simp [hlast, hne]

theorem agreeItems_succ (htext : AgreeText asserts fuel) (hitems : AgreeItems asserts fuel) :
    AgreeItems asserts (fuel + 1) := by
  intro data pre content post stop subleft blockEnd values hdata hpre hstop hsubleft hblockEnd
  have hpos : 0 < pre.length := List.length_pos_iff.mpr hpre
  have hstop' : stop ≠ '{' := by
    rcases hstop with rfl | ⟨rfl, -⟩ <;> decide
  unfold decodeObjects readItems
  obtain ⟨x, hx, hiff⟩ : ∃ x, (content ++ stop :: post).head? = some x ∧
      (x = '{' ↔ content.head? = some ('{' : Byte)) := by
    cases content with
    | nil => exact ⟨stop, by simp, by simp [hstop']⟩
    | cons y content => exact ⟨y, by simp, by simp⟩
  rw [matchBracket_eq hdata hx hsubleft hblockEnd]
  simp only [ne_eq, hiff]
  split
  · rfl
  · simp only [bind, Except.bind]
    cases hclose : closing '{' '}' (-1) content with
    | some k =>
      obtain ⟨u, v, rfl, rfl⟩ := closing_spec (by decide) hclose
      have hitem : data = pre ++ ((u ++ [('}' : Byte)]) ++ (v ++ stop :: post)) := by
        simp [hdata]
      have htake : (u ++ ('}' : Byte) :: v).take (u.length + 1) = u ++ [('}' : Byte)] := by
        simp [List.take_append]
      have hdrop : (u ++ ('}' : Byte) :: v).drop (u.length + 1) = v := by simp [List.drop_append]
      simp only [List.length_append, List.length_cons] at hblockEnd
      simp only [htake, hdrop]
      rw [view_eq hitem (by simp) hsubleft (by simp)]
      simp only []
      rw [htext]
      apply ifPresent_congr
      intro val _
      cases v with
      | nil =>
        have heq : subleft + u.length = blockEnd - 1 := by
          simp only [List.length_nil] at hblockEnd
          omega
        simp only [heq, if_true, List.isEmpty_nil]
        rfl
      | cons y v =>
        have hrest : data = (pre ++ u ++ [('}' : Byte), y]) ++ (v ++ stop :: post) := by
          simp [hdata]
        simp only [List.length_cons] at hblockEnd
        have hne : ¬ subleft + u.length = blockEnd - 1 := by omega
        simp only [hne, if_false, List.isEmpty_cons, Bool.false_eq_true, List.drop_succ_cons,
          List.drop_zero]
        rw [advance_le (by simp [hdata]; omega)]
        refine hitems data _ v post stop _ _ _ hrest (by simp) hstop ?_ ?_
        · simp only [List.length_append, List.length_cons, List.length_nil]
          omega
        · simp only [List.length_append, List.length_cons, List.length_nil]
          omega
    | none =>
      have hitem : data = pre ++ ((content ++ [stop]) ++ post) := by simp [hdata]
      simp only []
      rw [view_eq hitem (by simp) hsubleft (by simp; omega)]
      simp only []
      rw [htext]
      apply ifPresent_congr
      intro val hval
      -- an item that is open at the array's `]` has no value
      rcases hstop with rfl | ⟨rfl, rfl⟩
      · cases fuel with
        | zero => simp [readText] at hval
        | succ fuel =>
          rw [readText_none (by simp +decide) (by simp)] at hval
          simp at hval
      · have hne : ¬ blockEnd = blockEnd - 1 := by omega
        simp only [hne, if_false]
        rw [advance_gt (by simp [hdata]; omega)]

/-- The decoder is the reader. -/
theorem decode_eq_readText (asserts : Bool) (fuel : Nat) (data : Text) :
    decode asserts fuel data = readText asserts fuel data := by
  have hall : AgreeText asserts fuel ∧ AgreeFields asserts fuel ∧ AgreeItems asserts fuel := by
    induction fuel with
    | zero =>
      refine ⟨?_, ?_, ?_⟩
      · intro data
        rfl
      · intro data pre rest left last ret _ _ _
        rfl
      · intro data pre content post stop subleft blockEnd values _ _ _ _ _
        rfl
    | succ fuel ih =>
      obtain ⟨htext, hfields, hitems⟩ := ih
      exact ⟨agreeText_succ hfields, agreeFields_succ htext hfields hitems,
        agreeItems_succ htext hitems⟩
  exact hall.1 data

theorem fromData_eq_readText (asserts : Bool) (data : Text) :
    fromData asserts data = readText asserts (2 * data.length + 1) data :=
  decode_eq_readText asserts _ data

end Agreement

/-! ## Equations of the reader

One equation for each shape of the text in front. -/

section Equations

variable {asserts : Bool} {fuel : Nat} {key value content block after rest tail body : Text}
  {stop sep : Byte} {ret : ResponseWrapper} {values : List ResponseWrapper}

/-- A text that starts neither an object nor an array. -/
def Scalar (value : Text) : Prop :=
  value.head? ≠ some ('{' : Byte) ∧ value.head? ≠ some ('[' : Byte)

theorem interior_braces (body : Text) :
    interior (('{' : Byte) :: (body ++ [('}' : Byte)])) = body := by
  simp [interior]

theorem readText_braces : readText asserts (fuel + 1) (('{' : Byte) :: (body ++ [('}' : Byte)])) =
    readFields asserts fuel body empty := by
  have hlast : (('{' : Byte) :: (body ++ [('}' : Byte)])).getLast? = some ('}' : Byte) :=
    List.getLast?_eq_some_iff.mpr ⟨('{' : Byte) :: body, rfl⟩
  unfold readText
  rw [interior_braces]
  simp [hlast]

theorem readText_foreign (hne : tail ≠ [])
    (h : tail.head? ≠ some ('{' : Byte) ∨ tail.getLast? ≠ some ('}' : Byte)) :
    readText asserts (fuel + 1) tail = .ok none := by
  have hempty : tail.isEmpty = false := by simpa using hne
  unfold readText
  rw [hempty, if_neg (by simp), if_pos h]

theorem readFields_noKey (h : (':' : Byte) ∉ rest) :
    readFields asserts (fuel + 1) rest ret = .ok (some ret) := by
  rw [readFields, cut_of_not_mem h]

theorem readFields_scalar (hkey : (':' : Byte) ∉ key) (hvalue : (',' : Byte) ∉ value)
    (hscalar : Scalar value) :
    readFields asserts (fuel + 1) (key ++ (':' : Byte) :: (value ++ (',' : Byte) :: rest)) ret =
      readFields asserts fuel rest (ret.push key (.strings [value]) false) := by
  have hhead : Scalar (value ++ (',' : Byte) :: rest) := by
    cases value with
    | nil => exact ⟨by simp +decide, by simp +decide⟩
    | cons x value => exact hscalar
  rw [readFields, cut_append hkey]
  simp only [hhead.1, hhead.2, if_false, cut_append hvalue, Option.getD_some]

theorem readFields_lastScalar (hkey : (':' : Byte) ∉ key) (hvalue : (',' : Byte) ∉ value)
    (hscalar : Scalar value) :
    readFields asserts (fuel + 1) (key ++ (':' : Byte) :: value) ret =
      readFields asserts fuel [] (ret.push key (.strings [value]) false) := by
  rw [readFields, cut_append hkey]
  simp only [hscalar.1, hscalar.2, if_false, cut_of_not_mem hvalue, Option.getD_none]

/-- A closed block in front, its length and what it leaves. -/
private theorem closed_front {o c : Byte} (after : Text) (hoc : o ≠ c) (h : Closed o c block) :
    (block ++ after).head? = some o ∧
      closing o c (-1) (block ++ after) = some (block.length - 1) ∧
      (block ++ after).take (block.length - 1 + 1) = block ∧
      (block ++ after).drop (block.length - 1 + 1) = after := by
  have hpos : block.length - 1 + 1 = block.length := by
    have := closing_lt hoc h.2
    omega
  refine ⟨?_, h.closing_append after hoc, ?_, ?_⟩
  · simp [h.1]
  · rw [hpos, List.take_left' rfl]
  · rw [hpos, List.drop_left' rfl]

theorem readFields_object (hkey : (':' : Byte) ∉ key) (hblock : Closed '{' '}' block) :
    readFields asserts (fuel + 1) (key ++ (':' : Byte) :: (block ++ after)) ret =
      ifPresent (readText asserts fuel block) fun val =>
        readFields asserts fuel (after.drop 1) (ret.push key (.objects [val]) false) := by
  obtain ⟨hhead, hclose, htake, hdrop⟩ := closed_front after (by decide) hblock
  rw [readFields, cut_append hkey]
  simp only [hhead, if_true, hclose, htake, hdrop]

theorem readFields_openObject (hkey : (':' : Byte) ∉ key) (htail : Unclosed '{' '}' tail) :
    readFields asserts (fuel + 1) (key ++ (':' : Byte) :: tail) ret =
      ifPresent (readText asserts fuel (tail ++ [('}' : Byte)])) fun _ => .error .outOfRange := by
  rw [readFields, cut_append hkey]
  simp only [htail.1, if_true, htail.2]

/-- A closed array in front, with its content. -/
private theorem closed_array (after : Text)
    (h : Closed '[' ']' (('[' : Byte) :: (content ++ [(']' : Byte)]))) :
    closing '[' ']' (-1) (('[' : Byte) :: (content ++ (']' : Byte) :: after)) =
        some (content.length + 1) ∧
      ((('[' : Byte) :: (content ++ (']' : Byte) :: after)).take (content.length + 1)).drop 1 =
        content ∧
      (('[' : Byte) :: (content ++ (']' : Byte) :: after)).drop (content.length + 1 + 1) =
        after := by
  refine ⟨?_, by simp, by simp [List.drop_append]⟩
  have := h.closing_append after (by decide)
  simpa using this

theorem readFields_strings (hkey : (':' : Byte) ∉ key)
    (hblock : Closed '[' ']' (('[' : Byte) :: (content ++ [(']' : Byte)])))
    (hcontent : content.head? ≠ some ('{' : Byte)) :
    readFields asserts (fuel + 1)
        (key ++ (':' : Byte) :: (('[' : Byte) :: (content ++ (']' : Byte) :: after))) ret =
      readFields asserts fuel (after.drop 1)
        (ret.push key (.strings (content.splitOn (',' : Byte))) true) := by
  obtain ⟨hclose, htake, hdrop⟩ := closed_array after hblock
  have hobject : ¬ some ('[' : Byte) = some ('{' : Byte) := by decide
  rw [readFields, cut_append hkey]
  simp only [List.head?_cons, hobject, if_false, if_true, hclose, htake, hdrop, hcontent]

theorem readFields_objects (hkey : (':' : Byte) ∉ key)
    (hblock : Closed '[' ']' (('[' : Byte) :: (content ++ [(']' : Byte)])))
    (hcontent : content.head? = some ('{' : Byte)) :
    readFields asserts (fuel + 1)
        (key ++ (':' : Byte) :: (('[' : Byte) :: (content ++ (']' : Byte) :: after))) ret =
      ifPresent (readItems asserts fuel content ']' []) fun values =>
        readFields asserts fuel (after.drop 1) (ret.push key (.objects values) true) := by
  obtain ⟨hclose, htake, hdrop⟩ := closed_array after hblock
  have hobject : ¬ some ('[' : Byte) = some ('{' : Byte) := by decide
  rw [readFields, cut_append hkey]
  simp only [List.head?_cons, hobject, if_false, if_true, hclose, htake, hdrop, hcontent]

theorem readFields_openArray (hkey : (':' : Byte) ∉ key)
    (htail : Unclosed '[' ']' (('[' : Byte) :: content)) :
    readFields asserts (fuel + 1) (key ++ (':' : Byte) :: (('[' : Byte) :: content)) ret =
      if content.head? = some ('{' : Byte) then
        ifPresent (readItems asserts fuel content '}' []) fun _ => .error .outOfRange
      else .error .outOfRange := by
  have hobject : ¬ some ('[' : Byte) = some ('{' : Byte) := by decide
  rw [readFields, cut_append hkey]
  simp only [List.head?_cons, hobject, if_false, if_true, htail.2, List.drop_succ_cons,
    List.drop_zero]

theorem readItems_block (hblock : Closed '{' '}' block) :
    readItems asserts (fuel + 1) (block ++ after) stop values =
      ifPresent (readText asserts fuel block) fun val =>
        if after.isEmpty then .ok (some (values ++ [val]))
        else readItems asserts fuel (after.drop 1) stop (values ++ [val]) := by
  obtain ⟨hhead, hclose, htake, hdrop⟩ := closed_front after (by decide) hblock
  rw [readItems, if_neg (by simp [hhead])]
  simp only [hclose, htake, hdrop]

theorem readItems_open (hcontent : Unclosed '{' '}' content) :
    readItems asserts (fuel + 1) content stop values =
      ifPresent (readText asserts fuel (content ++ [stop])) fun _ => .error .outOfRange := by
  rw [readItems, if_neg (by simp [hcontent.1])]
  simp only [hcontent.2]

end Equations

/-! ## The step budget -/

section Fuel

variable {asserts : Bool}

theorem ifPresent_ne_fuel {α β : Type} {r : Exec (Option α)} {k : α → Exec (Option β)}
    (hr : r ≠ .error .fuel) (hk : ∀ a, k a ≠ .error .fuel) : ifPresent r k ≠ .error .fuel := by
  match r with
  | .error trap => simpa using hr
  | .ok none => simp
  | .ok (some a) => exact hk a

theorem readText_succ_ne_fuel {fuel : Nat} {data : Text} (h : 2 * data.length + 1 ≤ fuel + 1)
    (hfields : ∀ rest ret, 2 * rest.length + 3 ≤ fuel → readFields asserts fuel rest ret ≠ .error .fuel) :
    readText asserts (fuel + 1) data ≠ .error .fuel := by
  unfold readText
  split
  · simp
  · split
    · simp
    · rename_i hempty hbraces
      rw [not_or, not_not, not_not] at hbraces
      have hlen := congrArg List.length (braces_interior hbraces.1 hbraces.2)
      simp only [List.length_cons, List.length_append, List.length_nil] at hlen
      exact hfields _ _ (by omega)

theorem readFields_succ_ne_fuel {fuel : Nat} {rest : Text} {ret : ResponseWrapper}
    (h : 2 * rest.length + 3 ≤ fuel + 1)
    (htext : ∀ data, 2 * data.length + 1 ≤ fuel → readText asserts fuel data ≠ .error .fuel)
    (hfields : ∀ rest ret, 2 * rest.length + 3 ≤ fuel → readFields asserts fuel rest ret ≠ .error .fuel)
    (hitems : ∀ content stop values, 2 * content.length + 4 ≤ fuel →
      readItems asserts fuel content stop values ≠ .error .fuel) :
    readFields asserts (fuel + 1) rest ret ≠ .error .fuel := by
  unfold readFields
  split
  · simp
  · rename_i key tail hcut
    have hlen := cut_length hcut
    split
    · split
      · refine ifPresent_ne_fuel (htext _ ?_) (fun _ => hfields _ _ ?_)
        · simp only [List.length_take]
          omega
        · simp only [List.length_drop]
          omega
      · refine ifPresent_ne_fuel (htext _ ?_) (fun _ => by simp)
        simp only [List.length_append, List.length_singleton]
        omega
    · split
      · rename_i hhead
        have htail : 0 < tail.length := by
          cases tail with
          | nil => simp at hhead
          | cons _ _ => simp
        split
        · simp only []
          split
          · refine ifPresent_ne_fuel (hitems _ _ _ ?_) (fun _ => hfields _ _ ?_)
            · simp only [List.length_drop, List.length_take]
              omega
            · simp only [List.length_drop]
              omega
          · refine hfields _ _ ?_
            simp only [List.length_drop]
            omega
        · split
          · refine ifPresent_ne_fuel (hitems _ _ _ ?_) (fun _ => by simp)
            simp only [List.length_drop]
            omega
          · simp
      · refine hfields _ _ ?_
        have := cut_rest_length ',' tail
        omega

theorem readItems_succ_ne_fuel {fuel : Nat} {content : Text} {stop : Byte}
    {values : List ResponseWrapper} (h : 2 * content.length + 4 ≤ fuel + 1)
    (htext : ∀ data, 2 * data.length + 1 ≤ fuel → readText asserts fuel data ≠ .error .fuel)
    (hitems : ∀ content stop values, 2 * content.length + 4 ≤ fuel →
      readItems asserts fuel content stop values ≠ .error .fuel) :
    readItems asserts (fuel + 1) content stop values ≠ .error .fuel := by
  unfold readItems
  split
  · simp
  · split
    · refine ifPresent_ne_fuel (htext _ ?_) (fun _ => ?_)
      · simp only [List.length_take]
        omega
      · split
        · simp
        · rename_i hafter
          refine hitems _ _ _ ?_
          have hpos : 0 < (content.drop _).length :=
            List.length_pos_iff.mpr (by simpa [List.isEmpty_iff] using hafter)
          simp only [List.length_drop] at hpos ⊢
          omega
    · refine ifPresent_ne_fuel (htext _ ?_) (fun _ => by simp)
      simp only [List.length_append, List.length_singleton]
      omega

/-- Twice the length of the text is enough: the decoder never runs out of steps. -/
theorem fromData_ne_fuel (asserts : Bool) (data : Text) : fromData asserts data ≠ .error .fuel := by
  rw [fromData_eq_readText]
  have hall : ∀ fuel,
      (∀ data, 2 * data.length + 1 ≤ fuel → readText asserts fuel data ≠ .error .fuel) ∧
      (∀ rest ret, 2 * rest.length + 3 ≤ fuel → readFields asserts fuel rest ret ≠ .error .fuel) ∧
      (∀ content stop values, 2 * content.length + 4 ≤ fuel →
        readItems asserts fuel content stop values ≠ .error .fuel) := by
    intro fuel
    induction fuel with
    | zero => exact ⟨fun _ h => by omega, fun _ _ h => by omega, fun _ _ _ h => by omega⟩
    | succ fuel ih =>
      obtain ⟨htext, hfields, hitems⟩ := ih
      exact ⟨fun _ h => readText_succ_ne_fuel h hfields,
        fun _ _ h => readFields_succ_ne_fuel h htext hfields hitems,
        fun _ _ _ h => readItems_succ_ne_fuel h htext hitems⟩
  exact (hall _).1 data (Nat.le_refl _)

/-- Every result of the first run is a result of the second. -/
def Extends {α : Type} (run run' : Exec α) : Prop :=
  ∀ r, run = .ok r → run' = .ok r

theorem Extends.refl {α : Type} (run : Exec α) : Extends run run := fun _ h => h

theorem Extends.ifPresent {α β : Type} {run run' : Exec (Option α)}
    {k k' : α → Exec (Option β)} (hrun : Extends run run') (hk : ∀ a, Extends (k a) (k' a)) :
    Extends (ifPresent run k) (ifPresent run' k') := by
  intro r h
  rcases ifPresent_eq_ok h with ⟨hnone, rfl⟩ | ⟨a, hsome, hr⟩
  · rw [hrun _ hnone, ifPresent_none]
  · rw [hrun _ hsome, ifPresent_some]
    exact hk a r hr

/-- The three readers at one budget extend to the next. -/
theorem read_succ (fuel : Nat) :
    (∀ data, Extends (readText asserts fuel data) (readText asserts (fuel + 1) data)) ∧
    (∀ rest ret, Extends (readFields asserts fuel rest ret) (readFields asserts (fuel + 1) rest ret)) ∧
    (∀ content stop values, Extends (readItems asserts fuel content stop values)
      (readItems asserts (fuel + 1) content stop values)) := by
  induction fuel with
  | zero =>
    refine ⟨?_, ?_, ?_⟩
    · intro data r h
      simp [readText] at h
    · intro rest ret r h
      simp [readFields] at h
    · intro content stop values r h
      simp [readItems] at h
  | succ fuel ih =>
    obtain ⟨htext, hfields, hitems⟩ := ih
    refine ⟨?_, ?_, ?_⟩
    · intro data
      rw [readText, readText]
      split
      · exact .refl _
      · split
        · exact .refl _
        · exact hfields _ _
    · intro rest ret
      rw [readFields, readFields]
      split
      · exact .refl _
      · split
        · split
          · exact (htext _).ifPresent fun _ => hfields _ _
          · exact (htext _).ifPresent fun _ => .refl _
        · split
          · split
            · simp only []
              split
              · exact (hitems _ _ _).ifPresent fun _ => hfields _ _
              · exact hfields _ _
            · split
              · exact (hitems _ _ _).ifPresent fun _ => .refl _
              · exact .refl _
          · exact hfields _ _
    · intro content stop values
      rw [readItems, readItems]
      split
      · exact .refl _
      · split
        · refine (htext _).ifPresent fun _ => ?_
          split
          · exact .refl _
          · exact hitems _ _ _
        · exact (htext _).ifPresent fun _ => .refl _

theorem readText_mono {fuel fuel' : Nat} {data : Text} (h : fuel ≤ fuel') :
    Extends (readText asserts fuel data) (readText asserts fuel' data) := by
  induction h with
  | refl => exact .refl _
  | step _ ih => exact fun r hr => (read_succ _).1 _ r (ih r hr)

theorem readItems_mono {fuel fuel' : Nat} {content : Text} {stop : Byte}
    {values : List ResponseWrapper} (h : fuel ≤ fuel') :
    Extends (readItems asserts fuel content stop values)
      (readItems asserts fuel' content stop values) := by
  induction h with
  | refl => exact .refl _
  | step _ ih => exact fun r hr => (read_succ _).2.2 _ _ _ r (ih r hr)

end Fuel

end ResponseWrapper

end WFA
