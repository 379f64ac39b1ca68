-- SUMMARY: The number that is checked is the number that is applied exactly for texts of digits and white space.
import WFA.Server.Quantities

/-!
# The texts of quantities

`from_chars` reads the digits at the front of a quantity. SQLite reads the whole
text: where it stores it, a text that is no number stays a text; where it adds it,
it takes the longest number at the front, with its fraction and its exponent, and
a number with either of them is a double.
-/

namespace WFA

open Text

/-- The number at the front is read as a double: it has a fraction or an exponent, or
it does not fit in 64 bits. -/
def readsDouble (t : Text) : Bool :=
  startsReal (afterDigits t) || decide (2 ^ 63 ≤ numeralValue (digits t))

/-- A double that is this integer. -/
def Platform.WholeDouble (p : Platform) (v : Value) (n : Int) : Prop :=
  ∃ bits, v = .real bits ∧ p.realInteger bits = some n

/-- What SQLite documents about a text that starts with a digit, and about
doubles. -/
structure Platform.Readings (p : Platform) : Prop where
  /-- A text that is a number, with white space after it or without, is converted. -/
  numeric_number : ∀ {t : Text}, digits t ≠ [] → (∀ b ∈ afterNumber t, isSpace b) →
    p.numeric t = p.integerAffinity (p.leading t)
  /-- A text that is not a number as a whole is not converted. -/
  numeric_text : ∀ {t : Text}, digits t ≠ [] → ¬ (∀ b ∈ afterNumber t, isSpace b) →
    p.numeric t = .text t
  /-- Arithmetic takes the longest number at the front. -/
  leading_integer : ∀ {t : Text}, digits t ≠ [] → readsDouble t = false →
    p.leading t = .int (numeralValue (digits t))
  leading_double : ∀ {t : Text}, digits t ≠ [] → readsDouble t = true →
    ∃ bits, p.leading t = .real bits
  /-- A sum or a difference that is no integer one is a double. -/
  realPlus_double : ∀ (n : Int) (t : Text), ∃ bits, p.realPlus (.int n) (p.leading t) = .real bits
  realMinus_double : ∀ (n : Int) (t : Text),
    ∃ bits, p.realMinus (.int n) (p.leading t) = .real bits
  /-- Integers have 64 bits. -/
  realInteger_range : ∀ {bits : UInt64} {n : Int}, p.realInteger bits = some n → inRange n = true
  /-- The server's own numbers are read back. -/
  lawful : p.Lawful

/-! ## The three statements -/

/-- A quantity `t`, which is checked as `n`, becomes the quantity `n` of a new row. -/
def InsertedExactly (p : Platform) (t : Text) (n : Nat) : Prop :=
  ∀ server req b, quantityText b = t → (addPartToService p server req b).2 = .reply .ok none →
    rowsOf server.database (requestedPair p b) = [] →
    (addPartToService p server req b).1.database.partsInService.get
        server.database.partsInService.nextId =
      some { part := (requestedPair p b).2, quantity := .int n, service := (requestedPair p b).1 }

/-- It makes `c + n` of a stored quantity `c`. -/
def AddedExactly (p : Platform) (t : Text) (n : Nat) (c : Int) : Prop :=
  ∀ server req b id row rest, quantityText b = t →
    (addPartToService p server req b).2 = .reply .ok none →
    rowsOf server.database (requestedPair p b) = (id, row) :: rest → 0 < id →
    row.quantity = .int c →
    (addPartToService p server req b).1.database.partsInService.get id =
      some { row with quantity := .int (c + n) }

/-- It leaves `c - n` of a stored quantity `c`. -/
def RemovedExactly (p : Platform) (t : Text) (n : Nat) (c : Int) : Prop :=
  ∀ server req b id row, quantityText b = t →
    (removePartFromService p server req b).2 = .reply .ok none →
    p.numeric ((b.getElement Field.entry).getD []) = .int id →
    server.database.partsInService.get id = some row → row.quantity = .int c →
    (removePartFromService p server req b).1.database.partsInService.get id =
      some { row with quantity := .int (c - n) }

section Texts

variable {p : Platform} {t : Text} {n : Nat} {c : Int}

theorem digits_of_fromChars {max : Nat} (h : fromChars max t = some n) :
    digits t ≠ [] ∧ n = numeralValue (digits t) := by
  unfold fromChars at h
  split at h
  · cases h
  · rename_i hdigits
    split at h
    · exact ⟨by simpa using hdigits, (Option.some.inj h).symm⟩
    · cases h

theorem inRange_iff : Platform.inRange c = true ↔ -2 ^ 63 ≤ c ∧ c < 2 ^ 63 := by
  simp [Platform.inRange]

/-! ## What the statements compute -/

theorem insertedExactly_of_value (h : p.numeric t = .int n) : InsertedExactly p t n := by
  intro server req b hquantity hok hrows
  obtain ⟨-, hrefused⟩ |
    ⟨-, ⟨-, id, partsInService, hnew, hafter⟩ | ⟨id, row, rest, hsome, -⟩⟩ :=
    addPartToService_cases p server req b
  · exact absurd hok hrefused
  · rw [hquantity, h] at hnew
    rw [hafter]
    exact Table.get_insert_nextId hnew
  · simp [hrows] at hsome

theorem addedExactly_of_value (hlaw : p.Lawful)
    (h : p.integerAffinity (p.plus (.int c) t) = .int (c + n)) : AddedExactly p t n c := by
  intro server req b id row rest hquantity hok hrows hid hc
  obtain ⟨-, hrefused⟩ | ⟨-, ⟨hnone, -⟩ | ⟨other, found, rest', hsome, hafter⟩⟩ :=
    addPartToService_cases p server req b
  · exact absurd hok hrefused
  · simp [hnone] at hrows
  · obtain ⟨⟨rfl, rfl⟩, -⟩ : ((id, row) : Int × PartInService) = (other, found) ∧ rest = rest' := by
      simpa using hrows.symm.trans hsome
    have hmem : (id, row) ∈ rowsOf server.database (requestedPair p b) := by simp [hrows]
    have hrow := (mem_rowsOf.mp hmem).1
    have hkey := Platform.numeric_columnText hlaw hid (server.database.partsInService.get_lt hrow)
    rw [hafter, Server.withDatabase_database, p.update_isId hkey hrow _ id, if_pos rfl,
      hquantity, hc, h]

theorem removedExactly_of_value (hread : fromChars uint64Max t = some n) (hlt : n < c)
    (h : p.integerAffinity (p.minus (.int c) t) = .int (c - n)) : RemovedExactly p t n c := by
  intro server req b id row hquantity hok hkey hrow hc
  obtain ⟨-, hrefused⟩ | ⟨other, found, current, n', haccepted, hcases⟩ :=
    removePartFromService_cases p server req b
  · exact absurd hok hrefused
  obtain rfl : id = other := Value.int.inj (hkey.symm.trans haccepted.named)
  obtain rfl := Option.some.inj (hrow.symm.trans haccepted.found)
  have hremoved := haccepted.removed
  rw [hquantity] at hremoved
  obtain rfl : n = n' := Option.some.inj (hread.symm.trans hremoved)
  have hcurrent := haccepted.current
  rw [hc, Platform.columnText] at hcurrent
  have hcurrent := fromChars_ofInt hcurrent
  obtain ⟨hle, -⟩ | ⟨-, hafter⟩ := hcases
  · omega
  · rw [hafter, Server.withDatabase_database, p.update_isId hkey hrow _ id, if_pos rfl,
      hquantity, hc, h]

/-! ## A request for each statement -/

/-- A body with a quantity for one pair, and for its row. -/
def quantityBody (t : Text) : Body :=
  .ofList [(Field.serviceID, ("1" : Text)), (Field.partID, ("1" : Text)),
    (Field.entry, ("1" : Text)), (Field.quantity, t)]

/-- The row of that pair. -/
def stockRow (p : Platform) (c : Int) : PartInService where
  part := p.numeric ("1" : Text)
  quantity := .int c
  service := p.numeric ("1" : Text)

/-- A manager, and a table with this one row. -/
def stockServer (p : Platform) (c : Int) : Server where
  database := { partsInService := (Table.empty.insert (stockRow p c)).elim .empty (·.2) }
  sessions := managerSessions

theorem quantityText_quantityBody (hread : fromChars uint64Max t = some n) :
    quantityText (quantityBody t) = t := by
  have hne : t ≠ [] := by
    rintro rfl
    cases hread
  have hhas : (quantityBody t).hasElement Field.quantity = true :=
    QueryBase.hasElement_iff.mpr ⟨t, rfl, hne⟩
  rw [quantityText, if_pos hhas]
  rfl

theorem quantityBody_not_refused (hread : fromChars uint64Max t = some n) (hn : 1 ≤ n) :
    quantityRefused (quantityBody t) = false := by
  have hquantity : (quantityBody t).getElement Field.quantity = some t := rfl
  have hpositive : n ≠ 0 := by omega
  simp [quantityRefused, hquantity, hread, hpositive]

theorem stock_employee : managerSessions.verify managerRequest AuthLevel.employee = true :=
  managerSessions_verify (by decide)

theorem stockServer_get (p : Platform) (c : Int) :
    (stockServer p c).database.partsInService.get 1 = some (stockRow p c) := by
  rfl

theorem rowsOf_stockServer (p : Platform) (c : Int) (t : Text) :
    rowsOf (stockServer p c).database (requestedPair p (quantityBody t)) = [(1, stockRow p c)] := by
  have hpair : requestedPair p (quantityBody t) = (p.numeric ("1" : Text), p.numeric ("1" : Text)) :=
    rfl
  refine Table.select_eq_singleton _ (stockServer_get p c) ?_ ?_
  · simp [hpair, stockRow]
  · intro id row hget _
    have hmem : (id, row) ∈ [((1 : Int), stockRow p c)] := Table.get_eq_some_iff _ |>.mp hget
    simp only [List.mem_singleton, Prod.mk.injEq] at hmem
    exact hmem.1

/-- An empty table shows what is inserted. -/
theorem InsertedExactly.value (hread : fromChars uint64Max t = some n) (hn : 1 ≤ n)
    (h : InsertedExactly p t n) : p.numeric t = .int n := by
  have hquantity := quantityText_quantityBody hread
  have hroom : Roomy (Table.empty : Table PartInService) := by
    unfold Roomy
    decide
  obtain ⟨partsInService, hinsert⟩ := insert_isSome hroom
    { part := (requestedPair p (quantityBody t)).2
      quantity := p.numeric (quantityText (quantityBody t))
      service := (requestedPair p (quantityBody t)).1 }
  have hafter : addPartToService p ⟨{}, managerSessions⟩ managerRequest (quantityBody t) = _ :=
    addPartToService_insert rfl stock_employee (quantityBody_not_refused hread hn) rfl hinsert
  have hrow := h _ _ _ hquantity (by rw [hafter]) rfl
  rw [hafter] at hrow
  have heq := Option.some.inj ((Table.get_insert_nextId hinsert).symm.trans hrow)
  rw [← hquantity]
  exact congrArg PartInService.quantity heq

/-- The row of the pair shows what is added. -/
theorem AddedExactly.value (hlaw : p.Lawful) (hread : fromChars uint64Max t = some n) (hn : 1 ≤ n)
    (h : AddedExactly p t n c) : p.integerAffinity (p.plus (.int c) t) = .int (c + n) := by
  have hquantity := quantityText_quantityBody hread
  have hafter : addPartToService p (stockServer p c) managerRequest (quantityBody t) = _ :=
    addPartToService_update rfl stock_employee (quantityBody_not_refused hread hn)
      (rowsOf_stockServer p c t)
  have hrow := h _ _ _ 1 (stockRow p c) [] hquantity (by rw [hafter]) (rowsOf_stockServer p c t)
    (by decide) rfl
  have hkey := Platform.numeric_columnText hlaw (show (0 : Int) < 1 by decide) (by decide)
  rw [hafter, Server.withDatabase_database,
    p.update_isId hkey (stockServer_get p c) _ 1, if_pos rfl, hquantity] at hrow
  exact congrArg PartInService.quantity (Option.some.inj hrow)

/-- The row of the entry shows what is left. -/
theorem RemovedExactly.value (hlaw : p.Lawful) (hread : fromChars uint64Max t = some n) (hn : 1 ≤ n)
    (hc : Platform.inRange c = true) (hlt : n < c) (h : RemovedExactly p t n c) :
    p.integerAffinity (p.minus (.int c) t) = .int (c - n) := by
  have hquantity := quantityText_quantityBody hread
  have hkey : p.numeric (((quantityBody t).getElement Field.entry).getD []) = .int 1 :=
    Platform.numeric_columnText hlaw (show (0 : Int) < 1 by decide) (by decide)
  have hcurrent : fromChars uint64Max (p.columnText (stockRow p c).quantity) = some c.toNat := by
    have hbound := (inRange_iff.mp hc).2
    rw [stockRow, Platform.columnText, ofInt, if_neg (by omega),
      fromChars_ofNat (by unfold uint64Max; omega)]
    congr 1
    omega
  have haccepted : RemoveAccepted p (stockServer p c) managerRequest (quantityBody t) 1 (stockRow p c)
      c.toNat n :=
    ⟨rfl, stock_employee, hkey, stockServer_get p c, hcurrent, hquantity.symm ▸ hread, hn⟩
  have hafter := removePartFromService_update haccepted (by omega)
  have hrow := h _ _ _ 1 (stockRow p c) hquantity (by rw [hafter]) hkey (stockServer_get p c) rfl
  rw [hafter, Server.withDatabase_database, p.update_isId hkey (stockServer_get p c) _ 1,
    if_pos rfl, hquantity] at hrow
  exact congrArg PartInService.quantity (Option.some.inj hrow)

/-! ## Which texts are applied as they are checked -/

/-- A double is stored as the integer it is. -/
theorem integerAffinity_double {v : Value} (hdouble : ∃ bits, v = .real bits) {m : Int} :
    p.integerAffinity v = .int m ↔ p.WholeDouble v m := by
  obtain ⟨bits, rfl⟩ := hdouble
  cases hinteger : p.realInteger bits with
  | none => simp [Platform.integerAffinity, Platform.WholeDouble, hinteger]
  | some found => simp [Platform.integerAffinity, Platform.WholeDouble, hinteger]

theorem inserted_value_iff (hlaw : p.Readings) (hdigits : digits t ≠ []) :
    p.numeric t = .int (numeralValue (digits t)) ↔
      (∀ b ∈ afterNumber t, isSpace b) ∧
        (readsDouble t = true → p.WholeDouble (p.leading t) (numeralValue (digits t))) := by
  by_cases hnumber : ∀ b ∈ afterNumber t, isSpace b
  · rw [hlaw.numeric_number hdigits hnumber]
    cases hdouble : readsDouble t with
    | false => simpa [hlaw.leading_integer hdigits hdouble, Platform.integerAffinity] using hnumber
    | true =>
      rw [integerAffinity_double (hlaw.leading_double hdigits hdouble)]
      exact ⟨fun h => ⟨hnumber, fun _ => h⟩, fun h => h.2 rfl⟩
  · rw [hlaw.numeric_text hdigits hnumber]
    refine ⟨fun h => ?_, fun h => absurd h.1 hnumber⟩
    cases h

/-- An integer sum that is stored as it is has 64 bits. -/
theorem added_value_iff (hlaw : p.Readings) (hdigits : digits t ≠ [])
    (hc : Platform.inRange c = true) :
    p.integerAffinity (p.plus (.int c) t) = .int (c + numeralValue (digits t)) ↔
      if readsDouble t then
        p.WholeDouble (p.realPlus (.int c) (p.leading t)) (c + numeralValue (digits t))
      else c + numeralValue (digits t) < 2 ^ 63 := by
  rw [inRange_iff] at hc
  cases hdouble : readsDouble t with
  | true =>
    obtain ⟨bits, hbits⟩ := hlaw.leading_double hdigits hdouble
    have hplus : p.plus (.int c) t = p.realPlus (.int c) (p.leading t) := by
      simp [Platform.plus, hbits]
    rw [hplus, if_pos rfl]
    exact integerAffinity_double (hlaw.realPlus_double c t)
  | false =>
    have hleading := hlaw.leading_integer hdigits hdouble
    rw [if_neg Bool.false_ne_true]
    cases hrange : Platform.inRange (c + numeralValue (digits t)) with
    | true =>
      have hlt := (inRange_iff.mp hrange).2
      simpa [Platform.plus, hleading, hrange, Platform.integerAffinity] using hlt
    | false =>
      have hplus : p.plus (.int c) t = p.realPlus (.int c) (p.leading t) := by
        simp [Platform.plus, hleading, hrange]
      have hnot : ¬ c + numeralValue (digits t) < 2 ^ 63 := by
        intro hlt
        rw [inRange_iff.mpr ⟨by omega, hlt⟩] at hrange
        cases hrange
      rw [hplus, integerAffinity_double (hlaw.realPlus_double c t)]
      refine ⟨?_, fun hlt => absurd hlt hnot⟩
      rintro ⟨bits, -, hinteger⟩
      exact (inRange_iff.mp (hlaw.realInteger_range hinteger)).2

theorem removed_value_iff (hlaw : p.Readings) (hdigits : digits t ≠ [])
    (hc : Platform.inRange c = true) (hlt : numeralValue (digits t) < c) :
    p.integerAffinity (p.minus (.int c) t) = .int (c - numeralValue (digits t)) ↔
      (readsDouble t = true →
        p.WholeDouble (p.realMinus (.int c) (p.leading t)) (c - numeralValue (digits t))) := by
  rw [inRange_iff] at hc
  cases hdouble : readsDouble t with
  | true =>
    obtain ⟨bits, hbits⟩ := hlaw.leading_double hdigits hdouble
    have hminus : p.minus (.int c) t = p.realMinus (.int c) (p.leading t) := by
      simp [Platform.minus, hbits]
    rw [hminus, integerAffinity_double (hlaw.realMinus_double c t)]
    simp
  | false =>
    have hrange : Platform.inRange (c - numeralValue (digits t)) = true :=
      inRange_iff.mpr ⟨by omega, by omega⟩
    simp [Platform.minus, hlaw.leading_integer hdigits hdouble, hrange, Platform.integerAffinity]

/-- What is checked is what is applied. A new row: exactly when the text is a number as a
whole and, where it is read as a double, that double is the number. An addition: exactly
when the number at the front is an integer whose sum with the stored quantity has 64 bits, or
a double whose sum is the integer sum. A removal of less than there is: exactly when the
number at the front is an integer, or a double whose difference is the integer one. -/
theorem quantity_applied_iff (hlaw : p.Readings) (hread : fromChars uint64Max t = some n)
    (hpos : 1 ≤ n) :
    (InsertedExactly p t n ↔
      (∀ b ∈ afterNumber t, isSpace b) ∧
        (readsDouble t = true → p.WholeDouble (p.leading t) n)) ∧
    ∀ c, Platform.inRange c = true →
      (AddedExactly p t n c ↔
        if readsDouble t then p.WholeDouble (p.realPlus (.int c) (p.leading t)) (c + n)
        else c + n < 2 ^ 63) ∧
      (n < c → (RemovedExactly p t n c ↔
        (readsDouble t = true → p.WholeDouble (p.realMinus (.int c) (p.leading t)) (c - n)))) := by
  obtain ⟨hdigits, hn⟩ := digits_of_fromChars hread
  refine ⟨?_, fun c hc => ⟨?_, fun hlt => ?_⟩⟩
  · have hvalue := inserted_value_iff hlaw hdigits
    rw [← hn] at hvalue
    exact Iff.trans ⟨fun h => h.value hread hpos, insertedExactly_of_value⟩ hvalue
  · have hvalue := added_value_iff hlaw hdigits hc
    rw [← hn] at hvalue
    exact Iff.trans ⟨fun h => h.value hlaw.lawful hread hpos, addedExactly_of_value hlaw.lawful⟩ hvalue
  · have hvalue := removed_value_iff hlaw hdigits hc (hn ▸ hlt)
    rw [← hn] at hvalue
    exact Iff.trans ⟨fun h => h.value hlaw.lawful hread hpos hc hlt,
      removedExactly_of_value hread hlt⟩ hvalue

end Texts

/-! ## A platform with white space and signed doubles -/

namespace Platform

/-- The double of an integer below `2 ^ 53`. -/
def signedDouble (n : Int) : UInt64 :=
  if n < 0 then doubleOf n.natAbs + 9223372036854775808 else doubleOf n.toNat

/-- The integer a double is, where it is one of those. -/
def integerOf (bits : UInt64) : Option Int :=
  if bits < 9223372036854775808 then (natOf bits).map Int.ofNat
  else (natOf (bits - 9223372036854775808)).map Int.negOfNat

/-- The number of an operand, with zero for what is not read here. -/
def signedOperand : Value → Int
  | .int n => n
  | .real bits => (integerOf bits).getD 0
  | _ => 0

/-- The integer at the front of a text whose fraction is zero: its digits, shifted by an
exponent without a sign. -/
def wholeReading (t : Text) : Nat :=
  match afterFraction (afterDigits t) with
  | [] => numeralValue (digits t)
  | b :: exponent =>
    if b == 'e' then numeralValue (digits t) * 10 ^ numeralValue (digits exponent)
    else numeralValue (digits t)

/-- The number at the front of a text. -/
def readFront (t : Text) : Value :=
  if readsDouble t then .real (signedDouble (wholeReading t)) else .int (numeralValue (digits t))

/-- A platform that reads every text that starts with a digit. -/
def readings : Platform :=
  { integers with
    numeric := fun t =>
      if (digits t).isEmpty || !(afterNumber t).all isSpace then .text t
      else
        match readFront t with
        | .real bits => ((integerOf bits).map Value.int).getD (.real bits)
        | v => v
    leading := readFront
    realInteger := integerOf
    realPlus := fun a b => .real (signedDouble (signedOperand a + signedOperand b))
    realMinus := fun a b => .real (signedDouble (signedOperand a - signedOperand b)) }

theorem natOf_lt {bits : UInt64} {n : Nat} (h : natOf bits = some n) : n < 2 ^ 53 := by
  unfold natOf at h
  simp only at h
  split at h
  · obtain rfl := Option.some.inj h
    decide
  · split at h
    · obtain rfl := Option.some.inj h
      refine lt_of_le_of_lt (Nat.div_le_self _ _) ?_
      have := Nat.mod_lt bits.toNat (show 0 < 2 ^ 52 by decide)
      omega
    · cases h

theorem integerOf_lt {bits : UInt64} {n : Int} (h : integerOf bits = some n) :
    -2 ^ 53 < n ∧ n < 2 ^ 53 := by
  unfold integerOf at h
  split at h
  · obtain ⟨m, hm, rfl⟩ := Option.map_eq_some_iff.mp h
    have := natOf_lt hm
    rw [Int.ofNat_eq_natCast]
    omega
  · obtain ⟨m, hm, rfl⟩ := Option.map_eq_some_iff.mp h
    have := natOf_lt hm
    rw [Int.negOfNat_eq, Int.ofNat_eq_natCast]
    omega

theorem readings_readings : readings.Readings where
  numeric_number := by
    intro t hdigits hnumber
    have hall : (afterNumber t).all isSpace = true := List.all_eq_true.mpr hnumber
    have hempty : (digits t).isEmpty = false := by simpa using hdigits
    simp only [readings, integerAffinity, hall, hempty, Bool.not_true, Bool.or_self,
      Bool.false_eq_true, if_false]
    unfold readFront
    cases readsDouble t with
    | false => rfl
    | true =>
      rw [if_pos rfl]
      cases hinteger : integerOf (signedDouble (wholeReading t)) <;> simp [hinteger]
  numeric_text := by
    intro t hdigits hnumber
    have hall : (afterNumber t).all isSpace = false := by
      rw [Bool.eq_false_iff]
      exact fun hall => hnumber (List.all_eq_true.mp hall)
    simp only [readings, hall, Bool.not_false, Bool.or_true, if_true]
  leading_integer := by
    intro t _ hdouble
    simp only [readings, readFront, hdouble, Bool.false_eq_true, if_false]
  leading_double := by
    intro t _ hdouble
    exact ⟨_, if_pos hdouble⟩
  realPlus_double n t := ⟨_, rfl⟩
  realMinus_double n t := ⟨_, rfl⟩
  realInteger_range := by
    intro bits n h
    have := integerOf_lt h
    exact inRange_iff.mpr (by omega)
  lawful :=
    { numeric_ofNat := by
        intro n hn
        have hdigits := digits_ofNat n
        have hrest : afterDigits (ofNat n) = [] :=
          List.dropWhile_eq_nil_iff.mpr fun b hb => isDigit_ofNat hb
        have hdouble : readsDouble (ofNat n) = false := by
          simpa [readsDouble, hrest, startsReal, hdigits, numeralValue_ofNat] using hn
        simp [readings, readFront, hdouble, afterNumber, hrest, afterFraction, afterExponent,
          hdigits, ofNat_ne_nil, numeralValue_ofNat] }

end Platform

/-! ## A quantity with an exponent, and one with a fraction -/

/-- Five parts are there, and `1e3` of them are removed: the check reads 1, and the
quantity is 995 below zero afterwards. -/
theorem removed_below_zero :
    fromChars uint64Max ("1e3" : Text) = some 1 ∧
    (removePartFromService .readings (stockServer .readings 5) managerRequest
      (quantityBody ("1e3" : Text))).2 = .reply .ok none ∧
    (removePartFromService .readings (stockServer .readings 5) managerRequest
      (quantityBody ("1e3" : Text))).1.database.partsInService.get 1 =
        some { stockRow .readings 5 with quantity := .int (-995) } ∧
    ¬ RemovedExactly .readings ("1e3" : Text) 1 5 := by
  have hok : (removePartFromService .readings (stockServer .readings 5) managerRequest
      (quantityBody ("1e3" : Text))).2 = .reply .ok none := by decide +kernel
  have hrow : (removePartFromService .readings (stockServer .readings 5) managerRequest
      (quantityBody ("1e3" : Text))).1.database.partsInService.get 1 =
        some { stockRow .readings 5 with quantity := .int (-995) } := by decide +kernel
  refine ⟨by decide +kernel, hok, hrow, ?_⟩
  intro hexact
  have hsubtracted := hexact _ _ _ 1 (stockRow .readings 5) (by decide +kernel) hok
    (by decide +kernel) (stockServer_get _ 5) rfl
  rw [hrow] at hsubtracted
  revert hsubtracted
  decide

/-- `2.0` is stored, added to 5 and taken from 5 as 2, and `5abc` is added to 2 as 5; it is
stored as a text. One part can be taken from the largest quantity. -/
theorem quantity_applied_fraction :
    (InsertedExactly .readings ("2.0" : Text) 2 ∧ AddedExactly .readings ("2.0" : Text) 2 5 ∧
      RemovedExactly .readings ("2.0" : Text) 2 5) ∧
    (¬ InsertedExactly .readings ("5abc" : Text) 5 ∧ AddedExactly .readings ("5abc" : Text) 5 2) ∧
    RemovedExactly .readings ("1 " : Text) 1 (2 ^ 63 - 1) := by
  have hfraction := quantity_applied_iff Platform.readings_readings
    (show fromChars uint64Max ("2.0" : Text) = some 2 by decide +kernel) (by decide)
  have hword := quantity_applied_iff Platform.readings_readings
    (show fromChars uint64Max ("5abc" : Text) = some 5 by decide +kernel) (by decide)
  have hblank := quantity_applied_iff Platform.readings_readings
    (show fromChars uint64Max ("1 " : Text) = some 1 by decide +kernel) (by decide)
  refine ⟨⟨hfraction.1.mpr ⟨by decide +kernel, fun _ => ⟨_, rfl, by decide +kernel⟩⟩, ?_, ?_⟩,
    ⟨?_, ?_⟩, ?_⟩
  · exact (hfraction.2 5 (by decide)).1.mpr ⟨_, rfl, by decide +kernel⟩
  · exact ((hfraction.2 5 (by decide)).2 (by decide)).mpr fun _ => ⟨_, rfl, by decide +kernel⟩
  · exact fun hexact => absurd (hword.1.mp hexact).1 (by decide +kernel)
  · refine (hword.2 2 (by decide)).1.mpr ?_
    rw [if_neg (by decide +kernel)]
    decide
  · refine ((hblank.2 (2 ^ 63 - 1) (by decide)).2 (by decide)).mpr fun hdouble => ?_
    exact absurd hdouble (by decide +kernel)

end WFA
