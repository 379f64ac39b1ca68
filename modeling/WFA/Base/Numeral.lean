-- SUMMARY: Decimal numerals in a text, as the C and C++ number readers take them.
import WFA.Base.Iterator

/-!
# Decimal numerals

The readers of the standard library take the longest run of digits at the front
of a text and ignore what follows it.
-/

namespace WFA.Text

def isDigit (b : Byte) : Bool :=
  '0' ≤ b && b ≤ '9'

/-- `isspace` of the C locale. -/
def isSpace (b : Byte) : Bool :=
  b == ' ' || (9 ≤ b && b ≤ 13)

/-- The value of a run of digits. -/
def numeralValue (digits : Text) : Nat :=
  digits.foldl (fun n b => 10 * n + (b.toNat - 48)) 0

/-- The digits at the front. -/
def digits (t : Text) : Text :=
  t.takeWhile isDigit

/-- What follows the digits at the front. -/
def afterDigits (t : Text) : Text :=
  t.dropWhile isDigit

/-- What follows the digits is a fraction or an exponent, so that the number is
written as a real one. -/
def startsReal (rest : Text) : Bool :=
  match rest with
  | [] => false
  | b :: rest =>
    if b == '.' then true
    else if b == 'e' || b == 'E' then
      match rest with
      | [] => false
      | sign :: exponent =>
        if sign == '+' || sign == '-' then (exponent.head?).any isDigit else isDigit sign
    else false

/-- What follows the fraction, or all of it where there is none. -/
def afterFraction (rest : Text) : Text :=
  match rest with
  | [] => []
  | b :: fraction => if b == '.' then afterDigits fraction else rest

/-- What follows the exponent, or all of it where there is none. -/
def afterExponent (rest : Text) : Text :=
  match rest with
  | [] => []
  | b :: exponent =>
    if b == 'e' || b == 'E' then
      let exponent :=
        match exponent with
        | [] => []
        | sign :: magnitude => if sign == '+' || sign == '-' then magnitude else exponent
      if (digits exponent).isEmpty then rest else afterDigits exponent
    else rest

/-- What follows the longest number at the front: digits, with a fraction and an
exponent or without them. -/
def afterNumber (t : Text) : Text :=
  afterExponent (afterFraction (afterDigits t))

theorem isSpace_of_isDigit {b : Byte} (h : isDigit b) : isSpace b = false := by
  have hzero : ('0' : Byte).toNat = 48 := by decide
  have hblank : (' ' : Byte).toNat = 32 := by decide
  simp only [isDigit, Bool.and_eq_true, decide_eq_true_eq, UInt8.le_iff_toNat_le, hzero] at h
  simp only [isSpace, Bool.or_eq_false_iff, beq_eq_false_iff_ne, ne_eq, ← UInt8.toNat_inj, hblank,
    Bool.and_eq_false_iff, decide_eq_false_iff_not, UInt8.le_iff_toNat_le, UInt8.reduceToNat]
  omega

theorem digits_of_all {t : Text} (h : ∀ b ∈ t, isDigit b) : digits t = t :=
  List.takeWhile_eq_self_iff.mpr h

/-- `std::stol`, where `long` goes up to `longMax`. -/
def stol (longMax : Nat) (t : Text) : Exec Int :=
  let t := t.dropWhile isSpace
  let negative := t.head? == some ('-' : Byte)
  let t := if negative || t.head? == some ('+' : Byte) then t.drop 1 else t
  if (digits t).isEmpty then throw .exception
  else
    let n : Int := if negative then -(numeralValue (digits t) : Int) else numeralValue (digits t)
    if -(longMax + 1 : Int) ≤ n ∧ n ≤ longMax then pure n else throw .exception

/-- The number a decimal numeral stands for: digits, with a minus sign or
without one. -/
def decimal (t : Text) : Option Int :=
  match t with
  | [] => none
  | b :: t =>
    if b == '-' then if t.isEmpty || !t.all isDigit then none else some (-(numeralValue t : Int))
    else if (b :: t).all isDigit then some (numeralValue (b :: t)) else none

theorem stol_decimal {longMax : Nat} {t : Text} {n : Int} (h : decimal t = some n)
    (hlow : -(longMax + 1 : Int) ≤ n) (hhigh : n ≤ longMax) : stol longMax t = .ok n := by
  cases t with
  | nil => simp [decimal] at h
  | cons b t =>
    unfold decimal at h
    simp only at h
    split at h
    · rename_i hminus
      obtain rfl : b = '-' := by simpa using hminus
      split at h
      · simp at h
      · rename_i hdigits
        simp only [Bool.or_eq_true, List.isEmpty_iff, Bool.not_eq_eq_eq_not, Bool.not_true,
          not_or, Bool.not_eq_false, List.all_eq_true] at hdigits
        have hspace : isSpace ('-' : Byte) = false := by decide
        have hn : n = -(numeralValue t : Int) := by simpa [eq_comm] using h
        subst hn
        simp [stol, hspace, digits_of_all hdigits.2, hdigits.1, hhigh, pure, Except.pure]
        omega
    · split at h
      · rename_i hminus hdigits
        rw [List.all_eq_true] at hdigits
        have hdigit := hdigits b (by simp)
        have hspace := isSpace_of_isDigit hdigit
        have hplus : b ≠ '+' := by
          rintro rfl
          revert hdigit
          decide
        have hn : n = (numeralValue (b :: t) : Int) := by simpa [eq_comm] using h
        have hsign : b ≠ '-' := by simpa using hminus
        subst hn
        simp [stol, hspace, hsign, hplus, digits_of_all hdigits, hhigh, pure, Except.pure]
        omega
      · simp at h

/-! ## Unsigned numbers -/

/-- `std::from_chars` into an unsigned type with the largest value `max`. -/
def fromChars (max : Nat) (t : Text) : Option Nat :=
  if (digits t).isEmpty then none
  else if numeralValue (digits t) ≤ max then some (numeralValue (digits t))
  else none

/-- `std::to_string` of an unsigned number. -/
def ofNat (n : Nat) : Text :=
  (Nat.toDigits 10 n).map Char.toUInt8

/-- The decimal text of a signed number. -/
def ofInt (n : Int) : Text :=
  if n < 0 then ('-' : Byte) :: ofNat n.natAbs else ofNat n.natAbs

theorem toUInt8_toNat {c : Char} (h : c.isDigit) : c.toUInt8.toNat = c.toNat := by
  simp only [Char.isDigit, Bool.and_eq_true, decide_eq_true_eq, UInt32.le_iff_toNat_le] at h
  have hbound : c.toNat < 256 := by
    have hnine : ('9' : Char).val.toNat = 57 := by decide
    have : c.toNat ≤ 57 := hnine ▸ h.2
    omega
  change c.val.toUInt8.toNat = c.val.toNat
  rw [UInt32.toNat_toUInt8]
  exact Nat.mod_eq_of_lt hbound

theorem isDigit_toUInt8 {c : Char} (h : c.isDigit) : isDigit c.toUInt8 := by
  have hnat := toUInt8_toNat h
  simp only [Char.isDigit, Bool.and_eq_true, decide_eq_true_eq, UInt32.le_iff_toNat_le] at h
  have hzero : ('0' : Char).val.toNat = 48 := by decide
  have hnine : ('9' : Char).val.toNat = 57 := by decide
  have hzero' : ('0' : Byte).toNat = 48 := by decide
  have hnine' : ('9' : Byte).toNat = 57 := by decide
  simp only [isDigit, Bool.and_eq_true, decide_eq_true_eq, UInt8.le_iff_toNat_le, hnat, hzero', hnine']
  rw [hzero, hnine] at h
  exact h

theorem isDigit_ofNat {n : Nat} {b : Byte} (h : b ∈ ofNat n) : isDigit b := by
  obtain ⟨c, hc, rfl⟩ := List.mem_map.mp h
  exact isDigit_toUInt8 (Nat.isDigit_of_mem_toDigits (by decide) (by decide) hc)

theorem ofNat_ne_nil (n : Nat) : ofNat n ≠ [] := by
  simp [ofNat, Nat.toDigits_ne_nil]

theorem numeralValue_ofNat (n : Nat) : numeralValue (ofNat n) = n := by
  have hfold : ∀ (l : List Char) (init : Nat), (∀ c ∈ l, c.isDigit) →
      (l.map Char.toUInt8).foldl (fun n b => 10 * n + (b.toNat - 48)) init =
        Nat.ofDigitChars 10 l init := by
    intro l
    induction l with
    | nil => simp
    | cons c l ih =>
      intro init hall
      rw [List.map_cons, List.foldl_cons, toUInt8_toNat (hall c (by simp)),
        ih _ fun d hd => hall d (by simp [hd]), Nat.ofDigitChars_cons]
      rfl
  have hdigits := hfold (Nat.toDigits 10 n) 0 fun c hc =>
    Nat.isDigit_of_mem_toDigits (by decide) (by decide) hc
  rw [Nat.ofDigitChars_toDigits (by decide) (by decide)] at hdigits
  exact hdigits

theorem digits_ofNat (n : Nat) : digits (ofNat n) = ofNat n :=
  digits_of_all fun _ hb => isDigit_ofNat hb

theorem fromChars_ofNat {max n : Nat} (h : n ≤ max) : fromChars max (ofNat n) = some n := by
  simp [fromChars, digits_ofNat, ofNat_ne_nil, numeralValue_ofNat, h]

/-- A plain decimal numeral. -/
def Numeral (t : Text) : Prop :=
  t ≠ [] ∧ ∀ b ∈ t, isDigit b

instance (t : Text) : Decidable (Numeral t) :=
  inferInstanceAs (Decidable (t ≠ [] ∧ ∀ b ∈ t, isDigit b = true))

theorem numeral_ofNat (n : Nat) : Numeral (ofNat n) :=
  ⟨ofNat_ne_nil n, fun _ hb => isDigit_ofNat hb⟩

theorem ofNat_injective {m n : Nat} (h : ofNat m = ofNat n) : m = n := by
  rw [← numeralValue_ofNat m, h, numeralValue_ofNat]

/-- The first byte of a number is a digit or a minus. -/
theorem ofInt_head {n : Int} {b : Byte} {t : Text} (h : ofInt n = b :: t) :
    isDigit b = true ∨ b = '-' := by
  unfold ofInt at h
  split at h
  · exact .inr (List.cons.inj h).1.symm
  · exact .inl (isDigit_ofNat (by rw [h]; simp))

theorem ofInt_injective {m n : Int} (h : ofInt m = ofInt n) : m = n := by
  -- a minus in front of digits is not the first of them
  have hminus : ∀ {k l : Nat}, ('-' : Byte) :: ofNat k ≠ ofNat l := by
    intro k l heq
    have hdigit : isDigit ('-' : Byte) = true :=
      isDigit_ofNat (n := l) (by rw [← heq]; simp)
    simp [isDigit] at hdigit
    revert hdigit
    decide
  unfold ofInt at h
  split at h <;> split at h
  · have := ofNat_injective (List.cons.inj h).2
    omega
  · exact absurd h hminus
  · exact absurd h.symm hminus
  · have := ofNat_injective h
    omega

/-- A signed number that an unsigned reader takes is not negative. -/
theorem fromChars_ofInt {max n : Nat} {i : Int} (h : fromChars max (ofInt i) = some n) :
    i = n := by
  unfold ofInt at h
  split at h
  · have hminus : isDigit ('-' : Byte) = false := by decide
    simp [fromChars, digits, hminus] at h
  · simp only [fromChars, digits_ofNat, numeralValue_ofNat] at h
    split at h
    · simp at h
    · split at h
      · simp only [Option.some.injEq] at h
        omega
      · simp at h

end WFA.Text
