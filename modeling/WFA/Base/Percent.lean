-- SUMMARY: Percent-encoding of bytes and its decoding.
import WFA.Base.Text

/-!
# Percent-encoding

A byte is written as `%` and two hexadecimal digits. The decoder takes a `%` that
is not followed by two digits for itself, so it is total.
-/

namespace WFA

namespace Text

/-! ## Hexadecimal digits -/

def hexDigit (n : Byte) : Byte :=
  if n < 10 then 48 + n else 55 + n

def hexValue (b : Byte) : Option Byte :=
  if '0' ≤ b && b ≤ '9' then some (b - 48)
  else if 'A' ≤ b && b ≤ 'F' then some (b - 55)
  else if 'a' ≤ b && b ≤ 'f' then some (b - 87)
  else none

/-- Letters, digits and the four marks that stand for themselves. -/
def unreserved (b : Byte) : Bool :=
  'a' ≤ b && b ≤ 'z' || 'A' ≤ b && b ≤ 'Z' || '0' ≤ b && b ≤ '9' ||
    b == '-' || b == '.' || b == '_' || b == '~'

/-- A statement about bytes that holds of every number below 256. -/
theorem forall_byte {P : Byte → Prop} (h : ∀ n : Fin 256, P (UInt8.ofFin n)) (b : Byte) : P b :=
  h b.toFin

theorem hexValue_high (b : Byte) : hexValue (hexDigit (b / 16)) = some (b / 16) := by
  revert b
  exact forall_byte (by decide +kernel)

theorem hexValue_low (b : Byte) : hexValue (hexDigit (b % 16)) = some (b % 16) := by
  revert b
  exact forall_byte (by decide +kernel)

theorem unreserved_hexDigit (b : Byte) :
    unreserved (hexDigit (b / 16)) = true ∧ unreserved (hexDigit (b % 16)) = true := by
  revert b
  exact forall_byte (by decide +kernel)

/-! ## Escaping -/

/-- `%` and the digits of a byte. -/
def escape (b : Byte) : Text :=
  [('%' : Byte), hexDigit (b / 16), hexDigit (b % 16)]

/-- Percent-decoding of a whole text. -/
def unescape : Text → Text
  | [] => []
  | [a] => [a]
  | [a, b] => [a, b]
  | b :: high :: low :: t =>
    if b == '%' then
      match hexValue high, hexValue low with
      | some h, some l => (h * 16 + l) :: unescape t
      | _, _ => b :: unescape (high :: low :: t)
    else b :: unescape (high :: low :: t)

theorem unescape_cons {b : Byte} (h : b ≠ '%') (t : Text) : unescape (b :: t) = b :: unescape t := by
  match t with
  | [] => rfl
  | [_] => rfl
  | high :: low :: t => rw [unescape, if_neg (by simpa using h)]

theorem digits_byte (b : Byte) : b / 16 * 16 + b % 16 = b := by
  revert b
  exact forall_byte (by decide +kernel)

theorem unescape_escape (b : Byte) (t : Text) : unescape (escape b ++ t) = b :: unescape t := by
  show unescape (('%' : Byte) :: hexDigit (b / 16) :: hexDigit (b % 16) :: t) = _
  rw [unescape, if_pos (by decide), hexValue_high, hexValue_low]
  simp only [digits_byte]

end Text

end WFA
