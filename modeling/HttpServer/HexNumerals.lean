import HttpServer.HttpUtils
import Mathlib.Data.Nat.Digits.Defs

/-!
# Hexadecimal numerals

A numeral is a text over sixteen digits, the letters in either case; the value of a
digit is its place in the alphabet and the value of a text is that of its digits, the
last one first. The ranges that `hexDigit` tests are exactly this alphabet.
-/

namespace HttpServer.HexNumerals

def hexAlphabet : Bytes := ascii "0123456789abcdef"

def IsHexNumeral (byte : Byte) : Prop := utils.toLower byte ∈ hexAlphabet

instance (byte : Byte) : Decidable (IsHexNumeral byte) :=
  inferInstanceAs (Decidable (utils.toLower byte ∈ hexAlphabet))

def digitValue (byte : Byte) : Nat := hexAlphabet.idxOf (utils.toLower byte)

def numeralValue (text : Bytes) : Nat := Nat.ofDigits 16 (text.map digitValue).reverse

theorem hex_digit_table : ∀ code : Fin 256,
    utils.hexDigit (UInt8.ofNat code) =
      if IsHexNumeral (UInt8.ofNat code) then some (digitValue (UInt8.ofNat code)) else none := by
  decide +kernel

theorem hex_digit_eq (byte : Byte) :
    utils.hexDigit byte = if IsHexNumeral byte then some (digitValue byte) else none := by
  have entry := hex_digit_table ⟨byte.toNat, byte.toNat_lt⟩
  rwa [UInt8.ofNat_toNat] at entry

theorem hex_digit_of_numeral {byte : Byte} (numeral : IsHexNumeral byte) :
    utils.hexDigit byte = some (digitValue byte) := by
  rw [hex_digit_eq, if_pos numeral]

theorem hex_digit_of_other {byte : Byte} (other : ¬IsHexNumeral byte) :
    utils.hexDigit byte = none := by
  rw [hex_digit_eq, if_neg other]

theorem hex_digit_eq_some_iff {byte : Byte} {digit : Nat} :
    utils.hexDigit byte = some digit ↔ IsHexNumeral byte ∧ digitValue byte = digit := by
  rw [hex_digit_eq]
  split_ifs with numeral <;> simp [numeral]

theorem hex_digit_isSome_iff (byte : Byte) :
    (utils.hexDigit byte).isSome = true ↔ IsHexNumeral byte := by
  rw [hex_digit_eq]
  split_ifs with numeral <;> simp [numeral]

theorem numeral_value_append (text : Bytes) (byte : Byte) :
    numeralValue (text ++ [byte]) = numeralValue text * 16 + digitValue byte := by
  simp only [numeralValue, List.map_append, List.map_cons, List.map_nil, List.reverse_append,
    List.reverse_cons, List.reverse_nil, List.nil_append, List.cons_append, Nat.ofDigits_cons]
  omega

end HttpServer.HexNumerals
