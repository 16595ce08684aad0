import HttpServer.HexNumerals

/-!
# Percent decoding

`Encoding` relates a byte string to every text that stands for it. Decoding is a
left inverse of this relation. It can be cut in front of any byte that is not a
hexadecimal digit, because no escape reaches over such a byte; so a percent sign
without two digits behind it is copied wherever it stands, and what surrounds it
is decoded on its own.
-/

namespace HttpServer.UrlDecoding

open HexNumerals

/-- A byte written as an escape, as itself, or as a plus for a space. -/
inductive Encoding : Bytes → Bytes → Prop
  | nil : Encoding [] []
  | percent {byte high low : Byte} {decoded encoded : Bytes} (highDigit : IsHexNumeral high)
      (lowDigit : IsHexNumeral low)
      (value : digitValue high * 16 + digitValue low = byte.toNat)
      (rest : Encoding decoded encoded) :
      Encoding (byte :: decoded) (37 :: high :: low :: encoded)
  | literal {byte : Byte} {decoded encoded : Bytes} (notPercent : byte ≠ 37) (notPlus : byte ≠ 43)
      (rest : Encoding decoded encoded) : Encoding (byte :: decoded) (byte :: encoded)
  | plus {decoded encoded : Bytes} (rest : Encoding decoded encoded) :
      Encoding (32 :: decoded) (43 :: encoded)

/-- Two hexadecimal digits stand in front, the rest of a percent escape. -/
def EscapeFollows : Bytes → Prop
  | high :: low :: _ => IsHexNumeral high ∧ IsHexNumeral low
  | _ => False

section Decoding

theorem url_decode_plus (rest : Bytes) :
    utils.urlDecode (43 :: rest) = 32 :: utils.urlDecode rest := by
  rw [utils.urlDecode]

theorem url_decode_literal {byte : Byte} (notPercent : byte ≠ 37) (notPlus : byte ≠ 43)
    (rest : Bytes) : utils.urlDecode (byte :: rest) = byte :: utils.urlDecode rest := by
  rw [utils.urlDecode]
  · exact notPlus
  · intro _ _ _ same _
    exact notPercent same

theorem url_decode_escape {high low : Byte} (highDigit : IsHexNumeral high)
    (lowDigit : IsHexNumeral low) (rest : Bytes) :
    utils.urlDecode (37 :: high :: low :: rest) =
      UInt8.ofNat (digitValue high * 16 + digitValue low) :: utils.urlDecode rest := by
  rw [utils.urlDecode, hex_digit_of_numeral highDigit, hex_digit_of_numeral lowDigit]

theorem url_decode_percent {rest : Bytes} (malformed : ¬EscapeFollows rest) :
    utils.urlDecode (37 :: rest) = 37 :: utils.urlDecode rest := by
  match rest, malformed with
  | [], _ => rfl
  | [byte], _ =>
      rw [utils.urlDecode]
      · decide
      · intro _ _ _ _ shape
        cases shape
  | high :: low :: rest, malformed =>
      rw [utils.urlDecode]
      by_cases highDigit : IsHexNumeral high
      · have lowOther : ¬IsHexNumeral low := fun lowDigit => malformed ⟨highDigit, lowDigit⟩
        rw [hex_digit_of_numeral highDigit, hex_digit_of_other lowOther]
      · rw [hex_digit_of_other highDigit]

theorem url_decode_encoding {decoded encoded : Bytes} (encoding : Encoding decoded encoded) :
    utils.urlDecode encoded = decoded := by
  induction encoding with
  | nil => rfl
  | percent highDigit lowDigit value rest ih =>
      rw [url_decode_escape highDigit lowDigit, value, ih, UInt8.ofNat_toNat]
  | literal notPercent notPlus rest ih => rw [url_decode_literal notPercent notPlus, ih]
  | plus rest ih => rw [url_decode_plus, ih]

theorem decoding_induction {motive : Bytes → Prop} (nil : motive [])
    (escape : ∀ high low rest, IsHexNumeral high → IsHexNumeral low → motive rest →
      motive (37 :: high :: low :: rest))
    (percent : ∀ rest, ¬EscapeFollows rest → motive rest → motive (37 :: rest))
    (plus : ∀ rest, motive rest → motive (43 :: rest))
    (literal : ∀ byte rest, byte ≠ 37 → byte ≠ 43 → motive rest → motive (byte :: rest))
    (value : Bytes) : motive value := by
  induction length : value.length using Nat.strong_induction_on generalizing value with
  | _ bound ih =>
      match value with
      | [] => exact nil
      | byte :: rest =>
          have shorter : motive rest := ih rest.length (by simp [← length]) rest rfl
          by_cases isPercent : byte = 37
          · subst isPercent
            by_cases follows : EscapeFollows rest
            · match rest, follows with
              | high :: low :: rest, follows =>
                  exact escape high low rest follows.1 follows.2
                    (ih rest.length (by simp [← length]; omega) rest rfl)
            · exact percent rest follows shorter
          · by_cases isPlus : byte = 43
            · subst isPlus
              exact plus rest shorter
            · exact literal byte rest isPercent isPlus shorter

theorem escape_follows_append {front : Bytes} {byte : Byte} (other : ¬IsHexNumeral byte)
    (rest : Bytes) : EscapeFollows (front ++ byte :: rest) ↔ EscapeFollows front := by
  match front with
  | [] =>
      cases rest with
      | nil => exact Iff.rfl
      | cons second rest => exact ⟨fun follows => other follows.1, False.elim⟩
  | [first] => exact ⟨fun follows => other follows.2, False.elim⟩
  | first :: second :: front => exact Iff.rfl

theorem url_decode_cut (front : Bytes) {byte : Byte} (other : ¬IsHexNumeral byte)
    (rest : Bytes) :
    utils.urlDecode (front ++ byte :: rest) =
      utils.urlDecode front ++ utils.urlDecode (byte :: rest) := by
  induction front using decoding_induction with
  | nil => rfl
  | escape high low front highDigit lowDigit ih =>
      rw [List.cons_append, List.cons_append, List.cons_append,
        url_decode_escape highDigit lowDigit, url_decode_escape highDigit lowDigit, ih,
        List.cons_append]
  | percent front malformed ih =>
      have still := (escape_follows_append other rest).not.mpr malformed
      rw [List.cons_append, url_decode_percent still, url_decode_percent malformed, ih,
        List.cons_append]
  | plus front ih =>
      rw [List.cons_append, url_decode_plus, url_decode_plus, ih, List.cons_append]
  | literal first front notPercent notPlus ih =>
      rw [List.cons_append, url_decode_literal notPercent notPlus,
        url_decode_literal notPercent notPlus, ih, List.cons_append]

theorem url_decode_length (value : Bytes) :
    (utils.urlDecode value).length ≤ value.length := by
  induction value using decoding_induction with
  | nil => exact Nat.le_refl 0
  | escape high low rest highDigit lowDigit ih =>
      rw [url_decode_escape highDigit lowDigit]
      simp only [List.length_cons]
      omega
  | percent rest malformed ih =>
      rw [url_decode_percent malformed]
      exact Nat.succ_le_succ ih
  | plus rest ih =>
      rw [url_decode_plus]
      exact Nat.succ_le_succ ih
  | literal byte rest notPercent notPlus ih =>
      rw [url_decode_literal notPercent notPlus]
      exact Nat.succ_le_succ ih

end Decoding

/-- Decoding undoes every encoding, and a percent sign that starts no escape is copied. -/
theorem percent_decoding_exact :
    (∀ decoded encoded, Encoding decoded encoded → utils.urlDecode encoded = decoded) ∧
      (∀ front rest, ¬EscapeFollows rest →
        utils.urlDecode (front ++ 37 :: rest) =
          utils.urlDecode front ++ 37 :: utils.urlDecode rest) ∧
      ∀ value, (utils.urlDecode value).length ≤ value.length := by
  refine ⟨fun decoded encoded => url_decode_encoding, ?_, url_decode_length⟩
  intro front rest malformed
  rw [url_decode_cut front (by decide), url_decode_percent malformed]

/-- An escape in lower case, a plus, a literal and an escaped plus; then a percent
sign directly before an escape. -/
theorem percent_decoding_exact_mixed :
    utils.urlDecode [37, 54, 49, 43, 98, 37, 50, 98] = [97, 32, 98, 43] ∧
      utils.urlDecode ([43] ++ 37 :: [37, 52, 49]) =
        utils.urlDecode [43] ++ 37 :: utils.urlDecode [37, 52, 49] ∧
      (utils.urlDecode [37, 52, 49]).length ≤ 3 :=
  ⟨percent_decoding_exact.1 _ _
      (.percent (by decide) (by decide) (by decide) (.plus (.literal (by decide) (by decide)
        (.percent (by decide) (by decide) (by decide) .nil)))),
    percent_decoding_exact.2.1 [43] [37, 52, 49] (fun follows => absurd follows.1 (by decide)),
    percent_decoding_exact.2.2 [37, 52, 49]⟩

end HttpServer.UrlDecoding
