import HttpServer.CheckedArithmetic
import HttpServer.ChunkedBody
import HttpServer.HexNumerals

/-!
# Chunk sizes

`parseChunkSize` accepts the hexadecimal numerals whose value fits a `std::size_t`
and stores that value. `checkedParseChunkSize` is the same loop over operations that
have no result where they would wrap; it always has one.
-/

namespace HttpServer.ChunkSizes

open CheckedArithmetic ChunkedBody HexNumerals

def checkedChunkDigits : Bytes → Nat → Option (Bool × Nat)
  | [], result => some (true, result)
  | character :: rest, result =>
      match utils.hexDigit character with
      | none => some (false, result)
      | some digit =>
          (checkedSub (sizeModulus - 1) digit).bind fun room =>
            if result > room / 16 then some (false, result)
            else
              (checkedMul sizeModulus result 16).bind fun scaled =>
                (checkedAdd sizeModulus scaled digit).bind fun next =>
                  checkedChunkDigits rest next

def checkedParseChunkSize (value : Bytes) (result : Nat) : Option (Bool × Nat) :=
  if value.isEmpty then some (false, result) else checkedChunkDigits value 0

theorem guarded_digit_fits {result digit : Nat} (small : digit < 16)
    (guarded : ¬result > (sizeModulus - 1 - digit) / 16) :
    result * 16 + digit < sizeModulus := by
  simp only [sizeModulus] at guarded ⊢
  omega

theorem checked_chunk_digits_eq (digits : Bytes) (result : Nat) :
    checkedChunkDigits digits result = some (utils.parseChunkDigits digits result) := by
  induction digits generalizing result with
  | nil => rfl
  | cons character rest ih =>
      rw [checkedChunkDigits, utils.parseChunkDigits]
      cases decoded : utils.hexDigit character with
      | none => rfl
      | some digit =>
          have small := utils.hex_digit_lt decoded
          have room : digit ≤ sizeModulus - 1 := by
            simp only [sizeModulus]
            omega
          dsimp only
          rw [checked_sub_eq room, Option.bind_some]
          split_ifs with full
          · rfl
          · have fits := guarded_digit_fits small full
            rw [checked_mul_eq (by omega), Option.bind_some, checked_add_eq fits,
              Option.bind_some, ih]

theorem checked_parse_chunk_size_eq (value : Bytes) (result : Nat) :
    checkedParseChunkSize value result = some (utils.parseChunkSize value result) := by
  rw [checkedParseChunkSize, utils.parseChunkSize]
  split_ifs
  · rfl
  · exact checked_chunk_digits_eq value 0

theorem hex_value_eq {text : Bytes} (numerals : ∀ byte ∈ text, IsHexNumeral byte) :
    hexValue text = numeralValue text := by
  induction text using List.reverseRecOn with
  | nil => rfl
  | append_singleton text byte ih =>
      have last := numerals byte (by simp)
      have value := ih (fun other member => numerals other (List.mem_append_left _ member))
      rw [numeral_value_append, ← value]
      simp only [hexValue, hexFrom, List.foldl_append, List.foldl_cons, List.foldl_nil,
        hex_digit_of_numeral last, Option.getD_some]

theorem chunk_size_exact (value : Bytes) (result : Nat) :
    ((utils.parseChunkSize value result).1 = true ↔
        value ≠ [] ∧ (∀ byte ∈ value, IsHexNumeral byte) ∧ numeralValue value ≤ 2 ^ 64 - 1) ∧
      ((utils.parseChunkSize value result).1 = true →
        (utils.parseChunkSize value result).2 = numeralValue value) ∧
      checkedParseChunkSize value result = some (utils.parseChunkSize value result) := by
  have read : ∀ size, utils.parseChunkSize value result = (true, size) ↔
      value ≠ [] ∧ (∀ byte ∈ value, IsHexNumeral byte) ∧ numeralValue value = size ∧
        size < sizeModulus := by
    intro size
    rw [parse_chunk_size_iff]
    simp only [hex_digit_isSome_iff]
    refine and_congr_right fun _ => and_congr_right fun numerals => ?_
    rw [hex_value_eq numerals]
  have accepted : (utils.parseChunkSize value result).1 = true →
      utils.parseChunkSize value result = (true, (utils.parseChunkSize value result).2) :=
    fun succeeded => Prod.ext succeeded rfl
  refine ⟨⟨?_, ?_⟩, ?_, checked_parse_chunk_size_eq value result⟩
  · intro succeeded
    obtain ⟨nonempty, numerals, stored, fits⟩ := (read _).mp (accepted succeeded)
    refine ⟨nonempty, numerals, ?_⟩
    rw [stored]
    exact Nat.le_sub_one_of_lt fits
  · rintro ⟨nonempty, numerals, fits⟩
    have small : numeralValue value < sizeModulus := by
      simp only [sizeModulus]
      omega
    rw [(read _).mpr ⟨nonempty, numerals, rfl, small⟩]
  · intro succeeded
    exact ((read _).mp (accepted succeeded)).2.2.1.symm

/-- The largest size with leading zeros is read, its successor is refused. -/
example :
    utils.parseChunkSize (ascii "00FFFFffffFFFFffff") 0 = (true, 2 ^ 64 - 1) ∧
      (utils.parseChunkSize (ascii "10000000000000000") 0).1 = false := by
  decide +kernel

end HttpServer.ChunkSizes
