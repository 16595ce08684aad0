import HttpServer.ListSearch
import Mathlib.Algebra.GroupWithZero.Nat
import Mathlib.Data.List.DropRight

/-!
# The lexical helpers of `HttpUtils.cpp`

Bytes are `unsigned char`; a string or string view is the list of its bytes.
Functions with an out parameter take its old value and return the new one, so
that what a failing call leaves behind stays visible. `std::tolower` and
`std::isalnum` are those of the C locale, the only one the server ever sets.
-/

namespace HttpServer

open ListSearch

abbrev Byte := UInt8
abbrev Bytes := List Byte

/-- A source string literal as bytes. -/
def ascii (text : String) : Bytes := text.toList.map fun character => UInt8.ofNat character.toNat

def crlf : Bytes := [13, 10]
def crlfCrlf : Bytes := [13, 10, 13, 10]

@[simp] theorem crlf_length : crlf.length = 2 := rfl

@[simp] theorem crlf_crlf_length : crlfCrlf.length = 4 := rfl

/-- Number of values of `std::size_t` on the 64-bit target. -/
def sizeModulus : Nat := 2 ^ 64

/-- `left - right` on `std::size_t`. -/
def sizeSub (left right : Nat) : Nat := (left + sizeModulus - right) % sizeModulus

/-- `left + right` on `std::size_t`. -/
def sizeAdd (left right : Nat) : Nat := (left + right) % sizeModulus

theorem size_sub_of_le {left right : Nat} (ordered : right ≤ left) (bounded : left < sizeModulus) :
    sizeSub left right = left - right := by
  have shifted : left + sizeModulus - right = left - right + sizeModulus := by omega
  rw [sizeSub, shifted, Nat.add_mod_right, Nat.mod_eq_of_lt (by omega)]

theorem size_add_of_lt {left right : Nat} (bounded : left + right < sizeModulus) :
    sizeAdd left right = left + right := by
  rw [sizeAdd, Nat.mod_eq_of_lt bounded]

inductive HttpMethod where
  | get | post | put | patch | delete | head | options | connect | trace | unknown
deriving DecidableEq, Repr

namespace utils

def parseMethod (method : Bytes) : HttpMethod :=
  if method = ascii "GET" then .get
  else if method = ascii "POST" then .post
  else if method = ascii "PUT" then .put
  else if method = ascii "PATCH" then .patch
  else if method = ascii "DELETE" then .delete
  else if method = ascii "HEAD" then .head
  else if method = ascii "OPTIONS" then .options
  else if method = ascii "CONNECT" then .connect
  else if method = ascii "TRACE" then .trace
  else .unknown

def isOws (byte : Byte) : Bool := byte = 32 || byte = 9

/-- `remove_prefix` while the front is a space or tab, then `remove_suffix`. -/
def trimOws (value : Bytes) : Bytes := (value.dropWhile isOws).rdropWhile isOws

def toLower (byte : Byte) : Byte := if 65 ≤ byte ∧ byte ≤ 90 then byte + 32 else byte

def isAlnum (byte : Byte) : Bool :=
  (48 ≤ byte && byte ≤ 57) || (65 ≤ byte && byte ≤ 90) || (97 ≤ byte && byte ≤ 122)

/-- Shared by `utils::equalsIgnoreCase` and `HttpHeaders::equalsIgnoreCase`,
whose bodies are the same. -/
def equalsIgnoreCase (lhs rhs : Bytes) : Bool :=
  lhs.length == rhs.length && (lhs.zip rhs).all fun pair => toLower pair.1 == toLower pair.2

def isTokenByte (character : Byte) : Bool :=
  isAlnum character || (ascii "!#$%&'*+-.^_`|~").contains character

def isValidHeaderName (name : Bytes) : Bool := !name.isEmpty && name.all isTokenByte

def isValidHeaderValue (value : Bytes) : Bool :=
  value.all fun character =>
    !(character = 13 || character = 10) && !(character < 0x20 && character ≠ 9) &&
      !(character = 0x7F)

def isDigit (character : Byte) : Bool := 48 ≤ character && character ≤ 57

def decimalValue (digits : Bytes) : Nat :=
  digits.foldl (fun value digit => value * 10 + (digit.toNat - 48)) 0

/-- `std::from_chars` stores nothing when the value does not fit. -/
def parseContentLength (value : Bytes) (result : Nat) : Bool × Nat :=
  if value.isEmpty then (false, result)
  else if !value.all isDigit then (false, result)
  else if decimalValue value < sizeModulus then (true, decimalValue value)
  else (false, result)

def hexDigit (character : Byte) : Option Nat :=
  if 48 ≤ character ∧ character ≤ 57 then some (character.toNat - 48)
  else if 97 ≤ character ∧ character ≤ 102 then some (character.toNat - 97 + 10)
  else if 65 ≤ character ∧ character ≤ 70 then some (character.toNat - 65 + 10)
  else none

/-- The loop of `parseChunkSize`: the partial value stays in `result` when a
digit is bad or the next value would not fit. -/
def parseChunkDigits : Bytes → Nat → Bool × Nat
  | [], result => (true, result)
  | character :: rest, result =>
      match hexDigit character with
      | none => (false, result)
      | some digit =>
          if result > (sizeModulus - 1 - digit) / 16 then (false, result)
          else parseChunkDigits rest (result * 16 + digit)

def parseChunkSize (value : Bytes) (result : Nat) : Bool × Nat :=
  if value.isEmpty then (false, result) else parseChunkDigits value 0

def urlDecode : Bytes → Bytes
  | [] => []
  | 43 :: rest => 32 :: urlDecode rest
  | 37 :: first :: second :: rest =>
      match hexDigit first, hexDigit second with
      | some high, some low => UInt8.ofNat (high * 16 + low) :: urlDecode rest
      | _, _ => 37 :: urlDecode (first :: second :: rest)
  | byte :: rest => byte :: urlDecode rest

theorem equals_ignore_case_iff (lhs rhs : Bytes) :
    equalsIgnoreCase lhs rhs = true ↔ lhs.map toLower = rhs.map toLower := by
  induction lhs generalizing rhs with
  | nil => cases rhs <;> simp [equalsIgnoreCase]
  | cons left lhs ih =>
      cases rhs with
      | nil => simp [equalsIgnoreCase]
      | cons right rhs =>
          have tail := ih rhs
          simp only [equalsIgnoreCase, Bool.and_eq_true, beq_iff_eq] at tail
          simp only [equalsIgnoreCase, List.length_cons, List.zip_cons_cons, List.all_cons,
            Bool.and_eq_true, beq_iff_eq, Nat.add_right_cancel_iff, List.map_cons,
            List.cons.injEq, ← tail]
          tauto

theorem trim_ows_idempotent (value : Bytes) :
    trimOws (trimOws value) = trimOws value := by
  unfold trimOws
  have front : ((value.dropWhile isOws).rdropWhile isOws).dropWhile isOws =
      (value.dropWhile isOws).rdropWhile isOws := by
    cases shape : (value.dropWhile isOws).rdropWhile isOws with
    | nil => rfl
    | cons head rest =>
        obtain ⟨tail, whole⟩ := List.rdropWhile_prefix isOws (value.dropWhile isOws)
        rw [shape] at whole
        have kept := List.head?_dropWhile_not isOws value
        rw [← whole] at kept
        simp only [List.cons_append, List.head?_cons] at kept
        rw [List.dropWhile_cons_of_neg (by simpa using kept)]
  rw [front, List.rdropWhile_idempotent]

theorem hex_digit_lt {character : Byte} {digit : Nat} (decoded : hexDigit character = some digit) :
    digit < 16 := by
  simp only [hexDigit, UInt8.le_iff_toNat_le, UInt8.reduceToNat] at decoded
  split_ifs at decoded <;> simp only [Option.some.injEq] at decoded <;> omega

theorem parse_chunk_digits_bound (digits : Bytes) (result : Nat) (bounded : result < sizeModulus) :
    (parseChunkDigits digits result).2 < sizeModulus := by
  induction digits generalizing result with
  | nil => exact bounded
  | cons character rest ih =>
      simp only [parseChunkDigits]
      cases decoded : hexDigit character with
      | none => exact bounded
      | some digit =>
          have small := hex_digit_lt decoded
          simp only
          split_ifs with overflow
          · exact bounded
          · refine ih _ ?_
            simp only [sizeModulus] at overflow ⊢
            omega

theorem parse_chunk_size_bound (value : Bytes) (result : Nat) (bounded : result < sizeModulus) :
    (parseChunkSize value result).2 < sizeModulus := by
  simp only [parseChunkSize]
  split_ifs
  · exact bounded
  · exact parse_chunk_digits_bound value 0 (by decide)

end utils

end HttpServer
