import HttpServer.HttpUtils
import Mathlib.Data.List.DropRight
import Mathlib.Logic.Function.Basic

/-!
# `EnvParser`

The file is taken line by line; a line with `=` sets a variable, a later one overwrites
it. Any value without a line end or a NUL can be written between double quotes, blanks
and quotes at its ends included, and is read back as it is.
-/

namespace HttpServer

open ListSearch

namespace utils

/-- `" \t\r\n"` -/
def isBlank (byte : Byte) : Bool := byte = 32 || byte = 9 || byte = 13 || byte = 10

def trim (text : Bytes) : Bytes := (text.dropWhile isBlank).rdropWhile isBlank

/-- What `std::getline` gives, call by call: the last line need not be ended. -/
def getLines (content : Bytes) : List Bytes :=
  let lines := content.splitOn 10
  if lines.getLast? = some [] then lines.dropLast else lines

abbrev Environment := Bytes → Option Bytes

/-- `c_str()` as a C function reads it. -/
def cString (text : Bytes) : Bytes := text.takeWhile fun byte => byte ≠ 0

/-- `setenv` with overwriting; an empty name and one with `=` are refused. -/
def setenv (environment : Environment) (name value : Bytes) : Environment :=
  if name.isEmpty || name.contains 61 then environment
  else Function.update environment name (some value)

namespace EnvParser

def stripQuotes (value : Bytes) : Bytes :=
  if 2 ≤ value.length ∧ value.head? = some 34 ∧ value.getLast? = some 34 then
    (value.drop 1).take (value.length - 2)
  else value

def loadLine (environment : Environment) (text : Bytes) : Environment :=
  let line := trim text
  if line.isEmpty || line.head? = some 35 then environment
  else
    match findSub [61] line with
    | none => environment
    | some delimiter =>
        let key := trim (line.take delimiter)
        let value := trim (line.drop (delimiter + 1))
        setenv environment (cString key) (cString (stripQuotes value))

/-- `EnvParser::load`; the file may not open. -/
def load (file : Option Bytes) (environment : Environment) : Environment :=
  match file with
  | none => environment
  | some content => (getLines content).foldl loadLine environment

end EnvParser

end utils

namespace EnvParser

open utils utils.EnvParser

inductive EnvLine where
  | blank (text : Bytes)
  | comment (indent text : Bytes)
  | setting (key value : Bytes) (quoted : Bool) (indent before behind trail : Bytes)

def quote (value : Bytes) : Bytes := 34 :: (value ++ [34])

def EnvLine.text : EnvLine → Bytes
  | .blank text => text
  | .comment indent text => indent ++ 35 :: text
  | .setting key value quoted indent before behind trail =>
      indent ++ (key ++ before) ++ 61 :: (behind ++ (if quoted then quote value else value) ++ trail)

def EnvLine.setting? : EnvLine → Option (Bytes × Bytes)
  | .setting key value _ _ _ _ _ => some (key, value)
  | _ => none

def IsPadding (text : Bytes) : Prop := ∀ byte ∈ text, byte ∈ ([32, 9, 13] : List Byte)

/-- No blank at either end. -/
def Trimmed (text : Bytes) : Prop :=
  text.dropWhile isBlank = text ∧ text.rdropWhile isBlank = text

def IsKey (key : Bytes) : Prop :=
  Trimmed key ∧ key ≠ [] ∧ key.head? ≠ some 35 ∧ ∀ byte ∈ key, byte ∉ ([0, 10, 61] : List Byte)

/-- Without quotes around it, a value has no blank at its ends and is not quoted itself. -/
def IsValue (quoted : Bool) (value : Bytes) : Prop :=
  (∀ byte ∈ value, byte ∉ ([0, 10] : List Byte)) ∧
    (quoted = false → Trimmed value ∧ stripQuotes value = value)

def EnvLine.Valid : EnvLine → Prop
  | .blank text => IsPadding text
  | .comment indent text => IsPadding indent ∧ 10 ∉ text
  | .setting key value quoted indent before behind trail =>
      IsKey key ∧ IsValue quoted value ∧ IsPadding indent ∧ IsPadding before ∧
        IsPadding behind ∧ IsPadding trail

instance (text : Bytes) : Decidable (IsPadding text) :=
  inferInstanceAs (Decidable (∀ byte ∈ text, byte ∈ ([32, 9, 13] : List Byte)))

instance (text : Bytes) : Decidable (Trimmed text) :=
  inferInstanceAs (Decidable (_ ∧ _))

instance (key : Bytes) : Decidable (IsKey key) :=
  inferInstanceAs (Decidable (_ ∧ _ ∧ _ ∧ ∀ byte ∈ key, byte ∉ ([0, 10, 61] : List Byte)))

instance (quoted : Bool) (value : Bytes) : Decidable (IsValue quoted value) :=
  inferInstanceAs (Decidable ((∀ byte ∈ value, byte ∉ ([0, 10] : List Byte)) ∧ (_ → _ ∧ _)))

instance : ∀ line : EnvLine, Decidable line.Valid
  | .blank text => inferInstanceAs (Decidable (IsPadding text))
  | .comment indent text => inferInstanceAs (Decidable (IsPadding indent ∧ 10 ∉ text))
  | .setting key value quoted indent before behind trail =>
      inferInstanceAs (Decidable (IsKey key ∧ IsValue quoted value ∧ IsPadding indent ∧
        IsPadding before ∧ IsPadding behind ∧ IsPadding trail))

def document (lines : List EnvLine) (last : EnvLine) : Bytes :=
  lines.flatMap (fun line => line.text ++ [10]) ++ last.text

section Trimming

variable {front text tail : Bytes}

theorem padding_blank (padding : IsPadding text) : ∀ byte ∈ text, isBlank byte = true := by
  intro byte member
  have one := padding byte member
  simp only [List.mem_cons, List.not_mem_nil, or_false] at one
  rcases one with rfl | rfl | rfl <;> rfl

theorem padding_ends_no_line (padding : IsPadding text) : 10 ∉ text := by
  intro member
  have one := padding 10 member
  revert one
  decide

theorem rdrop_append (text : Bytes) (blank : ∀ byte ∈ tail, isBlank byte = true) :
    (text ++ tail).rdropWhile isBlank = text.rdropWhile isBlank := by
  unfold List.rdropWhile
  rw [List.reverse_append, List.dropWhile_append_of_pos]
  intro byte member
  exact blank byte (List.mem_reverse.mp member)

theorem rdrop_keep {byte : Byte} (solid : isBlank byte = false) (front tail : Bytes) :
    (front ++ byte :: tail).rdropWhile isBlank = front ++ byte :: tail.rdropWhile isBlank := by
  induction tail using List.reverseRecOn with
  | nil =>
      rw [List.rdropWhile_nil, List.rdropWhile_concat_neg]
      simp [solid]
  | append_singleton tail last ih =>
      by_cases blank : isBlank last = true
      · rw [← List.cons_append, ← List.append_assoc, List.rdropWhile_concat_pos _ _ _ blank, ih,
          List.rdropWhile_concat_pos _ _ _ blank]
      · rw [← List.cons_append, ← List.append_assoc, List.rdropWhile_concat_neg _ _ _ blank,
          List.rdropWhile_concat_neg _ _ _ blank, List.append_assoc, List.cons_append]

theorem drop_keep {byte : Byte} (solid : isBlank byte = false) (rest : Bytes) :
    (byte :: rest).dropWhile isBlank = byte :: rest :=
  List.dropWhile_cons_of_neg (by simp [solid])

theorem trimmed_head {byte : Byte} {rest : Bytes} (trimmed : Trimmed (byte :: rest)) :
    isBlank byte = false := by
  cases blank : isBlank byte with
  | false => rfl
  | true =>
      have dropped := trimmed.1
      rw [List.dropWhile_cons_of_pos blank] at dropped
      have shorter : (rest.dropWhile isBlank).length ≤ rest.length :=
        (List.dropWhile_sublist isBlank).length_le
      rw [dropped, List.length_cons] at shorter
      omega

theorem trim_padded (trimmed : Trimmed text) (before : ∀ byte ∈ front, isBlank byte = true)
    (after : ∀ byte ∈ tail, isBlank byte = true) : trim (front ++ text ++ tail) = text := by
  unfold trim
  rw [List.append_assoc, List.dropWhile_append_of_pos before]
  cases text with
  | nil =>
      rw [List.nil_append, List.dropWhile_eq_nil_iff.mpr after, List.rdropWhile_nil]
  | cons byte rest =>
      rw [List.cons_append, drop_keep (trimmed_head trimmed), ← List.cons_append,
        rdrop_append _ after, trimmed.2]

theorem trim_rdrop (text : Bytes) : trim (text.rdropWhile isBlank) = trim text := by
  induction text using List.reverseRecOn with
  | nil => rw [List.rdropWhile_nil]
  | append_singleton text last ih =>
      by_cases blank : isBlank last = true
      · rw [List.rdropWhile_concat_pos _ _ _ blank, ih]
        unfold trim
        rw [List.dropWhile_append]
        split
        · rename_i none
          rw [List.isEmpty_iff.mp none, List.dropWhile_cons_of_pos blank, List.dropWhile_nil]
        · rw [List.rdropWhile_concat_pos _ _ _ blank]
      · rw [List.rdropWhile_concat_neg _ _ _ blank]

theorem trimmed_quote (value : Bytes) : Trimmed (quote value) := by
  constructor
  · exact drop_keep rfl _
  · unfold quote
    rw [← List.cons_append, List.rdropWhile_concat_neg]
    decide

theorem strip_quote (value : Bytes) : stripQuotes (quote value) = value := by
  have long : 2 ≤ (quote value).length := by simp [quote]
  have closing : (quote value).getLast? = some 34 := by
    rw [quote, ← List.cons_append, List.getLast?_concat]
  rw [stripQuotes, if_pos ⟨long, rfl, closing⟩]
  simp [quote]

end Trimming

section Lines

variable {key value indent before behind trail : Bytes} {quoted : Bool}

theorem padding_free {text : Bytes} (padding : IsPadding text) : 61 ∉ text := by
  intro member
  have one := padding 61 member
  revert one
  decide

/-- The trimmed line begins with the key and goes on to the `=`. -/
theorem trim_setting (isKey : IsKey key) (indented : IsPadding indent) (tail : Bytes) :
    trim (indent ++ (key ++ before) ++ 61 :: tail) =
      key ++ before ++ 61 :: tail.rdropWhile isBlank := by
  obtain ⟨trimmed, nonempty, _, _⟩ := isKey
  unfold trim
  rw [List.append_assoc, List.dropWhile_append_of_pos (padding_blank indented)]
  cases key with
  | nil => exact absurd rfl nonempty
  | cons byte rest =>
      have solid := trimmed_head trimmed
      rw [List.cons_append, List.cons_append, drop_keep solid, ← List.cons_append,
        ← List.cons_append, rdrop_keep rfl]

theorem c_string_whole {text : Bytes} (free : ∀ byte ∈ text, byte ≠ 0) : cString text = text := by
  apply List.takeWhile_eq_self_iff.mpr
  intro byte member
  exact decide_eq_true (free byte member)

theorem load_setting (isKey : IsKey key) (isValue : IsValue quoted value)
    (indented : IsPadding indent) (spaced : IsPadding before) (apart : IsPadding behind)
    (trailing : IsPadding trail) (environment : Environment) :
    loadLine environment
        (EnvLine.setting key value quoted indent before behind trail).text =
      Function.update environment key (some value) := by
  generalize shown : (if quoted then quote value else value) = written
  have trimmed : Trimmed written := by
    cases quoted with
    | true => exact shown ▸ trimmed_quote value
    | false => exact shown ▸ (isValue.2 rfl).1
  have stripped : stripQuotes written = value := by
    cases quoted with
    | true => exact shown ▸ strip_quote value
    | false => exact shown ▸ (isValue.2 rfl).2
  have line : trim (EnvLine.setting key value quoted indent before behind trail).text =
      key ++ before ++ 61 :: (behind ++ written ++ trail).rdropWhile isBlank := by
    rw [EnvLine.text, shown, trim_setting isKey indented]
  have read : trim ((behind ++ written ++ trail).rdropWhile isBlank) = written := by
    rw [trim_rdrop]
    exact trim_padded trimmed (padding_blank apart) (padding_blank trailing)
  generalize (behind ++ written ++ trail).rdropWhile isBlank = rest at line read
  obtain ⟨keyTrimmed, nonempty, noComment, bytes⟩ := isKey
  have keyBytes : ∀ byte ∈ key, byte ≠ 0 ∧ byte ≠ 61 := by
    intro byte member
    have free := bytes byte member
    simp only [List.mem_cons, List.not_mem_nil, or_false, not_or] at free
    exact ⟨free.1, free.2.2⟩
  have absent : 61 ∉ key ++ before := by
    intro member
    rcases List.mem_append.mp member with inKey | inPadding
    · exact (keyBytes 61 inKey).2 rfl
    · exact padding_free spaced inPadding
  have delimiter : findSub [61] (key ++ before ++ 61 :: rest) = some (key ++ before).length :=
    find_sub_fresh absent rest
  have notEmpty : (key ++ before ++ 61 :: rest).isEmpty = false := by simp
  have begins : (key ++ before ++ 61 :: rest).head? = key.head? := by
    cases key with
    | nil => exact absurd rfl nonempty
    | cons byte tail => rfl
  have name : trim (key ++ before) = key := by
    have padded := @trim_padded [] key before keyTrimmed (by simp) (padding_blank spaced)
    rwa [List.nil_append] at padded
  have taken : (key ++ before ++ 61 :: rest).take (key ++ before).length = key ++ before :=
    List.take_left' rfl
  have dropped : (key ++ before ++ 61 :: rest).drop ((key ++ before).length + 1) = rest := by
    rw [← List.drop_drop, List.drop_left' rfl]
    rfl
  have unnamed : ¬(key.isEmpty || key.contains 61) = true := by
    have without : 61 ∉ key := fun member => (keyBytes 61 member).2 rfl
    simp [nonempty, without]
  have valueBytes : ∀ byte ∈ value, byte ≠ 0 := by
    intro byte member
    have free := isValue.1 byte member
    simp only [List.mem_cons, List.not_mem_nil, or_false, not_or] at free
    exact free.1
  unfold loadLine
  dsimp only
  rw [line, notEmpty, begins, if_neg (by simpa using noComment), delimiter]
  dsimp only
  rw [taken, dropped, name, read, stripped, c_string_whole fun byte member => (keyBytes byte member).1,
    c_string_whole valueBytes, setenv, if_neg unnamed]

theorem load_valid {line : EnvLine} (valid : line.Valid) (environment : Environment) :
    loadLine environment line.text =
      match line.setting? with
      | some (key, value) => Function.update environment key (some value)
      | none => environment := by
  cases line with
  | blank text =>
      have none : trim text = [] := by
        have padded := @trim_padded [] [] text ⟨rfl, rfl⟩ (by simp) (padding_blank valid)
        rwa [List.nil_append, List.nil_append] at padded
      unfold loadLine EnvLine.text
      dsimp only
      rw [none]
      rfl
  | comment indent text =>
      have hash : trim (indent ++ 35 :: text) = 35 :: text.rdropWhile isBlank := by
        unfold trim
        rw [List.dropWhile_append_of_pos (padding_blank valid.1), drop_keep rfl]
        exact rdrop_keep rfl [] text
      unfold loadLine EnvLine.text
      dsimp only
      rw [hash]
      rfl
  | setting key value quoted indent before behind trail =>
      obtain ⟨isKey, isValue, indented, spaced, apart, trailing⟩ := valid
      exact load_setting isKey isValue indented spaced apart trailing environment

theorem valid_ends_no_line {line : EnvLine} (valid : line.Valid) : 10 ∉ line.text := by
  cases line with
  | blank text => exact padding_ends_no_line valid
  | comment indent text =>
      have indented := padding_ends_no_line valid.1
      simp [EnvLine.text, indented, valid.2]
  | setting key value quoted indent before behind trail =>
      obtain ⟨isKey, isValue, indented, spaced, apart, trailing⟩ := valid
      have keyFree : 10 ∉ key := fun member => isKey.2.2.2 10 member (by decide)
      have valueFree : 10 ∉ value := fun member => isValue.1 10 member (by decide)
      have written : 10 ∉ (if quoted then quote value else value) := by
        cases quoted with
        | true => simp [quote, valueFree]
        | false => exact valueFree
      simp [EnvLine.text, keyFree, written, padding_ends_no_line indented,
        padding_ends_no_line spaced, padding_ends_no_line apart, padding_ends_no_line trailing]

end Lines

section Documents

/-- The empty line behind the last line end changes nothing. -/
theorem load_lines (content : Bytes) (environment : Environment) :
    load (some content) environment = (content.splitOn 10).foldl loadLine environment := by
  unfold load getLines
  dsimp only
  split
  · rename_i ended
    obtain ⟨lines, split⟩ := List.getLast?_eq_some_iff.mp ended
    rw [split, List.dropLast_concat, List.foldl_append]
    rfl
  · rfl

theorem split_document {lines : List EnvLine} {last : EnvLine}
    (valid : ∀ line ∈ lines, line.Valid) (ends : last.Valid) :
    (document lines last).splitOn 10 = (lines ++ [last]).map EnvLine.text := by
  induction lines with
  | nil => exact List.splitOn_eq_singleton (valid_ends_no_line ends)
  | cons line lines ih =>
      have rest := ih fun other member => valid other (List.mem_cons_of_mem _ member)
      have free := valid_ends_no_line (valid line List.mem_cons_self)
      have front : document (line :: lines) last = line.text ++ 10 :: document lines last := by
        simp [document]
      rw [front, List.splitOn_append_cons_self_of_not_mem free, rest]
      rfl

theorem foldl_valid {lines : List EnvLine} (valid : ∀ line ∈ lines, line.Valid)
    (environment : Environment) (name : Bytes) :
    (lines.map EnvLine.text).foldl loadLine environment name =
      ((lines.filterMap EnvLine.setting?).reverse.lookup name).or (environment name) := by
  induction lines generalizing environment with
  | nil => rfl
  | cons line lines ih =>
      have later := ih (fun other member => valid other (List.mem_cons_of_mem _ member))
        (loadLine environment line.text)
      have first := load_valid (valid line List.mem_cons_self) environment
      rw [List.map_cons, List.foldl_cons, later, first, List.filterMap_cons]
      cases line.setting? with
      | none => rfl
      | some entry =>
          dsimp only
          rw [List.reverse_cons, List.lookup_append, Option.or_assoc]
          congr 1
          by_cases here : name = entry.1
          · rw [here, Function.update_self, List.lookup_cons_self]
            rfl
          · have apart : (name == entry.1) = false := beq_eq_false_iff_ne.mpr here
            rw [Function.update_of_ne here, List.lookup_cons, apart]
            rfl

end Documents

/-- A file of blank lines, comments and settings, in any layout and with or without an
end of its last line, gives each variable the value of the last setting that names it,
and leaves the others alone. -/
theorem written_settings_load (lines : List EnvLine) (last : EnvLine)
    (valid : ∀ line ∈ lines, line.Valid) (ends : last.Valid) (environment : Environment)
    (name : Bytes) :
    load (some (document lines last)) environment name =
      (((lines ++ [last]).filterMap EnvLine.setting?).reverse.lookup name).or
        (environment name) := by
  rw [load_lines, split_document valid ends, foldl_valid]
  intro line member
  rcases List.mem_append.mp member with inside | final
  · exact valid line inside
  · rw [List.mem_singleton.mp final]
    exact ends

/-- `PORT` is set twice, and `SECRET` has blanks and quotes at its ends. -/
def sampleLines : List EnvLine :=
  [.comment [] (ascii " server"), .setting (ascii "PORT") (ascii "80") false [] [32] [32] [13],
    .blank [9], .setting (ascii "SECRET") (ascii "\" a\"") true [32] [] [] []]

theorem written_settings_load_sample :
    load (some (document sampleLines
        (.setting (ascii "PORT") (ascii "8443") false [] [] [] [])))
      (fun _ => none) (ascii "PORT") = some (ascii "8443") := by
  have valid : ∀ line ∈ sampleLines, line.Valid := by
    decide +kernel
  have ends : (EnvLine.setting (ascii "PORT") (ascii "8443") false [] [] [] []).Valid := by
    decide +kernel
  rw [written_settings_load sampleLines _ valid ends]
  decide +kernel

end EnvParser

end HttpServer
