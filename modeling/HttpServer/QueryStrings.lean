import HttpServer.RequestRendering
import HttpServer.UrlDecoding

/-!
# Query strings written and read back

`Encodes` relates a byte string to its percent-encodings, with hexadecimal digits
of either case and a space as a plus or not. What is written holds neither an
ampersand nor an equals sign, so the query loop cuts a query at the signs between
the pairs and decodes each part to what it was. Of pairs with one key the first is
the one that is kept.
-/

namespace HttpServer.QueryStrings

open ListSearch MeasuredLoop HttpParser RequestLine FieldLines RequestRendering HexNumerals
open UrlDecoding

/-- Letters, digits, hyphen, dot, underscore and tilde stand for themselves. -/
def isUnreserved (byte : Byte) : Bool := utils.isAlnum byte || (ascii "-._~").contains byte

inductive Encodes : Bytes → Bytes → Prop
  | nil : Encodes [] []
  | plain {byte : Byte} {decoded encoded : Bytes} (unreserved : isUnreserved byte = true)
      (rest : Encodes decoded encoded) : Encodes (byte :: decoded) (byte :: encoded)
  | percent {byte high low : Byte} {decoded encoded : Bytes}
      (reserved : isUnreserved byte = false)
      (highDigit : utils.hexDigit high = some (byte.toNat / 16))
      (lowDigit : utils.hexDigit low = some (byte.toNat % 16))
      (rest : Encodes decoded encoded) :
      Encodes (byte :: decoded) (37 :: high :: low :: encoded)
  | plus {decoded encoded : Bytes} (rest : Encodes decoded encoded) :
      Encodes (32 :: decoded) (43 :: encoded)

section Components

theorem unreserved_ne {byte : Byte} (unreserved : isUnreserved byte = true) :
    byte ≠ 43 ∧ byte ≠ 37 := by
  constructor <;> rintro rfl <;> revert unreserved <;> decide

/-- A query is written in one of the ways that percent decoding undoes. -/
theorem encodes_encoding {decoded encoded : Bytes} (encodes : Encodes decoded encoded) :
    Encoding decoded encoded := by
  induction encodes with
  | nil => exact .nil
  | plain unreserved rest ih =>
      obtain ⟨notPlus, notPercent⟩ := unreserved_ne unreserved
      exact .literal notPercent notPlus ih
  | percent reserved highDigit lowDigit rest ih =>
      rw [hex_digit_eq_some_iff] at highDigit lowDigit
      apply Encoding.percent highDigit.1 lowDigit.1 _ ih
      rw [highDigit.2, lowDigit.2, Nat.div_add_mod']
  | plus rest ih => exact .plus ih

theorem url_decode_encoded {decoded encoded : Bytes} (encodes : Encodes decoded encoded) :
    utils.urlDecode encoded = decoded := url_decode_encoding (encodes_encoding encodes)

def isWritten (byte : Byte) : Bool :=
  isUnreserved byte || (utils.hexDigit byte).isSome || byte = 37 || byte = 43

theorem encoded_written {decoded encoded : Bytes} (encodes : Encodes decoded encoded) :
    ∀ byte ∈ encoded, isWritten byte = true := by
  induction encodes with
  | nil => exact nofun
  | plain unreserved rest ih =>
      refine List.forall_mem_cons.mpr ⟨?_, ih⟩
      rw [isWritten, unreserved]
      rfl
  | percent reserved highDigit lowDigit rest ih =>
      refine List.forall_mem_cons.mpr ⟨by decide, List.forall_mem_cons.mpr ⟨?_,
        List.forall_mem_cons.mpr ⟨?_, ih⟩⟩⟩
      · simp [isWritten, highDigit]
      · simp [isWritten, lowDigit]
  | plus rest ih => exact List.forall_mem_cons.mpr ⟨by decide, ih⟩

theorem encoded_avoids {decoded encoded : Bytes} (encodes : Encodes decoded encoded) {byte : Byte}
    (foreign : isWritten byte = false) : byte ∉ encoded := by
  intro member
  rw [encoded_written encodes byte member] at foreign
  cases foreign

end Components

section Loop

theorem query_loop_pieces {pieces : List Bytes} (plain : ∀ piece ∈ pieces, piece ≠ [] ∧ 38 ∉ piece)
    (request : HttpRequest) :
    queryLoop.run ([38].intercalate pieces, request) = pieces.foldl addQueryPair request := by
  induction pieces generalizing request with
  | nil => exact queryLoop.run_done rfl
  | cons piece pieces ih =>
      obtain ⟨nonempty, noAmp⟩ := plain piece List.mem_cons_self
      have later : ∀ other ∈ pieces, other ≠ [] ∧ 38 ∉ other :=
        fun other member => plain other (List.mem_cons_of_mem _ member)
      cases pieces with
      | nil =>
          have turned : queryLoop.turn (piece, request) = .done (addQueryPair request piece) := by
            change queryTurn (piece, request) = _
            unfold queryTurn
            rw [if_neg (by simpa using nonempty), find_sub_absent noAmp]
          rw [List.intercalate_singleton]
          exact queryLoop.run_done turned
      | cons next pieces =>
          have joined : [38].intercalate (piece :: next :: pieces) =
              piece ++ 38 :: [38].intercalate (next :: pieces) := by
            rw [List.intercalate_cons_cons, List.append_assoc]
            rfl
          have found : findSub [38] (piece ++ 38 :: [38].intercalate (next :: pieces)) =
              some piece.length := find_sub_fresh noAmp _
          have remaining : (piece ++ 38 :: [38].intercalate (next :: pieces)).drop
              (piece.length + 1) = [38].intercalate (next :: pieces) := by
            rw [← List.drop_drop, List.drop_left]
            rfl
          have turned : queryLoop.turn (piece ++ 38 :: [38].intercalate (next :: pieces), request) =
              .next ([38].intercalate (next :: pieces), addQueryPair request piece) := by
            change queryTurn _ = _
            unfold queryTurn
            rw [if_neg (by simp), found]
            dsimp only
            rw [remaining, List.take_left]
          rw [joined, queryLoop.run_next turned, ih later]
          rfl

end Loop

def WrittenPair (pair text : Bytes × Bytes) : Prop :=
  Encodes pair.1 text.1 ∧ Encodes pair.2 text.2

def pairText (text : Bytes × Bytes) : Bytes := text.1 ++ 61 :: text.2

def queryText (texts : List (Bytes × Bytes)) : Bytes := [38].intercalate (texts.map pairText)

section Pairs

variable {pair text : Bytes × Bytes} {pairs texts : List (Bytes × Bytes)}

theorem add_query_pair_text (written : WrittenPair pair text) (request : HttpRequest) :
    addQueryPair request (pairText text) = request.addQuery pair.1 pair.2 := by
  have found : findSub [61] (pairText text) = some text.1.length :=
    find_sub_fresh (encoded_avoids written.1 (by decide)) _
  have value : (pairText text).drop (text.1.length + 1) = text.2 := by
    rw [pairText, ← List.drop_drop, List.drop_left]
    rfl
  unfold addQueryPair
  rw [found]
  dsimp only
  rw [value, pairText, List.take_left, url_decode_encoded written.1, url_decode_encoded written.2]

theorem pair_text_avoids (written : WrittenPair pair text) {byte : Byte} (notEquals : byte ≠ 61)
    (foreign : isWritten byte = false) : byte ∉ pairText text := by
  rw [pairText, List.mem_append, List.mem_cons, not_or, not_or]
  exact ⟨encoded_avoids written.1 foreign, notEquals, encoded_avoids written.2 foreign⟩

theorem texts_avoid (written : List.Forall₂ WrittenPair pairs texts) {byte : Byte}
    (notEquals : byte ≠ 61) (foreign : isWritten byte = false) :
    ∀ piece ∈ texts.map pairText, byte ∉ piece := by
  induction written with
  | nil => exact nofun
  | cons first rest ih =>
      rw [List.map_cons]
      exact List.forall_mem_cons.mpr ⟨pair_text_avoids first notEquals foreign, ih⟩

theorem intercalate_avoids {separator : Bytes} {pieces : List Bytes} {byte : Byte}
    (absent : byte ∉ separator) (plain : ∀ piece ∈ pieces, byte ∉ piece) :
    byte ∉ separator.intercalate pieces := by
  induction pieces with
  | nil => exact List.not_mem_nil
  | cons piece pieces ih =>
      have here := plain piece List.mem_cons_self
      have later := ih fun other member => plain other (List.mem_cons_of_mem _ member)
      cases pieces with
      | nil => rwa [List.intercalate_singleton]
      | cons next pieces =>
          rw [List.intercalate_cons_cons, List.mem_append, List.mem_append, not_or, not_or]
          exact ⟨⟨here, absent⟩, later⟩

theorem query_text_avoids (written : List.Forall₂ WrittenPair pairs texts) {byte : Byte}
    (notEquals : byte ≠ 61) (notAmp : byte ≠ 38) (foreign : isWritten byte = false) :
    byte ∉ queryText texts := by
  apply intercalate_avoids
  · rwa [List.mem_singleton]
  · exact texts_avoid written notEquals foreign

theorem fold_add_pairs (written : List.Forall₂ WrittenPair pairs texts) (request : HttpRequest) :
    (texts.map pairText).foldl addQueryPair request =
      pairs.foldl (fun request pair => request.addQuery pair.1 pair.2) request := by
  induction written generalizing request with
  | nil => rfl
  | cons first rest ih =>
      rw [List.map_cons, List.foldl_cons, List.foldl_cons, add_query_pair_text first, ih]

theorem lookup_added (pairs : List (Bytes × Bytes)) (request : HttpRequest) (key : Bytes) :
    (pairs.foldl (fun request pair => request.addQuery pair.1 pair.2) request).queries.lookup key =
      (request.queries.lookup key).or (pairs.lookup key) := by
  induction pairs generalizing request with
  | nil => rw [List.foldl_nil, List.lookup_nil, Option.or_none]
  | cons pair pairs ih =>
      rw [List.foldl_cons, ih, List.lookup_cons]
      unfold HttpRequest.addQuery
      split_ifs with stored
      · by_cases same : key = pair.1
        · subst same
          obtain ⟨value, found⟩ := Option.isSome_iff_exists.mp stored
          rw [found, Option.some_or, Option.some_or]
        · rw [beq_false_of_ne same]
      · rw [List.lookup_append, List.lookup_singleton]
        by_cases same : key = pair.1
        · subst same
          rw [Option.not_isSome_iff_eq_none.mp stored, beq_self_eq_true]
          rfl
        · rw [beq_false_of_ne same]
          simp

end Pairs

theorem lookup_foreign {pairs : List (Bytes × Bytes)} {key : Bytes}
    (foreign : ∀ pair ∈ pairs, pair.1 ≠ key) : pairs.lookup key = none := by
  rw [List.lookup_eq_none_iff]
  intro pair member
  rw [bne_iff_ne]
  exact fun same => foreign pair member same.symm

/-- The query loop stores for each key the value of its first pair. -/
theorem query_loop_text {pairs texts : List (Bytes × Bytes)}
    (written : List.Forall₂ WrittenPair pairs texts) (request : HttpRequest) (key : Bytes) :
    (queryLoop.run (queryText texts, request)).queries.lookup key =
      (request.queries.lookup key).or (pairs.lookup key) := by
  have plain : ∀ piece ∈ texts.map pairText, piece ≠ [] ∧ 38 ∉ piece := by
    intro piece member
    refine ⟨?_, texts_avoid written (by decide) (by decide) piece member⟩
    obtain ⟨text, _, rfl⟩ := List.mem_map.mp member
    simp [pairText]
  rw [queryText, query_loop_pieces plain, fold_add_pairs written, lookup_added]

theorem line_request_query {pairs texts : List (Bytes × Bytes)} {path : Bytes}
    (written : List.Forall₂ WrittenPair pairs texts) (noMark : 63 ∉ path) (method : HttpMethod) :
    (lineRequest method (path ++ 63 :: queryText texts)).path = path ∧
      ∀ key, (lineRequest method (path ++ 63 :: queryText texts)).query key =
        (pairs.lookup key).getD [] := by
  have found : findSub [63] (path ++ 63 :: queryText texts) = some path.length :=
    find_sub_fresh noMark _
  have behind : (path ++ 63 :: queryText texts).drop (path.length + 1) = queryText texts := by
    rw [← List.drop_drop, List.drop_left]
    rfl
  have line : lineRequest method (path ++ 63 :: queryText texts) =
      queryLoop.run (queryText texts,
        (HttpRequest.ofLine method (path ++ 63 :: queryText texts)
          (ascii "HTTP/1.1")).setPath path) := by
    unfold lineRequest
    rw [found]
    dsimp only
    rw [behind, List.take_left]
  refine ⟨?_, ?_⟩
  · rw [line, query_loop_path]
    rfl
  · intro key
    rw [line, HttpRequest.query, query_loop_text written]
    rfl

/-- A written query is read back by `parseRequestLine`. -/
theorem query_decodes (pairs texts : List (Bytes × Bytes)) (method path rest : Bytes)
    (request : HttpRequest) (written : List.Forall₂ WrittenPair pairs texts)
    (known : utils.parseMethod method ≠ .unknown) (noMark : 63 ∉ path) (noSpace : 32 ∉ path)
    (noLineEnd : ¬crlf <:+: path)
    (short : (lineText method (path ++ 63 :: queryText texts)).length ≤ maxRequestLine) :
    ∃ line,
      parseRequestLine (lineText method (path ++ 63 :: queryText texts) ++ (crlf ++ rest)) request =
        (.complete, line) ∧
      line.path = path ∧
      (∀ earlier key value later, pairs = earlier ++ (key, value) :: later →
        (∀ pair ∈ earlier, pair.1 ≠ key) → line.query key = value) ∧
      ∀ key, (∀ pair ∈ pairs, pair.1 ≠ key) → line.query key = [] := by
  have noReturn : 13 ∉ queryText texts :=
    query_text_avoids written (by decide) (by decide) (by decide)
  have valid : ValidLine method (path ++ 63 :: queryText texts) := by
    refine ⟨known, by simp, ?_, ?_, short⟩
    · rw [List.mem_append, List.mem_cons, not_or, not_or]
      exact ⟨noSpace, by decide, query_text_avoids written (by decide) (by decide) (by decide)⟩
    · exact crlf_avoids (by decide) (by decide) noLineEnd (crlf_absent noReturn)
  obtain ⟨pathRead, stored⟩ := line_request_query written noMark (utils.parseMethod method)
  refine ⟨_, parse_line_text valid rest request, pathRead, ?_, ?_⟩
  · intro earlier key value later split foreign
    rw [stored, split, List.lookup_append, lookup_foreign foreign, List.lookup_cons_self]
    rfl
  · intro key foreign
    rw [stored, lookup_foreign foreign]
    rfl

/-- An encoded separator, a space in both spellings and a key that comes twice. -/
theorem query_decodes_repeated_key :
    ∃ line,
      parseRequestLine (lineText (ascii "GET")
          (ascii "/find" ++ 63 :: queryText [(ascii "a+b", ascii "%26"), (ascii "a%20b", ascii "2")]) ++
        (crlf ++ [])) {} = (.complete, line) ∧
      line.path = ascii "/find" ∧ line.query (ascii "a b") = ascii "&" := by
  have last : Encodes (ascii "b") (ascii "b") := .plain (by decide) .nil
  have key : Encodes (ascii "a b") (ascii "a+b") := .plain (by decide) (.plus last)
  have sameKey : Encodes (ascii "a b") (ascii "a%20b") :=
    .plain (by decide) (.percent (by decide) (by decide) (by decide) last)
  have value : Encodes (ascii "&") (ascii "%26") :=
    .percent (by decide) (by decide) (by decide) .nil
  have other : Encodes (ascii "2") (ascii "2") := .plain (by decide) .nil
  obtain ⟨line, parsed, path, first, _⟩ := query_decodes
    [(ascii "a b", ascii "&"), (ascii "a b", ascii "2")]
    [(ascii "a+b", ascii "%26"), (ascii "a%20b", ascii "2")] (ascii "GET") (ascii "/find") [] {}
    (.cons ⟨key, value⟩ (.cons ⟨sameKey, other⟩ .nil)) (by decide) (by decide) (by decide)
    (by decide) (by decide)
  exact ⟨line, parsed, path, first [] (ascii "a b") (ascii "&") _ rfl nofun⟩

end HttpServer.QueryStrings
