import HttpServer.ClientSend

/-!
# The frame format from both ends

`sendWebSocketMessage` writes frames and `parseWebSocketFrame` reads them; the two
agree on the three length forms and the encoder takes the shortest. What the decoder
checks is less: it sees to it that a frame has arrived, but adds header and payload
length in 64 bits, and it looks at neither the mask bit nor the reserved bits nor the
opcode of a frame, nor at the rules for control frames.
-/

namespace HttpServer.WebSocketFrames

open ClientConnection WebSocketStream

section Encoder

def chosenForm (length : Nat) : LengthForm :=
  if length < 126 then .seven else if length ≤ 65535 then .sixteen else .sixtyFour

theorem chosen_form_holds {length : Nat} (storable : length < 2 ^ 63) :
    (chosenForm length).holds length := by
  unfold chosenForm
  split_ifs with short medium
  · exact Nat.le_of_lt_succ short
  · exact Nat.lt_succ_of_le medium
  · exact Nat.lt_trans storable (by decide)

theorem chosen_form_shortest {length : Nat} {form : LengthForm} (fits : form.holds length) :
    (chosenForm length).extended ≤ form.extended := by
  unfold chosenForm
  cases form with
  | seven =>
      rw [if_pos (Nat.lt_succ_of_le fits)]
  | sixteen =>
      have medium : length ≤ 65535 := Nat.le_of_lt_succ fits
      split_ifs <;> decide
  | sixtyFour => split_ifs <;> decide

theorem web_socket_message_eq (payload : Bytes) (opcode : WebSocketOpcode) :
    webSocketMessage payload opcode =
      (0x80 ||| opcodeByte opcode) ::
        UInt8.ofNat ((chosenForm payload.length).code payload.length) ::
          (bigEndianBytes (chosenForm payload.length).extended payload.length ++ payload) := by
  unfold webSocketMessage chosenForm
  split_ifs <;> rfl

/-- A frame made a client frame: the mask bit set, the key inserted behind the
length field and the payload masked with it. -/
def asClientFrame (maskingKey : Bytes) : Bytes → Bytes
  | first :: second :: tail =>
      let extended := if second = 126 then 2 else if second = 127 then 8 else 0
      first :: (0x80 ||| second) ::
        (tail.take extended ++ (maskingKey ++ mask maskingKey (tail.drop extended)))
  | short => short

theorem code_byte_form {length : Nat} (fits : (chosenForm length).holds length) :
    (if UInt8.ofNat ((chosenForm length).code length) = 126 then 2
      else if UInt8.ofNat ((chosenForm length).code length) = 127 then 8 else 0) =
        (chosenForm length).extended := by
  have different : ∀ value < 126, UInt8.ofNat value ≠ 126 ∧ UInt8.ofNat value ≠ 127 := by
    decide +kernel
  cases form : chosenForm length with
  | seven =>
      rw [form] at fits
      have other := different length (Nat.lt_succ_of_le fits)
      rw [LengthForm.code, if_neg other.1, if_neg other.2]
      rfl
  | sixteen => rfl
  | sixtyFour => rfl

variable {payload maskingKey : Bytes} {opcode : WebSocketOpcode}

theorem as_client_frame_eq (storable : payload.length < 2 ^ 63) :
    asClientFrame maskingKey (webSocketMessage payload opcode) =
      (0x80 ||| opcodeByte opcode) ::
        (0x80 ||| UInt8.ofNat ((chosenForm payload.length).code payload.length)) ::
          (bigEndianBytes (chosenForm payload.length).extended payload.length ++
            (maskingKey ++ mask maskingKey payload)) := by
  have field := bigEndianBytes_length (chosenForm payload.length).extended payload.length
  rw [web_socket_message_eq, asClientFrame, code_byte_form (chosen_form_holds storable),
    List.take_left' field, List.drop_left' field]

def maskedFrame (maskingKey payload : Bytes) (opcode : WebSocketOpcode)
    (known : isKnown opcode = true) (keyLength : maskingKey.length = 4)
    (storable : payload.length < 2 ^ 63)
    (control : isControl opcode = true → payload.length ≤ 125) : ClientFrame where
  fin := true
  opcode := opcode
  maskingKey := maskingKey
  form := chosenForm payload.length
  payload := payload
  known := known
  keyLength := keyLength
  storable := storable
  fits := chosen_form_holds storable
  control := fun isControl => ⟨rfl, control isControl⟩

theorem masked_frame_encode (known : isKnown opcode = true) (keyLength : maskingKey.length = 4)
    (storable : payload.length < 2 ^ 63)
    (control : isControl opcode = true → payload.length ≤ 125) :
    asClientFrame maskingKey (webSocketMessage payload opcode) =
      (maskedFrame maskingKey payload opcode known keyLength storable control).encode :=
  as_client_frame_eq storable

theorem message_length (payload : Bytes) (opcode : WebSocketOpcode) :
    (webSocketMessage payload opcode).length =
      2 + (chosenForm payload.length).extended + payload.length := by
  rw [web_socket_message_eq]
  simp only [List.length_cons, List.length_append, bigEndianBytes_length]
  omega

theorem code_byte_inj {first second : Nat} (firstSmall : first < 128) (secondSmall : second < 128)
    (same : UInt8.ofNat first = UInt8.ofNat second) : first = second := by
  have numbers := congrArg UInt8.toNat same
  rw [UInt8.toNat_ofNat', UInt8.toNat_ofNat', Nat.mod_eq_of_lt (by omega),
    Nat.mod_eq_of_lt (by omega)] at numbers
  exact numbers

theorem chosen_code_lt (length : Nat) : (chosenForm length).code length < 128 := by
  unfold chosenForm
  split_ifs with short
  · exact Nat.lt_trans short (by decide)
  · exact Nat.lt_add_of_pos_right (by decide : 0 < 2)
  · exact Nat.lt_succ_self 127

theorem chosen_form_of_code {length other : Nat}
    (same : (chosenForm length).code length = (chosenForm other).code other) :
    chosenForm length = chosenForm other := by
  unfold chosenForm at same ⊢
  split_ifs at same ⊢ <;> simp only [LengthForm.code] at same <;>
    first
    | rfl
    | omega

theorem big_endian_bytes_inj {count value other : Nat} (small : value < 256 ^ count)
    (small' : other < 256 ^ count)
    (same : bigEndianBytes count value = bigEndianBytes count other) : value = other := by
  rw [← bigEndian_bytes small, same, bigEndian_bytes small']

theorem prefix_lengths {other : Bytes} {otherOpcode : WebSocketOpcode}
    (storable : payload.length < 2 ^ 63) (storable' : other.length < 2 ^ 63)
    (front : webSocketMessage payload opcode <+: webSocketMessage other otherOpcode) :
    payload.length = other.length := by
  have holds := chosen_form_holds storable
  have holds' := chosen_form_holds storable'
  rw [web_socket_message_eq, web_socket_message_eq, List.cons_prefix_cons,
    List.cons_prefix_cons] at front
  obtain ⟨_, codes, rest, whole⟩ := front
  have code := code_byte_inj (chosen_code_lt _) (chosen_code_lt _) codes
  have forms := chosen_form_of_code code
  rw [forms] at whole holds code
  rw [List.append_assoc] at whole
  have fields := (List.append_inj whole (by rw [bigEndianBytes_length, bigEndianBytes_length])).1
  cases form : chosenForm other.length with
  | seven =>
      rw [form] at code
      exact code
  | sixteen =>
      rw [form] at fields holds holds'
      exact big_endian_bytes_inj holds holds' fields
  | sixtyFour =>
      rw [form] at fields holds holds'
      exact big_endian_bytes_inj holds holds' fields

end Encoder

/-- Encoder and decoder agree on the format, the encoder takes the shortest length
form, and no frame it builds is the front of another. -/
theorem frame_format_agrees (payload maskingKey rest : Bytes) (opcode : WebSocketOpcode)
    (outFrame : WebSocketFrame) (known : isKnown opcode = true)
    (keyLength : maskingKey.length = 4) (storable : payload.length < 2 ^ 63)
    (control : isControl opcode = true → payload.length ≤ 125) :
    parseWebSocketFrame (asClientFrame maskingKey (webSocketMessage payload opcode) ++ rest)
        outFrame = some (.complete, { fin := true, opcode := opcode, payload := payload }, rest) ∧
      (∃ form : LengthForm, form.holds payload.length ∧
        (∀ other : LengthForm, other.holds payload.length → form.extended ≤ other.extended) ∧
        webSocketMessage payload opcode =
          (0x80 ||| opcodeByte opcode) :: UInt8.ofNat (form.code payload.length) ::
            (bigEndianBytes form.extended payload.length ++ payload)) ∧
      ∀ other otherOpcode, other.length < 2 ^ 63 →
        webSocketMessage payload opcode <+: webSocketMessage other otherOpcode →
        webSocketMessage payload opcode = webSocketMessage other otherOpcode := by
  refine ⟨?_, ?_, ?_⟩
  · rw [masked_frame_encode known keyLength storable control]
    exact parse_whole _ rest outFrame
  · exact ⟨chosenForm payload.length, chosen_form_holds storable,
      fun other fits => chosen_form_shortest fits, web_socket_message_eq payload opcode⟩
  · intro other otherOpcode storable' front
    apply front.eq_of_length
    rw [message_length, message_length, prefix_lengths storable storable' front]

theorem frame_format_agrees_greeting :
    parseWebSocketFrame (asClientFrame [1, 2, 3, 4] (webSocketMessage (ascii "Hi") .text) ++
        ascii "rest") emptyFrame =
      some (.complete, { fin := true, opcode := .text, payload := ascii "Hi" }, ascii "rest") :=
  (frame_format_agrees (ascii "Hi") [1, 2, 3, 4] (ascii "rest") .text emptyFrame rfl rfl (by decide)
    (by decide)).1

section Checks

/-- The fields of the frame at the front of a buffer, read off its bytes. -/
def firstByte (data : Bytes) : Byte := data.getD 0 0

def secondByte (data : Bytes) : Byte := data.getD 1 0

def isMasked (data : Bytes) : Bool := decide (secondByte data &&& 0x80 ≠ 0)

def lengthCode (data : Bytes) : Nat := (secondByte data &&& 0x7F).toNat

def lengthEnd (data : Bytes) : Nat :=
  if lengthCode data = 126 then 4 else if lengthCode data = 127 then 10 else 2

def headerSize (data : Bytes) : Nat := lengthEnd data + if isMasked data then 4 else 0

def declaredLength (data : Bytes) : Nat :=
  if lengthCode data = 126 then bigEndian ((data.drop 2).take 2)
  else if lengthCode data = 127 then bigEndian ((data.drop 2).take 8)
  else lengthCode data

def frontOpcode (data : Bytes) : WebSocketOpcode := .ofByte (firstByte data &&& 0x0F)

/-- What the decoder makes of a frame that has arrived. -/
def frontFrame (data : Bytes) : WebSocketFrame where
  fin := decide (firstByte data &&& 0x80 ≠ 0)
  opcode := frontOpcode data
  payload := ((data.drop (headerSize data)).take (declaredLength data)).mapIdx fun index byte =>
    byte ^^^ if isMasked data then ((data.drop (lengthEnd data)).take 4).getD (index % 4) 0 else 0

variable (data : Bytes) (outFrame : WebSocketFrame)

theorem length_end_bounds : 2 ≤ lengthEnd data ∧ lengthEnd data ≤ 10 := by
  unfold lengthEnd
  split_ifs <;> omega

theorem header_size_bounds : 2 ≤ headerSize data ∧ headerSize data ≤ 14 := by
  have bounds := length_end_bounds data
  unfold headerSize
  split_ifs <;> omega

theorem frame_lengths_eq (present : 2 ≤ data.length) :
    frameLengths data (secondByte data) =
      if data.length < lengthEnd data then none else some (declaredLength data, lengthEnd data) := by
  unfold frameLengths lengthEnd declaredLength lengthCode
  dsimp only
  split_ifs with medium few long
  all_goals first
    | rfl
    | omega

theorem parse_frame_eq :
    parseWebSocketFrame data outFrame =
      if data.length < headerSize data then some (.incomplete, outFrame, data)
      else if data.length < sizeAdd (headerSize data) (declaredLength data) then
        some (.incomplete, outFrame, data)
      else if declaredLength data > maxStringSize then none
      else
        (consume data (sizeAdd (headerSize data) (declaredLength data))).map fun rest =>
          (.complete, frontFrame data, rest) := by
  match data with
  | [] =>
      have short : ([] : Bytes).length < headerSize [] := by decide
      rw [if_pos short]
      rfl
  | [first] =>
      have short : [first].length < headerSize [first] := (header_size_bounds [first]).1
      rw [if_pos short]
      rfl
  | first :: second :: tail =>
      have lengths := frame_lengths_eq (first :: second :: tail) (Nat.le_add_left 2 tail.length)
      change frameLengths (first :: second :: tail) second = _ at lengths
      have masked : decide (second &&& 0x80 ≠ 0) = isMasked (first :: second :: tail) := rfl
      have fields : (decide (first &&& 0x80 ≠ 0), WebSocketOpcode.ofByte (first &&& 0x0F)) =
          ((frontFrame (first :: second :: tail)).fin,
            (frontFrame (first :: second :: tail)).opcode) := rfl
      rw [Prod.mk.injEq] at fields
      unfold parseWebSocketFrame
      dsimp only
      rw [lengths, masked, fields.1, fields.2]
      generalize first :: second :: tail = data
      by_cases few : data.length < lengthEnd data
      · have short : data.length < headerSize data := Nat.lt_of_lt_of_le few (Nat.le_add_right _ _)
        rw [if_pos few, if_pos short]
      · rw [if_neg few]
        dsimp only
        cases keyed : isMasked data with
        | false =>
            have size : headerSize data = lengthEnd data := by
              rw [headerSize, keyed]
              rfl
            rw [size, if_neg few]
            simp [frontFrame, keyed, size]
        | true =>
            have size : headerSize data = lengthEnd data + 4 := by
              rw [headerSize, keyed]
              rfl
            rw [size]
            simp [frontFrame, keyed, size]

/-- The header has arrived and its sum with the payload length does not wrap. -/
theorem parse_frame_of_fits (fits : headerSize data + declaredLength data < sizeModulus)
    (header : headerSize data ≤ data.length) :
    parseWebSocketFrame data outFrame =
      if data.length < headerSize data + declaredLength data then some (.incomplete, outFrame, data)
      else if declaredLength data > maxStringSize then none
      else some (.complete, frontFrame data, data.drop (headerSize data + declaredLength data)) := by
  rw [parse_frame_eq, if_neg (Nat.not_lt.mpr header), size_add_of_lt fits]
  split_ifs with few long
  · rfl
  · rfl
  · rw [consume, if_neg few]
    rfl

/-- A sum that wraps is below every header, and no `std::string` holds the payload. -/
theorem parse_frame_of_wraps (wraps : sizeModulus ≤ headerSize data + declaredLength data)
    (header : headerSize data ≤ data.length) (declared : declaredLength data < sizeModulus) :
    parseWebSocketFrame data outFrame = none := by
  have bounds := header_size_bounds data
  have sum : sizeAdd (headerSize data) (declaredLength data) =
      headerSize data + declaredLength data - sizeModulus := by
    rw [sizeAdd, Nat.mod_eq_sub_mod wraps, Nat.mod_eq_of_lt]
    simp only [sizeModulus] at declared ⊢
    omega
  have long : declaredLength data > maxStringSize := by
    simp only [sizeModulus, maxStringSize] at wraps ⊢
    omega
  rw [parse_frame_eq, if_neg (Nat.not_lt.mpr header), sum, if_neg (by omega), if_pos long]

theorem big_endian_lt (bytes : Bytes) : bigEndian bytes < 256 ^ bytes.length := by
  have general : ∀ (bytes : Bytes) (start : Nat),
      bytes.foldl (fun value byte => value * 256 + byte.toNat) start <
        (start + 1) * 256 ^ bytes.length := by
    intro bytes
    induction bytes with
    | nil =>
        intro start
        rw [List.foldl_nil, List.length_nil, Nat.pow_zero, Nat.mul_one]
        exact Nat.lt_succ_self start
    | cons byte bytes ih =>
        intro start
        have small := UInt8.toNat_lt byte
        rw [List.foldl_cons, List.length_cons, Nat.pow_succ, Nat.mul_comm (256 ^ bytes.length),
          ← Nat.mul_assoc]
        exact Nat.lt_of_lt_of_le (ih _) (Nat.mul_le_mul_right _ (by omega))
  have bound := general bytes 0
  rwa [Nat.zero_add, Nat.one_mul] at bound

theorem declared_length_lt : declaredLength data < sizeModulus := by
  have bound : ∀ count ≤ 8, bigEndian ((data.drop 2).take count) < sizeModulus := by
    intro count few
    have length : ((data.drop 2).take count).length ≤ 8 :=
      Nat.le_trans (List.length_take_le _ _) few
    exact Nat.lt_of_lt_of_le (big_endian_lt _) (Nat.pow_le_pow_right (by decide) length)
  unfold declaredLength
  split_ifs
  · exact bound 2 (by decide)
  · exact bound 8 (by decide)
  · exact Nat.lt_trans (UInt8.toNat_lt _) (by decide)

/-- The call has gone past its checks to `payload.resize`: it completes, or the
resize throws. -/
def ReachesPayload : Prop :=
  parseWebSocketFrame data outFrame = none ∨
    ∃ frame rest, parseWebSocketFrame data outFrame = some (.complete, frame, rest)

/-- The length check is exact as long as the sum of header and payload length fits
64 bits; `sized` is the range of `std::string_view::size`. -/
theorem length_check_exact_iff (sized : data.length < sizeModulus) :
    ((data.length < headerSize data + declaredLength data →
        parseWebSocketFrame data outFrame = some (.incomplete, outFrame, data)) ∧
      (ReachesPayload data outFrame → headerSize data + declaredLength data ≤ data.length)) ↔
      data.length < headerSize data ∨ headerSize data + declaredLength data < sizeModulus := by
  by_cases header : headerSize data ≤ data.length
  · by_cases fits : headerSize data + declaredLength data < sizeModulus
    · have parsed := parse_frame_of_fits data outFrame fits header
      refine ⟨fun _ => Or.inr fits, fun _ => ⟨?_, ?_⟩⟩
      · intro few
        rw [parsed, if_pos few]
      · intro reaches
        by_contra few
        rw [if_pos (Nat.lt_of_not_le few)] at parsed
        rcases reaches with threw | ⟨frame, rest, complete⟩
        · rw [parsed] at threw
          cases threw
        · rw [parsed] at complete
          cases complete
    · have threw := parse_frame_of_wraps data outFrame (Nat.le_of_not_lt fits) header
        (declared_length_lt data)
      constructor
      · intro exact
        have waits := exact.1 (by omega)
        rw [threw] at waits
        cases waits
      · rintro (short | small)
        · exact absurd header (Nat.not_le.mpr short)
        · exact absurd small fits
  · have short := Nat.lt_of_not_le header
    have waits : parseWebSocketFrame data outFrame = some (.incomplete, outFrame, data) := by
      rw [parse_frame_eq, if_pos short]
    refine ⟨fun _ => Or.inl short, fun _ => ⟨fun _ => waits, ?_⟩⟩
    rintro (threw | ⟨frame, rest, complete⟩)
    · rw [waits] at threw
      cases threw
    · rw [waits] at complete
      cases complete

theorem length_check_exact_iff_waiting :
    parseWebSocketFrame [0x81, 2, 72] emptyFrame =
      some (.incomplete, emptyFrame, [0x81, 2, 72]) := by
  have exact := (length_check_exact_iff [0x81, 2, 72] emptyFrame (by decide)).mpr
    (Or.inr (by decide +kernel))
  exact exact.1 (by decide +kernel)

/-- A masked frame of 14 bytes that announces all the bytes 64 bits can count. -/
def wrappingFrame : Bytes := [0x82, 0xFF] ++ List.replicate 8 0xFF ++ [1, 2, 3, 4]

theorem wrapping_length_reaches_payload :
    wrappingFrame.length < headerSize wrappingFrame + declaredLength wrappingFrame ∧
      parseWebSocketFrame wrappingFrame emptyFrame ≠
        some (.incomplete, emptyFrame, wrappingFrame) ∧
      ReachesPayload wrappingFrame emptyFrame := by
  have threw : parseWebSocketFrame wrappingFrame emptyFrame = none := by decide +kernel
  refine ⟨by decide +kernel, ?_, Or.inl threw⟩
  rw [threw]
  nofun

/-- The rules for a frame from a client. -/
structure WellFormed : Prop where
  masked : isMasked data = true
  reserved : firstByte data &&& 0x70 = 0
  opcode : isKnown (frontOpcode data) = true
  control : isControl (frontOpcode data) = true →
    firstByte data &&& 0x80 ≠ 0 ∧ declaredLength data ≤ 125

/-- The buffer holds the whole of the frame at its front. -/
def HoldsFrame : Prop := headerSize data + declaredLength data ≤ data.length

/-- Only well-formed frames complete, and the connection that sent another is dropped. -/
structure RefusesMalformed : Prop where
  completes : ∀ frame rest, parseWebSocketFrame data outFrame = some (.complete, frame, rest) →
    WellFormed data
  refuses : HoldsFrame data → ¬WellFormed data →
    (∃ frame rest, parseWebSocketFrame data outFrame = some (.invalid, frame, rest)) ∧
      ∀ (crypto : Worker.Crypto) (event : ClientEvent) (connection : ClientConnection)
        (actions : List Action), connection.isWebSocket = true → connection.readBuffer = data →
          .disconnect ∈ ((Worker.clientLoop crypto event).run (connection, actions)).2

theorem parse_frame_completes {frame : WebSocketFrame} {rest : Bytes}
    (complete : parseWebSocketFrame data outFrame = some (.complete, frame, rest)) :
    HoldsFrame data := by
  by_cases header : headerSize data ≤ data.length
  · by_cases fits : headerSize data + declaredLength data < sizeModulus
    · rw [parse_frame_of_fits data outFrame fits header] at complete
      by_contra few
      rw [if_pos (Nat.lt_of_not_le few)] at complete
      cases complete
    · rw [parse_frame_of_wraps data outFrame (Nat.le_of_not_lt fits) header
        (declared_length_lt data)] at complete
      cases complete
  · rw [parse_frame_eq, if_pos (Nat.lt_of_not_le header)] at complete
    cases complete

theorem parse_frame_never_invalid (frame : WebSocketFrame) (rest : Bytes) :
    parseWebSocketFrame data outFrame ≠ some (.invalid, frame, rest) := by
  rw [parse_frame_eq]
  split_ifs
  · nofun
  · nofun
  · nofun
  · intro invalid
    obtain ⟨_, _, same⟩ := Option.map_eq_some_iff.mp invalid
    cases same

/-- No frame is refused, so malformed ones are refused where there are none. -/
theorem refuses_malformed_iff :
    RefusesMalformed data outFrame ↔ (HoldsFrame data → WellFormed data) := by
  constructor
  · intro refusal holds
    by_contra malformed
    obtain ⟨frame, rest, invalid⟩ := (refusal.refuses holds malformed).1
    exact parse_frame_never_invalid data outFrame frame rest invalid
  · intro condition
    refine ⟨?_, ?_⟩
    · intro frame rest complete
      exact condition (parse_frame_completes data outFrame complete)
    · intro holds malformed
      exact absurd (condition holds) malformed

/-- An unmasked text frame is taken and handed to the router. -/
theorem unmasked_text_completes :
    HoldsFrame [0x81, 2, 72, 105] ∧ ¬WellFormed [0x81, 2, 72, 105] ∧
      parseWebSocketFrame [0x81, 2, 72, 105] emptyFrame =
        some (.complete, { fin := true, opcode := .text, payload := ascii "Hi" }, []) ∧
      ¬RefusesMalformed [0x81, 2, 72, 105] emptyFrame := by
  have malformed : ¬WellFormed [0x81, 2, 72, 105] := by
    intro wellFormed
    exact absurd wellFormed.masked (by decide)
  have complete : parseWebSocketFrame [0x81, 2, 72, 105] emptyFrame =
      some (.complete, { fin := true, opcode := .text, payload := ascii "Hi" }, []) := by
    decide +kernel
  refine ⟨parse_frame_completes _ _ complete, malformed, complete, ?_⟩
  intro refusal
  exact malformed (refusal.completes _ _ complete)

end Checks

end HttpServer.WebSocketFrames
