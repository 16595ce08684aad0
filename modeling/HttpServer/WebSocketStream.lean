import HttpServer.ClientConnection
import HttpServer.StreamDecoding
import Mathlib.Tactic.Ring

/-!
# WebSocket frames in a byte stream

`ClientFrame` is a frame a client may send, in the length form it chose, and
`ClientFrame.encode` its bytes. `parseWebSocketFrame` reads every such frame back
and asks for more on each proper prefix, so it is a format of the stream library
and any cut of a list of frames decodes to that list.
-/

namespace HttpServer.WebSocketStream

open ClientConnection StreamDecoding

def opcodeByte : WebSocketOpcode → Byte
  | .continuation => 0
  | .text => 1
  | .binary => 2
  | .close => 8
  | .ping => 9
  | .pong => 10
  | .other value => value

def isKnown : WebSocketOpcode → Bool
  | .other _ => false
  | _ => true

def isControl : WebSocketOpcode → Bool
  | .close | .ping | .pong => true
  | _ => false

/-- The forms of the payload length: 7, 16 or 64 bits. -/
inductive LengthForm where
  | seven | sixteen | sixtyFour
deriving DecidableEq

namespace LengthForm

def holds (form : LengthForm) (length : Nat) : Prop :=
  match form with
  | .seven => length ≤ 125
  | .sixteen => length < 2 ^ 16
  | .sixtyFour => length < 2 ^ 64

def code (form : LengthForm) (length : Nat) : Nat :=
  match form with
  | .seven => length
  | .sixteen => 126
  | .sixtyFour => 127

def extended : LengthForm → Nat
  | .seven => 0
  | .sixteen => 2
  | .sixtyFour => 8

end LengthForm

def bigEndianBytes : Nat → Nat → Bytes
  | 0, _ => []
  | count + 1, value => UInt8.ofNat (value / 256 ^ count) :: bigEndianBytes count value

structure ClientFrame where
  fin : Bool
  opcode : WebSocketOpcode
  maskingKey : Bytes
  form : LengthForm
  payload : Bytes
  known : isKnown opcode = true
  keyLength : maskingKey.length = 4
  storable : payload.length < 2 ^ 63
  fits : form.holds payload.length
  control : isControl opcode = true → fin = true ∧ payload.length ≤ 125

/-- The masking of RFC 6455, its own inverse. -/
def mask (maskingKey payload : Bytes) : Bytes :=
  payload.mapIdx fun index byte => byte ^^^ maskingKey.getD (index % 4) 0

namespace ClientFrame

def firstByte (frame : ClientFrame) : Byte :=
  (if frame.fin then 0x80 else 0) ||| opcodeByte frame.opcode

def secondByte (frame : ClientFrame) : Byte :=
  0x80 ||| UInt8.ofNat (frame.form.code frame.payload.length)

def lengthBytes (frame : ClientFrame) : Bytes :=
  bigEndianBytes frame.form.extended frame.payload.length

def body (frame : ClientFrame) : Bytes :=
  frame.lengthBytes ++ (frame.maskingKey ++ mask frame.maskingKey frame.payload)

def encode (frame : ClientFrame) : Bytes := frame.firstByte :: frame.secondByte :: frame.body

def value (frame : ClientFrame) : WebSocketFrame where
  fin := frame.fin
  opcode := frame.opcode
  payload := frame.payload

end ClientFrame

section Numbers

theorem bigEndian_foldl (count value accumulated : Nat) :
    (bigEndianBytes count value).foldl (fun total byte => total * 256 + byte.toNat) accumulated =
      accumulated * 256 ^ count + value % 256 ^ count := by
  induction count generalizing accumulated with
  | zero =>
      simp only [bigEndianBytes, List.foldl_nil, Nat.pow_zero, Nat.mul_one, Nat.mod_one,
        Nat.add_zero]
  | succ count ih =>
      have byte : (UInt8.ofNat (value / 256 ^ count)).toNat = value / 256 ^ count % 256 :=
        UInt8.toNat_ofNat'
      have split : value % 256 ^ (count + 1) =
          value % 256 ^ count + 256 ^ count * (value / 256 ^ count % 256) := Nat.mod_pow_succ
      simp only [bigEndianBytes, List.foldl_cons]
      rw [ih, byte, split]
      ring

theorem bigEndian_bytes {count value : Nat} (bound : value < 256 ^ count) :
    bigEndian (bigEndianBytes count value) = value := by
  rw [bigEndian, bigEndian_foldl, Nat.zero_mul, Nat.zero_add, Nat.mod_eq_of_lt bound]

theorem bigEndianBytes_length (count value : Nat) :
    (bigEndianBytes count value).length = count := by
  induction count with
  | zero => rfl
  | succ count ih => rw [bigEndianBytes, List.length_cons, ih]

theorem short_code : ∀ code < 128, ((0x80 ||| UInt8.ofNat code) &&& 0x7F).toNat = code := by
  decide +kernel

theorem mask_bit : ∀ code < 128, (0x80 ||| UInt8.ofNat code) &&& 0x80 ≠ 0 := by
  decide +kernel

end Numbers

section Mask

theorem mask_length (maskingKey payload : Bytes) :
    (mask maskingKey payload).length = payload.length := List.length_mapIdx

theorem mask_mask (maskingKey payload : Bytes) :
    mask maskingKey (mask maskingKey payload) = payload := by
  apply List.ext_getElem
  · rw [mask_length, mask_length]
  · intro index _ _
    simp only [mask, List.getElem_mapIdx, UInt8.xor_assoc, UInt8.xor_self, UInt8.xor_zero]

end Mask

section Reading

variable (frame : ClientFrame)

theorem first_byte_read :
    decide (frame.firstByte &&& 0x80 ≠ 0) = frame.fin ∧
      WebSocketOpcode.ofByte (frame.firstByte &&& 0x0F) = frame.opcode := by
  have known := frame.known
  unfold ClientFrame.firstByte
  cases frame.fin <;> cases opcode : frame.opcode <;> rw [opcode] at known <;>
    first
    | exact ⟨by decide, by decide⟩
    | exact absurd known Bool.false_ne_true

theorem code_lt : frame.form.code frame.payload.length < 128 := by
  have fits := frame.fits
  cases form : frame.form <;> rw [form] at fits <;>
    simp only [LengthForm.holds, LengthForm.code] at fits ⊢ <;>
    omega

theorem length_bytes_length : frame.lengthBytes.length = frame.form.extended :=
  bigEndianBytes_length _ _

theorem take_of_prefix {front more tail : Bytes} (start : tail <+: front ++ more)
    (enough : front.length ≤ tail.length) : tail.take front.length = front := by
  obtain ⟨rest, split⟩ := start
  have cut := congrArg (List.take front.length) split
  rwa [List.take_append_of_le_length enough, List.take_left] at cut

theorem short_length_read {code : Nat} (named : frame.form.code frame.payload.length = code) :
    (frame.secondByte &&& 0x7F).toNat = code := by
  rw [← named]
  exact short_code _ (code_lt frame)

theorem frame_lengths_few (first : Byte) {tail : Bytes}
    (few : tail.length < frame.form.extended) :
    frameLengths (first :: frame.secondByte :: tail) frame.secondByte = none := by
  unfold frameLengths
  cases form : frame.form with
  | seven =>
      rw [form] at few
      exact absurd few (Nat.not_lt_zero _)
  | sixteen =>
      have short := short_length_read frame (show _ = 126 by rw [form]; rfl)
      rw [form] at few
      simp only [LengthForm.extended] at few
      simp only [short, if_true, List.length_cons]
      rw [if_pos (by omega)]
  | sixtyFour =>
      have short := short_length_read frame (show _ = 127 by rw [form]; rfl)
      rw [form] at few
      simp only [LengthForm.extended] at few
      simp only [short, List.length_cons]
      rw [if_neg (by decide), if_pos trivial, if_pos (by omega)]

theorem frame_lengths_enough (first : Byte) {tail more : Bytes}
    (start : tail <+: frame.lengthBytes ++ more) (enough : frame.form.extended ≤ tail.length) :
    frameLengths (first :: frame.secondByte :: tail) frame.secondByte =
      some (frame.payload.length, 2 + frame.form.extended) := by
  have fits := frame.fits
  have read : tail.take frame.form.extended =
      bigEndianBytes frame.form.extended frame.payload.length := by
    have cut := take_of_prefix start (Nat.le_trans (Nat.le_of_eq (length_bytes_length frame)) enough)
    rwa [length_bytes_length] at cut
  unfold frameLengths
  cases form : frame.form with
  | seven =>
      have short := short_length_read frame (show _ = frame.payload.length by rw [form]; rfl)
      rw [form] at fits
      simp only [LengthForm.holds] at fits
      simp only [short]
      rw [if_neg (by omega), if_neg (by omega)]
      rfl
  | sixteen =>
      have short := short_length_read frame (show _ = 126 by rw [form]; rfl)
      rw [form] at fits read enough
      simp only [LengthForm.holds, LengthForm.extended] at fits read enough
      simp only [short, if_true, List.length_cons, List.drop_succ_cons, List.drop_zero]
      rw [if_neg (by omega), read, bigEndian_bytes (by omega)]
      rfl
  | sixtyFour =>
      have short := short_length_read frame (show _ = 127 by rw [form]; rfl)
      rw [form] at fits read enough
      simp only [LengthForm.holds, LengthForm.extended] at fits read enough
      simp only [short, List.length_cons, List.drop_succ_cons, List.drop_zero]
      rw [if_neg (by decide), if_pos trivial, if_neg (by omega), read, bigEndian_bytes (by omega)]
      rfl

theorem frame_size (size : Nat) (small : size ≤ 14) (frame : ClientFrame) :
    sizeAdd size frame.payload.length = size + frame.payload.length := by
  have storable := frame.storable
  apply size_add_of_lt
  simp only [sizeModulus]
  omega

theorem body_split (frame : ClientFrame) (rest : Bytes) :
    frame.body ++ rest =
      frame.lengthBytes ++ (frame.maskingKey ++ (mask frame.maskingKey frame.payload ++ rest)) := by
  simp only [ClientFrame.body, List.append_assoc]

theorem parse_whole (frame : ClientFrame) (rest : Bytes) (outFrame : WebSocketFrame) :
    parseWebSocketFrame (frame.encode ++ rest) outFrame =
      some (.complete, frame.value, rest) := by
  have lengthSize := length_bytes_length frame
  have keySize := frame.keyLength
  have masked : decide (frame.secondByte &&& 0x80 ≠ 0) = true :=
    decide_eq_true (mask_bit _ (code_lt frame))
  have tailSize : (frame.body ++ rest).length =
      frame.form.extended + 4 + frame.payload.length + rest.length := by
    rw [body_split]
    simp only [List.length_append, mask_length, lengthSize, keySize]
    omega
  have announced : frameLengths (frame.firstByte :: frame.secondByte :: (frame.body ++ rest))
      frame.secondByte = some (frame.payload.length, 2 + frame.form.extended) := by
    apply frame_lengths_enough
    · rw [body_split]
    · omega
  have afterLengths : (frame.firstByte :: frame.secondByte :: (frame.body ++ rest)).drop
      (2 + frame.form.extended) =
        frame.maskingKey ++ (mask frame.maskingKey frame.payload ++ rest) := by
    rw [body_split, Nat.add_comm]
    simp only [List.drop_succ_cons]
    rw [← lengthSize, List.drop_left]
  have afterKey : (frame.firstByte :: frame.secondByte :: (frame.body ++ rest)).drop
      (2 + frame.form.extended + 4) = mask frame.maskingKey frame.payload ++ rest := by
    rw [← List.drop_drop, afterLengths, ← keySize, List.drop_left]
  have key : (frame.maskingKey ++ (mask frame.maskingKey frame.payload ++ rest)).take 4 =
      frame.maskingKey := by
    rw [← keySize, List.take_left]
  have payload : (mask frame.maskingKey frame.payload ++ rest).take frame.payload.length =
      mask frame.maskingKey frame.payload := by
    rw [← mask_length frame.maskingKey frame.payload, List.take_left]
  have bounded : frame.form.extended ≤ 8 := by
    cases frame.form <;> decide
  have total := frame_size (2 + frame.form.extended + 4) (by omega) frame
  have storable := frame.storable
  have first := first_byte_read frame
  have remaining : consume (frame.firstByte :: frame.secondByte :: (frame.body ++ rest))
      (2 + frame.form.extended + 4 + frame.payload.length) = some rest := by
    unfold consume
    rw [if_neg (by simp only [List.length_cons]; omega), ← List.drop_drop, afterKey,
      ← mask_length frame.maskingKey frame.payload, List.drop_left]
  have shape : frame.encode ++ rest = frame.firstByte :: frame.secondByte :: (frame.body ++ rest) :=
    rfl
  rw [shape]
  simp only [parseWebSocketFrame, announced, masked, Bool.true_and, if_true, afterLengths, key,
    total, afterKey, payload, remaining]
  have keyThere : ¬ decide ((frame.firstByte :: frame.secondByte :: (frame.body ++ rest)).length <
      2 + frame.form.extended + 4) = true := by
    simp only [List.length_cons, decide_eq_true_eq]
    omega
  have payloadThere : ¬ (frame.firstByte :: frame.secondByte :: (frame.body ++ rest)).length <
      2 + frame.form.extended + 4 + frame.payload.length := by
    simp only [List.length_cons]
    omega
  have short : ¬ frame.payload.length > maxStringSize := by
    simp only [maxStringSize]
    omega
  rw [if_neg keyThere, if_neg payloadThere, if_neg short, Option.map_some, first.1, first.2]
  have unmasked := mask_mask frame.maskingKey frame.payload
  rw [mask] at unmasked
  rw [unmasked, ClientFrame.value]

theorem parse_short (frame : ClientFrame) (buffer missing : Bytes) (outFrame : WebSocketFrame)
    (split : buffer ++ missing = frame.encode) (lacks : missing ≠ []) :
    parseWebSocketFrame buffer outFrame = some (.incomplete, outFrame, buffer) := by
  have masked : decide (frame.secondByte &&& 0x80 ≠ 0) = true :=
    decide_eq_true (mask_bit _ (code_lt frame))
  have bounded : frame.form.extended ≤ 8 := by
    cases frame.form <;> decide
  have total := frame_size (2 + frame.form.extended + 4) (by omega) frame
  match buffer with
  | [] => rfl
  | [_] => rfl
  | first :: second :: tail =>
      simp only [ClientFrame.encode, List.cons_append, List.cons.injEq] at split
      obtain ⟨-, rfl, same⟩ := split
      have sizes := congrArg List.length same
      have positive := List.length_pos_iff.mpr lacks
      simp only [ClientFrame.body, List.length_append, mask_length, length_bytes_length,
        frame.keyLength] at sizes
      by_cases few : tail.length < frame.form.extended
      · simp only [parseWebSocketFrame, frame_lengths_few frame first few]
      · have announced : frameLengths (first :: frame.secondByte :: tail) frame.secondByte =
            some (frame.payload.length, 2 + frame.form.extended) := by
          apply frame_lengths_enough
          · exact ⟨missing, same⟩
          · omega
        simp only [parseWebSocketFrame, announced, masked, Bool.true_and, if_true, total,
          List.length_cons]
        by_cases key : tail.length + 1 + 1 < 2 + frame.form.extended + 4
        · rw [if_pos (by rw [decide_eq_true_eq]; exact key)]
        · rw [if_neg (by rw [decide_eq_true_eq]; exact key), if_pos (by omega)]

theorem incomplete_keeps {data left : Bytes} {outFrame frame : WebSocketFrame}
    (parsed : parseWebSocketFrame data outFrame = some (.incomplete, frame, left)) :
    left = data := by
  unfold parseWebSocketFrame at parsed
  split at parsed
  · split at parsed
    · cases parsed
      rfl
    · dsimp only at parsed
      split at parsed
      · cases parsed
        rfl
      · split at parsed
        all_goals
          split at parsed
          · cases parsed
            rfl
          · split at parsed
            · cases parsed
            · obtain ⟨rest, -, same⟩ := Option.map_eq_some_iff.mp parsed
              cases same
  · cases parsed
    rfl

end Reading

/-- `parseWebSocketFrame` on the read buffer, as `handleClientData` calls it. -/
def frameReading (outFrame : WebSocketFrame) (data : Bytes) : Decoding Byte WebSocketFrame :=
  match parseWebSocketFrame data outFrame with
  | some (.complete, frame, rest) => .complete frame rest
  | some (.incomplete, _, left) => .incomplete left
  | _ => .failed

theorem frame_reading_shrinks (outFrame : WebSocketFrame) (data : Bytes) (frame : WebSocketFrame)
    (rest : Bytes) (read : frameReading outFrame data = .complete frame rest) :
    rest.length < data.length := by
  unfold frameReading at read
  split at read
  · rename_i parsed
    cases read
    obtain ⟨size, positive, fits, rfl⟩ := parse_web_socket_frame_completes parsed
    rw [List.length_drop]
    omega
  · cases read
  · cases read

def frameDecoder (outFrame : WebSocketFrame) : Decoder Byte WebSocketFrame where
  decode := frameReading outFrame
  shrinks := frame_reading_shrinks outFrame

def frameFormat (outFrame : WebSocketFrame) : Format (frameDecoder outFrame) ClientFrame where
  encode := ClientFrame.encode
  value := ClientFrame.value
  empty := rfl
  whole := by
    intro frame rest
    simp only [frameDecoder, frameReading, parse_whole]
  short := by
    intro frame buffer missing split lacks
    simp only [frameDecoder, frameReading, parse_short frame buffer missing outFrame split lacks]

/-- Any cut of the bytes of a list of frames gives these frames and leaves nothing,
and no call that asks for more touches the buffer. -/
theorem frame_stream_decodes (outFrame : WebSocketFrame) (frames : List ClientFrame)
    (pieces : List Bytes) (stream : pieces.flatten = frames.flatMap ClientFrame.encode) :
    (frameDecoder outFrame).feed [] [] pieces = some (frames.map ClientFrame.value, []) ∧
      ∀ data frame left, parseWebSocketFrame data outFrame = some (.incomplete, frame, left) →
        left = data := by
  constructor
  · exact (frameFormat outFrame).feed_pieces pieces frames stream
  · intro data frame left parsed
    exact incomplete_keeps parsed

def greetingFrame : ClientFrame where
  fin := false
  opcode := .text
  maskingKey := [1, 2, 3, 4]
  form := .sixteen
  payload := ascii "hello"
  known := rfl
  keyLength := rfl
  storable := by decide
  fits := by unfold LengthForm.holds; decide
  control := nofun

def pingFrame : ClientFrame where
  fin := true
  opcode := .ping
  maskingKey := [9, 0, 9, 0]
  form := .seven
  payload := []
  known := rfl
  keyLength := rfl
  storable := by decide
  fits := by unfold LengthForm.holds; decide
  control := fun _ => ⟨rfl, by decide⟩

/-- A text frame cut inside its length and inside its key, then a ping. -/
theorem frame_stream_decodes_greeting :
    ((frameDecoder emptyFrame).feed [] []
        [[1, 254, 0], [5, 1, 2], [3, 4, 105, 103, 111, 104, 110, 137], [128, 9, 0, 9, 0]] =
      some ([{ fin := false, opcode := .text, payload := ascii "hello" },
        { fin := true, opcode := .ping, payload := [] }], [])) ∧
      ∀ data frame left, parseWebSocketFrame data emptyFrame = some (.incomplete, frame, left) →
        left = data :=
  frame_stream_decodes emptyFrame [greetingFrame, pingFrame]
    [[1, 254, 0], [5, 1, 2], [3, 4, 105, 103, 111, 104, 110, 137], [128, 9, 0, 9, 0]] (by decide)

end HttpServer.WebSocketStream
