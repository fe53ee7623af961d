import EspMqtt.MsgParse
import EspMqtt.Transport

/-! `mqtt_message_receive`: one call of the incremental packet reader. -/
namespace EspMqtt

/-- The receive fields of `mqtt_state_t`. -/
structure RxState where
  inBuffer : List UInt8
  inBufferLength : ℕ
  messageLength : ℕ
  inBufferReadLen : ℕ
  deriving DecidableEq, Repr

/-- The four return values: -2, -1, 0 and 1. -/
inductive Recv where
  | failure | midMessageTimeout | nothing | message
  deriving DecidableEq, Repr

/-- `esp_mqtt_handle_transport_read_error`; the error event that goes with -2
is dispatched by the caller. -/
def handleTransportReadError (midMessage : Bool) : ReadResult → Recv
  | .timeout => if midMessage then .midMessageTimeout else .nothing
  | _ => .failure

/-- The bytes just read land behind the ones read before. -/
def RxState.store (s : RxState) (bs : List UInt8) : RxState :=
  {s with
    inBuffer := ByteBuffer.splice s.inBuffer s.inBufferReadLen bs
    inBufferReadLen := s.inBufferReadLen+bs.length}

/-- First byte of the fixed header. `none` means: go on. -/
def receiveFirstByte (t : Transport) (s : RxState) : Option Recv × Transport × RxState :=
  if s.inBufferReadLen = 0 then
    match espTransportRead t 1 with
    | (.bytes bs, t) =>
      if mqttHasValidMsgHdr (bs.getD 0 0) then (none, t, s.store bs)
      -- the byte is in the buffer, but it is not counted
      else (some .failure, t, {s with inBuffer := ByteBuffer.splice s.inBuffer 0 bs})
    | (r, t) => (some (handleTransportReadError false r), t, s)
  else (none, t, s)

/-- `*(buf - 1) & 0x80`. -/
def RxState.lastContinues (s : RxState) : Bool :=
  s.inBuffer.getD (s.inBufferReadLen-1) 0 &&& 0x80 != 0

/-- The do-while loop over the Remaining Length bytes, one read per byte; six
rounds are enough to bring the count to its bound. -/
def remainingLengthLoop : ℕ → Transport → RxState → Option Recv × Transport × RxState
  | 0, t, s => (none, t, s)
  | k+1, t, s =>
    match espTransportRead t 1 with
    | (.bytes bs, t) =>
      let s := s.store bs
      if s.inBufferReadLen < 6 ∧ s.lastContinues then remainingLengthLoop k t s else (none, t, s)
    | (r, t) => (some (handleTransportReadError true r), t, s)

/-- The Remaining Length stage: entered with only the first byte read, or
whenever the last byte read has its high bit set and fewer than six are there. -/
def receiveRemainingLength (t : Transport) (s : RxState) : Option Recv × Transport × RxState :=
  if s.inBufferReadLen = 1 ∨ (s.inBufferReadLen < 6 ∧ s.lastContinues) then
    remainingLengthLoop 6 t s
  else (none, t, s)

/-- Read towards `totalLen` bytes once. -/
def receiveUpTo (totalLen : ℕ) (t : Transport) (s : RxState) : Recv × Transport × RxState :=
  if s.inBufferReadLen < totalLen then
    match espTransportRead t (totalLen-s.inBufferReadLen) with
    | (.bytes bs, t) =>
      let s := s.store bs
      if s.inBufferReadLen < totalLen then (.nothing, t, s) else (.message, t, s)
    | (r, t) => (handleTransportReadError true r, t, s)
  else (.message, t, s)

/-- The two topic length bytes of a PUBLISH larger than the buffer. The request
is `in_buffer_read_len - fixed_header_len + 2` bytes, as written. -/
def receiveTopicLength (fixedHeaderLen : ℕ) (t : Transport) (s : RxState) :
    Option Recv × Transport × RxState :=
  if s.inBufferReadLen < fixedHeaderLen+2 then
    match espTransportRead t (s.inBufferReadLen-fixedHeaderLen+2) with
    | (.bytes bs, t) =>
      let s := s.store bs
      if s.inBufferReadLen < fixedHeaderLen+2 then (some .nothing, t, s) else (none, t, s)
    | (r, t) => (some (handleTransportReadError true r), t, s)
  else (none, t, s)

/-- A PUBLISH larger than the buffer: read its header, then fill the buffer. -/
def receiveOversized (fixedHeaderLen : ℕ) (t : Transport) (s : RxState) :
    Recv × Transport × RxState :=
  match receiveTopicLength fixedHeaderLen t s with
  | (some r, t, s) => (r, t, s)
  | (none, t, s) =>
    let topicLen := be16 s.inBuffer fixedHeaderLen
    let headerLen := fixedHeaderLen+topicLen+(if 0 < mqttGetQos (s.inBuffer.getD 0 0) then 2 else 0)
    if s.inBufferLength < headerLen then (.failure, t, s)
    else receiveUpTo s.inBufferLength t s

/-- Everything behind the fixed header. -/
def receiveRest (t : Transport) (s : RxState) : Recv × Transport × RxState :=
  let l := mqttGetTotalLength s.inBuffer s.inBufferReadLen
  let s := {s with messageLength := l.1}
  if s.inBufferLength < l.1 then
    if mqttGetType (s.inBuffer.getD 0 0) = some .publish then receiveOversized l.2 t s
    else (.failure, t, s)
  else receiveUpTo l.1 t s

/-- `mqtt_message_receive`. -/
def mqttMessageReceive (t : Transport) (s : RxState) : Recv × Transport × RxState :=
  match receiveFirstByte t {s with messageLength := 0} with
  | (some r, t, s) => (r, t, s)
  | (none, t, s) =>
    match receiveRemainingLength t s with
    | (some r, t, s) => (r, t, s)
    | (none, t, s) => receiveRest t s

end EspMqtt
