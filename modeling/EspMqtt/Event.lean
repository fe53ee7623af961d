import Mathlib.Data.List.Basic
import Mathlib.Tactic

/-! The events of the client (`mqtt_client.h`) as its handlers receive them. -/
namespace EspMqtt

inductive EventId where
  | connected | disconnected | subscribed | unsubscribed | published | deleted | error | data
  | other
  deriving DecidableEq, Repr

inductive ErrorType where
  | none | tcpTransport | connectionRefused | subscribeFailed
  deriving DecidableEq, Repr

/-- `esp_mqtt_error_codes_t`, as far as it is read again. -/
structure ErrorCodes where
  errorType : ErrorType
  connectReturnCode : ℤ
  espTlsCertVerifyFlags : ℤ
  espTlsStackErr : ℤ
  deriving DecidableEq, Repr

/-- `esp_mqtt_event_t`; a pointer is `none` when it is NULL, else the bytes it
points at. -/
structure MqttEvent where
  id : EventId
  msgId : ℤ
  topic : Option (List UInt8)
  topicLen : ℤ
  data : Option (List UInt8)
  dataLen : ℤ
  totalDataLen : ℤ
  currentDataOffset : ℤ
  qos : ℤ
  retain : Bool
  dup : Bool
  errorHandle : Option ErrorCodes
  deriving DecidableEq, Repr

end EspMqtt
