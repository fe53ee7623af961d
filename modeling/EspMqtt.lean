import EspMqtt.Library.ByteBuffer
import EspMqtt.Library.Base128
import EspMqtt.MsgParse
import EspMqtt.Transport
import EspMqtt.Receive
import EspMqtt.Wire
import EspMqtt.Framing
import EspMqtt.FramingRuns
import EspMqtt.TopicValid
import EspMqtt.Receiver
import EspMqtt.Event
import EspMqtt.Runtime
import EspMqtt.RuntimeApi
import EspMqtt.RuntimeRun
import EspMqtt.RuntimeSlots
import EspMqtt.SlotConservation
import EspMqtt.RuntimeFifo
import EspMqtt.FifoRefinement
import EspMqtt.RuntimeReady
import EspMqtt.PublishParse
import EspMqtt.PublishPayload
import EspMqtt.DeliverPublish
import EspMqtt.ReceivePublish
import EspMqtt.Delivery
import EspMqtt.InboundDelivery
import EspMqtt.MsgBuild
import EspMqtt.Outbox
import EspMqtt.Client
import EspMqtt.ClientApi
import EspMqtt.ClientTask
import EspMqtt.ClientRun
import EspMqtt.PublishBytes
import EspMqtt.ClientCore
import EspMqtt.ClientRules
import EspMqtt.WorkerRules
import EspMqtt.RunRules
import EspMqtt.PacketStream
import EspMqtt.ControlPackets
import EspMqtt.StreamIntegrity
import EspMqtt.CleanSession
import EspMqtt.AckTargets
import EspMqtt.Ledger
import EspMqtt.LedgerApi
import EspMqtt.LedgerTask
import EspMqtt.PacketIds
import EspMqtt.Outcomes
import EspMqtt.OutboxMarks
import EspMqtt.FlowControl
import EspMqtt.Admission
import EspMqtt.FailedCalls
import EspMqtt.OutboxBudget
import EspMqtt.Intake
import EspMqtt.PublishAcks
import EspMqtt.Mqtt5Connack
import EspMqtt.ServerCapabilities
import EspMqtt.ReceivePrefix
import EspMqtt.ConnackDecision
import EspMqtt.Mqtt5Publish
import EspMqtt.TopicAliases
import EspMqtt.Config
import EspMqtt.SubscriptionList
import EspMqtt.SubscriptionVerdict
import EspMqtt.ReceiverAgreement
import EspMqtt.Lifecycle
import EspMqtt.LifecycleCalls
import EspMqtt.LifecycleRuns
import EspMqtt.Library.ByteReader
import EspMqtt.WireDecode
import EspMqtt.Codec
import EspMqtt.MsgBuffer
import EspMqtt.CodecBuffer
import EspMqtt.CodecRoundTrip
import EspMqtt.RuntimeEncoding
import EspMqtt.Mqtt5Msg
import EspMqtt.Mqtt5Compose
import EspMqtt.Mqtt5Wire
import EspMqtt.Mqtt5Codec
import EspMqtt.Mqtt5Packets
import EspMqtt.Mqtt5RoundTrip
import EspMqtt.Mqtt5PublishRead
import EspMqtt.StoredCopy
import EspMqtt.Reassembly
import EspMqtt.OversizedPublish
import EspMqtt.RemainingLength
import EspMqtt.SubackDelivery
import EspMqtt.ReplyIds
import EspMqtt.PublishLoop
import EspMqtt.PublishBounds
import EspMqtt.BrokerAddress
import EspMqtt.ConnectionLine
import EspMqtt.ConnectionTurns
import EspMqtt.DisconnectEvents
import EspMqtt.BoundedRead
import EspMqtt.TopicReads
import EspMqtt.TopicGrammar
import EspMqtt.ConfigReads
import EspMqtt.ConfigGrammar
import EspMqtt.MqttOutbox
import EspMqtt.OutboxStore
import EspMqtt.Requeue
import EspMqtt.OutboxExpiry
import EspMqtt.ConnackRejected
import EspMqtt.ResponseTopic
import EspMqtt.LengthLimit
import EspMqtt.FieldLimits
import EspMqtt.CapacityNote
import EspMqtt.CapacityPeak
import EspMqtt.VariableLength
import EspMqtt.PercentDecode
import EspMqtt.SetUri
import EspMqtt.UserPropertyBlock
import EspMqtt.AckPackets
import EspMqtt.CodecAnswers
import EspMqtt.UserPropertyList
import EspMqtt.Library.Ownership
import EspMqtt.ConfigMemory
import EspMqtt.PropertyMemory
import EspMqtt.ConfigOwnership
import EspMqtt.PropertyOwnership
import EspMqtt.ClientLifetime
import EspMqtt.PendingStates
import EspMqtt.ReceiveBounds
import EspMqtt.Retransmission
