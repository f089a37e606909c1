import IotDeviceSdk.Infra.Run
import IotDeviceSdk.Infra.StableOrder
import IotDeviceSdk.Infra.Stream
import IotDeviceSdk.Infra.Outbox
import IotDeviceSdk.Infra.Levels
import IotDeviceSdk.Infra.Linked
import IotDeviceSdk.Infra.Sessions
import IotDeviceSdk.Infra.SwapDelete
import IotDeviceSdk.Infra.OneShot
import IotDeviceSdk.Base
import IotDeviceSdk.Datastructures.Vector
import IotDeviceSdk.Datastructures.VectorRun
import IotDeviceSdk.MemoryLimiter.Limiter
import IotDeviceSdk.MemoryLimiter.Accounts
import IotDeviceSdk.MemoryLimiter.Sizes
import IotDeviceSdk.MemoryLimiter.Entries
import IotDeviceSdk.EventDispatcher.TimeEvent
import IotDeviceSdk.EventDispatcher.TimeEventSpec
import IotDeviceSdk.EventDispatcher.TimeEventRun
import IotDeviceSdk.EventDispatcher.Dispatcher
import IotDeviceSdk.EventDispatcher.DispatcherStep
import IotDeviceSdk.EventDispatcher.Sockets
import IotDeviceSdk.EventLoop.Pass
import IotDeviceSdk.EventLoop.Delivery
import IotDeviceSdk.EventLoop.Timeout
import IotDeviceSdk.Io.NetLayer
import IotDeviceSdk.Io.Continuations
import IotDeviceSdk.Tls.Layer
import IotDeviceSdk.Tls.Delivery
import IotDeviceSdk.Mqtt.Message
import IotDeviceSdk.Mqtt.Packet
import IotDeviceSdk.Mqtt.Serialiser
import IotDeviceSdk.Mqtt.Parser
import IotDeviceSdk.Mqtt.ParserSplit
import IotDeviceSdk.Mqtt.ParserPacket
import IotDeviceSdk.Mqtt.Codec.Layer
import IotDeviceSdk.Mqtt.Codec.Pull
import IotDeviceSdk.Mqtt.Codec.Isolation
import IotDeviceSdk.Mqtt.Codec.Reassembly
import IotDeviceSdk.Mqtt.Codec.Framing
import IotDeviceSdk.Mqtt.Codec.Push
import IotDeviceSdk.Mqtt.Logic.Data
import IotDeviceSdk.Mqtt.Logic.DataHelpers
import IotDeviceSdk.Mqtt.Logic.Context
import IotDeviceSdk.Mqtt.Logic.Commands
import IotDeviceSdk.Mqtt.Logic.Layer
import IotDeviceSdk.Mqtt.Logic.Outcome
import IotDeviceSdk.Mqtt.SerialiserPacket
import IotDeviceSdk.Mqtt.Codec.Encoding
import IotDeviceSdk.Mqtt.Codec.RoundTrip
import IotDeviceSdk.Mqtt.Logic.Settled
import IotDeviceSdk.Mqtt.Logic.Valid
import IotDeviceSdk.Mqtt.Logic.Reachable
import IotDeviceSdk.Mqtt.Logic.Change
import IotDeviceSdk.Mqtt.Logic.Fewer
import IotDeviceSdk.Mqtt.Logic.Sent
import IotDeviceSdk.Mqtt.Logic.MessageIds
import IotDeviceSdk.Mqtt.Logic.Teardown
import IotDeviceSdk.Mqtt.Logic.IoTimeouts
import IotDeviceSdk.Mqtt.Logic.Session
import IotDeviceSdk.Mqtt.Logic.Each
import IotDeviceSdk.Mqtt.Logic.Started
import IotDeviceSdk.Mqtt.Logic.Messages
import IotDeviceSdk.Mqtt.Logic.Publish
import IotDeviceSdk.Mqtt.Logic.PublishQ1
import IotDeviceSdk.Mqtt.Logic.Topics
import IotDeviceSdk.Mqtt.Logic.Handed
import IotDeviceSdk.Mqtt.Logic.Disconnected
import IotDeviceSdk.Mqtt.Logic.Scheduler
import IotDeviceSdk.Mqtt.Logic.FirstRun
import IotDeviceSdk.Mqtt.Logic.Submitted
import IotDeviceSdk.Mqtt.Logic.Unsolicited
import IotDeviceSdk.Mqtt.Logic.Told
import IotDeviceSdk.Mqtt.Logic.Keepalive
import IotDeviceSdk.Mqtt.Logic.Subscribe
import IotDeviceSdk.Mqtt.Logic.Subscribed
import IotDeviceSdk.Mqtt.Logic.Handlers
import IotDeviceSdk.Mqtt.Logic.Subscriptions
import IotDeviceSdk.Mqtt.Codec.Written
import IotDeviceSdk.Mqtt.Wire
import IotDeviceSdk.Infra.Heap
import IotDeviceSdk.Datastructures.Handle
import IotDeviceSdk.Datastructures.HandleRun
import IotDeviceSdk.Infra.Blocks
import IotDeviceSdk.Infra.HighestBit
import IotDeviceSdk.Datastructures.DataDesc
import IotDeviceSdk.Datastructures.Append
import IotDeviceSdk.Context.Globals
import IotDeviceSdk.Context.Balance
import IotDeviceSdk.Context.Deletion
import IotDeviceSdk.Context.Submission
import IotDeviceSdk.EventDispatcher.Armed
import IotDeviceSdk.TimedTask.Container
import IotDeviceSdk.TimedTask.Life
import IotDeviceSdk.TimedTask.Tasks
import IotDeviceSdk.TimedTask.Failure
import IotDeviceSdk.EventDispatcher.Continuations
import IotDeviceSdk.EventDispatcher.Files
import IotDeviceSdk.Backoff.Penalty
import IotDeviceSdk.Backoff.Cooldown
import IotDeviceSdk.Connection.Data
import IotDeviceSdk.Io.FsMemory
import IotDeviceSdk.Io.Writes
import IotDeviceSdk.Infra.Chunks
import IotDeviceSdk.Tls.Receive
import IotDeviceSdk.Tls.Received
import IotDeviceSdk.Infra.Json
import IotDeviceSdk.Jwt.Create
import IotDeviceSdk.Jwt.Payload
import IotDeviceSdk.Jwt.Token
import IotDeviceSdk.ResourceManager.Manager
import IotDeviceSdk.ResourceManager.Operations
import IotDeviceSdk.ResourceManager.Returns
import IotDeviceSdk.ResourceManager.Run
import IotDeviceSdk.ResourceManager.Invoked
import IotDeviceSdk.ResourceManager.Reading
import IotDeviceSdk.Infra.Chain
import IotDeviceSdk.Datastructures.LinkedList
import IotDeviceSdk.Datastructures.VectorCells
import IotDeviceSdk.Io.FsPosix
import IotDeviceSdk.Io.FsPosixRun
import IotDeviceSdk.Infra.Simulation
import IotDeviceSdk.Mqtt.Logic.Calls
import IotDeviceSdk.ResourceManager.Callbacks
import IotDeviceSdk.Chain.Layers
import IotDeviceSdk.Chain.Effects
import IotDeviceSdk.Chain.LogicRun
import IotDeviceSdk.Chain.Teardown
import IotDeviceSdk.Chain.Passes
import IotDeviceSdk.Chain.Lifecycle
