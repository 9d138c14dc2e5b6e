import AgUi.Library.OrderedMap
import AgUi.Library.Stage
import AgUi.Library.Since
import AgUi.Protocol.Values
import AgUi.Protocol.Event
import AgUi.Verify.Verifier
import AgUi.Verify.Record
import AgUi.Verify.Refinement
import AgUi.Verify.RunIsolation
import AgUi.Verify.Acceptance
import AgUi.Chunks.Transform
import AgUi.Chunks.Assembly
import AgUi.Chunks.Brackets
import AgUi.Chunks.Noninterference
import AgUi.Chunks.Conservation
import AgUi.Library.Keyed
import AgUi.Library.Numbering
import AgUi.Library.Building
import AgUi.Apply.Reducer
import AgUi.Apply.Observation
import AgUi.Apply.Effects
import AgUi.Apply.Uniqueness
import AgUi.Apply.Concatenation
import AgUi.Compact.Compaction
import AgUi.Compact.States
import AgUi.Compact.Order
import AgUi.Apply.PendingCalls
import AgUi.Library.Subject
import AgUi.Transport.Proto
import AgUi.Library.Utf8
import AgUi.Library.Separated
import AgUi.Enforce.Strip
import AgUi.Enforce.Schema
import AgUi.Enforce.Schemas
import AgUi.Enforce.Enforcement
import AgUi.Enforce.Expansion
import AgUi.Enforce.Commutation
import AgUi.A2ui.Surfaces
import AgUi.A2ui.Recovery
import AgUi.A2ui.Stream
import AgUi.A2ui.Turn
import AgUi.Transport.Sse
import AgUi.Middleware.RunNext
import AgUi.Middleware.BackwardCompatibility57
import AgUi.Middleware.FilterToolCalls
import AgUi.Verify.Footprints
import AgUi.Verify.JoinedRuns
import AgUi.Verify.Insertion
import AgUi.Middleware.RunNextWithState
import AgUi.Middleware.Mcp
import AgUi.Middleware.McpApps
import AgUi.Middleware.A2a
import AgUi.Middleware.A2aDelegation
import AgUi.Middleware.A2aConservation
import AgUi.Generator.Freeze
import AgUi.Generator.Wire
import AgUi.Generator.Slots
import AgUi.Generator.Drawing
import AgUi.Generator.Reaching
import AgUi.Generator.Generations
import AgUi.DotnetClient.Updates
import AgUi.DotnetClient.Attribution
import AgUi.DotnetClient.Converter
import AgUi.DotnetClient.Delivery
import AgUi.DotnetClient.Conservation
import AgUi.Kotlin.EventVerifier
import AgUi.Kotlin.Reading
import AgUi.Kotlin.Soundness
import AgUi.ManagedAgents.Agent
import AgUi.Verify.Emission
import AgUi.ManagedAgents.Validity
import AgUi.ManagedAgents.Account
import AgUi.ManagedAgents.Bookkeeping
import AgUi.ManagedAgents.Delivery
import AgUi.Apply.Snapshots
import AgUi.Apply.CallUniqueness
import AgUi.Apply.Activities
import AgUi.Library.Position
import AgUi.Apply.ToolResults
import AgUi.Apply.Subscribers
import AgUi.Agent.Resumption
import AgUi.Legacy.Convert
import AgUi.Legacy.Arguments
import AgUi.Protocol.Position
import AgUi.Enforce.Stability
import AgUi.Enforce.Acceptance
import AgUi.Compact.Idempotence
import AgUi.Library.Grouping
import AgUi.Usage.Aggregation
import AgUi.Usage.Partition
import AgUi.Middleware.LegacyContent
import AgUi.Library.Seeking
import AgUi.Middleware.McpTools
import AgUi.Middleware.McpTransparency
import AgUi.Middleware.CompatibilityBoundary
import AgUi.Middleware.EventReading
import AgUi.Middleware.ThinkingBrackets
import AgUi.Middleware.ThinkingRecords
import AgUi.Middleware.ThinkingTranslation
import AgUi.Library.DepthFirst
import AgUi.A2uiToolkit.Validate
import AgUi.Library.Attempts
import AgUi.A2uiToolkit.ComponentGraph
import AgUi.Library.Wire
import AgUi.Transport.ProtoTranslation
import AgUi.Transport.StrictWalk
import AgUi.Transport.FutureEvents
import AgUi.Library.Layers
import AgUi.A2uiToolkit.PriorSurface
import AgUi.Middleware.EventThrottle
import AgUi.Library.Judgement
import AgUi.Chunks.Judging
import AgUi.Middleware.CoalescedChunks
import AgUi.DotnetServer.Continuation
import AgUi.DotnetServer.OwnResults
import AgUi.Generator.Serialization
import AgUi.Generator.NullWalk
import AgUi.Generator.OptionalNulls
import AgUi.DotnetClient.Interrupts
import AgUi.DotnetClient.Records
import AgUi.DotnetClient.Stamps
import AgUi.DotnetClient.Arriving
import AgUi.DotnetClient.Frozen
import AgUi.Library.DepthFirstSweep
import AgUi.A2uiToolkit.DotnetValidator
import AgUi.A2uiToolkit.ValidatorAgreement
import AgUi.Library.Lines
import AgUi.Cpp.SseParser
import AgUi.Library.JsonPatch
import AgUi.Cpp.StateManager
import AgUi.Cpp.StateHistory
import AgUi.Library.Decimals
import AgUi.Cpp.PatchAgreement
import AgUi.Langgraph.TimeTravel
import AgUi.Adk.LongRunning
import AgUi.ManagedAgents.IdleAnswers
import AgUi.ManagedAgents.WholeMessages
import AgUi.Go.ValidateSequence
import AgUi.Adk.TextContent
import AgUi.Library.JsonText
import AgUi.Adk.StreamedArguments
import AgUi.Langgraph.TupleFallback
import AgUi.ManagedAgents.SessionKeys
import AgUi.Library.Numerals
import AgUi.Kotlin.JsonNumbers
import AgUi.Compact.Incremental
