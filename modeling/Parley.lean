import Parley.Anthropic.Reply
import Parley.Anthropic.Request
import Parley.Anthropic.Turn
import Parley.Client
import Parley.Conversation
import Parley.Display.Live
import Parley.Display.Printer
import Parley.Display.Reply
import Parley.Display.Widget
import Parley.Fault
import Parley.Google.Reply
import Parley.Google.Request
import Parley.Google.Turn
import Parley.Json.Progress
import Parley.Json.Reader
import Parley.Json.Writer
import Parley.Log
import Parley.Message.Arguments
import Parley.Message.Basic
import Parley.Message.Call
import Parley.Message.Create
import Parley.Message.Usage
import Parley.Number.Digits
import Parley.Number.Double
import Parley.Number.Layout
import Parley.Number.Literal
import Parley.Number.Shortest
import Parley.OpenAI.Reply
import Parley.OpenAI.Request
import Parley.OpenAI.Turn
import Parley.Options
import Parley.Payload
import Parley.Provider.Activity
import Parley.Provider.Basic
import Parley.Provider.Complete
import Parley.Provider.Stream
import Parley.Reply
import Parley.Request
import Parley.RequestLog
import Parley.Settings.Basic
import Parley.Settings.EnvFile
import Parley.Settings.Load
import Parley.Settings.Reference
import Parley.Stream.Accumulator
import Parley.Stream.Collect
import Parley.Text.Blank
import Parley.Text.Case
import Parley.Text.CaseTable
import Parley.Text.Digit
import Parley.Text.Printable
import Parley.Text.Quoted
import Parley.Tool.Basic
import Parley.Tool.GeminiSchema
import Parley.Tool.JsonSchema
import Parley.Value.Access
import Parley.Value.Basic
import Parley.Value.Equality
import Parley.Value.Fingerprint
import Parley.Value.Show
import Parley.Value.Sum
import Parley.Vendor.Basic
import Parley.Vendor.Reading
import Parley.Vendor.Request
import Parley.Proofs.Json.NumberText
import Parley.Proofs.Json.StringText
import Parley.Proofs.Json.RoundTrip
import Parley.Proofs.Message.Typed
import Parley.Proofs.Transcript.Basic
import Parley.Proofs.Transcript.OpenAI
import Parley.Proofs.Transcript.Anthropic
import Parley.Proofs.Conversation
import Parley.Proofs.Transcript.Adaptation
import Parley.Proofs.Message.Arguments
import Parley.Proofs.Reply.Basic
import Parley.Proofs.Reply.Anthropic
import Parley.Proofs.Reply.OpenAI
import Parley.Proofs.Reply.Google
import Parley.Proofs.Turn.OpenAI
import Parley.Proofs.Reply.Reading
import Parley.Proofs.Turn.RoundTrip
import Parley.Proofs.Turn.Reports
import Parley.Proofs.Turn.Continuation
import Parley.Proofs.Stream.Feeding
import Parley.Proofs.Stream.Fragments
import Parley.Proofs.Stream.AnthropicEvents
import Parley.Proofs.Stream.Agreement
import Parley.Proofs.Stream.AnthropicAgreement
import Parley.Proofs.Number.Rounding
import Parley.Proofs.Number.Shortest
import Parley.Proofs.Json.DecimalText
import Parley.Proofs.Message.Usage
import Parley.Proofs.Stream.Groups
import Parley.Proofs.Stream.Meaning
import Parley.Proofs.Stream.Events
import Parley.Proofs.Stream.OpenAIAgreement
import Parley.Proofs.Stream.GoogleAgreement
import Parley.Proofs.Provider.Lifecycle
import Parley.Proofs.Stream.Assembly
import Parley.Proofs.Message.Plain
import Parley.Proofs.Stream.Malformed
import Parley.Proofs.Tool.JsonSchema
import Parley.Proofs.Transcript.Addresses
import Parley.Proofs.Transcript.Grounding
import Parley.Proofs.Transcript.References
import Parley.Proofs.Turn.GivenBack
import Parley.Proofs.Turn.Readaptation
import Parley.Proofs.Payload.Acceptance
import Parley.Proofs.Payload.Placement
import Parley.Proofs.Stream.AnthropicBlocks
import Parley.Proofs.Provider.Collection
import Parley.Proofs.Value.Faults
import Parley.Proofs.Value.Likeness
import Parley.Proofs.Reply.Faults
import Parley.Proofs.Reply.Shape
import Parley.Proofs.Reply.Representation
import Parley.Proofs.Stream.Shape
import Parley.Proofs.Stream.WholeCalls
import Parley.Proofs.Provider.NamedModel
import Parley.Proofs.Payload.Format
import Parley.Proofs.Stream.Progress
import Parley.Proofs.Stream.FirstReply
import Parley.Proofs.Message.Spelling
import Parley.Proofs.Payload.Spelling
import Parley.Proofs.Reply.Stored
import Parley.Proofs.Reply.Typing
import Parley.Proofs.Conversation.Places
import Parley.Proofs.Conversation.Validity
import Parley.Proofs.Payload.Refusal
import Parley.Proofs.Transcript.Runs
import Parley.Proofs.Payload.Echo
import Parley.Proofs.Tool.Positions
import Parley.Proofs.Tool.GeminiKeywords
import Parley.Proofs.Tool.GeminiSchema
import Parley.Proofs.Tool.Declarations
import Parley.Proofs.Value.Changes
import Parley.Proofs.Message.Nulls
import Parley.Proofs.Message.GivenObjects
import Parley.Proofs.Payload.CallEntry
import Parley.Proofs.Payload.ArgumentObjects
import Parley.Proofs.Tool.RootDefaults
import Parley.Proofs.Message.TokenRuns
import Parley.Proofs.Request
import Parley.Proofs.Provider.Requests
import Parley.Proofs.Provider.Calls
import Parley.Proofs.Provider.Nulls
import Parley.Proofs.Provider.Recording
import Parley.Proofs.Provider.Replies
import Parley.Proofs.Display.Reply
import Parley.Proofs.Display.Live
import Parley.Proofs.Reply.CallIds
