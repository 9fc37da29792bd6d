import Parley.Json.Reader
import Parley.Value.Show

/-!
# Faults

Everything that can go wrong, by cause. A fault carries the data that its message needs, and
`Fault.message` is the one place where messages are worded. `Misuse` stands for a value of a kind
that an operation cannot use; such a fault has no message of its own.
-/

namespace Parley

/-- How a value failed the operation that was to use it. -/
inductive Misuse where
  /-- The operation does not exist for values of this kind. -/
  | kind
  /-- The value has no such attribute or method. -/
  | member
  /-- The dictionary has no such key. -/
  | key
  /-- The sequence has no such position. -/
  | index
  /-- The kind is right and the content is not. -/
  | content
  /-- The number is too large. -/
  | range
deriving DecidableEq, Repr

/-- Why a message or tool of a conversation cannot be represented. -/
inductive MessageFault where
  | callNotMapping (kind : String)
  | callWithoutName (call : Value)
  | messageNotMapping (kind : String)
  | toolNotMapping (kind : String)
  | toolWithoutName (tool : Value)
  | unknownRole (role : Value) (position : Nat)
  | callsOutsideAssistant (role : Value) (position : Nat)
  | unknownCall (position : Nat) (id : String)
  | argumentSyntax (call : Value) (error : Json.SyntaxError)
  | argumentsNotObject (call : Value)
  | missingCallId
  | unnamedResult (id : Value)
deriving Repr

def MessageFault.message : MessageFault → String
  | .callNotMapping kind => "Tool call must be a mapping, got " ++ kind
  | .callWithoutName call => "Tool call without a function name: " ++ call.shown
  | .messageNotMapping kind => "Message must be a mapping, got " ++ kind
  | .toolNotMapping kind => "Tool must be a mapping, got " ++ kind
  | .toolWithoutName tool => "Tool without a name: " ++ tool.shown
  | .unknownRole role position =>
    "Invalid message role " ++ role.shown ++ " at position " ++ toString position
  | .callsOutsideAssistant role position =>
    "Only assistant messages may carry tool calls (role " ++ role.shown ++ " at position " ++
      toString position ++ ")"
  | .unknownCall position id =>
    "Tool message at position " ++ toString position ++ " answers unknown tool call " ++
      (Value.str id).shown
  | .argumentSyntax call error =>
    "Tool call " ++ call.shown ++ " has invalid JSON arguments: " ++ error.message
  | .argumentsNotObject call => "Tool call " ++ call.shown ++ " arguments must be a JSON object"
  | .missingCallId => "Tool message missing tool_call_id"
  | .unnamedResult id =>
    "Tool message " ++ id.shown ++ " has no name and answers no known tool call"

/-- Whether a message fault can be worded: the value that its message shows can be shown. -/
def MessageFault.printable : MessageFault → Bool
  | .callWithoutName call => call.printable
  | .toolWithoutName tool => tool.printable
  | .unknownRole role _ => role.printable
  | .callsOutsideAssistant role _ => role.printable
  | .argumentSyntax call _ => call.printable
  | .argumentsNotObject call => call.printable
  | .unnamedResult id => id.printable
  | _ => true

/-- Why a vendor's reply or stream event cannot be read. -/
inductive ReplyFault where
  | noChoices (vendor : String)
  | choiceWithoutMessage (vendor : String)
  | unnamedCall (vendor : String)
  | noContent
  | unnamedBlock
  | unnamedBlockStart
  | emptyTextDelta
  | noCandidates
  | unnamedFunctionCall
  /-- A part of the reply had the wrong kind. -/
  | unexpectedShape (vendor : String) (cause : Misuse)
deriving DecidableEq, Repr

def ReplyFault.message : ReplyFault → String
  | .noChoices vendor => vendor ++ " response has no choices"
  | .choiceWithoutMessage vendor => vendor ++ " choice has no message"
  | .unnamedCall vendor => vendor ++ " tool call without a function name"
  | .noContent => "anthropic response has no content"
  | .unnamedBlock => "anthropic tool_use block without id or name"
  | .unnamedBlockStart => "tool_use block start without id or name"
  | .emptyTextDelta => "text_delta without text"
  | .noCandidates => "google response has no candidates"
  | .unnamedFunctionCall => "google function_call without a name"
  | .unexpectedShape vendor _ => vendor ++ " response has an unexpected shape"

/-- What a vendor's client library reports when a request or a stream breaks: the family of the
report, or another kind that belongs to no vendor. -/
inductive FailureKind where
  | openAI
  | anthropic
  | googleAPI
  | transport
  | other (name : String)
deriving DecidableEq, Repr

/-- A failure reported while a vendor was being called. -/
structure VendorFailure where
  kind : FailureKind
  text : String
deriving DecidableEq, Repr

inductive SettingsFault where
  | notDecimal (setting text : String)
  | notInteger (setting text : String)
  | noClient (provider : String)
deriving DecidableEq, Repr

def SettingsFault.message : SettingsFault → String
  | .notDecimal setting text => setting ++ " must be a float, got " ++ (Value.str text).shown
  | .notInteger setting text => setting ++ " must be a int, got " ++ (Value.str text).shown
  | .noClient provider => provider ++ " client not configured"

inductive Fault where
  /-- The conversation holds no message at all. -/
  | noMessages
  /-- The conversation holds no message but system messages. -/
  | onlySystemMessages
  | invalidMessage (fault : MessageFault)
  | invalidReply (fault : ReplyFault)
  /-- A chunk came after the one that completed its stream. -/
  | streamCompleted
  | configuration (fault : SettingsFault)
  /-- A failure of the provider's own vendor. -/
  | vendorCall (provider : Value) (failure : VendorFailure)
  /-- A failure that is not the provider's vendor's; it passes through unchanged. -/
  | foreign (failure : VendorFailure)
  | unknownProvider (name : String)
  | misuse (how : Misuse)
deriving Repr

/-- The message of a fault; a misuse and a foreign failure have none. -/
def Fault.message? : Fault → Option String
  | .noMessages => some "Messages list cannot be empty"
  | .onlySystemMessages => some "Conversation holds only system messages"
  | .invalidMessage fault => some fault.message
  | .invalidReply fault => some fault.message
  | .streamCompleted => some "Stream already completed"
  | .configuration fault => some fault.message
  | .vendorCall provider failure => some (provider.plain ++ ": " ++ failure.text)
  | .foreign _ => none
  | .unknownProvider name => some ("Provider '" ++ name ++ "' not configured or not supported.")
  | .misuse _ => none

/-- What an operation gives: a result, or the fault that kept it from one. -/
abbrev Outcome (α : Type) := Except Fault α

def misuse {α : Type} (how : Misuse) : Outcome α :=
  .error (.misuse how)

/-- The fault that a message or tool ends in. One that cannot be worded is a misuse. -/
def MessageFault.fault (cause : MessageFault) : Fault :=
  if cause.printable then .invalidMessage cause else .misuse .content

def invalid {α : Type} (cause : MessageFault) : Outcome α :=
  .error cause.fault

/-- A cause that can be spelled out is reported as an invalid message. -/
theorem MessageFault.fault_of_printable {cause : MessageFault} (h : cause.printable = true) :
    cause.fault = .invalidMessage cause :=
  if_pos h

end Parley
