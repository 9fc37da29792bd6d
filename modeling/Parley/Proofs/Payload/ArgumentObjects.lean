import Parley.Proofs.Message.GivenObjects
import Parley.Proofs.Payload
import Parley.Proofs.Payload.CallEntry
import Parley.Proofs.Transcript.Basic

/-!
# Argument objects in payloads

An object that is given for the arguments of a call reaches every vendor: as itself where a vendor
takes objects, as a text of it where a vendor takes texts.

* `Vendor.Conveys`: what a vendor is sent for an argument object;
* `ToolCall.Carries`: a call that has the object for its arguments, in each vendor's form;
* `Payload.conveys_of_givesObject`: the object reaches the vendor, in whichever message of
  whichever conversation the call stands.
-/

namespace Parley

/-! ## What a vendor is sent -/

def Part.arguments? : Part → Option Value
  | .call _ _ arguments => some arguments
  | _ => none

namespace Vendor

def saidArguments (vendor : Vendor) (entry : Value) : List Value :=
  (vendor.readParts entry).filterMap Part.arguments?

/-- What a vendor is sent for an argument object: the object, or a text that is read as it. -/
def Conveys (vendor : Vendor) (args : Fields) (sent : Value) : Prop :=
  match vendor with
  | .openAI _ => ∃ text, sent = .str text ∧ Json.read text = .ok (.dict args)
  | _ => sent = .dict args

end Vendor

/-- The arguments of a call are an object, and so they are in each vendor's form of the call. -/
structure ToolCall.Carries (call : ToolCall) (args : Fields) : Prop where
  decodes : call.argumentFields = .ok args
  openAI : ∃ text, OpenAI.Call.ofValue call.toValue = .ok ⟨call.id, call.name, .str text⟩ ∧
    Json.read text = .ok (.dict args)
  anthropic : Anthropic.ToolUse.ofValue call.toValue = .ok ⟨call.id, call.name, args⟩
  google : Google.FunctionCall.ofValue call.toValue = .ok ⟨call.name, args⟩

/-- A call whose text is read as an object, and decodes to it, carries the object. -/
theorem ToolCall.carries_of_text {call : ToolCall} {text : String} {args : Fields}
    (htext : call.arguments = .str text) (hread : Json.read text = .ok (.dict args))
    (hdecodes : call.argumentFields = .ok args) : call.Carries args where
  decodes := hdecodes
  openAI := by
    -- only an empty text is replaced, and that one is read as nothing
    have hsome : text ≠ "" := by
      rintro rfl
      cases hread
    have hkept : call.arguments.orElse (.str "{}") = .str text := by
      rw [htext, Value.orElse, if_pos (Value.truthy_str.2 hsome)]
    refine ⟨text, ?_, hread⟩
    rw [← hkept]
    rfl
  anthropic := by
    have hform : Anthropic.ToolUse.ofValue call.toValue =
        (do return ⟨call.id, call.name, ← call.argumentFields⟩) := rfl
    rw [hform, Outcome.bind_of_ok hdecodes]
    rfl
  google := by
    have hform : Google.FunctionCall.ofValue call.toValue =
        (do return ⟨call.name, ← call.argumentFields⟩) := rfl
    rw [hform, Outcome.bind_of_ok hdecodes]
    rfl

/-! ## The arguments in an entry -/

/-- The first vendor is told the texts of the arguments. -/
theorem OpenAI.saidArguments_calls (label content : Value) (made : List Call) :
    (Vendor.openAI label).saidArguments (Turn.calls content made).toValue =
      made.map Call.arguments := by
  have hcontent : (readContent content).filterMap Part.arguments? = [] := by
    cases content <;> rfl
  have hcalls : (readCalls (.list (made.map Call.toValue))).filterMap Part.arguments? =
      made.map Call.arguments := by
    simp [readCalls, readCall, Call.toValue, Part.arguments?, Function.comp_def]
  have hparts : (Vendor.openAI label).readParts (Turn.calls content made).toValue =
      readContent content ++ readCalls (.list (made.map Call.toValue)) := by
    simp [Vendor.readParts, readParts, Turn.toValue, Value.isText]
  rw [Vendor.saidArguments, hparts, List.filterMap_append, hcontent, hcalls, List.nil_append]

/-- The second vendor is told the objects. -/
theorem Anthropic.saidArguments_toolUses (text : Option Value) (uses : List ToolUse) :
    Vendor.anthropic.saidArguments (Turn.toolUses text uses).toValue =
      uses.map fun use => .dict use.input := by
  have htext : ((text.map textBlock).toList.map readBlock).filterMap Part.arguments? = [] := by
    cases text <;> simp [textBlock, readBlock, Part.arguments?]
  have huses : ((uses.map ToolUse.toValue).map readBlock).filterMap Part.arguments? =
      uses.map fun use => .dict use.input := by
    simp [ToolUse.toValue, readBlock, Part.arguments?, Function.comp_def, Value.isText]
  have hparts : Vendor.anthropic.readParts (Turn.toolUses text uses).toValue =
      (text.map textBlock).toList.map readBlock ++ (uses.map ToolUse.toValue).map readBlock := by
    simp [Vendor.readParts, readParts, Turn.toValue, Turn.content]
  rw [Vendor.saidArguments, hparts, List.filterMap_append, htext, huses, List.nil_append]

/-- The third vendor is told the objects, too. -/
theorem Google.saidArguments_calls (tag : String) (text : Option Value)
    (made : List FunctionCall) :
    (Vendor.google tag).saidArguments (Turn.calls text made).toValue =
      made.map fun call => .dict call.args := by
  have htext : ((text.map textPart).toList.map readPart).filterMap Part.arguments? = [] := by
    cases text with
    | none => rfl
    | some content => cases content <;> simp [textPart, readPart, Part.arguments?, Value.isNull]
  have hcalls : ((made.map FunctionCall.toValue).map readPart).filterMap Part.arguments? =
      made.map fun call => .dict call.args := by
    simp [FunctionCall.toValue, readPart, Part.arguments?, Function.comp_def]
  have hparts : (Vendor.google tag).readParts (Turn.calls text made).toValue =
      (text.map textPart).toList.map readPart ++ (made.map FunctionCall.toValue).map readPart := by
    simp [Vendor.readParts, readParts, Turn.toValue, Turn.parts]
  rw [Vendor.saidArguments, hparts, List.filterMap_append, htext, hcalls, List.nil_append]

namespace Payload

variable {vendor : Vendor} {args : Fields} {position : Nat}

/-! ## The argument objects reach the vendor -/

/-- At the place of a call that carries an object, the entry of its message holds the object. -/
theorem exists_sent {m : Message} {made : ToolCall} {entry : Value}
    (hcall : m.toolCalls[position]? = some made.toValue) (hcarries : made.Carries args)
    (hentry : CallEntry m vendor entry) :
    ∃ sent, (vendor.saidArguments entry)[position]? = some sent ∧ vendor.Conveys args sent := by
  -- the call has one form at each vendor, and the forms stand where the calls do
  cases hentry with
  | openAI forms =>
    obtain ⟨form, hform, hmade⟩ := Outcome.exists_of_mapM_at forms hcall
    obtain ⟨text, hcarried, hread⟩ := hcarries.openAI
    rw [hcarried] at hmade
    cases hmade
    refine ⟨.str text, ?_, text, rfl, hread⟩
    rw [OpenAI.saidArguments_calls, List.getElem?_map, hform]
    rfl
  | anthropic forms =>
    obtain ⟨use, huse, hmade⟩ := Outcome.exists_of_mapM_at forms hcall
    rw [hcarries.anthropic] at hmade
    cases hmade
    refine ⟨.dict args, ?_, rfl⟩
    rw [Anthropic.saidArguments_toolUses, List.getElem?_map, huse]
    rfl
  | google forms =>
    obtain ⟨form, hform, hmade⟩ := Outcome.exists_of_mapM_at forms hcall
    rw [hcarries.google] at hmade
    cases hmade
    refine ⟨.dict args, ?_, rfl⟩
    rw [Google.saidArguments_calls, List.getElem?_map, hform]
    rfl

/-- The entry of a message with calls stands behind the entries of the turns before it, and at the
place of a call that carries an object the object is sent. -/
theorem conveys_of_carries {before later : List Message} {m : Message} {system : Value}
    {all : List Value} {made : ToolCall} (hrole : m.hasRole "assistant" = true)
    (hcall : m.toolCalls[position]? = some made.toValue) (hcarries : made.Carries args)
    (h : entries vendor (before ++ m :: later) system = .ok all) :
    ∃ earlier entry rest sent, entries vendor before system = .ok earlier ∧
      all = earlier ++ entry :: rest ∧
      (vendor.saidArguments entry)[position]? = some sent ∧ vendor.Conveys args sent := by
  have hany : m.toolCalls ≠ [] := List.ne_nil_of_mem (List.mem_of_getElem? hcall)
  obtain ⟨earlier, entry, rest, hearlier, hall, hentry⟩ := exists_callEntry hrole hany h
  obtain ⟨sent, hsent, hconveys⟩ := exists_sent hcall hcarries hentry
  exact ⟨earlier, entry, rest, sent, hearlier, hall, hsent, hconveys⟩

/-- A plain call that gives an object for its arguments is read if it is in proper form, and has the
object for its arguments in the library's form and in every vendor's. It does not keep its message
from being read. In the payload of a conversation in which the message stands, the entry behind
those of the turns before it holds the object, or a text of it, at the place of the call. -/
theorem conveys_of_givesObject {call fields : Fields} {raws : List Value}
    (hgives : ToolCall.GivesObject call args) (htree : Json.Tree (.dict args))
    (hlisted : fields.either "tool_calls" "toolCalls" = .list raws)
    (hat : raws[position]? = some (.dict call)) :
    (ToolCall.WellFormed call → ∃ made, ToolCall.ofValue (.dict call) = .ok made) ∧
      (∀ made, ToolCall.ofValue (.dict call) = .ok made → made.Carries args) ∧
      ((∃ m, Message.ofValue (.dict fields) = .ok m) ↔
        (∀ raw ∈ raws, ∃ other, ToolCall.ofValue raw = .ok other) ∧
          ∃ metadata, ((fields.value "metadata").orElse (.dict [])).toFields = .ok metadata) ∧
      (∀ m, Message.ofValue (.dict fields) = .ok m →
        ∃ made, ToolCall.ofValue (.dict call) = .ok made ∧
          m.toolCalls[position]? = some made.toValue) ∧
      ∀ vendor front back systemPrompt tools payload,
        adapt vendor (.list (front ++ .dict fields :: back)) systemPrompt tools = .ok payload →
        ∃ before earlier entry rest sent, front.mapM Message.ofValue = .ok before ∧
          entries vendor (Conversation.turns before) payload.system = .ok earlier ∧
          payload.messages = .list (earlier ++ entry :: rest) ∧
          (vendor.saidArguments entry)[position]? = some sent ∧ vendor.Conveys args sent := by
  have hcarries : ∀ made, ToolCall.ofValue (.dict call) = .ok made → made.Carries args := by
    intro made hmade
    obtain ⟨text, htext, hread, hdecodes⟩ := ToolCall.decodes_of_givesObject hgives htree hmade
    exact ToolCall.carries_of_text htext hread hdecodes
  have hplace : ∀ m, Message.ofValue (.dict fields) = .ok m →
      ∃ made, ToolCall.ofValue (.dict call) = .ok made ∧
        m.toolCalls[position]? = some made.toValue := by
    intro m hm
    obtain ⟨calls, hcalls, hlist⟩ := Message.toolCalls_of_ofValue hlisted hm
    obtain ⟨made, hfound, hmade⟩ := Outcome.exists_of_mapM_at hcalls hat
    refine ⟨made, hmade, ?_⟩
    rw [hlist, List.getElem?_map, hfound]
    rfl
  refine ⟨fun hform => ToolCall.exists_ofValue_of_givesObject hform hgives htree, hcarries,
    Message.exists_ofValue_dict_iff hlisted, hplace, ?_⟩
  intro vendor front back systemPrompt tools payload hpayload
  obtain ⟨ms, hms, -⟩ := Outcome.of_bind_eq_ok hpayload
  obtain ⟨before, m, later, hbefore, hm, rfl⟩ := Conversation.exists_split hms
  -- a message with calls passes the check only as an assistant's, and so it is a turn
  obtain ⟨made, hmade, hcall⟩ := hplace m hm
  have hassistant : m.hasRole "assistant" = true :=
    Conversation.assistant_of_checkFrom (Conversation.checkFrom_of_ofValue hms) m (by simp)
      (List.ne_nil_of_mem (List.mem_of_getElem? hcall))
  obtain ⟨-, all, hentries, hmessages⟩ := entries_of_adapt hms hpayload
  have hturns : Conversation.turns (before ++ m :: later) =
      Conversation.turns before ++ m :: Conversation.turns later := by
    simp [Conversation.turns, Message.not_hasRole hassistant]
  rw [hturns] at hentries
  obtain ⟨earlier, entry, rest, sent, hearlier, rfl, hsent, hconveys⟩ :=
    conveys_of_carries hassistant hcall (hcarries made hmade) hentries
  exact ⟨before, earlier, entry, rest, sent, hbefore, hearlier, hmessages, hsent, hconveys⟩

/-- An argument object with a number beyond every machine word, a floating-point one, a character
beyond the basic plane, an empty key and an object inside. -/
def bookingObject : Fields :=
  [("seats", .int (10 ^ 30)),
    ("", .list [.float (.ofScientific false 25 (-1)), .str "😀"]),
    ("at", .dict [("deck", .null)])]

/-- A call that gives the object, nested beside the name. -/
def bookingCall : Fields :=
  [("id", .str "b1"),
    ("function", .dict [("name", .str "book"), ("arguments", .dict bookingObject)])]

def bookingMessage : Fields :=
  [("role", .str "assistant"), ("tool_calls", .list [.dict bookingCall])]

theorem tree_bookingObject : Json.Tree (.dict bookingObject) where
  writable := rfl
  distinct := by decide
  plain := by decide +kernel

/-- A booking with a large number, a character beyond the basic plane and an empty key reaches the
vendor as it was given. -/
theorem conveys_of_givesObject_booking :
    ∃ made, ToolCall.ofValue (.dict bookingCall) = .ok made ∧
      made.argumentFields = .ok bookingObject ∧
      ∃ payload earlier entry rest,
        adapt .anthropic (.list ([.dict [("role", .str "user"), ("content", .str "Book.")]] ++
          .dict bookingMessage :: [])) .null .null = .ok payload ∧
        payload.messages = .list (earlier ++ entry :: rest) ∧
        (Vendor.anthropic.saidArguments entry)[0]? = some (.dict bookingObject) := by
  have hlisted : bookingMessage.either "tool_calls" "toolCalls" = .list [.dict bookingCall] := rfl
  have hat : [Value.dict bookingCall][0]? = some (.dict bookingCall) := rfl
  have hgives : ToolCall.GivesObject bookingCall bookingObject := .nested rfl rfl rfl rfl
  obtain ⟨hread, hcarries, -, -, hreach⟩ :=
    conveys_of_givesObject hgives tree_bookingObject hlisted hat
  obtain ⟨made, hmade⟩ := hread ⟨.inr ⟨_, rfl, rfl⟩, ⟨_, rfl⟩, rfl⟩
  have hok : (adapt .anthropic (.list ([.dict [("role", .str "user"), ("content", .str "Book.")]] ++
      .dict bookingMessage :: [])) .null .null).isOk = true := by
    decide +kernel
  obtain ⟨payload, hpayload⟩ := Outcome.of_isOk hok
  obtain ⟨before, earlier, entry, rest, sent, -, -, hmessages, hsent, rfl⟩ :=
    hreach _ _ _ _ _ _ hpayload
  exact ⟨made, hmade, (hcarries made hmade).decodes, payload, earlier, entry, rest, hpayload,
    hmessages, hsent⟩

/-- A call that gives its object nested, behind a null beside the name. -/
def hiddenCall : Fields :=
  [("id", .str "b1"),
    ("function", .dict [("name", .str "book"), ("arguments", .dict [("seats", .int 2)])]),
    ("arguments", .null)]

/-- A call that gives an object with a number of too many digits. -/
def crowdedCall : Fields :=
  [("id", .str "b1"), ("name", .str "book"), ("arguments", .dict [("seats", .int Json.firstLong)])]

/-- The null is taken for the arguments, and then turned down as no object. A number with too many
digits cannot be written, so there is no text of the arguments. -/
theorem unconveyed_of_hidden :
    (∃ made, ToolCall.ofValue (.dict hiddenCall) = .ok made ∧ made.arguments = .str "null" ∧
      made.argumentFields = invalid (.argumentsNotObject (.str "b1"))) ∧
    ToolCall.ofValue (.dict crowdedCall) = misuse .content := by
  have hlong : Json.write (.dict [("seats", .int Json.firstLong)]) = misuse .content := by
    simp [Json.write, Json.obstacle?, Json.obstacleFields?, Json.isShort_firstLong]
  have hcrowded : ToolCall.ofValue (.dict crowdedCall) =
      (do let text ← Json.write (.dict [("seats", .int Json.firstLong)])
          return ⟨.str "b1", .str "book", .str text⟩) := rfl
  refine ⟨⟨_, rfl, rfl, rfl⟩, ?_⟩
  rw [hcrowded, hlong]
  rfl

end Payload

end Parley
