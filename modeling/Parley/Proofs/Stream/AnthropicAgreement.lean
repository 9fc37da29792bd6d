import Parley.Proofs.Stream.Agreement
import Parley.Proofs.Stream.AnthropicEvents

/-!
# Streamed and complete replies of the messages service agree

A completion is what the service says to a request, whichever way it delivers it: as a response, or
as a stream of events that cuts its texts and argument texts into pieces. Both ways are read alike.

* `Gathered`: what an accumulator holds when the blocks so far have been streamed;
* `gathered_block`, `gathered_blocks`: a block, and a run of blocks, preserve it;
* `Completion.agree_of_inStream`: the message of the stream agrees with the message of the response.
-/

namespace Parley.Stream.Anthropic

open Parley.Anthropic

/-! ## Completions and how they are delivered -/

inductive Block where
  | text (text : String)
  | toolUse (id name : String) (input : Fields)

def Block.speech : Block → Speech
  | .text content => ⟨content, []⟩
  | .toolUse id name input => ⟨"", [⟨some id, name, input⟩]⟩

/-- A completion: its blocks, the model that made it, why it stopped and its token counts. -/
structure Completion where
  blocks : List Block
  model : Value
  stopReason : String
  input : Int
  output : Int

def Completion.speech (completion : Completion) : Speech :=
  .join (completion.blocks.map Block.speech)

/-- A response that holds a completion. -/
structure Completion.InResponse (completion : Completion) (response : Value) : Prop where
  content : ∃ blocks, response.read "content" = .list blocks ∧
    List.Forall₂ SaysBlock blocks (completion.blocks.map Block.speech)
  model : response.read "model" = completion.model
  stopReason : response.read "stop_reason" = .str completion.stopReason
  input : (response.read "usage").read "input_tokens" = .int completion.input
  output : (response.read "usage").read "output_tokens" = .int completion.output

/-- The events that carry the block with an index: its opening and its pieces. An input may come in
no pieces at all if it is empty. -/
inductive BlockEvents (index : Nat) : Block → List Value → Prop where
  | text {opening : Value} {deltas : List Value} {pieces : List String} {text : String}
      (opens : OpensText opening index)
      (adds : List.Forall₂ (fun delta piece => AddsText delta index piece) deltas pieces)
      (whole : String.join pieces = text) : BlockEvents index (.text text) (opening :: deltas)
  | toolUse {opening : Value} {deltas : List Value} {pieces : List String} {id name : String}
      {input : Fields} (opens : OpensTool opening index id name)
      (adds : List.Forall₂ (fun delta piece => AddsInput delta index piece) deltas pieces)
      (whole : Spells (String.join pieces) input) :
      BlockEvents index (.toolUse id name input) (opening :: deltas)

/-- The events that carry blocks, one block after another, from an index on. -/
inductive BlocksEvents : Nat → List Block → List Value → Prop where
  | nil (index : Nat) : BlocksEvents index [] []
  | cons {index : Nat} {block : Block} {blocks : List Block} {events later : List Value}
      (first : BlockEvents index block events) (rest : BlocksEvents (index + 1) blocks later) :
      BlocksEvents index (block :: blocks) (events ++ later)

/-- A stream that delivers a completion. Bookkeeping, such as pings, the ends of blocks and events
of unknown types, may stand anywhere in it; the first count of output is provisional. -/
inductive Completion.InStream (completion : Completion) (events : List Value) : Prop where
  | stream {start final stop : Value} {body : List Value} {provisional : Int}
      (carrying : events.filter carries = start :: (body ++ [final, stop]))
      (starts : Starts start completion.model completion.input provisional)
      (blocks : BlocksEvents 0 completion.blocks body)
      (finishes : Finishes final completion.stopReason completion.input completion.output)
      (ends : Ends stop)

/-! ## What has been gathered -/

/-- A call of an accumulator that has gathered what a block before an index asks for. -/
inductive Gathers (index : Nat) : AskedCall → CallKey × PendingCall → Prop where
  | call {earlier : Nat} {id name : String} {fields : Fields} {fragments : List String}
      (before : earlier < index) (named : name ≠ "")
      (spelled : Spells (String.join fragments) fields) :
      Gathers index ⟨some id, name, fields⟩ (pending earlier id name fragments)

namespace Gathers

variable {index : Nat} {asked : AskedCall} {c : CallKey × PendingCall}

/-- What is gathered in a block is still gathered when another block opens. -/
theorem next (h : Gathers index asked c) : Gathers (index + 1) asked c := by
  rcases h with ⟨before, named, spelled⟩
  exact .call (Nat.lt_succ_of_lt before) named spelled

/-- A call of an earlier block is not the one of the block at the index. -/
theorem not_same (h : Gathers index asked c) : c.1.same (.block (.int index)) = false := by
  cases h with
  | @call earlier id name fields fragments before _ _ =>
    have hne : (earlier : Int) ≠ index := by
      exact_mod_cast before.ne
    simpa [pending, CallKey.same, same_int] using hne

/-- The call that has been gathered answers the one that was asked for. -/
theorem finish (h : Gathers index asked c) :
    ∃ call : TextCall, c.2.finish = .ok call.toCall ∧ Answers asked call := by
  rcases h with ⟨-, named, spelled⟩
  refine ⟨_, finish_pending _ _ _, ?_, rfl, named, spells_orElse_braces spelled⟩
  rintro other ⟨⟩
  rfl

end Gathers

/-- No call gathered so far belongs to the next block. -/
theorem not_same_of_gathers {index : Nat} {asked : List AskedCall}
    {calls : List (CallKey × PendingCall)} (h : List.Forall₂ (Gathers index) asked calls) :
    ∀ c ∈ calls, c.1.same (.block (.int index)) = false := by
  induction h with
  | nil =>
    intro c hc
    cases hc
  | @cons _ first _ rest hfirst _ ih =>
    intro c hc
    rcases List.mem_cons.1 hc with rfl | hrest
    · exact hfirst.not_same
    · exact ih c hrest

/-- Calls that are gathered are finished, and answer those that were asked for. -/
theorem mapM_finish {index : Nat} {asked : List AskedCall} {calls : List (CallKey × PendingCall)}
    (h : List.Forall₂ (Gathers index) asked calls) :
    ∃ finished : List TextCall,
      calls.mapM (fun c => c.2.finish) = .ok (finished.map TextCall.toCall) ∧
      List.Forall₂ Answers asked finished := by
  induction h with
  | nil => exact ⟨[], rfl, .nil⟩
  | @cons request c rest calls hfirst _ ih =>
    rcases hfirst.finish with ⟨call, hcall, hanswers⟩
    rcases ih with ⟨finished, hfinished, hrest⟩
    refine ⟨call :: finished, ?_, .cons hanswers hrest⟩
    rw [List.mapM_cons, Outcome.bind_of_ok hcall, Outcome.bind_of_ok hfinished]
    rfl

/-- What an accumulator holds when the blocks before an index have been streamed: the texts and the
calls of what they say, and what the start of the message brought. -/
structure Gathered (usage : Value) (named : Fields) (index : Nat) (speech : Speech)
    (a : Accumulator) : Prop where
  phase : a.phase = .streaming
  texts : ∃ texts : List String, a.texts = texts.map .str ∧ String.join texts = speech.text
  calls : List.Forall₂ (Gathers index) speech.calls a.calls
  usage : a.usage = usage
  named : a.named = named

/-! ## Pieces, blocks and runs of blocks -/

/-- Pieces of text are added one after the other. -/
theorem feedEvents_addsText {index : Nat} {deltas : List Value} {pieces : List String}
    {a : Accumulator}
    (h : List.Forall₂ (fun delta piece => AddsText delta index piece) deltas pieces)
    (ha : a.phase = .streaming) :
    feedEvents .anthropic a deltas =
      .ok { a with texts := a.texts ++ (pieces.flatMap keep).map .str } := by
  induction h generalizing a with
  | nil => simp
  | @cons delta piece deltas pieces hfirst _ ih =>
    have hstep := feedEvent_addsText hfirst ha
    have hrest := ih (a := { a with texts := a.texts ++ (keep piece).map .str }) ha
    rw [feedEvents_cons hstep, hrest]
    simp

/-- Pieces of input are added to the block that is open, and to no other. -/
theorem feedEvents_addsInput {index : Nat} {deltas : List Value} {pieces fragments : List String}
    {id name : String} {earlier : List (CallKey × PendingCall)} {a : Accumulator}
    (h : List.Forall₂ (fun delta piece => AddsInput delta index piece) deltas pieces)
    (ha : a.phase = .streaming) (hcalls : a.calls = earlier ++ [pending index id name fragments])
    (hearlier : ∀ c ∈ earlier, c.1.same (.block (.int index)) = false) :
    feedEvents .anthropic a deltas = .ok { a with
      calls := earlier ++ [pending index id name (fragments ++ pieces.flatMap keep)] } := by
  induction h generalizing a fragments with
  | nil => simp [← hcalls]
  | @cons delta piece deltas pieces hfirst _ ih =>
    have hstep := feedEvent_addsInput hfirst ha hcalls hearlier
    rw [feedEvents_cons hstep]
    -- the pieces that follow extend the call that this one has extended
    have hrest := ih (a := { a with
      calls := earlier ++ [pending index id name (fragments ++ keep piece)] }) ha rfl
    rw [hrest]
    simp

section Blocks

variable {usage : Value} {named : Fields} {index : Nat} {speech : Speech} {a : Accumulator}

/-- A block adds what it says to what has been gathered. -/
theorem gathered_block {block : Block} {events : List Value} (h : BlockEvents index block events)
    (ha : Gathered usage named index speech a) :
    ∃ b, feedEvents .anthropic a events = .ok b ∧
      Gathered usage named (index + 1) (.join [speech, block.speech]) b := by
  -- the calls of earlier blocks are not touched by this one
  have hearlier : List.Forall₂ (Gathers (index + 1)) speech.calls a.calls :=
    ha.calls.imp fun _ _ hcall => hcall.next
  rcases ha.texts with ⟨texts, htexts, hjoin⟩
  cases h with
  | @text opening deltas pieces text opens adds whole =>
    have hopen := feedEvent_opensText opens a
    have hpieces := feedEvents_addsText adds ha.phase
    refine ⟨_, (feedEvents_cons hopen deltas).trans hpieces, ha.phase, ?_, ?_, ha.usage, ha.named⟩
    · refine ⟨texts ++ pieces.flatMap keep, by simp [htexts], ?_⟩
      simp [String.join_append, join_flatMap_keep, hjoin, whole, Block.speech]
    · simpa [Block.speech] using hearlier
  | @toolUse opening deltas pieces id name input opens adds whole =>
    -- no call has the index of this block yet, so its opening starts one
    have hnew := not_same_of_gathers ha.calls
    have hopen := feedEvent_opensTool opens ha.phase hnew
    have hpieces := feedEvents_addsInput (a := { a with
      calls := a.calls ++ [pending index id name []] }) adds ha.phase rfl hnew
    refine ⟨_, (feedEvents_cons hopen deltas).trans hpieces, ha.phase, ?_, ?_, ha.usage, ha.named⟩
    · exact ⟨texts, htexts, by simp [hjoin, Block.speech]⟩
    · have hcall : Gathers (index + 1) ⟨some id, name, input⟩
          (pending index id name (pieces.flatMap keep)) := by
        refine .call (Nat.lt_succ_self index) opens.named ?_
        rw [join_flatMap_keep]
        exact whole
      simpa [Block.speech] using List.rel_append hearlier (.cons hcall .nil)

/-- Blocks add what they say together. -/
theorem gathered_blocks {blocks : List Block} {events : List Value}
    (h : BlocksEvents index blocks events) (ha : Gathered usage named index speech a) :
    ∃ b, feedEvents .anthropic a events = .ok b ∧
      Gathered usage named (index + blocks.length)
        (.join (speech :: blocks.map Block.speech)) b := by
  induction h generalizing speech a with
  | nil index =>
    have hsame : Speech.join [speech] = speech := by
      ext1 <;> simp
    exact ⟨a, rfl, by simpa [hsame] using ha⟩
  | @cons index block blocks events later first _ ih =>
    rcases gathered_block first ha with ⟨b, hfirst, hb⟩
    rcases ih hb with ⟨c, hlater, hc⟩
    -- what was said before and this block are said first, then the blocks behind
    have hjoin : Speech.join (.join [speech, block.speech] :: blocks.map Block.speech) =
        .join (speech :: (block :: blocks).map Block.speech) := by
      ext1 <;> simp [String.append_assoc]
    refine ⟨c, (feedEvents_append hfirst later).trans hlater, ?_⟩
    rw [hjoin, Nat.add_assoc, Nat.add_comm 1] at hc
    exact hc

end Blocks

/-! ## Agreement -/

namespace Completion

variable {completion : Completion}

/-- All calls of this vendor have ids. -/
theorem asked_identified (completion : Completion) :
    ∀ c ∈ completion.speech.calls, c.id.isSome = true := by
  intro c hc
  simp only [speech, Speech.join, List.mem_flatMap, List.mem_map] at hc
  rcases hc with ⟨piece, ⟨block, -, rfl⟩, hc⟩
  cases block with
  | text content => cases hc
  | toolUse id name input =>
    rcases List.mem_singleton.1 hc with rfl
    rfl

def named (completion : Completion) : Fields :=
  if completion.model.isNull then [] else [("model", completion.model)]

/-- A stream leads to an accumulator that has gathered the completion. -/
theorem feedEvents_of_inStream {events : List Value} (h : completion.InStream events) :
    ∃ a, feedEvents .anthropic .empty events = .ok { a with phase := .completed } ∧
      Gathered (counts completion.input completion.output).toValue
        (completion.named ++ [("finish_reason", .str completion.stopReason)])
        completion.blocks.length completion.speech a := by
  rcases h with @⟨start, final, stop, body, provisional, carrying, starts, blocks, finishes, ends⟩
  have hstart := feedEvent_starts starts
  -- nothing has been said when the message starts
  have hstarted : Gathered (counts completion.input provisional).toValue completion.named 0 ⟨"", []⟩
      { phase := .streaming, usage := (counts completion.input provisional).toValue
        named := completion.named } :=
    ⟨rfl, ⟨[], rfl, rfl⟩, .nil, rfl, rfl⟩
  rcases gathered_blocks blocks hstarted with ⟨b, hbody, hb⟩
  have hfinal := feedEvent_finishes finishes hb.phase hb.usage
  -- the start names at most a model, so the reason is a new entry
  have hnamed : Fields.put b.named "finish_reason" (.str completion.stopReason) =
      completion.named ++ [("finish_reason", .str completion.stopReason)] := by
    rw [hb.named, named]
    split <;> rfl
  have hspeech : Speech.join (⟨"", []⟩ :: completion.blocks.map Block.speech) =
      completion.speech := by
    ext1 <;> simp [speech]
  rw [hspeech, Nat.zero_add] at hb
  rcases hb.texts with ⟨texts, htexts, hjoin⟩
  refine ⟨{ b with
    usage := (counts completion.input completion.output).toValue
    named := Fields.put b.named "finish_reason" (.str completion.stopReason) }, ?_,
    hb.phase, hb.texts, hb.calls, rfl, hnamed⟩
  have hstop := feedEvent_ends (a := { b with
    usage := (counts completion.input completion.output).toValue
    named := Fields.put b.named "finish_reason" (.str completion.stopReason) })
    ends hb.phase htexts
  -- bookkeeping is left out, then the start, the blocks, the report and the end are fed
  calc
    feedEvents .anthropic .empty events
        = feedEvents .anthropic .empty (start :: (body ++ [final, stop])) := by
          rw [← carrying, feedEvents_filter]
    _ = feedEvents .anthropic b [final, stop] := by
          rw [feedEvents_cons hstart]
          exact feedEvents_append hbody [final, stop]
    _ = _ := by
          rw [feedEvents_cons hfinal, feedEvents_cons hstop, feedEvents_nil]

/-- A response is read as a message that repeats the completion, with its counts, its model and
its reason. -/
theorem readReply_of_inResponse {response : Value} (h : completion.InResponse response) :
    ∃ single calls, Vendor.anthropic.readReply response = .ok single ∧
      Repeats single completion.speech calls ∧
      single.usage = (counts completion.input completion.output).toValue ∧
      single.metadata = .dict [("model", completion.model),
        ("finish_reason", .str completion.stopReason)] := by
  rcases h.content with ⟨raws, hcontent, hblocks⟩
  have hsays : Says response completion.speech :=
    .reply hcontent hblocks ⟨.inr ⟨_, h.input⟩, .inr ⟨_, h.output⟩⟩
  rcases replyOf_of_says hsays with ⟨calls, usage, hcalls, husage, hread⟩
  -- a response has both counts, so its usage is the report that they make
  have hcounts := usageOf_counts h.input h.output
  rw [hcounts] at husage
  cases husage
  rw [h.model, h.stopReason] at hread
  have hrepeats := repeats_message (some (counts completion.input completion.output))
    completion.model (.str completion.stopReason) hcalls
  refine ⟨_, calls, ?_, hrepeats, rfl, rfl⟩
  rw [Vendor.readReply, hread, Reply.checked_ok]

/-- A stream makes up a message that repeats the completion, with its counts, its reason and what
the start has named. -/
theorem result_of_inStream {events : List Value} (h : completion.InStream events) :
    ∃ a streamed calls, feedEvents .anthropic .empty events = .ok a ∧ a.result = .ok streamed ∧
      Repeats streamed completion.speech calls ∧
      streamed.usage = (counts completion.input completion.output).toValue ∧
      streamed.metadata = .dict (completion.named ++
        [("finish_reason", .str completion.stopReason), ("is_complete", .bool true)]) := by
  rcases feedEvents_of_inStream h with ⟨a, hfeed, ha⟩
  rcases mapM_finish ha.calls with ⟨calls, hfinished, hanswers⟩
  rcases ha.texts with ⟨texts, htexts, hjoin⟩
  rcases Accumulator.result_of_texts (a := { a with phase := .completed }) htexts hjoin hfinished
    hanswers with ⟨streamed, hresult, hrepeats, husage, hmetadata⟩
  refine ⟨_, streamed, calls, hfeed, hresult, hrepeats, husage.trans ha.usage, ?_⟩
  rw [hmetadata, ha.named, List.append_assoc]
  rfl

/-- However a completion is cut into events, and whatever bookkeeping stands between them, feeding
the stream succeeds, and its message agrees with the one that the complete response is read as. -/
theorem agree_of_inStream {response : Value} {events : List Value}
    (hresponse : completion.InResponse response) (hstream : completion.InStream events) :
    ∃ single a streamed, Vendor.anthropic.readReply response = .ok single ∧
      feedEvents .anthropic .empty events = .ok a ∧ a.result = .ok streamed ∧
      Agree SameCall single streamed ∧ (∃ calls, Repeats streamed completion.speech calls) ∧
      streamed.usage = (counts completion.input completion.output).toValue ∧
      streamed.metadata.get "finish_reason" = .ok (.str completion.stopReason) ∧
      streamed.isComplete = .ok true := by
  rcases readReply_of_inResponse hresponse with ⟨single, calls, hread, hsingle, husage, hmetadata⟩
  rcases result_of_inStream hstream with
    ⟨a, streamed, others, hfeed, hresult, hstreamed, hcounts, hnamed⟩
  -- a model that is null is not named by the stream, and looked up it is null again
  have hmodel : streamed.metadata.get "model" = .ok completion.model := by
    rw [hnamed, get_dict, named]
    by_cases hnull : completion.model.isNull = true
    · simp [Value.isNull_iff.1 hnull]
    · simp [hnull]
  have hreason : streamed.metadata.get "finish_reason" = .ok (.str completion.stopReason) := by
    rw [hnamed, get_dict, named]
    split <;> simp
  have hcomplete : streamed.isComplete = .ok true := by
    rw [Message.isComplete, Message.flag, hnamed, get_dict, named]
    split <;> rfl
  have hagree : Agree SameCall single streamed :=
    { role := hsingle.role.trans hstreamed.role.symm
      content := hsingle.content.trans hstreamed.content.symm
      calls := ⟨calls, others, hsingle.toolCalls, hstreamed.toolCalls,
        forall₂_sameCall completion.asked_identified hsingle.answers hstreamed.answers⟩
      usage := husage.trans hcounts.symm
      model := by
        rw [hmodel, hmetadata]
        rfl
      finishReason := by
        rw [hreason, hmetadata]
        rfl }
  exact ⟨single, a, streamed, hread, hfeed, hresult, hagree, ⟨others, hstreamed⟩, hcounts, hreason,
    hcomplete⟩

def seatCompletion : Completion where
  blocks := [.text "Let me see.", .toolUse "t1" "seats" [("row", .int 3)]]
  model := .str "m1"
  stopReason := "tool_use"
  input := 7
  output := 19

def seatResponse : Value :=
  .dict [("model", .str "m1"), ("stop_reason", .str "tool_use"),
    ("content", .list [.dict [("type", .str "text"), ("text", .str "Let me see.")],
      .dict [("type", .str "tool_use"), ("id", .str "t1"), ("name", .str "seats"),
        ("input", .dict [("row", .int 3)])]]),
    ("usage", .dict [("input_tokens", .int 7), ("output_tokens", .int 19)])]

/-- The completion as a stream: the text and the input are cut in two, and a ping, the ends of
blocks and an event of an unknown type stand in between. -/
def seatEvents : List Value :=
  [.dict [("type", .str "message_start"), ("message", .dict [("model", .str "m1"),
      ("usage", .dict [("input_tokens", .int 7), ("output_tokens", .int 1)])])],
    opening 0 [("type", .str "text"), ("text", .str "")],
    .dict [("type", .str "ping")],
    textDelta 0 "Let ",
    .dict [("type", .str "news")],
    textDelta 0 "me see.",
    .dict [("type", .str "content_block_stop"), ("index", .int 0)],
    opening 1 [("type", .str "tool_use"), ("id", .str "t1"), ("name", .str "seats")],
    inputDelta 1 r#"{"ro"#,
    inputDelta 1 r#"w": 3}"#,
    .dict [("type", .str "content_block_stop"), ("index", .int 1)],
    .dict [("type", .str "message_delta"), ("delta", .dict [("stop_reason", .str "tool_use")]),
      ("usage", .dict [("output_tokens", .int 19)])],
    .dict [("type", .str "message_stop")]]

theorem tree_row : Json.Tree (.dict [("row", .int 3)]) :=
  ⟨by decide, by decide, by decide⟩

theorem inResponse_seats : seatCompletion.InResponse seatResponse where
  content := by
    have htext : SaysBlock (.dict [("type", .str "text"), ("text", .str "Let me see.")])
        ⟨"Let me see.", []⟩ :=
      .text (by simp) (by simp [Value.ifNull])
    have hcall : SaysBlock
        (.dict [("type", .str "tool_use"), ("id", .str "t1"), ("name", .str "seats"),
          ("input", .dict [("row", .int 3)])]) ⟨"", [⟨some "t1", "seats", [("row", .int 3)]⟩]⟩ :=
      .call (by simp) (by simp) (by decide) (by simp) (by decide) (by simp [Value.ifNull])
        tree_row
    exact ⟨_, by simp [seatResponse], .cons htext (.cons hcall .nil)⟩
  model := by simp [seatResponse, seatCompletion]
  stopReason := by simp [seatResponse, seatCompletion]
  input := by simp [seatResponse, seatCompletion]
  output := by simp [seatResponse, seatCompletion]

theorem inStream_seats : seatCompletion.InStream seatEvents := by
  have hwrite : Json.write (.dict [("row", .int 3)]) =
      .ok (String.join [r#"{"ro"#, r#"w": 3}"#]) :=
    Json.write_eq_ok_iff.2 ⟨by decide, by decide +kernel⟩
  have htext : BlockEvents 0 (.text "Let me see.")
      [opening 0 [("type", .str "text"), ("text", .str "")], textDelta 0 "Let ",
        textDelta 0 "me see."] :=
    .text (opensText_opening 0)
      (.cons (addsText_textDelta 0 "Let ") (.cons (addsText_textDelta 0 "me see.") .nil)) rfl
  have hcall : BlockEvents 1 (.toolUse "t1" "seats" [("row", .int 3)])
      [opening 1 [("type", .str "tool_use"), ("id", .str "t1"), ("name", .str "seats")],
        inputDelta 1 r#"{"ro"#, inputDelta 1 r#"w": 3}"#] :=
    .toolUse (opensTool_opening 1 (by decide) (by decide))
      (.cons (addsInput_inputDelta 1 _) (.cons (addsInput_inputDelta 1 _) .nil))
      (spells_of_write tree_row hwrite)
  have hstart : Starts (.dict [("type", .str "message_start"), ("message", .dict
      [("model", .str "m1"),
        ("usage", .dict [("input_tokens", .int 7), ("output_tokens", .int 1)])])])
      seatCompletion.model seatCompletion.input 1 :=
    ⟨by simp, by simp [seatCompletion], by simp [seatCompletion], by simp⟩
  refine .stream rfl hstart (.cons htext (.cons hcall (.nil 2))) ?_ ?_
  · exact ⟨by simp, by simp [seatCompletion], .inl (by simp), by simp [seatCompletion]⟩
  · exact ⟨by simp⟩

/-- A text, a call and a report that comes in two parts make one message, in a response and in a
stream. -/
theorem agree_of_inStream_seats :
    ∃ single a streamed, Vendor.anthropic.readReply seatResponse = .ok single ∧
      feedEvents .anthropic .empty seatEvents = .ok a ∧ a.result = .ok streamed ∧
      Agree SameCall single streamed ∧ streamed.usage = (counts 7 19).toValue := by
  rcases agree_of_inStream inResponse_seats inStream_seats with
    ⟨single, a, streamed, hread, hfeed, hresult, hagree, -, husage, -, -⟩
  exact ⟨single, a, streamed, hread, hfeed, hresult, hagree, husage⟩

end Completion

end Parley.Stream.Anthropic
