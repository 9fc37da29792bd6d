import Parley.Proofs.Tool.JsonSchema
import Parley.Proofs.Value.Reading
import Parley.Vendor.Request

/-!
# What a request says

A call names a model and carries the turns of a conversation; by its options it says how the model
is to write, and it may offer tools. This file says in the terms of the call alone what each
vendor's request says of it, for a reply and for a streamed one.

* `Parameter.chosen`: what an option comes to, by the options given, the settings and the defaults;
* `Vendor.Puts`, `Vendor.Chooses`: the forms in which vendors take an option and a choice among
  tools;
* `Faithful`: a request that says what its call says;
* `request_cases`: which calls a request is made of;
* `faithful_made`, `streams_made`: what the requests for a reply and for a stream say;
* `request_congr`: no request says anything of an option that is not one of the five.
-/

namespace Parley

/-! ## What an option comes to -/

/-- The options about how a model writes. -/
inductive Parameter where
  | temperature
  | tokenLimit
  | topP
  | stop

namespace Parameter

def option : Parameter → String
  | .temperature => "temperature"
  | .tokenLimit => "max_tokens"
  | .topP => "top_p"
  | .stop => "stop"

def fallback (settings : Option Settings) (parameter : Parameter) : Value :=
  match parameter, settings with
  | .temperature, some s => s.temperature
  | .temperature, none => .float (.ofScientific false 7 (-1))
  | .tokenLimit, some s => s.maxTokens
  | .tokenLimit, none => .int 1024
  | .topP, _ => .null
  | .stop, _ => .null

/-- What the option comes to: what is given, even null, or else what stands for it. -/
def chosen (settings : Option Settings) (given : Fields) (parameter : Parameter) : Value :=
  (given.lookup parameter.option).getD (parameter.fallback settings)

end Parameter

namespace Options

def documented : List String := ["temperature", "max_tokens", "top_p", "stop", "tool_choice"]

variable {settings : Option Settings} {given others : Fields} {name : String}

/-- An option is the one that is given, or else there is a default for two of them. -/
theorem lookup_resolve (settings : Option Settings) (given : Fields) (name : String) :
    (resolve settings given).lookup name = (given.lookup name).or
      (if name = "temperature" then some (Parameter.temperature.fallback settings)
        else if name = "max_tokens" then some (Parameter.tokenLimit.fallback settings)
        else none) := by
  unfold resolve
  by_cases hlimit : name = "max_tokens"
  · subst hlimit
    rw [Fields.lookup_putIfAbsent, Fields.lookup_putIfAbsent_of_ne _ _ (by decide)]
    cases given.lookup "max_tokens" <;> cases settings <;> rfl
  · rw [Fields.lookup_putIfAbsent_of_ne _ _ hlimit]
    by_cases htemperature : name = "temperature"
    · subst htemperature
      rw [Fields.lookup_putIfAbsent]
      cases given.lookup "temperature" <;> cases settings <;> rfl
    · simp [Fields.lookup_putIfAbsent_of_ne _ _ htemperature, hlimit, htemperature]

/-- What is sent for a parameter is what was chosen for it. -/
theorem value_resolve (settings : Option Settings) (given : Fields) (parameter : Parameter) :
    (resolve settings given).value parameter.option = parameter.chosen settings given := by
  rw [Fields.value, Fields.valueOr, lookup_resolve, Parameter.chosen]
  cases parameter <;> cases given.lookup _ <;> rfl

/-- A choice among tools is given or there is none. -/
theorem value_resolve_toolChoice (settings : Option Settings) (given : Fields) :
    (resolve settings given).value "tool_choice" = given.value "tool_choice" := by
  rw [Fields.value, Fields.valueOr, lookup_resolve, Fields.value, Fields.valueOr]
  simp

theorem lookup_resolve_congr (h : others.lookup name = given.lookup name) :
    (resolve settings others).lookup name = (resolve settings given).lookup name := by
  rw [lookup_resolve, lookup_resolve, h]

/-- The list of the texts at which a model stops: of one text, or of the items there are. -/
inductive Lists : Value → Value → Prop where
  | text {s : String} : Lists (.str s) (.list [.str s])
  | several {v : Value} {items : List Value} (other : ∀ s, v ≠ .str s) (has : v.items = .ok items) :
      Lists v (.list items)

/-- Stop sequences that are no single text are those that are listed. -/
theorem stopSequences_of_other {stop : Value} (hsome : stop ≠ .null) (hother : ∀ s, stop ≠ .str s) :
    stopSequences stop = stop.items.map .list := by
  cases stop with
  | null => exact absurd rfl hsome
  | str s => exact absurd rfl (hother s)
  | _ => rfl

/-- A stop option that is given can be sent as a list if it is a text or has items. -/
theorem stopSequences_cases {stop : Value} (hsome : stop ≠ .null) :
    (∃ sequences, stopSequences stop = .ok sequences ∧ Lists stop sequences) ∨
      ∃ fault, stopSequences stop = .error fault ∧ ∀ sequences, ¬ Lists stop sequences := by
  by_cases htext : ∃ s, stop = .str s
  · rcases htext with ⟨s, rfl⟩
    exact .inl ⟨_, rfl, .text⟩
  have hother : ∀ s, stop ≠ .str s := fun s h => htext ⟨s, h⟩
  rw [stopSequences_of_other hsome hother]
  rcases hitems : stop.items with fault | items
  · refine .inr ⟨fault, rfl, ?_⟩
    intro sequences h
    cases h with
    | text => exact hother _ rfl
    | several _ has => cases hitems.symm.trans has
  · exact .inl ⟨_, rfl, .several hother hitems⟩

end Options

/-! ## Names and forms -/

/-- The words by which a choice among tools names none of them. -/
inductive ToolWord where
  | auto
  | none
  | required

def ToolWord.text : ToolWord → String
  | .auto => "auto"
  | .none => "none"
  | .required => "required"

namespace Vendor

def turnsName : Vendor → String
  | .openAI _ => "messages"
  | .anthropic => "messages"
  | .google _ => "contents"

/-- The name of the system instruction, if it stands apart from the turns. -/
def systemName? : Vendor → Option String
  | .openAI _ => none
  | .anthropic => some "system"
  | .google _ => some "system_instruction"

def choiceName : Vendor → String
  | .openAI _ => "tool_choice"
  | .anthropic => "tool_choice"
  | .google _ => "tool_config"

def nameOf (vendor : Vendor) (parameter : Parameter) : String :=
  match vendor, parameter with
  | _, .temperature => "temperature"
  | .google _, .tokenLimit => "max_output_tokens"
  | _, .tokenLimit => "max_tokens"
  | _, .topP => "top_p"
  | .openAI _, .stop => "stop"
  | _, .stop => "stop_sequences"

/-- The form in which a vendor takes an option: as it is, but for the texts at which a model stops,
of which all vendors but one want a list. -/
inductive Puts (vendor : Vendor) : Parameter → Value → Value → Prop where
  | same {parameter : Parameter} {v : Value} (other : parameter ≠ .stop) : Puts vendor parameter v v
  | nothing : Puts vendor .stop .null .null
  | stop {label v : Value} (chat : vendor = .openAI label) : Puts vendor .stop v v
  | sequences {v w : Value} (other : ∀ label, vendor ≠ .openAI label) (lists : Options.Lists v w) :
      Puts vendor .stop v w

def wordForm (vendor : Vendor) (word : ToolWord) : Value :=
  match vendor, word with
  | .openAI _, word => .str word.text
  | .anthropic, .auto => .dict [("type", .str "auto")]
  | .anthropic, .none => .dict [("type", .str "none")]
  | .anthropic, .required => .dict [("type", .str "any")]
  | .google _, .auto => .dict [("function_calling_config", .dict [("mode", .str "AUTO")])]
  | .google _, .none => .dict [("function_calling_config", .dict [("mode", .str "NONE")])]
  | .google _, .required => .dict [("function_calling_config", .dict [("mode", .str "ANY")])]

/-- The choice of a tool by its name in the vendor's form. -/
def nameForm (vendor : Vendor) (name : Value) : Value :=
  match vendor with
  | .openAI _ => .dict [("type", .str "function"), ("function", .dict [("name", name)])]
  | .anthropic => .dict [("type", .str "tool"), ("name", name)]
  | .google _ => .dict [("function_calling_config",
      .dict [("mode", .str "ANY"), ("allowed_function_names", .list [name])])]

/-- A choice among tools and its form. -/
inductive Chooses (vendor : Vendor) : Value → Value → Prop where
  | word (word : ToolWord) : Chooses vendor (.str word.text) (vendor.wordForm word)
  | tool {name : Value} (tool : ∀ word : ToolWord, name ≠ .str word.text) :
      Chooses vendor name (vendor.nameForm name)

/-- Where a request says what the call says of options and tools: among its arguments, or in the
configuration that is one of them. -/
def saidIn (vendor : Vendor) (request : Request) : Fields :=
  match vendor with
  | .openAI _ => request.arguments
  | .anthropic => request.arguments
  | .google _ =>
    match request.arguments.value "config" with
    | .dict fields => fields
    | _ => []

/-- A request for a reply, and the one that asks for the same reply as a stream. -/
inductive Streams : Vendor → Request → Request → Prop where
  | openAI {label : Value} {arguments : Fields} (new : arguments.lookup "stream" = none) :
      Streams (.openAI label) ⟨.createCompletion, arguments⟩
        ⟨.createCompletion, arguments ++ [("stream", .bool true)]⟩
  | anthropic {arguments : Fields} (new : arguments.lookup "stream" = none) :
      Streams .anthropic ⟨.createMessage, arguments⟩
        ⟨.createMessage, arguments ++ [("stream", .bool true)]⟩
  | google {tag : String} {arguments : Fields} :
      Streams (.google tag) ⟨.generateContent, arguments⟩ ⟨.streamContent, arguments⟩

end Vendor

/-- A request that says what its call says, each part under the vendor's name and in its form. -/
structure Faithful (vendor : Vendor) (settings : Option Settings) (model : Value)
    (payload : Payload) (given : Fields) (request : Request) : Prop where
  model : request.arguments.lookup "model" = some model
  turns : request.arguments.lookup vendor.turnsName = some payload.messages
  option : ∀ parameter : Parameter, parameter.chosen settings given ≠ .null →
    ∃ form, vendor.Puts parameter (parameter.chosen settings given) form ∧
      (vendor.saidIn request).lookup (vendor.nameOf parameter) = some form
  /-- Nothing takes the place of an option that comes to nothing. -/
  withheld : ∀ parameter : Parameter, parameter.chosen settings given = .null →
    (vendor.saidIn request).value (vendor.nameOf parameter) = .null
  system : ∀ name, vendor.systemName? = some name → ∀ v,
    (vendor.saidIn request).lookup name = some v ↔ payload.system = v ∧ v ≠ .null
  tools : ∀ v, (vendor.saidIn request).lookup "tools" = some v ↔ payload.tools = v ∧ v ≠ .null
  choice : (∃ form, (vendor.saidIn request).lookup vendor.choiceName = some form) ↔
    given.value "tool_choice" ≠ .null ∧ payload.tools.truthy = true
  form : ∀ form, (vendor.saidIn request).lookup vendor.choiceName = some form →
    vendor.Chooses (given.value "tool_choice") form

/-! ## The requests that are made -/

namespace Vendor

variable {vendor : Vendor} {payload : Payload} {options : Fields} {model stop choice : Value}

/-- What is said of options and tools, null where nothing is. -/
def terms (vendor : Vendor) (payload : Payload) (options : Fields) (stop : Value) : Fields :=
  let choice := Request.toolChoice payload options vendor.toolChoice
  match vendor with
  | .openAI _ => [
    ("temperature", options.value "temperature"),
    ("max_tokens", options.value "max_tokens"),
    ("top_p", options.value "top_p"),
    ("stop", stop),
    ("tools", payload.tools),
    ("tool_choice", choice)]
  | .anthropic => [
    ("system", payload.system),
    ("temperature", options.value "temperature"),
    ("top_p", options.value "top_p"),
    ("stop_sequences", stop),
    ("tools", payload.tools),
    ("tool_choice", choice)]
  | .google _ => [
    ("temperature", options.value "temperature"),
    ("max_output_tokens", options.value "max_tokens"),
    ("system_instruction", payload.system),
    ("top_p", options.value "top_p"),
    ("stop_sequences", stop),
    ("tools", payload.tools),
    ("tool_config", choice)]

/-- The request with a stop option that is in the vendor's form. -/
def made (vendor : Vendor) (streaming : Bool) (model : Value) (payload : Payload)
    (options : Fields) (stop : Value) : Request :=
  let said := (vendor.terms payload options stop).present
  match vendor with
  | .openAI _ => ⟨.createCompletion,
      [("model", model), ("messages", payload.messages)] ++ said ++ Request.streamFlag streaming⟩
  | .anthropic => ⟨.createMessage,
      [("model", model), ("messages", payload.messages),
        ("max_tokens", options.value "max_tokens")] ++ said ++ Request.streamFlag streaming⟩
  | .google _ => ⟨if streaming then .streamContent else .generateContent,
      [("model", model), ("contents", payload.messages), ("config", .dict said)]⟩

/-- The request of a vendor that takes stop sequences as a list is made if there is such a list. -/
theorem request_of_other (hother : ∀ label, vendor ≠ .openAI label) (streaming : Bool) :
    vendor.request streaming model payload options =
      (Options.stopSequences (options.value "stop")).map
        (vendor.made streaming model payload options) := by
  cases vendor with
  | openAI label => exact absurd rfl (hother label)
  | anthropic =>
    rw [request, Anthropic.request, Anthropic.arguments]
    cases Options.stopSequences (options.value "stop") <;> rfl
  | google tag =>
    rw [request, Google.request, Google.configuration]
    cases Options.stopSequences (options.value "stop") <;> rfl

/-- A request is made of every call whose stop option has a form, and of no other. -/
theorem request_cases (vendor : Vendor) (model : Value) (payload : Payload) (options : Fields) :
    (∃ stop, vendor.Puts .stop (options.value "stop") stop ∧ ∀ streaming,
      vendor.request streaming model payload options =
        .ok (vendor.made streaming model payload options stop)) ∨
    ∃ fault, (∀ form, ¬ vendor.Puts .stop (options.value "stop") form) ∧ ∀ streaming,
      vendor.request streaming model payload options = .error fault := by
  by_cases hchat : ∃ label, vendor = .openAI label
  · rcases hchat with ⟨label, rfl⟩
    exact .inl ⟨_, .stop rfl, fun _ => rfl⟩
  have hother : ∀ label, vendor ≠ .openAI label := fun label h => hchat ⟨label, h⟩
  simp only [request_of_other hother]
  generalize options.value "stop" = given
  by_cases hnull : given = .null
  · subst hnull
    exact .inl ⟨.null, .nothing, fun _ => rfl⟩
  rcases Options.stopSequences_cases hnull with ⟨stop, hstop, hlists⟩ | ⟨fault, hstop, hlists⟩
  · exact .inl ⟨stop, .sequences hother hlists, fun _ => by rw [hstop]; rfl⟩
  · refine .inr ⟨fault, ?_, fun _ => by rw [hstop]; rfl⟩
    intro form h
    cases h with
    | same other => exact other rfl
    | nothing => exact hnull rfl
    | stop chat => exact hother _ chat
    | sequences _ lists => exact hlists _ lists

/-- The arguments that do not depend on whether a call says anything of options and tools. -/
def fixed : Vendor → List String
  | .openAI _ => ["model", "messages", "stream"]
  | .anthropic => ["model", "messages", "max_tokens", "stream"]
  | .google _ => []

/-- No term of a request stands for two things. -/
theorem nodup_terms : ((vendor.terms payload options stop).map Prod.fst).Nodup := by
  cases vendor <;> simp [terms]

theorem not_mem_streamFlag (streaming : Bool) {name : String} (h : name ≠ "stream") :
    name ∉ (Request.streamFlag streaming).map Prod.fst := by
  cases streaming <;> simp [Request.streamFlag, h]

/-- What is said is found behind the arguments that are always there, and before the flag. -/
theorem lookup_made (streaming : Bool) {name : String} (h : name ∉ vendor.fixed) :
    (vendor.saidIn (vendor.made streaming model payload options stop)).lookup name =
      List.lookup name (vendor.terms payload options stop).present := by
  have hbetween : ∀ front : Fields, name ∉ front.map Prod.fst → name ≠ "stream" →
      List.lookup name (front ++ (vendor.terms payload options stop).present ++
        Request.streamFlag streaming) =
        List.lookup name (vendor.terms payload options stop).present := by
    intro front hfront hstream
    rw [List.lookup_append, List.lookup_append, Fields.lookup_of_not_mem hfront,
      Fields.lookup_of_not_mem (not_mem_streamFlag streaming hstream), Option.or_none,
      Option.none_or]
  cases vendor with
  | openAI label =>
    simp only [fixed, List.mem_cons, List.not_mem_nil, or_false, not_or] at h
    exact hbetween _ (by simp [h]) h.2.2
  | anthropic =>
    simp only [fixed, List.mem_cons, List.not_mem_nil, or_false, not_or] at h
    exact hbetween _ (by simp [h]) h.2.2.2
  | google tag => rfl

/-- What a request says by a name is the term of that name, unless that is null. -/
theorem lookup_made_iff (streaming : Bool) {name : String} (h : name ∉ vendor.fixed) {v : Value} :
    (vendor.saidIn (vendor.made streaming model payload options stop)).lookup name = some v ↔
      (vendor.terms payload options stop).value name = v ∧ v ≠ .null := by
  rw [lookup_made streaming h, Fields.lookup_present_iff nodup_terms]

theorem value_made (streaming : Bool) {name : String} (h : name ∉ vendor.fixed) :
    (vendor.saidIn (vendor.made streaming model payload options stop)).value name =
      (vendor.terms payload options stop).value name := by
  rw [Fields.value_congr (lookup_made streaming h), Fields.value_present nodup_terms]

/-- What is said of an option: the option itself, or the form that the stop option was given. -/
def said (options : Fields) (stop : Value) : Parameter → Value
  | .stop => stop
  | parameter => options.value parameter.option

/-- By a parameter's name a request says what is said for the parameter. -/
theorem value_nameOf (streaming : Bool) (parameter : Parameter) :
    (vendor.saidIn (vendor.made streaming model payload options stop)).value
      (vendor.nameOf parameter) = said options stop parameter := by
  by_cases hlimit : vendor = .anthropic ∧ parameter = .tokenLimit
  · -- the token limit that is sent even if it is null
    rcases hlimit with ⟨rfl, rfl⟩
    rfl
  · have hfree : vendor.nameOf parameter ∉ vendor.fixed := by
      cases vendor <;> cases parameter <;> simp [fixed, nameOf] at hlimit ⊢
    rw [value_made streaming hfree]
    cases vendor <;> cases parameter <;>
      simp [terms, nameOf, said, Parameter.option] at hlimit ⊢

/-! ### Forms -/

/-- A form is null exactly if what it is the form of is. -/
theorem Puts.null_iff {parameter : Parameter} {v w : Value} (h : vendor.Puts parameter v w) :
    w = .null ↔ v = .null := by
  cases h with
  | same => rfl
  | nothing => rfl
  | stop => rfl
  | sequences _ lists => cases lists with
    | text => simp
    | several _ has =>
      constructor
      · intro h
        cases h
      · rintro rfl
        cases has

/-- Every parameter is put in its vendor's form, if the stop sequences are. -/
theorem puts_said (hstop : vendor.Puts .stop (options.value "stop") stop) (parameter : Parameter) :
    vendor.Puts parameter (options.value parameter.option) (said options stop parameter) := by
  cases parameter with
  | stop => exact hstop
  | _ => exact .same (by simp)

theorem toolChoice_null (vendor : Vendor) : vendor.toolChoice .null = .null := by
  cases vendor <;> rfl

/-- A word that every vendor knows is put in the vendor's form. -/
theorem toolChoice_word (vendor : Vendor) (word : ToolWord) :
    vendor.toolChoice (.str word.text) = vendor.wordForm word := by
  cases vendor <;> cases word <;> rfl

theorem toolChoice_of_tool (hsome : choice ≠ .null)
    (htool : ∀ word : ToolWord, choice ≠ .str word.text) :
    vendor.toolChoice choice = vendor.nameForm choice := by
  have hnull : choice.isNull = false := by simpa using mt Value.isNull_iff.1 hsome
  have hword : ∀ word : ToolWord, choice.isText word.text = false := by
    intro word
    simpa using mt Value.eq_str_of_isText (htool word)
  have hauto := hword .auto
  have hnone := hword .none
  have hrequired := hword .required
  simp only [ToolWord.text] at hauto hnone hrequired
  cases vendor <;>
    simp [toolChoice, OpenAI.toolChoice, Anthropic.toolChoice, Google.toolChoice,
      Google.callingMode, nameForm, hnull, hauto, hnone, hrequired]

/-- A choice that is given is in the vendor's form. -/
theorem chooses_toolChoice (hsome : choice ≠ .null) :
    vendor.Chooses choice (vendor.toolChoice choice) := by
  by_cases hword : ∃ word : ToolWord, choice = .str word.text
  · rcases hword with ⟨word, rfl⟩
    rw [toolChoice_word]
    exact .word word
  · have htool : ∀ word : ToolWord, choice ≠ .str word.text := fun word h => hword ⟨word, h⟩
    rw [toolChoice_of_tool hsome htool]
    exact .tool htool

theorem Chooses.ne_null {form : Value} (h : vendor.Chooses choice form) : form ≠ .null := by
  cases h with
  | word word => cases vendor <;> cases word <;> simp [wordForm]
  | tool => cases vendor <;> simp [nameForm]

/-- The system instruction stands under the vendor's name for it. -/
theorem value_systemName {name : String} (h : vendor.systemName? = some name) :
    name ∉ vendor.fixed ∧ (vendor.terms payload options stop).value name = payload.system := by
  cases vendor <;> cases h <;> simp [fixed, terms]

theorem value_choiceName :
    (vendor.terms payload options stop).value vendor.choiceName =
      Request.toolChoice payload options vendor.toolChoice := by
  cases vendor <;> simp [terms, choiceName]

/-- A choice is sent if one is given and there are tools to choose from. -/
theorem requestToolChoice_ne_null_iff (vendor : Vendor) :
    Request.toolChoice payload options vendor.toolChoice ≠ .null ↔
      options.value "tool_choice" ≠ .null ∧ payload.tools.truthy = true := by
  unfold Request.toolChoice
  by_cases hoffered : payload.tools.truthy = true
  · rw [if_pos hoffered]
    constructor
    · intro h
      refine ⟨?_, hoffered⟩
      intro hnull
      rw [hnull, toolChoice_null] at h
      exact h rfl
    · rintro ⟨hsome, -⟩
      exact (chooses_toolChoice hsome).ne_null
  · rw [if_neg hoffered]
    simp [hoffered]

/-! ### What the requests say -/

/-- A request that is made is faithful. -/
theorem faithful_made {settings : Option Settings} {given : Fields} (streaming : Bool)
    (hstop : vendor.Puts .stop (Parameter.stop.chosen settings given) stop) :
    Faithful vendor settings model payload given
      (vendor.made streaming model payload (Options.resolve settings given) stop) := by
  have hchosen := Options.value_resolve settings given
  have hchoice := Options.value_resolve_toolChoice settings given
  have hputs : ∀ parameter : Parameter, vendor.Puts parameter (parameter.chosen settings given)
      (said (Options.resolve settings given) stop parameter) := by
    intro parameter
    rw [← hchosen] at hstop ⊢
    exact puts_said hstop parameter
  have hform : ∀ {form}, (vendor.saidIn (vendor.made streaming model payload
      (Options.resolve settings given) stop)).lookup vendor.choiceName = some form ↔
      Request.toolChoice payload (Options.resolve settings given) vendor.toolChoice = form ∧
        form ≠ .null := by
    intro form
    rw [← value_choiceName,
      lookup_made_iff streaming (by cases vendor <;> simp [fixed, choiceName])]
  exact
    { model := by cases vendor <;> rfl
      turns := by cases vendor <;> rfl
      option := by
        intro parameter hsome
        refine ⟨_, hputs parameter, Fields.lookup_of_value (value_nameOf streaming parameter) ?_⟩
        exact mt (hputs parameter).null_iff.1 hsome
      withheld := by
        intro parameter hnull
        rw [value_nameOf]
        exact (hputs parameter).null_iff.2 hnull
      system := by
        intro name hname v
        rcases value_systemName hname with ⟨hfree, hsystem⟩
        rw [lookup_made_iff streaming hfree, hsystem]
      tools := by
        intro v
        rw [lookup_made_iff streaming (by cases vendor <;> simp [fixed])]
        cases vendor <;> simp [terms]
      choice := by
        rw [← hchoice, ← requestToolChoice_ne_null_iff vendor]
        constructor
        · rintro ⟨form, h⟩
          rcases hform.1 h with ⟨rfl, hsome⟩
          exact hsome
        · intro h
          exact ⟨_, hform.2 ⟨rfl, h⟩⟩
      form := by
        intro form h
        rcases hform.1 h with ⟨rfl, hsome⟩
        rcases (requestToolChoice_ne_null_iff vendor).1 hsome with ⟨hgiven, hoffered⟩
        rw [Request.toolChoice, if_pos hoffered, hchoice]
        rw [hchoice] at hgiven
        exact chooses_toolChoice hgiven }

theorem lookup_stream_terms :
    List.lookup "stream" (vendor.terms payload options stop).present = none := by
  rcases hlookup : List.lookup "stream" (vendor.terms payload options stop).present with _ | v
  · rfl
  · rcases (Fields.lookup_present_iff nodup_terms).1 hlookup with ⟨rfl, hsome⟩
    exact absurd (by cases vendor <;> simp [terms]) hsome

/-- The requests for a reply and for a stream say the same. -/
theorem streams_made :
    vendor.Streams (vendor.made false model payload options stop)
      (vendor.made true model payload options stop) := by
  cases vendor with
  | openAI label =>
    simp only [made, Request.streamFlag, Bool.false_eq_true, if_false, if_true, List.append_nil]
    refine .openAI ?_
    simp [List.lookup_cons, lookup_stream_terms]
  | anthropic =>
    simp only [made, Request.streamFlag, Bool.false_eq_true, if_false, if_true, List.append_nil]
    refine .anthropic ?_
    simp [List.lookup_cons, lookup_stream_terms]
  | google tag => exact .google

/-- A request says nothing of any other option. -/
theorem request_congr {others : Fields}
    (h : ∀ name ∈ Options.documented, others.lookup name = options.lookup name) (streaming : Bool) :
    vendor.request streaming model payload others =
      vendor.request streaming model payload options := by
  have htemperature := Fields.value_congr (h "temperature" (by simp [Options.documented]))
  have hlimit := Fields.value_congr (h "max_tokens" (by simp [Options.documented]))
  have htopP := Fields.value_congr (h "top_p" (by simp [Options.documented]))
  have hstop := Fields.value_congr (h "stop" (by simp [Options.documented]))
  have hchoice := Fields.value_congr (h "tool_choice" (by simp [Options.documented]))
  cases vendor with
  | openAI label =>
    simp only [request, OpenAI.request, OpenAI.arguments, Request.toolChoice, htemperature, hlimit,
      htopP, hstop, hchoice]
  | anthropic =>
    simp only [request, Anthropic.request, Anthropic.arguments, Request.toolChoice, htemperature,
      hlimit, htopP, hstop, hchoice]
  | google tag =>
    simp only [request, Google.request, Google.configuration, Request.toolChoice, htemperature,
      hlimit, htopP, hstop, hchoice]

end Vendor

end Parley
