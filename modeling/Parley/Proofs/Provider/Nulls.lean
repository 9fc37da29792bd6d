import Parley.Proofs.Provider.Calls
import Parley.Proofs.Reply.Basic

/-!
# Nulls in requests

Options may be given as null, settings may be null, and a payload need not have a system instruction
or tools. None of this is sent as null, with one exception: the vendor that insists on a token limit
is sent whatever the limit comes to. This file says when that is null.

* `Options.LacksLimit`: the token limit comes to nothing;
* `Vendor.SendsNulls`: which nulls a request holds, and what becomes of options given as null;
* `sendsNulls_of_calls`: the requests of all calls.
-/

namespace Parley

theorem Fields.ne_null_of_mem_present {fields : Fields} {f : String × Value}
    (h : f ∈ Fields.present fields) : f.2 ≠ .null := by
  rw [Fields.present, List.mem_filter] at h
  intro hnull
  simp [hnull] at h

/-- The token limit comes to nothing: it is given as null, or the settings have null for it. -/
def Options.LacksLimit (settings : Option Settings) (given : Fields) : Prop :=
  given.lookup "max_tokens" = some .null ∨
    given.lookup "max_tokens" = none ∧ ∃ s, settings = some s ∧ s.maxTokens = .null

/-- The limit that is chosen is null exactly if the call names null, or else the settings do. -/
theorem Options.chosen_tokenLimit_eq_null_iff {settings : Option Settings} {given : Fields} :
    Parameter.tokenLimit.chosen settings given = .null ↔ LacksLimit settings given := by
  rw [Parameter.chosen, LacksLimit]
  cases hgiven : given.lookup "max_tokens" with
  | some v => simp [Parameter.option, hgiven]
  | none =>
    cases settings with
    | none => simp [Parameter.option, hgiven, Parameter.fallback]
    | some s => simp [Parameter.option, hgiven, Parameter.fallback]

/-- A token limit that is an integer or null wherever it is named comes to an integer or null. -/
theorem Options.isCount_chosen_tokenLimit {settings : Option Settings} {given : Fields}
    (hgiven : ∀ v, given.lookup "max_tokens" = some v → v.IsCount)
    (hsettings : ∀ s, settings = some s → s.maxTokens.IsCount) :
    (Parameter.tokenLimit.chosen settings given).IsCount := by
  rw [Parameter.chosen]
  cases hlookup : given.lookup Parameter.tokenLimit.option with
  | some v => exact hgiven v hlookup
  | none =>
    cases settings with
    | none => exact .inr ⟨1024, rfl⟩
    | some s => exact hsettings s rfl

namespace Vendor

variable {vendor : Vendor} {settings : Option Settings} {given options : Fields}
  {model stop : Value} {payload : Payload} {request : Request}

/-- The named arguments of a request, together with those that its configuration is made of. -/
def allArguments (vendor : Vendor) (request : Request) : Fields :=
  request.arguments ++ vendor.saidIn request

/-- Which nulls a request holds, and what becomes of options that are given as null. -/
structure SendsNulls (vendor : Vendor) (settings : Option Settings) (given : Fields)
    (request : Request) : Prop where
  /-- Nothing but a token limit is ever null, and that only for one vendor. -/
  only : ∀ f ∈ vendor.allArguments request, f.2 = .null →
    vendor = .anthropic ∧ f.1 = "max_tokens"
  /-- A null is sent exactly if that vendor's token limit comes to nothing. -/
  iff_lacksLimit : (∃ f ∈ vendor.allArguments request, f.2 = .null) ↔
    vendor = .anthropic ∧ Options.LacksLimit settings given
  /-- Where all limits that are named are integers or null, an integer is sent unless the limit
  comes to nothing. -/
  limit : vendor = .anthropic →
    (∀ v, given.lookup "max_tokens" = some v → v.IsCount) →
    (∀ s, settings = some s → s.maxTokens.IsCount) →
    ((∃ n : Int, request.arguments.lookup "max_tokens" = some (.int n)) ↔
      ¬Options.LacksLimit settings given)
  /-- Any other option that is given as null is not sent. -/
  option : ∀ parameter : Parameter, given.lookup parameter.option = some .null →
    ¬(vendor = .anthropic ∧ parameter = .tokenLimit) →
      (vendor.saidIn request).lookup (vendor.nameOf parameter) = none
  choice : given.lookup "tool_choice" = some .null →
    (vendor.saidIn request).lookup vendor.choiceName = none

/-- What an argument of a request can be. -/
inductive IsArgument (vendor : Vendor) (streaming : Bool) (model : Value) (payload : Payload)
    (options : Fields) (stop : Value) : String × Value → Prop where
  | model : IsArgument vendor streaming model payload options stop ("model", model)
  | turns :
      IsArgument vendor streaming model payload options stop (vendor.turnsName, payload.messages)
  | said {f : String × Value} (present : f ∈ (vendor.terms payload options stop).present) :
      IsArgument vendor streaming model payload options stop f
  | flag {f : String × Value} (streamed : f ∈ Request.streamFlag streaming) :
      IsArgument vendor streaming model payload options stop f
  | configuration (fields : Fields) :
      IsArgument vendor streaming model payload options stop ("config", .dict fields)
  /-- The token limit that one vendor is always sent. -/
  | limit (strict : vendor = .anthropic) :
      IsArgument vendor streaming model payload options stop
        ("max_tokens", options.value "max_tokens")

/-- Every argument of a request is one of those that are listed. -/
theorem isArgument_of_mem_arguments {streaming : Bool} {f : String × Value}
    (h : f ∈ (vendor.made streaming model payload options stop).arguments) :
    IsArgument vendor streaming model payload options stop f := by
  cases vendor with
  | openAI label =>
    simp only [made, List.mem_append, List.mem_cons, List.not_mem_nil, or_false] at h
    rcases h with ((rfl | rfl) | hsaid) | hflag
    · exact .model
    · exact .turns
    · exact .said hsaid
    · exact .flag hflag
  | anthropic =>
    simp only [made, List.mem_append, List.mem_cons, List.not_mem_nil, or_false] at h
    rcases h with ((rfl | rfl | rfl) | hsaid) | hflag
    · exact .model
    · exact .turns
    · exact .limit rfl
    · exact .said hsaid
    · exact .flag hflag
  | google tag =>
    simp only [made, List.mem_cons, List.not_mem_nil, or_false] at h
    rcases h with rfl | rfl | rfl
    · exact .model
    · exact .turns
    · exact .configuration _

theorem isArgument_of_mem_allArguments {streaming : Bool} {f : String × Value}
    (h : f ∈ vendor.allArguments (vendor.made streaming model payload options stop)) :
    IsArgument vendor streaming model payload options stop f := by
  rcases List.mem_append.1 h with hargument | hsaid
  · exact isArgument_of_mem_arguments hargument
  -- only one vendor has a configuration apart from the arguments
  cases vendor with
  | openAI label => exact isArgument_of_mem_arguments hsaid
  | anthropic => exact isArgument_of_mem_arguments hsaid
  | google tag => exact .said hsaid

/-- What may be null among the arguments of a request for a model and turns that are not. -/
theorem eq_limit_of_null {streaming : Bool} (hmodel : model ≠ .null)
    (hturns : payload.messages ≠ .null) {f : String × Value}
    (h : f ∈ vendor.allArguments (vendor.made streaming model payload options stop))
    (hnull : f.2 = .null) :
    vendor = .anthropic ∧ f = ("max_tokens", options.value "max_tokens") := by
  cases isArgument_of_mem_allArguments h with
  | model => exact absurd hnull hmodel
  | turns => exact absurd hnull hturns
  | said present => exact absurd hnull (Fields.ne_null_of_mem_present present)
  | flag streamed =>
    cases streaming with
    | false => cases streamed
    | true =>
      rw [List.mem_singleton.1 streamed] at hnull
      cases hnull
  | configuration fields => cases hnull
  | limit strict => exact ⟨strict, rfl⟩

/-- One vendor is always sent the token limit, null or not. -/
theorem limit_mem_made {streaming : Bool} :
    ("max_tokens", options.value "max_tokens") ∈
      anthropic.allArguments (anthropic.made streaming model payload options stop) := by
  simp [allArguments, made]

/-- A choice among tools is sent only if one is given. -/
theorem lookup_choiceName_of_null {streaming : Bool} (h : options.value "tool_choice" = .null) :
    (vendor.saidIn (vendor.made streaming model payload options stop)).lookup vendor.choiceName =
      none := by
  have hfree : vendor.choiceName ∉ vendor.fixed := by
    cases vendor <;> simp [choiceName, fixed]
  rcases hlookup : (vendor.saidIn (vendor.made streaming model payload options stop)).lookup
    vendor.choiceName with _ | form
  · rfl
  rcases (lookup_made_iff streaming hfree).1 hlookup with ⟨rfl, hform⟩
  rw [value_choiceName, requestToolChoice_ne_null_iff] at hform
  exact absurd h hform.1

/-- What is null of an option that is not always sent is not sent. -/
theorem lookup_nameOf_of_null {streaming : Bool} {parameter : Parameter}
    (hfree : ¬(vendor = .anthropic ∧ parameter = .tokenLimit))
    (h : said options stop parameter = .null) :
    (vendor.saidIn (vendor.made streaming model payload options stop)).lookup
      (vendor.nameOf parameter) = none := by
  have hname : vendor.nameOf parameter ∉ vendor.fixed := by
    cases vendor <;> cases parameter <;> simp [fixed, nameOf] at hfree ⊢
  rcases hlookup : (vendor.saidIn (vendor.made streaming model payload options stop)).lookup
    (vendor.nameOf parameter) with _ | v
  · rfl
  have hsome := ((lookup_made_iff streaming hname).1 hlookup).2
  have hv := Fields.value_of_lookup hlookup
  rw [value_nameOf, h] at hv
  exact absurd hv.symm hsome

/-- A request that is made has a null among its arguments exactly where it is said. -/
theorem sendsNulls_made (streaming : Bool) (hmodel : model ≠ .null)
    (hturns : payload.messages ≠ .null)
    (hstop : vendor.Puts .stop (Parameter.stop.chosen settings given) stop) :
    vendor.SendsNulls settings given
      (vendor.made streaming model payload (Options.resolve settings given) stop) := by
  have hlimit : (Options.resolve settings given).value "max_tokens" =
      Parameter.tokenLimit.chosen settings given :=
    Options.value_resolve settings given .tokenLimit
  have honly := @eq_limit_of_null vendor (Options.resolve settings given) model stop payload
    streaming hmodel hturns
  exact
    { only := fun f hf hnull => ⟨(honly hf hnull).1, by rw [(honly hf hnull).2]⟩
      iff_lacksLimit := by
        rw [← Options.chosen_tokenLimit_eq_null_iff, ← hlimit]
        constructor
        · rintro ⟨f, hf, hnull⟩
          rcases honly hf hnull with ⟨hvendor, rfl⟩
          exact ⟨hvendor, hnull⟩
        · rintro ⟨rfl, hnull⟩
          exact ⟨_, limit_mem_made, hnull⟩
      limit := by
        rintro rfl hgiven hsettings
        have hlookup : (anthropic.made streaming model payload
            (Options.resolve settings given) stop).arguments.lookup "max_tokens" =
            some (Parameter.tokenLimit.chosen settings given) := by
          rw [← hlimit]
          rfl
        rw [← Options.chosen_tokenLimit_eq_null_iff, hlookup]
        rcases Options.isCount_chosen_tokenLimit hgiven hsettings with hnull | ⟨n, hn⟩
        · simp [hnull]
        · simp [hn]
      option := by
        intro parameter hnull hfree
        refine lookup_nameOf_of_null hfree ?_
        have hchosen : parameter.chosen settings given = .null := by
          rw [Parameter.chosen, hnull]
          rfl
        cases parameter with
        | stop => exact hstop.null_iff.2 hchosen
        | _ => exact (Options.value_resolve settings given _).trans hchosen
      choice := by
        intro hnull
        refine lookup_choiceName_of_null ?_
        rw [Options.value_resolve_toolChoice, Fields.value_of_lookup hnull] }

end Vendor

namespace Provider

/-- Whatever is called for, the requests of a call are made of what the call has ready, and hold no
null but that of a token limit that comes to nothing, sent to the vendor that insists on one. -/
theorem sendsNulls_of_calls {p : Provider} {service : Service} {call : Call} {request : Request}
    (h : request ∈ (call.run p service).requests) :
    ∃ d, call.ready p = .ok d ∧ (d.model ≠ .null → d.payload.messages ≠ .null →
      p.vendor.SendsNulls p.settings d.options request) := by
  rcases Call.exists_ready_of_mem_requests h with ⟨d, hready, hrequest⟩
  refine ⟨d, hready, fun hmodel hturns => ?_⟩
  have hstop : (Options.resolve p.settings d.options).value "stop" =
      Parameter.stop.chosen p.settings d.options :=
    Options.value_resolve p.settings d.options .stop
  rcases p.vendor.request_cases d.model d.payload (Options.resolve p.settings d.options) with
    ⟨stop, hputs, hmade⟩ | ⟨fault, -, hfails⟩
  · cases (hmade call.isStreaming).symm.trans hrequest
    rw [hstop] at hputs
    exact Vendor.sendsNulls_made call.isStreaming hmodel hturns hputs
  · cases (hfails call.isStreaming).symm.trans hrequest

/-- What is sent with both a temperature and a token limit that are given as null. -/
def unlimited : Dispatch where
  model := .str "claude"
  payload := { vendor := .str "anthropic", messages := .list [] }
  options := [("temperature", .null), ("max_tokens", .null)]

/-- A call that gives both options as null makes a request with one null among its arguments. -/
theorem sendsNulls_of_calls_unlimited :
    let p : Provider := { vendor := .anthropic, connection := some .handedIn }
    ∃ request ∈ ((Call.complete unlimited).run p {}).requests,
      p.vendor.SendsNulls p.settings unlimited.options request := by
  intro p
  have hsent : _ ∈ ((Call.complete unlimited).run p {}).requests := List.mem_cons_self
  rcases sendsNulls_of_calls hsent with ⟨d, hready, h⟩
  cases hready
  exact ⟨_, hsent, h (by simp [unlimited]) (by simp [unlimited])⟩

/-- Of two options that are given as null, one is not sent, and the other is sent as null. -/
theorem sends_null_limit :
    let p : Provider := { vendor := .anthropic, connection := some .handedIn }
    ((Call.complete unlimited).run p {}).requests.map Request.arguments =
      [[("model", .str "claude"), ("messages", .list []), ("max_tokens", .null)]] := by
  rfl

end Provider

end Parley
