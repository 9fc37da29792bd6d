import Parley.Anthropic.Request
import Parley.Google.Request
import Parley.OpenAI.Request

/-!
# Requests of all vendors

The request that carries a payload to its vendor, and the vendor's form of the choice among tools,
under one name for all vendors.
-/

namespace Parley.Vendor

def request (vendor : Vendor) (streaming : Bool) (model : Value) (payload : Payload)
    (options : Fields) : Outcome Request :=
  match vendor with
  | .openAI _ => .ok (OpenAI.request streaming model payload options)
  | .anthropic => Anthropic.request streaming model payload options
  | .google _ => Google.request streaming model payload options

def toolChoice (vendor : Vendor) (choice : Value) : Value :=
  match vendor with
  | .openAI _ => OpenAI.toolChoice choice
  | .anthropic => Anthropic.toolChoice choice
  | .google _ => Google.toolChoice choice

end Parley.Vendor
