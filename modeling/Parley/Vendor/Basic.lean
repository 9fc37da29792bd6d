import Parley.Fault

/-!
# Vendors

The families of vendors a conversation can be carried to.
-/

namespace Parley

/-- A vendor family with what its instances differ in. -/
inductive Vendor where
  /-- A chat-completions service, under the name it goes by. -/
  | openAI (label : Value)
  /-- The messages service. -/
  | anthropic
  /-- The content-generation service, with the tag that marks ids made up for calls without one. -/
  | google (tag : String)

/-- The name that payloads and messages give the vendor. -/
def Vendor.label : Vendor → Value
  | .openAI label => label
  | .anthropic => .str "anthropic"
  | .google _ => .str "google"

/-- Whether a failure is a report of the vendor's own client library. Transport failures count for
the one library that lets them through. -/
def Vendor.owns (vendor : Vendor) (kind : FailureKind) : Bool :=
  match vendor, kind with
  | .openAI _, .openAI => true
  | .anthropic, .anthropic => true
  | .google _, .googleAPI => true
  | .google _, .transport => true
  | _, _ => false

end Parley
