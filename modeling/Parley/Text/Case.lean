import Parley.Text.CaseTable
import Parley.Text.Printable

/-!
# Upper and lower case

Case conversion of texts by the full mappings: a character may become several (`ß` is `SS` in
upper case), and the capital sigma has two small forms, the final one where a word ends.
-/

namespace Parley.Text

/-- The place of a code point in a run, moved by the run's shift. -/
def CaseRun.shifted? (r : CaseRun) (n : Nat) : Option Nat :=
  if r.first ≤ n ∧ n ≤ r.last ∧ (n - r.first) % r.step = 0 then some (n + r.shift).toNat else none

/-- The mapping of a character by a table of expansions and runs. -/
def mapCase (expansions : List (Nat × List Nat)) (runs : List CaseRun) (c : Char) : List Char :=
  match expansions.lookup c.toNat with
  | some codes => codes.map Char.ofNat
  | none =>
    match runs.findSome? (·.shifted? c.toNat) with
    | some n => [Char.ofNat n]
    | none => [c]

def upper (cs : List Char) : List Char :=
  cs.flatMap (mapCase upperExpansions upperRuns)

/-- Whether the first character that is not ignorable has case. -/
def meetsCased (cs : List Char) : Bool :=
  match cs.dropWhile fun c => inRanges caseIgnorableRanges c.toNat with
  | [] => false
  | c :: _ => inRanges casedRanges c.toNat

/-- Lower case of what follows, given what stands before it, nearest character first. A capital
sigma is final when a cased character stands before it and none after it. -/
def lowerAfter (before : List Char) : List Char → List Char
  | [] => []
  | c :: rest =>
    (if c = 'Σ' then
      [if meetsCased before && !meetsCased rest then 'ς' else 'σ']
    else mapCase lowerExpansions lowerRuns c) ++ lowerAfter (c :: before) rest

def lower (cs : List Char) : List Char :=
  lowerAfter [] cs

end Parley.Text
