import Parley.Settings.EnvFile

/-!
# References between variables

A value of an environment file may refer to other variables: the name of one, in braces after a
dollar sign, stands for its value, and after `:-` a fallback may follow for a variable that is not
there. A variable of the environment is referred to in preference to one of the file, and of the
file only the lines before count. A dollar sign that starts no complete reference is itself.
-/

namespace Parley.EnvFile

structure Reference where
  name : String
  fallback : String := ""

/-- The text that a reference stands for, given the values of the variables that are there. -/
def Reference.text (r : Reference) (value? : String → Option String) : String :=
  (value? r.name).getD r.fallback

/-- Whether a character may stand in the name of a reference. -/
def inReferenceName (c : Char) : Bool :=
  c != '}' && c != ':'

/-- Whether a character may stand in the fallback of a reference. -/
def inFallback (c : Char) : Bool :=
  c != '}'

/-- The reference whose opening brace stands before this text, and the text after its closing
brace. -/
def readReference (cs : List Char) : Option (Reference × List Char) :=
  let name := String.ofList (cs.takeWhile inReferenceName)
  match cs.dropWhile inReferenceName with
  | '}' :: rest => some (⟨name, ""⟩, rest)
  | ':' :: '-' :: rest =>
    match rest.dropWhile inFallback with
    | _ :: after => some (⟨name, String.ofList (rest.takeWhile inFallback)⟩, after)
    | [] => none
  | _ => none

/-- A reference is read from some of the text. -/
theorem length_of_readReference {cs after : List Char} {r : Reference}
    (h : readReference cs = some (r, after)) : after.length < cs.length := by
  have hname := (List.dropWhile_sublist (l := cs) inReferenceName).length_le
  unfold readReference at h
  dsimp only at h
  split at h
  · rename_i rest hrest
    rw [hrest] at hname
    simp only [Option.some.injEq, Prod.mk.injEq] at h
    rw [← h.2]
    exact hname
  · rename_i rest hrest
    rw [hrest] at hname
    have hfallback := (List.dropWhile_sublist (l := rest) inFallback).length_le
    split at h
    · rename_i c after' hafter
      rw [hafter] at hfallback
      simp only [Option.some.injEq, Prod.mk.injEq] at h
      rw [← h.2]
      simp only [List.length_cons] at hname hfallback
      omega
    · cases h
  · cases h

/-- The text with every reference replaced by what it stands for. -/
def expand (value? : String → Option String) : List Char → List Char
  | [] => []
  | '$' :: '{' :: rest =>
    match _h : readReference rest with
    | some (r, after) => (r.text value?).toList ++ expand value? after
    | none => '$' :: expand value? ('{' :: rest)
  | c :: rest => c :: expand value? rest
termination_by cs => cs.length
decreasing_by
  · have := length_of_readReference ‹_›
    simp only [List.length_cons]
    omega
  all_goals simp

/-- The value that a reference finds: that of the environment, or else that of the lines before, in
which a variable without a value is empty. -/
def referred (outer : String → Option String) (before : List Entry) (name : String) :
    Option String :=
  match outer name with
  | some text => some text
  | none => (before.lookup name).map fun value => value.getD ""

/-- The entries with their references replaced, the last line first, in front of those before. -/
def resolveAfter (outer : String → Option String) (before : List Entry) :
    List Entry → List Entry
  | [] => before
  | (name, value) :: rest =>
    let text := value.map fun v => String.ofList (expand (referred outer before) v.toList)
    resolveAfter outer ((name, text) :: before) rest

/-- The entries of a file with their references replaced, the last line first. -/
def resolved (outer : String → Option String) (text : String) : List Entry :=
  resolveAfter outer [] (entries text)

end Parley.EnvFile
