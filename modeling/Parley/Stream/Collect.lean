import Parley.Stream.Accumulator

/-!
# Draining a stream

Reading a stream up to the chunk that completes it, and assembling what was read. A source is a list
of chunks, after which it ends or fails.
-/

namespace Parley.Stream

/-- A stream of chunks as its reader meets it. -/
structure Source where
  chunks : List Value
  failure : Option VendorFailure := none

/-- What draining a stream gives: the accumulator at the end, the count of chunks read, and the
fault that ended the reading early. -/
structure Drained where
  accumulator : Accumulator
  consumed : Nat
  fault : Option Fault

def drainFrom (a : Accumulator) (consumed : Nat) (failure : Option VendorFailure) :
    List Value → Drained
  | [] => ⟨a, consumed, failure.map .foreign⟩
  | chunk :: rest =>
    match feed chunk a with
    | (a, .error fault) => ⟨a, consumed + 1, some fault⟩
    | (a, .ok ()) =>
      if a.isComplete then ⟨a, consumed + 1, none⟩ else drainFrom a (consumed + 1) failure rest

def drain (source : Source) : Drained :=
  drainFrom .empty 0 source.failure source.chunks

def Drained.result (d : Drained) : Outcome Message :=
  match d.fault with
  | some fault => .error fault
  | none => d.accumulator.result

def collect (source : Source) : Outcome Message :=
  (drain source).result

end Parley.Stream
