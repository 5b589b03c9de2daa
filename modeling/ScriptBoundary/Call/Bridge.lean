import ScriptBoundary.Call.Latch
import ScriptBoundary.Table

/-!
The bookkeeping of outbound calls. A call is registered with a latch of its own, and its caller
collects the result; until then the call is pending. Shutdown cancels what is pending and refuses
what comes later.
-/

namespace ScriptBoundary

structure Bridge where
  /-- The latch of every call registered so far. -/
  latches : Table Nat Latch
  /-- Calls that are neither collected nor cancelled, oldest first. -/
  pending : List Nat
  /-- The number of the next call. -/
  nextCall : Nat
  shutDown : Bool
  /-- Failed calls are raised in the host as script exceptions. -/
  marshalsExceptions : Bool

namespace Bridge

def start (marshalsExceptions : Bool) : Bridge := ⟨.empty, [], 1, false, marshalsExceptions⟩

def latch (b : Bridge) (call : Nat) : Latch := (b.latches.find? call).getD .taken

def setLatch (call : Nat) (latch : Latch) (b : Bridge) : Bridge :=
  { b with latches := b.latches.insert call latch }

/-- Registers a call and answers its number, unless shutdown has begun. -/
def register (b : Bridge) : Option Nat × Bridge :=
  if b.shutDown then (none, b)
  else
    (some b.nextCall, { b with
      latches := b.latches.insert b.nextCall .pending
      pending := b.pending ++ [b.nextCall]
      nextCall := b.nextCall + 1 })

def isCancelled (b : Bridge) (call : Nat) : Bool := (b.latch call).isCancelled

/-- Publishes the result of a call; says whether the call still waited for one. -/
def deliver (call : Nat) (result : Option Value) (b : Bridge) : Bool × Bridge :=
  let (accepted, latch) := (b.latch call).complete result
  (accepted, b.setLatch call latch)

/-- The caller takes the result, and the call is pending no longer. -/
def collect (call : Nat) (b : Bridge) : Option Value × Bridge :=
  let (result, latch) := (b.latch call).take
  (result, { b.setLatch call latch with pending := b.pending.erase call })

def cancelAll (calls : List Nat) (b : Bridge) : Bridge :=
  calls.foldl (fun b call => b.setLatch call (b.latch call).cancel.2) b

/-- Begins shutdown. Only the first time has an effect. -/
def destroy (b : Bridge) : Bridge :=
  if b.shutDown then b else { b.cancelAll b.pending with pending := [], shutDown := true }

end Bridge

end ScriptBoundary
