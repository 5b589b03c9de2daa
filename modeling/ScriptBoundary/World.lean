import ScriptBoundary.Call.Bridge
import ScriptBoundary.Host.EntryPoints
import ScriptBoundary.Registry.Basic
import ScriptBoundary.Value.Text

/-!
The state of a host together with the engine sessions embedded in it, and the computations that run
on the host's thread. Such a computation may panic; what it owned is given back on the way out.
-/

namespace ScriptBoundary

/-- A call from the engine into the host, from its registration to its end. It owns its arguments. -/
structure OutboundCall where
  bridge : Nat
  number : Nat
  id : Identifier
  args : List Value

/-- What can happen elsewhere while a call is held at the gate. -/
inductive Interruption where
  | destroyBridge
  | dropGateway
deriving DecidableEq

structure World (ρ μ : Type) where
  host : Host ρ
  bridges : List Bridge
  /-- The bridge of the session, by its number. -/
  current : Nat
  gateway : Option (Registry μ)
  /-- A registry that stands on its own, without a gateway. -/
  object : Option (Registry μ)
  /-- Calls dispatched to the host thread, oldest first. -/
  queue : List OutboundCall
  /-- The host thread has died of a panic. -/
  hostGone : Bool
  /-- Function objects in the order in which their code was entered. -/
  entered : List Handle
  /-- Lines that host functions have printed. -/
  printed : List String
  /-- What is to happen once a call is held at the gate. -/
  gate : Option Interruption

/-- Why a computation was abandoned. -/
inductive Fault where
  | panic (text : String)
  /-- Calls were nested beyond the limit of the model. -/
  | tooDeep
deriving DecidableEq

abbrev WorldM (ρ μ : Type) := StateM (World ρ μ)

/-- Computations on the host thread. A fault keeps what was done before it. -/
abbrev Run (ρ μ : Type) := ExceptT Fault (WorldM ρ μ)

variable {ρ μ α : Type}

/-- What the code of host functions and engine methods does. -/
structure Behaviour (ρ μ : Type) where
  /-- A host function borrows its arguments and hands out one reference with its result. -/
  enter : ρ → List Raw → Run ρ μ (Option Raw)
  /-- A method is given the registry that it belongs to and the identifier that it was called by. -/
  answer : μ → Registry μ → Identifier → List Value → Run ρ μ CallResult
  /-- The references that the code of a method keeps. -/
  keeps : μ → List Handle

namespace World

def start (host : Host ρ) (marshalsExceptions : Bool) : World ρ μ where
  host := host
  bridges := [Bridge.start marshalsExceptions]
  current := 0
  gateway := none
  object := none
  queue := []
  hostGone := false
  entered := []
  printed := []
  gate := none

def bridge (w : World ρ μ) (number : Nat) : Bridge := w.bridges.getD number (Bridge.start false)

end World

namespace WorldM

def onHost (operation : HostM ρ α) : WorldM ρ μ α := fun w =>
  let (a, host) := operation.run w.host
  (a, { w with host := host })

def onBridge (number : Nat) (operation : Bridge → α × Bridge) : WorldM ρ μ α := fun w =>
  let (a, bridge) := operation (w.bridge number)
  (a, { w with bridges := w.bridges.set number bridge })

def retainAll (hs : List Handle) : WorldM ρ μ Unit := onHost (Host.retainAll hs)

def releaseAll (hs : List Handle) : WorldM ρ μ Unit := onHost (Host.releaseAll hs)

/-- The text of a value, which its owner keeps. -/
def display (value : Value) : WorldM ρ μ String := do
  retainAll value.copiedByDisplay
  releaseAll value.copiedByDisplay
  return value.display

end WorldM

namespace Run

/-- What cannot fail. -/
def always (operation : WorldM ρ μ α) : Run ρ μ α := ExceptT.lift operation

def onHost (operation : HostM ρ α) : Run ρ μ α := always (WorldM.onHost operation)

def retainAll (hs : List Handle) : Run ρ μ Unit := always (WorldM.retainAll hs)

def releaseAll (hs : List Handle) : Run ρ μ Unit := always (WorldM.releaseAll hs)

/-- Does something last, whether the computation ends well or not. -/
def ensuring (body : Run ρ μ α) (last : WorldM ρ μ Unit) : Run ρ μ α :=
  ExceptT.mk do
    let outcome ← body.run
    last
    return outcome

/-- Owns references while the computation runs. -/
def holding (hs : List Handle) (body : Run ρ μ α) : Run ρ μ α :=
  body.ensuring (WorldM.releaseAll hs)

/-- Owns references that a fault gives back and a good end hands on. -/
def guarding (hs : List Handle) (body : Run ρ μ α) : Run ρ μ α :=
  ExceptT.mk do
    match ← body.run with
    | .ok a => return .ok a
    | .error fault =>
      WorldM.releaseAll hs
      return .error fault

end Run

end ScriptBoundary
