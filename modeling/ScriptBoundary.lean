import ScriptBoundary.Main
import ScriptBoundary.Session.LatchStep
import ScriptBoundary.Session.Script
import ScriptBoundary.Proofs.Heap.Accounting
import ScriptBoundary.Proofs.Heap.Ownership
import ScriptBoundary.Proofs.Heap.Contents
import ScriptBoundary.Proofs.Marshal.Reading
import ScriptBoundary.Proofs.Host.Ownership
import ScriptBoundary.Proofs.Host.Upkeep
import ScriptBoundary.Proofs.Marshal.Holding
import ScriptBoundary.Proofs.Marshal.Building
import ScriptBoundary.Proofs.Marshal.RoundTrip
import ScriptBoundary.Proofs.Call.Bridge
import ScriptBoundary.Proofs.Call.Traffic
import ScriptBoundary.Proofs.Call.Moves
import ScriptBoundary.Proofs.Call.Agreement
import ScriptBoundary.Proofs.Call.Conduct
import ScriptBoundary.Proofs.Call.Steps
import ScriptBoundary.Proofs.Call.Progress
import ScriptBoundary.Proofs.Host.Identity
import ScriptBoundary.Proofs.Heap.Lending
import ScriptBoundary.Proofs.Marshal.View
import ScriptBoundary.Proofs.Marshal.Trails
import ScriptBoundary.Proofs.Marshal.Growth
import ScriptBoundary.Proofs.Marshal.Handing
import ScriptBoundary.Proofs.Marshal.Neutrality
import ScriptBoundary.Proofs.World.Account
import ScriptBoundary.Proofs.World.Fair
import ScriptBoundary.Proofs.World.Honest
import ScriptBoundary.Proofs.Call.Chain
import ScriptBoundary.Proofs.Call.Settling
import ScriptBoundary.Proofs.Call.Life
import ScriptBoundary.Proofs.Gateway.Account
import ScriptBoundary.Proofs.Gateway.Store
import ScriptBoundary.Proofs.Call.Leaving
import ScriptBoundary.Proofs.Call.Order
import ScriptBoundary.Proofs.Console.Properties
import ScriptBoundary.Proofs.Marshal.Backing
import ScriptBoundary.Proofs.Heap.Release
import ScriptBoundary.Proofs.Host.Interning
import ScriptBoundary.Proofs.World.Lasting
import ScriptBoundary.Proofs.Call.Entering
import ScriptBoundary.Proofs.Call.Routing
import ScriptBoundary.Proofs.Text.Numeral
import ScriptBoundary.Proofs.Text.Blank
import ScriptBoundary.Proofs.Console.Literal
import ScriptBoundary.Proofs.Console.Written
import ScriptBoundary.Proofs.Console.Binding
import ScriptBoundary.Proofs.Host.Expressions
import ScriptBoundary.Proofs.Identifier
import ScriptBoundary.Proofs.Bag.Contents
import ScriptBoundary.Proofs.Bag.Elements
import ScriptBoundary.Proofs.Marshal.BackReference
import ScriptBoundary.Proofs.Host.Properties
import ScriptBoundary.Proofs.Call.Latch
import ScriptBoundary.Proofs.Host.Refusal
import ScriptBoundary.Proofs.Registry.Refinement
