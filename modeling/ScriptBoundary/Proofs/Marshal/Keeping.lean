import ScriptBoundary.Marshal.Read
import ScriptBoundary.Proofs.Host.EntryPoints

/-!
What reading keeps. A read interns names, takes references and gives them back, and does nothing else to
a host; what these leave true, every read leaves true.
-/

namespace ScriptBoundary

variable {ρ α γ : Type}

namespace Host

/-- A property of hosts that interning, retaining and releasing leave true. -/
structure Durable (P : Host ρ → Prop) : Prop where
  intern : ∀ host text, P host → P ((intern text).run host).2
  retainAll : ∀ host hs, P host → P ((retainAll hs).run host).2
  releaseAll : ∀ host hs, P host → P ((releaseAll hs).run host).2

def Keeps (P : Host ρ → Prop) (op : HostM ρ α) : Prop := ∀ host, P host → P (op.run host).2

variable {P : Host ρ → Prop}

namespace Keeps

theorem pure (a : α) : Keeps P (Pure.pure a : HostM ρ α) := fun _ here => here

theorem bind {op : HostM ρ α} {next : α → HostM ρ γ} (first : Keeps P op)
    (second : ∀ a, Keeps P (next a)) : Keeps P (op >>= next) :=
  fun host here => second _ _ (first host here)

end Keeps

namespace Durable

variable (durable : Durable P)

include durable

theorem keeps_releaseAll (hs : List Handle) : Keeps P (Host.releaseAll hs : HostM ρ Unit) :=
  fun host here => durable.releaseAll host hs here

theorem keeps_retainAll (hs : List Handle) : Keeps P (Host.retainAll hs : HostM ρ Unit) :=
  fun host here => durable.retainAll host hs here

theorem keeps_getProperty (h : Handle) (id : HostId) :
    Keeps P (getProperty h id : HostM ρ (Option Raw)) :=
  fun host here => durable.retainAll host ((host.heap.lookup h id).elim [] Raw.handles) here

omit durable in
theorem keeps_propertyIds (h : Handle) : Keeps P (propertyIds h : HostM ρ (Option (List HostId))) := by
  intro host here
  rwa [run_propertyIds]

end Durable

end Host

namespace Marshal

open Host

variable {P : Host ρ → Prop} (durable : Durable P)

include durable

theorem keeps_readProperties {child : Raw → HostM ρ Value} (keeps : ∀ raw, Keeps P (child raw))
    (h : Handle) (done : List (HostId × Identifier × Value)) (ids : List HostId) :
    Keeps P (readProperties child h done ids) := by
  induction ids generalizing done with
  | nil => exact .pure _
  | cons id rest ih =>
    apply (durable.keeps_getProperty h id).bind
    intro value
    cases value with
    | none => exact ih done
    | some raw =>
      have asked : Keeps P (identifierOf id : HostM ρ Identifier) := fun _ here => here
      exact asked.bind fun key => (keeps raw).bind fun value =>
        (durable.keeps_releaseAll _).bind fun _ => ih _

theorem keeps_gather (table : Table Identifier Value) (entries : List (Identifier × Value)) :
    Keeps P (gather table entries : HostM ρ (Table Identifier Value)) := by
  induction entries generalizing table with
  | nil => exact .pure _
  | cons e earlier ih =>
    obtain ⟨key, value⟩ := e
    rw [gather]
    cases table.insertNew? key value with
    | some placed => exact ih placed
    | none => exact (durable.keeps_releaseAll _).bind fun _ => ih table

theorem keeps_shapeOf (h : Handle) (ids : List HostId) : Keeps P (shapeOf h ids : HostM ρ Shape) := by
  have interned : Keeps P (intern "length" : HostM ρ HostId) :=
    fun host here => durable.intern host "length" here
  have counts : Keeps P (hasIntegerLength h : HostM ρ Bool) := by
    refine interned.bind fun id => (durable.keeps_getProperty h id).bind fun value => ?_
    split
    · exact .pure _
    · exact (durable.keeps_releaseAll _).bind fun _ => .pure _
    · exact .pure _
  rw [shapeOf]
  split
  · exact .pure _
  · refine counts.bind fun is => ?_
    cases is <;> exact .pure _

theorem keeps_unexpanded (h : Handle) : Keeps P (unexpanded h : HostM ρ (Bag Value)) :=
  (durable.keeps_retainAll [h]).bind fun _ => .pure _

theorem keeps_readObject {child : Raw → HostM ρ Value} (keeps : ∀ raw, Keeps P (child raw))
    (path : List Handle) (h : Handle) : Keeps P (readObject child path h) := by
  rw [readObject]
  split
  · exact keeps_unexpanded durable h
  · apply (Durable.keeps_propertyIds (P := P) h).bind
    intro ids
    cases ids with
    | none => exact keeps_unexpanded durable h
    | some ids =>
      refine (keeps_readProperties durable keeps h [] ids).bind fun properties => ?_
      refine (keeps_shapeOf durable h _).bind fun shape => ?_
      refine (keeps_gather durable .empty _).bind fun table => ?_
      exact (durable.keeps_retainAll [h]).bind fun _ => .pure _

theorem keeps_readAt (room : Nat) (path : List Handle) (raw : Raw) :
    Keeps P (readAt room path raw : HostM ρ Value) := by
  induction room generalizing path raw with
  | zero => cases raw <;> exact .pure _
  | succ room ih =>
    cases raw with
    | scalar s => exact .pure _
    | object h => exact (keeps_readObject durable (ih (h :: path)) path h).bind fun _ => .pure _

theorem keeps_readLent (raw : Raw) : Keeps P (readLent raw : HostM ρ Value) :=
  (durable.keeps_retainAll _).bind fun _ =>
    (keeps_readAt durable depthLimit [] raw).bind fun _ => (durable.keeps_releaseAll _).bind fun _ => .pure _

theorem keeps_readAllLent (raws : List Raw) : Keeps P (readAllLent raws : HostM ρ (List Value)) := by
  induction raws with
  | nil => exact .pure _
  | cons raw rest ih => exact (keeps_readLent durable raw).bind fun _ => ih.bind fun _ => .pure _

end Marshal

end ScriptBoundary
