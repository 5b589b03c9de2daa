import ScriptBoundary.Proofs.Marshal.Reading

/-!
Where the bags in a value come from that was read. Each of them, wherever it is nested, is backed, and is
what reading the object behind it answered.
-/

namespace ScriptBoundary

variable {ρ : Type}

/-- A bag in a value, inside the backed bags of a path, the innermost first. -/
inductive Value.Has (b : Bag Value) : List Handle → Value → Prop where
  | self : Has b [] (.object b)
  | inside {outer : Bag Value} {e : Identifier × Value} {path : List Handle}
      (there : e ∈ outer.props.entries) (has : Has b path e.2) :
      Has b (path ++ outer.backing.toList) (.object outer)

namespace Marshal

/-- What reading an object below the containers of `path` answers, with room for `room` more inside it,
on a host that differs from `base` only in its counts and in the names that it knows besides. -/
def AsRead (base : Host ρ) (room : Nat) (path : List Handle) (h : Handle) (b : Bag Value) : Prop :=
  ∃ host, base.Alike host ∧ ((readObject (readAt room (h :: path)) path h).run host).1 = b

/-- Every bag in a value that is read below the containers of `around` is backed, and is what reading its
object answers at the place where it stands. -/
def Original (base : Host ρ) (room : Nat) (around : List Handle) (v : Value) : Prop :=
  ∀ b path, v.Has b path →
    ∃ h, b.backing = some h ∧ AsRead base (room - 1 - path.length) (path ++ around) h b

variable {base : Host ρ} {room : Nat} {around : List Handle}

theorem original_scalar (s : Scalar) : Original base room around (.scalar s) := by
  intro b path has
  cases has

theorem original_readObject (ordered : base.heap.Ordered) {h : Handle}
    (children : ∀ raw, Reads base raw.handles (readAt room (h :: around) raw)
      (fun v => v.handles ++ raw.handles)
      fun v => ValueRead base room (h :: around) raw v ∧ Original base room (h :: around) v) :
    Reads base [h] (readObject (readAt room (h :: around)) around h) (fun b => b.handles ++ [h]) fun b =>
      ObjectRead base (ValueRead base room (h :: around)) around h b ∧
        Original base (room + 1) around (.object b) := by
  intro gone host owned alike sound
  obtain ⟨alike', sound', read⟩ := reads_readObject ordered
    (fun raw _ => reads_readAt ordered room (h :: around) raw) (contained_valueRead room (h :: around))
    around h gone host owned alike sound
  refine ⟨alike', sound', read, fun b path has => ?_⟩
  obtain ⟨_, _, kept⟩ := reads_readObject ordered (fun raw _ => children raw)
    (fun raw v holds => contained_valueRead room (h :: around) raw v holds.1) around h gone host owned
    alike sound
  cases has with
  | self => exact ⟨h, read.backing, host, alike, rfl⟩
  | @inside _ e path there has =>
    have found := kept.forall_mem (fun _ _ holds => holds.2) e there b path has
    rw [read.backing, Option.toList_some, List.append_assoc, List.singleton_append, List.length_append,
      List.length_singleton]
    rwa [show room + 1 - 1 - (path.length + 1) = room - 1 - path.length by omega]

theorem original_readAt (ordered : base.heap.Ordered) (room : Nat) (around : List Handle) (raw : Raw) :
    Reads base raw.handles (readAt room around raw) (fun v => v.handles ++ raw.handles)
      fun v => ValueRead base room around raw v ∧ Original base room around v := by
  induction room generalizing around raw with
  | zero => cases raw <;> exact .pure (.refl _) ⟨rfl, original_scalar _⟩
  | succ room ih =>
    cases raw with
    | scalar s => exact .pure (.refl _) ⟨rfl, original_scalar s⟩
    | object h =>
      refine (original_readObject ordered (ih (h :: around))).bind fun b read => ?_
      exact .pure (.refl _) ⟨⟨b, rfl, read.1⟩, read.2⟩

theorem original_read (ordered : base.heap.Ordered) (raw : Raw) :
    Reads base raw.handles (read raw) (fun v => v.handles ++ raw.handles)
      (Original base depthLimit []) :=
  (original_readAt ordered depthLimit [] raw).perm (.refl _) (fun _ _ => .refl _) fun _ holds => holds.2

theorem original_readBag (ordered : base.heap.Ordered) (h : Handle) :
    Reads base [h] (readBag h) (fun b => b.handles ++ [h]) fun b =>
      Original base depthLimit [] (.object b) :=
  (original_readObject ordered (original_readAt ordered _ [h])).perm (.refl _) (fun _ _ => .refl _)
    fun _ holds => holds.2

theorem original_readLent {gone : Handle → Prop} {owned : List Handle} {raw : Raw}
    (sound : base.heap.Sound gone owned)
    (live : ∀ h ∈ raw.handles, gone h ∨ ∃ e, base.heap.objects.find? h = some e) :
    Original base depthLimit [] ((readLent raw).run base).1 := by
  have alike := (Host.Alike.refl base).withHeap (Heap.alike_retainAll base.heap raw.handles)
  exact (original_read sound.ordered raw gone _ owned alike (sound.retainAll live)).2.2

end Marshal

end ScriptBoundary
