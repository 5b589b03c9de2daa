import ScriptBoundary.Proofs.Marshal.Holding

/-!
How values stand in a heap as host values. A backed bag stands there as the object behind it, wherever
it is nested; any other bag that the host can make stands there as a new object, newer than the one it
is in, with what the host took of its properties.
-/

namespace ScriptBoundary

variable {ρ : Type}

namespace Marshal

/-- The properties that a host lets a new object take: all of them, or none. -/
def taken (accepts : Bool) (entries : List (Identifier × Value)) : List (Identifier × Value) :=
  if accepts then entries else []

theorem taken_cons (accepts : Bool) (e : Identifier × Value) (rest : List (Identifier × Value)) :
    taken accepts (e :: rest) = taken accepts [e] ++ taken accepts rest := by
  cases accepts <;> rfl

/-- Values stand in a heap as host values, in objects numbered after `n` that were made for them. -/
inductive Stands (builds : Shape → Bool) (accepts : Bool) (heap : Heap ρ) :
    Nat → List Raw → List Value → Prop where
  | nil (n : Nat) : Stands builds accepts heap n [] []
  | scalar {n : Nat} {raws : List Raw} {vs : List Value} (s : Scalar)
      (rest : Stands builds accepts heap n raws vs) :
      Stands builds accepts heap n (.scalar s :: raws) (.scalar s :: vs)
  | backed {n : Nat} {raws : List Raw} {vs : List Value} {b : Bag Value} {h : Handle}
      (backing : b.backing = some h) (rest : Stands builds accepts heap n raws vs) :
      Stands builds accepts heap n (.object h :: raws) (.object b :: vs)
  /-- A bag that the host cannot make an object for. -/
  | hidden {n : Nat} {raws : List Raw} {vs : List Value} {b : Bag Value}
      (backing : b.backing = none) (made : builds b.shape = false)
      (rest : Stands builds accepts heap n raws vs) :
      Stands builds accepts heap n (.null :: raws) (.object b :: vs)
  | array {n : Nat} {x : Handle} {raws elements : List Raw} {vs : List Value} {b : Bag Value}
      (backing : b.backing = none) (made : builds b.shape = true) (shape : b.shape = .array)
      (new : n < x.number) (body : heap.body? x = some (.array elements.toArray, .empty))
      (inside : Stands builds accepts heap x.number elements (b.elements .void))
      (rest : Stands builds accepts heap n raws vs) :
      Stands builds accepts heap n (.object x :: raws) (.object b :: vs)
  | plain {n : Nat} {x : Handle} {raws : List Raw} {vs : List Value} {b : Bag Value}
      {props : Table HostId Raw} {fields : List (HostId × Raw)}
      (backing : b.backing = none) (made : builds b.shape = true) (shape : b.shape = .plain)
      (new : n < x.number) (body : heap.body? x = some (.plain, props))
      (listed : props.entries.Perm fields)
      (keys : List.Forall₂ (fun f e => heap.names.Denotes f.1 e.1) fields (taken accepts b.props.entries))
      (inside : Stands builds accepts heap x.number (fields.map (·.2)) ((taken accepts b.props.entries).map (·.2)))
      (rest : Stands builds accepts heap n raws vs) :
      Stands builds accepts heap n (.object x :: raws) (.object b :: vs)

namespace Stands

variable {builds : Shape → Bool} {accepts : Bool} {heap heap' : Heap ρ} {n k : Nat}
  {raws raws' : List Raw} {vs vs' : List Value}

/-- Only the objects that were made for the values matter. -/
theorem mono (stands : Stands builds accepts heap n raws vs) (names : heap'.names.Extends heap.names)
    (bodies : ∀ h body, n < h.number → heap.body? h = some body → heap'.body? h = some body) :
    Stands builds accepts heap' n raws vs := by
  induction stands with
  | nil n => exact .nil n
  | scalar s _ ih => exact .scalar s (ih bodies)
  | backed backing _ ih => exact .backed backing (ih bodies)
  | hidden backing made _ ih => exact .hidden backing made (ih bodies)
  | array backing made shape new body _ _ insideStands restStands =>
    have later {h body} (after : _) := bodies h body (Nat.lt_trans new after)
    exact .array backing made shape new (bodies _ _ new body) (insideStands fun _ _ => later)
      (restStands bodies)
  | plain backing made shape new body listed keys _ _ insideStands restStands =>
    have later {h body} (after : _) := bodies h body (Nat.lt_trans new after)
    exact .plain backing made shape new (bodies _ _ new body) listed (keys.imp fun _ _ => names.denotes)
      (insideStands fun _ _ => later) (restStands bodies)

theorem earlier (stands : Stands builds accepts heap n raws vs) (before : k ≤ n) :
    Stands builds accepts heap k raws vs := by
  induction stands generalizing k with
  | nil => exact .nil k
  | scalar s _ ih => exact .scalar s (ih before)
  | backed backing _ ih => exact .backed backing (ih before)
  | hidden backing made _ ih => exact .hidden backing made (ih before)
  | array backing made shape new body inside _ _ ih =>
    exact .array backing made shape (Nat.lt_of_le_of_lt before new) body inside (ih before)
  | plain backing made shape new body listed keys inside _ _ ih =>
    exact .plain backing made shape (Nat.lt_of_le_of_lt before new) body listed keys inside (ih before)

theorem append (first : Stands builds accepts heap n raws vs)
    (second : Stands builds accepts heap n raws' vs') :
    Stands builds accepts heap n (raws ++ raws') (vs ++ vs') := by
  induction first with
  | nil => exact second
  | scalar s _ ih => exact .scalar s (ih second)
  | backed backing _ ih => exact .backed backing (ih second)
  | hidden backing made _ ih => exact .hidden backing made (ih second)
  | array backing made shape new body inside _ _ ih =>
    exact .array backing made shape new body inside (ih second)
  | plain backing made shape new body listed keys inside _ _ ih =>
    exact .plain backing made shape new body listed keys inside (ih second)

theorem alike (stands : Stands builds accepts heap n raws vs) (alike : heap.Alike heap') :
    Stands builds accepts heap' n raws vs :=
  stands.mono alike.names fun h _ _ body => (alike.objects h).trans body

/-- Objects that are made later do not disturb it. -/
theorem extended {gone : Handle → Prop} {owned : List Handle}
    (stands : Stands builds accepts heap n raws vs) (sound : heap.Sound gone owned)
    (more : heap'.Extends heap.lastHandle heap) : Stands builds accepts heap' n raws vs := by
  refine stands.mono more.names fun h body _ there => (more.body h ?_).trans there
  obtain ⟨refs, found⟩ := Heap.find?_of_body? there
  exact (sound.issued found).2

/-- Neither does a change to an object that is not newer than `n`. -/
theorem changed {body : Form ρ × Table HostId Raw} (stands : Stands builds accepts heap n raws vs)
    {x : Handle} (old : x.number ≤ n)
    (bodies : ∀ h, heap'.body? h = if h = x then some body else heap.body? h)
    (names : heap'.names = heap.names) : Stands builds accepts heap' n raws vs := by
  refine stands.mono (names ▸ .refl _) fun h _ new there => ?_
  have other : h ≠ x := fun here => Nat.not_le_of_lt new (here ▸ old)
  rw [bodies, if_neg other, there]

/-- Where the host can make objects, what stands for a bag that is not backed is a new one. -/
theorem new {raw : Raw} {b : Bag Value} (stands : Stands builds accepts heap n [raw] [.object b])
    (unbacked : b.backing = none) (built : builds b.shape = true) :
    ∃ x, raw = .object x ∧ n < x.number := by
  cases stands with
  | backed backing => cases unbacked.symm.trans backing
  | hidden _ made => cases built.symm.trans made
  | array _ _ _ new => exact ⟨_, rfl, new⟩
  | plain _ _ _ new => exact ⟨_, rfl, new⟩

end Stands

end Marshal

end ScriptBoundary
