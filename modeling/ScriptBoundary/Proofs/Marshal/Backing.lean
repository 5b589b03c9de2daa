import Mathlib.Logic.Relation
import ScriptBoundary.Proofs.Bag.Edits
import ScriptBoundary.Proofs.Marshal.Neutrality
import ScriptBoundary.Proofs.Marshal.Origin

/-!
What the backing of a bag says. Every bag that there is began empty or as what a read answered, and was
edited since; it is backed as long as no edit of what was read took effect. A backed bag is handed over
as the object behind it, any other as a new object.
-/

namespace ScriptBoundary

open Relation (ReflTransGen)

variable {ρ μ : Type}

/-! ## Where bags come from -/

namespace Ledger

open Marshal

variable {s t : Ledger ρ}

/-- A value is read and kept. -/
inductive Read (s : Ledger ρ) : Value → Ledger ρ → Prop where
  | native (raw : Raw) (owns : raw ∈ s.natives) : Read s ((read raw).run s.host).1
      { s with host := ((read raw).run s.host).2, values := ((read raw).run s.host).1 :: s.values }
  | bag (h : Handle) (owns : Raw.object h ∈ s.natives) : Read s (.object ((readBag h).run s.host).1)
      { s with
        host := ((readBag h).run s.host).2, values := .object ((readBag h).run s.host).1 :: s.values }
  | lent (raw : Raw) (known : s.Known raw.handles) : Read s ((readLent raw).run s.host).1
      { s with
        host := ((readLent raw).run s.host).2, values := ((readLent raw).run s.host).1 :: s.values }

/-- What a value of the next state comes from. -/
inductive Comes (s t : Ledger ρ) : Value → Prop where
  | kept {v : Value} (owns : v ∈ s.values) : Comes s t v
  | read {v : Value} (read : Read s v t) : Comes s t v
  | scalar (c : Scalar) : Comes s t (.scalar c)
  | new (shape : Shape) : Comes s t (.object (.ofShape shape))
  | edited {b : Bag Value} (edit : Edit) (owns : .object b ∈ s.values)
      (stored : ∀ v ∈ edit.stores, v ∈ s.values) : Comes s t (.object (edit.apply b))
  | property {b : Bag Value} {id : Identifier} {v : Value} (owns : .object b ∈ s.values)
      (found : b.find? id = some v) : Comes s t v

variable {β : Behaviour ρ μ} {allowed : Names → HostId → Prop} {element : Option (String × String)}

theorem Read.step {v : Value} (read : Read s v t) : Step β allowed s t := by
  cases read with
  | native raw owns => exact .readNative raw owns
  | bag h owns => exact .readBag h owns
  | lent raw known => exact .readLent raw known

/-- Every bag in a value that was read is what reading its object answered. -/
theorem Read.original {gone : Handle → Prop} {v : Value} (balanced : s.Balanced gone)
    (settled : s.Settled gone) (read : Read s v t) : Original s.host depthLimit [] v := by
  cases read with
  | native raw owns =>
    obtain ⟨others, held⟩ := exists_perm_handles fun x => mem_owned_of_native owns (x := x)
    exact (original_read balanced.heap.ordered raw _ _ _ (.refl _) (balanced.heap.perm held)).2.2
  | bag h owns =>
    obtain ⟨others, held⟩ := exists_perm_handles fun x => mem_owned_of_native owns (x := x)
    exact (original_readBag balanced.heap.ordered h _ _ _ (.refl _) (balanced.heap.perm held)).2.2
  | lent raw known => exact original_readLent balanced.heap fun h inside => settled h (known h inside)

/-- Whatever is done, the values there are were there before, are new and empty, or come from a read, an
edit or a property. -/
theorem comes_of_step (step : Step β allowed s t) {v : Value} (owns : v ∈ t.values) : Comes s t v := by
  -- What was added or changed comes first among the values, the others stayed.
  have added {w : Value} {values : List Value} (first : Comes s t w)
      (others : ∀ u ∈ values, u ∈ s.values) (inside : v ∈ w :: values) : Comes s t v := by
    rcases List.mem_cons.1 inside with rfl | there
    · exact first
    · exact .kept (others v there)
  have taken (ws : List Value) {rest : List Value} (all : s.values.Perm (ws ++ rest)) :
      (∀ u ∈ ws, u ∈ s.values) ∧ ∀ u ∈ rest, u ∈ s.values :=
    ⟨fun _ inside => all.mem_iff.2 (List.mem_append_left _ inside),
      fun _ inside => all.mem_iff.2 (List.mem_append_right _ inside)⟩
  cases step with
  | readNative raw mine => exact added (.read (.native raw mine)) (fun _ => id) owns
  | readBag h mine => exact added (.read (.bag h mine)) (fun _ => id) owns
  | readLent raw known => exact added (.read (.lent raw known)) (fun _ => id) owns
  | newScalar c => exact added (.scalar c) (fun _ => id) owns
  | newBag shape => exact added (.new shape) (fun _ => id) owns
  | cloneValue value mine => exact added (.kept mine) (fun _ => id) owns
  | copyProperty bag key value mine found => exact added (.property mine found) (fun _ => id) owns
  | dropValue value rest all => exact .kept ((taken [value] all).2 v owns)
  | set bag key value rest all =>
    obtain ⟨gone, stay⟩ := taken [.object bag, value] all
    have stored := List.forall_mem_singleton.2 (gone value (by simp))
    exact added (.edited (.set key value) (gone _ (by simp)) stored) stay owns
  | push bag value rest all =>
    obtain ⟨gone, stay⟩ := taken [.object bag, value] all
    have stored := List.forall_mem_singleton.2 (gone value (by simp))
    exact added (.edited (.push value) (gone _ (by simp)) stored) stay owns
  | remove bag key rest all =>
    obtain ⟨gone, stay⟩ := taken [.object bag] all
    exact added (.edited (.remove key) (gone _ (by simp)) (List.forall_mem_nil _)) stay owns
  | _ => exact .kept owns

variable (β allowed element) in
/-- An earlier read made the bag for an object: it stands in the answer of the read, where it is what
reading the object answered. -/
def ReadAs (s : Ledger ρ) (h : Handle) (b : Bag Value) : Prop :=
  ∃ s₀ v t path, Reachable β allowed element s₀ ∧ Read s₀ v t ∧ ReflTransGen (Step β allowed) t s ∧
    v.Has b path ∧ b.backing = some h ∧ AsRead s₀.host (depthLimit - 1 - path.length) path h b

variable (β allowed element) in
/-- The bag is what something else became by edits: an empty bag, or one that a read made. -/
def Descends (s : Ledger ρ) (b : Bag Value) : Prop :=
  ∃ origin edits, b = Bag.edited origin edits ∧
    ((∃ shape, origin = .ofShape shape) ∨ ∃ h, s.ReadAs β allowed element h origin)

theorem Descends.step {b : Bag Value} (descends : s.Descends β allowed element b)
    (step : Step β allowed s t) : t.Descends β allowed element b := by
  obtain ⟨origin, edits, is, new | ⟨h, s₀, v, t₀, path, reached, read, since, there⟩⟩ := descends
  · exact ⟨origin, edits, is, .inl new⟩
  · exact ⟨origin, edits, is, .inr ⟨h, s₀, v, t₀, path, reached, read, since.tail step, there⟩⟩

theorem Descends.apply {b : Bag Value} (descends : s.Descends β allowed element b) (edit : Edit) :
    s.Descends β allowed element (edit.apply b) := by
  obtain ⟨origin, edits, rfl, from_⟩ := descends
  exact ⟨origin, edits ++ [edit], (Bag.edited_append origin edits edit).symm, from_⟩

/-- Every bag there is descends from an empty one or from one that a read made. -/
theorem descends_of_reachable (reached : Reachable β allowed element s) {v : Value} (owns : v ∈ s.values)
    {b : Bag Value} {path : List Handle} (has : v.Has b path) : s.Descends β allowed element b := by
  induction reached generalizing v b path with
  | start => cases owns
  | @next s t reached step ih =>
    suffices before : s.Descends β allowed element b ∨ ∃ h, t.ReadAs β allowed element h b by
      rcases before with before | read
      · exact before.step step
      · exact ⟨b, [], rfl, .inr read⟩
    cases comes_of_step step owns with
    | kept was => exact .inl (ih was has)
    | read read =>
      obtain ⟨h, backed, as⟩ := read.original (balanced_of_reachable reached) (settled_freed s) b path has
      rw [List.append_nil] at as
      exact .inr ⟨h, s, v, t, path, reached, read, .refl, has, backed, as⟩
    | scalar c => cases has
    | new shape =>
      cases has with
      | self => exact .inl ⟨.ofShape shape, [], rfl, .inl ⟨shape, rfl⟩⟩
      | inside there => cases there
    | edited edit was stored =>
      cases has with
      | self => exact .inl ((ih was .self).apply edit)
      | inside there has =>
        rcases Edit.mem_apply there with before | new
        · exact .inl (ih was (.inside before has))
        · exact .inl (ih (stored _ new) has)
    | property was found => exact .inl (ih was (.inside (Table.mem_of_find? found) has))

/-- What is backed was not changed since it was read. -/
theorem Descends.readAs {b : Bag Value} (descends : s.Descends β allowed element b) {h : Handle}
    (backed : b.backing = some h) : s.ReadAs β allowed element h b := by
  obtain ⟨origin, edits, rfl, from_⟩ := descends
  rw [Bag.backing_edited] at backed
  split at backed
  next idle =>
    rw [Bag.edited_of_idle idle]
    obtain ⟨shape, rfl⟩ | ⟨k, read⟩ := from_
    · cases backed
    · obtain ⟨s₀, v, t, path, reached, step, since, has, backing, as⟩ := read
      cases backing.symm.trans backed
      exact ⟨s₀, v, t, path, reached, step, since, has, backing, as⟩
  next => cases backed

end Ledger

/-! ## What is handed over -/

namespace Marshal

variable {β : Behaviour ρ μ} {element : Option (String × String)} {s : Ledger ρ} {w : World ρ μ}
  {b : Bag Value}

/-- How a bag is handed over: a backed one as the object behind it, which gets one reference and is else
left alone with everything there is; any other one as a new object, in which its contents stand. -/
structure HandedOver (β : Behaviour ρ μ) (w : World ρ μ) (b : Bag Value) : Prop where
  backed : ∀ h, b.backing = some h → ∃ w', (write β (.object b)).outcome w = (.ok (.object h), w') ∧
    w' = w.withHeap w'.host.heap ∧ w.host.heap.Lends [h] w'.host.heap
  unbacked : b.backing = none → (∀ shape, makes w.host shape = true) →
    ∃ x w', (write β (.object b)).outcome w = (.ok (.object x), w') ∧ w.host.heap.lastHandle < x.number ∧
      Stands (makes w.host) (!w.host.failures.refusesWrites) w'.host.heap w.host.heap.lastHandle
        [.object x] [.object b]

/-- The object that was there is handed over for the bag that is backed by it, and for no other. -/
theorem HandedOver.eq_iff (handed : HandedOver β w b) (makes_ : ∀ shape, makes w.host shape = true)
    {x : Handle} {w' : World ρ μ} (ran : (write β (.object b)).outcome w = (.ok (.object x), w'))
    {h : Handle} (old : h.number ≤ w.host.heap.lastHandle) : x = h ↔ b.backing = some h := by
  cases backing : b.backing with
  | some k =>
    obtain ⟨_, ran', _⟩ := handed.backed k backing
    cases ran.symm.trans ran'
    exact ⟨congrArg some, Option.some.inj⟩
  | none =>
    obtain ⟨_, _, ran', new, _⟩ := handed.unbacked backing makes_
    cases ran.symm.trans ran'
    refine ⟨?_, nofun⟩
    rintro rfl
    exact absurd old (Nat.not_le_of_lt new)

theorem handedOver_of_reachable (reached : Ledger.Reachable β Names.Knows element s)
    {failures : Failures} (here : w.host = s.host.failing failures) (owns : .object b ∈ s.values) :
    HandedOver β w b where
  backed h backing :=
    ⟨_, write_backed backing, rfl, (Heap.Lends.refl w.host.heap).retainAll [h]⟩
  unbacked backing makes_ := by
    have heap : w.host.heap = s.host.heap := by rw [here]; rfl
    have switched : w.host.failures = failures := by rw [here]; rfl
    have unhidden : ∀ shape f code, constructor? s.host.heap shape = some (.object f) →
        s.host.heap.code? f = some code → Barren β code := by
      intro shape f code hidden _
      have made := makes_ shape
      rw [makes, heap, hidden] at made
      simp [Raw.handle?] at made
    obtain ⟨raw, w', ran, _, _, stands⟩ := (lays_write (.object b)
      ((Ledger.balanced_of_reachable reached).values _ owns)).writes _ w _
      (ready_of_reachable reached here unhidden) fun h inside => Ledger.mem_owned_of_value owns inside
    obtain ⟨x, rfl, new⟩ := stands.new backing (makes_ b.shape)
    exact ⟨x, w', ran, new, switched ▸ stands⟩

/-- A bag is backed by an object as long as it is what a read of the object made of it: it descends by
edits from an empty bag or from what a read answered, and it is backed if it is unchanged since. Writing
it hands over the object behind it if it is backed, and else makes new objects, in which the backed bags
that they take stand as the objects behind them. -/
theorem backed_until_changed (reached : Ledger.Reachable β Names.Knows element s) :
    (∀ v ∈ s.values, ∀ b path, v.Has b path → s.Descends β Names.Knows element b ∧
      ∀ h, b.backing = some h → s.ReadAs β Names.Knows element h b) ∧
    (∀ (b : Bag Value) (edits : List Edit),
      (b.edited edits).backing = (if edits.all (Edit.idle b) then b.backing else none) ∧
      (edits.all (Edit.idle b) = true → b.edited edits = b)) ∧
    ∀ failures (w : World ρ μ) b, w.host = s.host.failing failures → .object b ∈ s.values →
      HandedOver β w b ∧ ((∀ shape, makes w.host shape = true) →
        ∀ x w', (write β (.object b)).outcome w = (.ok (.object x), w') →
          ∀ h, h.number ≤ s.host.heap.lastHandle → (x = h ↔ b.backing = some h)) := by
  refine ⟨fun v owns b path has => ?_, fun b edits => ?_, fun failures w b here owns => ?_⟩
  · have descends := Ledger.descends_of_reachable reached owns has
    exact ⟨descends, fun h backed => descends.readAs backed⟩
  · exact ⟨Bag.backing_edited b edits, Bag.edited_of_idle⟩
  · have handed := handedOver_of_reachable reached here owns
    have heap : w.host.heap = s.host.heap := by rw [here]; rfl
    exact ⟨handed, fun makes_ x w' ran h old => handed.eq_iff makes_ ran (heap ▸ old)⟩

/-- An empty array and a plain object of a fresh host, both read as bags. -/
def readPair : Ledger Unit :=
  let made := ((Ledger.start none).hand (Host.onHeap (Heap.allocArray [])) fun h => [h]).hand
    (Host.onHeap (Heap.alloc .plain)) fun h => [h]
  { made with
    host := ((do let _ ← readBag ⟨3⟩; let _ ← readBag ⟨2⟩ : HostM Unit Unit).run made.host).2
    raws := []
    natives := [.object ⟨2⟩, .object ⟨3⟩]
    values := [.object ⟨.array, .empty, some ⟨2⟩⟩, .object (Bag.plain.backedBy ⟨3⟩)] }

theorem reachable_readPair (β : Behaviour Unit Unit) :
    Ledger.Reachable β Names.Knows none readPair := by
  have array : Ledger.Reachable β Names.Knows none _ :=
    .next .start (.createArray [] fun _ inside => nomatch inside)
  have object := Ledger.Reachable.next array .createObject
  have adopted := Ledger.Reachable.next object (.adopt (.object ⟨3⟩) [⟨2⟩] (.refl _))
  have both := Ledger.Reachable.next adopted (.adopt (.object ⟨2⟩) [] (.refl _))
  have read := Ledger.Reachable.next both (.readBag ⟨3⟩ (by simp))
  exact Ledger.Reachable.next read (.readBag ⟨2⟩ (by simp))

/-- The constructors stay in place when the array loses its backing. -/
theorem makes_readPair (shape : Shape) :
    makes ((Host.releaseAll [⟨2⟩]).run readPair.host).2 shape = true := by
  have kept : readPair.host.heap.objects.find? ⟨2⟩ = some ⟨2, .array #[], .empty⟩ := rfl
  change makes { readPair.host with heap := readPair.host.heap.releaseAll [⟨2⟩] } shape = true
  rw [Heap.releaseAll_kept kept (by decide)]
  cases shape <;> rfl

/-- The plain object is pushed onto the array: what is handed over is a new array, with the plain object
itself as its element. -/
theorem backed_until_changed_of_pushed :
    let b : Bag Value := Bag.push ⟨.array, .empty, some ⟨2⟩⟩ (.object (Bag.plain.backedBy ⟨3⟩))
    ∃ (β : Behaviour Unit Unit) (s : Ledger Unit) (w w' : World Unit Unit) (x : Handle),
      Ledger.Reachable β Names.Knows none s ∧ w.host = s.host ∧ .object b ∈ s.values ∧
      (write β (.object b)).outcome w = (.ok (.object x), w') ∧ x ≠ ⟨2⟩ ∧
      w'.host.heap.body? x = some (.array #[.object ⟨3⟩], .empty) := by
  intro b
  let β : Behaviour Unit Unit := ⟨fun _ _ => pure none, fun _ _ _ _ => pure .unhandled, fun _ => []⟩
  have reached := Ledger.Reachable.next (reachable_readPair β)
    (.push ⟨.array, .empty, some ⟨2⟩⟩ (.object (Bag.plain.backedBy ⟨3⟩)) [] (.refl _))
  let w : World Unit Unit :=
    ⟨((Host.releaseAll [⟨2⟩]).run readPair.host).2, [], 0, none, none, [], false, [], [], none⟩
  obtain ⟨handed, same⟩ := (backed_until_changed reached).2.2 .none w b rfl List.mem_cons_self
  have built : ∀ shape, makes w.host shape = true := makes_readPair
  obtain ⟨x, w', ran, _, stands⟩ := handed.unbacked rfl built
  have early : 2 ≤ (readPair.host.heap.releaseAll [⟨2⟩]).lastHandle := by
    rw [Heap.lastHandle_releaseAll]
    decide
  refine ⟨β, _, w, w', x, reached, rfl, List.mem_cons_self, ran, fun old => ?_, ?_⟩
  · cases (same built x w' ran ⟨2⟩ early).1 old
  · cases stands with
    | backed backing => cases backing
    | plain _ _ shape => cases shape
    | array _ _ _ _ body inside =>
      cases inside with
      | hidden backing => cases backing
      | array backing => cases backing
      | plain backing => cases backing
      | backed backing rest =>
        cases backing
        cases rest
        exact body

/-- What stands under a name in an array is not handed over with it. -/
theorem array_leaves_named_bag :
    let b : Bag Value := Bag.set ⟨.array, .empty, some ⟨2⟩⟩ (.name "x") (.object (Bag.plain.backedBy ⟨3⟩))
    ∃ (β : Behaviour Unit Unit) (s : Ledger Unit) (w w' : World Unit Unit) (x : Handle),
      Ledger.Reachable β Names.Knows none s ∧ w.host = s.host ∧ .object b ∈ s.values ∧
      (∀ shape, makes w.host shape = true) ∧ b.backing = none ∧
      b.find? (.name "x") = some (.object (Bag.plain.backedBy ⟨3⟩)) ∧
      (write β (.object b)).outcome w = (.ok (.object x), w') ∧
      w'.host.heap.body? x = some (.array #[], .empty) := by
  intro b
  let β : Behaviour Unit Unit := ⟨fun _ _ => pure none, fun _ _ _ _ => pure .unhandled, fun _ => []⟩
  have reached := Ledger.Reachable.next (reachable_readPair β)
    (.set ⟨.array, .empty, some ⟨2⟩⟩ (.name "x") (.object (Bag.plain.backedBy ⟨3⟩)) [] (.refl _))
  let w : World Unit Unit :=
    ⟨((Host.releaseAll [⟨2⟩]).run readPair.host).2, [], 0, none, none, [], false, [], [], none⟩
  have built : ∀ shape, makes w.host shape = true := makes_readPair
  have here : w.host = w.host.failing .none := rfl
  obtain ⟨x, w', ran, _, stands⟩ := (handedOver_of_reachable reached here List.mem_cons_self).unbacked rfl built
  refine ⟨β, _, w, w', x, reached, rfl, List.mem_cons_self, built, rfl, rfl, ran, ?_⟩
  cases stands with
  | backed backing => cases backing
  | plain _ _ shape => cases shape
  | array _ _ _ _ body inside =>
    cases inside
    exact body

end Marshal

end ScriptBoundary
