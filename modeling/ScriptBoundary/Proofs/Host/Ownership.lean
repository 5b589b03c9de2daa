import ScriptBoundary.Proofs.Heap.Ownership
import ScriptBoundary.Proofs.Invocation
import ScriptBoundary.Proofs.Marshal.Reading

/-!
Who owns references to the objects of a host, over whole runs. The host owns one to its global and
one to its element object; all others outside the heap are raw references that were handed out and
not given back, or sit in wrappers of host values and in the backings of bags.
-/

namespace ScriptBoundary

variable {ρ μ : Type}

/-- A host together with everything outside its heap that owns references. -/
structure Ledger (ρ : Type) where
  host : Host ρ
  /-- References that were handed out and not given back. -/
  raws : List Handle
  /-- Host values in owning wrappers. -/
  natives : List Raw
  values : List Value

namespace Ledger

def start (element : Option (String × String)) : Ledger ρ := ⟨Host.start element, [], [], []⟩

/-- The references of the host itself. -/
def own (s : Ledger ρ) : List Handle := Host.global :: s.host.element.toList

/-- Every reference owned outside the heap, once for each owner. -/
def owned (s : Ledger ρ) : List Handle :=
  s.own ++ s.raws ++ s.natives.flatMap Raw.handles ++ s.values.flatMap Value.handles

/-- The host does something and hands out references. -/
def hand {α : Type} (s : Ledger ρ) (op : HostM ρ α) (given : α → List Handle) : Ledger ρ :=
  { s with host := (op.run s.host).2, raws := given (op.run s.host).1 ++ s.raws }

/-- The host does something and hands out nothing. -/
def act {α : Type} (s : Ledger ρ) (op : HostM ρ α) : Ledger ρ := s.hand op fun _ => []

/-- Handles that the host has handed out, whether or not their objects still live. -/
def Known (s : Ledger ρ) (hs : List Handle) : Prop := ∀ h ∈ hs, s.host.heap.Issued h

/-- One operation on the host, on a wrapper or on a value. What is only lent has to be known; what is
given back, moved or changed is taken from among what is owned. `allowed` says under which
identifiers properties are written. -/
inductive Step (β : Behaviour ρ μ) (allowed : Names → HostId → Prop) :
    Ledger ρ → Ledger ρ → Prop where
  | createObject {s} : Step β allowed s (s.hand (Host.onHeap (Heap.alloc .plain)) fun h => [h])
  | createArray {s} (elements : List Raw) (known : s.Known (elements.flatMap Raw.handles)) :
      Step β allowed s (s.hand (Host.onHeap (Heap.allocArray elements)) fun h => [h])
  | createFunction {s} (code : ρ) :
      Step β allowed s (s.hand (Host.onHeap (Heap.alloc (.function code))) fun h => [h])
  | defineFunction {s} (name : String) (code : ρ) : Step β allowed s (s.act (Host.defineFunction name code))
  | put {s} (target : Handle) (name : String) (value : Raw) (known : s.Known value.handles) :
      Step β allowed s (s.act (Host.onHeap (Heap.put target name value)))
  | setProperty {s} (target : Handle) (id : HostId) (value : Raw) (known : s.Known value.handles)
      (may : allowed s.host.heap.names id) :
      Step β allowed s (s.act (Host.setProperty target id value))
  | defineGlobal {s} (name : String) (value : Raw) (known : s.Known value.handles) :
      Step β allowed s (s.act (Host.onHeap (Heap.put Host.global name value)))
  | defineExpression {s} (script : String) (value : Raw) (known : s.Known value.handles) :
      Step β allowed s (s.act (Host.changeHeap (Heap.defineExpression script value)))
  | getProperty {s} (target : Handle) (id : HostId) :
      Step β allowed s (s.hand (Host.getProperty target id) fun value => value.elim [] Raw.handles)
  | peek {s} (target : Handle) (name : String) :
      Step β allowed s (s.act (Host.onHeap (Heap.peek target name)))
  | evaluate {s} (target : Handle) (script : String) :
      Step β allowed s (s.hand (Host.evaluate target script) fun value => value.elim [] Raw.handles)
  | globalObject {s} : Step β allowed s (s.hand Host.globalObject Option.toList)
  | elementObject {s} : Step β allowed s (s.hand Host.elementObject Option.toList)
  /-- A call that runs no code: an append, a constructor of the global object, or nothing. -/
  | invoke {s} (w w' : World ρ μ) (here : w.host = s.host) (target : Handle) (id : HostId)
      (args : List Raw) (known : s.Known (args.flatMap Raw.handles))
      (noCode : ∀ f code, s.host.heap.callee? target id ≠ some (.function f code))
      (answer : Option Raw) (ran : (Run.invoke β target id args).outcome w = (.ok answer, w')) :
      Step β allowed s { s with host := w'.host, raws := answer.elim [] Raw.handles ++ s.raws }
  /-- The middle of a write: the reference to the new value is in, the one to the old value is out and
  still has to be given back. -/
  | exchange {s} (target : Handle) (id : HostId) (value : Raw) (rest : List Handle) (e : Entry ρ)
      (owns : s.raws.Perm (value.handles ++ rest))
      (found : s.host.heap.objects.find? target = some e) (may : allowed s.host.heap.names id) :
      Step β allowed s { s with
        host := { s.host with heap := { s.host.heap with
          objects := s.host.heap.objects.update target fun _ => (e.write id value).1 } }
        raws := (e.write id value).2.elim [] Raw.handles ++ rest }
  /-- The middle of a definition of an expression. -/
  | exchangeExpression {s} (text : String) (value : Raw) (rest : List Handle)
      (owns : s.raws.Perm (value.handles ++ rest)) :
      Step β allowed s { s with
        host := { s.host with heap := { s.host.heap with
          expressions := s.host.heap.expressions.insert text value } }
        raws := (s.host.heap.expressions.find? text).elim [] Raw.handles ++ rest }
  | intern {s} (text : String) : Step β allowed s (s.act (Host.intern text))
  | raise {s} (message : String) : Step β allowed s (s.act (Host.raise message))
  | retain {s} (h : Handle) (known : s.host.heap.Issued h) :
      Step β allowed s (s.hand (Host.retainAll [h]) fun _ => [h])
  | release {s} (h : Handle) (rest : List Handle) (owns : s.raws.Perm (h :: rest)) :
      Step β allowed s { s with host := ((Host.releaseAll [h]).run s.host).2, raws := rest }
  /-- A wrapper takes over a reference. -/
  | adopt {s} (raw : Raw) (rest : List Handle) (owns : s.raws.Perm (raw.handles ++ rest)) :
      Step β allowed s { s with raws := rest, natives := raw :: s.natives }
  /-- A wrapper takes a reference of its own. -/
  | retainNative {s} (raw : Raw) (known : s.Known raw.handles) :
      Step β allowed s { s with
        host := ((Host.retainAll raw.handles).run s.host).2, natives := raw :: s.natives }
  | cloneNative {s} (raw : Raw) (owns : raw ∈ s.natives) :
      Step β allowed s { s with
        host := ((Host.retainAll raw.handles).run s.host).2, natives := raw :: s.natives }
  | dropNative {s} (raw : Raw) (rest : List Raw) (owns : s.natives.Perm (raw :: rest)) :
      Step β allowed s { s with host := ((Host.releaseAll raw.handles).run s.host).2, natives := rest }
  /-- A wrapper hands its reference on: it takes another one, and is dropped. -/
  | intoRaw {s} (raw : Raw) (rest : List Raw) (owns : s.natives.Perm (raw :: rest)) :
      Step β allowed s { s with
        host := ((do Host.retainAll raw.handles; Host.releaseAll raw.handles).run s.host).2
        raws := raw.handles ++ s.raws
        natives := rest }
  | readNative {s} (raw : Raw) (owns : raw ∈ s.natives) :
      Step β allowed s { s with
        host := ((Marshal.read raw).run s.host).2
        values := ((Marshal.read raw).run s.host).1 :: s.values }
  | readBag {s} (h : Handle) (owns : Raw.object h ∈ s.natives) :
      Step β allowed s { s with
        host := ((Marshal.readBag h).run s.host).2
        values := .object ((Marshal.readBag h).run s.host).1 :: s.values }
  | readLent {s} (raw : Raw) (known : s.Known raw.handles) :
      Step β allowed s { s with
        host := ((Marshal.readLent raw).run s.host).2
        values := ((Marshal.readLent raw).run s.host).1 :: s.values }
  | newScalar {s} (scalar : Scalar) : Step β allowed s { s with values := .scalar scalar :: s.values }
  | newBag {s} (shape : Shape) : Step β allowed s { s with values := .object (.ofShape shape) :: s.values }
  | cloneValue {s} (value : Value) (owns : value ∈ s.values) :
      Step β allowed s { s with
        host := ((Host.retainAll value.handles).run s.host).2, values := value :: s.values }
  | dropValue {s} (value : Value) (rest : List Value) (owns : s.values.Perm (value :: rest)) :
      Step β allowed s { s with host := ((Host.releaseAll value.handles).run s.host).2, values := rest }
  | set {s} (bag : Bag Value) (id : Identifier) (value : Value) (rest : List Value)
      (owns : s.values.Perm (.object bag :: value :: rest)) :
      Step β allowed s { s with
        host := ((Host.releaseAll (bag.lostBySet id)).run s.host).2
        values := .object (bag.set id value) :: rest }
  | push {s} (bag : Bag Value) (value : Value) (rest : List Value)
      (owns : s.values.Perm (.object bag :: value :: rest)) :
      Step β allowed s { s with
        host := ((Host.releaseAll (bag.lostBySet (.index bag.nextIndex))).run s.host).2
        values := .object (bag.push value) :: rest }
  | remove {s} (bag : Bag Value) (id : Identifier) (rest : List Value)
      (owns : s.values.Perm (.object bag :: rest)) :
      Step β allowed s { s with
        host := ((Host.releaseAll (bag.lostByRemove id)).run s.host).2
        values := .object (bag.remove id) :: rest }
  /-- A copy of a property. -/
  | copyProperty {s} (bag : Bag Value) (id : Identifier) (value : Value)
      (owns : .object bag ∈ s.values) (found : bag.find? id = some value) :
      Step β allowed s { s with
        host := ((Host.retainAll value.handles).run s.host).2, values := value :: s.values }
  /-- A copy of the backing of a bag. -/
  | copyBacking {s} (bag : Bag Value) (h : Handle) (owns : .object bag ∈ s.values)
      (backed : bag.backing = some h) :
      Step β allowed s { s with
        host := ((Host.retainAll [h]).run s.host).2, natives := .object h :: s.natives }

/-- The states that a fresh host can come to. -/
inductive Reachable (β : Behaviour ρ μ) (allowed : Names → HostId → Prop)
    (element : Option (String × String)) : Ledger ρ → Prop where
  | start : Reachable β allowed element (start element)
  | next {s t} : Reachable β allowed element s → Step β allowed s t → Reachable β allowed element t

/-! ## Keeping account -/

/-- The heap is sound for what is owned outside of it, and values have their bags sorted. -/
structure Balanced (gone : Handle → Prop) (s : Ledger ρ) : Prop where
  heap : s.host.heap.Sound gone s.owned
  values : ∀ v ∈ s.values, v.Sorted

section Counts

variable {s : Ledger ρ}

theorem count_owned (s : Ledger ρ) (x : Handle) :
    s.owned.count x = s.own.count x + s.raws.count x + (s.natives.flatMap Raw.handles).count x
      + (s.values.flatMap Value.handles).count x := by
  simp only [owned, List.count_append]

theorem count_natives {natives rest : List Raw} {raw : Raw} (owns : natives.Perm (raw :: rest))
    (x : Handle) : (natives.flatMap Raw.handles).count x
      = raw.handles.count x + (rest.flatMap Raw.handles).count x := by
  have moved := (owns.flatMap_right Raw.handles).count_eq x
  rwa [List.flatMap_cons, List.count_append] at moved

theorem count_values {values rest : List Value} {value : Value} (owns : values.Perm (value :: rest))
    (x : Handle) : (values.flatMap Value.handles).count x
      = value.handles.count x + (rest.flatMap Value.handles).count x := by
  have moved := (owns.flatMap_right Value.handles).count_eq x
  rwa [List.flatMap_cons, List.count_append] at moved

theorem mem_owned_of_native {raw : Raw} (owns : raw ∈ s.natives) {x : Handle}
    (inside : x ∈ raw.handles) : x ∈ s.owned :=
  List.mem_append_left _ (List.mem_append_right _ (List.mem_flatMap.2 ⟨raw, owns, inside⟩))

theorem mem_owned_of_value {value : Value} (owns : value ∈ s.values) {x : Handle}
    (inside : x ∈ value.handles) : x ∈ s.owned :=
  List.mem_append_right _ (List.mem_flatMap.2 ⟨value, owns, inside⟩)

theorem mem_owned_of_own {x : Handle} (inside : x ∈ s.own) : x ∈ s.owned :=
  List.mem_append_left _ (List.mem_append_left _ (List.mem_append_left _ inside))

end Counts

section Operations

variable {gone : Handle → Prop} {s : Ledger ρ} {α : Type}

theorem Balanced.live (balanced : s.Balanced gone) {h : Handle} (owns : h ∈ s.owned) :
    gone h ∨ ∃ e, s.host.heap.objects.find? h = some e :=
  balanced.heap.live_of_mem (List.mem_append_right _ owns)

/-- Only the host and its raw references change. -/
theorem Balanced.handed (balanced : s.Balanced gone) {host : Host ρ} {given : List Handle}
    (element : host.element = s.host.element) (sound : host.heap.Sound gone (given ++ s.owned)) :
    ({ s with host := host, raws := given ++ s.raws } : Ledger ρ).Balanced gone := by
  refine ⟨sound.congr fun x => ?_, balanced.values⟩
  rw [List.count_append, count_owned, count_owned]
  simp only [own, element, List.count_append]
  omega

theorem Balanced.hand (balanced : s.Balanced gone) {op : HostM ρ α} {given : α → List Handle}
    (element : (op.run s.host).2.element = s.host.element)
    (sound : (op.run s.host).2.heap.Sound gone (given (op.run s.host).1 ++ s.owned)) :
    (s.hand op given).Balanced gone := balanced.handed element sound

theorem Balanced.act (balanced : s.Balanced gone) {op : HostM ρ α}
    (element : (op.run s.host).2.element = s.host.element)
    (sound : (op.run s.host).2.heap.Sound gone s.owned) : (s.act op).Balanced gone :=
  balanced.hand element sound

theorem Balanced.addNative (balanced : s.Balanced gone) (raw : Raw) {host : Host ρ}
    (element : host.element = s.host.element)
    (sound : host.heap.Sound gone (raw.handles ++ s.owned)) :
    ({ s with host := host, natives := raw :: s.natives } : Ledger ρ).Balanced gone := by
  refine ⟨sound.congr fun x => ?_, balanced.values⟩
  rw [List.count_append, count_owned, count_owned]
  simp only [own, element, List.flatMap_cons, List.count_append]
  omega

theorem Balanced.addValue (balanced : s.Balanced gone) (value : Value) {host : Host ρ}
    (element : host.element = s.host.element)
    (sound : host.heap.Sound gone (value.handles ++ s.owned)) (sorted : value.Sorted) :
    ({ s with host := host, values := value :: s.values } : Ledger ρ).Balanced gone := by
  refine ⟨sound.congr fun x => ?_, List.forall_mem_cons.2 ⟨sorted, balanced.values⟩⟩
  rw [List.count_append, count_owned, count_owned]
  simp only [own, element, List.flatMap_cons, List.count_append]
  omega

theorem Balanced.retained (balanced : s.Balanced gone) {hs : List Handle}
    (live : ∀ h ∈ hs, gone h ∨ ∃ e, s.host.heap.objects.find? h = some e) :
    ((Host.retainAll hs).run s.host).2.heap.Sound gone (hs ++ s.owned) := balanced.heap.retainAll live

/-- The heap takes over references that were raw and gives out others. -/
theorem Balanced.exchange (balanced : s.Balanced gone) {spent given rest : List Handle} {heap : Heap ρ}
    (owns : s.raws.Perm (spent ++ rest))
    (sound : ∀ owned, s.host.heap.Sound gone (spent ++ owned) → heap.Sound gone (given ++ owned)) :
    ({ s with host := { s.host with heap := heap }, raws := given ++ rest } : Ledger ρ).Balanced
      gone := by
  have before : s.host.heap.Sound gone (spent ++ owned { s with raws := rest }) := by
    apply balanced.heap.congr
    intro x
    have parted := owns.count_eq x
    simp only [List.count_append, count_owned, own] at parted ⊢
    omega
  refine ⟨(sound _ before).congr fun x => ?_, balanced.values⟩
  simp only [List.count_append, count_owned, own]
  omega

/-- An owner gives up references, and whoever is left owns the rest. -/
theorem Balanced.giveUp (balanced : s.Balanced gone) {raws : List Handle} {natives : List Raw}
    {values : List Value} (hs : List Handle)
    (parted : ∀ x, s.raws.count x + (s.natives.flatMap Raw.handles).count x
        + (s.values.flatMap Value.handles).count x
      = hs.count x + (raws.count x + (natives.flatMap Raw.handles).count x
        + (values.flatMap Value.handles).count x))
    (sorted : ∀ v ∈ values, v.Sorted) :
    Balanced gone ⟨((Host.releaseAll hs).run s.host).2, raws, natives, values⟩ := by
  have before : s.host.heap.Sound gone (hs ++ owned ⟨s.host, raws, natives, values⟩) := by
    apply balanced.heap.congr
    intro x
    have parted := parted x
    rw [List.count_append, count_owned, count_owned]
    simp only [own]
    omega
  exact ⟨before.releaseAll, sorted⟩

/-- A change to a bag takes over the values that go into it and gives up what it loses. -/
theorem Balanced.change (balanced : s.Balanced gone) {bag : Bag Value} (olds : List Value)
    {rest : List Value} {lost : List Handle} (owns : s.values.Perm (olds ++ rest))
    (moved : (bag.handles ++ lost).Perm (olds.flatMap Value.handles))
    (sorted : (Value.object bag).Sorted) :
    ({ s with host := ((Host.releaseAll lost).run s.host).2, values := .object bag :: rest } :
      Ledger ρ).Balanced gone := by
  refine balanced.giveUp lost (fun x => ?_) ?_
  · have owned := (owns.flatMap_right Value.handles).count_eq x
    have moved := moved.count_eq x
    rw [Bag.handles] at moved
    simp only [List.flatMap_append, List.flatMap_cons, List.count_append] at owned moved ⊢
    omega
  · refine List.forall_mem_cons.2 ⟨sorted, fun v inside => ?_⟩
    exact balanced.values v (owns.mem_iff.2 (List.mem_append_right _ inside))

end Operations

/-- A host that knows no handle but those of objects that live or lived. -/
def Settled (gone : Handle → Prop) (s : Ledger ρ) : Prop :=
  ∀ h, s.host.heap.Issued h → gone h ∨ ∃ e, s.host.heap.objects.find? h = some e

section Steps

variable {gone : Handle → Prop} {s t : Ledger ρ} {β : Behaviour ρ μ}
  {allowed : Names → HostId → Prop}

theorem Balanced.defineFunction (balanced : s.Balanced gone) (name : String) (code : ρ) :
    (s.act (Host.defineFunction name code)).Balanced gone := by
  apply balanced.act rfl
  have made : (s.host.heap.alloc (.function code)).2.Sound gone
      ((s.host.heap.alloc (.function code)).1 :: s.owned) := Heap.Sound.alloc balanced.heap
  have live : ∀ h ∈ (Raw.object (s.host.heap.alloc (.function code)).1).handles,
      gone h ∨ ∃ e, (s.host.heap.alloc (.function code)).2.objects.find? h = some e := by
    intro h inside
    refine made.live_of_mem (List.mem_append_right _ ?_)
    exact List.mem_cons.2 (.inl (List.mem_singleton.1 inside))
  exact Heap.Sound.releaseAll (made.put live Host.global name)

theorem Balanced.globalObject (balanced : s.Balanced gone) :
    (s.hand Host.globalObject Option.toList).Balanced gone := by
  have live := balanced.live (mem_owned_of_own List.mem_cons_self)
  by_cases missing : s.host.failures.noGlobal
  · refine balanced.hand ?_ ?_ <;> rw [Host.run_globalObject, if_pos missing]
    exact balanced.heap
  · refine balanced.hand ?_ ?_ <;> rw [Host.run_globalObject, if_neg missing]
    exact balanced.heap.retainAll (List.forall_mem_singleton.2 live)

theorem Balanced.elementObject (balanced : s.Balanced gone) :
    (s.hand Host.elementObject Option.toList).Balanced gone := by
  obtain ⟨⟨heap, element, failures⟩, raws, natives, values⟩ := s
  cases element with
  | none =>
    refine balanced.hand ?_ ?_ <;> rw [Host.run_elementObject]
    exact balanced.heap
  | some h =>
    have live := balanced.live (mem_owned_of_own (List.mem_cons_of_mem _ List.mem_cons_self))
    refine balanced.hand ?_ ?_ <;> rw [Host.run_elementObject]
    exact balanced.heap.retainAll (List.forall_mem_singleton.2 live)

theorem Balanced.setProperty (balanced : s.Balanced gone) (target : Handle) (id : HostId)
    {value : Raw} (live : ∀ h ∈ value.handles, gone h ∨ ∃ e, s.host.heap.objects.find? h = some e) :
    (s.act (Host.setProperty target id value)).Balanced gone := by
  by_cases refused : s.host.failures.refusesWrites
  · refine balanced.act ?_ ?_ <;> rw [Host.run_setProperty, if_pos refused]
    exact balanced.heap
  · refine balanced.act ?_ ?_ <;> rw [Host.run_setProperty, if_neg refused]
    exact balanced.heap.store live target id

theorem Balanced.invoke (balanced : s.Balanced gone) {w w' : World ρ μ} (here : w.host = s.host)
    {target : Handle} {id : HostId} {args : List Raw}
    (live : ∀ h ∈ args.flatMap Raw.handles, gone h ∨ ∃ e, s.host.heap.objects.find? h = some e)
    (noCode : ∀ f code, s.host.heap.callee? target id ≠ some (.function f code))
    {answer : Option Raw} (ran : (Run.invoke β target id args).outcome w = (.ok answer, w')) :
    ({ s with host := w'.host, raws := answer.elim [] Raw.handles ++ s.raws } : Ledger ρ).Balanced
      gone := by
  obtain ⟨host, raws, natives, values⟩ := s
  subst here
  cases called : w.host.heap.callee? target id with
  | none =>
    rw [Run.outcome_invoke_none args called] at ran
    cases ran
    exact balanced.handed rfl balanced.heap
  | some callee =>
    cases callee with
    | push =>
      rw [Run.outcome_invoke_push args called] at ran
      cases ran
      have appended := balanced.heap.pushAll live (Heap.array_of_callee?_push called)
      refine balanced.handed rfl ?_
      rw [Heap.handles_pushAll]
      exact appended
    | construct shape =>
      rw [Run.outcome_invoke_construct args called] at ran
      cases ran
      refine balanced.handed rfl (Heap.Sound.alloc ?_)
      cases shape <;> exact balanced.heap
    | function f code => exact absurd called (noCode f code)

theorem Balanced.intoRaw (balanced : s.Balanced gone) {raw : Raw} {rest : List Raw}
    (owns : s.natives.Perm (raw :: rest)) :
    ({ s with
      host := ((do Host.retainAll raw.handles; Host.releaseAll raw.handles : HostM ρ Unit).run
        s.host).2
      raws := raw.handles ++ s.raws
      natives := rest } : Ledger ρ).Balanced gone := by
  have retained := balanced.retained fun _ inside =>
    balanced.live (mem_owned_of_native (owns.mem_iff.2 List.mem_cons_self) inside)
  have taken : ({ s with
      host := ((Host.retainAll raw.handles).run s.host).2
      natives := raw :: s.natives } : Ledger ρ).Balanced gone := balanced.addNative raw rfl retained
  refine taken.giveUp raw.handles (fun x => ?_) balanced.values
  have parted := count_natives owns x
  simp only [List.flatMap_cons, List.count_append]
  omega

/-- Reading something owned takes no reference but those of the value that is read. -/
theorem Balanced.read (balanced : s.Balanced gone) {α : Type} {op : HostM ρ α} (value : α → Value)
    {taken others : List Handle} {post : α → Prop} (owns : s.owned.Perm (taken ++ others))
    (reads : Reads s.host taken op (fun a => (value a).handles ++ taken) post)
    (sorted : ∀ a, post a → (value a).Sorted) :
    ({ s with
      host := (op.run s.host).2
      values := value (op.run s.host).1 :: s.values } : Ledger ρ).Balanced gone := by
  obtain ⟨alike, sound, holds⟩ := reads gone s.host others (.refl _) (balanced.heap.perm owns)
  refine balanced.addValue _ alike.element (sound.congr fun x => ?_) (sorted _ holds)
  have parted := owns.count_eq x
  simp only [List.count_append] at parted ⊢
  omega

theorem exists_perm_handles {raw : Raw} {owned : List Handle} (owns : ∀ x ∈ raw.handles, x ∈ owned) :
    ∃ others, owned.Perm (raw.handles ++ others) := by
  cases raw with
  | scalar => exact ⟨owned, .refl _⟩
  | object h => exact ⟨_, List.perm_cons_erase (owns h List.mem_cons_self)⟩

theorem Balanced.readLent (balanced : s.Balanced gone) {raw : Raw}
    (live : ∀ h ∈ raw.handles, gone h ∨ ∃ e, s.host.heap.objects.find? h = some e) :
    ({ s with
      host := ((Marshal.readLent raw).run s.host).2
      values := ((Marshal.readLent raw).run s.host).1 :: s.values } : Ledger ρ).Balanced gone := by
  obtain ⟨element, sound, read⟩ := Marshal.sound_readLent balanced.heap live
  exact balanced.addValue _ element sound (Marshal.sorted_valueRead read)

/-- An owned bag and its properties. -/
theorem Balanced.property (balanced : s.Balanced gone) {bag : Bag Value} {id : Identifier}
    {value : Value} (owns : .object bag ∈ s.values) (found : bag.find? id = some value) :
    value.Sorted ∧ ∀ h ∈ value.handles, h ∈ s.owned := by
  refine ⟨(Value.sorted_object_iff.1 (balanced.values _ owns)).2 (id, value)
    (Table.mem_of_find? found), fun h inside => mem_owned_of_value owns ?_⟩
  change h ∈ bag.handles
  rw [Bag.handles_eq]
  exact List.mem_append_left _ (Bag.mem_entryHandles found inside)

theorem Balanced.set (balanced : s.Balanced gone) {bag : Bag Value} (id : Identifier) {value : Value}
    {rest : List Value} (owns : s.values.Perm (.object bag :: value :: rest)) :
    ({ s with
      host := ((Host.releaseAll (bag.lostBySet id)).run s.host).2
      values := .object (bag.set id value) :: rest } : Ledger ρ).Balanced gone := by
  have bagSorted := balanced.values _ (owns.mem_iff.2 List.mem_cons_self)
  have valueSorted := balanced.values _ (owns.mem_iff.2 (List.mem_cons_of_mem _ List.mem_cons_self))
  refine balanced.change [.object bag, value] owns ?_
    (Bag.sorted_set bagSorted valueSorted id)
  refine (Bag.handles_set (Value.sorted_object_iff.1 bagSorted).1 id value).trans ?_
  rw [List.flatMap_cons, List.flatMap_singleton]
  exact List.perm_append_comm

theorem Balanced.remove (balanced : s.Balanced gone) {bag : Bag Value} (id : Identifier)
    {rest : List Value} (owns : s.values.Perm (.object bag :: rest)) :
    ({ s with
      host := ((Host.releaseAll (bag.lostByRemove id)).run s.host).2
      values := .object (bag.remove id) :: rest } : Ledger ρ).Balanced gone := by
  have bagSorted := balanced.values _ (owns.mem_iff.2 List.mem_cons_self)
  refine balanced.change [.object bag] owns ?_ (Bag.sorted_remove bagSorted id)
  rw [List.flatMap_singleton]
  exact Bag.handles_remove (Value.sorted_object_iff.1 bagSorted).1 id

/-- Whatever is done, every reference stays accounted for. -/
theorem Balanced.step (balanced : s.Balanced gone) (settled : s.Settled gone)
    (step : Step β allowed s t) : t.Balanced gone := by
  have live {hs : List Handle} (known : s.Known hs) :
      ∀ h ∈ hs, gone h ∨ ∃ e, s.host.heap.objects.find? h = some e :=
    fun h inside => settled h (known h inside)
  cases step with
  | createObject => exact balanced.hand rfl (Heap.Sound.alloc balanced.heap)
  | createArray elements known => exact balanced.hand rfl (balanced.heap.allocArray (live known))
  | createFunction code => exact balanced.hand rfl (Heap.Sound.alloc balanced.heap)
  | defineFunction name code => exact balanced.defineFunction name code
  | put target name value known => exact balanced.act rfl (balanced.heap.put (live known) target name)
  | setProperty target id value known _ => exact balanced.setProperty target id (live known)
  | defineGlobal name value known =>
    exact balanced.act rfl (balanced.heap.put (live known) Host.global name)
  | defineExpression script value known =>
    exact balanced.act rfl (balanced.heap.defineExpression (live known) script)
  | getProperty target id => exact balanced.hand rfl (balanced.heap.retainLookup target id)
  | peek target name => exact balanced.act rfl (balanced.heap.key name)
  | evaluate target script => exact balanced.hand rfl (balanced.heap.evaluate target script)
  | globalObject => exact balanced.globalObject
  | elementObject => exact balanced.elementObject
  | invoke w w' here target id args known noCode answer ran =>
    exact balanced.invoke here (live known) noCode ran
  | exchange target id value rest e owns found _ =>
    exact balanced.exchange owns fun owned sound => sound.write found id
  | exchangeExpression text value rest owns =>
    exact balanced.exchange owns fun owned sound => sound.define text
  | intern text => exact balanced.act rfl (balanced.heap.intern text)
  | raise message => exact balanced.act rfl (balanced.heap.of_eq rfl rfl rfl)
  | retain h known =>
    exact balanced.hand rfl (balanced.heap.retainAll (List.forall_mem_singleton.2 (settled h known)))
  | release h rest owns =>
    refine balanced.giveUp [h] (fun x => ?_) balanced.values
    have parted := owns.count_eq x
    rw [List.count_cons] at parted
    rw [List.count_singleton]
    omega
  | adopt raw rest owns =>
    refine ⟨balanced.heap.congr fun x => ?_, balanced.values⟩
    have parted := owns.count_eq x
    simp only [count_owned, own, List.flatMap_cons, List.count_append] at parted ⊢
    omega
  | retainNative raw known => exact balanced.addNative raw rfl (balanced.retained (live known))
  | cloneNative raw owns =>
    exact balanced.addNative raw rfl (balanced.retained fun _ inside =>
      balanced.live (mem_owned_of_native owns inside))
  | dropNative raw rest owns =>
    refine balanced.giveUp raw.handles (fun x => ?_) balanced.values
    have parted := count_natives owns x
    omega
  | intoRaw raw rest owns => exact balanced.intoRaw owns
  | readNative raw owns =>
    obtain ⟨others, held⟩ := exists_perm_handles fun x => mem_owned_of_native owns (x := x)
    exact balanced.read id held (Marshal.reads_read balanced.heap.ordered raw)
      fun _ => Marshal.sorted_valueRead
  | readBag h owns =>
    obtain ⟨others, held⟩ := exists_perm_handles fun x => mem_owned_of_native owns (x := x)
    exact balanced.read .object held (Marshal.reads_readBag balanced.heap.ordered h)
      fun _ read => read.sorted fun _ _ => Marshal.sorted_valueRead
  | readLent raw known => exact balanced.readLent (live known)
  | newScalar scalar =>
    exact balanced.addValue _ rfl balanced.heap (Value.sorted_scalar scalar)
  | newBag shape =>
    exact balanced.addValue _ rfl balanced.heap
      (Value.sorted_object_iff.2 ⟨Table.sorted_empty, fun _ inside => nomatch inside⟩)
  | cloneValue value owns =>
    exact balanced.addValue _ rfl (balanced.retained fun _ inside =>
      balanced.live (mem_owned_of_value owns inside)) (balanced.values value owns)
  | dropValue value rest owns =>
    refine balanced.giveUp value.handles (fun x => ?_) fun v inside =>
      balanced.values v (owns.mem_iff.2 (List.mem_cons_of_mem _ inside))
    have parted := count_values owns x
    omega
  | set bag id value rest owns => exact balanced.set id owns
  | push bag value rest owns => exact balanced.set (.index bag.nextIndex) owns
  | remove bag id rest owns => exact balanced.remove id owns
  | copyProperty bag id value owns found =>
    obtain ⟨sorted, held⟩ := balanced.property owns found
    exact balanced.addValue _ rfl (balanced.retained fun h inside => balanced.live (held h inside)) sorted
  | copyBacking bag h owns backed =>
    refine balanced.addNative (.object h) rfl (balanced.retained ?_)
    refine List.forall_mem_singleton.2 (balanced.live (mem_owned_of_value owns ?_))
    change h ∈ bag.handles
    simp [Bag.handles_eq, backed]

end Steps

/-! ## Whole runs -/

theorem sound_empty : (Heap.empty : Heap ρ).Sound (fun _ => False) [] where
  ordered := ⟨Table.sorted_empty, (nomatch ·), Table.sorted_empty⟩
  positive _ _ found := nomatch found
  issued found := nomatch found
  freed was := was.elim
  accounted _ := rfl

theorem balanced_start (element : Option (String × String)) :
    (start element : Ledger ρ).Balanced fun _ => False := by
  have global : (Heap.empty.alloc (.plain : Form ρ)).2.Sound (fun _ => False) [Host.global] :=
    Heap.Sound.alloc sound_empty
  refine ⟨?_, fun _ inside => nomatch inside⟩
  cases element with
  | none => exact global
  | some names =>
    have made : ((Heap.empty.alloc (.plain : Form ρ)).2.alloc .plain).2.Sound (fun _ => False)
        [⟨2⟩, Host.global] := Heap.Sound.alloc global
    have named (h : Handle) (id : HostId) (text : String) {heap : Heap ρ}
        (sound : heap.Sound (fun _ => False) [⟨2⟩, Host.global]) :
        (heap.store h id (.string text)).2.Sound (fun _ => False) [⟨2⟩, Host.global] :=
      sound.store (by simp) h id
    exact (named _ _ _ (named _ _ _ ((made.intern "id").intern "name"))).perm (.swap _ _ _)

variable {β : Behaviour ρ μ} {allowed : Names → HostId → Prop} {element : Option (String × String)}
  {s t : Ledger ρ}

theorem Balanced.freed {gone : Handle → Prop} (balanced : s.Balanced gone) :
    s.Balanced s.host.heap.Freed :=
  ⟨{ balanced.heap with
      freed := id
      accounted := fun alive => balanced.heap.accounted fun was => alive (balanced.heap.freed was) },
    balanced.values⟩

theorem settled_freed (s : Ledger ρ) : s.Settled s.host.heap.Freed := by
  intro h known
  cases found : s.host.heap.objects.find? h with
  | none => exact .inl ⟨known, found⟩
  | some e => exact .inr ⟨e, rfl⟩

theorem balanced_of_reachable (reached : Reachable β allowed element s) : s.Balanced s.host.heap.Freed := by
  induction reached with
  | start => exact (balanced_start element).freed
  | next _ step ih => exact (ih.step (settled_freed _) step).freed

/-- In every state that a fresh host comes to, the count of a live object is the number of its
occurrences in live objects and in the table of expressions, and of the references to it owned outside
the heap. It is never zero, so nothing that is given back makes a count go below zero; and an object
that a step frees has no reference left after it. -/
theorem references_accounted (reached : Reachable β allowed element s) :
    (∀ h e, s.host.heap.objects.find? h = some e →
      e.refs = s.host.heap.stored.count h + s.owned.count h ∧ 1 ≤ e.refs) ∧
    (∀ hs, Heap.Releases hs s.host.heap (s.host.heap.releaseAll hs)) ∧
    ∀ t, Step β allowed s t → ∀ h, s.host.heap.isLive h → ¬ t.host.heap.isLive h →
      h ∉ t.host.heap.stored ++ t.owned := by
  have balanced := balanced_of_reachable reached
  refine ⟨fun h e found => ⟨?_, balanced.heap.positive h e found⟩,
    Heap.releases_releaseAll balanced.heap.positive, fun t step h live dead inside => ?_⟩
  · have lives : ¬ s.host.heap.Freed h := fun was => by
      rw [was.2] at found
      cases found
    rw [← Heap.refs_of_find? found]
    exact balanced.heap.accounted lives
  · obtain ⟨e, was⟩ := Table.contains_iff.1 live
    rcases (balanced.step (settled_freed s) step).heap.live_of_mem inside with gone | ⟨e', is⟩
    · rw [gone.2] at was
      cases was
    · exact dead (Table.contains_iff.2 ⟨e', is⟩)

/-- An array that contains itself has one reference from inside and one from its owner. -/
theorem references_accounted_of_self :
    ∃ (β : Behaviour Unit Unit) (s : Ledger Unit) (e : Entry Unit),
      Reachable β (fun _ _ => True) none s ∧
      s.host.heap.objects.find? ⟨2⟩ = some e ∧ e.form.elements = [.object ⟨2⟩] ∧ s.raws = [⟨2⟩] ∧
      e.refs = s.host.heap.stored.count ⟨2⟩ + s.owned.count ⟨2⟩ ∧ e.refs = 2 := by
  let β : Behaviour Unit Unit := ⟨fun _ _ => pure none, fun _ _ _ _ => pure .unhandled, fun _ => []⟩
  have made : Reachable β (fun _ _ => True) none ((start none).hand (Host.onHeap (Heap.allocArray [])) fun h => [h]) :=
    .next .start (.createArray [] fun _ inside => nomatch inside)
  have twice := Reachable.next made (.retain ⟨2⟩ ⟨by decide, by decide⟩)
  have reached := Reachable.next twice
    (.exchange ⟨2⟩ (.word 0) (.object ⟨2⟩) [⟨2⟩] ⟨2, .array #[], .empty⟩ (.refl _) rfl trivial)
  have accounted := ((references_accounted reached).1 ⟨2⟩ ⟨2, .array #[.object ⟨2⟩], .empty⟩ rfl).1
  exact ⟨β, _, _, reached, rfl, rfl, rfl, accounted, rfl⟩

end Ledger

end ScriptBoundary
