import ScriptBoundary.Proofs.Marshal.Building
import ScriptBoundary.Proofs.Marshal.Growth
import ScriptBoundary.Proofs.Marshal.Standing

/-!
Filling a new object, on a host that may fail. What the object takes in are the backings that are handed
over to it, and new objects that it alone holds; the values that are written stand in it.
-/

namespace ScriptBoundary

variable {ρ μ : Type}

namespace Value

/-! The backings of a value that are handed over when it is written: all but those in bags that the
host cannot construct, in properties that it refuses, and under keys that are no elements. -/

def handedBy (accepts : Bool) : Shape → List (Identifier × List Handle) → List Handle
  | .array, entries => (Bag.elements ⟨.array, ⟨entries⟩, none⟩ []).flatten
  | .plain, entries => if accepts then entries.flatMap (·.2) else []

mutual

def handed (builds : Shape → Bool) (accepts : Bool) : Value → List Handle
  | .scalar _ => []
  | .object ⟨shape, ⟨entries⟩, backing⟩ =>
    match backing with
    | some h => [h]
    | none => if builds shape then handedBy accepts shape (handedEntries builds accepts entries) else []

def handedEntries (builds : Shape → Bool) (accepts : Bool) :
    List (Identifier × Value) → List (Identifier × List Handle)
  | [] => []
  | (id, v) :: rest => (id, handed builds accepts v) :: handedEntries builds accepts rest

end

theorem handedEntries_eq (builds : Shape → Bool) (accepts : Bool)
    (entries : List (Identifier × Value)) :
    handedEntries builds accepts entries = entries.map fun e => (e.1, e.2.handed builds accepts) := by
  induction entries with
  | nil => rfl
  | cons e rest ih => rw [handedEntries, ih, List.map_cons]

end Value

namespace Heap

/-- No object changed; names may have been added, and handles used up. -/
structure Quiet (base heap : Heap ρ) : Prop where
  objects : heap.objects = base.objects
  names : heap.names.Extends base.names
  expressions : heap.expressions = base.expressions
  lastHandle : base.lastHandle ≤ heap.lastHandle

variable {base heap heap' : Heap ρ} {gone : Handle → Prop} {owned held handed : List Handle}

theorem quiet_withNames (heap : Heap ρ) {names : Names} (more : names.Extends heap.names) :
    heap.Quiet { heap with names := names } := ⟨rfl, more, rfl, Nat.le_refl _⟩

theorem Quiet.sound (quiet : heap.Quiet heap') (sound : heap.Sound gone owned) :
    heap'.Sound gone owned := by
  obtain ⟨objects, last, names, expressions, releases, exceptions⟩ := heap'
  obtain ⟨same, _, same', more⟩ := quiet
  cases same
  cases same'
  refine ⟨⟨sound.ordered.objects, sound.ordered.props, sound.ordered.expressions⟩, sound.positive,
    fun found => ?_, fun was => ?_, sound.accounted⟩
  · exact (sound.issued found).imp_right (Nat.le_trans · more)
  · exact (sound.freed was).imp_left (And.imp_right (Nat.le_trans · more))

theorem Quiet.extended (quiet : base.Quiet heap) (n : Nat) : heap.Extends n base :=
  ⟨fun _ _ => by rw [body?, quiet.objects, body?], quiet.names, quiet.lastHandle⟩

theorem Grown.quiet (grown : Grown base heap held handed) (quiet : heap.Quiet heap') :
    Grown base heap' held handed where
  more := ((quiet.extended _).mono (Nat.le_refl _)).trans grown.more
  expressions := quiet.expressions.trans grown.expressions
  owners := by
    have same : base.fresh heap' = base.fresh heap := by rw [fresh, fresh, within, within, quiet.objects]
    obtain ⟨made, owners, distinct, new⟩ := grown.owners
    exact ⟨made, same ▸ owners, distinct, fun x inside =>
      (new x inside).imp_right (Nat.le_trans · quiet.lastHandle)⟩
  rising found := grown.rising (quiet.objects ▸ found)

/-- Only what the old heap held matters, not how it was counted. -/
theorem Grown.rebase (grown : Grown heap heap' held handed) (alike : base.Alike heap) :
    Grown base heap' held handed where
  more := by
    have first := alike.extended base.lastHandle
    exact (grown.more.mono (Nat.le_of_eq alike.lastHandle.symm)).trans first
  expressions := grown.expressions.trans alike.expressions
  owners := by
    have same : base.fresh heap' = heap.fresh heap' := by rw [fresh, fresh, alike.lastHandle]
    rw [same, ← alike.lastHandle]
    exact grown.owners
  rising found new := grown.rising found (alike.lastHandle ▸ new)

end Heap

namespace Marshal

variable {β : Behaviour ρ μ} {failures : Failures} {builds : Shape → Bool} {limit : Nat}
  {gone : Handle → Prop} {w w' : World ρ μ} {owned : List Handle}

/-- Called without arguments, the code answers no object, and it leaves the objects of the host as they
are. -/
def Barren (β : Behaviour ρ μ) (code : ρ) : Prop :=
  ∀ w, ∃ answer w', (β.enter code []).outcome w = (.ok answer, w') ∧
    answer.elim [] Raw.handles = [] ∧ w.host.heap.Quiet w'.host.heap ∧
      w'.host.failures = w.host.failures

/-- Whether the global object offers a constructor. If not, another object stands under its name, which
makes no object when it is called. -/
def Offers (β : Behaviour ρ μ) (limit : Nat) (heap : Heap ρ) (shape : Shape) (builds : Bool) : Prop :=
  ∀ names : Names, names.Extends heap.names → ∀ form props,
    heap.body? Host.global = some (form, props) →
      match builds with
      | true => ∀ f, props.find? (names.intern (constructorName shape)).1 ≠ some (.object f)
      | false => ∃ f, props.find? (names.intern (constructorName shape)).1 = some (.object f) ∧
          f.number ≤ limit ∧ ∀ code, heap.code? f = some code → Barren β code

theorem code?_eq_some {heap : Heap ρ} {h : Handle} {code : ρ} :
    heap.code? h = some code ↔ ∃ props, heap.body? h = some (.function code, props) := by
  simp only [Heap.code?, Heap.body?]
  cases heap.objects.find? h with
  | none => simp
  | some e =>
    obtain ⟨refs, form, props⟩ := e
    cases form <;> simp [Entry.body]

theorem Offers.extended {heap heap' : Heap ρ} {shape : Shape} {builds : Bool}
    (offers : Offers β limit heap shape builds) (more : heap'.Extends limit heap) (first : 1 ≤ limit) :
    Offers β limit heap' shape builds := by
  intro names known form props body
  have before := offers names (known.trans more.names) form props
    ((more.body Host.global first).symm.trans body)
  cases builds with
  | true => exact before
  | false =>
    obtain ⟨f, hidden, early, barren⟩ := before
    refine ⟨f, hidden, early, fun code is => barren code ?_⟩
    rw [code?_eq_some] at is ⊢
    rwa [more.body f early] at is

/-- A world in which values can be written. The objects up to `limit` stay as they are. -/
structure Ready (β : Behaviour ρ μ) (failures : Failures) (builds : Shape → Bool) (limit : Nat)
    (gone : Handle → Prop) (w : World ρ μ) (owned : List Handle) : Prop where
  sound : w.host.heap.Sound gone owned
  switched : w.host.failures = failures
  global : Host.global ∈ owned
  lives : ¬ gone Host.global
  first : 1 ≤ limit
  last : limit ≤ w.host.heap.lastHandle
  offers : ∀ shape, if failures.noGlobal then builds shape = false
    else Offers β limit w.host.heap shape (builds shape)

namespace Ready

theorem find_global (ready : Ready β failures builds limit gone w owned) :
    ∃ e, w.host.heap.objects.find? Host.global = some e :=
  (ready.sound.live_of_mem (List.mem_append_right _ ready.global)).resolve_left ready.lives

theorem next (ready : Ready β failures builds limit gone w owned) {w' : World ρ μ}
    {owned' : List Handle} (more : w'.host.heap.Extends limit w.host.heap)
    (sound : w'.host.heap.Sound gone owned') (same : w'.host.failures = w.host.failures)
    (global : Host.global ∈ owned') : Ready β failures builds limit gone w' owned' where
  sound := sound
  switched := same.trans ready.switched
  global := global
  lives := ready.lives
  first := ready.first
  last := Nat.le_trans ready.last more.lastHandle
  offers shape := by
    have before := ready.offers shape
    by_cases missing : failures.noGlobal
    · rwa [if_pos missing] at before ⊢
    · rw [if_neg missing] at before ⊢
      exact before.extended more ready.first

theorem perm (ready : Ready β failures builds limit gone w owned) {owned' : List Handle}
    (perm : owned.Perm owned') : Ready β failures builds limit gone w owned' :=
  { ready with sound := ready.sound.perm perm, global := perm.mem_iff.1 ready.global }

theorem early (ready : Ready β failures builds limit gone w owned) {h : Handle} (owns : h ∈ owned) :
    h.number ≤ w.host.heap.lastHandle := by
  rcases ready.sound.live_of_mem (List.mem_append_right _ owns) with was | ⟨e, found⟩
  · exact (ready.sound.freed was).1.2
  · exact (ready.sound.issued found).2

theorem retainAll (ready : Ready β failures builds limit gone w owned) {hs : List Handle}
    (owns : ∀ h ∈ hs, h ∈ owned) :
    Ready β failures builds limit gone (w.withHeap (w.host.heap.retainAll hs)) (hs ++ owned) :=
  ready.next ((Heap.alike_retainAll _ _).extended _)
    (ready.sound.retainAll fun h inside =>
      ready.sound.live_of_mem (List.mem_append_right _ (owns h inside)))
    rfl (List.mem_append_right _ ready.global)

/-- References that are not the last ones can be given back. -/
theorem released {hs : List Handle} (ready : Ready β failures builds limit gone w (hs ++ owned))
    (global : Host.global ∈ owned) (held : ∀ h ∈ hs, h ∈ w.host.heap.stored ++ owned) :
    w.host.heap.Alike (w.released hs).host.heap ∧ Ready β failures builds limit gone (w.released hs) owned := by
  have alike := ready.sound.alike_releaseAll held
  exact ⟨alike, ready.next (alike.extended _) ready.sound.releaseAll rfl global⟩

theorem intern (ready : Ready β failures builds limit gone w owned) {names : Names}
    (more : names.Extends w.host.heap.names) :
    Ready β failures builds limit gone (w.withHeap { w.host.heap with names := names }) owned :=
  ready.next ((Heap.quiet_withNames _ more).extended _) (ready.sound.withNames _) rfl ready.global

end Ready

/-- A way to write a value: with the references that it holds itself, what the value hands over is handed
over, and the value stands in the heap. -/
structure Lays (β : Behaviour ρ μ) (failures : Failures) (builds : Shape → Bool) (limit : Nat)
    (writer : Writer ρ μ) (v : Value) : Prop where
  holds : ∀ h ∈ v.handed builds (!failures.refusesWrites), h ∈ writer.handles
  writes : ∀ gone w owned, Ready β failures builds limit gone w owned → (∀ h ∈ writer.handles, h ∈ owned) →
    ∃ raw w', writer.write.outcome w = (.ok raw, w') ∧
      Ready β failures builds limit gone w' (raw.handles ++ owned) ∧
      Heap.Grown w.host.heap w'.host.heap raw.handles (v.handed builds (!failures.refusesWrites)) ∧
      Stands builds (!failures.refusesWrites) w'.host.heap w.host.heap.lastHandle [raw] [v]

/-- An object is being filled: it is new, its one reference is held, and so much was handed over. -/
structure Filling (base heap : Heap ρ) (form : Form ρ) (props : Table HostId Raw)
    (handed : List Handle) : Prop where
  body : heap.body? ⟨base.lastHandle + 1⟩ = some (form, props)
  grown : Heap.Grown base heap [⟨base.lastHandle + 1⟩] handed
  later : base.lastHandle + 1 ≤ heap.lastHandle

namespace Filling

variable {base heap heap' : Heap ρ} {form : Form ρ} {props : Table HostId Raw} {handed : List Handle}

theorem alike (filling : Filling base heap form props handed) (ordered : heap.Ordered)
    (ordered' : heap'.Ordered) (alike : heap.Alike heap') : Filling base heap' form props handed where
  body := (alike.objects _).trans filling.body
  grown := filling.grown.alike ordered ordered' alike
  later := alike.lastHandle ▸ filling.later

theorem perm (filling : Filling base heap form props handed) {handed' : List Handle}
    (perm : handed.Perm handed') : Filling base heap form props handed' :=
  { filling with grown := filling.grown.perm (.refl _) perm }

theorem quiet (filling : Filling base heap form props handed) (quiet : heap.Quiet heap') :
    Filling base heap' form props handed where
  body := by rw [Heap.body?, quiet.objects]; exact filling.body
  grown := filling.grown.quiet quiet
  later := Nat.le_trans filling.later quiet.lastHandle

/-- The object takes a value that was written for it. -/
theorem take {mid : Heap ρ} {raw : Raw} {taken : List Handle}
    (filling : Filling base heap form props handed) (wrote : Heap.Grown heap mid raw.handles taken)
    (sound : heap.Sound gone owned) (ordered : mid.Ordered) (ordered' : heap'.Ordered)
    {form' : Form ρ} {props' : Table HostId Raw}
    (bodies : ∀ h, heap'.body? h
      = if h = ⟨base.lastHandle + 1⟩ then some (form', props') else mid.body? h)
    (values : (props'.values ++ form'.elements).Perm (raw :: (props.values ++ form.elements)))
    (names : heap'.names = mid.names) (lastHandle : heap'.lastHandle = mid.lastHandle)
    (expressions : heap'.expressions = mid.expressions) :
    Filling base heap' form' props' (taken ++ handed) := by
  have here : heap'.body? ⟨base.lastHandle + 1⟩ = some (form', props') := by rw [bodies, if_pos rfl]
  obtain ⟨refs, was⟩ := Heap.find?_of_body?
    ((wrote.more.body ⟨base.lastHandle + 1⟩ filling.later).trans filling.body)
  obtain ⟨refs', is⟩ := Heap.find?_of_body? here
  refine ⟨here, ?_, lastHandle ▸ Nat.le_trans filling.later wrote.more.lastHandle⟩
  refine (wrote.trans filling.grown sound ordered).move ordered ordered' was is (Nat.lt_succ_self _) ?_
    (fun x other => by rw [bodies, if_neg other]) names lastHandle expressions fun x inside => ?_
  · rw [Entry.contents_eq, Entry.contents_eq]
    exact values.flatMap_right Raw.handles
  · rcases wrote.root inside with there | new
    · exact .inl (List.mem_append_left _ there)
    · exact .inr (Nat.lt_of_le_of_lt filling.later new)

end Filling

/-! ## Arrays -/

section Fill

variable {base : Heap ρ}

/-- A reference that an object holds as well can be given back. -/
theorem Ready.released_raw {raw : Raw} (ready : Ready β failures builds limit gone w (raw.handles ++ owned))
    (global : Host.global ∈ owned) {h : Handle} {form : Form ρ} {props : Table HostId Raw}
    (body : w.host.heap.body? h = some (form, props)) (inside : raw ∈ props.values ++ form.elements) :
    w.host.heap.Alike (w.released raw.handles).host.heap ∧
      Ready β failures builds limit gone (w.released raw.handles) owned :=
  ready.released global fun _ held =>
    List.mem_append_left _ (Heap.mem_stored_of_body? body inside held)

theorem Ready.live_of_raw {raw : Raw}
    (ready : Ready β failures builds limit gone w (raw.handles ++ owned)) :
    ∀ h ∈ raw.handles, gone h ∨ ∃ e, w.host.heap.objects.find? h = some e :=
  fun _ inside =>
    ready.sound.live_of_mem (List.mem_append_right _ (List.mem_append_left _ inside))

/-- Copying an element, writing the copy and appending it. -/
def appendCopy (β : Behaviour ρ μ) (h : Handle) (push : HostId) (element : Writer ρ μ) :
    Run ρ μ Unit := do
  Run.retainAll element.handles
  appendElement β h push element

theorem pushElements_cons (h : Handle) (push : HostId) (element : Writer ρ μ)
    (rest : List (Writer ρ μ)) :
    pushElements β h push (element :: rest)
      = appendCopy β h push element >>= fun _ => pushElements β h push rest := by
  simp [pushElements, appendCopy, appendElement]

theorem filling_element {elements : List Raw} {done : List Value} {handed : List Handle}
    {element : Writer ρ μ} {v : Value}
    (filling : Filling base w.host.heap (.array elements.toArray) .empty handed)
    (stands : Stands builds (!failures.refusesWrites) w.host.heap (base.lastHandle + 1) elements done)
    (ready : Ready β failures builds limit gone w owned) (early : limit ≤ base.lastHandle) {push : HostId}
    (named : w.host.heap.names.text? push = some "push")
    (lays : Lays β failures builds limit element v) (owns : ∀ h ∈ element.handles, h ∈ owned) :
    ∃ raw w', (appendCopy β ⟨base.lastHandle + 1⟩ push element).outcome w = (.ok (), w') ∧
      Ready β failures builds limit gone w' owned ∧ w'.host.heap.names.text? push = some "push" ∧
      Filling base w'.host.heap (.array (elements ++ [raw]).toArray) .empty
        (v.handed builds (!failures.refusesWrites) ++ handed) ∧
      Stands builds (!failures.refusesWrites) w'.host.heap (base.lastHandle + 1) (elements ++ [raw])
        (done ++ [v]) := by
  have ready₁ := ready.retainAll owns
  have copied := Heap.alike_retainAll w.host.heap element.handles
  have filling₁ := filling.alike ready.sound.ordered ready₁.sound.ordered copied
  obtain ⟨raw, w₂, ran, ready₂, wrote, laid⟩ := lays.writes gone _ _ ready₁
    fun h inside => List.mem_append_left _ inside
  have body₂ := (wrote.more.body ⟨base.lastHandle + 1⟩ filling₁.later).trans filling₁.body
  have named₂ := wrote.more.names.text? (copied.names.text? named)
  have stands₂ := ((stands.alike copied).extended ready₁.sound wrote.more).append (laid.earlier filling₁.later)
  let heap₃ := (w₂.host.heap.pushAll ⟨base.lastHandle + 1⟩ [raw]).2
  have array : (w₂.host.heap.elements? ⟨base.lastHandle + 1⟩).isSome := by
    obtain ⟨refs, found⟩ := Heap.find?_of_body? body₂
    simp [Heap.elements?, found]
  have sound₃ : heap₃.Sound gone (raw.handles ++ (element.handles ++ owned)) :=
    ready₂.sound.pushAll (by simpa using ready₂.live_of_raw) array
  have bodies := Heap.body?_pushAll body₂ [raw]
  have names := w₂.host.heap.names_pushAll ⟨base.lastHandle + 1⟩ [raw]
  have last := w₂.host.heap.lastHandle_pushAll ⟨base.lastHandle + 1⟩ [raw]
  have stands₃ := stands₂.changed (Nat.le_refl (base.lastHandle + 1)) bodies names
  have filling₃ : Filling base heap₃ (.array (elements ++ [raw]).toArray) .empty
      (v.handed builds (!failures.refusesWrites) ++ handed) := by
    refine filling₁.take wrote ready₁.sound ready₂.sound.ordered sound₃.ordered ?_ ?_ names last
      (Heap.expressions_pushAll _ _ _)
    · simpa using bodies
    · simp [Form.elements, Table.values, Table.empty]
  have ready₃ : Ready β failures builds limit gone (w₂.withHeap heap₃)
      (raw.handles ++ (element.handles ++ owned)) :=
    ready₂.next ((Heap.extends_of_body? bodies names last).mono early) sound₃ rfl ready₂.global
  obtain ⟨alike₄, ready₄⟩ := ready₃.released_raw (List.mem_append_right _ ready.global) filling₃.body
    (by simp [Form.elements])
  obtain ⟨alike₅, ready₅⟩ := ready₄.released ready.global
    fun h inside => List.mem_append_right _ (owns h inside)
  refine ⟨raw, _, ?_, ready₅, ?_, ?_, (stands₃.alike alike₄).alike alike₅⟩
  · refine (Run.outcome_bind rfl).trans (Run.outcome_holding ((Run.outcome_bind ran).trans
      (Run.outcome_holding ?_)))
    rw [Run.outcome_bind (Run.outcome_invoke_push [raw] (callee?_push body₂ named₂)),
      Heap.handles_pushAll, Run.outcome_releaseAll, World.released_nil]
  · exact alike₅.names.text? (alike₄.names.text? (names ▸ named₂))
  · exact (filling₃.alike sound₃.ordered ready₄.sound.ordered alike₄).alike ready₄.sound.ordered
      ready₅.sound.ordered alike₅

theorem filling_pushElements {push : HostId} {ws : List (Writer ρ μ)} {vs : List Value}
    (lays : List.Forall₂ (Lays β failures builds limit) ws vs) {elements : List Raw} {done : List Value}
    {handed : List Handle} (filling : Filling base w.host.heap (.array elements.toArray) .empty handed)
    (stands : Stands builds (!failures.refusesWrites) w.host.heap (base.lastHandle + 1) elements done)
    (ready : Ready β failures builds limit gone w owned) (early : limit ≤ base.lastHandle)
    (named : w.host.heap.names.text? push = some "push")
    (owns : ∀ writer ∈ ws, ∀ h ∈ writer.handles, h ∈ owned) :
    ∃ w' elements', (pushElements β ⟨base.lastHandle + 1⟩ push ws).outcome w = (.ok (), w') ∧
      Ready β failures builds limit gone w' owned ∧
      Filling base w'.host.heap (.array elements'.toArray) .empty
        (vs.flatMap (Value.handed builds (!failures.refusesWrites)) ++ handed) ∧
      Stands builds (!failures.refusesWrites) w'.host.heap (base.lastHandle + 1) elements' (done ++ vs) := by
  induction lays generalizing w elements done handed with
  | nil => exact ⟨w, elements, rfl, ready, filling, by simpa using stands⟩
  | @cons element v ws vs lays _ ih =>
    obtain ⟨here, owns⟩ := List.forall_mem_cons.1 owns
    obtain ⟨raw, w₁, ran, ready₁, named₁, filling₁, stands₁⟩ :=
      filling_element filling stands ready early named lays here
    obtain ⟨w₂, elements', ran₂, ready₂, filling₂, stands₂⟩ := ih filling₁ stands₁ ready₁ named₁ owns
    refine ⟨w₂, elements', ?_, ready₂, filling₂.perm ?_, by simpa using stands₂⟩
    · rw [pushElements_cons]
      exact (Run.outcome_bind ran).trans ran₂
    · rw [List.flatMap_cons, List.append_assoc]
      exact List.perm_append_comm_assoc _ _ _

/-! ## Plain objects -/

/-- What a plain object took so far. -/
structure Takes (builds : Shape → Bool) (accepts : Bool) (heap : Heap ρ) (n : Nat)
    (props : Table HostId Raw) (fields : List (HostId × Raw)) (done : List (Identifier × Value)) : Prop where
  listed : props.entries.Perm fields
  keys : List.Forall₂ (fun f e => heap.names.Denotes f.1 e.1) fields done
  stands : Stands builds accepts heap n (fields.map (·.2)) (done.map (·.2))

section Takes

variable {accepts : Bool} {heap heap' : Heap ρ} {n : Nat} {props : Table HostId Raw}
  {fields : List (HostId × Raw)} {done : List (Identifier × Value)}

theorem Takes.alike (takes : Takes builds accepts heap n props fields done) (alike : heap.Alike heap') :
    Takes builds accepts heap' n props fields done :=
  ⟨takes.listed, takes.keys.imp fun _ _ => alike.names.denotes, takes.stands.alike alike⟩

theorem Takes.extended (takes : Takes builds accepts heap n props fields done)
    (sound : heap.Sound gone owned) (more : heap'.Extends heap.lastHandle heap) :
    Takes builds accepts heap' n props fields done :=
  ⟨takes.listed, takes.keys.imp fun _ _ => more.names.denotes, takes.stands.extended sound more⟩

/-- One property more, which was not there. -/
theorem Takes.insert (takes : Takes builds accepts heap n props fields done) (sorted : props.Sorted)
    {key : HostId} (absent : props.find? key = none) {id : Identifier}
    (denotes : heap.names.Denotes key id) {raw : Raw} {v : Value}
    (stands : Stands builds accepts heap n [raw] [v]) :
    Takes builds accepts heap n (props.insert key raw) (fields ++ [(key, raw)]) (done ++ [(id, v)]) := by
  have inserted := Table.perm_insert sorted key raw
  rw [Table.erase_of_absent absent] at inserted
  refine ⟨?_, List.rel_append takes.keys (.cons denotes .nil), ?_⟩
  · exact (inserted.trans (takes.listed.cons _)).trans (List.perm_append_singleton _ _).symm
  · rw [List.map_append, List.map_append]
    exact takes.stands.append stands

/-- The object itself changed. -/
theorem Takes.changed (takes : Takes builds accepts heap n props fields done)
    {body : Form ρ × Table HostId Raw}
    (bodies : ∀ h, heap'.body? h = if h = ⟨n⟩ then some body else heap.body? h)
    (names : heap'.names = heap.names) : Takes builds accepts heap' n props fields done :=
  ⟨takes.listed, names ▸ takes.keys, takes.stands.changed (Nat.le_refl n) bodies names⟩

end Takes

/-- A value that was written but not taken is gone with the reference to it. -/
theorem quiet_released {mid : Heap ρ} {hs taken : List Handle}
    (wrote : Heap.Grown base mid hs taken) (was : base.Sound gone owned)
    (sound : mid.Sound gone (hs ++ owned)) (early : ∀ x ∈ taken, x.number ≤ base.lastHandle) :
    base.Quiet (mid.releaseAll hs) where
  objects := Table.ext_find? sound.releaseAll.ordered.objects was.ordered.objects
    (wrote.released was sound early)
  names := mid.names_releaseAll hs ▸ wrote.more.names
  expressions := (mid.expressions_releaseAll hs).trans wrote.expressions
  lastHandle := mid.lastHandle_releaseAll hs ▸ wrote.more.lastHandle

theorem filling_property {props : Table HostId Raw} {fields : List (HostId × Raw)}
    {done : List (Identifier × Value)} {handed : List Handle} {value : Writer ρ μ} {v : Value}
    (filling : Filling base w.host.heap .plain props handed)
    (takes : Takes builds (!failures.refusesWrites) w.host.heap (base.lastHandle + 1) props fields done)
    {id : Identifier} (new : ∀ e ∈ done, e.1 ≠ id)
    (ready : Ready β failures builds limit gone w owned) (early : limit ≤ base.lastHandle)
    (lays : Lays β failures builds limit value v) (owns : ∀ h ∈ value.handles, h ∈ owned) :
    ∃ props' fields' w', (writeProperty ⟨base.lastHandle + 1⟩ id value).outcome w = (.ok (), w') ∧
      Ready β failures builds limit gone w' owned ∧
      Takes builds (!failures.refusesWrites) w'.host.heap (base.lastHandle + 1) props' fields'
        (done ++ taken (!failures.refusesWrites) [(id, v)]) ∧
      Filling base w'.host.heap .plain props'
        ((if failures.refusesWrites then [] else v.handed builds (!failures.refusesWrites)) ++ handed) := by
  obtain ⟨raw, w₁, ran, ready₁, wrote, laid⟩ := lays.writes gone _ _ ready owns
  let names := w₁.host.heap.names.ofIdentifier id
  have known : names.2.Extends w₁.host.heap.names := Names.extends_ofIdentifier _ id
  have denotes : names.2.Denotes names.1 id := Names.denotes_ofIdentifier _ id
  let w₂ := w₁.withHeap { w₁.host.heap with names := names.2 }
  have ready₂ : Ready β failures builds limit gone w₂ (raw.handles ++ owned) := ready₁.intern known
  have wrote₂ := wrote.quiet (Heap.quiet_withNames _ known)
  have takes₂ := takes.extended ready.sound wrote₂.more
  have laid₂ := (laid.earlier filling.later).alike (Heap.alike_withNames _ known)
  have body₂ := (wrote₂.more.body ⟨base.lastHandle + 1⟩ filling.later).trans filling.body
  -- The write itself ends well, whether the host refuses it or not.
  have outcome {w₃ : World ρ μ} {accepted : Bool}
      (set : (Run.onHost (Host.setProperty ⟨base.lastHandle + 1⟩ names.1 raw) : Run ρ μ Bool).outcome w₂
        = (.ok accepted, w₃)) :
      (writeProperty ⟨base.lastHandle + 1⟩ id value).outcome w = (.ok (), w₃.released raw.handles) :=
    (Run.outcome_bind ran).trans (Run.outcome_holding
      ((Run.outcome_bind (Run.outcome_onHost _)).trans ((Run.outcome_bind set).trans rfl)))
  have answer : (Run.onHost (Host.setProperty ⟨base.lastHandle + 1⟩ names.1 raw) : Run ρ μ Bool).outcome w₂
      = if w₂.host.failures.refusesWrites then (.ok false, w₂)
        else (.ok (w₂.host.heap.store ⟨base.lastHandle + 1⟩ names.1 raw).1,
          w₂.withHeap (w₂.host.heap.store ⟨base.lastHandle + 1⟩ names.1 raw).2) := by
    rw [Run.outcome_onHost, Host.run_setProperty]
    split <;> rfl
  rw [ready₂.switched] at answer
  cases refused : failures.refusesWrites with
  | true =>
    rw [refused, if_pos rfl] at answer
    have quiet := quiet_released wrote₂ ready.sound ready₂.sound fun x inside =>
      ready.early (owns x (lays.holds x inside))
    refine ⟨props, fields, _, outcome answer, ready.next (quiet.extended limit) ready₂.sound.releaseAll
      (ready₂.switched.trans ready.switched.symm) ready.global, ?_, filling.quiet quiet⟩
    have nothing : done ++ taken (!true) [(id, v)] = done := List.append_nil done
    rw [refused] at takes
    rw [nothing]
    exact takes.extended ready.sound (quiet.extended _)
  | false =>
    rw [refused, if_neg Bool.false_ne_true] at answer
    have absent := find?_of_new takes₂.listed takes₂.keys denotes new
    let heap₃ := (w₂.host.heap.store ⟨base.lastHandle + 1⟩ names.1 raw).2
    have bodies := Heap.body?_store body₂ absent raw
    have same := w₂.host.heap.names_store ⟨base.lastHandle + 1⟩ names.1 raw
    have last := w₂.host.heap.lastHandle_store ⟨base.lastHandle + 1⟩ names.1 raw
    have sound₃ : heap₃.Sound gone (raw.handles ++ owned) :=
      ready₂.sound.store ready₂.live_of_raw ⟨base.lastHandle + 1⟩ names.1
    have sorted : props.Sorted := by
      obtain ⟨refs, found⟩ := Heap.find?_of_body? body₂
      exact ready₂.sound.ordered.props found
    have inserted : (props.insert names.1 raw).values.Perm (raw :: props.values) := by
      have perm := (Table.perm_insert sorted names.1 raw).map (·.2)
      rwa [Table.erase_of_absent absent] at perm
    have filling₃ : Filling base heap₃ .plain (props.insert names.1 raw)
        (v.handed builds (!failures.refusesWrites) ++ handed) :=
      filling.take wrote₂ ready.sound ready₂.sound.ordered sound₃.ordered bodies
        (by simpa [Form.elements] using inserted) same last (Heap.expressions_store _ _ _ _)
    have takes₃ := (takes₂.insert sorted absent denotes laid₂).changed bodies same
    have ready₃ : Ready β failures builds limit gone (w₂.withHeap heap₃) (raw.handles ++ owned) :=
      ready₂.next ((Heap.extends_of_body? bodies same last).mono early) sound₃ rfl ready₂.global
    obtain ⟨alike₄, ready₄⟩ := ready₃.released_raw ready.global filling₃.body
      (List.mem_append_left _ (inserted.mem_iff.2 List.mem_cons_self))
    have filling₄ := filling₃.alike sound₃.ordered ready₄.sound.ordered alike₄
    rw [refused] at takes₃ filling₄
    exact ⟨_, _, _, outcome answer, ready₄, takes₃.alike alike₄, filling₄⟩

/-- How to write the entries of a bag. -/
def LaysEntry (β : Behaviour ρ μ) (failures : Failures) (builds : Shape → Bool) (limit : Nat)
    (writer : Identifier × Writer ρ μ) (e : Identifier × Value) : Prop :=
  writer.1 = e.1 ∧ Lays β failures builds limit writer.2 e.2

theorem filling_writeProperties {ws : List (Identifier × Writer ρ μ)} {es : List (Identifier × Value)}
    (lays : List.Forall₂ (LaysEntry β failures builds limit) ws es) {props : Table HostId Raw}
    {fields : List (HostId × Raw)} {done : List (Identifier × Value)} {handed : List Handle}
    (filling : Filling base w.host.heap .plain props handed)
    (takes : Takes builds (!failures.refusesWrites) w.host.heap (base.lastHandle + 1) props fields done)
    (new : ∀ e ∈ es, ∀ d ∈ done, d.1 ≠ e.1) (different : es.Pairwise fun d e => d.1 ≠ e.1)
    (ready : Ready β failures builds limit gone w owned) (early : limit ≤ base.lastHandle)
    (owns : ∀ writer ∈ ws, ∀ h ∈ writer.2.handles, h ∈ owned) :
    ∃ w' props' fields', (writeProperties ⟨base.lastHandle + 1⟩ ws).outcome w = (.ok (), w') ∧
      Ready β failures builds limit gone w' owned ∧
      Takes builds (!failures.refusesWrites) w'.host.heap (base.lastHandle + 1) props' fields'
        (done ++ taken (!failures.refusesWrites) es) ∧
      Filling base w'.host.heap .plain props'
        (Value.handedBy (!failures.refusesWrites) .plain
          (Value.handedEntries builds (!failures.refusesWrites) es) ++ handed) := by
  induction lays generalizing w props fields done handed with
  | nil =>
    refine ⟨w, props, fields, rfl, ready, by simpa [taken] using takes, filling.perm ?_⟩
    simp [Value.handedBy, Value.handedEntries]
  | @cons writer e ws es first _ ih =>
    obtain ⟨id, value⟩ := writer
    obtain ⟨same, lays⟩ := first
    obtain ⟨id', v⟩ := e
    obtain rfl : id = id' := same
    obtain ⟨here, owns⟩ := List.forall_mem_cons.1 owns
    obtain ⟨unused, new⟩ := List.forall_mem_cons.1 new
    obtain ⟨other, different⟩ := List.pairwise_cons.1 different
    obtain ⟨props₁, fields₁, w₁, ran, ready₁, takes₁, filling₁⟩ :=
      filling_property filling takes unused ready early lays here
    have new₁ : ∀ e ∈ es, ∀ d ∈ done ++ taken (!failures.refusesWrites) [(id, v)], d.1 ≠ e.1 := by
      intro e there d inside
      rcases List.mem_append.1 inside with before | now
      · exact new e there d before
      · have is : d = (id, v) := by
          unfold taken at now
          split at now
          · exact List.mem_singleton.1 now
          · cases now
        exact is ▸ other e there
    obtain ⟨w₂, props₂, fields₂, ran₂, ready₂, takes₂, filling₂⟩ :=
      ih filling₁ takes₁ new₁ different ready₁ owns
    refine ⟨w₂, props₂, fields₂, ?_, ready₂, ?_, filling₂.perm ?_⟩
    · rw [writeProperties_cons]
      exact (Run.outcome_bind ran).trans ran₂
    · rwa [taken_cons, ← List.append_assoc]
    · simp only [Value.handedBy, Value.handedEntries]
      cases failures.refusesWrites
      · simpa using List.perm_append_comm_assoc _ _ _
      · exact .refl _

end Fill

end Marshal

end ScriptBoundary
