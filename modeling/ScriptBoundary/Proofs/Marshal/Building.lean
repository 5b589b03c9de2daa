import ScriptBoundary.Marshal.Write
import ScriptBoundary.Proofs.Host.EntryPoints
import ScriptBoundary.Proofs.Invocation
import ScriptBoundary.Proofs.Marshal.Holding

/-!
Writing a value builds it. On a host that constructs objects and refuses nothing, writing ends well;
what was there before is as it was, and the heap holds the value in new objects.
-/

namespace ScriptBoundary

variable {ρ μ α : Type}

namespace Marshal

/-- The global object hides no constructor, whatever names come to be known. -/
def Constructs (heap : Heap ρ) : Prop :=
  ∀ names : Names, names.Extends heap.names → ∀ form props,
    heap.body? Host.global = some (form, props) →
      ∀ shape id, names.text? id = some (constructorName shape) → ∀ f, props.find? id ≠ some (.object f)

/-- The name of a constructor is no index and no length. -/
theorem lookup_constructorName {heap : Heap ρ} {h : Handle} {form : Form ρ}
    {props : Table HostId Raw} (body : heap.body? h = some (form, props)) {shape : Shape} {id : HostId}
    (named : heap.names.text? id = some (constructorName shape)) :
    heap.lookup h id = props.find? id := by
  obtain ⟨refs, found⟩ := Heap.find?_of_body? body
  have name : id.isName := Names.isName_of_text? named
  have other : constructorName shape ≠ "length" := by cases shape <;> decide
  cases form with
  | array elements => simp [Heap.lookup, found, HostId.elementIndex?, name, named, other]
  | _ => simp [Heap.lookup, found]

/-- Under the name of a constructor the global object offers it, unless another object stands there. -/
theorem callee?_global {heap : Heap ρ} {form : Form ρ} {props : Table HostId Raw}
    (body : heap.body? Host.global = some (form, props)) {shape : Shape} {id : HostId}
    (named : heap.names.text? id = some (constructorName shape)) :
    heap.callee? Host.global id = match props.find? id with
      | some (.object f) => (heap.code? f).map (.function f)
      | _ => some (.construct shape) := by
  obtain ⟨refs, found⟩ := Heap.find?_of_body? body
  have known : (if some (constructorName shape) = some "Array" then some (Callee.construct .array)
      else if some (constructorName shape) = some "Object" then some (.construct .plain)
      else none : Option (Callee ρ)) = some (.construct shape) := by
    cases shape <;> rfl
  have noPush : ¬ ((heap.elements? Host.global).isSome
      && decide (some (constructorName shape) = some "push")) = true := by
    cases shape <;> simp [constructorName]
  simp only [Heap.callee?, found, named, if_neg noPush, lookup_constructorName body named]
  cases props.find? id with
  | none => simpa using known
  | some raw =>
    cases raw with
    | scalar s => simpa using known
    | object f => rfl

/-- A world in which values can be built. -/
structure Fit (gone : Handle → Prop) (w : World ρ μ) (owned : List Handle) : Prop where
  sound : w.host.heap.Sound gone owned
  failures : w.host.failures = .none
  global : Host.global ∈ owned
  lives : ¬ gone Host.global
  constructs : Constructs w.host.heap

namespace Fit

variable {gone : Handle → Prop} {w w' : World ρ μ} {owned owned' : List Handle}

theorem find_global (fit : Fit gone w owned) : ∃ e, w.host.heap.objects.find? Host.global = some e :=
  (fit.sound.live_of_mem (List.mem_append_right _ fit.global)).resolve_left fit.lives

theorem issued_global (fit : Fit gone w owned) : w.host.heap.Issued Host.global := by
  obtain ⟨e, found⟩ := fit.find_global
  exact fit.sound.issued found

/-- A world stays fit as long as the global object and the failures do not change. -/
theorem withHeap (fit : Fit gone w owned) {heap : Heap ρ} {n : Nat} (more : heap.Extends n w.host.heap)
    (early : 1 ≤ n) (sound : heap.Sound gone owned') (global : Host.global ∈ owned') :
    Fit gone (w.withHeap heap) owned' where
  sound := sound
  failures := fit.failures
  global := global
  lives := fit.lives
  constructs := by
    intro names known form props body
    rw [World.withHeap, more.body Host.global early] at body
    exact fit.constructs names (known.trans more.names) form props body

theorem perm (fit : Fit gone w owned) (perm : owned.Perm owned') : Fit gone w owned' :=
  { fit with sound := fit.sound.perm perm, global := perm.mem_iff.1 fit.global }

theorem first (fit : Fit gone w owned) : 1 ≤ w.host.heap.lastHandle := fit.issued_global.2

/-- References that are not the last ones can be given back. -/
theorem released {hs : List Handle} (fit : Fit gone w (hs ++ owned)) (global : Host.global ∈ owned)
    (held : ∀ h ∈ hs, h ∈ w.host.heap.stored ++ owned) :
    w.host.heap.Alike (w.released hs).host.heap ∧ Fit gone (w.released hs) owned := by
  have alike := fit.sound.alike_releaseAll held
  exact ⟨alike, fit.withHeap (alike.extended 1) (Nat.le_refl 1) fit.sound.releaseAll global⟩

/-- A reference that an object holds as well can be given back. -/
theorem released_raw {raw : Raw} (fit : Fit gone w (raw.handles ++ owned))
    (global : Host.global ∈ owned) {h : Handle} {form : Form ρ} {props : Table HostId Raw}
    (body : w.host.heap.body? h = some (form, props)) (inside : raw ∈ props.values ++ form.elements) :
    w.host.heap.Alike (w.released raw.handles).host.heap ∧ Fit gone (w.released raw.handles) owned :=
  fit.released global fun _ held =>
    List.mem_append_left _ (Heap.mem_stored_of_body? body inside held)

theorem callee?_constructor (fit : Fit gone w owned) {shape : Shape} {id : HostId}
    (named : w.host.heap.names.text? id = some (constructorName shape)) :
    w.host.heap.callee? Host.global id = some (.construct shape) := by
  obtain ⟨⟨refs, form, props⟩, found⟩ := fit.find_global
  have body : w.host.heap.body? Host.global = some (form, props) := by rw [Heap.body?, found]; rfl
  have free := fit.constructs _ (.refl _) form props body shape id named
  rw [callee?_global body named]
  split
  next f hidden => exact absurd hidden (free f)
  next => rfl

end Fit

/-- An operation that builds a value. -/
def Builds (op : Run ρ μ Raw) (v : Value) : Prop :=
  ∀ gone w owned, Fit gone w owned → ∃ raw w', op.outcome w = (.ok raw, w') ∧
    Fit gone w' (raw.handles ++ owned) ∧
    w'.host.heap.Extends w.host.heap.lastHandle w.host.heap ∧
    Holds w'.host.heap w.host.heap.lastHandle w'.host.heap.lastHandle [raw] [v]

/-- How to write a value that holds no references. -/
structure Writes (writer : Writer ρ μ) (v : Value) : Prop where
  handles : writer.handles = []
  builds : Builds writer.write v

/-! ## Arrays -/

theorem callee?_push {heap : Heap ρ} {h : Handle} {elements : Array Raw} {props : Table HostId Raw}
    {push : HostId} (array : heap.body? h = some (.array elements, props))
    (named : heap.names.text? push = some "push") : heap.callee? h push = some .push := by
  obtain ⟨refs, found⟩ := Heap.find?_of_body? array
  simp [Heap.callee?, Heap.elements?, found, named]

/-- An array that is being filled. Its elements so far lie in the objects after it. -/
structure FillsArray (heap : Heap ρ) (n : Nat) (elements : List Raw) (vs : List Value) : Prop where
  body : heap.body? ⟨n + 1⟩ = some (.array elements.toArray, .empty)
  holds : Holds heap (n + 1) heap.lastHandle elements vs

theorem FillsArray.alike {heap heap' : Heap ρ} {n : Nat} {elements : List Raw} {vs : List Value}
    (fills : FillsArray heap n elements vs) (alike : heap.Alike heap') :
    FillsArray heap' n elements vs :=
  ⟨(alike.objects _).trans fills.body, alike.lastHandle ▸ fills.holds.alike alike⟩

variable {β : Behaviour ρ μ} {gone : Handle → Prop} {w w' : World ρ μ} {owned : List Handle} {n : Nat}

theorem live_of_raw {raw : Raw} (fit : Fit gone w (raw.handles ++ owned)) :
    ∀ h ∈ raw.handles, gone h ∨ ∃ e, w.host.heap.objects.find? h = some e :=
  fun _ inside => fit.sound.live_of_mem (List.mem_append_right _ (List.mem_append_left _ inside))

/-- Appending an element that was written. -/
theorem FillsArray.push {elements : List Raw} {vs : List Value} {raw : Raw}
    (body : w.host.heap.body? ⟨n + 1⟩ = some (.array elements.toArray, .empty))
    (holds : Holds w.host.heap (n + 1) w.host.heap.lastHandle (elements ++ [raw]) vs)
    (fit : Fit gone w (raw.handles ++ owned)) (global : Host.global ∈ owned) (first : 1 ≤ n) :
    let w' := (w.withHeap (w.host.heap.pushAll ⟨n + 1⟩ [raw]).2).released raw.handles
    Fit gone w' owned ∧ w'.host.heap.Extends n w.host.heap ∧
      FillsArray w'.host.heap n (elements ++ [raw]) vs := by
  have array : (w.host.heap.elements? ⟨n + 1⟩).isSome := by
    obtain ⟨refs, found⟩ := Heap.find?_of_body? body
    simp [Heap.elements?, found]
  have bodies := Heap.body?_pushAll body [raw]
  have names := w.host.heap.names_pushAll ⟨n + 1⟩ [raw]
  have last := w.host.heap.lastHandle_pushAll ⟨n + 1⟩ [raw]
  have pushed := Heap.extends_of_body? bodies names last
  have sound : (w.host.heap.pushAll ⟨n + 1⟩ [raw]).2.Sound gone (raw.handles ++ owned) :=
    fit.sound.pushAll (by simpa using live_of_raw fit) array
  have filled : FillsArray (w.host.heap.pushAll ⟨n + 1⟩ [raw]).2 n (elements ++ [raw]) vs := by
    refine ⟨?_, last ▸ holds.changed bodies names⟩
    rw [bodies, if_pos rfl]
    simp
  obtain ⟨alike, fit'⟩ := (fit.withHeap pushed first sound
    (List.mem_append_right _ global)).released_raw global filled.body (by simp [Form.elements])
  exact ⟨fit', (alike.extended n).trans pushed, filled.alike alike⟩

/-- Writing an element and appending it. -/
def appendElement (β : Behaviour ρ μ) (h : Handle) (push : HostId) (element : Writer ρ μ) :
    Run ρ μ Unit :=
  Run.holding element.handles do
    let raw ← element.write
    Run.holding raw.handles do
      let answer ← Run.invoke β h push [raw]
      Run.releaseAll (answer.elim [] Raw.handles)

theorem FillsArray.element {elements : List Raw} {vs : List Value}
    (fills : FillsArray w.host.heap n elements vs) (fit : Fit gone w owned) (first : 1 ≤ n)
    {push : HostId} (named : w.host.heap.names.text? push = some "push") {element : Writer ρ μ}
    {v : Value} (writes : Writes element v) :
    ∃ raw w', (appendElement β ⟨n + 1⟩ push element).outcome w = (.ok (), w') ∧
      Fit gone w' owned ∧ w'.host.heap.Extends n w.host.heap ∧
      FillsArray w'.host.heap n (elements ++ [raw]) (vs ++ [v]) := by
  obtain ⟨raw, w₁, ran, fit₁, more, written⟩ := writes.builds gone w owned fit
  have early : n + 1 ≤ w.host.heap.lastHandle := fills.holds.le
  have body : w₁.host.heap.body? ⟨n + 1⟩ = some (.array elements.toArray, .empty) :=
    (more.body ⟨n + 1⟩ early).trans fills.body
  have holds := (fills.holds.extended more).append written
  have pushed := FillsArray.push body holds fit₁ fit.global first
  refine ⟨raw, _, ?_, pushed.1, pushed.2.1.trans (more.mono (Nat.le_of_succ_le early)), pushed.2.2⟩
  have called := callee?_push body (more.names.text? named)
  rw [appendElement, writes.handles, ← World.released_nil (World.released _ raw.handles)]
  refine Run.outcome_holding ((Run.outcome_bind ran).trans (Run.outcome_holding ?_))
  rw [Run.outcome_bind (Run.outcome_invoke_push [raw] called), Heap.handles_pushAll,
    Run.outcome_releaseAll, World.released_nil]

theorem fills_pushElements {push : HostId} {ws : List (Writer ρ μ)} {vs : List Value}
    (writes : List.Forall₂ Writes ws vs) {elements : List Raw} {done : List Value}
    (fills : FillsArray w.host.heap n elements done) (fit : Fit gone w owned) (first : 1 ≤ n)
    (named : w.host.heap.names.text? push = some "push") :
    ∃ w' more, (pushElements β ⟨n + 1⟩ push ws).outcome w = (.ok (), w') ∧
      Fit gone w' owned ∧ w'.host.heap.Extends n w.host.heap ∧
      FillsArray w'.host.heap n (elements ++ more) (done ++ vs) := by
  induction writes generalizing w elements done with
  | nil => exact ⟨w, [], rfl, fit, .refl _, by simpa using fills⟩
  | @cons element v ws vs writes _ ih =>
    obtain ⟨raw, w₁, ran, fit₁, more₁, fills₁⟩ := fills.element fit first named writes (β := β)
    obtain ⟨w₂, more, ran₂, fit₂, more₂, fills₂⟩ := ih fills₁ fit₁ (more₁.names.text? named)
    refine ⟨w₂, raw :: more, ?_, fit₂, more₂.trans more₁, by simpa using fills₂⟩
    have copied : Run.outcome (Run.retainAll element.handles : Run ρ μ Unit) w = (.ok (), w) := by
      rw [writes.handles]
      rfl
    rw [pushElements, Run.outcome_bind copied]
    exact (Run.outcome_bind ran).trans ran₂

/-! ## Plain objects -/

/-- A plain object that is being filled. -/
structure FillsPlain (heap : Heap ρ) (n : Nat) (fields : List (HostId × Raw))
    (entries : List (Identifier × Value)) : Prop where
  body : ∃ props, heap.body? ⟨n + 1⟩ = some (.plain, props) ∧ props.entries.Perm fields
  keys : List.Forall₂ (fun f e => heap.names.Denotes f.1 e.1) fields entries
  holds : Holds heap (n + 1) heap.lastHandle (fields.map (·.2)) (entries.map (·.2))

theorem FillsPlain.alike {heap heap' : Heap ρ} {fields : List (HostId × Raw)}
    {entries : List (Identifier × Value)} (fills : FillsPlain heap n fields entries)
    (alike : heap.Alike heap') : FillsPlain heap' n fields entries where
  body := fills.body.imp fun _ => And.imp_left (alike.objects _).trans
  keys := fills.keys.imp fun _ _ => alike.names.denotes
  holds := alike.lastHandle ▸ fills.holds.alike alike

/-- No property stands under the identifier of a new one. -/
theorem find?_of_new {names : Names} {props : Table HostId Raw} {fields : List (HostId × Raw)}
    {entries : List (Identifier × Value)} (listed : props.entries.Perm fields)
    (keys : List.Forall₂ (fun f e => names.Denotes f.1 e.1) fields entries) {key : HostId}
    {id : Identifier} (denotes : names.Denotes key id) (new : ∀ e ∈ entries, e.1 ≠ id) :
    props.find? key = none := by
  refine Table.find?_eq_none_iff.2 fun f inside same => ?_
  obtain ⟨e, there, denoted⟩ := exists_of_mem_left keys (listed.mem_iff.1 inside)
  exact new e there (denoted.unique (same ▸ denotes))

/-- Writing a property whose value was written. -/
theorem FillsPlain.write {fields : List (HostId × Raw)} {entries : List (Identifier × Value)}
    {key : HostId} {raw : Raw} {id : Identifier} {v : Value} {props : Table HostId Raw}
    (body : w.host.heap.body? ⟨n + 1⟩ = some (.plain, props)) (listed : props.entries.Perm fields)
    (keys : List.Forall₂ (fun f e => w.host.heap.names.Denotes f.1 e.1) fields entries)
    (holds : Holds w.host.heap (n + 1) w.host.heap.lastHandle (fields.map (·.2) ++ [raw])
      (entries.map (·.2) ++ [v]))
    (denotes : w.host.heap.names.Denotes key id) (new : ∀ e ∈ entries, e.1 ≠ id)
    (fit : Fit gone w (raw.handles ++ owned)) (global : Host.global ∈ owned) (first : 1 ≤ n) :
    let w' := (w.withHeap (w.host.heap.store ⟨n + 1⟩ key raw).2).released raw.handles
    Fit gone w' owned ∧ w'.host.heap.Extends n w.host.heap ∧
      FillsPlain w'.host.heap n (fields ++ [(key, raw)]) (entries ++ [(id, v)]) := by
  have absent := find?_of_new listed keys denotes new
  have bodies := Heap.body?_store body absent raw
  have names := w.host.heap.names_store ⟨n + 1⟩ key raw
  have last := w.host.heap.lastHandle_store ⟨n + 1⟩ key raw
  have stored := Heap.extends_of_body? bodies names last
  have sound : (w.host.heap.store ⟨n + 1⟩ key raw).2.Sound gone (raw.handles ++ owned) :=
    fit.sound.store (live_of_raw fit) ⟨n + 1⟩ key
  have sorted : props.Sorted := by
    obtain ⟨refs, found⟩ := Heap.find?_of_body? body
    exact fit.sound.ordered.props found
  have inserted : (props.insert key raw).entries.Perm ((key, raw) :: props.entries) := by
    have perm := Table.perm_insert sorted key raw
    rwa [Table.erase_of_absent absent] at perm
  have here : (w.host.heap.store ⟨n + 1⟩ key raw).2.body? ⟨n + 1⟩
      = some (.plain, props.insert key raw) := by rw [bodies, if_pos rfl]
  have filled : FillsPlain (w.host.heap.store ⟨n + 1⟩ key raw).2 n (fields ++ [(key, raw)])
      (entries ++ [(id, v)]) := by
    refine ⟨⟨_, here, ?_⟩, ?_, ?_⟩
    · exact (inserted.trans (listed.cons _)).trans (List.perm_append_singleton _ _).symm
    · rw [names]
      exact List.rel_append keys (.cons denotes .nil)
    · rw [last, List.map_append, List.map_append]
      exact holds.changed bodies names
  have inside : raw ∈ (props.insert key raw).values ++ (Form.plain : Form ρ).elements := by
    refine List.mem_append_left _ (List.mem_map.2 ⟨(key, raw), ?_, rfl⟩)
    exact inserted.mem_iff.2 List.mem_cons_self
  obtain ⟨alike, fit'⟩ := (fit.withHeap stored first sound
    (List.mem_append_right _ global)).released_raw global here inside
  exact ⟨fit', (alike.extended n).trans stored, filled.alike alike⟩

/-- Writing a property. -/
def writeProperty (h : Handle) (id : Identifier) (value : Writer ρ μ) : Run ρ μ Unit := do
  let raw ← value.write
  Run.holding raw.handles do
    let id ← Run.onHost (Host.idOf id)
    let _ ← Run.onHost (Host.setProperty h id raw)

theorem writeProperties_cons (h : Handle) (id : Identifier) (value : Writer ρ μ)
    (rest : List (Identifier × Writer ρ μ)) :
    writeProperties h ((id, value) :: rest)
      = writeProperty h id value >>= fun _ => writeProperties h rest := by
  simp [writeProperties, writeProperty]

theorem FillsPlain.property {fields : List (HostId × Raw)} {entries : List (Identifier × Value)}
    (fills : FillsPlain w.host.heap n fields entries) (fit : Fit gone w owned) (first : 1 ≤ n)
    {id : Identifier} (new : ∀ e ∈ entries, e.1 ≠ id) {value : Writer ρ μ} {v : Value}
    (writes : Writes value v) :
    ∃ field w', (writeProperty ⟨n + 1⟩ id value).outcome w = (.ok (), w') ∧ Fit gone w' owned ∧
      w'.host.heap.Extends n w.host.heap ∧
      FillsPlain w'.host.heap n (fields ++ [field]) (entries ++ [(id, v)]) := by
  obtain ⟨raw, w₁, ran, fit₁, more, written⟩ := writes.builds gone w owned fit
  obtain ⟨props, body, listed⟩ := fills.body
  have early : n + 1 ≤ w.host.heap.lastHandle := fills.holds.le
  -- The identifier is interned once the value is written.
  let names := w₁.host.heap.names.ofIdentifier id
  let w₂ := w₁.withHeap { w₁.host.heap with names := names.2 }
  have known : w₁.host.heap.Alike w₂.host.heap :=
    Heap.alike_withNames _ (Names.extends_ofIdentifier _ id)
  have body₂ : w₂.host.heap.body? ⟨n + 1⟩ = some (.plain, props) :=
    (more.body ⟨n + 1⟩ early).trans body
  have keys₂ := fills.keys.imp fun _ _ denotes => known.names.denotes (more.names.denotes denotes)
  have holds₂ := ((fills.holds.extended more).append written).alike known
  have fit₂ : Fit gone w₂ (raw.handles ++ owned) :=
    fit₁.withHeap (known.extended 1) (Nat.le_refl 1) (fit₁.sound.withNames _) fit₁.global
  obtain ⟨fit₃, more₃, fills₃⟩ := FillsPlain.write body₂ listed keys₂ holds₂
    (Names.denotes_ofIdentifier _ id) new fit₂ fit.global first
  refine ⟨(names.1, raw), _, ?_, fit₃, ?_, fills₃⟩
  · refine (Run.outcome_bind ran).trans (Run.outcome_holding ?_)
    have stored : Run.outcome (Run.onHost (Host.setProperty ⟨n + 1⟩ names.1 raw) : Run ρ μ Bool) w₂
        = (.ok (w₂.host.heap.store ⟨n + 1⟩ names.1 raw).1,
          w₂.withHeap (w₂.host.heap.store ⟨n + 1⟩ names.1 raw).2) := by
      have accepts : w₂.host.failures.refusesWrites = false := congrArg _ fit₂.failures
      rw [Run.outcome_onHost, Host.run_setProperty, accepts]
      rfl
    exact (Run.outcome_bind (Run.outcome_onHost _)).trans ((Run.outcome_bind stored).trans rfl)
  · exact more₃.trans ((known.extended n).trans (more.mono (Nat.le_of_succ_le early)))

/-- How to write the entries of a bag. -/
def WritesEntry (writer : Identifier × Writer ρ μ) (e : Identifier × Value) : Prop :=
  writer.1 = e.1 ∧ Writes writer.2 e.2

theorem fills_writeProperties {ws : List (Identifier × Writer ρ μ)} {es : List (Identifier × Value)}
    (writes : List.Forall₂ WritesEntry ws es) {fields : List (HostId × Raw)}
    {done : List (Identifier × Value)} (fills : FillsPlain w.host.heap n fields done)
    (new : (done ++ es).Pairwise fun d e => d.1 ≠ e.1) (fit : Fit gone w owned) (first : 1 ≤ n) :
    ∃ w' more, (writeProperties ⟨n + 1⟩ ws).outcome w = (.ok (), w') ∧ Fit gone w' owned ∧
      w'.host.heap.Extends n w.host.heap ∧ FillsPlain w'.host.heap n (fields ++ more) (done ++ es) := by
  induction writes generalizing w fields done with
  | nil => exact ⟨w, [], rfl, fit, .refl _, by simpa using fills⟩
  | @cons writer e ws es writes _ ih =>
    obtain ⟨id, value⟩ := writer
    obtain ⟨same, writes⟩ := writes
    obtain ⟨id', v⟩ := e
    obtain rfl : id = id' := same
    have fresh : ∀ d ∈ done, d.1 ≠ id := fun d inside =>
      (List.pairwise_append.1 new).2.2 d inside _ List.mem_cons_self
    obtain ⟨field, w₁, ran, fit₁, more₁, fills₁⟩ := fills.property fit first fresh writes
    have new₁ : (done ++ [(id, v)] ++ es).Pairwise fun d e => d.1 ≠ e.1 := by simpa using new
    obtain ⟨w₂, more, ran₂, fit₂, more₂, fills₂⟩ := ih fills₁ new₁ fit₁
    refine ⟨w₂, field :: more, ?_, fit₂, more₂.trans more₁, by simpa using fills₂⟩
    rw [writeProperties_cons]
    exact (Run.outcome_bind ran).trans ran₂

/-! ## Values -/

section Elements

variable {α γ : Type} {R : α → γ → Prop} {hole : α} {hole' : γ} (holes : R hole hole')
  {as : List (Identifier × α)} {cs : List (Identifier × γ)}
  (related : List.Forall₂ (fun a c => a.1 = c.1 ∧ R a.2 c.2) as cs)
include holes related

/-- The elements of a bag hang on its keys alone. -/
theorem forall₂_fill (next : Nat) :
    List.Forall₂ R (Bag.fill hole next as) (Bag.fill hole' next cs) := by
  induction related generalizing next with
  | nil => exact .nil
  | @cons a c as cs first _ ih =>
    obtain ⟨id, a⟩ := a
    obtain ⟨id', c⟩ := c
    obtain ⟨same, first⟩ := first
    obtain rfl : id = id' := same
    cases id with
    | name text => exact ih next
    | index i =>
      simp only [Bag.fill]
      split
      · exact ih next
      · refine List.rel_append ?_ (.cons first (ih _))
        generalize i.toInt.toNat - next = gap
        induction gap with
        | zero => exact .nil
        | succ gap more => exact .cons holes more

omit holes related in
theorem nextIndex_eq {b : Bag α} {c : Bag γ} (keys : b.props.keys = c.props.keys) :
    b.nextIndex = c.nextIndex := by
  simp only [Bag.nextIndex, Bag.arrayLength, Table.lastKey?, keys]

theorem forall₂_elements (shape shape' : Shape) (backing backing' : Option Handle) :
    List.Forall₂ R (Bag.elements ⟨shape, ⟨as⟩, backing⟩ hole)
      (Bag.elements ⟨shape', ⟨cs⟩, backing'⟩ hole') := by
  have keys : as.map (·.1) = cs.map (·.1) := by
    clear holes
    induction related with
    | nil => rfl
    | cons first _ ih => rw [List.map_cons, List.map_cons, first.1, ih]
  have next : (⟨shape, ⟨as⟩, backing⟩ : Bag α).nextIndex
      = (⟨shape', ⟨cs⟩, backing'⟩ : Bag γ).nextIndex := nextIndex_eq keys
  simp only [Bag.elements, next]
  split
  · exact .nil
  · exact forall₂_fill holes related 0

end Elements

theorem writes_void : Writes (⟨return .void, []⟩ : Writer ρ μ) .void where
  handles := rfl
  builds _ w _ fit := ⟨.void, w, rfl, fit, .refl _, .scalar .void (.nil _)⟩

/-- A constructor of the global object makes an empty object. -/
theorem outcome_construct (fit : Fit gone w owned) (shape : Shape) :
    ∃ w', (construct β Host.global shape).outcome w
        = (.ok (some ⟨w.host.heap.lastHandle + 1⟩), w') ∧
      Fit gone w' (⟨w.host.heap.lastHandle + 1⟩ :: owned) ∧
      w'.host.heap.Extends w.host.heap.lastHandle w.host.heap ∧
      w'.host.heap.lastHandle = w.host.heap.lastHandle + 1 ∧
      w'.host.heap.body? ⟨w.host.heap.lastHandle + 1⟩ = some (Form.ofShape shape, .empty) := by
  let w₁ := w.withHeap (w.host.heap.intern (constructorName shape)).2
  have known : w.host.heap.Alike w₁.host.heap := Heap.alike_intern _ _
  have fit₁ : Fit gone w₁ owned :=
    fit.withHeap (known.extended 1) (Nat.le_refl 1) (fit.sound.intern _) fit.global
  have called := fit₁.callee?_constructor (Names.text?_intern _ _)
  have made := Heap.extends_alloc w₁.host.heap (Form.ofShape shape)
  have sound : (w₁.host.heap.alloc (Form.ofShape shape)).2.Sound gone
      ((w₁.host.heap.alloc (Form.ofShape shape)).1 :: owned) := by
    apply Heap.Sound.alloc
    cases shape <;> exact fit₁.sound
  refine ⟨_, ?_, fit₁.withHeap made fit₁.first sound (List.mem_cons_of_mem _ fit.global),
    made.trans (known.extended _), rfl, Heap.body?_alloc _ _⟩
  exact (Run.outcome_bind (Run.outcome_onHost _)).trans
    ((Run.outcome_bind (Run.outcome_invoke_construct [] called)).trans rfl)

theorem fills_fill {shape : Shape} {ws : List (Identifier × Writer ρ μ)}
    {es : List (Identifier × Value)} (writes : List.Forall₂ WritesEntry ws es)
    (sorted : Table.Ascending es) (fit : Fit gone w owned) (first : 1 ≤ n)
    (last : w.host.heap.lastHandle = n + 1)
    (body : w.host.heap.body? ⟨n + 1⟩ = some (Form.ofShape shape, .empty)) :
    ∃ w', (fill β ⟨n + 1⟩ shape ⟨ws⟩).outcome w = (.ok (), w') ∧ Fit gone w' owned ∧
      w'.host.heap.Extends n w.host.heap ∧
      Holds w'.host.heap n w'.host.heap.lastHandle [.object ⟨n + 1⟩]
        [.object ⟨shape, ⟨es⟩, none⟩] := by
  have none_ : Holds w.host.heap (n + 1) w.host.heap.lastHandle [] [] := last ▸ .nil _
  cases shape with
  | array =>
    let w₁ := w.withHeap (w.host.heap.intern "push").2
    have known : w.host.heap.Alike w₁.host.heap := Heap.alike_intern _ _
    have fit₁ : Fit gone w₁ owned :=
      fit.withHeap (known.extended 1) (Nat.le_refl 1) (fit.sound.intern _) fit.global
    have fills₁ : FillsArray w₁.host.heap n [] [] :=
      FillsArray.alike ⟨body, none_⟩ known
    obtain ⟨w₂, more, ran, fit₂, more₂, fills₂⟩ :=
      fills_pushElements (forall₂_elements writes_void writes .array .array none none) fills₁ fit₁ first
        (Names.text?_intern w.host.heap.names "push") (β := β)
    refine ⟨w₂, ?_, fit₂, more₂.trans (known.extended n), ?_⟩
    · exact (Run.outcome_bind (Run.outcome_onHost _)).trans ran
    · exact .array rfl sorted fills₂.body fills₂.holds (.nil _)
  | plain =>
    have fills : FillsPlain w.host.heap n [] [] := ⟨⟨_, body, .refl _⟩, .nil, none_⟩
    have new := Table.different_of_ascending sorted
    obtain ⟨w₁, fields, ran, fit₁, more₁, fills₁⟩ := fills_writeProperties writes fills new fit first
    obtain ⟨props, here, listed⟩ := fills₁.body
    exact ⟨w₁, ran, fit₁, more₁, .plain rfl sorted here listed fills₁.keys fills₁.holds (.nil _)⟩

theorem builds_build {shape : Shape} {ws : List (Identifier × Writer ρ μ)}
    {es : List (Identifier × Value)} (writes : List.Forall₂ WritesEntry ws es)
    (sorted : Table.Ascending es) : Builds (build β shape ⟨ws⟩) (.object ⟨shape, ⟨es⟩, none⟩) := by
  intro gone w owned fit
  let w₁ := w.withHeap (w.host.heap.retainAll [Host.global])
  have global : (Run.onHost Host.globalObject : Run ρ μ (Option Handle)).outcome w
      = (.ok (some Host.global), w₁) := by
    have present : w.host.failures.noGlobal = false := congrArg _ fit.failures
    rw [Run.outcome_onHost, Host.run_globalObject, present]
    rfl
  have retained : w.host.heap.Alike w₁.host.heap := Heap.alike_retainAll _ _
  have fit₁ : Fit gone w₁ (Host.global :: owned) :=
    fit.withHeap (retained.extended 1) (Nat.le_refl 1)
      (fit.sound.retainAll (List.forall_mem_singleton.2 (.inr fit.find_global))) List.mem_cons_self
  obtain ⟨w₂, constructed, fit₂, more₂, last₂, body₂⟩ := outcome_construct fit₁ shape (β := β)
  obtain ⟨w₃, filled, fit₃, more₃, holds₃⟩ := fills_fill writes sorted fit₂ fit.first last₂ body₂ (β := β)
  have owns : Fit gone w₃ ([Host.global] ++ (⟨w₁.host.heap.lastHandle + 1⟩ :: owned)) :=
    fit₃.perm (.swap _ _ _)
  obtain ⟨released, fit₄⟩ := owns.released (List.mem_cons_of_mem _ fit.global)
    (List.forall_mem_singleton.2
      (List.mem_append_right _ (List.mem_cons_of_mem _ fit.global)))
  refine ⟨.object ⟨w₁.host.heap.lastHandle + 1⟩, _, ?_, fit₄, ?_, ?_⟩
  · refine (Run.outcome_bind global).trans (Run.outcome_holding ?_)
    exact (Run.outcome_bind constructed).trans
      ((Run.outcome_bind (Run.outcome_guarding filled)).trans rfl)
  · exact (released.extended _).trans (more₃.trans (more₂.trans (retained.extended _)))
  · exact released.lastHandle ▸ holds₃.alike released

/-- What is written for an entry holds references of the entry. -/
theorem handles_writers {entries : List (Identifier × Value)} {writer : Identifier × Writer ρ μ}
    (inside : writer ∈ writers β entries) {h : Handle} (holds : h ∈ writer.2.handles) :
    h ∈ Value.entriesHandles entries := by
  induction entries with
  | nil => cases inside
  | cons e rest ih =>
    rw [writers] at inside
    rw [Value.entriesHandles]
    rcases List.mem_cons.1 inside with rfl | inside
    · exact List.mem_append_left _ holds
    · exact List.mem_append_right _ (ih inside)

mutual

theorem builds_write : (v : Value) → v.Sorted → v.handles = [] → Builds (write β v) v
  | .scalar s, _, _ => fun _ w _ fit => ⟨.scalar s, w, rfl, fit, .refl _, .scalar s (.nil _)⟩
  | .object ⟨shape, ⟨entries⟩, backing⟩, sorted, unbacked => by
    rw [Value.Sorted] at sorted
    rw [Value.handles, List.append_eq_nil_iff] at unbacked
    cases backing with
    | none => exact builds_build (forall₂_writers entries sorted.2 unbacked.1) sorted.1
    | some h => exact absurd unbacked.2 (by simp)

theorem forall₂_writers : (entries : List (Identifier × Value)) → Value.EntriesSorted entries →
    Value.entriesHandles entries = [] → List.Forall₂ WritesEntry (writers β entries) entries
  | [], _, _ => .nil
  | (id, v) :: rest, sorted, unbacked => by
    rw [Value.EntriesSorted] at sorted
    rw [Value.entriesHandles, List.append_eq_nil_iff] at unbacked
    exact .cons ⟨rfl, unbacked.1, builds_write v sorted.1 unbacked.1⟩
      (forall₂_writers rest sorted.2 unbacked.2)

end

end Marshal

end ScriptBoundary
