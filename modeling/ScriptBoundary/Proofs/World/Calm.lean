import ScriptBoundary.Proofs.Call.Conduct
import ScriptBoundary.Proofs.Call.Chain
import ScriptBoundary.Proofs.Heap.Contents
import ScriptBoundary.Proofs.Marshal.Keeping
import ScriptBoundary.Proofs.Value

/-!
Sessions whose host functions all do no harm. Computations that call no other code end well, and leave
alone what a session is built on: the gateway, the queue, the host thread, and whether bridges are shut
down.
-/

namespace ScriptBoundary

variable {ρ μ α γ : Type} {safe : ρ → Prop}

/-! ## Hosts without harmful functions -/

namespace Heap

/-- Every function of the host is safe. -/
def Tame (safe : ρ → Prop) (heap : Heap ρ) : Prop := ∀ h code, heap.code? h = some code → safe code

theorem code?_iff {heap : Heap ρ} {h : Handle} {code : ρ} :
    heap.code? h = some code ↔ ∃ e, heap.objects.find? h = some e ∧ e.form = .function code := by
  unfold code?
  cases heap.objects.find? h with
  | none => simp
  | some e =>
    obtain ⟨refs, form, props⟩ := e
    cases form <;> simp

namespace Tame

variable {heap heap' : Heap ρ}

/-- Functions are what they were, and there are no more of them. -/
theorem narrow (tame : heap.Tame safe) (forms : ∀ h e, heap'.objects.find? h = some e →
    ∀ code, e.form = .function code → ∃ e', heap.objects.find? h = some e' ∧ e'.form = .function code) :
    heap'.Tame safe := by
  intro h code is
  obtain ⟨e, found, form⟩ := code?_iff.1 is
  exact tame h code (code?_iff.2 (forms h e found code form))

theorem of_objects (tame : heap.Tame safe) (same : heap'.objects = heap.objects) : heap'.Tame safe :=
  tame.narrow fun _ e found _ form => ⟨e, same ▸ found, form⟩

theorem alike (tame : heap.Tame safe) (alike : heap.Alike heap') : heap'.Tame safe := by
  refine tame.narrow fun h e found code form => ?_
  obtain ⟨e', was, body⟩ := alike.symm_find?_some found
  exact ⟨e', was, (congrArg Prod.fst body).symm.trans form⟩

theorem update (tame : heap.Tame safe) (h : Handle) {f : Entry ρ → Entry ρ}
    (forms : ∀ e, heap.objects.find? h = some e → ∀ code, (f e).form = .function code → e.form = .function code) :
    ({ heap with objects := heap.objects.update h f } : Heap ρ).Tame safe := by
  refine tame.narrow fun x e found code form => ?_
  simp only [Table.find?_update] at found
  split at found
  next here =>
    subst here
    obtain ⟨e', was, rfl⟩ := Option.map_eq_some_iff.1 found
    exact ⟨e', was, forms e' was code form⟩
  next => exact ⟨e, found, form⟩

theorem retainAll (tame : heap.Tame safe) (hs : List Handle) : (heap.retainAll hs).Tame safe :=
  tame.alike (alike_retainAll heap hs)

theorem releaseAll (tame : heap.Tame safe) (hs : List Handle) : (heap.releaseAll hs).Tame safe := by
  refine tame.narrow fun h e found code form => ?_
  obtain ⟨e', was, body⟩ := find?_releaseAll found
  exact ⟨e', was, (congrArg Prod.fst body).symm.trans form⟩

theorem alloc (tame : heap.Tame safe) (form : Form ρ) (still : ∀ code, form = .function code → safe code) :
    (heap.alloc form).2.Tame safe := by
  intro h code is
  obtain ⟨e, found, function⟩ := code?_iff.1 is
  simp only [Heap.alloc, Table.find?_insert] at found
  split at found
  · cases found
    exact still code function
  · exact tame h code (code?_iff.2 ⟨e, found, function⟩)

theorem pushAll (tame : heap.Tame safe) (target : Handle) (values : List Raw) :
    (heap.pushAll target values).2.Tame safe := by
  have retained := tame.retainAll (values.flatMap Raw.handles)
  simp only [Heap.pushAll]
  split
  · exact retained
  · refine retained.update target fun e _ code form => ?_
    obtain ⟨refs, was, props⟩ := e
    cases was <;> simp_all [Entry.append]

theorem store (tame : heap.Tame safe) (target : Handle) (id : HostId) (value : Raw) :
    (heap.store target id value).2.Tame safe := by
  have retained : (heap.retainValue value).Tame safe := tame.retainAll value.handles
  simp only [Heap.store]
  split
  · split
    · exact retained
    next e found =>
      refine (retained.update target fun e' found' code form => ?_).releaseAll _
      rw [found, Option.some.injEq] at found'
      subst found'
      simp only [Entry.write] at form
      split at form
      · cases form
      · exact form
  · exact tame

theorem intern (tame : heap.Tame safe) (text : String) : (heap.intern text).2.Tame safe :=
  tame.of_objects rfl

theorem put (tame : heap.Tame safe) (target : Handle) (name : String) (value : Raw) :
    (heap.put target name value).2.Tame safe := by
  have keyed : (heap.key name).2.Tame safe := tame.of_objects rfl
  exact keyed.store target _ value

theorem defineExpression (tame : heap.Tame safe) (script : String) (value : Raw) :
    (heap.defineExpression script value).Tame safe := by
  have retained : (heap.retainValue value).Tame safe := tame.retainAll value.handles
  refine releaseAll ?_ _
  exact retained.of_objects rfl

theorem evaluate (tame : heap.Tame safe) (target : Handle) (script : String) :
    (heap.evaluate target script).2.Tame safe := by
  simp only [Heap.evaluate]
  split
  · exact tame.retainAll _
  · refine retainAll ?_ _
    exact tame.of_objects rfl

end Tame

end Heap

theorem durable_tame : Host.Durable fun host : Host ρ => host.heap.Tame safe where
  intern _ text tame := tame.intern text
  retainAll _ hs tame := tame.retainAll hs
  releaseAll _ hs tame := tame.releaseAll hs

/-! ## Computations -/

/-- What a session is built on stays as it is. -/
structure World.Spares (w w' : World ρ μ) : Prop where
  gateway : w'.gateway = w.gateway
  queue : w'.queue = w.queue
  hostGone : w'.hostGone = w.hostGone
  shutDown : ∀ number, (w'.bridge number).shutDown = (w.bridge number).shutDown

namespace World.Spares

variable {w w' w'' : World ρ μ}

theorem refl (w : World ρ μ) : w.Spares w := ⟨rfl, rfl, rfl, fun _ => rfl⟩

theorem trans (first : w.Spares w') (second : w'.Spares w'') : w.Spares w'' where
  gateway := second.gateway.trans first.gateway
  queue := second.queue.trans first.queue
  hostGone := second.hostGone.trans first.hostGone
  shutDown number := (second.shutDown number).trans (first.shutDown number)

theorem withHost (w : World ρ μ) (host : Host ρ) : w.Spares (w.withHost host) :=
  ⟨rfl, rfl, rfl, fun _ => rfl⟩

theorem withBridge (w : World ρ μ) {number : Nat} {b : Bridge}
    (same : b.shutDown = (w.bridge number).shutDown) : w.Spares (w.withBridge number b) := by
  refine ⟨rfl, rfl, rfl, fun other => ?_⟩
  by_cases here : other = number
  · subst here
    by_cases known : other < w.bridges.length
    · rw [World.bridge_withBridge w known, same]
    · rw [World.withBridge, List.set_eq_of_length_le (Nat.le_of_not_lt known)]
  · have there : (w.bridges.set number b)[other]? = w.bridges[other]? :=
      List.getElem?_set_ne (Ne.symm here)
    simp only [World.bridge, World.withBridge, List.getD_eq_getElem?_getD, there]

end World.Spares

/-- On a host whose functions are all safe, the session is spared, and the host stays safe. -/
def WorldM.Calm (safe : ρ → Prop) (op : WorldM ρ μ α) : Prop :=
  ∀ w, w.host.heap.Tame safe → w.Spares (op.run w).2 ∧ (op.run w).2.host.heap.Tame safe

/-- Moreover the computation does not fail. -/
def Run.Calm (safe : ρ → Prop) (op : Run ρ μ α) : Prop :=
  ∀ w, w.host.heap.Tame safe →
    ∃ a w', op.outcome w = (.ok a, w') ∧ w.Spares w' ∧ w'.host.heap.Tame safe

namespace WorldM.Calm

theorem pure (a : α) : Calm safe (Pure.pure a : WorldM ρ μ α) := fun w tame => ⟨.refl w, tame⟩

theorem bind {op : WorldM ρ μ α} {next : α → WorldM ρ μ γ} (first : Calm safe op)
    (second : ∀ a, Calm safe (next a)) : Calm safe (op >>= next) := by
  intro w tame
  obtain ⟨spares, tame'⟩ := first w tame
  obtain ⟨spares', tame''⟩ := second (op.run w).1 _ tame'
  exact ⟨spares.trans spares', tame''⟩

theorem get {next : World ρ μ → WorldM ρ μ α} (calm : ∀ w, Calm safe (next w)) :
    Calm safe (MonadState.get >>= next) := fun w tame => calm w w tame

theorem onHost {op : HostM ρ α} (keeps : Host.Keeps (fun host => host.heap.Tame safe) op) :
    Calm safe (WorldM.onHost op : WorldM ρ μ α) :=
  fun w tame => ⟨.withHost w _, keeps w.host tame⟩

theorem retainAll (hs : List Handle) : Calm safe (WorldM.retainAll hs : WorldM ρ μ Unit) :=
  onHost (durable_tame.keeps_retainAll hs)

theorem releaseAll (hs : List Handle) : Calm safe (WorldM.releaseAll hs : WorldM ρ μ Unit) :=
  onHost (durable_tame.keeps_releaseAll hs)

theorem onBridge (number : Nat) {op : Bridge → α × Bridge} (same : ∀ b, (op b).2.shutDown = b.shutDown) :
    Calm safe (WorldM.onBridge number op : WorldM ρ μ α) :=
  fun w tame => ⟨.withBridge w (same _), tame⟩

end WorldM.Calm

namespace Run

namespace Calm

theorem pure (a : α) : Calm safe (Pure.pure a : Run ρ μ α) :=
  fun w tame => ⟨a, w, rfl, .refl w, tame⟩

theorem bind {op : Run ρ μ α} {next : α → Run ρ μ γ} (first : Calm safe op)
    (second : ∀ a, Calm safe (next a)) : Calm safe (op >>= next) := by
  intro w tame
  obtain ⟨a, w', ran, spares, tame'⟩ := first w tame
  obtain ⟨b, w'', ran', spares', tame''⟩ := second a w' tame'
  exact ⟨b, w'', (outcome_bind ran).trans ran', spares.trans spares', tame''⟩

theorem get {next : World ρ μ → Run ρ μ α} (calm : ∀ w, Calm safe (next w)) :
    Calm safe (MonadState.get >>= next) := fun w tame => calm w w tame

theorem always {op : WorldM ρ μ α} (calm : WorldM.Calm safe op) : Calm safe (Run.always op) :=
  fun w tame => ⟨(op.run w).1, (op.run w).2, rfl, (calm w tame).1, (calm w tame).2⟩

theorem onHost {op : HostM ρ α} (keeps : Host.Keeps (fun host => host.heap.Tame safe) op) :
    Calm safe (Run.onHost op : Run ρ μ α) := always (.onHost keeps)

theorem retainAll (hs : List Handle) : Calm safe (Run.retainAll hs : Run ρ μ Unit) :=
  always (.retainAll hs)

theorem releaseAll (hs : List Handle) : Calm safe (Run.releaseAll hs : Run ρ μ Unit) :=
  always (.releaseAll hs)

theorem ensuring {op : Run ρ μ α} {last : WorldM ρ μ Unit} (calm : Calm safe op)
    (calm' : WorldM.Calm safe last) : Calm safe (op.ensuring last) := by
  intro w tame
  obtain ⟨a, w', ran, spares, tame'⟩ := calm w tame
  obtain ⟨spares', tame''⟩ := calm' w' tame'
  refine ⟨a, (last.run w').2, ?_, spares.trans spares', tame''⟩
  rw [outcome_ensuring, ran]

theorem holding (hs : List Handle) {op : Run ρ μ α} (calm : Calm safe op) :
    Calm safe (Run.holding hs op) := calm.ensuring (.releaseAll hs)

theorem guarding (hs : List Handle) {op : Run ρ μ α} (calm : Calm safe op) :
    Calm safe (Run.guarding hs op) := by
  intro w tame
  obtain ⟨a, w', ran, spares, tame'⟩ := calm w tame
  exact ⟨a, w', outcome_guarding ran, spares, tame'⟩

end Calm

end Run

/-! ## Calls into the host -/

theorem Heap.code?_of_callee? {heap : Heap ρ} {target f : Handle} {id : HostId} {code : ρ}
    (called : heap.callee? target id = some (.function f code)) : heap.code? f = some code := by
  simp only [Heap.callee?] at called
  split at called
  · cases called
  · split at called
    · cases called
    · split at called
      · obtain ⟨code', is, same⟩ := Option.map_eq_some_iff.1 called
        cases same
        exact is
      · (repeat' split at called) <;> cases called

/-- Safe functions do no harm when they are entered. -/
def Gentle (safe : ρ → Prop) (β : Behaviour ρ μ) : Prop :=
  ∀ code, safe code → ∀ args, Run.Calm safe (β.enter code args)

section Host

variable {β : Behaviour ρ μ} (gentle : Gentle safe β)

theorem calm_intern (text : String) : Run.Calm safe (Run.onHost (Host.intern text) : Run ρ μ HostId) :=
  .onHost fun host tame => durable_tame.intern host text tame

theorem calm_idOf (id : Identifier) : Run.Calm safe (Run.onHost (Host.idOf id) : Run ρ μ HostId) :=
  .onHost fun _ tame => tame.of_objects rfl

theorem calm_read (raw : Raw) : Run.Calm safe (Run.onHost (Marshal.read raw) : Run ρ μ Value) :=
  .onHost (Marshal.keeps_readAt durable_tame _ _ raw)

theorem calm_readAllLent (raws : List Raw) :
    Run.Calm safe (Run.onHost (Marshal.readAllLent raws) : Run ρ μ (List Value)) :=
  .onHost (Marshal.keeps_readAllLent durable_tame raws)

theorem calm_globalObject : Run.Calm safe (Run.onHost Host.globalObject : Run ρ μ (Option Handle)) := by
  refine .onHost fun host tame => ?_
  rw [Host.run_globalObject]
  split
  · exact tame
  · exact tame.retainAll _

include gentle

theorem calm_enter (object : Handle) {code : ρ} (is : safe code) (args : List Raw) :
    Run.Calm safe (Run.enter β object code args) := by
  intro w tame
  obtain ⟨answer, w', ran, spares, tame'⟩ := gentle code is args { w with entered := w.entered ++ [object] } tame
  exact ⟨answer, w', ran, ⟨spares.gateway, spares.queue, spares.hostGone, spares.shutDown⟩, tame'⟩

theorem calm_invoke (target : Handle) (id : HostId) (args : List Raw) :
    Run.Calm safe (Run.invoke β target id args) := by
  intro w tame
  cases called : w.host.heap.callee? target id with
  | none => exact ⟨_, _, Run.outcome_invoke_none args called, .refl w, tame⟩
  | some callee =>
    cases callee with
    | push => exact ⟨_, _, Run.outcome_invoke_push args called, .withHost w _, tame.pushAll target args⟩
    | construct shape =>
      refine ⟨_, _, Run.outcome_invoke_construct args called, .withHost w _, tame.alloc _ fun code is => ?_⟩
      cases shape <;> cases is
    | function f code =>
      have is : safe code := tame f code (Heap.code?_of_callee? called)
      rw [Run.outcome_invoke_function args called]
      exact calm_enter gentle f is args w tame

theorem calm_invokeDefault (target : Handle) (args : List Raw) :
    Run.Calm safe (Run.invokeDefault β target args) := by
  intro w tame
  unfold Run.invokeDefault
  rw [Run.outcome_bind Run.outcome_get]
  cases is : w.host.heap.code? target with
  | none => exact Run.Calm.pure none w tame
  | some code => exact calm_enter gentle target (tame target code is) args w tame

/-! ## Writing -/

theorem calm_construct (global : Handle) (shape : Shape) :
    Run.Calm safe (Marshal.construct β global shape) := by
  refine (calm_intern _).bind fun id => (calm_invoke gentle global id []).bind fun answer => ?_
  split <;> exact .pure _

theorem calm_pushElements (h : Handle) (push : HostId) {elements : List (Marshal.Writer ρ μ)}
    (calm : ∀ e ∈ elements, Run.Calm safe e.write) :
    Run.Calm safe (Marshal.pushElements β h push elements) := by
  induction elements with
  | nil => exact .pure _
  | cons e rest ih =>
    obtain ⟨here, others⟩ := List.forall_mem_cons.1 calm
    refine (Run.Calm.retainAll _).bind fun _ => ?_
    refine (Run.Calm.holding _ (here.bind fun raw => .holding _ ?_)).bind fun _ => ih others
    exact (calm_invoke gentle h push [raw]).bind fun answer => .releaseAll _

omit gentle in
theorem calm_writeProperties (h : Handle) {properties : List (Identifier × Marshal.Writer ρ μ)}
    (calm : ∀ e ∈ properties, Run.Calm safe e.2.write) :
    Run.Calm safe (Marshal.writeProperties h properties) := by
  induction properties with
  | nil => exact .pure _
  | cons e rest ih =>
    obtain ⟨here, others⟩ := List.forall_mem_cons.1 calm
    have stored (id : HostId) (raw : Raw) :
        Run.Calm safe (Run.onHost (Host.setProperty h id raw) : Run ρ μ Bool) := by
      refine .onHost fun host tame => ?_
      rw [Host.run_setProperty]
      split
      · exact tame
      · exact tame.store h id raw
    refine here.bind fun raw => (Run.Calm.holding _ ?_).bind fun _ => ih others
    exact (calm_idOf _).bind fun id => (stored id raw).bind fun _ => .pure _

theorem calm_build (shape : Shape) {properties : Table Identifier (Marshal.Writer ρ μ)}
    (calm : ∀ e ∈ properties.entries, Run.Calm safe e.2.write) :
    Run.Calm safe (Marshal.build β shape properties) := by
  have filled (h : Handle) : Run.Calm safe (Marshal.fill β h shape properties) := by
    cases shape with
    | plain => exact calm_writeProperties h calm
    | array =>
      refine (calm_intern _).bind fun push => calm_pushElements gentle h push fun writer inside => ?_
      rcases Bag.mem_elements inside with rfl | ⟨e, there, rfl⟩
      · exact .pure _
      · exact calm e there
  refine calm_globalObject.bind fun global? => ?_
  cases global? with
  | none => exact .pure _
  | some global =>
    refine .holding _ ((calm_construct gentle global shape).bind fun h? => ?_)
    cases h? with
    | none => exact .pure _
    | some h => exact (Run.Calm.guarding _ (filled h)).bind fun _ => .pure _

end Host

section Marshal

variable {β : Behaviour ρ μ}

mutual

theorem calm_write (gentle : Gentle safe β) : (v : Value) → Run.Calm safe (Marshal.write β v)
  | .scalar s => by
    rw [Marshal.write]
    exact .pure _
  | .object ⟨shape, ⟨entries⟩, some h⟩ => by
    rw [Marshal.write]
    exact (Run.Calm.retainAll _).bind fun _ => .pure _
  | .object ⟨shape, ⟨entries⟩, none⟩ => by
    rw [Marshal.write]
    exact calm_build gentle shape (calm_writers gentle entries)

theorem calm_writers (gentle : Gentle safe β) : (entries : List (Identifier × Value)) →
    ∀ e ∈ Marshal.writers β entries, Run.Calm safe e.2.write
  | [] => List.forall_mem_nil _
  | (id, v) :: rest => by
    rw [Marshal.writers]
    exact List.forall_mem_cons.2 ⟨calm_write gentle v, calm_writers gentle rest⟩

end

variable (gentle : Gentle safe β)

include gentle

theorem calm_withWritten {use : List Raw → Run ρ μ α} (calm : ∀ raws, Run.Calm safe (use raws))
    (values : List Value) : Run.Calm safe (Marshal.withWritten β use values) := by
  induction values generalizing use with
  | nil => exact calm []
  | cons v rest ih =>
    exact (calm_write gentle v).bind fun raw => .holding _ (ih fun raws => calm (raw :: raws))

theorem calm_writeForHost (v : Value) : Run.Calm safe (Marshal.writeForHost β v) :=
  (calm_write gentle v).bind fun _ =>
    (Run.Calm.retainAll _).bind fun _ => (Run.Calm.releaseAll _).bind fun _ => .pure _

/-! ## Outbound calls -/

theorem calm_resolve (id : HostId) (script : String) (args : List Raw) :
    Run.Calm safe (resolve β id script args) := by
  have evaluates (global : Handle) :
      Run.Calm safe (Run.onHost (Host.evaluate global script) : Run ρ μ (Option Raw)) :=
    .onHost fun _ tame => tame.evaluate global script
  refine calm_globalObject.bind fun global? => ?_
  cases global? with
  | none => exact .pure _
  | some global =>
    refine .holding _ ((calm_invoke gentle global id args).bind fun answer => ?_)
    cases answer with
    | some raw => exact .pure _
    | none =>
      refine (evaluates global).bind fun value => ?_
      cases value with
      | none => exact .pure _
      | some raw =>
        cases raw with
        | scalar s => exact .pure _
        | object target =>
          have called : Run.Calm safe (callEvaluated β target args) := by
            refine (Run.Calm.guarding _ (calm_invokeDefault gentle target args)).bind fun answer => ?_
            cases answer with
            | none => exact .pure _
            | some raw => exact (Run.Calm.releaseAll _).bind fun _ => .pure _
          exact called.bind fun _ => .pure _

variable (c : OutboundCall)

theorem calm_execute : Run.Calm safe (c.execute β) := by
  refine calm_withWritten gentle (fun raws => (calm_idOf _).bind fun id => ?_) c.args
  refine (calm_resolve gentle id _ raws).bind fun answer => ?_
  cases answer with
  | error e => exact .pure _
  | ok raw => exact (calm_read raw).bind fun v => (Run.Calm.releaseAll _).bind fun _ => .pure _

omit gentle in
theorem calm_deliver (result : Option Value) :
    WorldM.Calm safe (c.deliver result : WorldM ρ μ Unit) := by
  refine (WorldM.Calm.onBridge _ fun b => rfl).bind fun accepted => ?_
  cases accepted with
  | true => exact .pure _
  | false => exact .releaseAll _

omit gentle in
theorem calm_finish : WorldM.Calm safe (c.finish : WorldM ρ μ Unit) :=
  (calm_deliver c none).bind fun _ => .releaseAll _

theorem calm_perform : Run.Calm safe (c.perform β) := by
  refine Run.Calm.ensuring (.get fun w => ?_) (calm_finish c)
  dsimp only
  split
  · exact .pure _
  refine (calm_execute gentle c).bind fun answer => ?_
  have offered (result : Option Value) :
      Run.Calm safe (Run.always (c.deliver result) : Run ρ μ Unit) := .always (calm_deliver c result)
  cases answer with
  | ok v => exact offered (some v)
  | error e =>
    have raised : Run.Calm safe (Run.onHost (Host.raise (c.failureText e)) : Run ρ μ Unit) :=
      .onHost fun _ tame => tame.of_objects rfl
    by_cases raises : (w.bridge c.bridge).marshalsExceptions = true
    · simp only [raises, if_true]
      exact raised.bind fun _ => offered none
    · simp only [raises]
      exact offered none

omit gentle in
theorem calm_request (number : Nat) (id : Identifier) (args : List Value) :
    WorldM.Calm safe (WorldM.request number id args : WorldM ρ μ (Option OutboundCall)) := by
  refine (WorldM.Calm.onBridge number fun b => ?_).bind fun granted => ?_
  · cases late : b.shutDown with
    | true => rw [Bridge.register_of_shutDown late, late]
    | false => rw [Bridge.register_of_open late]; exact late
  · cases granted with
    | none => exact .pure _
    | some call => exact (WorldM.Calm.retainAll _).bind fun _ => .pure _

omit gentle in
theorem calm_collect : WorldM.Calm safe (WorldM.collect c : WorldM ρ μ (Option Value)) :=
  .onBridge _ fun _ => rfl

theorem calm_callInline (number : Nat) (id : Identifier) (args : List Value) :
    Run.Calm safe (Run.callInline β number id args) := by
  refine (Run.Calm.always (calm_request number id args)).bind fun call? => ?_
  cases call? with
  | none => exact .pure _
  | some c => exact (calm_perform gentle c).bind fun _ => .always (calm_collect c)

theorem calm_runAll (calls : List OutboundCall) : WorldM.Calm safe (WorldM.runAll β calls) := by
  induction calls with
  | nil => exact .pure _
  | cons c rest ih =>
    intro w tame
    obtain ⟨_, w', ran, spares, tame'⟩ := calm_perform gentle c w tame
    have next : (WorldM.runAll β (c :: rest)).run w = (WorldM.runAll β rest).run w' := by
      have performed : (c.perform β).run.run w = (.ok (), w') := ran
      rw [WorldM.runAll, StateT.run_bind, performed]
      rfl
    rw [next]
    exact ⟨spares.trans (ih w' tame').1, (ih w' tame').2⟩

/-- While a caller waits, the host thread runs its call and nothing else. -/
theorem calm_serve {w : World ρ μ} (idle : w.queue = []) (tame : w.host.heap.Tame safe) :
    w.Spares ((WorldM.dispatch c *> WorldM.drain β).run w).2 ∧
      ((WorldM.dispatch c *> WorldM.drain β).run w).2.host.heap.Tame safe := by
  have served : ((WorldM.dispatch c *> WorldM.drain β).run w).2
      = ((WorldM.drain β).run ((WorldM.dispatch c).run w).2).2 := rfl
  have drained (w' : World ρ μ) : (WorldM.drain β).run w'
      = (WorldM.runAll β w'.queue).run { w' with queue := [] } := rfl
  rw [served, drained]
  by_cases lost : w.hostGone = true ∨ w.host.failures.dropsTasks = true
  · rw [OutboundCall.run_dispatch_of_lost c w lost, ← OutboundCall.run_finish]
    obtain ⟨spares, tame'⟩ := calm_finish c w tame
    have unqueued : (c.finish.run w).2.queue = [] := spares.queue.trans idle
    rw [unqueued]
    exact ⟨⟨spares.gateway, idle.symm, spares.hostGone, spares.shutDown⟩, tame'⟩
  · rw [OutboundCall.run_dispatch_of_kept c w lost, idle]
    obtain ⟨spares, tame'⟩ := calm_runAll gentle [c] { w with queue := [] } tame
    exact ⟨⟨spares.gateway, spares.queue.trans idle.symm, spares.hostGone, spares.shutDown⟩, tame'⟩

/-- A call from an engine thread, while no other call is under way. -/
theorem calm_callFromWorker (number : Nat) (id : Identifier) (args : List Value) {w : World ρ μ}
    (idle : w.queue = []) (tame : w.host.heap.Tame safe) :
    w.Spares ((WorldM.callFromWorker β number id args).run w).2 ∧
      ((WorldM.callFromWorker β number id args).run w).2.host.heap.Tame safe := by
  obtain ⟨spares, tame'⟩ := calm_request number id args w tame
  unfold WorldM.callFromWorker
  rw [StateT.run_bind]
  generalize (WorldM.request number id args).run w = asked at spares tame' ⊢
  obtain ⟨call?, w'⟩ := asked
  cases call? with
  | none => exact ⟨spares, tame'⟩
  | some c =>
    obtain ⟨served, tame''⟩ := calm_serve gentle c (spares.queue.trans idle) tame'
    obtain ⟨collected, tame'''⟩ := calm_collect c _ tame''
    exact ⟨(spares.trans served).trans collected, tame'''⟩

end Marshal

end ScriptBoundary
