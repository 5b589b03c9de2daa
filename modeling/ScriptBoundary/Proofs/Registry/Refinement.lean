import ScriptBoundary.Proofs.Bag.Contents
import ScriptBoundary.Proofs.Gateway.Account

/-!
A registry is two maps and a lock. Each map holds what was bound last before shutdown began, by whatever
way; from then on nothing changes it.
-/

namespace ScriptBoundary

variable {ρ μ α : Type}

/-! ## Shutdown is for good -/

/-- What may become of a session: bridges are added, and none that was shut down is opened again. -/
structure World.Onward (w w' : World ρ μ) : Prop where
  bridges : w.bridges.length ≤ w'.bridges.length
  shutDown : ∀ number, (w.bridge number).shutDown = true → (w'.bridge number).shutDown = true

/-- The contract of methods: their code has no means to open a bridge again. -/
def Behaviour.Steady (β : Behaviour ρ μ) : Prop :=
  ∀ body r id args (w : World ρ μ), w.Onward ((β.answer body r id args).outcome w).2

namespace World.Onward

variable {w w' w'' : World ρ μ}

theorem of_bridges (same : w'.bridges = w.bridges) : w.Onward w' where
  bridges := Nat.le_of_eq (congrArg List.length same.symm)
  shutDown number down := by
    unfold bridge at down ⊢
    rwa [same]

theorem trans (first : w.Onward w') (second : w'.Onward w'') : w.Onward w'' where
  bridges := Nat.le_trans first.bridges second.bridges
  shutDown number down := second.shutDown number (first.shutDown number down)

end World.Onward

namespace World

/-- The world once a bridge was shut down. -/
def closed (w : World ρ μ) (number : Nat) : World ρ μ := w.withBridge number (w.bridge number).destroy

theorem shutDown_closed (w : World ρ μ) {number : Nat} (known : number < w.bridges.length) :
    ((w.closed number).bridge number).shutDown = true := by
  rw [closed, bridge_withBridge w known]
  exact Bridge.shutDown_destroy _

theorem onward_closed (w : World ρ μ) (number : Nat) : w.Onward (w.closed number) where
  bridges := Nat.le_of_eq List.length_set.symm
  shutDown other down := by
    by_cases known : number < w.bridges.length
    · by_cases same : other = number
      · rw [same]
        exact w.shutDown_closed known
      · have other_ : (w.closed number).bridge other = w.bridge other := by
          simp only [bridge, closed, withBridge, List.getD_eq_getElem?_getD]
          rw [List.getElem?_set_ne (Ne.symm same)]
        rwa [other_]
    · rw [closed, withBridge, List.set_eq_of_length_le (Nat.le_of_not_lt known)]
      exact down

/-- Closing a gateway shuts its bridge down. -/
theorem run_dropGateway {β : Behaviour ρ μ} {w : World ρ μ} {r : Registry μ}
    (known : w.gateway = some r) : (WorldM.dropGateway β).run w
      = (true, (closed { w with gateway := none } r.bridge).released (r.handles β)) := by
  obtain ⟨host, bridges, current, gateway, object, queue, hostGone, entered, printed, gate⟩ := w
  cases known
  rfl

end World

/-! ## Calls -/

namespace Registry

variable {β : Behaviour ρ μ} {r : Registry μ} {id : Identifier} {args : List Value} {w : World ρ μ}

theorem outcome_call_none (unbound : r.methods.find? id = none) :
    (r.call β id args).outcome w = (.ok none, w) := by
  rw [call, unbound]
  rfl

theorem outcome_call_legacy {verb : LegacyVerb} (bound : r.methods.find? id = some (.legacy verb)) :
    (r.call β id args).outcome w = (.ok (some verb.result), w) := by
  rw [call, bound]
  rfl

theorem outcome_call_code {body : μ} (bound : r.methods.find? id = some (.code body)) :
    (r.call β id args).outcome w = (((β.answer body r id args).outcome w).1.map some,
      ((β.answer body r id args).outcome w).2) := by
  rw [call, bound]
  cases ran : (β.answer body r id args).outcome w with
  | mk answer w' =>
    cases answer with
    | ok result => exact Run.outcome_bind ran
    | error fault => exact Run.outcome_bind_fault ran

theorem onward_call (steady : β.Steady) (r : Registry μ) (id : Identifier) (args : List Value)
    (w : World ρ μ) : w.Onward ((r.call β id args).outcome w).2 := by
  cases bound : r.methods.find? id with
  | none =>
    rw [outcome_call_none bound]
    exact .of_bridges rfl
  | some method =>
    cases method with
    | legacy verb =>
      rw [outcome_call_legacy bound]
      exact .of_bridges rfl
    | code body =>
      rw [outcome_call_code bound]
      exact steady body r id args w

end Registry

/-! ## What is done with a registry -/

/-- A registry that is in use, and the world around it. -/
structure InUse (ρ μ : Type) where
  world : World ρ μ
  registry : Registry μ

namespace InUse

/-- What is done with a registry, and the answer. -/
inductive Event (μ : Type) where
  | setProperty (id : Identifier) (value : Value) (accepted : Bool)
  | removeProperty (id : Identifier) (removed : Bool)
  | setMethod (id : Identifier) (method : Method μ) (accepted : Bool)
  | removeMethod (id : Identifier) (removed : Bool)
  | hasProperty (id : Identifier) (answer : Bool)
  | getProperty (id : Identifier) (answer : Option Value)
  | hasMethod (id : Identifier) (answer : Bool)
  | enumerate (ids : List Identifier)
  /-- It is also noted whether the bridge is shut down afterwards. -/
  | invoke (id : Identifier) (args : List Value) (answer : Except Fault (Option CallResult)) (shutDown : Bool)
  | destroy
  | elsewhere (shutDown : Bool)

namespace Event

variable {μ : Type}

/-- Shutdown has begun, at the latest by this. -/
def shutsDown : Event μ → Bool
  | .invoke _ _ _ shutDown | .elsewhere shutDown => shutDown
  | .destroy => true
  | _ => false

/-- What is bound to a property by this, or that nothing is. -/
def property? (key : Identifier) : Event μ → Option (Option Value)
  | .setProperty id value _ => if key = id then some (some value) else none
  | .removeProperty id _ => if key = id then some none else none
  | _ => none

def method? (key : Identifier) : Event μ → Option (Option (Method μ))
  | .setMethod id method _ => if key = id then some (some method) else none
  | .removeMethod id _ => if key = id then some none else none
  | _ => none

/-- The last of the bindings before shutdown, if `was` was bound at first. -/
def last (binding? : Event μ → Option (Option α)) (was : Option α) : List (Event μ) → Option α
  | [] => was
  | e :: later => if e.shutsDown then was else last binding? ((binding? e).getD was) later

end Event

/-- The bridge of the registry is shut down. -/
def locked (s : InUse ρ μ) : Bool := (s.world.bridge s.registry.bridge).shutDown

/-- The registry is replaced by what an operation makes of it. -/
def change (s : InUse ρ μ) (operation : Registry μ → WorldM ρ μ (α × Registry μ)) : α × InUse ρ μ :=
  let ((answer, r), w) := (operation s.registry).run s.world
  (answer, ⟨w, r⟩)

inductive Step (β : Behaviour ρ μ) : InUse ρ μ → Event μ → InUse ρ μ → Prop where
  | setProperty {s} (id : Identifier) (value : Value) :
      Step β s (.setProperty id value (s.change (Registry.bindProperty id value)).1)
        (s.change (Registry.bindProperty id value)).2
  | removeProperty {s} (id : Identifier) :
      Step β s (.removeProperty id (s.change (Registry.unbindProperty id)).1)
        (s.change (Registry.unbindProperty id)).2
  | setMethod {s} (id : Identifier) (method : Method μ) :
      Step β s (.setMethod id method (s.change (Registry.bindMethod β id method)).1)
        (s.change (Registry.bindMethod β id method)).2
  | removeMethod {s} (id : Identifier) :
      Step β s (.removeMethod id (s.change (Registry.unbindMethod β id)).1)
        (s.change (Registry.unbindMethod β id)).2
  | hasProperty {s} (id : Identifier) : Step β s (.hasProperty id (s.registry.properties.contains id)) s
  | getProperty {s} (id : Identifier) :
      Step β s (.getProperty id ((s.registry.copyProperty id).run s.world).1)
        { s with world := ((s.registry.copyProperty id).run s.world).2 }
  | hasMethod {s} (id : Identifier) : Step β s (.hasMethod id (s.registry.methods.contains id)) s
  | enumerate {s} : Step β s (.enumerate s.registry.identifiers) s
  | invoke {s} (id : Identifier) (args : List Value) {answer : Except Fault (Option CallResult)}
      {w : World ρ μ} (ran : (s.registry.call β id args).outcome s.world = (answer, w)) :
      Step β s (.invoke id args answer (w.bridge s.registry.bridge).shutDown) { s with world := w }
  | destroy {s} :
      Step β s .destroy { s with world := ((WorldM.destroyBridge s.registry.bridge).run s.world).2 }
  /-- A gateway with the same bridge is closed. -/
  | closeGateway {s} {r : Registry μ} (known : s.world.gateway = some r)
      (shares : r.bridge = s.registry.bridge) :
      Step β s .destroy { s with world := ((WorldM.dropGateway β).run s.world).2 }
  /-- Whatever others do, who may begin shutdown as well. -/
  | elsewhere {s} (w : World ρ μ) (onward : s.world.Onward w) :
      Step β s (.elsewhere (w.bridge s.registry.bridge).shutDown) { s with world := w }

/-- Steps one after another, with what they did. -/
inductive Path (β : Behaviour ρ μ) : InUse ρ μ → List (Event μ) → InUse ρ μ → Prop where
  | refl (s : InUse ρ μ) : Path β s [] s
  | next {s t u : InUse ρ μ} {past : List (Event μ)} {e : Event μ} (path : Path β s past t)
      (step : Step β t e u) : Path β s (past ++ [e]) u

/-! ## The two maps -/

/-- The property that is bound after a history, oldest first. -/
def lastProperty (history : List (Event μ)) (id : Identifier) : Option Value :=
  Event.last (Event.property? id) none history

def lastMethod (history : List (Event μ)) (id : Identifier) : Option (Method μ) :=
  Event.last (Event.method? id) none history

theorem Event.last_concat (binding? : Event μ → Option (Option α)) (was : Option α) (history : List (Event μ))
    (e : Event μ) : last binding? was (history ++ [e])
      = if history.any shutsDown || e.shutsDown then last binding? was history
        else (binding? e).getD (last binding? was history) := by
  induction history generalizing was with
  | nil => cases shuts : e.shutsDown <;> simp [last, shuts]
  | cons first rest ih => cases shuts : first.shutsDown <;> simp [last, shuts, ih]

theorem Event.getD_binding (bound : Prop) [Decidable bound] (value was : Option α) :
    (if bound then some value else none).getD was = if bound then value else was := by
  split <;> rfl

theorem lastProperty_concat (history : List (Event μ)) (e : Event μ) (id : Identifier) :
    lastProperty (history ++ [e]) id
      = if history.any Event.shutsDown || e.shutsDown then lastProperty history id
        else (e.property? id).getD (lastProperty history id) := Event.last_concat _ _ _ _

theorem lastMethod_concat (history : List (Event μ)) (e : Event μ) (id : Identifier) :
    lastMethod (history ++ [e]) id
      = if history.any Event.shutsDown || e.shutsDown then lastMethod history id
        else (e.method? id).getD (lastMethod history id) := Event.last_concat _ _ _ _

/-- The identifiers that a map has, each once and in order. -/
def Lists (map : Identifier → Option α) (ids : List Identifier) : Prop :=
  ids.Pairwise Identifier.Precedes ∧ ∀ id, id ∈ ids ↔ (map id).isSome = true

theorem lists_keys {ν : Type} {t : Table Identifier ν} (sorted : t.Sorted) : Lists t.find? t.keys :=
  ⟨List.pairwise_map.2 (sorted.imp Identifier.compare_eq_lt_iff.1), fun _ => Table.contains_iff_mem_keys.symm⟩

/-- Properties come before methods. -/
def Listed (history : List (Event μ)) (ids : List Identifier) : Prop :=
  ∃ properties methods, ids = properties ++ methods ∧
    Lists (lastProperty history) properties ∧ Lists (lastMethod history) methods

/-- The answer is the one that the two maps and the lock give. -/
def Answered (past : List (Event μ)) : Event μ → Prop
  | .setProperty _ _ accepted | .setMethod _ _ accepted => accepted = !past.any Event.shutsDown
  | .removeProperty id removed => removed = (!past.any Event.shutsDown && (lastProperty past id).isSome)
  | .removeMethod id removed => removed = (!past.any Event.shutsDown && (lastMethod past id).isSome)
  | .hasProperty id answer => answer = (lastProperty past id).isSome
  | .getProperty id answer => answer = lastProperty past id
  | .hasMethod id answer => answer = (lastMethod past id).isSome
  | .enumerate ids => Listed past ids
  | .invoke id _ answer _ => lastMethod past id = none → answer = .ok none
  | .destroy | .elsewhere _ => True

/-- The registry is what its history says. -/
structure Kept (history : List (Event μ)) (s : InUse ρ μ) : Prop where
  known : s.registry.bridge < s.world.bridges.length
  tidy : s.registry.Tidy
  properties : ∀ id, s.registry.properties.find? id = lastProperty history id
  methods : ∀ id, s.registry.methods.find? id = lastMethod history id
  locked : s.locked = history.any Event.shutsDown

variable {β : Behaviour ρ μ} {history trace : List (Event μ)} {s t : InUse ρ μ} {e : Event μ}

/-! ## One step -/

theorem Kept.accepted (kept : Kept history s) (open_ : s.locked = false) (quiet : e.shutsDown = false)
    {r : Registry μ} (hs : List Handle) (bridge : r.bridge = s.registry.bridge) (tidy : r.Tidy)
    (properties : ∀ id, r.properties.find? id = (e.property? id).getD (s.registry.properties.find? id))
    (methods : ∀ id, r.methods.find? id = (e.method? id).getD (s.registry.methods.find? id)) :
    Kept (history ++ [e]) ⟨s.world.released hs, r⟩ where
  known := bridge ▸ kept.known
  tidy := tidy
  properties id := by
    rw [properties, lastProperty_concat, quiet, ← kept.locked, open_, kept.properties]
    rfl
  methods id := by
    rw [methods, lastMethod_concat, quiet, ← kept.locked, open_, kept.methods]
    rfl
  locked := by
    have same : (⟨s.world.released hs, r⟩ : InUse ρ μ).locked = s.locked :=
      congrArg (fun number => (s.world.bridge number).shutDown) bridge
    rw [same, kept.locked, List.any_append, List.any_cons, quiet, List.any_nil, Bool.or_false, Bool.or_false]

theorem Kept.refused (kept : Kept history s) (late : s.locked = true) (hs : List Handle) :
    Kept (history ++ [e]) ⟨s.world.released hs, s.registry⟩ where
  known := kept.known
  tidy := kept.tidy
  properties id := by
    rw [lastProperty_concat, ← kept.locked, late, kept.properties]
    rfl
  methods id := by
    rw [lastMethod_concat, ← kept.locked, late, kept.methods]
    rfl
  locked := by
    rw [List.any_append, ← kept.locked, late]
    exact late

/-- Nothing is done with the registry but to look at it. -/
theorem Kept.left (kept : Kept history s) {w : World ρ μ} (onward : s.world.Onward w)
    (property : ∀ id, e.property? id = none) (method : ∀ id, e.method? id = none)
    (locked : InUse.locked ⟨w, s.registry⟩ = (s.locked || e.shutsDown)) :
    Kept (history ++ [e]) ⟨w, s.registry⟩ where
  known := Nat.lt_of_lt_of_le kept.known onward.bridges
  tidy := kept.tidy
  properties id := by
    rw [kept.properties, lastProperty_concat, property, Option.getD_none, ite_self]
  methods id := by
    rw [kept.methods, lastMethod_concat, method, Option.getD_none, ite_self]
  locked := by
    rw [locked, kept.locked, List.any_append, List.any_cons, List.any_nil, Bool.or_false]

/-- A step that leaves the lock to others. -/
theorem locked_of_onward {w : World ρ μ} (onward : s.world.Onward w) :
    InUse.locked ⟨w, s.registry⟩ = (s.locked || (w.bridge s.registry.bridge).shutDown) := by
  change (w.bridge s.registry.bridge).shutDown = _
  cases was : s.locked with
  | false => rfl
  | true => exact onward.shutDown _ was

theorem Step.onward (steady : β.Steady) (step : Step β s e t) : s.world.Onward t.world := by
  cases step with
  | setProperty | removeProperty | setMethod | removeMethod | getProperty => exact .of_bridges rfl
  | hasProperty | hasMethod | enumerate => exact .of_bridges rfl
  | @invoke id args answer w ran =>
    have onward := Registry.onward_call steady s.registry id args s.world
    rwa [ran] at onward
  | destroy => exact s.world.onward_closed _
  | @closeGateway r known shares =>
    rw [World.run_dropGateway known]
    have emptied : s.world.Onward { s.world with gateway := none } := .of_bridges rfl
    exact emptied.trans ((World.onward_closed _ r.bridge).trans (.of_bridges rfl))
  | elsewhere w onward => exact onward

theorem Step.kept (steady : β.Steady) (step : Step β s e t) (kept : Kept history s) :
    Kept (history ++ [e]) t := by
  have onward := step.onward steady
  cases step with
  | setProperty id value =>
    change Kept _ ⟨s.world.released _, s.registry.setProperty s.locked id value⟩
    cases lock : s.locked with
    | true => exact kept.refused lock _
    | false =>
      refine kept.accepted lock rfl _ rfl (Registry.tidy_setProperty kept.tidy _ _ _)
        (fun key => ?_) fun _ => rfl
      exact (Bag.find?_set _ id key value).trans (Event.getD_binding _ _ _).symm
  | removeProperty id =>
    change Kept _ ⟨s.world.released _, (s.registry.removeProperty s.locked id).2⟩
    cases lock : s.locked with
    | true => exact kept.refused lock _
    | false =>
      refine kept.accepted lock rfl _ rfl (Registry.tidy_removeProperty kept.tidy _ _)
        (fun key => ?_) fun _ => rfl
      exact (Bag.find?_remove _ id key).trans (Event.getD_binding _ _ _).symm
  | setMethod id method =>
    change Kept _ ⟨s.world.released _, s.registry.setMethod s.locked id method⟩
    cases lock : s.locked with
    | true => exact kept.refused lock _
    | false =>
      refine kept.accepted lock rfl _ rfl (Registry.tidy_setMethod kept.tidy _ _ _)
        (fun _ => rfl) fun key => ?_
      exact (Table.find?_insert _ id key method).trans (Event.getD_binding _ _ _).symm
  | removeMethod id =>
    change Kept _ ⟨s.world.released _, (s.registry.removeMethod s.locked id).2⟩
    cases lock : s.locked with
    | true => exact kept.refused lock _
    | false =>
      refine kept.accepted lock rfl _ rfl (Registry.tidy_removeMethod kept.tidy _ _)
        (fun _ => rfl) fun key => ?_
      exact (Table.find?_erase _ id key).trans (Event.getD_binding _ _ _).symm
  | getProperty | hasProperty | hasMethod | enumerate =>
    exact kept.left onward (fun _ => rfl) (fun _ => rfl) (Bool.or_false _).symm
  | invoke | elsewhere => exact kept.left onward (fun _ => rfl) (fun _ => rfl) (locked_of_onward onward)
  | destroy =>
    refine kept.left onward (fun _ => rfl) (fun _ => rfl) ?_
    exact (s.world.shutDown_closed kept.known).trans (Bool.or_true _).symm
  | @closeGateway r known shares =>
    refine kept.left onward (fun _ => rfl) (fun _ => rfl) (Eq.trans ?_ (Bool.or_true _).symm)
    change (((WorldM.dropGateway β).run s.world).2.bridge s.registry.bridge).shutDown = true
    rw [World.run_dropGateway known, shares]
    exact World.shutDown_closed { s.world with gateway := none } kept.known

theorem Kept.listed (kept : Kept history s) : Listed history s.registry.identifiers := by
  refine ⟨s.registry.properties.identifiers, s.registry.methods.keys, rfl, ?_, ?_⟩
  · rw [← (funext kept.properties : s.registry.properties.find? = lastProperty history)]
    exact lists_keys kept.tidy.properties
  · rw [← (funext kept.methods : s.registry.methods.find? = lastMethod history)]
    exact lists_keys kept.tidy.methods

theorem Step.answered (step : Step β s e t) (kept : Kept history s) : Answered history e := by
  cases step with
  | setProperty | setMethod =>
    change (!s.locked) = !history.any Event.shutsDown
    rw [kept.locked]
  | removeProperty id =>
    change (s.registry.removeProperty s.locked id).1
      = (!history.any Event.shutsDown && (lastProperty history id).isSome)
    rw [← kept.locked, ← kept.properties]
    cases s.locked <;> rfl
  | removeMethod id =>
    change (s.registry.removeMethod s.locked id).1
      = (!history.any Event.shutsDown && (lastMethod history id).isSome)
    rw [← kept.locked, ← kept.methods]
    cases s.locked <;> rfl
  | hasProperty id => exact congrArg Option.isSome (kept.properties id)
  | getProperty id => exact kept.properties id
  | hasMethod id => exact congrArg Option.isSome (kept.methods id)
  | enumerate => exact kept.listed
  | invoke id args ran =>
    intro unbound
    rw [Registry.outcome_call_none ((kept.methods _).trans unbound)] at ran
    exact (Prod.mk.inj ran).1.symm
  | destroy | closeGateway | elsewhere => trivial

/-- Shutdown leaves nothing to change. -/
theorem Step.fixed (step : Step β s e t) (late : s.locked = true) : t.registry = s.registry := by
  cases step with
  | setProperty id value =>
    change s.registry.setProperty s.locked id value = _
    rw [late]
    rfl
  | removeProperty id =>
    change (s.registry.removeProperty s.locked id).2 = _
    rw [late]
    rfl
  | setMethod id method =>
    change s.registry.setMethod s.locked id method = _
    rw [late]
    rfl
  | removeMethod id =>
    change (s.registry.removeMethod s.locked id).2 = _
    rw [late]
    rfl
  | _ => rfl

/-- What binds no property leaves the properties alone, and what binds no method the methods. -/
theorem Step.apart (step : Step β s e t) :
    ((∀ id, e.property? id = none) → t.registry.properties = s.registry.properties) ∧
      ((∀ id, e.method? id = none) → t.registry.methods = s.registry.methods) := by
  cases step with
  | setProperty id value =>
    refine ⟨fun none_ => absurd (none_ id) (by simp [Event.property?]), fun _ => ?_⟩
    change (s.registry.setProperty s.locked id value).methods = _
    cases s.locked <;> rfl
  | removeProperty id =>
    refine ⟨fun none_ => absurd (none_ id) (by simp [Event.property?]), fun _ => ?_⟩
    change (s.registry.removeProperty s.locked id).2.methods = _
    cases s.locked <;> rfl
  | setMethod id method =>
    refine ⟨fun _ => ?_, fun none_ => absurd (none_ id) (by simp [Event.method?])⟩
    change (s.registry.setMethod s.locked id method).properties = _
    cases s.locked <;> rfl
  | removeMethod id =>
    refine ⟨fun _ => ?_, fun none_ => absurd (none_ id) (by simp [Event.method?])⟩
    change (s.registry.removeMethod s.locked id).2.properties = _
    cases s.locked <;> rfl
  | _ => exact ⟨fun _ => rfl, fun _ => rfl⟩

/-! ## Histories -/

/-- Every answer of a history is the right one at its time. -/
def AllAnswered (history : List (Event μ)) : Prop :=
  ∀ past e later, history = past ++ e :: later → Answered past e

theorem AllAnswered.concat (answered : AllAnswered history) (last : Answered history e) :
    AllAnswered (history ++ [e]) := by
  intro past other later is
  rcases List.eq_nil_or_concat later with rfl | ⟨init, final, rfl⟩
  · obtain ⟨rfl, same⟩ := List.append_inj' is rfl
    obtain rfl := List.singleton_inj.1 same
    exact last
  · rw [List.concat_eq_append, ← List.cons_append, ← List.append_assoc] at is
    exact answered past other init (List.append_inj' is rfl).1

theorem Path.kept (steady : β.Steady) (path : Path β s trace t) (kept : Kept history s)
    (answered : AllAnswered history) : Kept (history ++ trace) t ∧ AllAnswered (history ++ trace) := by
  induction path with
  | refl =>
    rw [List.append_nil]
    exact ⟨kept, answered⟩
  | next _ step ih =>
    obtain ⟨before, all⟩ := ih
    rw [← List.append_assoc]
    exact ⟨step.kept steady before, all.concat (step.answered before)⟩

/-- Once the bridge is shut down, the registry stays as it is for ever. -/
theorem Path.fixed (steady : β.Steady) (path : Path β s trace t) (late : s.locked = true) :
    t.registry = s.registry ∧ t.locked = true := by
  induction path with
  | refl => exact ⟨rfl, late⟩
  | @next t u past e _ step ih =>
    obtain ⟨same, still⟩ := ih
    have fixed := step.fixed still
    refine ⟨fixed.trans same, ?_⟩
    rw [locked, fixed]
    exact (step.onward steady).shutDown _ still

/-- What a registry has been through when it is made on a bridge. -/
def begun (w : World ρ μ) (bridge : Nat) : List (Event μ) :=
  if (w.bridge bridge).shutDown then [.destroy] else []

theorem answered_begun (w : World ρ μ) (bridge : Nat) : AllAnswered (begun w bridge : List (Event μ)) := by
  have none_ : AllAnswered ([] : List (Event μ)) := fun past e later is =>
    absurd is.symm (List.append_ne_nil_of_right_ne_nil _ (List.cons_ne_nil _ _))
  unfold begun
  split
  · exact none_.concat trivial
  · exact none_

theorem kept_empty (w : World ρ μ) {bridge : Nat} (known : bridge < w.bridges.length) :
    Kept (begun w bridge) ⟨w, .empty bridge⟩ := by
  have locked : InUse.locked (⟨w, .empty bridge⟩ : InUse ρ μ) = (w.bridge bridge).shutDown := rfl
  unfold begun
  cases down : (w.bridge bridge).shutDown <;>
    exact ⟨known, ⟨Table.sorted_empty, Table.sorted_empty⟩, fun _ => rfl, fun _ => rfl, locked.trans down⟩

/-- A registry after any history: two maps and a lock. -/
structure Refines (β : Behaviour ρ μ) (history : List (Event μ)) (s : InUse ρ μ) : Prop where
  properties : ∀ id, s.registry.properties.find? id = lastProperty history id
  methods : ∀ id, s.registry.methods.find? id = lastMethod history id
  locked : s.locked = history.any Event.shutsDown
  listed : Listed history s.registry.identifiers
  answered : AllAnswered history
  apart : ∀ e t, Step β s e t →
    ((∀ id, e.property? id = none) → t.registry.properties = s.registry.properties) ∧
      ((∀ id, e.method? id = none) → t.registry.methods = s.registry.methods)
  /-- A method that is not bound is not run, and nothing else is. -/
  unbound : ∀ id args w, lastMethod history id = none → (s.registry.call β id args).outcome w = (.ok none, w)
  legacy : ∀ id args w verb, lastMethod history id = some (.legacy verb) →
    (s.registry.call β id args).outcome w = (.ok (some verb.result), w)
  /-- The code that is run is the code bound last. -/
  runs : ∀ id args w body, lastMethod history id = some (.code body) →
    (s.registry.call β id args).outcome w = (((β.answer body s.registry id args).outcome w).1.map some,
      ((β.answer body s.registry id args).outcome w).2)
  fixed : history.any Event.shutsDown = true → ∀ later t, Path β s later t →
    t.registry = s.registry ∧ t.locked = true

/-- A new registry, whatever is done with it and to its bridge. -/
theorem refines_two_maps (steady : β.Steady) {w : World ρ μ} {bridge : Nat}
    (known : bridge < w.bridges.length) (path : Path β ⟨w, .empty bridge⟩ trace s) :
    Refines β (begun w bridge ++ trace) s := by
  obtain ⟨kept, answered⟩ := path.kept steady (kept_empty w known) (answered_begun w bridge)
  constructor
  case properties => exact kept.properties
  case methods => exact kept.methods
  case locked => exact kept.locked
  case listed => exact kept.listed
  case answered => exact answered
  case apart => exact fun e t step => step.apart
  case unbound => exact fun id args w is => Registry.outcome_call_none ((kept.methods id).trans is)
  case legacy => exact fun id args w verb is => Registry.outcome_call_legacy ((kept.methods id).trans is)
  case runs => exact fun id args w body is => Registry.outcome_call_code ((kept.methods id).trans is)
  case fixed => exact fun late later t path => path.fixed steady (kept.locked.trans late)

/-! ## A method that ends the session -/

/-- Methods shut their bridge down. -/
def ending : Behaviour Unit Unit where
  enter _ _ := pure none
  answer _ r _ _ := do
    Run.always (WorldM.destroyBridge r.bridge)
    return .done
  keeps _ := []

theorem steady_ending : ending.Steady := fun _ r _ _ w => w.onward_closed r.bridge

/-- A property and a method under one identifier. -/
def ended : List (Event Unit) :=
  let x := .index 1
  [.setProperty x (.int32 5) true, .setMethod x (.code ()) true, .setProperty x (.int32 6) true,
    .removeProperty (.index 2) false, .enumerate [x, x], .invoke x [] (.ok (some .done)) true,
    .setProperty x (.int32 7) false, .removeMethod x false, .getProperty x (some (.int32 6))]

theorem refines_two_maps_of_ended :
    ∃ s, Path ending ⟨.start (Host.start none) false, .empty 0⟩ ended s ∧ Refines ending ended s := by
  let start : InUse Unit Unit := ⟨.start (Host.start none) false, .empty 0⟩
  have fresh : Path ending start [] start := .refl start
  have bound := ((fresh.next (.setProperty (.index 1) (.int32 5))).next
    (.setMethod (.index 1) (.code ()))).next (.setProperty (.index 1) (.int32 6))
  have called := ((bound.next (.removeProperty (.index 2))).next .enumerate).next
    (.invoke (.index 1) [] rfl)
  have late := ((called.next (.setProperty (.index 1) (.int32 7))).next (.removeMethod (.index 1))).next
    (.getProperty (.index 1))
  have path : Path ending start ended _ := late
  exact ⟨_, path, refines_two_maps steady_ending (by decide) path⟩

end InUse

end ScriptBoundary
