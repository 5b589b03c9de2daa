import ScriptBoundary.Proofs.Gateway.Account

/-!
A gateway as the host's own store. Whatever happens in between, what the host wrote last under an
identifier is what it reads there, until it removes it.
-/

namespace ScriptBoundary

variable {ρ μ : Type}

/-- The gateway is only looked at, and names may be added. -/
structure LeavesGateway (w w' : World ρ μ) : Prop where
  gateway : w'.gateway = w.gateway
  names : w'.host.heap.names.Extends w.host.heap.names

theorem course_leavesGateway : Course (LeavesGateway : World ρ μ → World ρ μ → Prop) where
  quiet _ _ quiet := ⟨quiet.gateway, quiet.names⟩
  trans _ _ _ first second := ⟨second.gateway.trans first.gateway, second.names.trans first.names⟩

/-! ## The identifiers of an enumeration -/

namespace Gateway

theorem run_ids (keys : List Identifier) (host : Host ρ) :
    ∃ listed names, (ids keys).run host = (listed, host.withNames names) ∧
      names.Extends host.heap.names ∧ (∀ id ∈ listed, names.Handed id) ∧
      listed.map names.identifier = keys := by
  induction keys generalizing host with
  | nil => exact ⟨[], host.heap.names, rfl, .refl _, List.forall_mem_nil _, rfl⟩
  | cons key rest ih =>
    let first := host.heap.names.ofIdentifier key
    -- The first identifier keeps its meaning while the others are asked for.
    obtain ⟨others, names, ran, more, handed, are⟩ := ih (host.withNames first.2)
    have issued : first.2.Handed first.1 := host.heap.names.handed_ofIdentifier key
    have denotes : names.Denotes first.1 key := more.denotes (host.heap.names.denotes_ofIdentifier key)
    refine ⟨first.1 :: others, names, ?_, more.trans (host.heap.names.extends_ofIdentifier key),
      List.forall_mem_cons.2 ⟨more.handed issued, handed⟩, ?_⟩
    · exact congrArg (fun x : _ × Host ρ => (first.1 :: x.1, x.2)) ran
    · rw [List.map_cons, denotes.identifier, are]

/-- What an enumeration lists: first the properties, then the methods, each once. -/
structure Lists (r : Registry μ) (host : Host ρ) (properties methods : List HostId) : Prop where
  once : properties.Nodup ∧ methods.Nodup
  property : ∀ id, id ∈ properties ↔ host.heap.names.Handed id ∧ ((hasProperty id r).run host).1 = true
  method : ∀ id, id ∈ methods ↔ host.heap.names.Handed id ∧ ((hasMethod id r).run host).1 = true

theorem lists_of_keys {names : Names} {keys : List Identifier} {ids : List HostId} (nodup : keys.Nodup)
    (handed : ∀ id ∈ ids, names.Handed id) (are : ids.map names.identifier = keys) :
    ids.Nodup ∧ ∀ id, id ∈ ids ↔ names.Handed id ∧ names.identifier id ∈ keys := by
  subst are
  refine ⟨nodup.of_map _, fun id => ⟨fun inside => ⟨handed id inside, List.mem_map_of_mem inside⟩, ?_⟩⟩
  rintro ⟨known, there⟩
  obtain ⟨id', inside, same⟩ := List.mem_map.1 there
  exact ((handed id' inside).identifier_inj known).1 same ▸ inside

theorem enumerate_lists {r : Registry μ} (tidy : r.Tidy) (host : Host ρ) :
    ∃ properties methods names, (ids r.identifiers).run host
        = (properties ++ methods, host.withNames names) ∧
      names.Extends host.heap.names ∧ Lists r (host.withNames names) properties methods := by
  obtain ⟨listed, names, ran, more, handed, are⟩ := run_ids r.identifiers host
  obtain ⟨properties, methods, rfl, ofProperties, ofMethods⟩ := List.map_eq_append_iff.1 are
  obtain ⟨onceP, memP⟩ := lists_of_keys (Table.nodup_keys tidy.properties)
    (fun id inside => handed id (List.mem_append_left _ inside)) ofProperties
  obtain ⟨onceM, memM⟩ := lists_of_keys (Table.nodup_keys tidy.methods)
    (fun id inside => handed id (List.mem_append_right _ inside)) ofMethods
  refine ⟨properties, methods, names, ran, more, ⟨onceP, onceM⟩, fun id => ?_, fun id => ?_⟩
  · rw [memP, ← Table.contains_iff_mem_keys]
    rfl
  · rw [memM, ← Table.contains_iff_mem_keys]
    rfl

end Gateway

/-! ## A host that uses its gateway -/

structure Use (ρ μ : Type) where
  world : World ρ μ
  /-- What everybody owns besides the session. -/
  owned : List Handle
  /-- What the host wrote, and where it removed something, the newest first. -/
  log : List (HostId × Option Raw)

namespace Use

abbrev names (s : Use ρ μ) : Names := s.world.host.heap.names

/-- The log with one change more, if the registry still takes changes. -/
def noted (s : Use ρ μ) (r : Registry μ) (id : HostId) (change : Option Raw) :
    List (HostId × Option Raw) :=
  if (s.world.bridge r.bridge).shutDown then s.log else (id, change) :: s.log

/-- What happens while a host uses its gateway, one thing after another. -/
inductive Step (β : Behaviour ρ μ) : Use ρ μ → Use ρ μ → Prop where
  | set {s} {r : Registry μ} {id : HostId} {raw : Raw} (known : s.world.gateway = some r)
      (handed : s.names.Handed id) (live : ∀ h ∈ raw.handles, s.world.host.heap.isLive h) :
      Step β s
        { s with
          world := ((WorldM.changeGateway (Gateway.setProperty id raw) r).run s.world).2
          log := s.noted r id (some raw) }
  | remove {s} {r : Registry μ} {id : HostId} (known : s.world.gateway = some r)
      (handed : s.names.Handed id) :
      Step β s
        { s with
          world := ((WorldM.changeGateway (Gateway.removeProperty id) r).run s.world).2
          log := s.noted r id none }
  | get {s} {r : Registry μ} {id : HostId} {answer : Except Fault (Option Raw)} {w : World ρ μ}
      (known : s.world.gateway = some r)
      (ran : (Gateway.getProperty β id r).outcome s.world = (answer, w)) :
      Step β s
        { s with
          world := w
          owned := Run.handed (fun raw => raw.elim [] Raw.handles) answer ++ s.owned }
  | enumerate {s} {r : Registry μ} (known : s.world.gateway = some r) :
      Step β s { s with world := ((WorldM.onHost (Gateway.ids r.identifiers)).run s.world).2 }
  | invoke {s} {r : Registry μ} {id : HostId} {args : List Raw} {answer : Except Fault (Bool × Option Raw)}
      {w : World ρ μ} (known : s.world.gateway = some r)
      (live : ∀ raw ∈ args, ∀ h ∈ raw.handles, s.world.host.heap.isLive h)
      (ran : (Gateway.invoke β id args r).outcome s.world = (answer, w)) :
      Step β s
        { s with
          world := w
          owned := Run.handed (fun answer => answer.2.elim [] Raw.handles) answer ++ s.owned }
  /-- Objects change, references come and go, calls are made, and shutdown may begin. -/
  | elsewhere {s} (w : World ρ μ) (owned : List Handle)
      (keeps : ∀ gone, s.world.Accounted β gone s.owned →
        LeavesGateway s.world w ∧ w.Accounted β gone owned) :
      Step β s { s with world := w, owned := owned }

/-- What the use of a gateway can come to that the host starts with an empty log. -/
inductive Reachable (β : Behaviour ρ μ) (w : World ρ μ) (owned : List Handle) : Use ρ μ → Prop where
  | start : Reachable β w owned ⟨w, owned, []⟩
  | next {s t} : Reachable β w owned s → Step β s t → Reachable β w owned t

/-- Whatever keeps account and leaves the gateway alone may happen in between. -/
theorem Reachable.meanwhile {β : Behaviour ρ μ} {w : World ρ μ} {owned lent taken rest : List Handle}
    {s : Use ρ μ} {α : Type} {op : WorldM ρ μ α} {given : α → List Handle}
    (reached : Reachable β w owned s) (fair : WorldM.Fair β LeavesGateway lent taken op given)
    (lends : ∀ h ∈ lent, h ∈ rest) (owns : s.owned.Perm (taken ++ rest)) :
    Reachable β w owned
      { s with world := (op.run s.world).2, owned := given (op.run s.world).1 ++ rest } :=
  reached.next (.elsewhere _ _ fun gone accounted => fair gone s.world rest lends (accounted.perm owns))

/-! ## What the registry keeps of it -/

/-- What is bound for what the host wrote: the same scalar, or a bag backed by the object. -/
inductive Stored (gone : Handle → Prop) : Option Raw → Option Value → Prop where
  | absent : Stored gone none none
  | scalar (s : Scalar) : Stored gone (some (.scalar s)) (some (.scalar s))
  | object {h : Handle} {b : Bag Value} (backing : b.backing = some h) (lives : ¬ gone h) :
      Stored gone (some (.object h)) (some (.object b))

theorem stored_of_read {gone : Handle → Prop} {host : Host ρ} {owned : List Handle}
    (sound : host.heap.Sound gone owned) {raw : Raw} {v : Value}
    (live : ∀ h ∈ raw.handles, host.heap.isLive h)
    (read : Marshal.ValueRead host Marshal.depthLimit [] raw v) : Stored gone (some raw) (some v) := by
  cases raw with
  | scalar s =>
    cases read
    exact .scalar s
  | object h =>
    obtain ⟨b, rfl, object⟩ := read
    refine .object object.backing fun was => ?_
    obtain ⟨e, found⟩ := Table.contains_iff.1 (live h List.mem_cons_self)
    cases (sound.freed was).2.symm.trans found

/-- The registry holds the last of what is in the log, and otherwise what it held at first. -/
structure Kept (β : Behaviour ρ μ) (gone : Handle → Prop) (first : Registry μ) (s : Use ρ μ)
    (r : Registry μ) : Prop where
  gateway : s.world.gateway = some r
  accounted : s.world.Accounted β gone s.owned
  handed : ∀ id change, s.log.lookup id = some change → s.names.Handed id
  stored : ∀ id change, s.log.lookup id = some change →
    Stored gone change (r.properties.find? (s.names.identifier id))
  untouched : ∀ key, (∀ id change, s.log.lookup id = some change → s.names.identifier id ≠ key) →
    r.properties.find? key = first.properties.find? key

variable {β : Behaviour ρ μ} {gone : Handle → Prop} {s t : Use ρ μ} {first r : Registry μ} {w : World ρ μ}
  {owned : List Handle}

theorem Kept.left (kept : Kept β gone first s r) (leaves : LeavesGateway s.world w)
    (accounted : w.Accounted β gone owned) :
    Kept β gone first { s with world := w, owned := owned } r := by
  have same {id : HostId} {change : Option Raw} (there : s.log.lookup id = some change) :
      w.host.heap.names.identifier id = s.names.identifier id :=
    (kept.handed id change there).identifier leaves.names
  constructor
  case gateway => exact leaves.gateway.trans kept.gateway
  case accounted => exact accounted
  case handed => exact fun id change there => leaves.names.handed (kept.handed id change there)
  case stored => exact fun id change there => (same there).symm ▸ kept.stored id change there
  case untouched =>
    exact fun key none_ => kept.untouched key fun id change there => same there ▸ none_ id change there

theorem lookup_cons (log : List (HostId × Option Raw)) (id id' : HostId) (change : Option Raw) :
    ((id, change) :: log).lookup id' = if id' = id then some change else log.lookup id' := by
  rw [List.lookup_cons]
  split <;> simp_all

/-- One property changes, and the log says so. -/
theorem Kept.changed (kept : Kept β gone first s r) {id : HostId} {change : Option Raw} {r' : Registry μ}
    (handed : s.names.Handed id) (gateway : w.gateway = some r')
    (names : w.host.heap.names.Extends s.names) (accounted : w.Accounted β gone s.owned)
    (here : Stored gone change (r'.properties.find? (s.names.identifier id)))
    (others : ∀ key, key ≠ s.names.identifier id → r'.properties.find? key = r.properties.find? key) :
    Kept β gone first { s with world := w, log := (id, change) :: s.log } r' := by
  have known {id' : HostId} {change' : Option Raw}
      (there : ((id, change) :: s.log).lookup id' = some change') : s.names.Handed id' := by
    rw [lookup_cons] at there
    split at there
    next same => exact same ▸ handed
    next => exact kept.handed id' change' there
  constructor
  case gateway => exact gateway
  case accounted => exact accounted
  case handed => exact fun id' change' there => names.handed (known there)
  case stored =>
    intro id' change' there
    have handed' := known there
    rw [handed'.identifier names]
    rw [lookup_cons] at there
    split at there
    next same =>
      cases there
      exact same ▸ here
    next other =>
      -- Two identifiers cannot meet in one key.
      rw [others _ fun same => other ((handed'.identifier_inj handed).1 same)]
      exact kept.stored id' change' there
  case untouched =>
    intro key none_
    have apart {id' : HostId} {change' : Option Raw}
        (there : ((id, change) :: s.log).lookup id' = some change') : s.names.identifier id' ≠ key :=
      (known there).identifier names ▸ none_ id' change' there
    have new : s.names.identifier id ≠ key := apart ((lookup_cons _ _ _ _).trans (if_pos rfl))
    rw [others key (Ne.symm new)]
    refine kept.untouched key fun id' change' there => ?_
    by_cases same : id' = id
    · exact same ▸ new
    · exact apart ((lookup_cons _ _ _ _).trans ((if_neg same).trans there))

/-- Shutdown ends all changes. -/
theorem Kept.noted (kept : Kept β gone first s r) {id : HostId} {change : Option Raw} {r' : Registry μ}
    (handed : s.names.Handed id) (gateway : w.gateway = some r')
    (names : w.host.heap.names.Extends s.names) (accounted : w.Accounted β gone s.owned)
    (shut : (s.world.bridge r.bridge).shutDown = true → r' = r)
    (here : (s.world.bridge r.bridge).shutDown = false →
      Stored gone change (r'.properties.find? (s.names.identifier id)) ∧
        ∀ key, key ≠ s.names.identifier id → r'.properties.find? key = r.properties.find? key) :
    Kept β gone first { s with world := w, log := s.noted r id change } r' := by
  cases late : (s.world.bridge r.bridge).shutDown with
  | true =>
    rw [Use.noted, late]
    cases shut late
    exact kept.left ⟨gateway.trans kept.gateway.symm, names⟩ accounted
  | false =>
    rw [Use.noted, late]
    exact kept.changed handed gateway names accounted (here late).1 (here late).2

theorem Step.kept (honest : Honest β LeavesGateway) (dutiful : Dutiful β LeavesGateway)
    (step : Step β s t) (kept : Kept β gone first s r) : ∃ r', Kept β gone first t r' := by
  have bound : r ∈ s.world.registries := registry_mem kept.gateway
  have same {r' : Registry μ} (known : s.world.gateway = some r') : r' = r :=
    Option.some.inj (known.symm.trans kept.gateway)
  have ran {α : Type} {op : Run ρ μ α} {given : α → List Handle} {answer : Except Fault α}
      {w : World ρ μ} (fair : Run.FairAt β LeavesGateway s.world [] [] op given)
      (ran : op.outcome s.world = (answer, w)) :
      Kept β gone first { s with world := w, owned := Run.handed given answer ++ s.owned } r := by
    obtain ⟨leaves, accounted⟩ := fair gone s.owned (List.forall_mem_nil _) kept.accounted
    rw [ran] at leaves accounted
    exact kept.left leaves accounted
  cases step with
  | @set r' id raw known handed live =>
    cases same known
    obtain ⟨v, w, became, gateway, _, names, read, accounted⟩ :=
      kept.accounted.setProperty kept.gateway live id
    rw [became]
    refine ⟨_, kept.noted handed gateway names accounted (fun late => ?_) fun early => ?_⟩
    · rw [late]
      rfl
    · rw [early]
      simp only [Registry.setProperty, Bool.false_eq_true, if_false, Bag.find?_set, if_true]
      exact ⟨stored_of_read kept.accounted.heap live read, fun key other => if_neg other⟩
  | @remove r' id known handed =>
    cases same known
    obtain ⟨w, became, gateway, names, accounted⟩ := kept.accounted.removeProperty kept.gateway id
    rw [became]
    refine ⟨_, kept.noted handed gateway names accounted (fun late => ?_) fun early => ?_⟩
    · rw [late]
      rfl
    · rw [early]
      simp only [Registry.removeProperty, Bool.false_eq_true, if_false, Bag.find?_remove, if_true]
      exact ⟨.absent, fun key other => if_neg other⟩
  | get known executed =>
    cases same known
    exact ⟨r, ran (Gateway.fairAt_getProperty course_leavesGateway honest bound _) executed⟩
  | enumerate known =>
    cases same known
    obtain ⟨listed, names, run, more, _⟩ := Gateway.run_ids r.identifiers s.world.host
    have became : ((WorldM.onHost (Gateway.ids r.identifiers)).run s.world).2
        = s.world.withHost (s.world.host.withNames names) :=
      congrArg (fun x : _ × Host ρ => s.world.withHost x.2) run
    rw [became]
    refine ⟨r, kept.left ⟨rfl, more⟩ ?_⟩
    exact kept.accounted.withHost rfl (kept.accounted.heap.withNames names)
  | invoke known live executed =>
    cases same known
    exact ⟨r, ran (Gateway.fairAt_invoke course_leavesGateway honest dutiful bound _ live) executed⟩
  | elsewhere w owned keeps =>
    obtain ⟨leaves, accounted⟩ := keeps gone kept.accounted
    exact ⟨r, kept.left leaves accounted⟩

/-! ## What the host gets -/

theorem kept_of_reachable (honest : Honest β LeavesGateway) (dutiful : Dutiful β LeavesGateway)
    (accounted : w.Accounted β gone owned) (known : w.gateway = some first)
    (reached : Reachable β w owned s) : ∃ r, Kept β gone first s r := by
  induction reached with
  | start =>
    refine ⟨first, known, accounted, ?_, ?_, fun _ _ => rfl⟩ <;>
      exact fun id change there => by cases there
  | next _ step ih =>
    obtain ⟨r, kept⟩ := ih
    exact step.kept honest dutiful kept

/-- How a gateway serves its host as a store. -/
structure Serves (β : Behaviour ρ μ) (first : Registry μ) (s : Use ρ μ) (r : Registry μ) : Prop where
  /-- No two identifiers stand for one property. -/
  apart : ∀ id id', s.names.Handed id → s.names.Handed id' →
    (s.names.identifier id = s.names.identifier id' ↔ id = id')
  /-- What was written last is read, with one reference more to an object, and nothing else changes. -/
  get : ∀ id raw, s.log.lookup id = some (some raw) → ∃ host,
    (Gateway.getProperty β id r).outcome s.world = (.ok (some raw), s.world.withHost host) ∧
      s.world.host.Lends raw.handles host ∧
      ∀ h ∈ raw.handles, s.world.host.heap.isLive h ∧ host.heap.refs h = s.world.host.heap.refs h + 1
  removed : ∀ id, s.log.lookup id = some none →
    (Gateway.getProperty β id r).outcome s.world = (.ok none, s.world)
  /-- What was neither written nor removed is as it was at first. -/
  untouched : ∀ id, s.names.Handed id → s.log.lookup id = none →
    r.properties.find? (s.names.identifier id) = first.properties.find? (s.names.identifier id)
  has : ∀ id change, s.log.lookup id = some change →
    (Gateway.hasProperty id r).run s.world.host = (change.isSome, s.world.host)
  set : ∀ id raw, ((WorldM.changeGateway (Gateway.setProperty id raw) r).run s.world).1
    = !(s.world.bridge r.bridge).shutDown
  remove : ∀ id, (s.world.bridge r.bridge).shutDown = false →
    ((WorldM.changeGateway (Gateway.removeProperty id) r).run s.world).1
      = ((Gateway.hasProperty id r).run s.world.host).1
  enumerate : ∃ properties methods names, (Gateway.ids r.identifiers).run s.world.host
      = (properties ++ methods, s.world.host.withNames names) ∧
    names.Extends s.names ∧ Gateway.Lists r (s.world.host.withNames names) properties methods

theorem Kept.get (kept : Kept β gone first s r) {id : HostId} {raw : Raw}
    (there : s.log.lookup id = some (some raw)) : ∃ host,
      (Gateway.getProperty β id r).outcome s.world = (.ok (some raw), s.world.withHost host) ∧
        s.world.host.Lends raw.handles host ∧
        ∀ h ∈ raw.handles, s.world.host.heap.isLive h ∧
          host.heap.refs h = s.world.host.heap.refs h + 1 := by
  have positive := kept.accounted.heap.positive
  have stored := kept.stored id _ there
  generalize found : r.properties.find? (s.names.identifier id) = bound at stored
  cases stored with
  | scalar c =>
    refine ⟨s.world.host, ?_, .refl _, List.forall_mem_nil _⟩
    have ran := Gateway.outcome_getProperty found (Gateway.outcome_writeForHost_scalar (β := β) c)
    rwa [show (Value.scalar c).handles = [] by rw [Value.handles], World.released_nil] at ran
  | @object h b backing lives =>
    have ran := Gateway.outcome_getProperty found
      (Gateway.outcome_writeForHost_of_backed (β := β) backing)
    have inside : h ∈ (Value.object b).handles := by
      change h ∈ b.handles
      rw [Bag.handles_eq, backing]
      exact List.mem_append_right _ List.mem_cons_self
    obtain ⟨e, there⟩ :=
      (kept.accounted.live_bound (registry_mem kept.gateway) found inside).resolve_left lives
    have live : s.world.host.heap.isLive h := Table.contains_iff.2 ⟨e, there⟩
    -- The copy of the bag is out while its object is handed over, and goes when that is done.
    have copied := (Host.Lends.refl s.world.host).retainAll (Value.object b).handles
    have out := (copied.retainAll [h]).retainAll [h]
    have back := out.releaseAll positive
    rw [List.append_nil] at back
    have lends := (back.perm List.perm_append_comm).releaseAll positive
    refine ⟨_, ran, lends, fun x here => ?_⟩
    cases List.mem_singleton.1 here
    refine ⟨live, (lends.heap.refs live).trans ?_⟩
    rw [List.count_singleton_self]

/-- A gateway is a store for its host, whatever host functions and methods do within their contracts. -/
theorem gateway_stores (honest : Honest β LeavesGateway) (dutiful : Dutiful β LeavesGateway)
    (accounted : w.Accounted β gone owned) (known : w.gateway = some first)
    (reached : Reachable β w owned s) : ∃ r, s.world.gateway = some r ∧ Serves β first s r := by
  obtain ⟨r, kept⟩ := kept_of_reachable honest dutiful accounted known reached
  refine ⟨r, kept.gateway, ?_⟩
  constructor
  case apart => exact fun id id' handed handed' => handed.identifier_inj handed'
  case get => exact fun id raw there => kept.get there
  case removed =>
    intro id there
    apply Gateway.outcome_getProperty_of_absent
    have stored := kept.stored id none there
    generalize r.properties.find? (s.names.identifier id) = bound at stored
    cases stored
    rfl
  case untouched =>
    intro id handed never
    refine kept.untouched _ fun id' change there same => ?_
    rw [((kept.handed id' change there).identifier_inj handed).1 same, never] at there
    cases there
  case has =>
    intro id change there
    have stored := kept.stored id change there
    have bound : (r.properties.find? (s.names.identifier id)).isSome = change.isSome := by
      generalize r.properties.find? (s.names.identifier id) = bound at stored
      cases stored <;> rfl
    exact Prod.ext bound rfl
  case set => exact fun id raw => rfl
  case remove =>
    intro id early
    rw [Gateway.run_removeProperty, early]
    rfl
  case enumerate =>
    exact Gateway.enumerate_lists (kept.accounted.registries r (registry_mem kept.gateway)) s.world.host

/-- Methods and host functions that do nothing. -/
def silent : Behaviour Unit Unit where
  enter _ _ := return none
  answer _ _ _ _ := return .unhandled
  keeps _ := []

theorem honest_silent {R : World Unit Unit → World Unit Unit → Prop} (course : Course R) :
    Honest silent R := fun _ _ => Run.fair_pure course (.refl _)

theorem dutiful_silent {R : World Unit Unit → World Unit Unit → Prop} (course : Course R) :
    Dutiful silent R := fun _ _ _ _ _ _ => .pure course (.refl _)

/-- A host that has an object and knows the name "3". -/
def withObject : Ledger Unit :=
  ((Ledger.start none).act (Host.intern "3")).hand (Host.onHeap (Heap.alloc .plain)) fun h => [h]

theorem reachable_withObject : Ledger.Reachable silent (fun _ _ => True) none withObject :=
  .next (.next .start (.intern "3")) .createObject

/-- The object is written under the text "3" and a number under the integer 3; then the host gives up
the object, which the gateway alone holds from then on. -/
theorem gateway_stores_of_released :
    ∃ (gone : Handle → Prop) (w : World Unit Unit) (s : Use Unit Unit) (r : Registry Unit),
      w.Accounted silent gone [⟨2⟩] ∧ Reachable silent w [⟨2⟩] s ∧ s.owned = [] ∧
      s.log = [(.ofInt32 3, some (.int32 5)), (.name 0, some (.object ⟨2⟩))] ∧
      s.world.gateway = some r ∧ Serves silent (.empty 0) s r := by
  let w : World Unit Unit := { World.start withObject.host false with gateway := some (.empty 0) }
  have accounted : w.Accounted silent withObject.host.heap.Freed [⟨2⟩] :=
    ((Ledger.balanced_of_reachable reachable_withObject).accounted_start false).withGateway
      ⟨Table.sorted_empty, Table.sorted_empty⟩ (.refl _)
  have first : Reachable silent w [⟨2⟩] ⟨w, [⟨2⟩], []⟩ := .start
  have object := first.next (@Step.set _ _ _ _ _ (.name 0) (.object ⟨2⟩) rfl ⟨.name "3", rfl⟩
    fun h inside => by
      cases List.mem_singleton.1 inside
      rfl)
  have number := object.next (@Step.set _ _ _ _ _ (.ofInt32 3) (.int32 5) rfl (Names.handed_ofInt32 _ _)
    (List.forall_mem_nil _))
  have release : WorldM.Fair silent LeavesGateway [] ([⟨2⟩] ++ []) (WorldM.releaseAll [⟨2⟩])
      fun _ => [] := WorldM.fair_releaseAll course_leavesGateway [⟨2⟩]
  have released := number.meanwhile release (fun h inside => inside) (.refl _)
  obtain ⟨r, known, serves⟩ := gateway_stores (honest_silent course_leavesGateway)
    (dutiful_silent course_leavesGateway) accounted rfl released
  exact ⟨_, w, _, r, accounted, released, rfl, rfl, known, serves⟩

end Use

end ScriptBoundary
