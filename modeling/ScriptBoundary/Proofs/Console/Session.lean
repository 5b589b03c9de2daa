import ScriptBoundary.Proofs.Console.Conduct
import ScriptBoundary.Proofs.Host.Names

/-!
The session of a shell. From its start on, whatever the commands are, its gateway stays open and is
reached on the host thread, and the names of its properties are read as integers where they can be.
-/

namespace ScriptBoundary

open Session (HostCode EngineCode standard)

namespace Shell

/-- Every property is bound under an identifier that some text is read as. -/
def Folded (properties : Bag Value) : Prop :=
  ∀ id, (properties.find? id).isSome → ∃ text, id = .ofText text

/-- A session that goes on. -/
structure Open (r : Registry EngineCode) (w : Shell) : Prop where
  gateway : w.gateway = some r
  accepts : (w.bridge r.bridge).shutDown = false
  alive : w.hostGone = false
  idle : w.queue = []
  mild : MildMethods r
  folded : Folded r.properties
  tame : w.host.heap.Tame Harmless

variable {r : Registry EngineCode} {w w' : Shell}

theorem Open.spared (is : Open r w) (spares : w.Spares w') (tame : w'.host.heap.Tame Harmless) : Open r w' where
  gateway := spares.gateway.trans is.gateway
  accepts := (spares.shutDown r.bridge).trans is.accepts
  alive := spares.hostGone.trans is.alive
  idle := spares.queue.trans is.idle
  mild := is.mild
  folded := is.folded
  tame := tame

/-- The properties of the registry may change. -/
theorem Open.rebound (is : Open r w) {host : Host HostCode} (tame : host.heap.Tame Harmless)
    {properties : Bag Value} (folded : Folded properties) :
    Open { r with properties := properties }
      { w.withHost host with gateway := some { r with properties := properties } } where
  gateway := rfl
  accepts := is.accepts
  alive := is.alive
  idle := is.idle
  mild := is.mild
  folded := folded
  tame := tame

theorem Folded.set {properties : Bag Value} (folded : Folded properties) (text : String) (v : Value) :
    Folded (properties.set (.ofText text) v) := by
  intro id inside
  rw [Bag.find?_set] at inside
  split at inside
  next here => exact ⟨text, here⟩
  next => exact folded id inside

theorem Folded.remove {properties : Bag Value} (folded : Folded properties) (id : Identifier) :
    Folded (properties.remove id) := by
  intro key inside
  rw [Bag.find?_remove] at inside
  split at inside
  · cases inside
  · exact folded key inside

/-! ## The start -/

/-- A registry as it is furnished: on its bridge, with the methods and names of a shell. -/
structure Fresh (number : Nat) (r : Registry EngineCode) : Prop where
  bridge : r.bridge = number
  mild : MildMethods r
  folded : Folded r.properties

variable {number : Nat}

theorem fresh_empty (number : Nat) : Fresh number (Registry.empty number) :=
  ⟨rfl, nofun, nofun⟩

theorem Fresh.setProperty (fresh : Fresh number r) (shutDown : Bool) (text : String) (v : Value) :
    Fresh number (r.setProperty shutDown (.ofText text) v) := by
  cases shutDown with
  | true => exact fresh
  | false => exact ⟨fresh.bridge, fresh.mild, fresh.folded.set text v⟩

theorem Fresh.setMethod (fresh : Fresh number r) (id : Identifier) {m : Method EngineCode} (mild : Mild m) :
    Fresh number (r.setMethod false id m) := by
  refine ⟨fresh.bridge, fun id' m' found => ?_, fresh.folded⟩
  change (r.methods.insert id m).find? id' = some m' at found
  rw [Table.find?_insert] at found
  split at found
  · cases found
    exact mild
  · exact fresh.mild id' m' found

theorem Fresh.withLegacyVerbs (fresh : Fresh number r) : Fresh number (Gateway.withLegacyVerbs r) := by
  unfold Gateway.withLegacyVerbs
  generalize LegacyVerb.all = verbs
  induction verbs generalizing r with
  | nil => exact fresh
  | cons verb rest ih => exact ih (fresh.setMethod _ (m := .legacy verb) trivial)

theorem Fresh.withMethods (fresh : Fresh number r) : Fresh number (withMethods r) := by
  have echo := fresh.setMethod (.ofText "echo") (m := .code (.echo true)) trivial
  have count := echo.setMethod (.ofText "count") (m := .code .count) trivial
  exact count.setMethod (.ofText "relay") (m := .code .relay) trivial

theorem calm_bindProperty (id : Identifier) (v : Value) (r : Registry EngineCode) :
    WorldM.Calm Harmless (r.bindProperty id v : WorldM HostCode EngineCode _) := by
  refine .bind (.get fun w => .pure _) fun shutDown => ?_
  exact (WorldM.Calm.releaseAll _).bind fun _ => .pure _

theorem calm_copyFrom (element : Handle) (names : List String) (r : Registry EngineCode) :
    WorldM.Calm Harmless (Gateway.copyFrom element names r : WorldM HostCode EngineCode _) := by
  induction names generalizing r with
  | nil => exact .pure _
  | cons name rest ih =>
    refine (WorldM.Calm.onHost fun host tame => durable_tame.intern host name tame).bind fun id => ?_
    refine (WorldM.Calm.onHost (durable_tame.keeps_getProperty element id)).bind fun value? => ?_
    cases value? with
    | none => exact ih r
    | some raw =>
      refine (WorldM.Calm.onHost (Marshal.keeps_readAt durable_tame _ _ raw)).bind fun v => ?_
      exact (WorldM.Calm.releaseAll _).bind fun _ => (calm_bindProperty _ v r).bind fun bound => ih bound.2

/-- What a computation answers, in whatever world it runs. -/
def Yields {α : Type} (P : α → Prop) (op : ShellM α) : Prop := ∀ w, P (op.run w).1

theorem Yields.bind {α γ : Type} {P : α → Prop} {Q : γ → Prop} {op : ShellM α} {next : α → ShellM γ}
    (first : Yields P op) (second : ∀ a, P a → Yields Q (next a)) : Yields Q (op >>= next) :=
  fun w => second _ (first w) _

theorem Yields.after {α γ : Type} {Q : γ → Prop} {op : ShellM α} {next : α → ShellM γ}
    (yields : ∀ a, Yields Q (next a)) : Yields Q (op >>= next) := fun _ => yields _ _

theorem Fresh.bindProperty (fresh : Fresh number r) (text : String) (v : Value) :
    Yields (fun bound => Fresh number bound.2) (r.bindProperty (.ofText text) v) :=
  fun _ => fresh.setProperty _ text v

theorem Fresh.copyFrom (fresh : Fresh number r) (element : Handle) (names : List String) :
    Yields (Fresh number) (Gateway.copyFrom element names r) := by
  induction names generalizing r with
  | nil => exact fun _ => fresh
  | cons name rest ih =>
    refine .after fun id => .after fun value? => ?_
    cases value? with
    | none => exact ih fresh
    | some raw => exact .after fun v => .after fun _ => (fresh.bindProperty name v).bind fun bound => ih

theorem Fresh.copyElementIds (fresh : Fresh number r) :
    Yields (Fresh number) (Gateway.copyElementIds r) := by
  refine .after fun element? => ?_
  cases element? with
  | none => exact fun _ => fresh
  | some element => exact (fresh.copyFrom element _).bind fun r fresh => .after fun _ _ => fresh

theorem calm_copyElementIds (r : Registry EngineCode) :
    WorldM.Calm Harmless (Gateway.copyElementIds r : WorldM HostCode EngineCode _) := by
  have asked : WorldM.Calm Harmless (WorldM.onHost Host.elementObject : WorldM HostCode EngineCode _) := by
    refine .onHost fun host tame => ?_
    rw [Host.run_elementObject]
    split
    · exact tame
    · exact tame.retainAll _
  refine asked.bind fun element? => ?_
  cases element? with
  | none => exact .pure _
  | some element =>
    exact (calm_copyFrom element _ r).bind fun r => (WorldM.Calm.releaseAll _).bind fun _ => .pure _

theorem tame_start : (Host.start (some ("hbridge", "hbridge")) : Host HostCode).heap.Tame Harmless := by
  have empty : (Heap.empty : Heap HostCode).Tame Harmless := nofun
  have global := empty.alloc .plain nofun
  have element := global.alloc .plain nofun
  exact ((element.intern "id").intern "name").store _ _ _ |>.store _ _ _

theorem keeps_defineFunction (name : String) (code : HostCode) (safe : Harmless code) :
    Host.Keeps (fun host => host.heap.Tame Harmless) (Host.defineFunction name code) := by
  intro host tame
  have made : (host.heap.alloc (.function code)).2.Tame Harmless := tame.alloc _ fun _ is => by cases is; exact safe
  exact (made.put _ name _).releaseAll _

theorem keeps_defineSettings : Host.Keeps (fun host => host.heap.Tame Harmless) defineSettings := by
  intro host tame
  have made := tame.alloc .plain nofun
  exact ((made.put _ "theme" _).defineExpression "settings" _).releaseAll _

/-- A world with one more bridge. -/
def withNewBridge (settings : Settings) (w : Shell) : Shell :=
  { w with bridges := w.bridges ++ [Bridge.start settings.marshalExceptions] }

theorem gateway_start (settings : Settings) (w : Shell) (tame : w.host.heap.Tame Harmless) :
    Fresh w.bridges.length ((Gateway.start settings).run w).1 ∧
      (withNewBridge settings w).Spares ((Gateway.start settings).run w).2 ∧
      ((Gateway.start settings).run w).2.host.heap.Tame Harmless := by
  let first : Registry EngineCode :=
    (Registry.empty w.bridges.length).setProperty false (.ofText "$version") (.string settings.version)
  let verbs := if settings.legacyMethods then Gateway.withLegacyVerbs first else first
  have fresh : Fresh w.bridges.length verbs := by
    have versioned : Fresh w.bridges.length first := (fresh_empty _).setProperty false "$version" _
    unfold verbs
    split
    · exact versioned.withLegacyVerbs
    · exact versioned
  have ran : (Gateway.start settings).run w = StateT.run
      (if settings.exposeElementIds then Gateway.copyElementIds verbs else pure verbs)
      (withNewBridge settings w) := rfl
  rw [ran]
  split
  · exact ⟨fresh.copyElementIds _, calm_copyElementIds verbs _ tame⟩
  · exact ⟨fresh, .refl _, tame⟩

theorem run_openGateway (settings : Settings) {w : Shell} (closed : w.gateway = none)
    (tame : w.host.heap.Tame Harmless) :
    ((WorldM.openGateway standard settings).run w).2
      = { ((Gateway.start settings).run w).2 with
          gateway := some ((Gateway.start settings).run w).1
          current := ((Gateway.start settings).run w).1.bridge } := by
  have first : ((Gateway.start settings).run w).2.gateway = none :=
    (gateway_start settings w tame).2.1.gateway.trans closed
  unfold WorldM.openGateway
  rw [StateT.run_bind]
  generalize (Gateway.start settings).run w = opened at first ⊢
  obtain ⟨r, host, bridges, current, gateway, object, queue, hostGone, entered, printed, gate⟩ := opened
  cases first
  rfl

/-- A shell starts with its gateway open. -/
theorem open_start (settings : Settings) : ∃ r, Open r (start settings) := by
  let defined : HostM HostCode Unit := do
    let _ ← Host.defineFunction "alert" .alert
    let _ ← Host.defineFunction "add" .add
    defineSettings
  let w : Shell :=
    (World.start (Host.start (some ("hbridge", "hbridge"))) false).withHost
      (defined.run (Host.start (some ("hbridge", "hbridge")))).2
  have tame : w.host.heap.Tame Harmless :=
    ((keeps_defineFunction "alert" .alert trivial).bind fun _ =>
      (keeps_defineFunction "add" .add trivial).bind fun _ => keeps_defineSettings) _ tame_start
  obtain ⟨fresh, spares, tame'⟩ := gateway_start settings w tame
  have is : start settings
      = { ((WorldM.openGateway standard settings).run w).2 with
          gateway := ((WorldM.openGateway standard settings).run w).2.gateway.map withMethods } := rfl
  rw [is, run_openGateway settings rfl tame]
  refine ⟨withMethods ((Gateway.start settings).run w).1, ?_⟩
  generalize (Gateway.start settings).run w = opened at fresh spares tame' ⊢
  have furnished := fresh.withMethods
  constructor
  case gateway => rfl
  case accepts =>
    rw [furnished.bridge]
    exact spares.shutDown w.bridges.length
  case alive => exact spares.hostGone
  case idle => exact spares.queue
  case mild => exact furnished.mild
  case folded => exact furnished.folded
  case tame => exact tame'

end Shell

end ScriptBoundary
