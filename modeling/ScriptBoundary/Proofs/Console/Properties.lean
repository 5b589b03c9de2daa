import ScriptBoundary.Proofs.Console.Command
import ScriptBoundary.Proofs.Console.Session
import ScriptBoundary.Proofs.Gateway.Account
import ScriptBoundary.Proofs.Identifier

/-!
What the commands mean by a name. Those that read and write a property take text that reads as an
integer for the integer. The one that deletes a property takes every name as it is, so it finds all
properties but those.
-/

namespace ScriptBoundary

open Session (HostCode EngineCode CodeM standard)

/-! ## Texts of values -/

namespace Double

theorem positional_ne_nil {digits : List Char} (some : digits ≠ []) (places : Int) :
    positional digits places ≠ [] := by
  unfold positional
  split
  · simp
  · split <;> simp [some]

theorem display_ne_empty (x : Double) : x.display ≠ "" := by
  have signed {magnitude : List Char} (some : magnitude ≠ []) : x.withSign magnitude ≠ "" := by
    unfold withSign
    split <;> simp [some]
  unfold display
  split
  next text special =>
    unfold special? at special
    (repeat' split at special) <;> cases special <;> decide
  next =>
    split
    · exact signed (List.cons_ne_nil _ _)
    · exact signed (positional_ne_nil Nat.toDigits_ne_nil _)

end Double

/-- No value is shown as the empty text. -/
theorem Scalar.display_ne_empty (s : Scalar) : s.display ≠ "" := by
  cases s with
  | void | null => decide
  | boolean b => cases b <;> decide
  | int32 i => simp [display, int32Text, Text.integerText_ne_nil]
  | double d => exact d.display_ne_empty
  | string text => simp [display, Text.quoted]

/-! ## Commands -/

namespace Command

/-- What a command does to the properties of the gateway. -/
def change : Command → Bag Value → Bag Value
  | .set name value, properties => properties.set (.ofText name) (.scalar value)
  | .delete name, properties => properties.remove (.name name)
  | _, properties => properties

/-- The command sets or deletes a name that denotes the identifier. -/
def Concerns (id : Identifier) : Command → Prop
  | .set name _ | .delete name => Identifier.ofText name = id
  | _ => False

theorem find?_change {text : String} {c : Command} (other : ¬ c.Concerns (.ofText text))
    (properties : Bag Value) :
    (c.change properties).find? (.ofText text) = properties.find? (.ofText text) := by
  cases c with
  | set name value =>
    rw [change, Bag.find?_set]
    exact if_neg fun same => other same.symm
  | delete name =>
    rw [change, Bag.find?_remove]
    refine if_neg fun same => other ?_
    obtain ⟨rfl, _⟩ := Identifier.ofText_eq_name_iff.1 same
    rfl
  | _ => rfl

end Command

namespace Shell

variable {r : Registry EngineCode} {w w' : Shell}

/-! ## Single commands -/

theorem run_onGateway (is : Open r w) {body : Registry EngineCode → CodeM String} {text : String}
    (ran : (body r).outcome w = (.ok text, w')) : (onGateway body).run w = (text, w') := by
  have ran' : (body r).run.run w = (.ok text, w') := ran
  rw [onGateway, StateT.run_bind, StateT.run_get, pure_bind]
  simp only [is.gateway, is.alive]
  rw [StateT.run_bind, ran']
  rfl

theorem perform_always (is : Open r w) {op : Registry EngineCode → ShellM String} {text : String}
    (ran : (op r).run w = (text, w')) :
    (some <$> onGateway fun r => Run.always (op r)).run w = (some text, w') := by
  have always : (Run.always (op r) : CodeM String).outcome w = (.ok text, w') :=
    congrArg (fun answer => (Except.ok answer.1, answer.2)) ran
  rw [StateT.run_map, run_onGateway is always]
  rfl

/-- What is printed for a property. -/
def shown (properties : Bag Value) (name : String) : String :=
  (properties.find? (.ofText name)).elim (name ++ " is not defined") Value.display

theorem run_get (is : Open r w) (name : String) : ∃ host : Host HostCode, host.heap.Tame Harmless ∧
    (perform (.get name)).run w = (some (shown r.properties name), w.withHost host) := by
  have copied : (r.copyProperty (.ofText name)).run w = (r.properties.find? (.ofText name), w.withHost
      { w.host with
        heap := w.host.heap.retainAll ((r.properties.find? (.ofText name)).elim [] Value.handles) }) := rfl
  have read : ∃ host : Host HostCode, host.heap.Tame Harmless ∧
      (getProperty name r).run w = (shown r.properties name, w.withHost host) := by
    rw [getProperty, StateT.run_bind, copied, shown]
    cases r.properties.find? (.ofText name) with
    | none => exact ⟨_, is.tame.retainAll [], rfl⟩
    | some v =>
      refine ⟨_, ?_, rfl⟩
      exact ((is.tame.retainAll v.handles).retainAll _ |>.releaseAll _).releaseAll _
  exact read.imp fun host read => ⟨read.1, perform_always is read.2⟩

theorem run_bindProperty (id : Identifier) (v : Value) (accepts : (w.bridge r.bridge).shutDown = false) :
    (WorldM.changeGateway (Registry.bindProperty id v) r).run w = (true,
      { w.released (r.properties.lostBySet id) with
        gateway := some { r with properties := r.properties.set id v } }) := by
  have ran : (WorldM.changeGateway (Registry.bindProperty id v) r).run w
      = (!(w.bridge r.bridge).shutDown,
        { w.released (if (w.bridge r.bridge).shutDown then v.handles else r.properties.lostBySet id) with
          gateway := some (r.setProperty (w.bridge r.bridge).shutDown id v) }) := rfl
  rw [ran, accepts]
  rfl

theorem run_set (is : Open r w) (name : String) (v : Scalar) : ∃ host : Host HostCode,
    host.heap.Tame Harmless ∧ (perform (.set name v)).run w = (some "", { w.withHost host with
      gateway := some { r with properties := r.properties.set (.ofText name) (.scalar v) } }) := by
  let lost := r.properties.lostBySet (.ofText name)
  refine ⟨{ w.host with heap := w.host.heap.releaseAll lost }, is.tame.releaseAll lost, perform_always is ?_⟩
  rw [setProperty, StateT.run_bind, run_bindProperty _ _ is.accepts]
  rfl

theorem run_delete (is : Open r w) (name : String) : ∃ host : Host HostCode,
    host.heap.Tame Harmless ∧ (perform (.delete name)).run w
      = (some (Scalar.booleanText (r.properties.contains (.name name))), { w.withHost host with
        gateway := some { r with properties := r.properties.remove (.name name) } }) := by
  let interned := w.host.heap.intern name
  let known := w.withHost { w.host with heap := interned.2 }
  have denotes : known.host.heap.names.Denotes interned.1 (.name name) :=
    w.host.heap.names.text?_intern name
  have named : known.host.heap.names.identifier interned.1 = .name name := denotes.identifier
  have accepts : (known.bridge r.bridge).shutDown = false := is.accepts
  have asked : (deleteProperty name r).run w = StateT.run
      (do return Scalar.booleanText (← WorldM.changeGateway (Gateway.removeProperty interned.1) r)) known := rfl
  let lost := r.properties.lostByRemove (.name name)
  refine ⟨{ w.host with heap := interned.2.releaseAll lost }, (is.tame.intern name).releaseAll lost,
    perform_always is ?_⟩
  rw [asked, StateT.run_bind, Gateway.run_removeProperty, accepts, named]
  rfl

/-! ## Lines -/

/-- Whatever a command does to a session, it goes on, and only the properties of its registry can
change. -/
theorem open_perform (is : Open r w) (c : Command) :
    Open { r with properties := c.change r.properties } ((perform c).run w).2 := by
  have onGateway {body : Registry EngineCode → CodeM String} (calm : Run.Calm Harmless (body r)) :
      Open r ((onGateway body).run w).2 := by
    obtain ⟨text, w', ran, spares, tame⟩ := calm w is.tame
    rw [run_onGateway is ran]
    exact is.spared spares tame
  cases c with
  | call name args =>
    obtain ⟨spares, tame⟩ := calm_callFromWorker (gentle_behaviour 2047) w.current (.ofText name)
      (args.map .scalar) is.idle is.tame
    have answered : Open r ((WorldM.callFromWorker standard w.current (.ofText name)
        (args.map .scalar)).run w).2 := is.spared spares tame
    obtain ⟨answer, later, ran⟩ : ∃ answer later,
        (WorldM.callFromWorker standard w.current (.ofText name) (args.map .scalar)).run w
          = (answer, later) := ⟨_, _, rfl⟩
    rw [ran] at answered
    change Open r ((call name args).run w).2
    rw [call, StateT.run_bind, StateT.run_get, pure_bind, StateT.run_bind, ran]
    cases answer with
    | none => exact answered
    | some v =>
      obtain ⟨spares', tame'⟩ := calm_displayed v later answered.tame
      exact answered.spared spares' tame'
  | invoke name args => exact onGateway (calm_invoke name args is.mild)
  | get name =>
    obtain ⟨host, tame, ran⟩ := run_get is name
    rw [ran]
    exact is.spared (.withHost w host) tame
  | set name v =>
    obtain ⟨host, tame, ran⟩ := run_set is name v
    rw [ran]
    exact is.rebound tame (is.folded.set name _)
  | delete name =>
    obtain ⟨host, tame, ran⟩ := run_delete is name
    rw [ran]
    exact is.rebound tame (is.folded.remove _)
  | list => exact onGateway (.pure _)
  | help => exact is
  | quit => exact is

/-- What a line prints. -/
def prints (line : List Char) (w : Shell) : List String := ((execute line).run w).1.lines

/-- The session after a line. -/
def next (line : List Char) (w : Shell) : Shell := ((execute line).run w).2

/-- The session after the lines of a script. -/
def after (lines : List (List Char)) (w : Shell) : Shell := ((runCommands lines).run w).2

variable {line : List Char} {lines : List (List Char)} {c : Command}

theorem run_execute (parsed : Command.parse? line = some c) (w : Shell) :
    (execute line).run w = (⟨((perform c).run w).2.printed
          ++ ((perform c).run w).1.toList.filter (!·.isEmpty), ((perform c).run w).1.isNone⟩,
        { ((perform c).run w).2 with printed := [] }) := by
  unfold execute
  rw [parsed]
  rfl

theorem next_of_unknown (unknown : Command.parse? line = none) (w : Shell) : next line w = w := by
  unfold next execute
  rw [unknown]
  rfl

/-- A line that ends the session is the last one. -/
theorem after_cons (line : List Char) (rest : List (List Char)) (w : Shell) :
    after (line :: rest) w = next line w ∨ after (line :: rest) w = after rest (next line w) := by
  have ran : (runCommands (line :: rest)).run w = StateT.run
      (if ((execute line).run w).1.ends then pure ((execute line).run w).1.text
        else do return ((execute line).run w).1.text ++ (← runCommands rest)) (next line w) := rfl
  unfold after
  rw [ran]
  split
  · exact .inl rfl
  · exact .inr rfl

/-- No line of the script sets or deletes a name that denotes the identifier. -/
def Untouched (id : Identifier) (lines : List (List Char)) : Prop :=
  ∀ line ∈ lines, ∀ c, Command.parse? line = some c → ¬ c.Concerns id

theorem Open.silenced (is : Open r w) : Open r { w with printed := [] } :=
  ⟨is.gateway, is.accepts, is.alive, is.idle, is.mild, is.folded, is.tame⟩

theorem open_next (is : Open r w) (line : List Char) : ∃ r', Open r' (next line w) ∧
    ∀ text, Untouched (.ofText text) [line] →
      r'.properties.find? (.ofText text) = r.properties.find? (.ofText text) := by
  cases parsed : Command.parse? line with
  | none =>
    rw [next_of_unknown parsed]
    exact ⟨r, is, fun _ _ => rfl⟩
  | some c =>
    rw [next, run_execute parsed]
    refine ⟨_, (open_perform is c).silenced, fun text other => ?_⟩
    exact Command.find?_change (other line List.mem_cons_self c parsed) _

/-- A whole script leaves a property alone if none of its lines is about it. -/
theorem open_after (is : Open r w) (lines : List (List Char)) : ∃ r', Open r' (after lines w) ∧
    ∀ text, Untouched (.ofText text) lines →
      r'.properties.find? (.ofText text) = r.properties.find? (.ofText text) := by
  induction lines generalizing r w with
  | nil => exact ⟨r, is, fun _ _ => rfl⟩
  | cons line rest ih =>
    obtain ⟨r', is', same⟩ := open_next is line
    have first {text : String} (untouched : Untouched (.ofText text) (line :: rest)) :
        r'.properties.find? (.ofText text) = r.properties.find? (.ofText text) :=
      same text fun line' inside => untouched line' (List.mem_singleton.1 inside ▸ List.mem_cons_self)
    rcases after_cons line rest w with last | more
    · rw [last]
      exact ⟨r', is', fun text => first⟩
    · obtain ⟨r'', is'', same'⟩ := ih is'
      rw [more]
      refine ⟨r'', is'', fun text untouched => ?_⟩
      exact (same' text fun line' inside => untouched line' (List.mem_cons_of_mem _ inside)).trans
        (first untouched)

/-- Lines that were printed are not printed again. -/
theorem silent_next (parsed : Command.parse? line = some c) (w : Shell) : (next line w).printed = [] := by
  rw [next, run_execute parsed]

theorem silent_after (silent : w.printed = []) (lines : List (List Char)) : (after lines w).printed = [] := by
  induction lines generalizing w with
  | nil => exact silent
  | cons line rest ih =>
    have first : (next line w).printed = [] := by
      cases parsed : Command.parse? line with
      | none => rwa [next_of_unknown parsed]
      | some c => exact silent_next parsed w
    rcases after_cons line rest w with last | more
    · rwa [last]
    · rw [more]
      exact ih first

/-! ## What names mean -/

section

variable {name literal : List Char} (is : Open r w) (silent : w.printed = [])

include is

theorem next_set (named : Command.IsName name) (filled : ∃ c ∈ literal, Text.isBlank c = false) :
    (next (Command.setLine name literal) w).printed = [] ∧
      ∃ r', Open r' (next (Command.setLine name literal) w) ∧
        r'.properties.find? (.ofText (String.ofList name)) = some (.scalar (Literal.read literal)) := by
  obtain ⟨host, tame, ran⟩ := run_set is (String.ofList name) (Literal.read literal)
  rw [next, run_execute (Command.parse?_setLine named filled), ran]
  refine ⟨rfl, _, (is.rebound tame (is.folded.set _ _)).silenced, ?_⟩
  rw [Bag.find?_set, if_pos rfl]

include silent

theorem prints_get (named : Command.IsName name) {text : String}
    (shows : shown r.properties (String.ofList name) = text) (some : text ≠ "") :
    prints (Command.getLine name) w = [text] ∧ (next (Command.getLine name) w).printed = [] ∧
      Open r (next (Command.getLine name) w) := by
  obtain ⟨host, tame, ran⟩ := run_get is (String.ofList name)
  rw [prints, next, run_execute (Command.parse?_getLine named), ran, shows]
  refine ⟨?_, rfl, (is.spared (.withHost w host) tame).silenced⟩
  change w.printed ++ _ = _
  simp [silent, some]

theorem prints_delete (named : Command.IsName name) :
    prints (Command.deleteLine name) w
        = [Scalar.booleanText (r.properties.contains (.name (String.ofList name)))] ∧
      (next (Command.deleteLine name) w).printed = [] ∧
      Open { r with properties := r.properties.remove (.name (String.ofList name)) }
        (next (Command.deleteLine name) w) := by
  obtain ⟨host, tame, ran⟩ := run_delete is (String.ofList name)
  rw [prints, next, run_execute (Command.parse?_deleteLine named), ran]
  refine ⟨?_, rfl, (is.rebound tame (is.folded.remove _)).silenced⟩
  change w.printed ++ _ = _
  cases r.properties.contains (.name (String.ofList name)) <;> simp [silent, Scalar.booleanText]

end

/-- What comes of a name that was set to a value: `given` is the session right then, `later` another in
which the property is still there. -/
structure Meaning (name : List Char) (v : Scalar) (given later : Shell) : Prop where
  reads : prints (Command.getLine name) given = [v.display]
  /-- A name that does not read as an integer is deleted, once. -/
  deletes : Text.readInt32 name = none →
    prints (Command.deleteLine name) later = ["true"] ∧
    prints (Command.getLine name) (next (Command.deleteLine name) later)
      = [String.ofList name ++ " is not defined"] ∧
    prints (Command.deleteLine name)
      (next (Command.getLine name) (next (Command.deleteLine name) later)) = ["false"]
  /-- One that does is not found, and the property stays. -/
  misses : Text.readInt32 name ≠ none →
    prints (Command.deleteLine name) later = ["false"] ∧
    prints (Command.getLine name) (next (Command.deleteLine name) later) = [v.display] ∧
    prints (Command.deleteLine name)
      (next (Command.getLine name) (next (Command.deleteLine name) later)) = ["false"]

section

variable {name : List Char} {v : Scalar} (is : Open r w) (silent : w.printed = [])
  (named : Command.IsName name)
  (bound : r.properties.find? (.ofText (String.ofList name)) = some (.scalar v))

include is silent named bound

/-- A name that is no integer denotes the same to every command. -/
theorem deleted_of_plain (plain : Text.readInt32 name = none) :
    prints (Command.deleteLine name) w = ["true"] ∧
      prints (Command.getLine name) (next (Command.deleteLine name) w)
        = [String.ofList name ++ " is not defined"] ∧
      prints (Command.deleteLine name)
        (next (Command.getLine name) (next (Command.deleteLine name) w)) = ["false"] := by
  have denotes : Identifier.ofText (String.ofList name) = .name (String.ofList name) :=
    Identifier.ofText_eq_name_iff.2 ⟨rfl, by simpa using plain⟩
  have there : r.properties.contains (.name (String.ofList name)) = true :=
    Table.contains_iff.2 ⟨_, denotes ▸ bound⟩
  have none_ : (r.properties.remove (.name (String.ofList name))).find? (.name (String.ofList name)) = none := by
    rw [Bag.find?_remove, if_pos rfl]
  have undefined : shown (r.properties.remove (.name (String.ofList name))) (String.ofList name)
      = String.ofList name ++ " is not defined" := by
    rw [shown, denotes, none_]
    rfl
  have gone : (r.properties.remove (.name (String.ofList name))).contains (.name (String.ofList name)) = false :=
    congrArg Option.isSome none_
  obtain ⟨first, silent', is'⟩ := prints_delete is silent named
  obtain ⟨second, silent'', is''⟩ := prints_get is' silent' named undefined (by simp)
  obtain ⟨third, -, -⟩ := prints_delete is'' silent'' named
  rw [there] at first
  rw [gone] at third
  exact ⟨first, second, third⟩

/-- One that is an integer denotes another property to the command that deletes, and never one that is
there. -/
theorem kept_of_integer (integer : Text.readInt32 name ≠ none) :
    prints (Command.deleteLine name) w = ["false"] ∧
      prints (Command.getLine name) (next (Command.deleteLine name) w) = [v.display] ∧
      prints (Command.deleteLine name)
        (next (Command.getLine name) (next (Command.deleteLine name) w)) = ["false"] := by
  have absent : r.properties.contains (.name (String.ofList name)) = false := by
    rw [Bool.eq_false_iff]
    intro inside
    obtain ⟨text, is⟩ := is.folded _ inside
    obtain ⟨rfl, plain⟩ := Identifier.ofText_eq_name_iff.1 is.symm
    exact integer (by simpa using plain)
  have kept : r.properties.remove (.name (String.ofList name)) = r.properties := by
    rw [Bag.remove, absent]
    rfl
  have value : shown r.properties (String.ofList name) = v.display := by
    rw [shown, bound]
    rfl
  obtain ⟨first, silent', is'⟩ := prints_delete is silent named
  rw [kept] at is'
  obtain ⟨second, silent'', is''⟩ := prints_get is' silent' named value v.display_ne_empty
  obtain ⟨third, -, -⟩ := prints_delete is'' silent'' named
  rw [absent] at first third
  exact ⟨first, second, third⟩

end

/-- Whatever a script did before, and whatever it does in between that neither sets nor deletes a name
of the same identifier. -/
theorem names_agree (settings : Settings) (before between : List (List Char)) {name literal : List Char}
    (named : Command.IsName name) (filled : ∃ c ∈ literal, Text.isBlank c = false)
    (untouched : Untouched (.ofText (String.ofList name)) between) :
    Meaning name (Literal.read literal)
      (next (Command.setLine name literal) (after before (start settings)))
      (after between (next (Command.setLine name literal) (after before (start settings)))) := by
  obtain ⟨r, started⟩ := open_start settings
  obtain ⟨_, scripted, -⟩ := open_after started before
  obtain ⟨silent, r, given, bound⟩ := next_set scripted named filled
  obtain ⟨r', later, same⟩ := open_after given between
  have silent' := silent_after silent between
  have bound' := (same _ untouched).trans bound
  have shows : shown r.properties (String.ofList name) = (Literal.read literal).display := by
    rw [shown, bound]
    rfl
  constructor
  case reads => exact (prints_get given silent named shows (Scalar.display_ne_empty _)).1
  case deletes => exact deleted_of_plain later silent' named bound'
  case misses => exact kept_of_integer later silent' named bound'

theorem names_agree_of_theme : Command.IsName "theme".toList ∧
    (∃ c ∈ "light".toList, Text.isBlank c = false) ∧
    Untouched (.ofText "theme") [Command.setLine ['8'] ['2']] ∧
    Meaning "theme".toList (.string "light")
      (next (Command.setLine "theme".toList "light".toList) (after [] (start .default)))
      (after [Command.setLine ['8'] ['2']]
        (next (Command.setLine "theme".toList "light".toList) (after [] (start .default)))) := by
  have named : Command.IsName "theme".toList := by decide
  have filled : ∃ c ∈ "light".toList, Text.isBlank c = false := ⟨'l', by decide, by decide⟩
  have untouched : Untouched (.ofText "theme") [Command.setLine ['8'] ['2']] := by
    intro line inside c parsed
    rw [List.mem_singleton.1 inside,
      Command.parse?_setLine (by decide) ⟨'2', by decide, by decide⟩] at parsed
    cases parsed
    unfold Command.Concerns
    decide
  exact ⟨named, filled, untouched, names_agree .default [] _ named filled untouched⟩

/-- The property `7` can be set and read, and cannot be deleted. -/
theorem integer_name_survives :
    prints (Command.deleteLine ['7']) (next (Command.setLine ['7'] ['1']) (start .default)) = ["false"] ∧
      prints (Command.getLine ['7']) (next (Command.deleteLine ['7'])
        (next (Command.setLine ['7'] ['1']) (start .default))) = ["1"] := by
  have named : Command.IsName ['7'] := by decide
  obtain ⟨r, started⟩ := open_start .default
  have filled : ∃ c ∈ ['1'], Text.isBlank c = false := ⟨'1', by decide, by decide⟩
  obtain ⟨silent, r', given, bound⟩ := next_set started named filled
  obtain ⟨missed, read, -⟩ := kept_of_integer given silent named bound (by decide)
  exact ⟨missed, read⟩

end Shell

end ScriptBoundary
