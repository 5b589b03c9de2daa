import ScriptBoundary.Proofs.Host.Identity
import ScriptBoundary.Proofs.Host.Ownership

/-!
What stays true of a host in use. It is not made to fail, its global object lives, and properties stand
under identifiers that it has handed out, if callers write under no others.
-/

namespace ScriptBoundary

variable {ρ μ : Type}

namespace Names

/-- Callers who write under allowed identifiers alone may write under all that the host hands out,
now and after names were added. -/
class Lasting (allowed : Names → HostId → Prop) : Prop where
  extended {names later : Names} {id : HostId} : later.Extends names → allowed names id → allowed later id
  interned (names : Names) (text : String) : allowed (names.intern text).2 (names.intern text).1
  index (names : Names) (i : Int32) : allowed names (.ofInt32 i)

instance : Lasting Knows := ⟨Extends.knows, knows_intern, fun _ _ word => nomatch word⟩

instance : Lasting Issued := ⟨Extends.issued, issued_intern, issued_ofInt32⟩

theorem Lasting.key {allowed : Names → HostId → Prop} [Lasting allowed] (names : Names) (text : String) :
    allowed (names.key text).2 (names.key text).1 := by
  simp only [Names.key]
  split
  · exact index names _
  · exact interned names _

end Names

variable {allowed : Names → HostId → Prop}

namespace Heap

/-- Properties stand under allowed identifiers. -/
structure Keyed (allowed : Names → HostId → Prop) (heap : Heap ρ) : Prop where
  keys : ∀ h e, heap.objects.find? h = some e → ∀ id raw, e.props.find? id = some raw →
    allowed heap.names id

namespace Keyed

variable {heap : Heap ρ}

theorem alloc (keyed : heap.Keyed allowed) (form : Form ρ) : (heap.alloc form).2.Keyed allowed := by
  refine ⟨fun h e found id raw held => ?_⟩
  simp only [Heap.alloc, Table.find?_insert] at found
  split at found
  · cases found
    cases held
  · exact keyed.keys h e found id raw held

/-- A write puts a value under the identifier that it is given, if anywhere. -/
theorem write (keyed : heap.Keyed allowed) {target : Handle} {e : Entry ρ}
    (found : heap.objects.find? target = some e) {id : HostId} (may : allowed heap.names id)
    (value : Raw) :
    ({ heap with objects := heap.objects.update target fun _ => (e.write id value).1 } : Heap ρ).Keyed
      allowed := by
  refine ⟨fun x e' found' k raw held => ?_⟩
  simp only [Table.find?_update] at found'
  split at found'
  next here =>
    subst here
    rw [found, Option.map_some, Option.some.injEq] at found'
    subst found'
    simp only [Entry.write] at held
    split at held
    · exact keyed.keys x e found k raw held
    · rw [Table.find?_insert] at held
      split at held
      next same => exact same ▸ may
      next => exact keyed.keys x e found k raw held
  next => exact keyed.keys x e' found' k raw held

variable [Names.Lasting allowed]

/-- Every object has the properties that it had. -/
theorem narrow (keyed : heap.Keyed allowed) {heap' : Heap ρ} (names : heap'.names.Extends heap.names)
    (props : ∀ h e', heap'.objects.find? h = some e' →
      ∃ e, heap.objects.find? h = some e ∧ e'.props = e.props) : heap'.Keyed allowed := by
  refine ⟨fun h e' found id raw held => ?_⟩
  obtain ⟨e, was, same⟩ := props h e' found
  exact Names.Lasting.extended names (keyed.keys h e was id raw (same ▸ held))

theorem update (keyed : heap.Keyed allowed) (h : Handle) (f : Entry ρ → Entry ρ)
    (props : ∀ e, (f e).props = e.props) :
    ({ heap with objects := heap.objects.update h f } : Heap ρ).Keyed allowed := by
  refine keyed.narrow (.refl _) fun x e' found => ?_
  simp only [Table.find?_update] at found
  split at found
  · obtain ⟨e, was, rfl⟩ := Option.map_eq_some_iff.1 found
    exact ⟨e, was, props e⟩
  · exact ⟨e', found, rfl⟩

theorem alike (keyed : heap.Keyed allowed) {heap' : Heap ρ} (alike : heap.Alike heap') :
    heap'.Keyed allowed := by
  refine keyed.narrow alike.names fun h e' found => ?_
  obtain ⟨e, was, body⟩ := alike.symm_find?_some found
  exact ⟨e, was, congrArg Prod.snd body⟩

theorem retainAll (keyed : heap.Keyed allowed) (hs : List Handle) :
    (heap.retainAll hs).Keyed allowed := keyed.alike (Heap.alike_retainAll heap hs)

theorem releaseAll (keyed : heap.Keyed allowed) (hs : List Handle) :
    (heap.releaseAll hs).Keyed allowed := by
  refine keyed.narrow (heap.names_releaseAll hs ▸ .refl _) fun h e' found => ?_
  obtain ⟨e, was, body⟩ := find?_releaseAll found
  exact ⟨e, was, congrArg Prod.snd body⟩

theorem store (keyed : heap.Keyed allowed) {id : HostId} (may : allowed heap.names id)
    (target : Handle) (value : Raw) : (heap.store target id value).2.Keyed allowed := by
  simp only [Heap.store]
  split
  · have retained : (heap.retainValue value).Keyed allowed := keyed.retainAll value.handles
    have same : allowed (heap.retainValue value).names id := by
      rwa [Heap.retainValue, names_retainAll]
    split
    · exact retained
    next e found => exact (retained.write found same value).releaseAll _
  · exact keyed

theorem withNames (keyed : heap.Keyed allowed) {names : Names} (more : names.Extends heap.names) :
    ({ heap with names := names } : Heap ρ).Keyed allowed := keyed.alike (Heap.alike_withNames heap more)

theorem intern (keyed : heap.Keyed allowed) (text : String) : (heap.intern text).2.Keyed allowed :=
  keyed.withNames (heap.names.extends_intern text)

theorem key (keyed : heap.Keyed allowed) (text : String) : (heap.key text).2.Keyed allowed :=
  keyed.withNames (heap.names.extends_key text)

theorem put (keyed : heap.Keyed allowed) (target : Handle) (name : String) (value : Raw) :
    (heap.put target name value).2.Keyed allowed :=
  (keyed.key name).store (Names.Lasting.key heap.names name) target value

theorem defineExpression (keyed : heap.Keyed allowed) (script : String) (value : Raw) :
    (heap.defineExpression script value).Keyed allowed := by
  have retained : (heap.retainValue value).Keyed allowed := keyed.retainAll value.handles
  have defined : ({ heap.retainValue value with
      expressions := (heap.retainValue value).expressions.insert (expressionKey script) value } :
        Heap ρ).Keyed allowed := ⟨retained.keys⟩
  exact defined.releaseAll _

theorem evaluate (keyed : heap.Keyed allowed) (target : Handle) (script : String) :
    (heap.evaluate target script).2.Keyed allowed := by
  simp only [Heap.evaluate]
  split
  · exact keyed.retainAll _
  · exact (keyed.key _).retainAll _

theorem pushAll (keyed : heap.Keyed allowed) (target : Handle) (values : List Raw) :
    (heap.pushAll target values).2.Keyed allowed := by
  have retained := keyed.retainAll (values.flatMap Raw.handles)
  simp only [Heap.pushAll]
  split
  · exact retained
  · apply retained.update
    intro e
    obtain ⟨refs, form, props⟩ := e
    cases form <;> rfl

end Keyed

end Heap

namespace Host

structure Tidy (allowed : Names → HostId → Prop) (host : Host ρ) : Prop where
  failures : host.failures = .none
  keyed : host.heap.Keyed allowed

theorem Tidy.withHeap {host : Host ρ} (tidy : host.Tidy allowed) {heap : Heap ρ}
    (keyed : heap.Keyed allowed) : ({ host with heap := heap } : Host ρ).Tidy allowed :=
  ⟨tidy.failures, keyed⟩

theorem Tidy.alike [Names.Lasting allowed] {base host : Host ρ} (tidy : base.Tidy allowed)
    (alike : base.Alike host) : host.Tidy allowed :=
  ⟨alike.failures.trans tidy.failures, tidy.keyed.alike alike.heap⟩

end Host

namespace Ledger

variable {β : Behaviour ρ μ} {s t : Ledger ρ} {element : Option (String × String)}

/-- The host's own reference keeps the global object alive. -/
theorem global_lives (reached : Reachable β allowed element s) :
    ∃ e, s.host.heap.objects.find? Host.global = some e := by
  have own {s : Ledger ρ} {gone : Handle → Prop} (balanced : s.Balanced gone) :
      gone Host.global ∨ ∃ e, s.host.heap.objects.find? Host.global = some e :=
    balanced.live (mem_owned_of_own List.mem_cons_self)
  induction reached with
  | start => exact (own (balanced_start element)).resolve_left id
  | @next s t reached step ih =>
    apply (own ((balanced_of_reachable reached).step (settled_freed s) step)).resolve_left
    rintro ⟨_, freed⟩
    obtain ⟨e, found⟩ := ih
    rw [freed] at found
    cases found

variable [Names.Lasting allowed]

theorem tidy_invoke (tidy : s.host.Tidy allowed) {w w' : World ρ μ} (here : w.host = s.host)
    {target : Handle} {id : HostId} {args : List Raw}
    (noCode : ∀ f code, s.host.heap.callee? target id ≠ some (.function f code))
    {answer : Option Raw} (ran : (Run.invoke β target id args).outcome w = (.ok answer, w')) :
    w'.host.Tidy allowed := by
  rw [← here] at noCode tidy
  cases called : w.host.heap.callee? target id with
  | none =>
    rw [Run.outcome_invoke_none args called] at ran
    cases ran
    exact tidy
  | some callee =>
    cases callee with
    | push =>
      rw [Run.outcome_invoke_push args called] at ran
      cases ran
      exact tidy.withHeap (tidy.keyed.pushAll target args)
    | construct shape =>
      rw [Run.outcome_invoke_construct args called] at ran
      cases ran
      exact tidy.withHeap (tidy.keyed.alloc _)
    | function f code => exact absurd called (noCode f code)

theorem Balanced.tidy_read (balanced : s.Balanced s.host.heap.Freed) (tidy : s.host.Tidy allowed)
    {α : Type} {op : HostM ρ α} {taken others : List Handle} {given : α → List Handle}
    {post : α → Prop} (owns : s.owned.Perm (taken ++ others))
    (reads : Reads s.host taken op given post) : (op.run s.host).2.Tidy allowed :=
  tidy.alike (reads _ s.host others (.refl _) (balanced.heap.perm owns)).1

theorem Balanced.tidy_step (balanced : s.Balanced s.host.heap.Freed) (tidy : s.host.Tidy allowed)
    (step : Step β allowed s t) : t.host.Tidy allowed := by
  have heap {heap : Heap ρ} (keyed : heap.Keyed allowed) :
      ({ s.host with heap := heap } : Host ρ).Tidy allowed := tidy.withHeap keyed
  have keyed := tidy.keyed
  cases step with
  | createObject => exact heap (keyed.alloc _)
  | createArray elements known => exact heap ((keyed.retainAll _).alloc _)
  | createFunction code => exact heap (keyed.alloc _)
  | defineFunction name code => exact heap (((keyed.alloc _).put _ _ _).releaseAll _)
  | put target name value known => exact heap (keyed.put _ _ _)
  | setProperty target id value known may =>
    simp only [Ledger.act, Ledger.hand, Host.run_setProperty]
    split
    · exact tidy
    · exact heap (keyed.store may _ _)
  | defineGlobal name value known => exact heap (keyed.put _ _ _)
  | defineExpression script value known =>
    exact heap (keyed.defineExpression script value)
  | getProperty target id => exact heap (keyed.retainAll _)
  | peek target name => exact heap (keyed.key name)
  | evaluate target script => exact heap (keyed.evaluate target script)
  | globalObject =>
    simp only [Ledger.hand, Host.run_globalObject]
    split
    · exact tidy
    · exact heap (keyed.retainAll _)
  | elementObject =>
    simp only [Ledger.hand, Host.run_elementObject]
    split
    · exact tidy
    · exact heap (keyed.retainAll _)
  | invoke w w' here target id args known noCode answer ran => exact tidy_invoke tidy here noCode ran
  | exchange target id value rest e owns found may => exact heap (keyed.write found may value)
  | exchangeExpression text value rest owns => exact heap ⟨keyed.keys⟩
  | intern text => exact heap (keyed.intern text)
  | raise message => exact heap ⟨keyed.keys⟩
  | retain h known => exact heap (keyed.retainAll _)
  | release h rest owns => exact heap (keyed.releaseAll _)
  | adopt raw rest owns => exact tidy
  | retainNative raw known => exact heap (keyed.retainAll _)
  | cloneNative raw owns => exact heap (keyed.retainAll _)
  | dropNative raw rest owns => exact heap (keyed.releaseAll _)
  | intoRaw raw rest owns => exact heap ((keyed.retainAll _).releaseAll _)
  | readNative raw owns =>
    obtain ⟨others, held⟩ := exists_perm_handles fun x => mem_owned_of_native owns (x := x)
    exact balanced.tidy_read tidy held (Marshal.reads_read balanced.heap.ordered raw)
  | readBag h owns =>
    obtain ⟨others, held⟩ := exists_perm_handles fun x => mem_owned_of_native owns (x := x)
    exact balanced.tidy_read tidy held (Marshal.reads_readBag balanced.heap.ordered h)
  | readLent raw known =>
    have live := balanced.retained fun h inside => settled_freed s h (known h inside)
    have lent := (Host.Alike.refl s.host).withHeap (Heap.alike_retainAll s.host.heap raw.handles)
    obtain ⟨alike, _⟩ := Marshal.reads_read balanced.heap.ordered raw _ _ s.owned lent live
    have read := tidy.alike alike
    exact read.withHeap (read.keyed.releaseAll _)
  | newScalar scalar => exact tidy
  | newBag shape => exact tidy
  | cloneValue value owns => exact heap (keyed.retainAll _)
  | dropValue value rest owns => exact heap (keyed.releaseAll _)
  | set bag id value rest owns => exact heap (keyed.releaseAll _)
  | push bag value rest owns => exact heap (keyed.releaseAll _)
  | remove bag id rest owns => exact heap (keyed.releaseAll _)
  | copyProperty bag id value owns found => exact heap (keyed.retainAll _)
  | copyBacking bag h owns backed => exact heap (keyed.retainAll _)

theorem tidy_start (element : Option (String × String)) :
    (Host.start element : Host ρ).Tidy allowed := by
  have empty : (Heap.empty : Heap ρ).Keyed allowed := ⟨fun _ _ found => nomatch found⟩
  cases element with
  | none => exact ⟨rfl, empty.alloc .plain⟩
  | some names =>
    have made := (((empty.alloc .plain).alloc .plain).intern "id").intern "name"
    let known := ((Heap.empty : Heap ρ).alloc .plain).2.names.intern "id"
    have first : allowed (known.2.intern "name").2 known.1 :=
      Names.Lasting.extended (Names.extends_intern _ _) (Names.Lasting.interned _ _)
    have second : allowed (known.2.intern "name").2 (known.2.intern "name").1 :=
      Names.Lasting.interned _ _
    refine ⟨rfl, (made.store first ⟨2⟩ (.string names.1)).store ?_ _ _⟩
    rw [Heap.names_store]
    exact second

theorem tidy_of_reachable (reached : Reachable β allowed element s) : s.host.Tidy allowed := by
  induction reached with
  | start => exact tidy_start element
  | next reached step ih => exact (balanced_of_reachable reached).tidy_step ih step

end Ledger

end ScriptBoundary
