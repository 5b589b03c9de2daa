import Mathlib.Logic.Relation
import ScriptBoundary.Proofs.Host.Identity
import ScriptBoundary.Proofs.Host.Ownership
import ScriptBoundary.Proofs.Marshal.Holding
import ScriptBoundary.Proofs.Marshal.Keeping

/-!
Identifiers over the whole life of a host. Whatever a host does, it only ever adds names; so what an
identifier stands for when it is handed out it stands for ever after, and its number is that of no
other.
-/

namespace ScriptBoundary

open Relation (ReflTransGen)

variable {ρ μ : Type}

/-! ## Identifiers as numbers -/

namespace HostId

/-- The greatest bit stands beside the position. -/
theorem number_name {position : Nat} (few : position < firstName) :
    (name position).number = firstName ||| position := by
  have joined := Nat.two_pow_add_eq_or_of_lt (i := 63) few 1
  rwa [Nat.mul_one] at joined

/-- An identifier can be told from its number, which fits into 64 bits. -/
structure Narrow (id : HostId) : Prop where
  fits : id.number < 2 ^ 64
  back : ofNumber id.number = id
  tag : id.number.testBit 63 = id.isName

theorem narrow_word {bits : Nat} (small : bits < 2 ^ 32) : (word bits).Narrow := by
  have below : bits < firstName := Nat.lt_trans small (by decide)
  constructor
  case fits => exact Nat.lt_trans small (by decide)
  case back => exact if_pos below
  case tag => exact Nat.testBit_lt_two_pow below

theorem narrow_name {position : Nat} (few : position < firstName) : (name position).Narrow := by
  have above : ¬ firstName + position < firstName := Nat.not_lt.2 (Nat.le_add_right _ _)
  constructor
  case fits => exact Nat.add_lt_add_left few firstName
  case back => simp [ofNumber, number]
  case tag =>
    have low : position.testBit 63 = false := Nat.testBit_lt_two_pow few
    rw [number_name few, Nat.testBit_or, low, Bool.or_false, isName]
    decide

theorem Narrow.number_inj {id id' : HostId} (narrow : id.Narrow) (narrow' : id'.Narrow) :
    id.number = id'.number ↔ id = id' := by
  refine ⟨fun same => ?_, congrArg number⟩
  rw [← narrow.back, same, narrow'.back]

end HostId

namespace Names

variable {names later : Names} {id : HostId}

theorem Issued.narrow (issued : names.Issued id) (few : names.texts.length ≤ HostId.firstName) :
    id.Narrow := by
  cases id with
  | word bits => exact HostId.narrow_word issued
  | name position => exact HostId.narrow_name (Nat.lt_of_lt_of_le issued few)

theorem length_ofIdentifier_le (names : Names) (key : Identifier) :
    (names.ofIdentifier key).2.texts.length ≤ names.texts.length + 1 := by
  cases key with
  | index i => exact Nat.le_succ _
  | name text =>
    rcases names.intern_cases text with ⟨id, _, is⟩ | ⟨_, _, texts⟩
    · simp [ofIdentifier, is]
    · simp [ofIdentifier, texts]

/-- A host that has room for one more name answers with a number that fits. -/
theorem narrow_ofIdentifier (few : names.texts.length < HostId.firstName) (key : Identifier) :
    (names.ofIdentifier key).1.Narrow :=
  (issued_iff_handed.2 (names.handed_ofIdentifier key)).narrow
    (Nat.le_trans (names.length_ofIdentifier_le key) few)

/-- Engine identifiers of which one is asked for before and one later: the answers agree only if the
identifiers do. -/
theorem Extends.ofIdentifier_inj {key key' : Identifier}
    (more : later.Extends (names.ofIdentifier key).2) :
    (later.ofIdentifier key').1 = (names.ofIdentifier key).1 ↔ key' = key := by
  constructor
  · intro same
    have before := ((later.extends_ofIdentifier key').trans more).denotes (names.denotes_ofIdentifier key)
    have after := later.denotes_ofIdentifier key'
    rw [same] at after
    exact after.unique before
  · rintro rfl
    rw [more.ofIdentifier (names.ofIdentifier_again key')]

end Names

/-! ## What a host does -/

namespace Host

/-- Reading adds names. -/
theorem durable_names (names : Names) : Host.Durable fun host : Host ρ => host.heap.names.Extends names where
  intern host text more := (host.heap.names.extends_intern text).trans more
  retainAll host hs more := (Heap.names_retainAll host.heap hs).symm ▸ more
  releaseAll host hs more := (Heap.names_releaseAll host.heap hs).symm ▸ more

/-- A host that knows the answer stays as it is. -/
theorem run_idOf_of_answers {host : Host ρ} {key : Identifier} {id : HostId}
    (answers : host.heap.names.ofIdentifier key = (id, host.heap.names)) :
    (idOf key).run host = (id, host) := by
  have run : (idOf key).run host = ((host.heap.names.ofIdentifier key).1,
      { host with heap := { host.heap with names := (host.heap.names.ofIdentifier key).2 } }) := rfl
  rw [run, answers]

end Host

namespace Heap

theorem extends_put (heap : Heap ρ) (target : Handle) (name : String) (value : Raw) :
    (heap.put target name value).2.names.Extends heap.names := by
  rw [put, names_store]
  exact heap.names.extends_key name

theorem extends_evaluate (heap : Heap ρ) (target : Handle) (script : String) :
    (heap.evaluate target script).2.names.Extends heap.names := by
  simp only [evaluate]
  split
  · rw [retainValue, names_retainAll]
    exact .refl _
  · rw [names_retainAll]
    exact heap.names.extends_key _

end Heap

namespace Ledger

variable {β : Behaviour ρ μ} {allowed : Names → HostId → Prop} {s t : Ledger ρ}

def names (s : Ledger ρ) : Names := s.host.heap.names

theorem extends_invoke {w w' : World ρ μ} {target : Handle} {id : HostId} {args : List Raw}
    (noCode : ∀ f code, w.host.heap.callee? target id ≠ some (.function f code)) {answer : Option Raw}
    (ran : (Run.invoke β target id args).outcome w = (.ok answer, w')) :
    w'.host.heap.names.Extends w.host.heap.names := by
  cases called : w.host.heap.callee? target id with
  | none =>
    rw [Run.outcome_invoke_none args called] at ran
    cases ran
    exact .refl _
  | some callee =>
    cases callee with
    | push =>
      rw [Run.outcome_invoke_push args called] at ran
      cases ran
      change (Heap.pushAll target args w.host.heap).2.names.Extends _
      rw [Heap.names_pushAll]
      exact .refl _
    | construct shape =>
      rw [Run.outcome_invoke_construct args called] at ran
      cases ran
      exact .refl _
    | function f code => exact absurd called (noCode f code)

/-- Nothing that a host does takes a name away or moves it. -/
theorem Step.names (step : Step β allowed s t) : t.names.Extends s.names := by
  have same {heap : Heap ρ} (names : heap.names = s.names) : heap.names.Extends s.names := names ▸ .refl _
  have durable := Host.durable_names (ρ := ρ) s.names
  cases step with
  | createObject => exact .refl _
  | createArray elements known => exact same (Heap.names_retainAll _ _)
  | createFunction code => exact .refl _
  | defineFunction name code =>
    change (Heap.releaseAll _ _).names.Extends _
    rw [Heap.names_releaseAll]
    exact (s.host.heap.alloc (.function code)).2.extends_put _ _ _
  | put target name value known => exact s.host.heap.extends_put _ _ _
  | setProperty target id value known may =>
    simp only [Ledger.names, Ledger.act, Ledger.hand, Host.run_setProperty]
    split
    · exact .refl _
    · exact same (Heap.names_store _ _ _ _)
  | defineGlobal name value known => exact s.host.heap.extends_put _ _ _
  | defineExpression script value known =>
    exact same ((Heap.names_releaseAll _ _).trans (Heap.names_retainAll _ _))
  | getProperty target id => exact same (Heap.names_retainAll _ _)
  | peek target name => exact s.host.heap.names.extends_key name
  | evaluate target script => exact s.host.heap.extends_evaluate target script
  | globalObject =>
    simp only [Ledger.names, Ledger.hand, Host.run_globalObject]
    split
    · exact .refl _
    · exact same (Heap.names_retainAll _ _)
  | elementObject =>
    simp only [Ledger.names, Ledger.hand, Host.run_elementObject]
    split
    · exact .refl _
    · exact same (Heap.names_retainAll _ _)
  | invoke w w' here target id args known noCode answer ran =>
    rw [← here] at noCode
    have more := extends_invoke noCode ran
    rwa [here] at more
  | exchange target id value rest e owns found may => exact .refl _
  | exchangeExpression text value rest owns => exact .refl _
  | intern text => exact s.host.heap.names.extends_intern text
  | raise message => exact .refl _
  | retain h known => exact same (Heap.names_retainAll _ _)
  | release h rest owns => exact same (Heap.names_releaseAll _ _)
  | adopt raw rest owns => exact .refl _
  | retainNative raw known => exact same (Heap.names_retainAll _ _)
  | cloneNative raw owns => exact same (Heap.names_retainAll _ _)
  | dropNative raw rest owns => exact same (Heap.names_releaseAll _ _)
  | intoRaw raw rest owns =>
    exact same ((Heap.names_releaseAll _ _).trans (Heap.names_retainAll _ _))
  | readNative raw owns =>
    exact Marshal.keeps_readAt durable _ _ raw s.host (.refl _)
  | readBag h owns =>
    exact Marshal.keeps_readObject durable (Marshal.keeps_readAt durable _ _) [] h s.host (.refl _)
  | readLent raw known => exact Marshal.keeps_readLent durable raw s.host (.refl _)
  | newScalar scalar => exact .refl _
  | newBag shape => exact .refl _
  | cloneValue value owns => exact same (Heap.names_retainAll _ _)
  | dropValue value rest owns => exact same (Heap.names_releaseAll _ _)
  | set bag id value rest owns => exact same (Heap.names_releaseAll _ _)
  | push bag value rest owns => exact same (Heap.names_releaseAll _ _)
  | remove bag id rest owns => exact same (Heap.names_releaseAll _ _)
  | copyProperty bag id value owns found => exact same (Heap.names_retainAll _ _)
  | copyBacking bag h owns backed => exact same (Heap.names_retainAll _ _)

theorem names_of_steps (steps : ReflTransGen (Step β allowed) s t) : t.names.Extends s.names := by
  induction steps with
  | refl => exact .refl _
  | tail _ step ih => exact step.names.trans ih

/-- The host is asked for the identifier of an engine identifier. -/
def asked (s : Ledger ρ) (key : Identifier) : Ledger ρ := s.act (Host.idOf key)

/-- What it answers. -/
def idOf (s : Ledger ρ) (key : Identifier) : HostId := ((Host.idOf key).run s.host).1

/-- Identifiers as the host and the engine pass them to each other, now and whatever the host does
next. No assumption is made on how often names were interned, but for what is said of numbers. -/
structure Crosses (β : Behaviour ρ μ) (allowed : Names → HostId → Prop) (s : Ledger ρ) : Prop where
  /-- The table of names and its index are inverse to each other. -/
  inverse : ∀ text id, s.names.ids.find? text = some id ↔ s.names.text? id = some text
  once : s.names.texts.Nodup
  /-- A name keeps its identifier. -/
  kept : ∀ t, ReflTransGen (Step β allowed) s t → ∀ text id,
    s.names.ids.find? text = some id → t.names.ids.find? text = some id
  /-- To ask for an identifier is among what a host does. -/
  asks : ∀ key, ReflTransGen (Step β allowed) s (s.asked key)
  /-- The number of an answer has 64 bits, of which the greatest one tells a name from an integer. -/
  narrow : s.names.texts.length < HostId.firstName → ∀ key,
    (s.idOf key).Narrow ∧ (s.idOf key).isName = key.isName
  /-- Two engine identifiers, of which one is asked for at any later time, have one number exactly if
  they are equal. -/
  apart : ∀ key t, ReflTransGen (Step β allowed) (s.asked key) t →
    t.names.texts.length < HostId.firstName → ∀ key',
      (t.idOf key').number = (s.idOf key).number ↔ key' = key
  /-- An engine identifier comes back as it was. -/
  back : ∀ key t, ReflTransGen (Step β allowed) (s.asked key) t →
    (Host.identifierOf (s.idOf key)).run t.host = (key, t.host)
  /-- The identifiers that were issued are those that the host answers with, -/
  issued : ∀ id, s.names.Issued id ↔ ∃ key, s.idOf key = id ∧ (s.asked key).names = s.names
  /-- and each of them comes back as it was. -/
  forth : ∀ id, s.names.Issued id → ∀ t, ReflTransGen (Step β allowed) s t →
    (Host.idOf ((Host.identifierOf id).run s.host).1).run t.host = (id, t.host)

theorem asked_steps (s : Ledger ρ) (key : Identifier) : ReflTransGen (Step β allowed) s (s.asked key) := by
  cases key with
  | name text => exact .single (.intern text)
  | index i => exact .refl

theorem isName_idOf (s : Ledger ρ) (key : Identifier) : (s.idOf key).isName = key.isName := by
  cases key with
  | name text => exact s.names.isName_intern text
  | index i => rfl

/-- Interning is a bijection that lasts, and identifiers cross in both directions and come back. -/
theorem identifiers_cross (β : Behaviour ρ μ) (allowed : Names → HostId → Prop) (s : Ledger ρ) :
    s.Crosses β allowed := by
  constructor
  case inverse => exact s.names.inverse
  case once => exact s.names.distinct
  case kept =>
    intro t steps text id found
    exact (t.names.inverse text id).2 ((names_of_steps steps).text? ((s.names.inverse text id).1 found))
  case asks => exact s.asked_steps
  case narrow => exact fun few key => ⟨Names.narrow_ofIdentifier few key, s.isName_idOf key⟩
  case apart =>
    intro key t steps few key'
    have more : t.names.Extends (s.names.ofIdentifier key).2 := names_of_steps steps
    have before := Nat.lt_of_le_of_lt (more.trans (s.names.extends_ofIdentifier key)).length_le few
    exact ((Names.narrow_ofIdentifier few key').number_inj (Names.narrow_ofIdentifier before key)).trans
      more.ofIdentifier_inj
  case back =>
    intro key t steps
    have more : t.names.Extends (s.names.ofIdentifier key).2 := names_of_steps steps
    have same := (more.denotes (s.names.denotes_ofIdentifier key)).identifier
    exact Prod.ext same rfl
  case issued =>
    intro id
    exact Names.issued_iff_handed.trans (exists_congr fun key => Prod.ext_iff)
  case forth =>
    intro id issued t steps
    have more := names_of_steps steps
    change (Host.idOf (s.names.identifier id)).run t.host = (id, t.host)
    exact Host.run_idOf_of_answers (more.ofIdentifier issued.handed.ofIdentifier)

/-- The text of an integer, as a name, is not that integer. -/
example : (Names.empty.ofIdentifier (.name "3")).1.number = 2 ^ 63 ∧
    (Names.empty.ofIdentifier (.index 3)).1.number = 3 := by decide

end Ledger

end ScriptBoundary
