import ScriptBoundary.Proofs.Value

/-!
Edits of a bag, one after another. An edit that finds nothing to remove changes nothing; every other one
drops the backing.
-/

namespace ScriptBoundary

/-- A change to one bag. -/
inductive Edit where
  | set (id : Identifier) (value : Value)
  | push (value : Value)
  | remove (id : Identifier)

namespace Edit

def apply (b : Bag Value) : Edit → Bag Value
  | set id value => b.set id value
  | push value => b.push value
  | remove id => b.remove id

/-- The edit finds nothing to remove. -/
def idle (b : Bag Value) : Edit → Bool
  | set _ _ => false
  | push _ => false
  | remove id => !b.contains id

/-- What the edit stores in the bag. -/
def stores : Edit → List Value
  | set _ value => [value]
  | push value => [value]
  | remove _ => []

variable {b : Bag Value} {edit : Edit}

theorem apply_of_idle (idle : edit.idle b = true) : edit.apply b = b := by
  cases edit with
  | set => cases idle
  | push => cases idle
  | remove id =>
    have absent : ¬ b.contains id = true := by simpa [Edit.idle] using idle
    exact if_neg absent

theorem backing_apply (b : Bag Value) (edit : Edit) :
    (edit.apply b).backing = if edit.idle b then b.backing else none := by
  cases edit with
  | set => rfl
  | push => rfl
  | remove id =>
    change (b.remove id).backing = if !b.contains id then b.backing else none
    rw [Bag.remove]
    split
    next inside => rw [inside]; rfl
    next absent => rw [if_pos (by simpa using absent)]

theorem mem_apply {e : Identifier × Value} (inside : e ∈ (edit.apply b).props.entries) :
    e ∈ b.props.entries ∨ e.2 ∈ edit.stores := by
  cases edit with
  | set => exact (Table.mem_place inside).symm.imp id fun here => List.mem_singleton.2 (congrArg (·.2) here)
  | push => exact (Table.mem_place inside).symm.imp id fun here => List.mem_singleton.2 (congrArg (·.2) here)
  | remove id =>
    simp only [apply, Bag.remove] at inside
    split at inside
    · exact .inl (List.mem_of_mem_filter inside)
    · exact .inl inside

end Edit

namespace Bag

def edited (b : Bag Value) (edits : List Edit) : Bag Value := edits.foldl Edit.apply b

theorem edited_append (b : Bag Value) (edits : List Edit) (edit : Edit) :
    b.edited (edits ++ [edit]) = edit.apply (b.edited edits) := by
  rw [edited, List.foldl_append]
  rfl

variable {b : Bag Value} {edits : List Edit}

theorem edited_of_idle (idle : edits.all (Edit.idle b) = true) : b.edited edits = b := by
  induction edits with
  | nil => rfl
  | cons edit rest ih =>
    obtain ⟨here, rest⟩ := Bool.and_eq_true_iff.1 idle
    rw [edited, List.foldl_cons, Edit.apply_of_idle here]
    exact ih rest

theorem backing_edited_of_unbacked (unbacked : b.backing = none) : (b.edited edits).backing = none := by
  induction edits generalizing b with
  | nil => exact unbacked
  | cons edit rest ih => exact ih (by rw [Edit.backing_apply, unbacked, ite_self])

/-- One edit that takes effect is enough to drop the backing for good. -/
theorem backing_edited (b : Bag Value) (edits : List Edit) :
    (b.edited edits).backing = if edits.all (Edit.idle b) then b.backing else none := by
  induction edits with
  | nil => rfl
  | cons edit rest ih =>
    change ((edit.apply b).edited rest).backing = _
    cases idle : edit.idle b with
    | true => rw [Edit.apply_of_idle idle, ih, List.all_cons, idle, Bool.true_and]
    | false =>
      rw [List.all_cons, idle, Bool.false_and]
      exact backing_edited_of_unbacked (by rw [Edit.backing_apply, idle]; rfl)

end Bag

end ScriptBoundary
