import Aperture.Machine.Word

/-!
# Runs of a transition system

A system is a step relation labelled by operations. `Run` is a finite run with
its list of operations, and `Guarded` restricts a relation to the steps that
meet a condition on the state they start from, `Reaching` to the steps that end
in a state with a property. The rules below are the inductions over runs.
-/

namespace Aperture.Machine

variable {State Op : Type*}

/-- A finite run from the first state to the last through the listed operations. -/
inductive Run (step : State → Op → State → Prop) : State → List Op → State → Prop
  /-- The empty run stays where it is. -/
  | nil (state : State) : Run step state [] state
  /-- One step followed by a run. -/
  | cons {first middle last : State} {op : Op} {ops : List Op} (head : step first op middle)
      (tail : Run step middle ops last) : Run step first (op :: ops) last

/-- The steps of a relation whose starting state and operation meet a condition. -/
def Guarded (guard : State → Op → Prop) (step : State → Op → State → Prop) :
    State → Op → State → Prop :=
  fun before op after => guard before op ∧ step before op after

/-- The steps of a relation that end in a state with a property. -/
def Reaching (property : State → Prop) (step : State → Op → State → Prop) :
    State → Op → State → Prop :=
  fun before op after => step before op after ∧ property after

namespace Run

variable {step : State → Op → State → Prop} {first middle last : State} {ops later : List Op}

/-- A property kept by every step is kept by every run. -/
theorem invariant (inv : State → Prop)
    (preserved : ∀ before op after, inv before → step before op after → inv after)
    (run : Run step first ops last) (initially : inv first) : inv last := by
  induction run with
  | nil => exact initially
  | cons head tail ih => exact ih (preserved _ _ _ initially head)

/-- Runs compose. -/
theorem append (left : Run step first ops middle) (right : Run step middle later last) :
    Run step first (ops ++ later) last := by
  induction left with
  | nil => exact right
  | cons head _ ih => exact .cons head (ih right)

/-- When an invariant shows a property and every guarded step keeps it, guarded runs have the
property throughout. -/
theorem reaching (inv : State → Prop) {guard : State → Op → Prop} {property : State → Prop}
    (kept : ∀ before op after, inv before → guard before op → step before op after → inv after)
    (shows : ∀ state, inv state → property state) (initially : inv first)
    (run : Run (Guarded guard step) first ops last) : Run (Reaching property step) first ops last := by
  induction run with
  | nil state => exact .nil state
  | cons head _ ih =>
    have next := kept _ _ _ initially head.1 head.2
    exact .cons ⟨head.2, shows _ next⟩ (ih next)

/-- When an invariant shows a property and the guard is exactly what a step needs to reach a
state with the property again, the guarded runs are the runs that keep the property. -/
theorem guarded_iff_reaching (inv : State → Prop) {guard : State → Op → Prop}
    {property : State → Prop}
    (kept : ∀ before op after, inv before → guard before op → step before op after → inv after)
    (shows : ∀ state, inv state → property state)
    (needed : ∀ before op after, inv before → step before op after → property after →
      guard before op) (initially : inv first) :
    Run (Guarded guard step) first ops last ↔ Run (Reaching property step) first ops last := by
  constructor
  · exact reaching inv kept shows initially
  · intro reaching
    induction reaching with
    | nil state => exact .nil state
    | cons head _ ih =>
      have guarded := needed _ _ _ initially head.1 head.2
      exact .cons ⟨guarded, head.1⟩ (ih (kept _ _ _ initially guarded head.1))

/-- Perform operations one after the other, while each is allowed and returns. -/
def evaluate (allowed : State → Op → Bool) (perform : State → Op → Except Panic State) :
    State → List Op → Option State
  | state, [] => some state
  | state, op :: ops =>
    if allowed state op then
      match perform state op with
      | .ok next => evaluate allowed perform next ops
      | .error _ => none
    else none

/-- Operations that can be performed make a run. -/
theorem of_evaluate {allowed : State → Op → Bool} {perform : State → Op → Except Panic State}
    (allows : ∀ before op after, allowed before op = true → perform before op = .ok after →
      step before op after)
    (evaluated : evaluate allowed perform first ops = some last) : Run step first ops last := by
  induction ops generalizing first with
  | nil =>
    obtain rfl := Option.some.inj evaluated
    exact .nil _
  | cons op ops ih =>
    simp only [evaluate] at evaluated
    split at evaluated
    · rename_i isAllowed
      cases performed : perform first op with
      | error reason =>
        rw [performed] at evaluated
        cases evaluated
      | ok next =>
        rw [performed] at evaluated
        exact .cons (allows _ _ _ isAllowed performed) (ih evaluated)
    · cases evaluated

/-- Forward simulation: when every step is matched by a step of a second system that keeps the
states related, so is every run. -/
theorem simulates {Abstract : Type*} (related : State → Abstract → Prop)
    {spec : Abstract → Op → Abstract → Prop} {abstract : Abstract}
    (simulated : ∀ before op after abstract, related before abstract → step before op after →
      ∃ next, related after next ∧ spec abstract op next)
    (run : Run step first ops last) (initially : related first abstract) :
    ∃ final, related last final ∧ Run spec abstract ops final := by
  induction run generalizing abstract with
  | nil state => exact ⟨abstract, initially, .nil _⟩
  | cons head _ ih =>
    obtain ⟨next, kept, matched⟩ := simulated _ _ _ _ initially head
    obtain ⟨final, keptLast, rest⟩ := ih kept
    exact ⟨final, keptLast, .cons matched rest⟩

end Run

end Aperture.Machine
