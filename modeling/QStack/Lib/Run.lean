/-
# QStack.Lib.Run -- runs of a deterministic machine, and the invariant rule

A machine is a step function from a state and an event to the next state.  `run`
folds a list of events.  `Allowed ok` says that every event of the run met `ok`
in the state it was taken from, `Along P` that every state reached, the first and
the last included, has `P`, and `Each T` that every transition has `T`.
`along_of_step` is the rule all safety results go through: an invariant that holds
at the start and is kept by each allowed step holds along every allowed run.
`each_of_step` does the same for transitions.
-/
import Mathlib.Logic.Basic

namespace QStack.Lib.Run

set_option autoImplicit false

variable {S E : Type}

def run (step : S → E → S) : S → List E → S
  | s, [] => s
  | s, e :: es => run step (step s e) es

/-- What an observer of every step sees. -/
def labels {L : Type} (step : S → E → S) (observe : S → E → L) : S → List E → List L
  | _, [] => []
  | s, e :: es => observe s e :: labels step observe (step s e) es

/-- Every event of the run satisfies `ok` in the state it is taken from. -/
def Allowed (step : S → E → S) (ok : S → E → Prop) : S → List E → Prop
  | _, [] => True
  | s, e :: es => ok s e ∧ Allowed step ok (step s e) es

instance Allowed.decidable (step : S → E → S) (ok : S → E → Prop) [∀ s e, Decidable (ok s e)] :
    ∀ (s : S) (es : List E), Decidable (Allowed step ok s es)
  | _, [] => .isTrue trivial
  | s, e :: es =>
      have := Allowed.decidable step ok (step s e) es
      inferInstanceAs (Decidable (_ ∧ _))

/-- Every state of the run satisfies `P`. -/
def Along (step : S → E → S) (P : S → Prop) : S → List E → Prop
  | s, [] => P s
  | s, e :: es => P s ∧ Along step P (step s e) es

/-- Every transition of the run satisfies `T`. -/
def Each (step : S → E → S) (T : S → E → S → Prop) : S → List E → Prop
  | _, [] => True
  | s, e :: es => T s e (step s e) ∧ Each step T (step s e) es

section Rules

variable {step : S → E → S} {ok : S → E → Prop} {P Q : S → Prop} {T : S → E → S → Prop}

theorem run_append (es later : List E) (s : S) :
    run step s (es ++ later) = run step (run step s es) later := by
  induction es generalizing s with
  | nil => rfl
  | cons e es ih => exact ih (step s e)

/-- Nothing is asked of the events. -/
theorem allowed_always : ∀ (es : List E) (s : S), Allowed step (fun _ _ => True) s es
  | [], _ => trivial
  | e :: es, s => ⟨trivial, allowed_always es (step s e)⟩

theorem along_of_step (kept : ∀ s e, P s → ok s e → P (step s e)) :
    ∀ (es : List E) (s : S), P s → Allowed step ok s es → Along step P s es
  | [], _, start, _ => start
  | e :: es, s, start, allowed =>
      ⟨start, along_of_step kept es (step s e) (kept s e start allowed.1) allowed.2⟩

theorem each_of_step (kept : ∀ s e, P s → ok s e → P (step s e) ∧ T s e (step s e)) :
    ∀ (es : List E) (s : S), P s → Allowed step ok s es → Each step T s es
  | [], _, _, _ => trivial
  | e :: es, s, start, allowed =>
      have next := kept s e start allowed.1
      ⟨next.2, each_of_step kept es (step s e) next.1 allowed.2⟩

/-- A transition that is right exactly when its event was allowed. -/
theorem each_iff_allowed (kept : ∀ s e, P s → P (step s e))
    (exact_ : ∀ s e, P s → (T s e (step s e) ↔ ok s e)) :
    ∀ (es : List E) (s : S), P s → (Each step T s es ↔ Allowed step ok s es)
  | [], _, _ => Iff.rfl
  | e :: es, s, start =>
      and_congr (exact_ s e start) (each_iff_allowed kept exact_ es (step s e) (kept s e start))

/-- The same for runs of events from a range, where an event that is not allowed need not keep the
invariant. -/
theorem each_iff_allowed_within {range : S → E → Prop}
    (kept : ∀ s e, P s → range s e → ok s e → P (step s e))
    (exact_ : ∀ s e, P s → range s e → (T s e (step s e) ↔ ok s e)) :
    ∀ (es : List E) (s : S), P s → Allowed step range s es →
      (Each step T s es ↔ Allowed step ok s es)
  | [], _, _, _ => Iff.rfl
  | e :: es, s, start, inRange => by
      rw [Each, Allowed, exact_ s e start inRange.1]
      exact and_congr_right fun allowed =>
        each_iff_allowed_within kept exact_ es (step s e) (kept s e start inRange.1 allowed)
          inRange.2

theorem Each.at_run {e : E} {later : List E} : ∀ (es : List E) (s : S),
    Each step T s (es ++ e :: later) → T (run step s es) e (step (run step s es) e)
  | [], _, each => each.1
  | f :: es, s, each => Each.at_run es (step s f) each.2

theorem Along.last : ∀ (es : List E) (s : S), Along step P s es → P (run step s es)
  | [], _, along => along
  | e :: es, s, along => Along.last es (step s e) along.2

theorem Along.mono (weaker : ∀ s, P s → Q s) :
    ∀ (es : List E) (s : S), Along step P s es → Along step Q s es
  | [], s, along => weaker s along
  | e :: es, s, along => ⟨weaker s along.1, Along.mono weaker es (step s e) along.2⟩

end Rules

end QStack.Lib.Run
