/-
# QStack.Lib.Fifo -- the bounded FIFO, as a specification

`Step cap` is a queue of at most `cap` items: what it holds, what one operation shows to
the outside, what it holds after that.  A machine refines it when every transition, seen
through some abstraction of its states, is such a step with the label the machine shows.
`trace` is what a refinement is good for: over a whole run, what went in is what came out
followed by what is still held.
-/
import QStack.Lib.Run
import Mathlib.Data.List.Basic

namespace QStack.Lib.Fifo

set_option autoImplicit false

/-- What one step shows: the result of an operation, if it ends one. -/
inductive Label (α : Type) where
  | internal
  | added (item : α)
  | refused
  | got (item : Option α)
  | nothing
deriving DecidableEq, Repr

/-- One step of a FIFO of capacity `cap`. -/
inductive Step {α : Type} (cap : Nat) : List α → Label α → List α → Prop
  | internal (xs : List α) : Step cap xs .internal xs
  | added {xs : List α} {x : α} (room : xs.length < cap) : Step cap xs (.added x) (xs ++ [x])
  | refused {xs : List α} (full : xs.length = cap) : Step cap xs .refused xs
  | got {x : α} {xs : List α} : Step cap (x :: xs) (.got (some x)) xs
  | nothing : Step cap [] .nothing []

variable {α : Type}

/-- Only an add and a get change what is held. -/
theorem Step.same {cap : Nat} {xs xs' : List α} {l : Label α} (step : Step cap xs l xs')
    (quiet : l = .internal ∨ l = .refused ∨ l = .nothing) : xs' = xs := by
  cases step with
  | internal | refused | nothing => rfl
  | added | got => simp at quiet

/-- The items a sequence of labels put in. -/
def inputs : List (Label α) → List α
  | [] => []
  | .added x :: ls => x :: inputs ls
  | _ :: ls => inputs ls

/-- The items a sequence of labels took out. -/
def outputs : List (Label α) → List α
  | [] => []
  | .got (some x) :: ls => x :: outputs ls
  | _ :: ls => outputs ls

/-- Whatever does not take an item out puts its own items at the end. -/
theorem Step.held {cap : Nat} {xs xs' : List α} {l : Label α} (step : Step cap xs l xs')
    (noGet : ∀ x, l ≠ .got x) : xs' = xs ++ inputs [l] := by
  cases step with
  | internal | refused | nothing => simp [inputs]
  | added => rfl
  | got => exact absurd rfl (noGet _)

section Trace

variable {S E : Type} {step : S → E → S} {observe : S → E → Label α} {abs : S → List α} {cap : Nat}

/-- What was held and what went in is what came out and what is held. -/
theorem trace : ∀ (es : List E) (s : S),
    Run.Each step (fun s e s' => Step cap (abs s) (observe s e) (abs s')) s es →
      abs s ++ inputs (Run.labels step observe s es) =
        outputs (Run.labels step observe s es) ++ abs (Run.run step s es)
  | [], s, _ => by simp [Run.labels, Run.run, inputs, outputs]
  | e :: es, s, each => by
      have rest := trace es (step s e) each.2
      have here : Step cap (abs s) (observe s e) (abs (step s e)) := each.1
      rw [Run.labels, Run.run]
      generalize observe s e = l at here ⊢
      generalize abs s = xs at here ⊢
      generalize abs (step s e) = xs' at here rest
      cases here with
      | internal | refused | nothing => exact rest
      | added => simpa [inputs, outputs] using rest
      | got => simpa [inputs, outputs] using rest

end Trace

end QStack.Lib.Fifo
