/-
# QStack.Lib.Apart -- a family of lists without common elements

Containers that own their elements: every list of the family is free of repetitions and no
element is on two of them.  The rules say how an element or a batch may enter, leave and
change its list.
-/
import Mathlib.Data.List.Basic
import Mathlib.Data.List.Perm.Basic
import Mathlib.Logic.Function.Basic

namespace QStack.Lib

set_option autoImplicit false

structure Apart {κ α : Type} (lists : κ → List α) : Prop where
  nodup : ∀ h, (lists h).Nodup
  apart : ∀ h h' x, x ∈ lists h → x ∈ lists h' → h = h'

namespace Apart

variable {κ α : Type} {lists lists' : κ → List α}

theorem empty : Apart (fun _ : κ => ([] : List α)) where
  nodup := fun _ => List.nodup_nil
  apart := fun _ _ _ within => absurd within List.not_mem_nil

/-- Whatever only takes elements away. -/
theorem shrink (apart : Apart lists) (nodup : ∀ h, (lists' h).Nodup)
    (fewer : ∀ h, lists' h ⊆ lists h) : Apart lists' where
  nodup := nodup
  apart := fun h h' x within within' => apart.apart h h' x (fewer h within) (fewer h' within')

variable [DecidableEq κ] {h : κ} {x : α}

theorem mem_enter {y : α} {h' : κ} {arrived : List α} (arrives : arrived.Perm (x :: lists h))
    (within : y ∈ Function.update lists h arrived h') : y ∈ lists h' ∨ y = x ∧ h' = h := by
  by_cases same : h' = h
  · subst same
    rw [Function.update_self, arrives.mem_iff, List.mem_cons] at within
    exact within.symm.imp_right fun equal => ⟨equal, rfl⟩
  · rw [Function.update_of_ne same] at within
    exact .inl within

/-- An element that is nowhere enters a list, wherever in it. -/
theorem enter (apart : Apart lists) (fresh : ∀ h', x ∉ lists h') {arrived : List α}
    (arrives : arrived.Perm (x :: lists h)) : Apart (Function.update lists h arrived) := by
  constructor
  · intro h'
    by_cases same : h' = h
    · subst same
      rw [Function.update_self, arrives.nodup_iff]
      exact List.nodup_cons.mpr ⟨fresh h', apart.nodup h'⟩
    · rw [Function.update_of_ne same]
      exact apart.nodup h'
  · intro h₁ h₂ y within within'
    rcases mem_enter arrives within with inside | ⟨rfl, rfl⟩
    · rcases mem_enter arrives within' with inside' | ⟨rfl, rfl⟩
      · exact apart.apart h₁ h₂ y inside inside'
      · exact absurd inside (fresh h₁)
    · rcases mem_enter arrives within' with inside' | ⟨-, rfl⟩
      · exact absurd inside' (fresh h₂)
      · rfl

/-- It enters at the end. -/
theorem append (apart : Apart lists) (fresh : ∀ h', x ∉ lists h') (h : κ) :
    Apart (Function.update lists h (lists h ++ [x])) :=
  apart.enter fresh (List.perm_append_singleton x (lists h))

/-- A list is replaced by a part of it. -/
theorem update (apart : Apart lists) {xs : List α} (nodup : xs.Nodup) (fewer : xs ⊆ lists h) :
    Apart (Function.update lists h xs) := by
  refine apart.shrink (fun h' => ?_) (fun h' => ?_)
  · by_cases same : h' = h
    · subst same
      rw [Function.update_self]
      exact nodup
    · rw [Function.update_of_ne same]
      exact apart.nodup h'
  · by_cases same : h' = h
    · subst same
      rw [Function.update_self]
      exact fewer
    · rw [Function.update_of_ne same]
      exact fun _ within => within

/-- A batch goes from one list to another. -/
theorem move (apart : Apart lists) {a b : κ} (other : a ≠ b) {moved left arrived : List α}
    (leaves : (lists a).Perm (moved ++ left)) (arrives : arrived.Perm (moved ++ lists b)) :
    Apart (Function.update (Function.update lists a left) b arrived) := by
  have split : (moved ++ left).Nodup := leaves.nodup_iff.mp (apart.nodup a)
  obtain ⟨nodup, nodup', disjoint⟩ := List.nodup_append.mp split
  have mem : ∀ {h x}, x ∈ Function.update (Function.update lists a left) b arrived h →
      (h = b ∧ x ∈ moved) ∨ (x ∈ lists h ∧ x ∉ moved) := by
    intro h x within
    by_cases here : h = b
    · subst here
      rw [Function.update_self, arrives.mem_iff, List.mem_append] at within
      refine within.imp (fun inside => ⟨rfl, inside⟩) fun inside => ⟨inside, fun back => ?_⟩
      exact other (apart.apart a h x (leaves.mem_iff.mpr (List.mem_append_left _ back)) inside)
    · rw [Function.update_of_ne here] at within
      by_cases there : h = a
      · subst there
        rw [Function.update_self] at within
        exact .inr ⟨leaves.mem_iff.mpr (List.mem_append_right _ within),
          fun back => disjoint x back x within rfl⟩
      · rw [Function.update_of_ne there] at within
        refine .inr ⟨within, fun back => ?_⟩
        exact there (apart.apart h a x within (leaves.mem_iff.mpr (List.mem_append_left _ back)))
  constructor
  · intro h
    by_cases here : h = b
    · subst here
      rw [Function.update_self, arrives.nodup_iff]
      refine List.nodup_append.mpr ⟨nodup, apart.nodup h, ?_⟩
      rintro x within y inside rfl
      exact other (apart.apart a h x (leaves.mem_iff.mpr (List.mem_append_left _ within)) inside)
    · rw [Function.update_of_ne here]
      by_cases there : h = a
      · subst there
        rw [Function.update_self]
        exact nodup'
      · rw [Function.update_of_ne there]
        exact apart.nodup h
  · intro h h' x within within'
    rcases mem within with ⟨rfl, inside⟩ | ⟨inside, out⟩
    · rcases mem within' with ⟨rfl, -⟩ | ⟨-, out⟩
      · rfl
      · exact absurd inside out
    · rcases mem within' with ⟨-, inside'⟩ | ⟨inside', -⟩
      · exact absurd inside' out
      · exact apart.apart h h' x inside inside'

/-- A move loses nothing and makes nothing. -/
theorem move_mem {a b : κ} (other : a ≠ b) {moved left arrived : List α}
    (leaves : (lists a).Perm (moved ++ left)) (arrives : arrived.Perm (moved ++ lists b)) {x : α} :
    (∃ h, x ∈ Function.update (Function.update lists a left) b arrived h) ↔ ∃ h, x ∈ lists h := by
  constructor
  · rintro ⟨h, within⟩
    by_cases here : h = b
    · subst here
      rw [Function.update_self, arrives.mem_iff, List.mem_append] at within
      rcases within with inside | inside
      · exact ⟨a, leaves.mem_iff.mpr (List.mem_append_left _ inside)⟩
      · exact ⟨h, inside⟩
    · rw [Function.update_of_ne here] at within
      by_cases there : h = a
      · subst there
        rw [Function.update_self] at within
        exact ⟨h, leaves.mem_iff.mpr (List.mem_append_right _ within)⟩
      · rw [Function.update_of_ne there] at within
        exact ⟨h, within⟩
  · rintro ⟨h, within⟩
    by_cases here : h = b
    · subst here
      refine ⟨h, ?_⟩
      rw [Function.update_self, arrives.mem_iff]
      exact List.mem_append_right _ within
    · by_cases there : h = a
      · subst there
        rcases List.mem_append.mp (leaves.mem_iff.mp within) with inside | inside
        · refine ⟨b, ?_⟩
          rw [Function.update_self, arrives.mem_iff]
          exact List.mem_append_left _ inside
        · refine ⟨h, ?_⟩
          rw [Function.update_of_ne here, Function.update_self]
          exact inside
      · refine ⟨h, ?_⟩
        rw [Function.update_of_ne here, Function.update_of_ne there]
        exact within

end Apart

end QStack.Lib
