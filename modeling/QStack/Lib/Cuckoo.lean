/-
# QStack.Lib.Cuckoo -- tables whose items have several homes

A table maps places to items.  Every item may stand in any of its homes, and stands in one place
only (`Sound`).  Items are displaced one at a time, each to a home that is free (`Move`); a run of
such moves changes where the items are and not which there are (`Moves.stored`, `Moves.sound`).

An implementation that displaces a chain does not clear the places it leaves: the last item is
copied to a free place, the one before it to the place of that copy, and so on.  In between one
item stands twice.  `Moves.shift` is the rule for that: the table without the surplus copy is
reached by moves, and copying one more item there takes the surplus to the place of that item.
-/
import Mathlib.Logic.Function.Basic
import Mathlib.Logic.Relation

namespace QStack.Lib.Cuckoo

set_option autoImplicit false

variable {P I : Type} [DecidableEq P]

abbrev Table (P I : Type) := P → Option I

def put (t : Table P I) (p : P) (x : I) : Table P I := Function.update t p (some x)

def clear (t : Table P I) (p : P) : Table P I := Function.update t p none

section Updates

@[simp]
theorem put_self (t : Table P I) (p : P) (x : I) : put t p x p = some x :=
  Function.update_self _ _ _

theorem put_of_ne {p q : P} (ne : q ≠ p) (t : Table P I) (x : I) : put t p x q = t q :=
  Function.update_of_ne ne _ _

@[simp]
theorem clear_self (t : Table P I) (p : P) : clear t p p = none := Function.update_self _ _ _

theorem clear_of_ne {p q : P} (ne : q ≠ p) (t : Table P I) : clear t p q = t q :=
  Function.update_of_ne ne _ _

@[simp]
theorem put_clear (t : Table P I) (p : P) (x : I) : put (clear t p) p x = put t p x :=
  Function.update_idem _ _ _

end Updates

/-- The item stands somewhere. -/
def Stored (t : Table P I) (x : I) : Prop := ∃ p, t p = some x

structure Sound (home : I → P → Prop) (t : Table P I) : Prop where
  placed : ∀ p x, t p = some x → home x p
  once : ∀ p q x, t p = some x → t q = some x → p = q

/-- One item goes to a free home of its own. -/
inductive Move (home : I → P → Prop) (t : Table P I) : Table P I → Prop
  | mk {p q : P} {x : I} (here : t p = some x) (room : t q = none) (fits : home x q) :
      Move home t (clear (put t q x) p)

def Moves (home : I → P → Prop) : Table P I → Table P I → Prop :=
  Relation.ReflTransGen (Move home)

variable {home : I → P → Prop} {t u : Table P I}

/-! ## Putting and clearing -/

theorem stored_put {p : P} {x : I} (room : t p = none) (y : I) :
    Stored (put t p x) y ↔ y = x ∨ Stored t y := by
  constructor
  · rintro ⟨q, at_⟩
    by_cases same : q = p
    · subst same
      rw [put_self] at at_
      exact .inl (Option.some.inj at_).symm
    · rw [put_of_ne same] at at_
      exact .inr ⟨q, at_⟩
  · rintro (rfl | ⟨q, at_⟩)
    · exact ⟨p, put_self t p y⟩
    · have ne : q ≠ p := by
        rintro rfl
        rw [room] at at_
        cases at_
      exact ⟨q, by rw [put_of_ne ne, at_]⟩

theorem stored_clear (once : ∀ p q x, t p = some x → t q = some x → p = q) {p : P} {x : I}
    (here : t p = some x) (y : I) : Stored (clear t p) y ↔ y ≠ x ∧ Stored t y := by
  constructor
  · rintro ⟨q, at_⟩
    have ne : q ≠ p := by
      rintro rfl
      rw [clear_self] at at_
      cases at_
    rw [clear_of_ne ne] at at_
    refine ⟨?_, q, at_⟩
    rintro rfl
    exact ne (once q p y at_ here)
  · rintro ⟨other, q, at_⟩
    have ne : q ≠ p := by
      rintro rfl
      exact other (Option.some.inj (at_.symm.trans here))
    exact ⟨q, by rw [clear_of_ne ne, at_]⟩

theorem Sound.put (sound : Sound home t) {p : P} {x : I} (room : t p = none) (fits : home x p)
    (fresh : ¬ Stored t x) : Sound home (put t p x) where
  placed q y at_ := by
    by_cases same : q = p
    · subst same
      rw [put_self] at at_
      cases at_
      exact fits
    · rw [put_of_ne same] at at_
      exact sound.placed q y at_
  once q r y atQ atR := by
    by_cases here : q = p <;> by_cases there : r = p
    · exact here.trans there.symm
    · subst here
      rw [put_self] at atQ
      rw [put_of_ne there] at atR
      exact absurd ⟨r, atR⟩ (Option.some.inj atQ ▸ fresh)
    · subst there
      rw [put_self] at atR
      rw [put_of_ne here] at atQ
      exact absurd ⟨q, atQ⟩ (Option.some.inj atR ▸ fresh)
    · rw [put_of_ne here] at atQ
      rw [put_of_ne there] at atR
      exact sound.once q r y atQ atR

theorem Sound.clear (sound : Sound home t) (p : P) : Sound home (clear t p) := by
  have kept : ∀ q x, Cuckoo.clear t p q = some x → t q = some x := by
    intro q x at_
    by_cases same : q = p
    · subst same
      rw [clear_self] at at_
      cases at_
    · rwa [clear_of_ne same] at at_
  exact ⟨fun q x at_ => sound.placed q x (kept q x at_),
    fun q r x atQ atR => sound.once q r x (kept q x atQ) (kept r x atR)⟩

/-! ## Moves -/

/-- Clearing a place commutes with writing another. -/
theorem clear_put {p q : P} (ne : p ≠ q) (x : I) :
    clear (put t q x) p = put (clear t p) q x :=
  Function.update_comm ne.symm _ _ _

omit [DecidableEq P] in
theorem ne_of_room {p q : P} {x : I} (here : t p = some x) (room : t q = none) : p ≠ q := by
  rintro rfl
  rw [here] at room
  cases room

theorem Move.sound (move : Move home t u) (sound : Sound home t) : Sound home u := by
  cases move with
  | mk here room fits =>
      have ne := ne_of_room here room
      rw [clear_put ne]
      refine (sound.clear _).put ?_ fits ?_
      · rw [clear_of_ne ne.symm, room]
      · rw [stored_clear sound.once here]
        exact fun both => both.1 rfl

theorem Move.stored (move : Move home t u) (sound : Sound home t) (y : I) :
    Stored u y ↔ Stored t y := by
  cases move with
  | @mk p q x here room fits =>
      have ne := ne_of_room here room
      rw [clear_put ne, stored_put (by rw [clear_of_ne ne.symm, room]),
        stored_clear sound.once here]
      constructor
      · rintro (rfl | both)
        · exact ⟨p, here⟩
        · exact both.2
      · intro stored
        by_cases same : y = x
        · exact .inl same
        · exact .inr ⟨same, stored⟩

theorem Moves.sound (moves : Moves home t u) (sound : Sound home t) : Sound home u := by
  induction moves with
  | refl => exact sound
  | tail _ move ih => exact move.sound ih

theorem Moves.stored (moves : Moves home t u) (sound : Sound home t) (y : I) :
    Stored u y ↔ Stored t y := by
  induction moves with
  | refl => exact Iff.rfl
  | tail before move ih => exact (move.stored (Moves.sound before sound) y).trans ih

/-! ## Chains of copies -/

/-- The last link: copying an item to a free home and forgetting the old place is a move. -/
theorem Moves.copy {p q : P} {x : I} (here : t p = some x) (room : t q = none) (fits : home x q) :
    Moves home t (clear (put t q x) p) := .single (.mk here room fits)

/-- A further link: the surplus copy at `q` is overwritten with the item at `p`, which is then the
surplus one. -/
theorem Moves.shift {p q : P} {x : I} (moves : Moves home t (clear u q)) (here : u p = some x)
    (ne : p ≠ q) (fits : home x q) : Moves home t (clear (put u q x) p) := by
  rw [← put_clear]
  exact moves.tail (.mk (by rw [clear_of_ne ne, here]) (clear_self u q) fits)

end QStack.Lib.Cuckoo
