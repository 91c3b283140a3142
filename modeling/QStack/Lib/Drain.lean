/-
# QStack.Lib.Drain -- taking from several sources until there is nothing left

A consumer is a call that takes items from some sources: it returns what it took, each item
under the source it came from, or `none` once it took nothing.  `drain` repeats the call
until it says `none`.  `Supplies` is the law of a call in terms of what each source still
has to give.

* `drain_ends`: a call that keeps the law is done after as many rounds as there are items,
  and each source has then given, in order, what it had but for what is still left;
* `perm_of_takenFrom`: two drains that take the same from every source take the same items.
-/
import Mathlib.Data.List.Perm.Basic

namespace QStack.Lib.Drain

set_option autoImplicit false

variable {σ κ α : Type}

/-- How many items the sources have to give. -/
def total (supply : κ → List α) : List κ → Nat
  | [] => 0
  | r :: keys => (supply r).length + total supply keys

theorem total_le {less more : κ → List α} {keys : List κ}
    (le : ∀ r ∈ keys, (less r).length ≤ (more r).length) : total less keys ≤ total more keys := by
  induction keys with
  | nil => exact Nat.le_refl _
  | cons r keys ih =>
      have first := le r List.mem_cons_self
      have rest := ih fun q mem => le q (List.mem_cons_of_mem r mem)
      simp only [total]
      omega

theorem total_lt {less more : κ → List α} {keys : List κ}
    (le : ∀ r, (less r).length ≤ (more r).length)
    (lt : ∃ r ∈ keys, (less r).length < (more r).length) : total less keys < total more keys := by
  induction keys with
  | nil =>
      obtain ⟨_, mem, _⟩ := lt
      cases mem
  | cons r keys ih =>
      obtain ⟨q, mem, lt⟩ := lt
      simp only [total]
      rcases List.mem_cons.mp mem with rfl | mem
      · have rest := total_le fun r (_ : r ∈ keys) => le r
        omega
      · have first := le r
        have rest := ih ⟨q, mem, lt⟩
        omega

/-- Fewer sources have no more to give. -/
theorem total_filter_le (p : κ → Bool) (supply : κ → List α) (keys : List κ) :
    total supply (keys.filter p) ≤ total supply keys := by
  induction keys with
  | nil => exact Nat.le_refl _
  | cons r keys ih =>
      rw [List.filter_cons]
      split
      · simp only [total]
        omega
      · simp only [total]
        omega

variable [DecidableEq κ]

/-- What an output took from source `r`, in order. -/
def takenFrom (r : κ) (out : List (κ × α)) : List α :=
  (out.filter fun e => e.1 = r).map Prod.snd

@[simp] theorem takenFrom_nil (r : κ) : takenFrom r ([] : List (κ × α)) = [] := rfl

@[simp] theorem takenFrom_append (r : κ) (out later : List (κ × α)) :
    takenFrom r (out ++ later) = takenFrom r out ++ takenFrom r later := by
  simp [takenFrom]

theorem takenFrom_single (r : κ) (e : κ × α) : takenFrom r [e] = if e.1 = r then [e.2] else [] := by
  by_cases same : e.1 = r
  · simp [takenFrom, same]
  · simp [takenFrom, same]

theorem takenFrom_ne_nil {e : κ × α} {out : List (κ × α)} (mem : e ∈ out) : takenFrom e.1 out ≠ [] := by
  intro empty
  have taken : e.2 ∈ takenFrom e.1 out :=
    List.mem_map_of_mem (List.mem_filter.mpr ⟨mem, by simp⟩)
  rw [empty] at taken
  cases taken

/-- Items from sources that have nothing to give are not in an output. -/
theorem takenFrom_eq_nil {r : κ} {out : List (κ × α)} (other : ∀ e ∈ out, e.1 ≠ r) :
    takenFrom r out = [] := by
  unfold takenFrom
  rw [List.filter_eq_nil_iff.mpr fun e mem => by simpa using other e mem]
  rfl

/-- How often an item was taken is told by its source. -/
theorem count_eq_takenFrom [DecidableEq α] (e : κ × α) (out : List (κ × α)) :
    out.count e = (takenFrom e.1 out).count e.2 := by
  induction out with
  | nil => rfl
  | cons f out ih =>
      have split : takenFrom e.1 (f :: out) = takenFrom e.1 [f] ++ takenFrom e.1 out := takenFrom_append e.1 [f] out
      rw [split, List.count_append, ← ih, takenFrom_single]
      obtain ⟨k, a⟩ := e
      obtain ⟨k', a'⟩ := f
      by_cases source : k' = k
      · subst source
        by_cases item : a' = a
        · subst item
          simp [Nat.add_comm]
        · simp [item]
      · simp [source]

/-- **Two outputs that take the same from every source are the same items.** -/
theorem perm_of_takenFrom [DecidableEq α] {xs ys : List (κ × α)}
    (same : ∀ r, takenFrom r xs = takenFrom r ys) : xs.Perm ys := by
  rw [List.perm_iff_count]
  intro e
  rw [count_eq_takenFrom, count_eq_takenFrom, same]

/-- Repeat the call until it takes nothing. -/
def drain (call : σ → Option (List (κ × α)) × σ) : Nat → σ → Option (List (κ × α) × σ)
  | 0, _ => none
  | fuel + 1, s =>
      match call s with
      | (none, s') => some ([], s')
      | (some out, s') => (drain call fuel s').map fun rest => (out ++ rest.1, rest.2)

/-- What a call does to the sources: what it returns comes off what they have to give, and a
call that returns nothing takes nothing. -/
structure Supplies (call : σ → Option (List (κ × α)) × σ) (Inv : σ → Prop)
    (supply : σ → κ → List α) (keys : List κ) : Prop where
  keep : ∀ s, Inv s → Inv (call s).2
  none : ∀ s, Inv s → (call s).1 = none → ∀ r, supply (call s).2 r = supply s r
  some : ∀ s out, Inv s → (call s).1 = some out →
    out ≠ [] ∧ (∀ e ∈ out, e.1 ∈ keys) ∧ ∀ r, supply s r = takenFrom r out ++ supply (call s).2 r

section Ends

variable {call : σ → Option (List (κ × α)) × σ} {Inv : σ → Prop} {supply : σ → κ → List α}
  {keys : List κ}

/-- A call that returns something leaves less to take. -/
theorem Supplies.decreases (law : Supplies call Inv supply keys) {s : σ} (inv : Inv s)
    {out : List (κ × α)} (took : (call s).1 = Option.some out) :
    total (supply (call s).2) keys < total (supply s) keys := by
  obtain ⟨nonempty, polled, split⟩ := law.some s out inv took
  obtain ⟨e, mem⟩ := List.exists_mem_of_ne_nil out nonempty
  have lengths : ∀ r, (supply s r).length
      = (takenFrom r out).length + (supply (call s).2 r).length := by
    intro r
    rw [split r, List.length_append]
  apply total_lt
  · intro r
    rw [lengths r]
    exact Nat.le_add_left _ _
  · refine ⟨e.1, polled e mem, ?_⟩
    rw [lengths e.1]
    have taken : 0 < (takenFrom e.1 out).length := List.length_pos_iff.mpr (takenFrom_ne_nil mem)
    omega

/-- **A drain ends**, after as many rounds as there are items at most, at a state whose call
takes nothing, and what it took is in order what each source had. -/
theorem drain_ends (law : Supplies call Inv supply keys) (fuel : Nat) (s : σ) (inv : Inv s)
    (enough : total (supply s) keys < fuel) :
    ∃ out last, drain call fuel s = Option.some (out, (call last).2) ∧ Inv last ∧
      (call last).1 = Option.none ∧ (∀ e ∈ out, e.1 ∈ keys) ∧
      ∀ r, supply s r = takenFrom r out ++ supply last r := by
  induction fuel generalizing s with
  | zero => exact absurd enough (Nat.not_lt_zero _)
  | succ fuel ih =>
      cases took : (call s).1 with
      | none =>
          have ended : call s = (Option.none, (call s).2) := Prod.ext took rfl
          refine ⟨[], s, ?_, inv, took, nofun, fun _ => rfl⟩
          rw [drain, ended]
      | some out =>
          have went : call s = (Option.some out, (call s).2) := Prod.ext took rfl
          have less := law.decreases inv took
          obtain ⟨rest, last, drained, kept, ended, polledRest, splitRest⟩ :=
            ih (call s).2 (law.keep s inv) (by omega)
          obtain ⟨_, polled, split⟩ := law.some s out inv took
          refine ⟨out ++ rest, last, ?_, kept, ended, ?_, ?_⟩
          · rw [drain, went]
            simp only [drained, Option.map_some]
          · intro e mem
            rcases List.mem_append.mp mem with early | late
            · exact polled e early
            · exact polledRest e late
          · intro r
            rw [split r, splitRest r, takenFrom_append, List.append_assoc]

end Ends

end QStack.Lib.Drain
