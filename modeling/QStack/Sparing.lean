/-
# QStack.Sparing -- timer flags, effects and the end of a stream, for every function

Each function of the stack records the list macros it ran in its effects.  `Tracks` says that they
may be made on the lists the flags of the stream describe, and that its flags follow them.
`Spares` says besides that the function does not destroy the stream.  Every walk tracks, and a walk
that may not destroy the stream spares it.
-/
import QStack.Walks

namespace QStack

set_option autoImplicit false

namespace Cx

/-- The flags of the stream follow the list macros that were run between `c` and `c'`. -/
def Tracks (c c' : Cx) : Prop :=
  c.st.timerFlags.Apart →
    ∃ es, c'.out = es ++ c.out ∧ c.st.timerFlags.replay es = some c'.st.timerFlags

/-- Nor is the stream destroyed. -/
structure Spares (c c' : Cx) : Prop where
  tracks : c.Tracks c'
  spared : c'.view.destroyed = c.view.destroyed

section Rules

variable {c c' c'' : Cx}

theorem Tracks.refl (c : Cx) : c.Tracks c := fun _ => ⟨[], rfl, rfl⟩

theorem Tracks.trans (first : c.Tracks c') (second : c'.Tracks c'') : c.Tracks c'' := by
  intro apart
  obtain ⟨es, out, flags⟩ := first apart
  obtain ⟨es', out', flags'⟩ := second (apart.replay flags)
  refine ⟨es' ++ es, by rw [out', out, List.append_assoc], ?_⟩
  rw [TimerFlags.replay_append, flags]
  exact flags'

theorem Tracks.modify (c : Cx) {f : TcpStream → TcpStream}
    (same : (f c.st).timerFlags = c.st.timerFlags) : c.Tracks (c.modify f) :=
  fun _ => ⟨[], rfl, congrArg some same.symm⟩

theorem Tracks.emit (c : Cx) {e : Effect} (plain : ∀ f, TimerFlags.after e f = some f) :
    c.Tracks (c.emit e) := fun _ => ⟨[e], rfl, plain _⟩

theorem Spares.refl (c : Cx) : c.Spares c := ⟨.refl c, rfl⟩

theorem Spares.trans (first : c.Spares c') (second : c'.Spares c'') : c.Spares c'' :=
  ⟨first.tracks.trans second.tracks, second.spared.trans first.spared⟩

theorem Spares.of_same (out : c'.out = c.out) (flags : c'.st.timerFlags = c.st.timerFlags) :
    c.Spares c' :=
  ⟨fun _ => ⟨[], out, congrArg some flags.symm⟩, congrArg (List.any · Effect.isDestroy) out⟩

theorem Spares.modify (c : Cx) {f : TcpStream → TcpStream}
    (same : (f c.st).timerFlags = c.st.timerFlags) : c.Spares (c.modify f) := .of_same rfl same

theorem Spares.andThen {f : Cx → Cx} (first : c.Spares c') (second : c'.Spares (f c')) :
    c.Spares (c'.andThen f) := by
  unfold Cx.andThen
  split
  · exact first
  · exact first.trans second

/-- A branch of the code that may be left out. -/
theorem Spares.ite {p : Prop} [Decidable p] (taken : c.Spares c') :
    c.Spares (if p then c' else c) := by
  split
  · exact taken
  · exact .refl c

end Rules

/-! ## Walks -/

/-- A function of the timer lists. -/
theorem Tracks.of_keeps {f : Cx → Cx} (keeps : KeepsTimers f) (c : Cx) : c.Tracks (f c) := by
  intro apart
  obtain ⟨es, out, flags, -⟩ := keeps c apart
  exact ⟨es, out, flags⟩

section Walks

variable {env : Env} {may : Permit} {c c' : Cx}

theorem Walk.tracks (walk : Walk env may c c') : c.Tracks c' := by
  induction walk with
  | refl => exact .refl c
  | work _ out clock ih =>
      have flags := congrArg ClockSide.flags clock.eq
      exact ih.trans fun _ => ⟨[], out, congrArg some flags.symm⟩
  | @emits c' _ e plain _ ih =>
      refine ih.trans (.emit c' fun f => ?_)
      cases e <;> first | rfl | cases plain
  | rtoListAdd _ ih => exact ih.trans (.of_keeps .rtoListAdd _)
  | rtoListRemove _ _ ih => exact ih.trans (.of_keeps .rtoListRemove _)
  | timewaitListAdd _ ih => exact ih.trans (.of_keeps .timewaitListAdd _)
  | timewaitListRenew _ ih =>
      exact (ih.trans (.of_keeps .timewaitListRemove _)).trans (.of_keeps .timewaitListAdd _)
  | timeoutListAdd _ _ ih => exact ih.trans (.of_keeps .timeoutListAdd _)
  | timeoutListUpdate _ ih => exact ih.trans (.of_keeps .timeoutListUpdate _)

theorem Walk.spares (walk : Walk env .sparing c c') : c.Spares c' :=
  ⟨walk.tracks, walk.spared rfl⟩

theorem timeoutListAdd_spares (env : Env) (c : Cx) : c.Spares (c.timeoutListAdd env) :=
  ⟨.of_keeps .timeoutListAdd c, congrArg View.destroyed (view_timeoutListAdd env c)⟩

end Walks

end Cx

end QStack
