/-
# QStack.RuntimeMgt -- a stack thread and an application on one core

`qstack_thread_start` makes the coroutine of the stack and resumes it; from then on the stack and
the application of its core give way to each other by `q_coYield_to` alone, and `on_stack` is
written before each switch.  The call stack of the environment stays what it was after the resume,
with the stack on top, whichever of the two runs.

The coroutine of the application is made by the thread that creates the application, so its `env`
is not the one of the core.  When the function of the application returns, `CoRoutineFunc` yields
in that other environment, where nothing was ever resumed: it reads the slot before `pCallStack`.

* `core_switches_iff`: over every sequence of switches and calls of `runtime_schedule`, each of the
  two goes on behind its own latest switch, `on_stack` says which of them runs, and a call that
  comes late ends on the stack, exactly as long as the application does not return.
-/
import QStack.Coroutine

namespace QStack

set_option autoImplicit false

/-- `qstack->thread` -/
def stackCo : Nat := 1

/-- `qapp->thread` -/
def qappCo : Nat := 2

/-- `struct runtime_ctx`, once `qstack` and `qapp` are set. -/
structure RtCtx where
  onStack : Bool
  env : CoEnv

/-- What the code that runs on a core may do. -/
inductive RtCall where
  /-- the stack wakes the application, or the application falls asleep -/
  | giveWay
  /-- `runtime_schedule`, `late` when `cur_ts-last_stack_ts > STACK_PENDING_TIMEOUT` -/
  | runtimeSchedule (late : Bool)
  /-- the function of the application returns, if it runs -/
  | appReturns
deriving DecidableEq, Repr

namespace RtCtx

def yieldToQapp (s : RtCtx) : RtCtx :=
  { onStack := false, env := s.env.step (.yieldTo stackCo qappCo) }

def yieldToStack (s : RtCtx) : RtCtx :=
  { onStack := true, env := s.env.step (.yieldTo qappCo stackCo) }

def runtimeSchedule (s : RtCtx) (late : Bool) : RtCtx :=
  if late then
    -- on the stack only an exception is traced
    if s.onStack then s else s.yieldToStack
  else if s.onStack then s.yieldToQapp
  else s.yieldToStack

def step (s : RtCtx) : RtCall → RtCtx
  | .giveWay =>
      -- the stack calls `wakeup_application`, the application `yield_to_stack`
      if s.env.cpu.owner = stackCo then s.yieldToQapp else s.yieldToStack
  | .runtimeSchedule late => s.runtimeSchedule late
  | .appReturns =>
      if s.env.cpu.owner = qappCo then
        -- `pCallStack[-1]` of the thread that made the application
        { s with env := { s.env with fault := true } }
      else s

/-- `qstack_thread_start` in a thread with a new environment. -/
def qstackThreadStart : RtCtx :=
  { onStack := true, env := CoEnv.coInitEnv.step (.resume stackCo) }

/-- One of the two runs, and `on_stack` says which. -/
structure Switches (s : RtCtx) : Prop where
  faithful : s.env.Faithful
  owner : s.env.cpu.owner = if s.onStack then stackCo else qappCo
  endless : s.env.cEnd stackCo = false ∧ s.env.cEnd qappCo = false

theorem qstackThreadStart_switches : qstackThreadStart.Switches := by
  have orderly : CoEnv.coInitEnv.Orderly (.resume stackCo) :=
    ⟨rfl, by decide, .inr ⟨rfl, fun isMain => absurd isMain (by decide)⟩⟩
  obtain ⟨owner, -, ended⟩ := CoEnv.step_resume CoEnv.coInitEnv_faithful orderly
  refine ⟨(CoEnv.faithful_step_iff CoEnv.coInitEnv_faithful _).mpr orderly, owner, ?_⟩
  rw [qstackThreadStart, ended]
  exact ⟨rfl, rfl⟩

variable {s : RtCtx}

/-- A switch from the one that runs to the other. -/
theorem Switches.yieldTo (switches : s.Switches) {curr pend : Nat}
    (own : s.env.cpu.owner = curr) (notMain : pend ≠ mainCo)
    (lives : s.env.cEnd pend = false) :
    (s.env.step (.yieldTo curr pend)).Faithful ∧
      (s.env.step (.yieldTo curr pend)).cpu.owner = pend ∧
      (s.env.step (.yieldTo curr pend)).cEnd = s.env.cEnd := by
  have orderly : s.env.Orderly (.yieldTo curr pend) :=
    ⟨own.symm, .inr ⟨lives, fun isMain => absurd isMain notMain⟩⟩
  exact ⟨(CoEnv.faithful_step_iff switches.faithful _).mpr orderly,
    CoEnv.step_yieldTo switches.faithful orderly⟩

theorem Switches.yieldToQapp (switches : s.Switches) (onStack : s.onStack = true) :
    s.yieldToQapp.Switches := by
  have own : s.env.cpu.owner = stackCo := by
    rw [switches.owner, if_pos onStack]
  obtain ⟨faithful, owner, ended⟩ := switches.yieldTo own (by decide) switches.endless.2
  refine ⟨faithful, owner, ?_⟩
  rw [RtCtx.yieldToQapp, ended]
  exact switches.endless

theorem Switches.yieldToStack (switches : s.Switches) (onApp : s.onStack = false) :
    s.yieldToStack.Switches := by
  have own : s.env.cpu.owner = qappCo := by
    rw [switches.owner, onApp]
    rfl
  obtain ⟨faithful, owner, ended⟩ := switches.yieldTo own (by decide) switches.endless.1
  refine ⟨faithful, owner, ?_⟩
  rw [RtCtx.yieldToStack, ended]
  exact switches.endless

theorem Switches.runtimeSchedule (switches : s.Switches) (late : Bool) :
    (s.runtimeSchedule late).Switches ∧
      (late = true → (s.runtimeSchedule late).onStack = true) := by
  rw [RtCtx.runtimeSchedule]
  cases onStack : s.onStack with
  | true =>
      cases late with
      | true => exact ⟨switches, fun _ => onStack⟩
      | false => exact ⟨switches.yieldToQapp onStack, fun isLate => by cases isLate⟩
  | false =>
      cases late with
      | true => exact ⟨switches.yieldToStack onStack, fun _ => rfl⟩
      | false => exact ⟨switches.yieldToStack onStack, fun _ => rfl⟩

theorem Switches.giveWay (switches : s.Switches) : (s.step .giveWay).Switches := by
  have owner := switches.owner
  rw [step]
  cases onStack : s.onStack with
  | true =>
      rw [onStack, if_pos rfl] at owner
      rw [if_pos owner]
      exact switches.yieldToQapp onStack
  | false =>
      rw [onStack] at owner
      rw [if_neg (by rw [owner]; decide)]
      exact switches.yieldToStack onStack

/-- What is asked of a step: contexts in order, the two told apart, and no late call left on the
application. -/
def Served (c : RtCall) (s : RtCtx) : Prop :=
  s.Switches ∧ (c = .runtimeSchedule true → s.onStack = true)

theorem served_step_iff (switches : s.Switches) (c : RtCall) :
    Served c (s.step c) ↔ ¬ (c = .appReturns ∧ s.env.cpu.owner = qappCo) := by
  cases c with
  | giveWay =>
      exact iff_of_true ⟨switches.giveWay, fun late => by cases late⟩ fun both => by cases both.1
  | runtimeSchedule late =>
      have next := switches.runtimeSchedule late
      refine iff_of_true ⟨next.1, fun isLate => ?_⟩ fun both => by cases both.1
      cases isLate
      exact next.2 rfl
  | appReturns =>
      rw [step]
      by_cases running : s.env.cpu.owner = qappCo
      · rw [if_pos running]
        refine iff_of_false (fun served => ?_) fun not_ => not_ ⟨rfl, running⟩
        exact CoEnv.fault_not_faithful _ served.1.faithful
      · rw [if_neg running]
        exact iff_of_true ⟨switches, fun late => by cases late⟩ fun both => running both.2

/-- Over every sequence of switches on a core that has been started, the one that runs stands
behind its own latest switch, the other waits behind its own, `on_stack` tells them apart and a
late `runtime_schedule` ends on the stack, exactly as long as the application has not returned. -/
theorem core_switches_iff (calls : List RtCall) :
    Lib.Run.Each step (fun _ c s => Served c s) qstackThreadStart calls ↔
      Lib.Run.Allowed step (fun s c => ¬ (c = .appReturns ∧ s.env.cpu.owner = qappCo))
        qstackThreadStart calls :=
  Lib.Run.each_iff_allowed_within
    (fun _ c switches _ allowed => ((served_step_iff switches c).mpr allowed).1)
    (fun _ c switches _ => served_step_iff switches c) calls qstackThreadStart
    qstackThreadStart_switches (Lib.Run.allowed_always calls qstackThreadStart)

end RtCtx

end QStack
