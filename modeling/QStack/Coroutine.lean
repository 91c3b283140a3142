/-
# QStack.Coroutine -- the coroutines of routine.c

A thread has an environment with the stack of the coroutines that resumed one another.
`q_coResume` pushes a coroutine, `q_coYield` pops one, and each swaps contexts between the two at
the top; `q_coYield_to` swaps between two coroutines its caller names and leaves the stack alone.
A swap saves the registers under the coroutine it is told, whichever is running.

The registers are modelled by the place in the code they belong to: whose code it is and how many
calls that code has made (`CoPoint`).  `calls` keeps the true number for each coroutine, so the
code that runs stands where it should when the two agree.

* `Faithful`: the running code stands at its latest call, and the context of every other
  coroutine that lives is its own, saved at its latest call;
* `Orderly`: the call is made by the coroutine whose context it saves, and goes to one that has not
  returned; the coroutine of the thread itself is only reached by a yield, since `cStart` is never
  set for it and a resume would make it anew;
* `coroutines_faithful_iff`: over every sequence of calls the first holds after each call exactly
  when the second holds of each;
* `resume_yield_lifo`: without `q_coYield_to` the coroutine on top of the stack is the one that
  runs, so a yield continues the one below it at its latest call, and only the depth and coroutines
  that have returned are left to watch.
-/
import QStack.Lib.Run
import Mathlib.Logic.Function.Basic

namespace QStack

set_option autoImplicit false

/-- A place in the code of a coroutine, after so many of its calls. -/
structure CoPoint where
  owner : Nat
  point : Nat
deriving DecidableEq, Repr

/-- the coroutine of the thread itself, whose `cIsMain` is set -/
def mainCo : Nat := 0

/-- The length of `pCallStack`. -/
def callStackSize : Nat := 128

structure CoEnv where
  /-- the coroutine pushed last comes first -/
  pCallStack : List Nat := [mainCo]
  ctx : Nat → Option CoPoint := fun _ => none
  cStart : Nat → Bool := fun _ => false
  cEnd : Nat → Bool := fun _ => false
  /-- what the registers hold -/
  cpu : CoPoint := ⟨mainCo, 0⟩
  /-- history: the calls the code of a coroutine has made -/
  calls : Nat → Nat := fun _ => 0
  /-- a slot beside `pCallStack`, or a context never made, was used -/
  fault : Bool := false

inductive CoCall where
  /-- `q_coResume` -/
  | resume (co : Nat)
  /-- `q_coYield` and `q_coYield_ct`, which use one environment in one thread -/
  | yield
  /-- the function of the coroutine returns to `CoRoutineFunc` -/
  | finish
  /-- `q_coYield_to` -/
  | yieldTo (currCo pendCo : Nat)
deriving DecidableEq, Repr

namespace CoEnv

/-- `q_coInit_env` -/
def coInitEnv : CoEnv := {}

/-- The running code makes a call, behind which it will go on. -/
def enter (s : CoEnv) : CoEnv :=
  { s with
    cpu := ⟨s.cpu.owner, s.cpu.point + 1⟩
    calls := Function.update s.calls s.cpu.owner (s.calls s.cpu.owner + 1) }

/-- `coctx_make` for a coroutine that has not been started. -/
def make (s : CoEnv) (co : Nat) : CoEnv :=
  if s.cStart co then s
  else
    { s with
      ctx := Function.update s.ctx co (some ⟨co, 0⟩)
      cStart := Function.update s.cStart co true }

/-- `co_swap`, with stacks that are not shared. -/
def coSwap (s : CoEnv) (curr pendingCo : Nat) : CoEnv :=
  let s := { s with ctx := Function.update s.ctx curr (some s.cpu) }
  match s.ctx pendingCo with
  | some k => { s with cpu := k }
  | none => { s with fault := true }

/-- `q_coYield_env` -/
def coYieldEnv (s : CoEnv) : CoEnv :=
  match s.pCallStack with
  | curr :: last :: rest => { s with pCallStack := last :: rest }.coSwap curr last
  | _ => { s with fault := true }

/-- What the call of the running code does; after a fault nothing is known. -/
def step (s : CoEnv) (c : CoCall) : CoEnv :=
  if s.fault then s
  else
    match c with
    | .resume co =>
        match s.pCallStack with
        | curr :: rest =>
            if s.pCallStack.length < callStackSize then
              { s.enter.make co with pCallStack := co :: curr :: rest }.coSwap curr co
            else { s.enter with fault := true }
        | [] => { s.enter with fault := true }
    | .yield => s.enter.coYieldEnv
    | .finish =>
        -- the thread's own code is not run by `CoRoutineFunc`
        if s.cpu.owner = mainCo then s
        else
          coYieldEnv { s.enter with cEnd := Function.update s.cEnd s.cpu.owner true }
    | .yieldTo currCo pendCo => (s.enter.make pendCo).coSwap currCo pendCo

/-! ## Contexts in order -/

/-- Started, or running from the beginning. -/
def Alive (s : CoEnv) (co : Nat) : Prop := co = mainCo ∨ s.cStart co = true

/-- What holds between two calls. -/
structure Faithful (s : CoEnv) : Prop where
  intact : s.fault = false
  here : s.cpu.point = s.calls s.cpu.owner
  alive : s.Alive s.cpu.owner
  running : s.cEnd s.cpu.owner = false
  saved : ∀ co, s.Alive co → s.cEnd co = false → co ≠ s.cpu.owner →
    s.ctx co = some ⟨co, s.calls co⟩
  stale : ∀ co k, s.Alive co → s.ctx co = some k → k.owner = co ∧ k.point ≤ s.calls co
  left_ : s.cpu.owner ≠ mainCo → 1 ≤ s.calls mainCo
  fresh : ∀ co, ¬ s.Alive co → s.calls co = 0 ∧ s.cEnd co = false
  entries : ∀ co ∈ s.pCallStack, s.Alive co
  top : ∃ curr rest, s.pCallStack = curr :: rest ∧ s.cEnd curr = false

/-- The coroutine has not returned, and is not the thread's own unless it is running or started. -/
def Ready (s : CoEnv) (co : Nat) : Prop :=
  co = s.cpu.owner ∨ s.cEnd co = false ∧ (co = mainCo → s.cStart co = true)

def Orderly (s : CoEnv) : CoCall → Prop
  | .resume co =>
      s.pCallStack.head? = some s.cpu.owner ∧ s.pCallStack.length < callStackSize ∧ s.Ready co
  | .yield => ∃ last rest, s.pCallStack = s.cpu.owner :: last :: rest ∧ s.cEnd last = false
  | .finish =>
      s.cpu.owner = mainCo ∨
        ∃ last rest, s.pCallStack = s.cpu.owner :: last :: rest ∧ s.cEnd last = false ∧
          last ≠ s.cpu.owner
  | .yieldTo currCo pendCo => currCo = s.cpu.owner ∧ s.Ready pendCo

theorem coInitEnv_faithful : coInitEnv.Faithful where
  intact := rfl
  here := rfl
  alive := .inl rfl
  running := rfl
  saved co alive _ other := by
    rcases alive with same | started
    · exact absurd same other
    · cases started
  stale co k _ stored := by cases stored
  left_ other := absurd rfl other
  fresh co _ := ⟨rfl, rfl⟩
  entries co member := .inl (List.mem_singleton.mp member)
  top := ⟨mainCo, [], rfl, rfl⟩

/-! ## In the middle of a call

`Parked r` is what holds when the code of `r` has made its call and nothing is swapped yet: the
context under `r` is older than the registers. -/

structure Parked (s : CoEnv) (r : Nat) : Prop where
  intact : s.fault = false
  here : s.cpu = ⟨r, s.calls r⟩
  alive : s.Alive r
  saved : ∀ co, s.Alive co → s.cEnd co = false → co ≠ r → s.ctx co = some ⟨co, s.calls co⟩
  stale : ∀ co k, s.Alive co → s.ctx co = some k → k.owner = co ∧ k.point ≤ s.calls co
  behind : ∀ k, s.ctx r = some k → k.point < s.calls r
  left_ : 1 ≤ s.calls mainCo
  fresh : ∀ co, ¬ s.Alive co → s.calls co = 0 ∧ s.cEnd co = false
  entries : ∀ co ∈ s.pCallStack, s.Alive co

variable {s : CoEnv} {r : Nat}

theorem Faithful.enter (faithful : s.Faithful) : s.enter.Parked s.cpu.owner where
  intact := faithful.intact
  here := by simp [CoEnv.enter, faithful.here]
  alive := faithful.alive
  saved co alive lives other := by
    simp only [CoEnv.enter, Function.update_of_ne other]
    exact faithful.saved co alive lives other
  stale co k alive stored := by
    have older := faithful.stale co k alive stored
    by_cases same : co = s.cpu.owner
    · subst same
      simp only [CoEnv.enter, Function.update_self]
      exact ⟨older.1, Nat.le_succ_of_le older.2⟩
    · simpa only [CoEnv.enter, Function.update_of_ne same] using older
  behind k stored := by
    simp only [CoEnv.enter, Function.update_self]
    exact Nat.lt_succ_of_le (faithful.stale _ k faithful.alive stored).2
  left_ := by
    by_cases same : mainCo = s.cpu.owner
    · simp [CoEnv.enter, same]
    · simp only [CoEnv.enter, Function.update_of_ne same]
      exact faithful.left_ (Ne.symm same)
  fresh co dead := by
    have other : co ≠ s.cpu.owner := by
      rintro rfl
      exact dead faithful.alive
    simp only [CoEnv.enter, Function.update_of_ne other]
    exact faithful.fresh co dead
  entries := faithful.entries

theorem make_alive (s : CoEnv) (co : Nat) : (s.make co).Alive co := by
  rw [make]
  split
  · next started => exact .inr started
  · exact .inr (Function.update_self _ _ _)

theorem alive_make {co other : Nat} (alive : s.Alive other) : (s.make co).Alive other := by
  rw [make]
  split
  · exact alive
  · by_cases same : other = co
    · exact .inr (by rw [same]; exact Function.update_self _ _ _)
    · exact alive.imp id fun started => (Function.update_of_ne same _ _).trans started

theorem of_alive_make {co other : Nat} (ne : other ≠ co) (alive : (s.make co).Alive other) :
    s.Alive other := by
  rw [make] at alive
  split at alive
  · exact alive
  · exact alive.imp id fun started => (Function.update_of_ne ne _ _).symm.trans started

@[simp]
theorem make_cpu (s : CoEnv) (co : Nat) : (s.make co).cpu = s.cpu := by
  rw [make]
  split <;> rfl

@[simp]
theorem make_calls (s : CoEnv) (co : Nat) : (s.make co).calls = s.calls := by
  rw [make]
  split <;> rfl

@[simp]
theorem make_cEnd (s : CoEnv) (co : Nat) : (s.make co).cEnd = s.cEnd := by
  rw [make]
  split <;> rfl

@[simp]
theorem make_pCallStack (s : CoEnv) (co : Nat) : (s.make co).pCallStack = s.pCallStack := by
  rw [make]
  split <;> rfl

@[simp]
theorem make_fault (s : CoEnv) (co : Nat) : (s.make co).fault = s.fault := by
  rw [make]
  split <;> rfl

theorem make_ctx_of_ne {co other : Nat} (ne : other ≠ co) (s : CoEnv) :
    (s.make co).ctx other = s.ctx other := by
  rw [make]
  split
  · rfl
  · exact Function.update_of_ne ne _ _

/-- The context of a coroutine just made is its beginning; one that has been started keeps its
own. -/
theorem make_ctx (s : CoEnv) (co : Nat) :
    (s.make co).ctx co = if s.cStart co then s.ctx co else some ⟨co, 0⟩ := by
  rw [make]
  split
  · rfl
  · exact Function.update_self _ _ _

/-- Making a coroutine that may be run keeps the contexts in order. -/
theorem Parked.make (parked : s.Parked r) {co : Nat}
    (may : co = mainCo → s.cStart co = true ∨ co = r) : (s.make co).Parked r := by
  have stale : ∀ other k, (s.make co).Alive other → (s.make co).ctx other = some k →
      k.owner = other ∧ k.point ≤ s.calls other := by
    intro other k alive stored
    by_cases same : other = co
    · subst same
      rw [make_ctx] at stored
      split at stored
      · next started => exact parked.stale other k (.inr started) stored
      · cases stored
        exact ⟨rfl, Nat.zero_le _⟩
    · rw [make_ctx_of_ne same] at stored
      exact parked.stale other k (of_alive_make same alive) stored
  constructor
  · rw [make_fault, parked.intact]
  · rw [make_cpu, make_calls, parked.here]
  · exact alive_make parked.alive
  · intro other alive lives ne
    rw [make_cEnd] at lives
    rw [make_calls]
    by_cases same : other = co
    · subst same
      rw [make_ctx]
      split
      · next started => exact parked.saved other (.inr started) lives ne
      · next unstarted =>
          have notMain : other ≠ mainCo := by
            intro isMain
            rcases may isMain with started | running
            · exact unstarted started
            · exact ne running
          have dead : ¬ s.Alive other := fun alive => alive.elim notMain unstarted
          rw [(parked.fresh other dead).1]
    · rw [make_ctx_of_ne same]
      exact parked.saved other (of_alive_make same alive) lives ne
  · rw [make_calls]
    exact stale
  · intro k stored
    rw [make_calls]
    by_cases same : r = co
    · subst same
      rw [make_ctx] at stored
      split at stored
      · exact parked.behind k stored
      · next unstarted =>
          cases stored
          -- only the thread's own coroutine runs without having been started
          have isMain : r = mainCo := parked.alive.resolve_right unstarted
          rw [isMain]
          exact parked.left_
    · rw [make_ctx_of_ne same] at stored
      exact parked.behind k stored
  · rw [make_calls]
    exact parked.left_
  · intro other dead
    have before : ¬ s.Alive other := fun alive => dead (alive_make alive)
    rw [make_calls, make_cEnd]
    exact parked.fresh other before
  · intro other member
    rw [make_pCallStack] at member
    exact alive_make (parked.entries other member)

/-- The stack may be changed for one of coroutines that live. -/
theorem Parked.restack (parked : s.Parked r) {stack_ : List Nat}
    (entries : ∀ co ∈ stack_, s.Alive co) : Parked { s with pCallStack := stack_ } r :=
  ⟨parked.intact, parked.here, parked.alive, parked.saved, parked.stale, parked.behind,
    parked.left_, parked.fresh, entries⟩

/-- The running coroutine may be marked as ended. -/
theorem Parked.ended (parked : s.Parked r) :
    Parked { s with cEnd := Function.update s.cEnd r true } r where
  intact := parked.intact
  here := parked.here
  alive := parked.alive
  saved co alive lives other :=
    parked.saved co alive ((Function.update_of_ne other _ _).symm.trans lives) other
  stale := parked.stale
  behind := parked.behind
  left_ := parked.left_
  fresh co dead := by
    have other : co ≠ r := by
      rintro rfl
      exact dead parked.alive
    have before := parked.fresh co dead
    exact ⟨before.1, (Function.update_of_ne other _ _).trans before.2⟩
  entries := parked.entries

/-! ## The swap -/

/-- Saved under the coroutine that runs, the registers are in order whatever is run next of what
lives. -/
theorem Parked.coSwap (parked : s.Parked r) {t : Nat} (alive : s.Alive t)
    (lives : s.cEnd t = false)
    (top : ∃ curr rest, s.pCallStack = curr :: rest ∧ s.cEnd curr = false) :
    (s.coSwap r t).Faithful ∧ (s.coSwap r t).cpu = ⟨t, s.calls t⟩ ∧
      (s.coSwap r t).pCallStack = s.pCallStack := by
  have loaded : Function.update s.ctx r (some s.cpu) t = some ⟨t, s.calls t⟩ := by
    by_cases same : t = r
    · subst same
      rw [Function.update_self, parked.here]
    · rw [Function.update_of_ne same]
      exact parked.saved t alive lives same
  rw [CoEnv.coSwap]
  simp only [loaded]
  refine ⟨⟨parked.intact, rfl, alive, lives, ?_, ?_, fun _ => parked.left_, parked.fresh,
    parked.entries, top⟩, trivial, trivial⟩
  · intro co coAlive coLives _
    by_cases same : co = r
    · subst same
      simp only [Function.update_self, parked.here]
    · simp only [Function.update_of_ne same]
      exact parked.saved co coAlive coLives same
  · intro co k coAlive stored
    by_cases same : co = r
    · subst same
      simp only [Function.update_self, parked.here] at stored
      cases stored
      exact ⟨rfl, Nat.le_refl _⟩
    · simp only [Function.update_of_ne same] at stored
      exact parked.stale co k coAlive stored

/-- Saved under another coroutine that lives, they displace its context. -/
theorem Parked.misplaced (parked : s.Parked r) {curr t : Nat} (alive : s.Alive curr)
    (other : curr ≠ r) : ¬ (s.coSwap curr t).Faithful := by
  intro faithful
  have stored : (s.coSwap curr t).ctx curr = some ⟨r, s.calls r⟩ := by
    rw [CoEnv.coSwap, parked.here]
    dsimp only
    split <;> exact Function.update_self _ _ _
  have alive' : (s.coSwap curr t).Alive curr := by
    rw [CoEnv.coSwap]
    dsimp only
    split <;> exact alive
  exact other (faithful.stale curr _ alive' stored).1.symm

/-- Saved under one that does not, they are lost to the coroutine that ran. -/
theorem Parked.lost (parked : s.Parked r) {curr t : Nat} (lives : s.cEnd r = false)
    (other : curr ≠ r) (ne : t ≠ curr) (alive : s.Alive t) : ¬ (s.coSwap curr t).Faithful := by
  intro faithful
  rw [CoEnv.coSwap] at faithful
  simp only [Function.update_of_ne ne] at faithful
  cases stored : s.ctx t with
  | none =>
      rw [stored] at faithful
      have intact := faithful.intact
      cases intact
  | some k =>
      rw [stored] at faithful
      dsimp only at faithful
      have own := parked.stale t k alive stored
      by_cases same : t = r
      · subst same
        have older := parked.behind k stored
        have here : k.point = s.calls k.owner := faithful.here
        rw [own.1] at here
        omega
      · have saved := faithful.saved r parked.alive lives (by
          rw [own.1]
          exact Ne.symm same)
        dsimp only at saved
        rw [Function.update_of_ne (Ne.symm other)] at saved
        exact absurd (parked.behind _ saved) (Nat.lt_irrefl _)

/-- A coroutine that has returned has no code to run. -/
theorem Parked.dead (parked : s.Parked r) {t : Nat} (alive : s.Alive t)
    (ended : s.cEnd t = true) : ¬ (s.coSwap r t).Faithful := by
  intro faithful
  have own : ∀ k, Function.update s.ctx r (some s.cpu) t = some k → k.owner = t := by
    intro k stored
    by_cases same : t = r
    · subst same
      rw [Function.update_self, parked.here] at stored
      cases stored
      rfl
    · rw [Function.update_of_ne same] at stored
      exact (parked.stale t k alive stored).1
  rw [CoEnv.coSwap] at faithful
  dsimp only at faithful
  cases stored : Function.update s.ctx r (some s.cpu) t with
  | none =>
      rw [stored] at faithful
      have intact := faithful.intact
      cases intact
  | some k =>
      rw [stored] at faithful
      have running : s.cEnd k.owner = false := faithful.running
      rw [own k stored, ended] at running
      cases running

/-- The thread's own coroutine is not where it was after it has been made anew. -/
theorem Parked.remade (parked : s.Parked r) (unstarted : s.cStart mainCo = false)
    (other : mainCo ≠ r) (stack_ : List Nat) (curr : Nat) :
    ¬ (CoEnv.coSwap { s.make mainCo with pCallStack := stack_ } curr mainCo).Faithful := by
  intro faithful
  have made : (s.make mainCo).ctx mainCo = some ⟨mainCo, 0⟩ := by
    rw [make_ctx, unstarted, if_neg Bool.false_ne_true]
  rw [CoEnv.coSwap] at faithful
  dsimp only at faithful
  by_cases same : mainCo = curr
  · subst same
    rw [Function.update_self, make_cpu, parked.here] at faithful
    dsimp only at faithful
    have own := faithful.stale mainCo ⟨r, s.calls r⟩ (.inl rfl)
    dsimp only at own
    exact other (own (Function.update_self _ _ _)).1.symm
  · rw [Function.update_of_ne same, made] at faithful
    have here : 0 = (s.make mainCo).calls mainCo := faithful.here
    have left_ := parked.left_
    rw [make_calls] at here
    omega

/-- A swap keeps the contexts in order exactly when it saves under the coroutine that runs and goes
on with one that has not returned. -/
theorem Parked.coSwap_iff (parked : s.Parked r) {curr t : Nat} (alive : s.Alive t)
    (known : s.Alive curr ∨ s.cEnd r = false ∧ t ≠ curr)
    (top : s.cEnd t = false → ∃ curr rest, s.pCallStack = curr :: rest ∧ s.cEnd curr = false) :
    (s.coSwap curr t).Faithful ↔ curr = r ∧ s.cEnd t = false := by
  constructor
  · intro faithful
    have own : curr = r := by
      by_contra other
      rcases known with currAlive | ⟨lives, ne⟩
      · exact parked.misplaced currAlive other faithful
      · exact parked.lost lives other ne alive faithful
    subst own
    refine ⟨rfl, ?_⟩
    cases ended : s.cEnd t with
    | false => rfl
    | true => exact absurd faithful (parked.dead alive ended)
  · rintro ⟨rfl, lives⟩
    exact (parked.coSwap alive lives (top lives)).1

theorem fault_not_faithful (s : CoEnv) : ¬ Faithful { s with fault := true } := by
  intro faithful
  have intact := faithful.intact
  cases intact

/-! ## The calls -/

theorem faithful_resume_iff (faithful : s.Faithful) (co : Nat) :
    (s.step (.resume co)).Faithful ↔ s.Orderly (.resume co) := by
  obtain ⟨curr, rest, stack_, lives⟩ := faithful.top
  simp only [step, faithful.intact, Bool.false_eq_true, if_false, Orderly, stack_]
  have parked := faithful.enter
  split
  · next room =>
      simp only [List.head?_cons, Option.some.injEq, room, true_and]
      by_cases may : co = mainCo → s.cStart co = true ∨ co = s.cpu.owner
      · have made := parked.make may
        have entries : ∀ c ∈ co :: curr :: rest, (s.enter.make co).Alive c := by
          intro c member
          rcases List.mem_cons.mp member with rfl | below
          · exact make_alive _ _
          · exact alive_make (faithful.entries c (stack_ ▸ below))
        have currAlive : (s.enter.make co).Alive curr :=
          entries curr (List.mem_cons_of_mem co List.mem_cons_self)
        have swapped := (made.restack entries).coSwap_iff (make_alive _ co) (.inl currAlive)
          fun endless => ⟨co, curr :: rest, rfl, endless⟩
        rw [swapped, make_cEnd]
        refine and_congr_right fun own => ?_
        constructor
        · intro endless
          by_cases same : co = s.cpu.owner
          · exact .inl same
          · exact .inr ⟨endless, fun isMain => (may isMain).resolve_right same⟩
        · rintro (rfl | ready)
          · exact faithful.running
          · exact ready.1
      · -- the thread's own coroutine, not running and never started
        obtain ⟨rfl, neither⟩ := Classical.not_imp.mp may
        obtain ⟨unstarted, other⟩ := not_or.mp neither
        have remade := parked.remade (Bool.not_eq_true _ ▸ unstarted) other
          (mainCo :: curr :: rest) curr
        refine iff_of_false remade ?_
        rintro ⟨-, same | ready⟩
        · exact other same
        · exact unstarted (ready.2 rfl)
  · next full =>
      exact iff_of_false (fault_not_faithful _) fun orderly => full orderly.2.1

theorem faithful_yieldTo_iff (faithful : s.Faithful) (currCo pendCo : Nat) :
    (s.step (.yieldTo currCo pendCo)).Faithful ↔ s.Orderly (.yieldTo currCo pendCo) := by
  obtain ⟨curr, rest, stack_, lives⟩ := faithful.top
  simp only [step, faithful.intact, Bool.false_eq_true, if_false, Orderly]
  have parked := faithful.enter
  by_cases may : pendCo = mainCo → s.cStart pendCo = true ∨ pendCo = s.cpu.owner
  · have made := parked.make may
    have known : (s.enter.make pendCo).Alive currCo ∨
        (s.enter.make pendCo).cEnd s.cpu.owner = false ∧ pendCo ≠ currCo := by
      by_cases same : pendCo = currCo
      · exact .inl (same ▸ make_alive _ _)
      · refine .inr ⟨?_, same⟩
        rw [make_cEnd]
        exact faithful.running
    have top : (s.enter.make pendCo).cEnd pendCo = false → ∃ curr rest,
        (s.enter.make pendCo).pCallStack = curr :: rest ∧
          (s.enter.make pendCo).cEnd curr = false := by
      intro _
      rw [make_pCallStack, make_cEnd]
      exact ⟨curr, rest, stack_, lives⟩
    rw [made.coSwap_iff (make_alive _ _) known top, make_cEnd]
    refine and_congr_right fun own => ?_
    constructor
    · intro endless
      by_cases same : pendCo = s.cpu.owner
      · exact .inl same
      · exact .inr ⟨endless, fun isMain => (may isMain).resolve_right same⟩
    · rintro (rfl | ready)
      · exact faithful.running
      · exact ready.1
  · obtain ⟨rfl, neither⟩ := Classical.not_imp.mp may
    obtain ⟨unstarted, other⟩ := not_or.mp neither
    have remade := parked.remade (Bool.not_eq_true _ ▸ unstarted) other
      (s.enter.make mainCo).pCallStack currCo
    refine iff_of_false remade ?_
    rintro ⟨-, same | ready⟩
    · exact other same
    · exact unstarted (ready.2 rfl)

/-- The common end of a yield and of a return. -/
theorem faithful_coYieldEnv_iff {u : CoEnv} (parked : u.Parked r) :
    u.coYieldEnv.Faithful ↔
      ∃ last rest, u.pCallStack = r :: last :: rest ∧ u.cEnd last = false := by
  rw [coYieldEnv]
  split
  · next curr last rest stack_ =>
      have entries : ∀ c ∈ last :: rest, u.Alive c := by
        intro c member
        refine parked.entries c ?_
        rw [stack_]
        exact List.mem_cons_of_mem curr member
      have currAlive : u.Alive curr := by
        refine parked.entries curr ?_
        rw [stack_]
        exact List.mem_cons_self
      rw [(parked.restack entries).coSwap_iff (entries last List.mem_cons_self) (.inl currAlive)
        fun endless => ⟨last, rest, rfl, endless⟩]
      constructor
      · rintro ⟨rfl, endless⟩
        exact ⟨last, rest, stack_, endless⟩
      · rintro ⟨last', rest', same, endless⟩
        rw [stack_] at same
        cases same
        exact ⟨rfl, endless⟩
  · next short =>
      refine iff_of_false (fault_not_faithful _) ?_
      rintro ⟨last, rest, stack_, -⟩
      exact short r last rest stack_

theorem faithful_yield_iff (faithful : s.Faithful) :
    (s.step .yield).Faithful ↔ s.Orderly .yield := by
  simp only [step, faithful.intact, Bool.false_eq_true, if_false, Orderly]
  exact faithful_coYieldEnv_iff faithful.enter

theorem faithful_finish_iff (faithful : s.Faithful) :
    (s.step .finish).Faithful ↔ s.Orderly .finish := by
  simp only [step, faithful.intact, Bool.false_eq_true, if_false, Orderly]
  split
  · next isMain => exact iff_of_true faithful (.inl isMain)
  · next notMain =>
      have parked := faithful.enter.ended
      rw [or_iff_right notMain]
      refine (faithful_coYieldEnv_iff parked).trans ?_
      constructor
      · rintro ⟨last, rest, stack_, endless⟩
        have other : last ≠ s.cpu.owner := by
          rintro rfl
          simp [CoEnv.enter] at endless
        refine ⟨last, rest, stack_, ?_, other⟩
        simpa [CoEnv.enter, Function.update_of_ne other] using endless
      · rintro ⟨last, rest, stack_, endless, other⟩
        refine ⟨last, rest, stack_, ?_⟩
        simpa [CoEnv.enter, Function.update_of_ne other] using endless

theorem faithful_step_iff (faithful : s.Faithful) (c : CoCall) :
    (s.step c).Faithful ↔ s.Orderly c := by
  cases c with
  | resume co => exact faithful_resume_iff faithful co
  | yield => exact faithful_yield_iff faithful
  | finish => exact faithful_finish_iff faithful
  | yieldTo currCo pendCo => exact faithful_yieldTo_iff faithful currCo pendCo

/-! ## What runs next -/

@[simp]
theorem coSwap_cEnd (s : CoEnv) (curr t : Nat) : (s.coSwap curr t).cEnd = s.cEnd := by
  rw [coSwap]
  dsimp only
  split <;> rfl

@[simp]
theorem coSwap_cStart (s : CoEnv) (curr t : Nat) : (s.coSwap curr t).cStart = s.cStart := by
  rw [coSwap]
  dsimp only
  split <;> rfl

@[simp]
theorem coSwap_pCallStack (s : CoEnv) (curr t : Nat) :
    (s.coSwap curr t).pCallStack = s.pCallStack := by
  rw [coSwap]
  dsimp only
  split <;> rfl

/-- A swap that leaves the contexts in order runs the code of its target. -/
theorem coSwap_owner {u : CoEnv} {curr t : Nat} (own : curr = r) (parked : u.Parked r)
    (alive : u.Alive t) (faithful : (u.coSwap curr t).Faithful) :
    (u.coSwap curr t).cpu.owner = t := by
  subst own
  rw [coSwap] at faithful ⊢
  dsimp only at faithful ⊢
  cases stored : Function.update u.ctx curr (some u.cpu) t with
  | none =>
      rw [stored] at faithful
      exact absurd faithful.intact (by simp)
  | some k =>
      by_cases same : t = curr
      · subst same
        rw [Function.update_self, parked.here] at stored
        cases stored
        rfl
      · rw [Function.update_of_ne same] at stored
        exact (parked.stale t k alive stored).1

theorem step_yieldTo (faithful : s.Faithful) {currCo pendCo : Nat}
    (orderly : s.Orderly (.yieldTo currCo pendCo)) :
    (s.step (.yieldTo currCo pendCo)).cpu.owner = pendCo ∧
      (s.step (.yieldTo currCo pendCo)).cEnd = s.cEnd := by
  have next := (faithful_step_iff faithful _).mpr orderly
  have may : pendCo = mainCo → s.cStart pendCo = true ∨ pendCo = s.cpu.owner := fun isMain =>
    orderly.2.symm.imp_left fun ready => ready.2 isMain
  simp only [step, faithful.intact, Bool.false_eq_true, if_false] at next ⊢
  refine ⟨coSwap_owner orderly.1 (faithful.enter.make may) (make_alive _ _) next, ?_⟩
  rw [coSwap_cEnd, make_cEnd]
  rfl

theorem step_resume (faithful : s.Faithful) {co : Nat} (orderly : s.Orderly (.resume co)) :
    (s.step (.resume co)).cpu.owner = co ∧
      (s.step (.resume co)).pCallStack = co :: s.pCallStack ∧
      (s.step (.resume co)).cEnd = s.cEnd := by
  have next := (faithful_step_iff faithful _).mpr orderly
  obtain ⟨curr, rest, stack_, -⟩ := faithful.top
  have may : co = mainCo → s.cStart co = true ∨ co = s.cpu.owner := fun isMain =>
    orderly.2.2.symm.imp_left fun ready => ready.2 isMain
  have own : curr = s.cpu.owner := by
    have head := orderly.1
    rw [stack_] at head
    exact Option.some.inj head
  have room : (curr :: rest).length < callStackSize := stack_ ▸ orderly.2.1
  have entries : ∀ c ∈ co :: curr :: rest, (s.enter.make co).Alive c := by
    intro c member
    rcases List.mem_cons.mp member with rfl | below
    · exact make_alive _ _
    · exact alive_make (faithful.entries c (stack_ ▸ below))
  simp only [step, faithful.intact, Bool.false_eq_true, if_false, stack_, room, if_true]
    at next ⊢
  refine ⟨coSwap_owner own ((faithful.enter.make may).restack entries) (make_alive _ _) next,
    coSwap_pCallStack _ _ _, ?_⟩
  rw [coSwap_cEnd]
  exact make_cEnd _ _

/-- The common end of a yield and of a return, in order. -/
theorem coYieldEnv_runs {u : CoEnv} (parked : u.Parked r) {last : Nat} {rest : List Nat}
    (stack_ : u.pCallStack = r :: last :: rest) (lives : u.cEnd last = false) :
    u.coYieldEnv.cpu.owner = last ∧ u.coYieldEnv.pCallStack = last :: rest ∧
      u.coYieldEnv.cEnd = u.cEnd := by
  have next := (faithful_coYieldEnv_iff parked).mpr ⟨last, rest, stack_, lives⟩
  have entries : ∀ c ∈ last :: rest, u.Alive c := by
    intro c member
    refine parked.entries c ?_
    rw [stack_]
    exact List.mem_cons_of_mem r member
  simp only [coYieldEnv, stack_] at next ⊢
  exact ⟨coSwap_owner rfl (parked.restack entries) (entries last List.mem_cons_self) next,
    coSwap_pCallStack _ _ _, coSwap_cEnd _ _ _⟩

/-- Over every sequence of calls from a new environment, every coroutine that lives keeps its own
context, saved at its latest call, exactly as long as every call saves under the coroutine that
runs and goes to one that may be run. -/
theorem coroutines_faithful_iff (calls : List CoCall) :
    Lib.Run.Each step (fun _ _ s => s.Faithful) coInitEnv calls ↔
      Lib.Run.Allowed step Orderly coInitEnv calls :=
  Lib.Run.each_iff_allowed_within (fun _ c faithful _ => (faithful_step_iff faithful c).mpr)
    (fun _ c faithful _ => faithful_step_iff faithful c) calls coInitEnv coInitEnv_faithful
    (Lib.Run.allowed_always calls coInitEnv)

/-! ## Resuming and yielding -/

/-- The calls that keep to the stack of the environment. -/
inductive NestCall where
  | resume (co : Nat)
  | yield
  | finish
deriving DecidableEq, Repr

def NestCall.toCall : NestCall → CoCall
  | .resume co => .resume co
  | .yield => .yield
  | .finish => .finish

/-- Coroutines nested like procedures: who resumed whom, and who has returned. -/
structure Nest where
  stack_ : List Nat := [mainCo]
  ended : List Nat := []

def Nest.step (n : Nest) : NestCall → Nest
  | .resume co => { n with stack_ := co :: n.stack_ }
  | .yield => { n with stack_ := n.stack_.tail }
  | .finish => { stack_ := n.stack_.tail, ended := n.stack_.head?.toList ++ n.ended }

/-- There is room, someone to go back to, and no coroutine goes on after it returned. -/
def Nest.Fits (n : Nest) : NestCall → Prop
  | .resume co => n.stack_.length < callStackSize ∧ co ∉ n.ended ∧ co ≠ mainCo
  | .yield => ∃ curr last rest, n.stack_ = curr :: last :: rest ∧ last ∉ n.ended
  | .finish => ∃ curr last rest, n.stack_ = curr :: last :: rest ∧ last ∉ n.ended ∧
      last ≠ curr ∧ curr ≠ mainCo

/-- The environment is in order and nested like `n`, with the top running. -/
structure Follows (s : CoEnv) (n : Nest) : Prop where
  faithful : s.Faithful
  same : s.pCallStack = n.stack_
  top : n.stack_.head? = some s.cpu.owner
  ended : ∀ co, s.cEnd co = true ↔ co ∈ n.ended

theorem Follows.lives {n : Nest} (follows : s.Follows n) {co : Nat} :
    s.cEnd co = false ↔ co ∉ n.ended := by
  rw [← follows.ended, Bool.not_eq_true]

theorem Follows.step {n : Nest} (follows : s.Follows n) {c : NestCall} (fits : n.Fits c) :
    (s.step c.toCall).Follows (n.step c) := by
  have faithful := follows.faithful
  cases c with
  | resume co =>
      obtain ⟨room, endless, notMain⟩ := fits
      have orderly : s.Orderly (.resume co) := by
        refine ⟨?_, ?_, .inr ⟨follows.lives.mpr endless, fun isMain => absurd isMain notMain⟩⟩
        · rw [follows.same, follows.top]
        · rw [follows.same]
          exact room
      obtain ⟨owner, stack_, ended⟩ := step_resume faithful orderly
      refine ⟨(faithful_step_iff faithful _).mpr orderly, ?_, ?_, ?_⟩
      · rw [NestCall.toCall, stack_, follows.same]
        rfl
      · rw [NestCall.toCall, owner]
        rfl
      · rw [NestCall.toCall, ended]
        exact follows.ended
  | yield =>
      obtain ⟨curr, last, rest, stack_, endless⟩ := fits
      have own : curr = s.cpu.owner := by
        have top := follows.top
        rw [stack_] at top
        exact Option.some.inj top
      subst own
      have here : s.enter.pCallStack = s.cpu.owner :: last :: rest := follows.same.trans stack_
      have lives : s.enter.cEnd last = false := follows.lives.mpr endless
      have orderly : s.Orderly .yield := ⟨last, rest, follows.same.trans stack_, lives⟩
      obtain ⟨owner, popped, ended⟩ := coYieldEnv_runs faithful.enter here lives
      have next := (faithful_step_iff faithful _).mpr orderly
      simp only [NestCall.toCall]
      have unfolded : s.step .yield = s.enter.coYieldEnv := by
        simp [CoEnv.step, faithful.intact]
      refine ⟨next, ?_, ?_, ?_⟩
      · rw [unfolded, popped, Nest.step, stack_]
        rfl
      · rw [unfolded, owner, Nest.step, stack_]
        rfl
      · rw [unfolded, ended]
        exact follows.ended
  | finish =>
      obtain ⟨curr, last, rest, stack_, endless, other, notMain⟩ := fits
      have own : curr = s.cpu.owner := by
        have top := follows.top
        rw [stack_] at top
        exact Option.some.inj top
      subst own
      have lives : s.cEnd last = false := follows.lives.mpr endless
      have orderly : s.Orderly .finish :=
        .inr ⟨last, rest, follows.same.trans stack_, lives, other⟩
      have next := (faithful_step_iff faithful _).mpr orderly
      obtain ⟨owner, popped, ended⟩ := coYieldEnv_runs faithful.enter.ended
        (follows.same.trans stack_) ((Function.update_of_ne other _ _).trans lives)
      simp only [NestCall.toCall]
      have unfolded : s.step .finish = coYieldEnv
          { s.enter with cEnd := Function.update s.cEnd s.cpu.owner true } := by
        simp [CoEnv.step, faithful.intact, notMain]
      refine ⟨next, ?_, ?_, ?_⟩
      · rw [unfolded]
        refine popped.trans ?_
        rw [Nest.step, stack_]
        rfl
      · rw [unfolded, Nest.step, stack_]
        exact congrArg some owner.symm
      · intro co
        rw [unfolded, Nest.step, stack_]
        refine (Eq.congr_left (congrFun ended co)).trans ?_
        by_cases same : co = s.cpu.owner
        · subst same
          simp [CoEnv.enter]
        · simp [CoEnv.enter, same, follows.ended]

/-- Over every sequence of resumes, yields and returns that is nested well, the environment follows
the nesting: the coroutine on top runs, at its latest call or at its beginning, and all below it
wait at theirs. -/
theorem resume_yield_lifo (calls : List NestCall)
    (fits : Lib.Run.Allowed Nest.step Nest.Fits {} calls) :
    let s := Lib.Run.run CoEnv.step coInitEnv (calls.map NestCall.toCall)
    let n := Lib.Run.run Nest.step {} calls
    s.pCallStack = n.stack_ ∧ n.stack_.head? = some s.cpu.owner ∧
      s.cpu.point = s.calls s.cpu.owner ∧
      ∀ co ∈ n.stack_, co ∉ n.ended → co ≠ s.cpu.owner → s.ctx co = some ⟨co, s.calls co⟩ := by
  have run : ∀ (calls : List NestCall) (s : CoEnv) (n : Nest), s.Follows n →
      Lib.Run.Allowed Nest.step Nest.Fits n calls →
      (Lib.Run.run CoEnv.step s (calls.map NestCall.toCall)).Follows
        (Lib.Run.run Nest.step n calls) := by
    intro calls
    induction calls with
    | nil => exact fun s n follows _ => follows
    | cons c calls ih => exact fun s n follows fits => ih _ _ (follows.step fits.1) fits.2
  have start : coInitEnv.Follows {} :=
    ⟨coInitEnv_faithful, rfl, rfl, fun co => by simp [coInitEnv]⟩
  have follows := run calls coInitEnv {} start fits
  intro s n
  refine ⟨follows.same, follows.top, follows.faithful.here, ?_⟩
  intro co member endless other
  exact follows.faithful.saved co (follows.faithful.entries co (follows.same ▸ member))
    (follows.lives.mpr endless) other

/-- One coroutine resumes another, which yields back; then the first returns. -/
theorem resume_yield_lifo_two :
    let calls : List NestCall := [.resume 1, .resume 2, .yield, .finish]
    let s := Lib.Run.run CoEnv.step coInitEnv (calls.map NestCall.toCall)
    s.pCallStack = [mainCo] ∧ s.cpu.point = s.calls s.cpu.owner := by
  have run := resume_yield_lifo [.resume 1, .resume 2, .yield, .finish]
    ⟨⟨by decide, by decide, by decide⟩, ⟨by decide, by decide, by decide⟩,
      ⟨2, 1, [mainCo], rfl, by decide⟩, ⟨1, mainCo, [], rfl, by decide, by decide, by decide⟩,
      trivial⟩
  exact ⟨run.1, run.2.2.1⟩

end CoEnv

end QStack
