/-
# QStack.Activity -- what a function does to timeout_list and last_active_ts

`last_active_ts` is written by `timeout_list_add` and `timeout_list_update`, which put the stream at
the end of `timeout_list` with it, and by `process_tcp_packet` as soon as it has found the stream,
before the sequence check.  `Stirs` sums up what a walk makes of the place and the stamp of its
stream; for a segment it is `processSegment_stirs`: only a segment that the sequence check refuses
leaves the stream where it stands with a new stamp.
-/
import QStack.Walks
import QStack.Rejection
import QStack.Destruction
import QStack.Lib.Deadline

namespace QStack

set_option autoImplicit false

/-- `timeout_list` after an effect of stream `id`. -/
def Effect.relink (id : Nat) (e : Effect) (xs : List Nat) : List Nat :=
  match e with
  | .timeoutInsert => xs ++ [id]
  | .timeoutRemove => xs.erase id
  | _ => xs

theorem Containers.perform_timeout (on : Containers) (id : Nat) (e : Effect) :
    on.perform id e .timeoutList = e.relink id (on .timeoutList) := by
  cases e with
  | sendEvent pri => cases pri <;> rfl
  | _ => rfl

theorem Containers.replay_timeout (on : Containers) (id : Nat) (es : List Effect) :
    es.foldr (Containers.perform id) on .timeoutList =
      es.foldr (Effect.relink id) (on .timeoutList) := by
  induction es with
  | nil => rfl
  | cons e es ih => rw [List.foldr_cons, Containers.perform_timeout, ih, List.foldr_cons]

namespace Cx

variable {env : Env} {may : Bool} {permit : Permit} {id : Nat} {xs : List Nat} {c c' c'' : Cx}

/-- `timeout_list` after what `c` has done, when it was `xs` before. -/
def listing (c : Cx) (id : Nat) (xs : List Nat) : List Nat := c.out.foldr (Effect.relink id) xs

/-- The flag of the stream says whether it is on the list, which holds it once. -/
structure Lists (id : Nat) (xs : List Nat) (c : Cx) : Prop where
  member : c.st.onTimeoutList = true ↔ id ∈ c.listing id xs
  once : (c.listing id xs).Nodup

/-! ## The summary of a walk -/

/-- What happens to place and stamp between `c` and `c'`. -/
inductive Stirs (env : Env) (may : Bool) (id : Nat) (xs : List Nat) (c c' : Cx) : Prop
  | still (flag : c'.st.onTimeoutList = c.st.onTimeoutList)
      (place : c'.listing id xs = c.listing id xs)
      (stamp : c.st.onTimeoutList = true → c'.st.lastActiveTs = c.st.lastActiveTs)
  /-- the stream goes to the end of the list, with a new stamp -/
  | moved (on : may = true ∨ c.st.onTimeoutList = true) (flag : c'.st.onTimeoutList = true)
      (place : c'.listing id xs = (c.listing id xs).erase id ++ [id])
      (stamp : c'.st.lastActiveTs = env.curTs)
  /-- `timeout_list_add` finds the stream on the list -/
  | stamped (handler : may = true) (on : c.st.onTimeoutList = true)
      (flag : c'.st.onTimeoutList = true) (place : c'.listing id xs = c.listing id xs)
      (stamp : c'.st.lastActiveTs = env.curTs)

theorem Stirs.refl (env : Env) (may : Bool) (id : Nat) (xs : List Nat) (c : Cx) :
    Stirs env may id xs c c := .still rfl rfl fun _ => rfl

theorem Stirs.lists (stirs : Stirs env may id xs c c') (lists : Lists id xs c) :
    Lists id xs c' := by
  cases stirs with
  | still flag place => exact ⟨by rw [flag, place, lists.member], by rw [place]; exact lists.once⟩
  | moved _ flag place =>
      refine ⟨iff_of_true flag (by rw [place]; simp), ?_⟩
      rw [place]
      exact Lib.Deadline.nodup_moveLast lists.once
  | stamped _ on flag place =>
      exact ⟨iff_of_true flag (by rw [place]; exact lists.member.mp on),
        by rw [place]; exact lists.once⟩

theorem Stirs.trans (first : Stirs env may id xs c c') (second : Stirs env may id xs c' c'')
    (once : (c.listing id xs).Nodup) : Stirs env may id xs c c'' := by
  cases first with
  | still flag place stamp =>
      cases second with
      | still flag' place' stamp' =>
          exact .still (flag'.trans flag) (place'.trans place) fun on =>
            (stamp' (flag.trans on)).trans (stamp on)
      | moved on' flag' place' stamp' => exact .moved (flag ▸ on') flag' (place ▸ place') stamp'
      | stamped handler on' flag' place' stamp' =>
          exact .stamped handler (flag ▸ on') flag' (place'.trans place) stamp'
  | moved on flag place stamp =>
      cases second with
      | still flag' place' stamp' =>
          exact .moved on (flag'.trans flag) (place'.trans place) ((stamp' flag).trans stamp)
      | moved on' flag' place' stamp' =>
          exact .moved on flag' (by rw [place', place, Lib.Deadline.erase_moveLast once]) stamp'
      | stamped handler on' flag' place' stamp' =>
          exact .moved on flag' (place'.trans place) stamp'
  | stamped handler on flag place stamp =>
      cases second with
      | still flag' place' stamp' =>
          exact .stamped handler on (flag'.trans flag) (place'.trans place)
            ((stamp' flag).trans stamp)
      | moved on' flag' place' stamp' => exact .moved (.inl handler) flag' (place ▸ place') stamp'
      | stamped _ on' flag' place' stamp' =>
          exact .stamped handler on flag' (place'.trans place) stamp'

theorem Stirs.modify (c : Cx) {f : TcpStream → TcpStream}
    (flag : (f c.st).onTimeoutList = c.st.onTimeoutList)
    (stamp : (f c.st).lastActiveTs = c.st.lastActiveTs) : Stirs env may id xs c (c.modify f) :=
  .still flag rfl fun _ => stamp

/-- An effect on another list. -/
theorem Stirs.emit (c : Cx) {e : Effect} (other : ∀ ys, e.relink id ys = ys) :
    Stirs env may id xs c (c.emit e) := .still rfl (other _) fun _ => rfl

theorem rtoListRemove_stirs (c : Cx) : Stirs env may id xs c c.rtoListRemove := by
  unfold rtoListRemove
  split
  · exact .still rfl rfl fun _ => rfl
  · exact .refl env may id xs c

theorem timewaitListAdd_stirs (c : Cx) (once : (c.listing id xs).Nodup) :
    Stirs env may id xs c (c.timewaitListAdd env) := by
  unfold timewaitListAdd
  dsimp only
  have stamped : Stirs env may id xs c (c.modify fun s =>
      { s with tsTwExpire := env.curTs + tcpTimewait }) := .modify c rfl rfl
  split
  · exact (stamped.trans (.emit _ fun _ => rfl) once).trans (.emit _ fun _ => rfl) once
  · exact ((stamped.trans (rtoListRemove_stirs _) once).trans (.modify _ rfl rfl) once).trans
      (.emit _ fun _ => rfl) once

theorem timewaitListRemove_stirs (c : Cx) : Stirs env may id xs c c.timewaitListRemove := by
  unfold timewaitListRemove
  split
  · exact .still rfl rfl fun _ => rfl
  · exact .refl env may id xs c

theorem Walk.stirs (walk : Walk env permit c c') (lists : Lists id xs c) :
    Stirs env permit.destroys id xs c c' := by
  induction walk with
  | refl => exact .refl env _ id xs c
  | @work c' c'' _ out clock ih =>
      refine ih.trans (.still ?_ (congrArg (List.foldr (Effect.relink id) xs) out) fun _ => ?_)
        lists.once
      · exact congrArg (fun k : ClockSide => k.flags.timeout) clock.eq
      · exact congrArg ClockSide.lastActiveTs clock.eq
  | @emits c' _ e plain spared ih =>
      refine ih.trans (.still rfl ?_ fun _ => rfl) lists.once
      revert plain
      cases e <;> first | exact fun _ => rfl | exact fun plain => by cases plain
  | @rtoListAdd c' _ ih =>
      refine ih.trans ?_ lists.once
      unfold Cx.rtoListAdd
      dsimp only
      split
      · exact .refl env _ id xs c'
      split
      · exact .still rfl rfl fun _ => rfl
      · exact .still rfl rfl fun _ => rfl
  | @rtoListRemove c' _ _ ih => exact ih.trans (rtoListRemove_stirs c') lists.once
  | @timewaitListAdd c' _ ih =>
      exact ih.trans (timewaitListAdd_stirs c' (ih.lists lists).once) lists.once
  | @timewaitListRenew c' _ ih =>
      have off := ih.trans (timewaitListRemove_stirs c') lists.once
      exact off.trans (timewaitListAdd_stirs _ (off.lists lists).once) lists.once
  | @timeoutListAdd c' _ handler ih =>
      refine ih.trans ?_ lists.once
      have member := (ih.lists lists).member
      unfold Cx.timeoutListAdd
      dsimp only
      split
      · rename_i on
        exact .stamped handler on on rfl rfl
      · rename_i off
        refine .moved (.inl handler) rfl ?_ rfl
        rw [List.erase_of_not_mem fun within => off (member.mpr within)]
        rfl
  | @timeoutListUpdate c' _ ih =>
      refine ih.trans ?_ lists.once
      unfold Cx.timeoutListUpdate
      dsimp only
      split
      · rename_i on
        exact .moved (.inr on) on rfl rfl
      · rename_i off
        exact .still rfl rfl fun on => absurd on off

/-! ## Segments -/

/-- The stream is off the list and stays off it, or goes to its end with a new stamp. -/
inductive Settles (env : Env) (id : Nat) (xs : List Nat) (c c' : Cx) : Prop
  | off (before : c.st.onTimeoutList = false) (flag : c'.st.onTimeoutList = false)
      (place : c'.listing id xs = c.listing id xs)
  | moved (flag : c'.st.onTimeoutList = true)
      (place : c'.listing id xs = (c.listing id xs).erase id ++ [id])
      (stamp : c'.st.lastActiveTs = env.curTs)

theorem Stirs.settles (stirs : Stirs env may id xs c c') (off : c.st.onTimeoutList = false) :
    Settles env id xs c c' := by
  cases stirs with
  | still flag place => exact .off off (flag.trans off) place
  | moved _ flag place stamp => exact .moved flag place stamp
  | stamped _ on =>
      rw [off] at on
      cases on

theorem Settles.lists (settles : Settles env id xs c c') (lists : Lists id xs c) :
    Lists id xs c' := by
  cases settles with
  | off before flag place =>
      have still : Stirs env true id xs c c' := .still (flag.trans before.symm) place fun on => by
        rw [before] at on
        cases on
      exact still.lists lists
  | moved flag place stamp =>
      have moved : Stirs env true id xs c c' := .moved (.inl rfl) flag place stamp
      exact moved.lists lists

theorem Settles.trans (first : Settles env id xs c c') (second : Settles env id xs c' c'')
    (once : (c.listing id xs).Nodup) : Settles env id xs c c'' := by
  cases second with
  | off before' flag' place' =>
      cases first with
      | off before flag place => exact .off before flag' (place'.trans place)
      | moved flag =>
          rw [before'] at flag
          cases flag
  | moved flag' place' stamp' =>
      cases first with
      | off before flag place => exact .moved flag' (place ▸ place') stamp'
      | moved flag place stamp =>
          exact .moved flag' (by rw [place', place, Lib.Deadline.erase_moveLast once]) stamp'

/-- The rest of the function does not take the stream away from there. -/
theorem Settles.walk (settles : Settles env id xs c c') (walk : Walk env permit c' c'')
    (lists : Lists id xs c) : Settles env id xs c c'' := by
  have stirs := walk.stirs (settles.lists lists)
  cases settles with
  | off before flag place =>
      exact Settles.trans (.off before flag place) (stirs.settles flag) lists.once
  | moved flag place stamp =>
      cases stirs with
      | still flag' place' stamp' =>
          exact .moved (flag'.trans flag) (place'.trans place) ((stamp' flag).trans stamp)
      | moved _ flag' place' stamp' =>
          exact .moved flag' (by rw [place', place, Lib.Deadline.erase_moveLast lists.once]) stamp'
      | stamped _ _ flag' place' stamp' => exact .moved flag' (place'.trans place) stamp'

end Cx

/-- The sequence check refuses the segment. -/
def TcpStream.rejects (s : TcpStream) (seg : Segment) : Bool :=
  decide (TcpState.synRcvd.val < s.state.val) && !s.inSequence seg

namespace Cx

variable (env : Env) {id : Nat} {xs : List Nat} {c : Cx} (seg : Segment)

theorem acceptSegment_settles (lists : Lists id xs c) :
    Settles env id xs c (c.acceptSegment env seg) := by
  refine Settles.walk ?_
    (acceptSegment_walks .all env c seg rfl fun c₁ _ _ => .all c₁.st seg) lists
  unfold timeoutListUpdate
  dsimp only
  split
  · exact .moved ‹_› rfl rfl
  · exact .off (Bool.not_eq_true _ ▸ ‹_›) (Bool.not_eq_true _ ▸ ‹_›) rfl

/-- **A segment**: the process ends, or the stream settles, or it is refused by the sequence check
and stamped where it stands. -/
theorem processSegment_stirs (lists : Lists id xs c) (running : c.view.halted = false) :
    (c.processSegment env seg).halted = true ∨
      Settles env id xs c (c.processSegment env seg) ∨
      (c.st.rejects seg = true ∧ c.st.onTimeoutList = true ∧
        (c.processSegment env seg).st.onTimeoutList = true ∧
        (c.processSegment env seg).listing id xs = c.listing id xs ∧
        (c.processSegment env seg).st.lastActiveTs = env.curTs) := by
  obtain ⟨hangs, reads⟩ := @processSegment_reads c seg env running
  cases read : c.st.optioned env seg with
  | none => exact .inl (hangs read)
  | some s =>
  refine .inr ?_
  obtain ⟨o, options⟩ := optioned_same read
  rw [reads s read]
  generalize stamped : (Cx.modify { c.receive seg with st := s } fun s =>
    { s with lastActiveTs := env.curTs }) = c₂
  have listing : c₂.listing id xs = c.listing id xs := by
    rw [← stamped]
    rfl
  have same : c₂.st = { c.st.withOptions o with lastActiveTs := env.curTs } := by
    rw [← stamped, modify_st, options]
  have flag : c₂.st.onTimeoutList = c.st.onTimeoutList := by rw [same]
  have inSeq : c₂.st.inSequence seg = c.st.inSequence seg := by
    unfold TcpStream.inSequence
    rw [same]
  have lists₂ : Lists id xs c₂ :=
    ⟨by rw [flag, listing, lists.member], by rw [listing]; exact lists.once⟩
  have accepted : Settles env id xs c (c₂.acceptSegment env seg) := by
    cases acceptSegment_settles env seg lists₂ with
    | off before flag' place => exact .off (flag ▸ before) flag' (place.trans listing)
    | moved flag' place stamp => exact .moved flag' (listing ▸ place) stamp
  unfold validateSegment
  split
  · rename_i late
    rw [same] at late
    have passes := checkSequenceValidation_fst env seg c₂
    have checked := (checkSequenceValidation_walks .sparing env c₂ seg).stirs lists₂
    rcases checkSequenceValidation_cases env seg c₂ with ⟨through, -⟩ | ⟨refused, -⟩
    · rw [through]
      exact .inl accepted
    generalize c₂.checkSequenceValidation env seg = answer at passes checked refused ⊢
    obtain ⟨ok, c'⟩ := answer
    dsimp only at passes checked refused ⊢
    subst refused
    cases checked with
    | still flag' place stamp =>
        cases on : c.st.onTimeoutList with
        | false => exact .inl (.off on (flag'.trans (flag.trans on)) (place.trans listing))
        | true =>
            refine .inr ⟨?_, rfl, flag'.trans (flag.trans on), place.trans listing, ?_⟩
            · rw [TcpStream.rejects, ← inSeq, ← passes, decide_eq_true late]
              rfl
            · rw [stamp (flag.trans on), same]
    | moved _ flag' place stamp => exact .inl (.moved flag' (listing ▸ place) stamp)
    | stamped handler => cases handler
  · exact .inl accepted

theorem passiveOpen_settles (off : c.st.onTimeoutList = false) (lists : Lists id xs c) :
    Settles env id xs c (c.passiveOpen env seg) := by
  obtain ⟨c₁, walk, -, same | stamped⟩ := passiveOpen_walks .all env c seg rfl
  · rw [same]
    exact (walk.stirs lists).settles off
  · rw [stamped]
    have opened : Settles env id xs c (c₁.modify fun s =>
        { s with listener := true, lastActiveTs := env.curTs }) := by
      cases (walk.stirs lists).settles off with
      | off before flag place => exact .off before flag place
      | moved flag place => exact .moved flag place rfl
    exact opened.walk (accept_walks .all env _ seg rfl fun c₂ _ _ => .all c₂.st seg) lists

/-! ## Timers and the close call -/

theorem rtoListCheck_stirs (lists : Lists id xs c) :
    Stirs env false id xs c (c.rtoListCheck env) := by
  have unlinked : Stirs env false id xs c
      ((c.modify fun s => { s with onRto := false }).emit .rtoRemove) := .still rfl rfl fun _ => rfl
  refine unlinked.trans ?_ lists.once
  have lists' := unlinked.lists lists
  unfold rtoListCheck
  generalize (c.modify fun s => { s with onRto := false }).emit .rtoRemove = c' at lists' ⊢
  rcases handleRto_walks .sparing env c' with
    ⟨-, c₁, out, clock, walk⟩ | ⟨-, c₁, out, clock, destroyed⟩
  · have rolled : Stirs env false id xs c' c₁ :=
      .still (congrArg (fun k : ClockSide => k.flags.timeout) clock)
        (congrArg (List.foldr (Effect.relink id) xs) out) fun _ =>
          congrArg ClockSide.lastActiveTs clock
    exact rolled.trans (walk.stirs (rolled.lists lists')) lists'.once
  · have closed : Stirs env false id xs c' c₁ :=
      .still (congrArg (fun k : ClockSide => k.flags.timeout) clock)
        (congrArg (List.foldr (Effect.relink id) xs) out) fun _ =>
          congrArg ClockSide.lastActiveTs clock
    rw [destroyed]
    exact closed.trans (.emit c₁ fun _ => rfl) lists'.once

theorem timewaitListCheck_stirs (c : Cx) : Stirs env false id xs c c.timewaitListCheck :=
  .still rfl rfl fun _ => rfl

theorem handleCloseCall_stirs (lists : Lists id xs c) :
    Stirs env false id xs c (c.handleCloseCall env) := by
  obtain ⟨c₁, walk, same | destroyed⟩ := handleCloseCall_leads .sparing env c
  · rw [same]
    exact walk.stirs lists
  · rw [destroyed]
    exact (walk.stirs lists).trans (.emit c₁ fun _ => rfl) lists.once

end Cx

end QStack
