/-
# QStack.RecvBuff -- the receive buffer of tcp_recv_buff.c

The buffer keeps in-order mbufs in the ring `merged_q`, mbufs that arrived early
in `ooo_list`, and every unread priority mbuf a second time in `high_q`.
`rb_put` files an mbuf that the stack received; `rb_get` hands one to the
application.

Three places of the code do not do what they set out to do, and are modelled as
they are written:

* `rb_put` tests `mbufq_enqueue` with a bare `if`, and `FAILED`, being not zero, is
  true: on a full ring `merged_next` still advances;
* `try_merge_ooo` calls `cirq_add` on a direct ring (`cirqAddDirect`);
* `ooo_insert` calls `mbuf_list_add_head` with its arguments swapped, which
  overwrites words of the mbuf and of the stream and inserts nothing
  (`OooResult.swapped`).

Stores outside the modelled memory, and the process exit of `rb_get`, are noted
in `faults`, latest first.
-/
import QStack.CircularQueue
import QStack.Mbuf

namespace QStack

set_option autoImplicit false

structure RcvBuff where
  mergedQ : CircularQueue MbufId
  oooList : List MbufId
  highQ : CircularQueue MbufId
  /-- max size (in seq) of the buffer -/
  size : Seq
  initSeq : Seq
  /-- start seq of merged data -/
  headSeq : Seq
  /-- seq going to be merged -/
  mergedNext : Seq

inductive RcvFault where
  | stray (store : CircularQueue.StrayStore MbufId)
  | swappedAddHead (mbuf : MbufId)
  | wrongMbuf (mbuf : MbufId)
deriving DecidableEq, Repr

/-- After a store into the header of another mbuf or behind the buffer the connection goes on;
after the others the process has ended. -/
def RcvFault.fatal : RcvFault → Bool
  | .stray (.into _ _) | .swappedAddHead _ => false
  | .stray (.null _) | .wrongMbuf _ => true

def RcvFault.swapped : RcvFault → Bool
  | .swappedAddHead _ => true
  | _ => false

/-- A receive buffer with the memory its mbufs live in. -/
structure RcvMem extends MbufMem where
  buff : RcvBuff
  faults : List RcvFault := []

namespace RcvBuff

/-- The slots of a zeroed `circular_queue`. -/
def zeroQueue : CircularQueue MbufId := { head := 0, dQueue := fun _ => none, size := 0, tail := 0 }

/-- The buffer inside a stream that `tcp_stream_create` has just zeroed. -/
def zero : RcvBuff :=
  { mergedQ := zeroQueue, oooList := [], highQ := zeroQueue, size := 0, initSeq := 0,
    headSeq := 0, mergedNext := 0 }

/-- `rb_init`; `rcvbufSize` is `CONFIG.rcvbuf_size`. -/
def rbInit (rcvbufSize : Nat) (buff : RcvBuff) (initSeq : Seq) : RcvBuff :=
  { initSeq := initSeq
    mergedQ := buff.mergedQ.dirCirqInit
    size := BitVec.ofNat 32 (1400 * rcvbufSize)
    headSeq := initSeq
    mergedNext := initSeq
    oooList := []
    highQ := buff.highQ.dirCirqInit }

def rbMergedLen (buff : RcvBuff) : Seq := buff.mergedNext - buff.headSeq

def rbUpdateSeq (buff : RcvBuff) (initSeq : Seq) : RcvBuff :=
  { buff with initSeq := initSeq, headSeq := initSeq, mergedNext := initSeq }

end RcvBuff

/-! ## The out-of-order list -/

inductive OooResult where
  | inserted (list : List MbufId)
  | swapped
  | duplicate

section Ooo

variable (mbuf : MbufId → Mbuf) (new : MbufId)

/-- The `while` loop of `ooo_insert`: the first gap between two neighbours that
`new` fits in. -/
def oooScan : List MbufId → Option (List MbufId)
  | p :: next :: rest =>
      if tcpSeqLeq (mbuf p).seqEnd (mbuf new).tcpSeq &&
          tcpSeqLeq (mbuf new).seqEnd (mbuf next).tcpSeq then
        some (p :: new :: next :: rest)
      else (oooScan (next :: rest)).map (p :: ·)
  | _ => none

def oooInsert (list : List MbufId) : OooResult :=
  match list with
  | [] => .inserted [new]
  | head :: rest =>
      if tcpSeqLeq (mbuf (rest.getLastD head)).seqEnd (mbuf new).tcpSeq then
        .inserted (list ++ [new])
      else if tcpSeqLeq (mbuf new).seqEnd (mbuf head).tcpSeq then
        .swapped
      else
        match oooScan mbuf new list with
        | some list' => .inserted list'
        | none => .duplicate

end Ooo

namespace RcvMem

def setBuff (w : RcvMem) (buff : RcvBuff) : RcvMem := { w with buff := buff }

def setMem (w : RcvMem) (mem : MbufMem) : RcvMem := { w with toMbufMem := mem }

def fault (w : RcvMem) (f : RcvFault) : RcvMem := { w with faults := f :: w.faults }

@[simp] theorem setBuff_toMbufMem (w : RcvMem) (buff : RcvBuff) :
    (w.setBuff buff).toMbufMem = w.toMbufMem := rfl

@[simp] theorem setBuff_buff (w : RcvMem) (buff : RcvBuff) : (w.setBuff buff).buff = buff := rfl

@[simp] theorem setMem_toMbufMem (w : RcvMem) (mem : MbufMem) :
    (w.setMem mem).toMbufMem = mem := rfl

@[simp] theorem setMem_buff (w : RcvMem) (mem : MbufMem) : (w.setMem mem).buff = w.buff := rfl

/-! ## rb_put -/

/-- The loop of `try_merge_ooo` over the rest of `ooo_list`; `ret` counts the
low-priority mbufs merged so far. -/
def mergeLoop : List MbufId → RcvMem → Nat → Nat × RcvMem
  | [], w, ret => (ret, w)
  | id :: rest, w, ret =>
      if tcpSeqLeq (w.mbuf id).tcpSeq w.buff.mergedNext then
        let w := w.setBuff { w.buff with oooList := rest }
        if (w.mbuf id).tcpSeq ≠ w.buff.mergedNext then
          -- an out-of-date packet
          mergeLoop rest (w.setMem (w.mbufFree id)) ret
        else
          match w.buff.mergedQ.cirqAddDirect id with
          | (r, q, stray) =>
              let w := { w with faults := (stray.map RcvFault.stray).toList ++ w.faults }
              if truthy r then
                mergeLoop rest
                  (w.setBuff { w.buff with
                    mergedQ := q
                    mergedNext := w.buff.mergedNext + (w.mbuf id).len })
                  (if (w.mbuf id).priority then ret else ret + 1)
              else (ret, w.setMem (w.mbufFree id))
      else (ret, w)

def tryMergeOoo (w : RcvMem) : Nat × RcvMem := mergeLoop w.buff.oooList w 0

/-- The `PRIORITY_RECV_BUFF` part of `rb_put`: a priority mbuf also goes to `high_q`. -/
def putHigh (w : RcvMem) (id : MbufId) : RcvMem :=
  let w := w.setMem (w.modify id fun m => { m with holding := false })
  if (w.mbuf id).priority then
    match w.buff.highQ.dirCirqAdd id with
    | (r, q) =>
        if r = success then
          (w.setBuff { w.buff with highQ := q }).setMem
            (w.modify id fun m => { m with holding := true, mbufState := .rbuffed })
        else w
  else w

/-- The end of a successful `rb_put`. -/
def putDone (w : RcvMem) (id : MbufId) : RcvMem :=
  if (w.mbuf id).priority then w
  else w.setMem (w.modify id fun m => { m with mbufState := .rbuffed })

def rbPut (w : RcvMem) (id : MbufId) : Int × RcvMem :=
  let bufSeqNext := (w.mbuf id).seqEnd
  if tcpSeqGt bufSeqNext (w.buff.headSeq + w.buff.size) then (failed, w)
  else
    let w := w.putHigh id
    if (w.mbuf id).tcpSeq = w.buff.mergedNext then
      match w.buff.mergedQ.dirCirqAdd id with
      | (r, q) =>
          if truthy r then
            let w := w.setBuff { w.buff with mergedQ := q, mergedNext := bufSeqNext }
            match w.tryMergeOoo with
            | (merged, w) => (1 + merged, w.putDone id)
          else (failed, w)
    else
      match oooInsert w.mbuf id w.buff.oooList with
      | .inserted list => (0, (w.setBuff { w.buff with oooList := list }).putDone id)
      | .swapped => (0, (w.fault (.swappedAddHead id)).putDone id)
      | .duplicate => (failed, w)

/-! ## rb_clear -/

/-- `mbufq_clear`: dequeue and free until the queue gives nothing. -/
def mbufqClear : Nat → CircularQueue MbufId → MbufMem → CircularQueue MbufId × MbufMem
  | 0, q, mem => (q, mem)
  | rounds + 1, q, mem =>
      match q.dirCirqGet with
      | (none, q) => (q, mem)
      | (some id, q) => mbufqClear rounds q (mem.mbufFree id)

/-- `head_seq` and `merged_next` stay. -/
def rbClear (w : RcvMem) : RcvMem :=
  match mbufqClear staticBuffSize w.buff.mergedQ w.toMbufMem with
  | (merged, mem) =>
      match mbufqClear staticBuffSize w.buff.highQ (w.buff.oooList.foldl MbufMem.mbufFree mem) with
      | (high, mem) =>
          (w.setBuff { w.buff with mergedQ := merged, oooList := [], highQ := high }).setMem mem

/-! ## rb_get -/

/-- `try_get_high_mbuf`.  Every round takes one mbuf out of `high_q`, which holds
less than `STATIC_BUFF_SIZE` of them, so that many rounds suffice. -/
def tryGetHigh : Nat → RcvMem → Option MbufId × RcvMem
  | 0, w => (none, w)
  | rounds + 1, w =>
      match w.buff.highQ.dirCirqGet with
      | (none, q) => (none, w.setBuff { w.buff with highQ := q })
      | (some id, q) =>
          let w := w.setBuff { w.buff with highQ := q }
          if (w.mbuf id).mbufState = .rbuffed then
            if (w.mbuf id).tcpSeq = w.buff.headSeq then
              -- also the head of merged_q: take whatever is there out with it
              match w.buff.mergedQ.dirCirqGet with
              | (some _, q) =>
                  (some id,
                    (w.setBuff { w.buff with
                      mergedQ := q
                      headSeq := w.buff.headSeq + (w.mbuf id).len }).setMem
                        (w.modify id fun m => { m with holding := false }))
              | (none, q) => (some id, w.setBuff { w.buff with mergedQ := q })
            else (some id, w)
          else tryGetHigh rounds (w.setMem (w.mbufFree id))

def tryGetHighMbuf (w : RcvMem) : Option MbufId × RcvMem := tryGetHigh staticBuffSize w

/-- `try_get_merged_mbuf`, with the same bound on its rounds. -/
def tryGetMerged : Nat → RcvMem → Option MbufId × RcvMem
  | 0, w => (none, w)
  | rounds + 1, w =>
      match w.buff.mergedQ.dirCirqGet with
      | (none, q) => (none, w.setBuff { w.buff with mergedQ := q })
      | (some id, q) =>
          let w := w.setBuff { w.buff with
            mergedQ := q
            headSeq := w.buff.headSeq + (w.mbuf id).len }
          if (w.mbuf id).mbufState = .rbuffed then (some id, w)
          else tryGetMerged rounds (w.setMem (w.mbufFree id))

def tryGetMergedMbuf (w : RcvMem) : Option MbufId × RcvMem := tryGetMerged staticBuffSize w

/-- `mbuf_get_payload_ptr` of a returned mbuf; `rb_get` exits when it is null. -/
def checkPayload (w : RcvMem) (id : MbufId) : RcvMem :=
  if (w.mbuf id).l4Len = 0 then w.fault (.wrongMbuf id) else w

def rbGet (w : RcvMem) : Option MbufId × RcvMem :=
  match w.tryGetHighMbuf with
  | (some id, w) => (some id, w.checkPayload id)
  | (none, w) =>
      match w.tryGetMergedMbuf with
      | (some id, w) => (some id, w.checkPayload id)
      | (none, w) => (none, w)

/-- `q_recv` marks what `rb_get` returned as read. -/
def qRecv (w : RcvMem) : Option MbufId × RcvMem :=
  match w.rbGet with
  | (some id, w) => (some id, w.setMem (w.modify id fun m => { m with mbufState := .rread }))
  | (none, w) => (none, w)

/-- `q_free_mbuf`: the first call on a priority mbuf that a container of the
buffer still points to only clears `holding`. -/
def qFreeMbuf (w : RcvMem) (id : MbufId) : RcvMem :=
  if (w.mbuf id).priority && (w.mbuf id).holding then
    w.setMem (w.modify id fun m => { m with holding := false })
  else w.setMem (w.mbufFree id)

end RcvMem

end QStack
