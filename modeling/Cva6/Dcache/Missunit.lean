import Cva6.Dcache.Mem
/-!
# Miss unit

`wt_dcache_missunit.sv` with two read ports and the write port: one outstanding
read, the collision checks between reads and writes, atomics, the flush of the
tag array and the line writes. The replacement way of the LFSR and the end of the
back-off are inputs.
-/

namespace Cva6.Dcache.Missunit

inductive FsmState where
  | IDLE | DRAIN | AMO | FLUSH | STORE_WAIT | LOAD_WAIT | AMO_WAIT
  deriving DecidableEq, Repr, Inhabited

structure Mshr where
  paddr : Paddr
  size : BitVec 3
  vldBits : WayMask
  id : TxId
  nc : Bool
  replWay : Way
  missPortIdx : Port
  deriving DecidableEq, Inhabited

structure Regs where
  state : FsmState
  cnt : Idx
  enableQ : Bool
  flushAckQ : Bool
  mshrVldQ : Bool
  mshrVldQ1 : Bool
  mshr : Mshr
  rdrdCollisionQ : Port → Bool
  missReqMaskedQ : Port → Bool
  amoReqQ : Bool
  storesInflightQ : BitVec 3

def reset : Regs where
  state := .FLUSH
  cnt := 0
  enableQ := false
  flushAckQ := false
  mshrVldQ := false
  mshrVldQ1 := false
  mshr := ⟨⟨⟨0, 0, 0⟩, 0⟩, 0, fun _ => false, 0, false, 0, .rd 0⟩
  rdrdCollisionQ := fun _ => false
  missReqMaskedQ := fun _ => false
  amoReqQ := false
  storesInflightQ := 0

/-- What a port offers to the miss unit. -/
structure Miss where
  req : Bool
  we : Bool
  nc : Bool
  wdata : Word
  paddr : Paddr
  vldBits : WayMask
  size : BitVec 3
  id : TxId

structure Input where
  enable : Bool
  flush : Bool
  wbufferEmpty : Bool
  amo : AmoReq
  miss : Port → Miss
  /-- The lines of the transactions in flight: `tx_paddr_i` with `tx_vld_i`. -/
  txLine : TxId → Option (Tag × Idx)
  memRtrnVld : Bool
  memRtrn : Rtrn
  memDataAck : Bool
  rndWay : Way
  scBackoffOver : Bool

def amoTxId : TxId := 1

variable (q : Regs) (i : Input)

/-! ## Responses -/

/-- The process `p_rtrn_logic`. -/
def rtrn (t : RtrnType) : Bool := i.memRtrnVld && i.memRtrn.rtype == t

def loadAck : Bool := rtrn i .LOAD_ACK && q.mshrVldQ

def storeAck : Bool := rtrn i .STORE_ACK && q.storesInflightQ != 0

def amoAck : Bool := rtrn i .ATOMIC_ACK && q.amoReqQ

def invVld : Bool := rtrn i .INV_REQ && (i.memRtrn.inv.vld || i.memRtrn.inv.all)

def invVldAll : Bool := rtrn i .INV_REQ && i.memRtrn.inv.all

def missRtrnVld (p : Port) : Bool :=
  (loadAck q i && p == q.mshr.missPortIdx) || (storeAck q i && p == .wr)

/-! ## Line writes -/

def flushEn : Bool := q.state == .FLUSH

def clWriteEn : Bool := loadAck q i && !q.mshr.nc

def wrClWe : WayMask :=
  if flushEn q then fun _ => true
  else if invVldAll i then fun _ => true
  else if invVld i then bin2oh i.memRtrn.inv.way
  else if clWriteEn q i then bin2oh q.mshr.replWay
  else fun _ => false

def wrCl : Mem.LineWrite where
  vld := loadAck q i || any (wrClWe q i)
  nc := q.mshr.nc
  we := wrClWe q i
  tag := q.mshr.paddr.word.tag
  idx :=
    if flushEn q then q.cnt else if invVld i then i.memRtrn.inv.idx else q.mshr.paddr.word.idx
  off := q.mshr.paddr.word.bank
  data := i.memRtrn.data
  dataBe := clWriteEn q i
  vldBits :=
    if flushEn q then fun _ => false
    else if invVld i then fun _ => false
    else if clWriteEn q i then bin2oh q.mshr.replWay
    else fun _ => false

/-! ## Arbitration of the requests -/

def lockReqs : Bool := q.state == .STORE_WAIT || q.state == .LOAD_WAIT

def maskReads : Bool := q.state == .DRAIN || q.mshrVldQ

def missReqMasked : Port → Bool :=
  if lockReqs q then q.missReqMaskedQ
  else if maskReads q then fun p => (i.miss p).we && (i.miss p).req
  else fun p => (i.miss p).req

def missPortIdx : Port := lowestPort (missReqMasked q i)

def missIsWrite : Bool := (i.miss (missPortIdx q i)).we

/-! ## Collisions -/

def rdrdCollision (p : Port) : Bool :=
  q.mshr.paddr.word.line == (i.miss p).paddr.word.line && (q.mshrVldQ || q.mshrVldQ1)

def rdrdCollisionD (p : Port) : Bool :=
  (i.miss p).req && (q.rdrdCollisionQ p || rdrdCollision q i p)

def rdwrCollision : Bool :=
  q.mshr.paddr.word.line == (i.miss .wr).paddr.word.line && q.mshrVldQ

def txCollision : Bool :=
  any fun id => i.txLine id == some (i.miss (missPortIdx q i)).paddr.word.line

/-! ## The process `p_fsm` -/

def allWaysValid : Bool := !any fun w => !(i.miss (missPortIdx q i)).vldBits w

def replWay : Way :=
  if allWaysValid q i then i.rndWay else lzc fun w => !(i.miss (missPortIdx q i)).vldBits w

def idleStore : Bool := missIsWrite q i && !rdwrCollision q i

def idleLoad : Bool :=
  !missIsWrite q i && (!q.mshrVldQ || loadAck q i) &&
    !rdrdCollisionD q i (missPortIdx q i) && !txCollision q i

/-- In `IDLE` neither a flush nor an atomic is asked for, and a port is. -/
def idleMiss : Bool :=
  q.state == .IDLE && !(i.flush || (i.enable && !q.enableQ)) && !i.amo.req &&
    anyPort (missReqMasked q i)

def sendsStore : Bool :=
  match q.state with
  | .IDLE => idleMiss q i && idleStore q i
  | .STORE_WAIT => true
  | .DRAIN => anyPort (missReqMasked q i) && !rdwrCollision q i
  | _ => false

def sendsLoad : Bool :=
  match q.state with
  | .IDLE => idleMiss q i && idleLoad q i
  | .LOAD_WAIT => true
  | _ => false

def sendsAmo : Bool := q.state == .AMO && (i.amo.op != .LR || i.scBackoffOver)

def memDataReq : Bool := sendsStore q i || sendsLoad q i || sendsAmo q i

def amoSel : Bool := q.state == .AMO || q.state == .AMO_WAIT

def missAck (p : Port) : Bool :=
  !amoSel q && p == missPortIdx q i && i.memDataAck && memDataReq q i

def mshrAllocate : Bool := sendsLoad q i && i.memDataAck

def missReplay (p : Port) : Bool :=
  idleMiss q i && !missIsWrite q i && (!q.mshrVldQ || loadAck q i) &&
    rdrdCollisionD q i (missPortIdx q i) && p == missPortIdx q i

def flushDone : Bool := q.cnt == 255

def flushAckO : Bool := q.state == .FLUSH && flushDone q && q.flushAckQ

def amoRespAck : Bool := q.state == .AMO_WAIT && amoAck q i

/-- `amo_rtrn_mux`; the AXI adapter returns the word of an atomic in the first doubleword. -/
def amoRtrnMux : BitVec 64 :=
  let d := i.memRtrn.data 0
  d 7 ++ d 6 ++ d 5 ++ d 4 ++ d 3 ++ d 2 ++ d 1 ++ d 0

/-- `amo_resp_o.result`: a word is taken from the half that bit 2 of the address selects, and
its sign is extended. -/
def amoResult : BitVec 64 :=
  if i.amo.size == 2 then
    ((amoRtrnMux i).extractLsb' (if i.amo.paddr.lane.val / 4 % 2 = 1 then 32 else 0) 32).signExtend 64
  else amoRtrnMux i

def stateD : FsmState :=
  match q.state with
  | .IDLE =>
      if i.flush || (i.enable && !q.enableQ) then
        if i.wbufferEmpty && !q.mshrVldQ then .FLUSH else .DRAIN
      else if i.amo.req then
        if i.wbufferEmpty && !q.mshrVldQ then .AMO else .DRAIN
      else if idleMiss q i && idleStore q i && !i.memDataAck then .STORE_WAIT
      else if idleMiss q i && idleLoad q i && !i.memDataAck then .LOAD_WAIT
      else .IDLE
  | .STORE_WAIT => if i.memDataAck then .IDLE else .STORE_WAIT
  | .LOAD_WAIT => if i.memDataAck then .IDLE else .LOAD_WAIT
  | .DRAIN => if i.wbufferEmpty && !q.mshrVldQ then .IDLE else .DRAIN
  | .FLUSH => if flushDone q then .IDLE else .FLUSH
  | .AMO => if sendsAmo q i && i.memDataAck then .AMO_WAIT else .AMO
  | .AMO_WAIT => if amoAck q i then .IDLE else .AMO_WAIT

def enableD : Bool :=
  if q.state == .FLUSH && flushDone q then i.enable else q.enableQ && i.enable

def flushAckD : Bool :=
  match q.state with
  | .IDLE =>
      if (i.flush || (i.enable && !q.enableQ)) && i.wbufferEmpty && !q.mshrVldQ then i.flush
      else q.flushAckQ
  | .FLUSH => if flushDone q then false else q.flushAckQ
  | _ => q.flushAckQ

/-! ## The request to memory -/

def amoData : Word :=
  if i.amo.size == 2 then fun k => i.amo.operandB (Fin.ofNat 8 (k.val % 4)) else i.amo.operandB

def rtype : ReqType :=
  if amoSel q then (if q.state == .AMO then .ATOMIC else .LOAD)
  else if sendsStore q i then .STORE else .LOAD

def memData : MemReq :=
  let m := i.miss (missPortIdx q i)
  let size : BitVec 3 := if amoSel q then i.amo.size.setWidth 3 else m.size
  { rtype := rtype q i
    size := size
    paddr := paddrSizeAlign (if amoSel q then i.amo.paddr else m.paddr) size
    data := if amoSel q then amoData i else m.wdata
    nc := amoSel q || m.nc
    tid := if amoSel q then amoTxId else m.id
    amoOp := if amoSel q then i.amo.op else .NONE }

def mshrD : Mshr :=
  if mshrAllocate q i then
    let m := i.miss (missPortIdx q i)
    ⟨m.paddr, m.size, m.vldBits, m.id, m.nc, replWay q i, missPortIdx q i⟩
  else q.mshr

def storeSent : Bool := memDataReq q i && i.memDataAck && rtype q i == .STORE

def storesInflightD : BitVec 3 :=
  if storeAck q i && storeSent q i then q.storesInflightQ
  else if storeAck q i then q.storesInflightQ - 1
  else if storeSent q i then q.storesInflightQ + 1
  else q.storesInflightQ

def next : Regs where
  state := stateD q i
  cnt := if flushEn q then q.cnt + 1 else 0
  enableQ := enableD q i
  flushAckQ := flushAckD q i
  mshrVldQ := if mshrAllocate q i then true else if loadAck q i then false else q.mshrVldQ
  mshrVldQ1 := q.mshrVldQ
  mshr := mshrD q i
  rdrdCollisionQ := rdrdCollisionD q i
  missReqMaskedQ := missReqMasked q i
  amoReqQ := i.amo.req
  storesInflightQ := storesInflightD q i

/-! ## Atomics -/

section Atomics

variable {q i}

/-- The miss unit turns to an atomic from `IDLE`, when the write buffer is empty and no read is
outstanding, and leaves it with the answer. -/
theorem of_amoSel_next (h : amoSel (next q i) = true) :
    (q.state = .IDLE ∧ i.amo.req = true ∧ i.wbufferEmpty = true ∧ q.mshrVldQ = false) ∨
      (amoSel q = true ∧ (q.state = .AMO_WAIT → amoAck q i = false)) := by
  have h : (stateD q i == .AMO || stateD q i == .AMO_WAIT) = true := h
  cases hs : q.state <;> simp only [stateD, hs] at h
  case IDLE =>
    refine .inl ⟨rfl, ?_⟩
    split_ifs at h with _ _ hreq hempty
    all_goals first | exact absurd h (by decide) | skip
    rw [Bool.and_eq_true, Bool.not_eq_true'] at hempty
    exact ⟨hreq, hempty⟩
  case AMO => exact .inr ⟨by rw [amoSel, hs]; rfl, fun h => by cases h⟩
  case AMO_WAIT =>
    refine .inr ⟨by rw [amoSel, hs]; rfl, fun _ => ?_⟩
    split_ifs at h with hack
    · cases h
    · exact Bool.eq_false_iff.mpr hack
  all_goals
    split_ifs at h
    all_goals cases h

theorem stateD_eq_amoWait_iff : stateD q i = .AMO_WAIT ↔
    (q.state = .AMO ∧ (sendsAmo q i && i.memDataAck) = true) ∨
      (q.state = .AMO_WAIT ∧ amoAck q i = false) := by
  cases hs : q.state <;> simp only [stateD, hs] <;> split_ifs <;> simp_all

end Atomics

end Cva6.Dcache.Missunit
