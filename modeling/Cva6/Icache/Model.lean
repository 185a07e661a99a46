import Cva6.Pkg
import Cva6.Sync.Machine
import Mathlib.Data.Fintype.BigOperators
import Mathlib.Data.List.FinRange
/-!
# The instruction cache

`wt_icache.sv` for the 16 KiB cache with 4 ways and lines of four 32-bit words, on a
64-bit AXI bus (`Axi64BitCompliant`). An offset inside a line is kept in words, and
the random replacement way is an input. Without an MMU the load-store unit answers
every translation request at once with the address it was given.
-/

namespace Cva6.Icache

open Cva6.Sync

abbrev Idx := BitVec 8
abbrev Tag := BitVec 20
/-- The word inside a line. -/
abbrev Offset := BitVec 2
abbrev Way := Fin 4
abbrev Line := Offset → XLen
/-- The address of an aligned 32-bit word. -/
abbrev WordAddr := BitVec 30

def tagOf (a : XLen) : Tag := a.extractLsb' 12 20
def idxOf (a : XLen) : Idx := a.extractLsb' 4 8
def offsetOf (a : XLen) : Offset := a.extractLsb' 2 2
def wordOf (a : XLen) : WordAddr := a.extractLsb' 2 30

def wordIn (tag : Tag) (idx : Idx) (off : Offset) : WordAddr := tag ++ idx ++ off

theorem wordIn_of (a : XLen) : wordIn (tagOf a) (idxOf a) (offsetOf a) = wordOf a := by
  unfold wordIn tagOf idxOf offsetOf wordOf
  ext k hk
  simp only [BitVec.getElem_append, BitVec.getElem_extractLsb']
  split
  · rfl
  · split <;> congr 1 <;> omega

structure TagLine where
  vld : Bool
  tag : Tag
  deriving DecidableEq, Repr, Inhabited

/-- `icache_dreq_i_t`: what the frontend asks for. -/
structure Dreq where
  req : Bool
  killS1 : Bool
  killS2 : Bool
  vaddr : XLen
  deriving DecidableEq, Repr, Inhabited

inductive RtrnType where
  | INV_REQ | IFILL_ACK
  deriving DecidableEq, Repr, Inhabited

structure Inval where
  vld : Bool
  all : Bool
  idx : Idx
  way : Way
  deriving DecidableEq, Repr, Inhabited

structure Rtrn where
  rtype : RtrnType
  data : Line
  inv : Inval
  deriving Inhabited

/-- The answer of the address translation, `icache_areq_i_t`. -/
structure Areq where
  fetchValid : Bool
  fetchPaddr : XLen
  fetchException : Bool
  deriving DecidableEq, Repr, Inhabited

inductive FsmState where
  | FLUSH | IDLE | READ | MISS | TLB_MISS | KILL_ATRANS | KILL_MISS
  deriving DecidableEq, Repr, Inhabited

structure Regs where
  state : FsmState
  clTagQ : Tag
  flushCntQ : Idx
  vaddrQ : XLen
  cmpEnQ : Bool
  cacheEnQ : Bool
  flushQ : Bool
  clOffsetQ : Offset
  replWayOhQ : Way → Bool
  /-- The tag SRAMs, which also hold the valid bits. -/
  tags : Idx → Way → TagLine
  data : Idx → Way → Line
  /-- The output registers of the tag SRAMs. -/
  tagRdata : Way → TagLine
  clRdata : Way → Line

/-- After reset the SRAMs hold anything. -/
def reset (tags : Idx → Way → TagLine) (data : Idx → Way → Line) : Regs where
  state := .IDLE
  clTagQ := 0
  flushCntQ := 0
  vaddrQ := 0
  cmpEnQ := false
  cacheEnQ := false
  flushQ := false
  clOffsetQ := 0
  replWayOhQ := fun _ => false
  tags := tags
  data := data
  tagRdata := fun _ => default
  clRdata := fun _ _ => 0

structure Input where
  flush : Bool
  en : Bool
  dreq : Dreq
  memDataAck : Bool
  memRtrnVld : Bool
  memRtrn : Rtrn
  rndWay : Way
  deriving Inhabited

section Cycle

-- `cacheable` is `is_inside_cacheable_regions`, which is decided by the tag.
variable (cacheable : Tag → Bool) (q : Regs) (i : Input)

/-! ## Address translation -/

def fetchReq : Bool :=
  match q.state with
  | .READ | .TLB_MISS | .KILL_ATRANS => true
  | _ => false

/-- The load-store unit without an MMU. -/
def areq : Areq := ⟨fetchReq q, q.vaddrQ &&& ~~~3#32, false⟩

def clTagD : Tag := if (areq q).fetchValid then tagOf (areq q).fetchPaddr else q.clTagQ

def paddrIsNc : Bool := !q.cacheEnQ || !cacheable (clTagD q)

/-! ## Hit generation -/

def clHit (w : Way) : Bool := (q.tagRdata w).tag == clTagD q && (q.tagRdata w).vld

def lzcWay (m : Way → Bool) : Way := ((List.finRange 4).find? m).getD 3

def anyWay (m : Way → Bool) : Bool := decide (∃ w, m w = true)

def bin2oh (w : Way) : Way → Bool := fun j => j == w

def allWaysValid : Bool := !anyWay fun w => !(q.tagRdata w).vld

def replWay : Way :=
  if allWaysValid q then i.rndWay else lzcWay fun w => !(q.tagRdata w).vld

/-! ## The process `p_fsm` -/

structure Fsm where
  stateD : FsmState
  cacheEnD : Bool
  flushEn : Bool
  cmpEnD : Bool
  cacheRden : Bool
  cacheWren : Bool
  flushD : Bool
  ready : Bool
  valid : Bool
  memDataReq : Bool

def rtrns (t : RtrnType) : Bool := i.memRtrnVld && i.memRtrn.rtype == t

def invEn : Bool := rtrns i .INV_REQ

def flushDone : Bool := q.flushCntQ == 255

/-- The pending flush, before the state has its say. -/
def flushPending : Bool := q.flushQ || i.flush

def idleFsm : Fsm where
  stateD := q.state
  cacheEnD := q.cacheEnQ && i.en
  flushEn := false
  cmpEnD := false
  cacheRden := false
  cacheWren := false
  flushD := flushPending q i
  ready := false
  valid := false
  memDataReq := false

def fsmFlush : Fsm :=
  let o := { idleFsm q i with flushEn := true }
  if flushDone q then { o with stateD := .IDLE, flushD := false, cacheEnD := i.en } else o

def fsmIdle : Fsm :=
  let o := { idleFsm q i with cmpEnD := q.cacheEnQ }
  if flushPending q i || (i.en && !q.cacheEnQ) then { o with stateD := .FLUSH }
  else
    let o :=
      if !i.memRtrnVld then
        if i.dreq.req then { o with ready := true, cacheRden := true, stateD := .READ }
        else { o with ready := true }
      else o
    if i.dreq.killS1 then { o with stateD := .IDLE } else o

def fsmRead : Fsm :=
  let o := { idleFsm q i with stateD := .TLB_MISS, cmpEnD := q.cacheEnQ, cacheRden := q.cacheEnQ }
  if (areq q).fetchValid then
    if flushPending q i then { o with stateD := .IDLE }
    else if (anyWay (clHit q) && q.cacheEnQ) || (areq q).fetchException then
      let o := { o with valid := !i.dreq.killS2, stateD := .IDLE }
      let o :=
        if !i.memRtrnVld then
          if i.dreq.req then { o with ready := true, stateD := .READ } else { o with ready := true }
        else o
      if i.dreq.killS1 then { o with stateD := .IDLE } else o
    else if i.dreq.killS2 then { o with stateD := .IDLE }
    else
      let o := { o with cmpEnD := false, memDataReq := true }
      if i.memDataAck then { o with stateD := .MISS } else o
  else if i.dreq.killS2 || flushPending q i then { o with stateD := .KILL_ATRANS }
  else o

def fsmTlbMiss : Fsm :=
  let o := { idleFsm q i with cmpEnD := q.cacheEnQ, cacheRden := q.cacheEnQ }
  if (areq q).fetchValid then
    if i.dreq.killS2 || flushPending q i then { o with stateD := .IDLE }
    else if (areq q).fetchException then { o with valid := true, stateD := .IDLE }
    else if !i.memRtrnVld then { o with stateD := .READ }
    else o
  else if i.dreq.killS2 || flushPending q i then { o with stateD := .KILL_ATRANS }
  else o

def fsmMiss : Fsm :=
  let o := idleFsm q i
  if rtrns i .IFILL_ACK then
    if !(i.dreq.killS2 || flushPending q i) then
      { o with stateD := .IDLE, valid := true, cacheWren := !paddrIsNc cacheable q }
    else { o with stateD := .IDLE }
  else if i.dreq.killS2 || flushPending q i then { o with stateD := .KILL_MISS }
  else o

def fsm : Fsm :=
  match q.state with
  | .FLUSH => fsmFlush q i
  | .IDLE => fsmIdle q i
  | .READ => fsmRead q i
  | .TLB_MISS => fsmTlbMiss q i
  | .MISS => fsmMiss cacheable q i
  | .KILL_ATRANS =>
      if (areq q).fetchValid then { idleFsm q i with stateD := .IDLE } else idleFsm q i
  | .KILL_MISS =>
      if rtrns i .IFILL_ACK then { idleFsm q i with stateD := .IDLE } else idleFsm q i

/-! ## Outputs -/

structure FillReq where
  tag : Tag
  idx : Idx
  off : Offset
  nc : Bool
  deriving DecidableEq, Repr, Inhabited

/-- `mem_data_o`: a non-cacheable request asks for the 64-bit word of the address. -/
def memData : FillReq :=
  let nc := paddrIsNc cacheable q
  ⟨clTagD q, idxOf q.vaddrQ, if nc then offsetOf q.vaddrQ &&& 2 else 0, nc⟩

def accepts : Bool := (fsm cacheable q i).ready && i.dreq.req

def dataO : XLen :=
  if q.cmpEnQ then q.clRdata (lzcWay (clHit q)) q.clOffsetQ else i.memRtrn.data q.clOffsetQ

/-! ## The clocked process -/

def vaddrD : XLen := if accepts cacheable q i then i.dreq.vaddr else q.vaddrQ

def clIndex : Idx := idxOf (vaddrD cacheable q i)

def clOffsetD : Offset :=
  if accepts cacheable q i then offsetOf i.dreq.vaddr
  else if paddrIsNc cacheable q && (fsm cacheable q i).memDataReq then q.clOffsetQ &&& 1
  else q.clOffsetQ

def flushCntD : Idx :=
  if flushDone q then 0 else if (fsm cacheable q i).flushEn then q.flushCntQ + 1 else q.flushCntQ

def vldAddr : Idx :=
  if (fsm cacheable q i).flushEn then q.flushCntQ
  else if invEn i then i.memRtrn.inv.idx
  else clIndex cacheable q i

def vldReq (w : Way) : Bool :=
  if (fsm cacheable q i).flushEn || (fsm cacheable q i).cacheRden then true
  else if i.memRtrn.inv.all && invEn i then true
  else if i.memRtrn.inv.vld && invEn i then bin2oh i.memRtrn.inv.way w
  else q.replWayOhQ w

def vldWe : Bool := (fsm cacheable q i).cacheWren || invEn i || (fsm cacheable q i).flushEn

def clReq (w : Way) : Bool :=
  if (fsm cacheable q i).cacheRden then true
  else (fsm cacheable q i).cacheWren && q.replWayOhQ w

def tagsNext (x : Idx) (w : Way) : TagLine :=
  if vldWe cacheable q i && vldReq cacheable q i w && x == vldAddr cacheable q i then
    ⟨(fsm cacheable q i).cacheWren, q.clTagQ⟩
  else q.tags x w

def dataNext (x : Idx) (w : Way) : Line :=
  if (fsm cacheable q i).cacheWren && clReq cacheable q i w && x == clIndex cacheable q i then
    i.memRtrn.data
  else q.data x w

def next : Regs where
  state := (fsm cacheable q i).stateD
  clTagQ := clTagD q
  flushCntQ := flushCntD cacheable q i
  vaddrQ := vaddrD cacheable q i
  cmpEnQ := (fsm cacheable q i).cmpEnD
  cacheEnQ := (fsm cacheable q i).cacheEnD
  flushQ := (fsm cacheable q i).flushD
  clOffsetQ := clOffsetD cacheable q i
  replWayOhQ := if q.cmpEnQ then bin2oh (replWay q i) else q.replWayOhQ
  tags := tagsNext cacheable q i
  data := dataNext cacheable q i
  tagRdata := fun w =>
    if vldReq cacheable q i w then q.tags (vldAddr cacheable q i) w else q.tagRdata w
  clRdata := fun w =>
    if clReq cacheable q i w then q.data (clIndex cacheable q i) w else q.clRdata w

end Cycle

end Cva6.Icache
