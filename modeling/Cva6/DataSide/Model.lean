import Cva6.Core.Model
import Cva6.Dcache.Model
import Cva6.Lsu.Model
/-!
# The core with its load-store unit and its data cache

The core, the load-store unit and the data cache, wired as in `ariane.sv`, `ex_stage.sv` and
`load_store_unit.sv`. The port of the page table walker is tied off (`MMU_PRESENT = 0`). The
instruction offered to issue, the other functional units, the CSR buffer, the platform and
the memory side are the environment.
-/

namespace Cva6.DataSide

open Cva6.Sync Cva6.Issue Cva6.Lsu
open Cva6.Dcache (paddrOf)

/-! ## The regions of `ariane_cfg_t` -/

structure Region where
  base : BitVec 64
  length : BitVec 64
  deriving DecidableEq, Repr

def rangeCheck (r : Region) (address : BitVec 64) : Bool :=
  decide (r.base ≤ address) && decide (address < r.base + r.length)

structure ArianeCfg where
  nonIdempotent : List Region
  cachedRegion : List Region

def isInsideNonidempotentRegions (c : ArianeCfg) (address : BitVec 64) : Bool :=
  c.nonIdempotent.any fun r => rangeCheck r address

def isInsideCacheableRegions (c : ArianeCfg) (address : BitVec 64) : Bool :=
  c.cachedRegion.any fun r => rangeCheck r address

/-- The first address of a page, `{tag, 12'b0}`, which stands for the page in every check. -/
def pageBase (tag : BitVec 20) : BitVec 64 := (tag ++ 0#12).setWidth 64

/-- What the load unit and the data cache see of the regions. -/
def ArianeCfg.pages (c : ArianeCfg) : Dcache.Cfg where
  cacheable tag := isInsideCacheableRegions c (pageBase tag)
  nonIdempotent tag := isInsideNonidempotentRegions c (pageBase tag)

/-! ## The ports of the data cache -/

def wordOf (d : BitVec 64) : Dcache.Word := fun k => d.extractLsb' (8 * k.val) 8

def ofWord (w : Dcache.Word) : BitVec 64 :=
  w 7 ++ w 6 ++ w 5 ++ w 4 ++ w 3 ++ w 2 ++ w 1 ++ w 0

def storeReq (q : StoreBuffer.Regs) : Dcache.StoreReq :=
  let p := StoreBuffer.reqPort q
  { wtag := ⟨p.addressTag, p.addressIndex.extractLsb' 4 8,
      if p.addressIndex.getLsbD 3 then 1 else 0⟩
    wdata := wordOf p.dataWdata
    be := Dcache.lanes p.dataBe
    dataReq := StoreBuffer.dataReq q }

/-- `dcache_req_ports_o[0]` without an MMU. -/
def ptwReq : Dcache.LoadReq := ⟨0, 0, 0, 0, false, 3, false, false⟩

/-- `amo_req_o`. What the buffer shows while it is empty is given by `idle`. -/
def amoReq (amo : Option StoreUnit.AmoEntry) (req : Bool) (idle : Dcache.AmoReq) : Dcache.AmoReq :=
  match amo with
  | some e => ⟨req, e.op, e.size, paddrOf e.paddr, wordOf (e.data.setWidth 64)⟩
  | none => { idle with req := req }

@[simp] theorem amoReq_req (amo : Option StoreUnit.AmoEntry) (req : Bool) (idle : Dcache.AmoReq) :
    (amoReq amo req idle).req = req := by
  cases amo <;> rfl

/-! ## Wiring -/

structure Input where
  /-- The environment of the core; what the load-store unit and the data cache drive is
  replaced, and the write-back ports are those of the other units. -/
  core : Core.Input
  /-- The environment of the data cache; its ports are replaced. -/
  dc : Dcache.Input

structure State where
  core : Core.State
  bypass : Bypass.Regs
  load : LoadUnit.Regs
  mmuPaddr : BitVec 32
  /-- `i_pipe_reg_load`. -/
  loadPipe : LoadUnit.Output
  dc : Dcache.State

def fuData (q : ReadOperands.Regs) : FuData :=
  ⟨q.fu, q.operator, q.operandA, q.operandB, q.imm, q.transId⟩

def lsu (s : State) : Lsu.State where
  lsuValid := s.core.iro.lsuValid
  fuData := fuData s.core.iro
  bypass := s.bypass
  load := s.load
  store := s.core.st
  mmuPaddr := s.mmuPaddr
  loadPipe := s.loadPipe

variable (cfg : Dcache.Cfg) (s : State) (i : Input)

/-- The atomic the buffer holds, before the commit stage has asked for it. -/
def heldAmo : Dcache.AmoReq := amoReq s.core.st.amo false i.dc.amo

def amoResp : AmoResp where
  ack := Dcache.Missunit.amoRespAck s.dc.hw.miss (Dcache.missIn cfg s.dc.hw i.dc)
  result := Dcache.Missunit.amoResult
    (Dcache.missIn cfg s.dc.hw { i.dc with amo := heldAmo s i })

/-- What the commit stage and the controller see; the write-back ports play no part in it. -/
def commitIn : Core.Input :=
  { i.core with
    lsuReady := lsuReady (lsu s)
    lsuCtrl := lsuCtrl (lsu s)
    dtlbHit := true
    exValid := mmuException.valid
    paddr := s.mmuPaddr
    dcacheWbufferEmpty := Dcache.Wbuffer.emptyO s.dc.hw.wbuf
    amoResp := amoResp cfg s i }

def out : Commit.Output := Core.out s.core (commitIn cfg s i)

def flushes : Controller.Output := Core.flushes s.core (commitIn cfg s i)

/-- `dcache_commit_wbuffer_not_ni`. -/
def wbufferNotNi : Bool := !Dcache.any s.dc.hw.wbuf.niPending

/-- The inputs of the load-store unit that the data cache does not answer. -/
def lsuReqIn : Lsu.Input where
  flush := (flushes cfg s i).flushEx
  fuData := default
  issueValid := false
  commit := (out cfg s i).commitLsu
  commitTranId := (Scoreboard.commitInstr s.core.sb).instr0.transId
  amoValidCommit := (out cfg s i).amoValidCommit
  amoAck := (amoResp cfg s i).ack
  storeGnt := false
  loadGnt := false
  loadRvalid := false
  loadRdata := 0
  dcacheWbufferNotNi := wbufferNotNi s

def storeIn : StoreUnit.Input := Lsu.storeIn (lsu s) (lsuReqIn cfg s i)

def dcIn : Dcache.Input :=
  { i.dc with
    loads := fun p => if p = 0 then ptwReq else loadReq cfg.nonIdempotent (lsu s) (lsuReqIn cfg s i)
    store := storeReq s.core.st.buffer
    amo := amoReq s.core.st.amo (StoreUnit.amoReq s.core.st (storeIn cfg s i)) i.dc.amo }

def lsuWb : List Scoreboard.WbPort :=
  [⟨s.core.st.unit.transId, 0, mmuException, (storeOut (lsu s) (lsuReqIn cfg s i)).valid⟩,
    ⟨s.loadPipe.transId, s.loadPipe.result, s.loadPipe.ex, s.loadPipe.valid⟩]

def coreIn : Core.Input :=
  { commitIn cfg s i with
    wb := lsuWb cfg s i ++ i.core.wb
    dataGnt := Dcache.storeGnt cfg s.dc.hw (dcIn cfg s i) }

def issueValid : Bool :=
  let j := Core.iroIn s.core (coreIn cfg s i)
  !j.issueInstr.ex.valid && j.issueInstrValid && ReadOperands.issueAck s.core.iro j && !j.flush

def lsuIn : Lsu.Input :=
  { lsuReqIn cfg s i with
    fuData := fuData (ReadOperands.next s.core.iro (Core.iroIn s.core (coreIn cfg s i)))
    issueValid := issueValid cfg s i
    storeGnt := Dcache.storeGnt cfg s.dc.hw (dcIn cfg s i)
    loadGnt := Dcache.Ctrl.dataGnt (s.dc.hw.ctrl 1) (Dcache.ctrlIn cfg s.dc.hw (dcIn cfg s i) 1)
    loadRvalid := Dcache.rvalid cfg s.dc.hw (dcIn cfg s i) 1
    loadRdata := ofWord (Dcache.rdata cfg s.dc.hw (dcIn cfg s i)) }

def dataSide (z : Dcache.Start) : Machine State Input where
  init :=
    { core := Core.core.init
      bypass := Bypass.reset
      load := LoadUnit.reset
      mmuPaddr := 0
      loadPipe := default
      dc := Dcache.start z }
  next s i :=
    { core := Core.core.next s.core (coreIn cfg s i)
      bypass := Bypass.next s.bypass (bypassIn cfg.nonIdempotent (lsu s) (lsuIn cfg s i))
      load := LoadUnit.next s.load (loadIn cfg.nonIdempotent (lsu s) (lsuIn cfg s i))
      mmuPaddr := mmuVaddr (lsu s)
      loadPipe := LoadUnit.output s.load (loadIn cfg.nonIdempotent (lsu s) (lsuIn cfg s i))
      dc := s.dc.next cfg (dcIn cfg s i) }

end Cva6.DataSide
