import Cva6.Frontend.Queue
import Cva6.Icache.Model
/-!
# The frontend

`frontend.sv` with the return address stack (`ras.sv`, two entries), the branch history
table (`bht.sv`, 128 entries) and the branch target buffer (`btb.sv`, 32 entries). The
answers of the instruction cache are inputs.
-/

namespace Cva6.Frontend

open Cva6.Sync

/-! ## Predictors -/

structure RasEntry where
  valid : Bool
  ra : XLen
  deriving DecidableEq, Repr, Inhabited

/-- The return address stack; `top` is `stack_q[0]`. -/
structure Ras where
  top : RasEntry
  bottom : RasEntry
  deriving DecidableEq, Repr, Inhabited

def Ras.next (r : Ras) (flush push pop : Bool) (data : XLen) : Ras :=
  let d := r
  let d := if push then ⟨⟨true, data⟩, r.top⟩ else d
  let d := if pop then ⟨r.bottom, ⟨false, 0⟩⟩ else d
  let d := if pop && push then { r with top := ⟨true, data⟩ } else d
  if flush then ⟨⟨false, 0⟩, ⟨false, 0⟩⟩ else d

structure BhtEntry where
  valid : Bool
  saturationCounter : BitVec 2
  deriving DecidableEq, Repr, Inhabited

/-- One row for each word of the code, with an entry for each of its halves. -/
abbrev Bht := BitVec 6 → Bool → BhtEntry

def bhtRow (a : XLen) : BitVec 6 := a.extractLsb 7 2

def saturate (c : BitVec 2) (taken : Bool) : BitVec 2 :=
  if taken then if c = 3 then c else c + 1
  else if c = 0 then c else c - 1

def Bht.next (b : Bht) (flush debugMode : Bool) (r : BpResolve) : Bht := fun x h =>
  if flush then ⟨false, 0b10⟩
  else if r.valid && r.cfType == .Branch && !debugMode && x == bhtRow r.pc && h == r.pc.getLsbD 1 then
    ⟨true, saturate (b x h).saturationCounter r.isTaken⟩
  else b x h

structure BtbPrediction where
  valid : Bool
  targetAddress : XLen
  deriving DecidableEq, Repr, Inhabited

abbrev Btb := BitVec 4 → Bool → BtbPrediction

def btbRow (a : XLen) : BitVec 4 := a.extractLsb 5 2

def Btb.next (b : Btb) (flush debugMode : Bool) (r : BpResolve) : Btb := fun x h =>
  if flush then { b x h with valid := false }
  else if r.valid && r.isMispredict && r.cfType == .JumpR && !debugMode && x == btbRow r.pc &&
      h == r.pc.getLsbD 1 then
    ⟨true, r.targetAddress⟩
  else b x h

/-! ## State and inputs -/

structure IcacheRsp where
  ready : Bool
  valid : Bool
  data : BitVec 32
  vaddr : XLen
  exCause : XLen
  deriving DecidableEq, Repr, Inhabited

structure Input where
  flush : Bool
  flushBp : Bool
  debugMode : Bool
  bootAddr : XLen
  resolvedBranch : BpResolve
  setPcCommit : Bool
  pcCommit : XLen
  epc : XLen
  eret : Bool
  trapVectorBase : XLen
  exValid : Bool
  setDebugPc : Bool
  icache : IcacheRsp
  fetchEntryReady : Bool
  deriving DecidableEq, Repr, Inhabited

structure Regs where
  npcRstLoad : Bool
  npc : XLen
  icacheData : BitVec 32
  icacheValid : Bool
  icacheVaddr : XLen
  icacheEx : FrontendException
  /-- The prediction for the upper half of the previous fetch. -/
  btbQ : BtbPrediction
  bhtQ : BhtEntry
  realign : Realign.Regs
  ras : Ras
  btb : Btb
  bht : Bht
  queue : Queue.Regs

def reset : Regs where
  npcRstLoad := true
  npc := 0
  icacheData := 0
  icacheValid := false
  icacheVaddr := 0
  icacheEx := .FE_NONE
  btbQ := ⟨false, 0⟩
  bhtQ := ⟨false, 0⟩
  realign := Realign.reset
  ras := ⟨⟨false, 0⟩, ⟨false, 0⟩⟩
  btb := fun _ _ => ⟨false, 0⟩
  bht := fun _ _ => ⟨false, 0⟩
  queue := Queue.reset

variable (q : Regs) (i : Input)

/-! ## The scanned packet -/

def realignIn (flush : Bool) : Realign.Input := ⟨flush, q.icacheValid, q.icacheVaddr, q.icacheData⟩

def slot (j : Bool) : Realign.Slot :=
  if j then Realign.slot1 q.realign (realignIn q false)
  else Realign.slot0 q.realign (realignIn q false)

def scan (j : Bool) : Scan := instrScan (slot q j).instr

def isBranch (j : Bool) : Bool := (slot q j).valid && ((scan q j).rviBranch || (scan q j).rvcBranch)
def isCall (j : Bool) : Bool := (slot q j).valid && ((scan q j).rviCall || (scan q j).rvcCall)
def isReturn (j : Bool) : Bool := (slot q j).valid && ((scan q j).rviReturn || (scan q j).rvcReturn)
def isJump (j : Bool) : Bool := (slot q j).valid && ((scan q j).rviJump || (scan q j).rvcJump)
def isJalr (j : Bool) : Bool :=
  (slot q j).valid && !isReturn q j && !isCall q j &&
    ((scan q j).rviJalr || (scan q j).rvcJalr || (scan q j).rvcJr)

def bhtPrediction (j : Bool) : BhtEntry :=
  if j then q.bht (bhtRow q.icacheVaddr) ((slot q true).addr.getLsbD 1)
  else if q.realign.unaligned then q.bhtQ else q.bht (bhtRow q.icacheVaddr) false

def btbPrediction (j : Bool) : BtbPrediction :=
  if j then q.btb (btbRow q.icacheVaddr) ((slot q true).addr.getLsbD 1)
  else if q.realign.unaligned then q.btbQ else q.btb (btbRow q.icacheVaddr) false

/-- The branch of slot `j` is predicted taken: dynamically, or else when it goes back. -/
def branchTaken (j : Bool) (imm : XLen) : Bool :=
  if (bhtPrediction q j).valid then (bhtPrediction q j).saturationCounter.getLsbD 1
  else imm.getLsbD 31

/-- The cases of the prediction, from the bits `is_branch`, `is_return`, `is_jump` and
`is_jalr`; more than one of them set is no case. -/
inductive Case where
  | regular | jalr | jump | ret | branch | other
  deriving DecidableEq, Repr

def caseOf (j : Bool) : Case :=
  match isBranch q j, isReturn q j, isJump q j, isJalr q j with
  | false, false, false, false => .regular
  | false, false, false, true => .jalr
  | false, false, true, false => .jump
  | false, true, false, false => .ret
  | true, false, false, false => .branch
  | _, _, _, _ => .other

def takenRviCf (j : Bool) : Bool :=
  match caseOf q j with
  | .jump => (scan q j).rviJump
  | .branch => (scan q j).rviBranch && branchTaken q j (scan q j).rviImm
  | _ => false

def takenRvcCf (j : Bool) : Bool :=
  match caseOf q j with
  | .jump => (scan q j).rvcJump
  | .branch => (scan q j).rvcBranch && branchTaken q j (scan q j).rvcImm
  | _ => false

def cfType (j : Bool) : Cf :=
  match caseOf q j with
  | .jalr => if (btbPrediction q j).valid then .JumpR else .NoCF
  | .jump => .Jump
  | .ret => .Return
  | .branch => if takenRviCf q j || takenRvcCf q j then .Branch else .NoCF
  | .regular | .other => .NoCF

/-- What slot `j` assigns to `predict_address`. -/
def target (j : Bool) : Option XLen :=
  if takenRvcCf q j || takenRviCf q j then
    some ((slot q j).addr + if takenRvcCf q j then (scan q j).rvcImm else (scan q j).rviImm)
  else
    match caseOf q j with
    | .jalr => if (btbPrediction q j).valid then some (btbPrediction q j).targetAddress else none
    | .ret => some q.ras.top.ra
    | _ => none

/-- The lower slot is assigned last. -/
def predictAddress : XLen := (target q false).getD ((target q true).getD 0)

def bpValid : Bool :=
  let predicts (cf : Cf) : Bool := (cf != .NoCF && cf != .Return) || (cf == .Return && q.ras.top.valid)
  predicts (cfType q false) || predicts (cfType q true)

/-! ## The queue and the cache -/

def queueIn : Queue.Input where
  flush := i.flush
  slots := slot q
  exception := q.icacheEx
  exceptionAddr := q.icacheVaddr
  predictAddress := predictAddress q
  cfType := cfType q
  fetchEntryReady := i.fetchEntryReady

def replay : Bool := Queue.replay q.queue (queueIn q i)

def isMispredict : Bool := i.resolvedBranch.valid && i.resolvedBranch.isMispredict

def ifReady : Bool := i.icache.ready && Queue.ready q.queue

def killS1 : Bool := isMispredict i || i.flush || replay q i

def killS2 : Bool := killS1 q i || bpValid q

/-- Where the fetch would go on without a prediction. -/
def npcQ : XLen := if q.npcRstLoad then i.bootAddr else q.npc

def fetchAddress : XLen := if bpValid q then predictAddress q else npcQ q i

def icacheDreq : Icache.Dreq := ⟨Queue.ready q.queue, killS1 q i, killS2 q i, fetchAddress q i⟩

def nextWord (a : XLen) : XLen := a.extractLsb 31 2 ++ 0#2 + 4

/-- `DmBaseAddress + dm::HaltAddress`. -/
def debugAddress : XLen := 0x800

def npcD : XLen :=
  let npc := fetchAddress q i
  let npc := if ifReady q i then nextWord (fetchAddress q i) else npc
  let npc := if replay q i then Queue.replayAddr q.queue (queueIn q i) else npc
  let npc := if isMispredict i then i.resolvedBranch.targetAddress else npc
  let npc := if i.eret then i.epc else npc
  let npc := if i.exValid then i.trapVectorBase else npc
  let npc := if i.setPcCommit then i.pcCommit + 4 else npc
  if i.setDebugPc then debugAddress else npc

/-! ## The return address stack -/

structure RasUpdate where
  push : Bool
  pop : Bool
  update : XLen

def rasStep (u : RasUpdate) (j : Bool) : RasUpdate :=
  let consumed := Queue.consumed q.queue (queueIn q i) j
  let u :=
    match caseOf q j with
    | .jalr | .jump | .branch => { u with push := false, pop := false }
    | .ret => { u with push := false, pop := q.ras.top.valid && consumed }
    | .regular | .other => u
  if isCall q j then
    { u with
      push := consumed, update := (slot q j).addr + if (scan q j).rvcCall then 2 else 4 }
  else u

def rasUpdate : RasUpdate := rasStep q i (rasStep q i ⟨false, false, 0⟩ true) false

/-! ## The clocked process -/

/-- The fetched word, shifted to its first parcel. -/
def icacheData (r : IcacheRsp) : BitVec 32 := if r.vaddr.getLsbD 1 then r.data >>> 16 else r.data

def exOf (cause : XLen) : FrontendException :=
  if cause = Riscv.instrPageFault then .FE_INSTR_PAGE_FAULT
  else if cause = Riscv.instrAccessFault then .FE_INSTR_ACCESS_FAULT
  else .FE_NONE

def next : Regs where
  npcRstLoad := false
  npc := npcD q i
  icacheData := if i.icache.valid then icacheData i.icache else q.icacheData
  icacheValid := i.icache.valid
  icacheVaddr := if i.icache.valid then i.icache.vaddr else q.icacheVaddr
  icacheEx := if i.icache.valid then exOf i.icache.exCause else q.icacheEx
  btbQ := if i.icache.valid then q.btb (btbRow q.icacheVaddr) true else q.btbQ
  bhtQ := if i.icache.valid then q.bht (bhtRow q.icacheVaddr) true else q.bhtQ
  realign := Realign.next q.realign (realignIn q (killS2 q i))
  ras := q.ras.next i.flushBp (rasUpdate q i).push (rasUpdate q i).pop (rasUpdate q i).update
  btb := q.btb.next i.flushBp i.debugMode i.resolvedBranch
  bht := q.bht.next i.flushBp i.debugMode i.resolvedBranch
  queue := Queue.next q.queue (queueIn q i)

def frontend : Machine Regs Input := ⟨reset, next⟩

def delivered : List FetchEntry :=
  if Queue.fetchEntryValid q.queue && i.fetchEntryReady then [Queue.fetchEntry q.queue] else []

end Cva6.Frontend
