import Cva6.Frontend.Queue
/-!
# The decode stage

`id_stage.sv`: the compressed decoder, the decoder and the register in front of the
issue stage.
-/

namespace Cva6.IdStage

open Cva6.Frontend (FetchEntry)

/-- What the decoder reads of the state of the hart. -/
structure Hart where
  debugReq : Bool
  irq : BitVec 2
  irqCtrl : Decoder.IrqCtrl
  privLvl : Riscv.PrivLvl
  debugMode : Bool
  tvm : Bool
  tw : Bool
  tsr : Bool
  deriving DecidableEq, Repr, Inhabited

def decoderIn (c : Hart) (e : FetchEntry) : Decoder.Input :=
  let o := CompressedDecoder.compressedDecoder e.instruction
  { debugReq := c.debugReq
    pc := e.address
    isCompressed := o.isCompressed
    compressedInstr := e.instruction.extractLsb 15 0
    isIllegal := o.illegalInstr
    instruction := o.instr
    branchPredict := e.branchPredict
    ex := e.ex
    irq := c.irq
    irqCtrl := c.irqCtrl
    privLvl := c.privLvl
    debugMode := c.debugMode
    tvm := c.tvm
    tw := c.tw
    tsr := c.tsr }

def decodedInstruction (c : Hart) (e : FetchEntry) : ScoreboardEntry :=
  Decoder.instructionO (decoderIn c e)

/-! ## The register -/

/-- `issue_q`. It is kept with what the decoder was given; `issue_q.sbe` is the answer of
the decoder to it. -/
structure Regs where
  valid : Bool
  fetch : Decoder.Input
  deriving DecidableEq, Repr, Inhabited

def reset : Regs := ⟨false, default⟩

structure Input where
  flush : Bool
  hart : Hart
  fetchEntry : FetchEntry
  fetchEntryValid : Bool
  issueInstrAck : Bool
  deriving DecidableEq, Repr, Inhabited

variable (q : Regs) (i : Input)

/-- There is space in the register, or there will be. -/
def fetchEntryReady (valid issueInstrAck fetchEntryValid : Bool) : Bool :=
  (!valid || issueInstrAck) && fetchEntryValid

def takes : Bool := fetchEntryReady q.valid i.issueInstrAck i.fetchEntryValid

def next : Regs where
  valid := !i.flush && (takes q i || (q.valid && !i.issueInstrAck))
  fetch := if takes q i then decoderIn i.hart i.fetchEntry else q.fetch

end Cva6.IdStage
