import Cva6.BranchUnit
import Cva6.Core.Model
import Cva6.Frontend.Redirect
import Cva6.IdStage
/-!
# The pipeline from fetch to commit

The frontend, the decode stage, the branch unit and the core, wired as in `ariane.sv`. The
instruction cache, the other functional units and the rest of the environment of the core
are inputs.
-/

namespace Cva6.Pipeline

open Cva6.Sync Cva6.Issue

structure Input where
  /-- The environment of the core. The instruction offered and the resolved branch are
  replaced by what the pipeline drives. -/
  core : Core.Input
  hart : IdStage.Hart
  icache : Frontend.IcacheRsp
  deriving Inhabited

structure State where
  fe : Frontend.State
  id : IdStage.Regs
  core : Core.State

variable (s : State) (i : Input)

def branchIn (q : ReadOperands.Regs) : BranchUnit.Input :=
  let data : BranchUnit.FuData := ⟨q.operator, q.operandA, q.operandB, q.imm⟩
  { fuData := data
    pc := q.pc
    isCompressedInstr := q.isCompressedInstr
    branchValid := q.branchValid
    branchCompRes := BranchUnit.aluBranchRes data
    branchPredict := q.branchPredict }

def resolvedBranch : BpResolve := BranchUnit.resolvedBranch (branchIn s.core.iro)

def coreIn : Core.Input :=
  { i.core with
    fetch := s.id.fetch
    decodedInstrValid := s.id.valid
    targetAddress := (resolvedBranch s).targetAddress
    isMispredict := (resolvedBranch s).isMispredict }

def flushes : Controller.Output := Core.flushes s.core (coreIn s i)

def issueInstrAck : Bool :=
  Scoreboard.decodedInstrAck s.core.sb
    (ReadOperands.issueAck s.core.iro (Core.iroIn s.core (coreIn s i)))

def idIn : IdStage.Input where
  flush := (flushes s i).flushIf
  hart := i.hart
  fetchEntry := Frontend.Queue.fetchEntry s.fe.q.queue
  fetchEntryValid := Frontend.Queue.fetchEntryValid s.fe.q.queue
  issueInstrAck := issueInstrAck s i

def feIn : Frontend.Input :=
  let be := Core.backendIn s.core (coreIn s i)
  { flush := (flushes s i).flushIf
    flushBp := false
    debugMode := s.core.be.csr.debugMode
    bootAddr := i.core.platform.bootAddr
    resolvedBranch := resolvedBranch s
    setPcCommit := (flushes s i).setPcCommit
    pcCommit := be.commitInstr.instr0.pc
    epc := Csr.epc s.core.be.csr (Backend.csrAccess s.core.be be)
    eret := (Backend.csrUpdate s.core.be be).eret
    trapVectorBase := Csr.trapVectorBase s.core.be.csr i.core.platform (Backend.retire s.core.be be)
    exValid := (Backend.ex s.core.be be).valid
    setDebugPc := (Backend.csrUpdate s.core.be be).setDebugPc
    icache := i.icache
    fetchEntryReady := IdStage.takes s.id (idIn s i) }

def pipeline : Machine State Input where
  init := ⟨Frontend.stream.init, IdStage.reset, Core.core.init⟩
  next s i := ⟨s.fe.next (feIn s i), IdStage.next s.id (idIn s i), Core.core.next s.core (coreIn s i)⟩

/-- `issue_en`: the offered instruction is written into the scoreboard. -/
def issueEn : Bool := Scoreboard.issueEn s.core.sb (Core.sbIn s.core (coreIn s i))

def entered : List ScoreboardEntry :=
  if issueEn s i then [Core.decodedInstr (coreIn s i)] else []

def commitFlush : Bool := (flushes s i).flushId

def started (q : ReadOperands.Regs) : Bool :=
  q.aluValid || q.branchValid || q.multValid || q.lsuValid || q.csrValid

/-! ## Wires -/

theorem ctrl_redirect (c : Controller.Input)
    (h : (c.isMispredict || c.eret || c.exValid || (Controller.flushCtrl c).setPcCommit ||
      c.setDebugPc) = true) : (Controller.flushCtrl c).flushIf = true := by
  revert h
  obtain ⟨a1, a2, a3, a4, a5, a6, a7, a8, a9⟩ := c
  cases a1 <;> cases a2 <;> cases a3 <;> cases a4 <;> cases a5 <;> cases a6 <;> cases a7 <;>
    cases a8 <;> cases a9 <;> decide

end Cva6.Pipeline
