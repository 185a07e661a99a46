import Cva6.Backend.Model
import Cva6.Decoder
import Cva6.Issue.ReadOperands
import Cva6.Issue.Window
import Cva6.Lsu.StoreUnit
/-!
# The core from decode to commit

The decoder, the issue stage, the back end and the store path, wired as in
`ariane.sv` and `issue_stage.sv`. The instruction offered in a cycle is the decoder's
answer to an arbitrary input; the functional units, the translation of store
addresses and the caches are the environment.
-/

namespace Cva6.Core

open Cva6.Sync Cva6.Issue Cva6.Lsu

structure Input where
  /-- What the decoder saw of the instruction offered to issue. -/
  fetch : Decoder.Input
  decodedInstrValid : Bool
  fluReady : Bool
  lsuReady : Bool
  fpuReady : Bool
  wb : List Scoreboard.WbPort
  targetAddress : XLen
  isMispredict : Bool
  lsuCtrl : LsuCtrl
  dtlbHit : Bool
  exValid : Bool
  paddr : BitVec 32
  dataGnt : Bool
  dcacheWbufferEmpty : Bool
  amoResp : AmoResp
  csrAddr : BitVec 12
  platform : Csr.Platform
  c0 : Bool
  deriving Inhabited

structure State where
  sb : Scoreboard.Regs
  iro : ReadOperands.Regs
  be : Backend.State
  st : StoreUnit.State

variable (s : State) (i : Input)

def decodedInstr : ScoreboardEntry := ReadOperands.reName (Decoder.instructionO i.fetch)

def backendIn : Backend.Input where
  commitInstr := Scoreboard.commitInstr s.sb
  commitLsuReady := StoreBuffer.commitReady s.st.buffer
  noStPending := StoreBuffer.noStPending s.st.buffer && i.dcacheWbufferEmpty
  amoResp := i.amoResp
  csrAddr := i.csrAddr
  isMispredict := i.isMispredict
  platform := i.platform
  c0 := i.c0

def out : Commit.Output := Backend.out s.be (backendIn s i)

def flushes : Controller.Output := Backend.flushes s.be (backendIn s i)

def commitWrite : ReadOperands.CommitWrite where
  weGpr0 := (out s i).weGpr0
  waddr0 := (Backend.commitInput s.be (backendIn s i)).waddr0
  wdata0 := (out s i).wdata0
  weGpr1 := (out s i).weGpr1
  waddr1 := (Backend.commitInput s.be (backendIn s i)).waddr1
  wdata1 := (out s i).wdata1

def iroIn : ReadOperands.Input :=
  let instr := Scoreboard.issueInstr s.sb (decodedInstr i)
  { flush := (flushes s i).flushUnissuedInstr
    issueInstr := instr
    issueInstrValid := Scoreboard.issueInstrValid s.sb i.decodedInstrValid
    rs1 := Scoreboard.readOperand s.sb i.wb instr.rs1
    rs2 := Scoreboard.readOperand s.sb i.wb instr.rs2
    rdClobberGpr := Scoreboard.rdClobberGpr s.sb
    fluReady := i.fluReady
    lsuReady := i.lsuReady
    fpuReady := i.fpuReady
    commit := commitWrite s i }

def sbIn : Scoreboard.Input where
  flushUnissuedInstr := (flushes s i).flushUnissuedInstr
  flush := (flushes s i).flushId
  commitAck := (out s i).commitAck
  decodedInstr := decodedInstr i
  decodedInstrValid := i.decodedInstrValid
  issueAck := ReadOperands.issueAck s.iro (iroIn s i)
  targetAddress := i.targetAddress
  wb := i.wb

def storeIn : StoreUnit.Input where
  flush := (flushes s i).flushEx
  lsuCtrl := i.lsuCtrl
  dtlbHit := i.dtlbHit
  exValid := i.exValid
  paddr := i.paddr
  commit := (out s i).commitLsu
  amoValidCommit := (out s i).amoValidCommit
  amoAck := i.amoResp.ack
  dataGnt := i.dataGnt

def core : Machine State Input where
  init := ⟨Scoreboard.reset, ReadOperands.reset, Backend.backend.init, StoreUnit.storeUnit.init⟩
  next s i :=
    { sb := Scoreboard.next s.sb (sbIn s i)
      iro := ReadOperands.next s.iro (iroIn s i)
      be := Backend.backend.next s.be (backendIn s i)
      st := StoreUnit.storeUnit.next s.st (storeIn s i) }

theorem run_be (ins : List Input) :
    (core.run ins).be = Backend.backend.run (core.log (fun s i => [backendIn s i]) ins) := by
  induction ins using List.reverseRecOn with
  | nil => rfl
  | append_singleton ins i ih =>
      rw [Machine.run_snoc, Machine.log_snoc, Machine.run_snoc, ← ih]
      rfl

theorem run_ctrl (ins : List Input) : (core.run ins).be.ctrl = Controller.reset := by
  rw [run_be, Backend.run_ctrl]

/-! ## What the scoreboard holds -/

theorem ackLegal : Scoreboard.AckLegal s.sb (sbIn s i) := by
  have h0 : (out s i).commitAck.ack0 = true → (Scoreboard.commitInstr s.sb).instr0.valid = true := by
    intro h
    rw [out, Backend.out, Commit.commit_ack0, Bool.and_eq_true] at h
    have hret : ((Scoreboard.commitInstr s.sb).instr0.valid &&
      !(Scoreboard.commitInstr s.sb).instr0.ex.valid && !Backend.halt s.be) = true := h.1
    simp only [Bool.and_eq_true] at hret
    exact hret.1.1
  refine ⟨h0, ?_⟩
  intro h
  have h : (out s i).commitAck.ack1 = true := h
  refine ⟨Commit.commit_ack_legal _ h, ?_⟩
  rw [out, Backend.out, Commit.commit_ack1] at h
  simp only [Bool.and_eq_true] at h
  exact h.1.1.1.1.1.1.2

theorem sb_ok (ins : List Input) : Scoreboard.Ok (core.run ins).sb := by
  induction ins using List.reverseRecOn with
  | nil => exact Scoreboard.reset_ok
  | append_singleton ins i ih =>
      rw [Machine.run_snoc]
      exact ih.next (ackLegal _ i)

/-! ## Single cycles -/

def fetchWord (w : BitVec 32) : Decoder.Input :=
  { (default : Decoder.Input) with instruction := w, privLvl := Riscv.privLvlM }

def Input.offer (w : BitVec 32) : Input :=
  { (default : Input) with
    fetch := fetchWord w, decodedInstrValid := true, fluReady := true, lsuReady := true,
    dtlbHit := true }

def Input.quiet : Input := { (default : Input) with dtlbHit := true }

def Input.written (i : Input) (id : TransId) (data : XLen) : Input :=
  { i with wb := [⟨id, data, default, true⟩] }

end Cva6.Core
