import Cva6.Cfi
import Cva6.Commit
import Cva6.Controller
import Cva6.Csr.Properties
/-!
# The back end

`commit_stage`, `csr_regfile`, `controller` and `CFI_Mod` wired as in
`ariane.sv`. The contents of the commit ports, the answers of the load-store
unit and of the data cache, the address held by the CSR buffer and the platform
inputs are the environment.

The commit stage and the CSR file are connected in both directions. The loop is
broken at the selected CSR operation: `csrSelect` is what the commit stage
selects whatever the CSR file answers, the answer is computed from it, and
`csrException_access` says that the operation the commit stage then drives gets
the same answer.
-/

namespace Cva6.Backend

open Cva6.Sync

structure Input where
  commitInstr : CommitPorts
  commitLsuReady : Bool
  noStPending : Bool
  amoResp : AmoResp
  csrAddr : BitVec 12
  isMispredict : Bool
  platform : Csr.Platform
  c0 : Bool
  deriving DecidableEq, Repr, Inhabited

structure State where
  csr : Csr.Regs
  ctrl : Controller.Regs
  cfi : Cfi.State

variable (s : State) (i : Input)

/-! ## Wiring -/

def halt : Bool := Controller.halt s.ctrl s.csr.wfi

/-- `flow_intergity_violated_sig`. -/
def flag : Bool := s.cfi.flowIntegrityViolated

def retiring : Bool :=
  i.commitInstr.instr0.valid && !i.commitInstr.instr0.ex.valid && !halt s

def csrSelect : Csr.Access where
  csrOp :=
    if retiring s i && i.commitInstr.instr0.fu == .CSR then i.commitInstr.instr0.op else .ADD
  csrAddr := i.csrAddr
  csrWdata := i.commitInstr.instr0.result

def csrException : Exception :=
  Csr.csrException s.csr i.platform (csrSelect s i) (flag s)

def commitInput : Commit.Input where
  halt := halt s
  flushDcache := s.ctrl.flushDcache
  singleStep := s.csr.dcsr.step
  commitInstr := i.commitInstr
  amoResp := i.amoResp
  csrRdata := Csr.csrRdataO s.csr i.platform (csrSelect s i)
  csrException := csrException s i
  commitLsuReady := i.commitLsuReady
  noStPending := i.noStPending

def out : Commit.Output := Commit.commit (commitInput s i)

def ex : Exception := Commit.exceptionHandling (commitInput s i)

def csrAccess : Csr.Access := ⟨(out s i).csrOp, i.csrAddr, (out s i).csrWdata⟩

def retire : Csr.Retire where
  commitInstr0 := i.commitInstr.instr0
  commitAck := (out s i).commitAck
  ex := ex s i
  csrWriteFflags := (out s i).csrWriteFflags
  pc := i.commitInstr.instr0.pc

def csrUpdate : Csr.Update :=
  Csr.csrUpdate s.csr i.platform (csrAccess s i) (retire s i)

def ctrlInput : Controller.Input where
  eret := (csrUpdate s i).eret
  exValid := (ex s i).valid
  setDebugPc := (csrUpdate s i).setDebugPc
  isMispredict := i.isMispredict
  flushCsr := (csrUpdate s i).flush
  fenceI := (out s i).fenceI
  fence := (out s i).fence
  sfenceVma := (out s i).sfenceVma
  flushCommit := (out s i).flushCommit

def flushes : Controller.Output := Controller.flushCtrl (ctrlInput s i)

def cfiInput : Cfi.Input := ⟨i.commitInstr, (out s i).commitAck, i.c0⟩

def backend : Machine State Input where
  init := ⟨Csr.Regs.reset, Controller.reset, Cfi.cfiMod.init⟩
  next s i :=
    { csr := Csr.csrNext s.csr i.platform (csrAccess s i) (retire s i)
      ctrl := Controller.next s.ctrl
      cfi := Cfi.cfiMod.next s.cfi (cfiInput s i) }

/-! ## The wires between the commit stage and the CSR file -/

@[simp] theorem commitInput_instr0 : (commitInput s i).instr0 = i.commitInstr.instr0 := rfl

@[simp] theorem commitInput_retiring : (commitInput s i).retiring = retiring s i := rfl

@[simp] theorem commitInput_commitLsuReady :
    (commitInput s i).commitLsuReady = i.commitLsuReady := rfl

@[simp] theorem commitInput_noStPending :
    (commitInput s i).noStPending = i.noStPending := rfl

@[simp] theorem commitInput_csrException :
    (commitInput s i).csrException = csrException s i := rfl

theorem out_csrOp : (out s i).csrOp = (csrSelect s i).csrOp := by
  rw [out, Commit.commit_csrOp]
  rfl

theorem csrException_access :
    Csr.csrException s.csr i.platform (csrAccess s i) (flag s) = csrException s i := by
  unfold csrAccess
  rw [out_csrOp]
  exact Csr.csrException_congr s.csr i.platform _ _ _ _ _

/-- Only a CSR instruction that is retiring selects an operation. -/
theorem retiring_of_isAccess (h : Csr.isAccess (csrSelect s i).csrOp = true) :
    retiring s i = true ∧ i.commitInstr.instr0.fu = .CSR ∧
      Csr.isAccess i.commitInstr.instr0.op = true := by
  unfold csrSelect at h
  by_cases hc : (retiring s i && i.commitInstr.instr0.fu == .CSR) = true
  · rw [if_pos hc] at h
    simp only [Bool.and_eq_true, beq_iff_eq] at hc
    exact ⟨hc.1, hc.2, h⟩
  · rw [if_neg hc] at h
    simp [Csr.isAccess] at h

/-- The exception of the CSR file is the violation flag or an access. -/
theorem csrException_cases (h : (csrException s i).valid = true) :
    flag s = true ∨ retiring s i = true ∧ i.commitInstr.instr0.fu = .CSR ∧
      Csr.isAccess i.commitInstr.instr0.op = true := by
  cases hf : flag s with
  | true => exact .inl rfl
  | false =>
      refine .inr (retiring_of_isAccess s i ?_)
      unfold csrException at h
      rw [hf] at h
      exact Csr.csrException_isAccess _ _ _ h

theorem csrException_valid_of_flag (h : flag s = true) : (csrException s i).valid = true := by
  unfold csrException
  rw [h]
  exact Csr.csrException_valid_of_flag _ _ _

/-- While port 0 is retiring, `ex_commit` is the exception of the CSR file, and
that is always an illegal instruction. -/
theorem ex_of_retiring (h : retiring s i = true) :
    (ex s i).valid = (csrException s i).valid ∧
      ((ex s i).valid = true → (ex s i).cause = Riscv.illegalInstr) := by
  obtain ⟨hvalid, hcause⟩ := Commit.exceptionHandling_of_retiring (commitInput s i) h
  refine ⟨hvalid, ?_⟩
  intro hex
  rw [ex, hvalid] at hex
  rw [ex, hcause hex]
  exact Csr.csrException_cause _ _ _ _ hex

/-! ## Reachable states -/

/-- The write-through configuration never waits for a data-cache flush. -/
theorem run_ctrl (ins : List Input) : (backend.run ins).ctrl = Controller.reset := by
  induction ins using List.reverseRecOn with
  | nil => rfl
  | append_singleton ins i ih =>
      rw [Machine.run_snoc]
      show Controller.next (backend.run ins).ctrl = Controller.reset
      rw [ih]
      rfl

theorem run_cfi (ins : List Input) :
    (backend.run ins).cfi = Cfi.cfiMod.run (backend.log (fun s i => [cfiInput s i]) ins) := by
  induction ins using List.reverseRecOn with
  | nil => rfl
  | append_singleton ins i ih =>
      rw [Machine.run_snoc, Machine.log_snoc, Machine.run_snoc, ← ih]
      rfl

/-- Once raised, the violation flag stays until reset. -/
theorem flag_stable (ins ins' : List Input) (h : flag (backend.run ins) = true) :
    flag (backend.run (ins ++ ins')) = true := by
  rw [flag, run_cfi] at h ⊢
  rw [Cfi.flag_iff_held] at h ⊢
  obtain ⟨pre, j, post, hp, hpre⟩ := h
  refine ⟨pre, j, post ++ backend.logFrom (fun s i => [cfiInput s i])
    (backend.run ins) ins', ?_, hpre⟩
  rw [Machine.log, Machine.logFrom_append, ← Machine.log, hp]
  simp [Machine.run]

end Cva6.Backend
