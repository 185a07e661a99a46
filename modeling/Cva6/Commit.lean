import Cva6.Pkg
/-!
# The commit stage

`commit_stage.sv` is combinational. Its process `commit` writes defaults and
then, in source order, lets each instruction class overwrite some of them; the
model keeps one function per block, applied in the same order, so that the last
assignment wins here as well. `exceptionHandling` is the second process. It is
independent of the first one, which reads its `valid` bit for port 1.
-/

namespace Cva6.Commit

structure Input where
  halt : Bool
  flushDcache : Bool
  singleStep : Bool
  commitInstr : CommitPorts
  amoResp : AmoResp
  csrRdata : XLen
  csrException : Exception
  commitLsuReady : Bool
  noStPending : Bool
  deriving DecidableEq, Repr, Inhabited

structure Output where
  commitAck : CommitAck
  amoValidCommit : Bool
  weGpr0 : Bool
  weGpr1 : Bool
  weFpr0 : Bool
  weFpr1 : Bool
  commitLsu : Bool
  commitCsr : Bool
  wdata0 : XLen
  wdata1 : XLen
  csrOp : FuOp
  csrWdata : XLen
  fenceI : Bool
  fence : Bool
  sfenceVma : Bool
  csrWriteFflags : Bool
  flushCommit : Bool
  deriving DecidableEq, Repr

namespace Input

variable (i : Input)

abbrev instr0 : ScoreboardEntry := i.commitInstr.instr0
abbrev instr1 : ScoreboardEntry := i.commitInstr.instr1

def waddr0 : BitVec 5 := i.instr0.rd.setWidth 5
def waddr1 : BitVec 5 := i.instr1.rd.setWidth 5

def instr0IsAmo : Bool := isAmo i.instr0.op

/-- Port 0 holds an instruction that is neither excepted nor halted. -/
def retiring : Bool := i.instr0.valid && !i.instr0.ex.valid && !i.halt

end Input

def isFpu (fu : Fu) : Bool := fu == .FPU || fu == .FPU_VEC

def port1Fu (fu : Fu) : Bool :=
  fu == .ALU || fu == .LOAD || fu == .CTRL_FLOW || fu == .MULT || isFpu fu

/-! ## Exceptions -/

/-- The process `exception_handling`: an exception attached to the instruction
takes precedence over one raised by the CSR file. -/
def exceptionHandling (i : Input) : Exception :=
  let ex : Exception := ⟨0, 0, false⟩
  let ex :=
    if i.instr0.valid then
      let ex := if i.csrException.valid then { i.csrException with tval := i.instr0.ex.tval } else ex
      if i.instr0.ex.valid then i.instr0.ex else ex
    else ex
  if i.halt then { ex with valid := false } else ex

/-! ## Port 0 -/

def defaults (i : Input) : Output where
  commitAck := ⟨false, false⟩
  amoValidCommit := false
  weGpr0 := false
  weGpr1 := false
  weFpr0 := false
  weFpr1 := false
  commitLsu := false
  commitCsr := false
  -- an atomic commits on port 0 and its result comes with the acknowledgement
  wdata0 := if i.amoResp.ack then i.amoResp.result.setWidth 32 else i.instr0.result
  wdata1 := i.instr1.result
  -- `ADD` is the no-operation of the CSR file
  csrOp := .ADD
  csrWdata := 0
  fenceI := false
  fence := false
  sfenceVma := false
  csrWriteFflags := false
  flushCommit := false

def registerWrite (i : Input) (o : Output) : Output :=
  let o := { o with commitAck.ack0 := true }
  if isRdFpr i.instr0.op then { o with weFpr0 := true } else { o with weGpr0 := true }

def storeLogic (i : Input) (o : Output) : Output :=
  if i.instr0.fu == .STORE && !i.instr0IsAmo then
    if i.commitLsuReady then { o with commitAck.ack0 := true, commitLsu := true }
    else { o with commitAck.ack0 := false }
  else o

def fpuFlags (i : Input) (o : Output) : Output :=
  if isFpu i.instr0.fu then
    { o with
      csrWdata := (i.instr0.ex.cause.setWidth 5).setWidth 32
      csrWriteFflags := true
      commitAck.ack0 := true }
  else o

def csrLogic (i : Input) (o : Output) : Output :=
  if i.instr0.fu == .CSR then
    let o := { o with csrOp := i.instr0.op, csrWdata := i.instr0.result }
    if !i.csrException.valid then
      { o with commitCsr := true, wdata0 := i.csrRdata, commitAck.ack0 := true }
    else { o with commitAck.ack0 := false, weGpr0 := false }
  else o

def sfenceVmaLogic (i : Input) (o : Output) : Output :=
  if i.instr0.op == .SFENCE_VMA then
    { o with sfenceVma := i.noStPending, commitAck.ack0 := i.noStPending }
  else o

def fenceILogic (i : Input) (o : Output) : Output :=
  if i.instr0.op == .FENCE_I || (i.flushDcache && i.instr0.fu != .STORE) then
    { o with commitAck.ack0 := i.noStPending, fenceI := i.noStPending }
  else o

def fenceLogic (i : Input) (o : Output) : Output :=
  if i.instr0.op == .FENCE then
    { o with commitAck.ack0 := i.noStPending, fence := i.noStPending }
  else o

def amoLogic (i : Input) (o : Output) : Output :=
  if i.instr0IsAmo then
    { o with
      commitAck.ack0 := i.amoResp.ack
      flushCommit := i.amoResp.ack
      amoValidCommit := true
      weGpr0 := i.amoResp.ack }
  else o

def commitPort1 (i : Input) (o : Output) : Output :=
  if i.retiring then
    amoLogic i (fenceLogic i (fenceILogic i (sfenceVmaLogic i (csrLogic i
      (fpuFlags i (storeLogic i (registerWrite i o)))))))
  else o

/-! ## Port 1 -/

def commitPort2 (i : Input) (o : Output) : Output :=
  if o.commitAck.ack0 && i.instr1.valid && !i.halt && !(i.instr0.fu == .CSR) &&
      !i.flushDcache && !i.instr0IsAmo && !i.singleStep then
    if !(exceptionHandling i).valid && !i.instr1.ex.valid && port1Fu i.instr1.fu then
      let o :=
        if isRdFpr i.instr1.op then { o with weFpr1 := true } else { o with weGpr1 := true }
      let o := { o with commitAck.ack1 := true }
      if isFpu i.instr1.fu then
        let o :=
          if o.csrWriteFflags then
            { o with csrWdata := (i.instr0.ex.cause.setWidth 5 |||
                i.instr1.ex.cause.setWidth 5).setWidth 32 }
          else { o with csrWdata := (i.instr1.ex.cause.setWidth 5).setWidth 32 }
        { o with csrWriteFflags := true }
      else o
    else o
  else o

def commit (i : Input) : Output :=
  commitPort2 i (commitPort1 i (defaults i))

def dirtyFpState (i : Input) : Bool :=
  ((commit i).commitAck.ack0 && (isFpu i.instr0.fu || isRdFpr i.instr0.op)) ||
    ((commit i).commitAck.ack1 && (isFpu i.instr1.fu || isRdFpr i.instr1.op))

/-! ## What the outputs are

One equation for each output. The proofs push the projection through the
blocks and compare the remaining conditions. -/

variable (i : Input)

theorem exceptionHandling_valid :
    (exceptionHandling i).valid =
      (i.instr0.valid && (i.instr0.ex.valid || i.csrException.valid) && !i.halt) := by
  unfold exceptionHandling
  cases i.instr0.valid <;> cases h : i.instr0.ex.valid <;> cases h' : i.csrException.valid <;>
    cases i.halt <;> simp [h, h']

theorem commit_ack0 :
    (commit i).commitAck.ack0 =
      (i.retiring &&
        if i.instr0IsAmo then i.amoResp.ack
        else if i.instr0.op == .FENCE then i.noStPending
        else if i.instr0.op == .FENCE_I || i.flushDcache && i.instr0.fu != .STORE then
          i.noStPending
        else if i.instr0.op == .SFENCE_VMA then i.noStPending
        else if i.instr0.fu == .CSR then !i.csrException.valid
        else if i.instr0.fu == .STORE then i.commitLsuReady
        else true) := by
  simp only [commit, commitPort2, commitPort1, amoLogic, fenceLogic, fenceILogic,
    sfenceVmaLogic, csrLogic, fpuFlags, storeLogic, registerWrite, defaults, isFpu,
    apply_ite Output.commitAck, apply_ite CommitAck.ack0, ite_self]
  cases i.retiring
  · simp
  · cases i.instr0IsAmo
    · cases i.instr0.fu <;> simp
    · simp

theorem commit_ack1 :
    (commit i).commitAck.ack1 =
      ((commit i).commitAck.ack0 && i.instr1.valid && !i.halt && !(i.instr0.fu == .CSR) &&
        !i.flushDcache && !i.instr0IsAmo && !i.singleStep &&
        (!(exceptionHandling i).valid && !i.instr1.ex.valid && port1Fu i.instr1.fu)) := by
  have hport (o : Output) (h : o.commitAck.ack1 = false) :
      (commitPort2 i o).commitAck.ack1 =
        ((commitPort2 i o).commitAck.ack0 && i.instr1.valid && !i.halt &&
          !(i.instr0.fu == .CSR) && !i.flushDcache && !i.instr0IsAmo && !i.singleStep &&
          (!(exceptionHandling i).valid && !i.instr1.ex.valid && port1Fu i.instr1.fu)) := by
    simp only [commitPort2, apply_ite Output.commitAck, apply_ite CommitAck.ack0,
      apply_ite CommitAck.ack1, ite_self, h]
    split_ifs with h1 h2 <;> simp_all
  refine hport _ ?_
  simp only [commitPort1, amoLogic, fenceLogic, fenceILogic, sfenceVmaLogic, csrLogic, fpuFlags,
    storeLogic, registerWrite, defaults, apply_ite Output.commitAck, apply_ite CommitAck.ack1,
    ite_self]

theorem commit_weGpr1 : (commit i).weGpr1 = (commit i).commitAck.ack1 := by
  have hport (o : Output) (h : o.weGpr1 = o.commitAck.ack1) :
      (commitPort2 i o).weGpr1 = (commitPort2 i o).commitAck.ack1 := by
    simp only [commitPort2, isRdFpr, apply_ite Output.commitAck, apply_ite CommitAck.ack1,
      apply_ite Output.weGpr1, ite_self, h]
    split_ifs <;> simp_all
  refine hport _ ?_
  simp only [commitPort1, amoLogic, fenceLogic, fenceILogic, sfenceVmaLogic, csrLogic, fpuFlags,
    storeLogic, registerWrite, defaults, apply_ite Output.commitAck, apply_ite CommitAck.ack1,
    apply_ite Output.weGpr1, ite_self]

theorem commit_weGpr0 :
    (commit i).weGpr0 =
      (i.retiring &&
        if i.instr0IsAmo then i.amoResp.ack
        else !(i.instr0.fu == .CSR && i.csrException.valid)) := by
  simp only [commit, commitPort2, commitPort1, amoLogic, fenceLogic, fenceILogic,
    sfenceVmaLogic, csrLogic, fpuFlags, storeLogic, registerWrite, defaults, isRdFpr,
    apply_ite Output.weGpr0, ite_self]
  cases i.retiring <;> cases i.instr0IsAmo <;> cases i.instr0.fu == .CSR <;>
    cases i.csrException.valid <;> simp

theorem commit_weFpr0 : (commit i).weFpr0 = false := by
  simp [commit, commitPort2, commitPort1, amoLogic, fenceLogic, fenceILogic, sfenceVmaLogic,
    csrLogic, fpuFlags, storeLogic, registerWrite, defaults, isRdFpr, apply_ite Output.weFpr0]

theorem commit_weFpr1 : (commit i).weFpr1 = false := by
  simp [commit, commitPort2, commitPort1, amoLogic, fenceLogic, fenceILogic, sfenceVmaLogic,
    csrLogic, fpuFlags, storeLogic, registerWrite, defaults, isRdFpr, apply_ite Output.weFpr1]

theorem commit_commitLsu :
    (commit i).commitLsu =
      (i.retiring && i.instr0.fu == .STORE && !i.instr0IsAmo && i.commitLsuReady) := by
  simp only [commit, commitPort2, commitPort1, amoLogic, fenceLogic, fenceILogic,
    sfenceVmaLogic, csrLogic, fpuFlags, storeLogic, registerWrite, defaults,
    apply_ite Output.commitLsu, ite_self]
  cases i.retiring <;> cases i.instr0.fu == .STORE <;> cases i.instr0IsAmo <;>
    cases i.commitLsuReady <;> rfl

theorem commit_commitCsr :
    (commit i).commitCsr =
      (i.retiring && i.instr0.fu == .CSR && !i.csrException.valid) := by
  simp only [commit, commitPort2, commitPort1, amoLogic, fenceLogic, fenceILogic,
    sfenceVmaLogic, csrLogic, fpuFlags, storeLogic, registerWrite, defaults,
    apply_ite Output.commitCsr, ite_self]
  cases i.retiring <;> cases i.instr0.fu == .CSR <;> cases i.csrException.valid <;> rfl

theorem commit_amoValidCommit :
    (commit i).amoValidCommit = (i.retiring && i.instr0IsAmo) := by
  simp only [commit, commitPort2, commitPort1, amoLogic, fenceLogic, fenceILogic,
    sfenceVmaLogic, csrLogic, fpuFlags, storeLogic, registerWrite, defaults,
    apply_ite Output.amoValidCommit, ite_self]
  cases i.retiring <;> cases i.instr0IsAmo <;> rfl

theorem commit_flushCommit :
    (commit i).flushCommit = (i.retiring && i.instr0IsAmo && i.amoResp.ack) := by
  simp only [commit, commitPort2, commitPort1, amoLogic, fenceLogic, fenceILogic,
    sfenceVmaLogic, csrLogic, fpuFlags, storeLogic, registerWrite, defaults,
    apply_ite Output.flushCommit, ite_self]
  cases i.retiring <;> cases i.instr0IsAmo <;> simp

theorem commit_sfenceVma :
    (commit i).sfenceVma = (i.retiring && i.instr0.op == .SFENCE_VMA && i.noStPending) := by
  simp only [commit, commitPort2, commitPort1, amoLogic, fenceLogic, fenceILogic,
    sfenceVmaLogic, csrLogic, fpuFlags, storeLogic, registerWrite, defaults,
    apply_ite Output.sfenceVma, ite_self]
  cases i.retiring <;> cases i.instr0.op == .SFENCE_VMA <;> simp

theorem commit_fenceI :
    (commit i).fenceI =
      (i.retiring && (i.instr0.op == .FENCE_I || i.flushDcache && i.instr0.fu != .STORE) &&
        i.noStPending) := by
  simp only [commit, commitPort2, commitPort1, amoLogic, fenceLogic, fenceILogic,
    sfenceVmaLogic, csrLogic, fpuFlags, storeLogic, registerWrite, defaults,
    apply_ite Output.fenceI, ite_self]
  cases i.retiring <;>
    cases (i.instr0.op == .FENCE_I || i.flushDcache && i.instr0.fu != .STORE) <;> simp

theorem commit_fence :
    (commit i).fence = (i.retiring && i.instr0.op == .FENCE && i.noStPending) := by
  simp only [commit, commitPort2, commitPort1, amoLogic, fenceLogic, fenceILogic,
    sfenceVmaLogic, csrLogic, fpuFlags, storeLogic, registerWrite, defaults,
    apply_ite Output.fence, ite_self]
  cases i.retiring <;> cases i.instr0.op == .FENCE <;> simp

theorem commit_csrOp :
    (commit i).csrOp = if i.retiring && i.instr0.fu == .CSR then i.instr0.op else .ADD := by
  simp only [commit, commitPort2, commitPort1, amoLogic, fenceLogic, fenceILogic,
    sfenceVmaLogic, csrLogic, fpuFlags, storeLogic, registerWrite, defaults,
    apply_ite Output.csrOp, ite_self]
  cases i.retiring <;> cases i.instr0.fu == .CSR <;> rfl

/-- A CSR instruction has the port to itself. -/
theorem commit_csrWdata_of_csr (h : i.retiring = true) (hfu : i.instr0.fu = .CSR) :
    (commit i).csrWdata = i.instr0.result := by
  have hcsr : (i.instr0.fu == Fu.CSR) = true := by rw [hfu]; rfl
  simp only [commit, commitPort2, commitPort1, amoLogic, fenceLogic, fenceILogic,
    sfenceVmaLogic, csrLogic, hcsr, h, if_true, Bool.not_true, Bool.and_false, Bool.false_and,
    Bool.false_eq_true, if_false, apply_ite Output.csrWdata, ite_self]

theorem commit_wdata0 :
    (commit i).wdata0 =
      if i.retiring && i.instr0.fu == .CSR && !i.csrException.valid then i.csrRdata
      else if i.amoResp.ack then i.amoResp.result.setWidth 32 else i.instr0.result := by
  simp only [commit, commitPort2, commitPort1, amoLogic, fenceLogic, fenceILogic,
    sfenceVmaLogic, csrLogic, fpuFlags, storeLogic, registerWrite, defaults,
    apply_ite Output.wdata0, ite_self]
  cases i.retiring <;> cases i.instr0.fu == .CSR <;> cases i.csrException.valid <;> simp

theorem commit_wdata1 : (commit i).wdata1 = i.instr1.result := by
  simp only [commit, commitPort2, commitPort1, amoLogic, fenceLogic, fenceILogic,
    sfenceVmaLogic, csrLogic, fpuFlags, storeLogic, registerWrite, defaults,
    apply_ite Output.wdata1, ite_self]

theorem commit_csrWriteFflags :
    (commit i).csrWriteFflags =
      (i.retiring && isFpu i.instr0.fu || (commit i).commitAck.ack1 && isFpu i.instr1.fu) := by
  have hport (o : Output) (h : o.commitAck.ack1 = false) :
      (commitPort2 i o).csrWriteFflags =
        (o.csrWriteFflags || (commitPort2 i o).commitAck.ack1 && isFpu i.instr1.fu) := by
    simp only [commitPort2, apply_ite Output.commitAck, apply_ite CommitAck.ack1,
      apply_ite Output.csrWriteFflags, ite_self, h]
    split_ifs <;> simp_all
  have hflags : (commitPort1 i (defaults i)).csrWriteFflags =
      (i.retiring && isFpu i.instr0.fu) := by
    simp only [commitPort1, amoLogic, fenceLogic, fenceILogic, sfenceVmaLogic, csrLogic,
      fpuFlags, storeLogic, registerWrite, defaults, apply_ite Output.csrWriteFflags, ite_self]
    cases i.retiring <;> cases isFpu i.instr0.fu <;> rfl
  rw [commit, hport, hflags]
  simp only [commitPort1, amoLogic, fenceLogic, fenceILogic, sfenceVmaLogic, csrLogic, fpuFlags,
    storeLogic, registerWrite, defaults, apply_ite Output.commitAck, apply_ite CommitAck.ack1,
    ite_self]

theorem exceptionHandling_of_retiring (h : i.retiring = true) :
    (exceptionHandling i).valid = i.csrException.valid ∧
      (i.csrException.valid = true → (exceptionHandling i).cause = i.csrException.cause) := by
  simp only [Input.retiring, Bool.and_eq_true, Bool.not_eq_true'] at h
  obtain ⟨⟨hv, hex⟩, hh⟩ := h
  refine ⟨by simp [exceptionHandling_valid, hv, hex, hh], ?_⟩
  intro hcsr
  simp [exceptionHandling, hv, hex, hh, hcsr]

theorem commit_ack_legal : (commit i).commitAck.Legal := by
  intro h
  rw [commit_ack1] at h
  simp_all

end Cva6.Commit
