import Cva6.Backend.Flush
import Cva6.Core.Sequential
import Cva6.Core.StoreCommit
import Cva6.Csr.Effects
/-!
# Two instructions in one cycle

The second commit port retires an instruction behind the one at port 0 in the same cycle. It has
conditions of its own, and the register file, the scoreboard and the counter of retired
instructions each read the two-bit acknowledgement in their own way. `solo` is the core with the
second port shut; two of its cycles do what one cycle of the core does.
-/

namespace Cva6.Backend

open Cva6.Riscv

/-! ## Ordinary instructions -/

/-- Port 0 retires an instruction that is neither a CSR access nor a fence nor an atomic, while
the violation flag is down and no step is asked for. -/
structure Ordinary (s : State) (i : Input) : Prop where
  retiring : retiring s i = true
  not_csr : i.commitInstr.instr0.fu ≠ .CSR
  not_amo : isAmo i.commitInstr.instr0.op = false
  not_fence : isFence i.commitInstr.instr0.op = false
  flag : flag s = false
  step : s.csr.dcsr.step = false
  noDcacheFlush : s.ctrl.flushDcache = false

section Ordinary

variable {s : State} {i : Input}

theorem Ordinary.csrException (h : Ordinary s i) : (csrException s i).valid = false := by
  by_contra hv
  rcases csrException_cases s i (by simpa using hv) with hf | ⟨-, hfu, -⟩
  · exact Bool.noConfusion (h.flag.symm.trans hf)
  · exact h.not_csr hfu

theorem Ordinary.ex (h : Ordinary s i) : (ex s i).valid = false :=
  (ex_of_retiring s i h.retiring).1.trans h.csrException

theorem Ordinary.csrOp (h : Ordinary s i) : (csrAccess s i).csrOp = .ADD := by
  show (out s i).csrOp = .ADD
  rw [out_csrOp, csrSelect, beq_false_of_ne h.not_csr, Bool.and_false]
  rfl

theorem Ordinary.fences (h : Ordinary s i) : i.commitInstr.instr0.op ≠ .SFENCE_VMA ∧
    i.commitInstr.instr0.op ≠ .FENCE ∧ i.commitInstr.instr0.op ≠ .FENCE_I := by
  have hf := h.not_fence
  unfold isFence at hf
  simp only [Bool.or_eq_false_iff, beq_eq_false_iff_ne] at hf
  exact ⟨hf.1.1, hf.1.2, hf.2⟩

theorem Ordinary.ack0 (h : Ordinary s i) : (out s i).commitAck.ack0 =
    (!(i.commitInstr.instr0.fu == .STORE) || i.commitLsuReady) := by
  obtain ⟨hsfence, hfence, hfenceI⟩ := h.fences
  unfold out
  rw [Commit.commit_ack0]
  show (Backend.retiring s i && if isAmo i.commitInstr.instr0.op then i.amoResp.ack
    else if i.commitInstr.instr0.op == .FENCE then i.noStPending
    else if i.commitInstr.instr0.op == .FENCE_I ||
      s.ctrl.flushDcache && i.commitInstr.instr0.fu != .STORE then i.noStPending
    else if i.commitInstr.instr0.op == .SFENCE_VMA then i.noStPending
    else if i.commitInstr.instr0.fu == .CSR then !(Backend.csrException s i).valid
    else if i.commitInstr.instr0.fu == .STORE then i.commitLsuReady
    else true) = _
  rw [h.retiring, h.not_amo, beq_false_of_ne hsfence, beq_false_of_ne hfence,
    beq_false_of_ne hfenceI, h.noDcacheFlush, beq_false_of_ne h.not_csr]
  cases i.commitInstr.instr0.fu == .STORE <;> cases i.commitLsuReady <;> rfl

/-- An ordinary instruction writes its result and asks for nothing else, but for the store
buffer. -/
theorem Ordinary.weGpr0 (h : Ordinary s i) : (out s i).weGpr0 = true := by
  unfold out
  rw [Commit.commit_weGpr0]
  show (Backend.retiring s i && if isAmo i.commitInstr.instr0.op then i.amoResp.ack
    else !(i.commitInstr.instr0.fu == .CSR && (Backend.csrException s i).valid)) = true
  rw [h.retiring, h.not_amo, beq_false_of_ne h.not_csr]
  rfl

theorem Ordinary.wdata0 (h : Ordinary s i) (hack : i.amoResp.ack = false) :
    (out s i).wdata0 = i.commitInstr.instr0.result := by
  unfold out
  rw [Commit.commit_wdata0]
  show (if Backend.retiring s i && i.commitInstr.instr0.fu == .CSR && !(Backend.csrException s i).valid
    then _ else if i.amoResp.ack then _ else i.commitInstr.instr0.result) = _
  rw [beq_false_of_ne h.not_csr, hack, Bool.and_false]
  rfl

structure Silent (o : Commit.Output) : Prop where
  csrOp : o.csrOp = .ADD
  commitCsr : o.commitCsr = false
  amoValidCommit : o.amoValidCommit = false
  flushCommit : o.flushCommit = false
  fence : o.fence = false
  fenceI : o.fenceI = false
  sfenceVma : o.sfenceVma = false

theorem Ordinary.silent (h : Ordinary s i) : Silent (out s i) := by
  obtain ⟨hsfence, hfence, hfenceI⟩ := h.fences
  have hamo : (commitInput s i).instr0IsAmo = false := h.not_amo
  have hcsr : ((commitInput s i).instr0.fu == .CSR) = false := beq_false_of_ne h.not_csr
  have hdc : (commitInput s i).flushDcache = false := h.noDcacheFlush
  constructor
  case csrOp => exact h.csrOp
  case commitCsr => rw [out, Commit.commit_commitCsr, hcsr, Bool.and_false, Bool.false_and]
  case amoValidCommit => rw [out, Commit.commit_amoValidCommit, hamo, Bool.and_false]
  case flushCommit => rw [out, Commit.commit_flushCommit, hamo, Bool.and_false, Bool.false_and]
  case fence =>
    rw [out, Commit.commit_fence, commitInput_instr0, beq_false_of_ne hfence, Bool.and_false,
      Bool.false_and]
  case fenceI =>
    rw [out, Commit.commit_fenceI, commitInput_instr0, beq_false_of_ne hfenceI, hdc,
      Bool.false_and, Bool.or_false, Bool.and_false, Bool.false_and]
  case sfenceVma =>
    rw [out, Commit.commit_sfenceVma, commitInput_instr0, beq_false_of_ne hsfence, Bool.and_false,
      Bool.false_and]

/-- An ordinary instruction flushes nothing when it retires. -/
theorem Ordinary.flushes (h : Ordinary s i) (hmis : i.isMispredict = false) :
    flushes s i = ⟨false, false, false, false, false, false, false, false⟩ := by
  have hs := h.silent
  have hcauses := csr_causes s i (by rw [h.csrOp]; rfl) (by rw [h.csrOp]; rfl)
    (fun hv => Bool.noConfusion (h.ex.symm.trans hv))
  rw [h.step, Bool.and_false, Bool.false_and] at hcauses
  have hin : ctrlInput s i = ⟨false, false, false, false, false, false, false, false, false⟩ := by
    unfold ctrlInput
    rw [hcauses.1, hcauses.2.1, hcauses.2.2, h.ex, hmis, hs.fence, hs.fenceI, hs.sfenceVma,
      hs.flushCommit]
  rw [Backend.flushes, hin]
  rfl

theorem Ordinary.wfi (h : Ordinary s i) : (backend.next s i).csr.wfi = false := by
  have hhalt : Controller.halt s.ctrl s.csr.wfi = false := by
    have hret := h.retiring
    unfold Backend.retiring at hret
    simp only [Bool.and_eq_true, Bool.not_eq_true'] at hret
    exact hret.2
  have hwfi : s.csr.wfi = false := (Bool.or_eq_false_iff.1 hhalt).1
  show Csr.wfiNext s.csr i.platform (csrAccess s i) (retire s i) = false
  rw [Csr.wfiNext, h.csrOp, hwfi]
  split
  · rfl
  · rw [if_neg (by simp)]

theorem Ordinary.debugMode (h : Ordinary s i) :
    (backend.next s i).csr.debugMode = s.csr.debugMode := by
  have hmode := Csr.csrUpdate_debugMode s.csr i.platform (csrAccess s i) (retire s i)
    fun hv => Bool.noConfusion (h.ex.symm.trans hv)
  rw [h.csrOp, h.step, Bool.false_and, Bool.or_false] at hmode
  exact hmode

theorem Ordinary.written (h : Ordinary s i) :
    Csr.written s.csr i.platform (csrAccess s i) (retire s i) =
      (Csr.counters s.csr i.platform (retire s i)).d := by
  rw [Csr.written, Csr.writeBlock_of_idle _ _ _ _ (by rw [h.csrOp]; rfl)]

theorem Ordinary.step_next (h : Ordinary s i) : (backend.next s i).csr.dcsr.step = false := by
  have hrest := congrArg Dcsr.step
    (Csr.csrNext_dcsr_rest s.csr i.platform (csrAccess s i) (retire s i))
  rw [h.written, Csr.counters_dcsr] at hrest
  exact hrest.trans h.step

theorem Ordinary.instret (h : Ordinary s i) : (backend.next s i).csr.instret =
    if s.csr.debugMode then s.csr.instret
    else s.csr.instret + (if (out s i).commitAck.ack0 then 1 else 0) +
      (if (out s i).commitAck.ack1 then 1 else 0) := by
  have hset := congrArg Csr.Settings.instret
    (Csr.csrNext_settings s.csr i.platform (csrAccess s i) (retire s i))
  rw [h.written] at hset
  refine Eq.trans (b := (Csr.counters s.csr i.platform (retire s i)).d.instret) hset ?_
  have hex : (retire s i).ex.valid = false := h.ex
  unfold Csr.counters
  rw [hex, Bool.not_false, Bool.and_true, Bool.and_true]
  show (if _ then _ else _ : Csr.Regs).instret = _
  cases s.csr.debugMode with
  | true => rfl
  | false =>
      show (if (out s i).commitAck.ack1 then (if (out s i).commitAck.ack0 then _ else _) + 1
        else if (out s i).commitAck.ack0 then _ else _) = _
      cases (out s i).commitAck.ack0 <;> cases (out s i).commitAck.ack1 <;> simp

end Ordinary

end Cva6.Backend

namespace Cva6.Issue.Scoreboard

/-! ## The scoreboard -/

structure Still (i : Input) : Prop where
  flush : i.flush = false
  decodedInstrValid : i.decodedInstrValid = false
  wb : i.wb = []

/-- What such a cycle makes of a slot: an instruction without a unit completes, an acknowledged
one is cleared. -/
def settle (s : Slot) (acked : Bool) : Slot :=
  let s := if s.sbe.fu == .NONE && s.issued then s.complete else s
  if acked then s.clear else s

theorem Still.next {q : Regs} {i : Input} (h : Still i) : next q i =
    { mem := fun n => settle (q.mem n) (ackedSlot q i n)
      issueCnt := q.issueCnt - numCommit i.commitAck
      issuePointer := q.issuePointer
      commitPointer0 := q.commitPointer0 + numCommit i.commitAck
      commitPointer1 := q.commitPointer0 + numCommit i.commitAck + 1 } := by
  have hen : issueEn q i = false := by rw [issueEn, h.decodedInstrValid]; rfl
  have hmem : issueFifo q i = fun n => settle (q.mem n) (ackedSlot q i n) := by
    funext n
    unfold issueFifo settle ackedSlot
    rw [hen, h.wb, h.flush]
    cases i.commitAck.ack0 && n == q.commitPointer0 <;>
      cases i.commitAck.ack1 && n == q.commitPointer1 <;> rfl
  have hzero (x : BitVec 3) : x + 0 = x := BitVec.add_zero x
  unfold Scoreboard.next
  rw [hmem, hen, h.flush]
  simp only [Bool.false_eq_true, if_false, hzero]

theorem settle_settle (s : Slot) (a b : Bool) : settle (settle s a) b = settle s (a || b) := by
  obtain ⟨issued, fpr, e⟩ := s
  unfold settle Slot.complete Slot.clear
  cases hfu : e.fu == .NONE <;> cases issued <;> cases a <;> cases b <;> simp [hfu]

/-- Two acknowledgements in one cycle, and one in each of two cycles. -/
theorem two_acks {q : Regs} {i j k : Input} (hi : Still i) (hj : Still j) (hk : Still k)
    (hptr : q.commitPointer1 = q.commitPointer0 + 1) (hiack : i.commitAck = ⟨true, true⟩)
    (hjack : j.commitAck = ⟨true, false⟩) (hkack : k.commitAck = ⟨true, false⟩) :
    next q i = next (next q j) k := by
  have h2 : numCommit ⟨true, true⟩ = numCommit ⟨true, false⟩ + numCommit ⟨true, false⟩ := rfl
  have hslot (n : TransId) : ackedSlot q i n =
      (ackedSlot q j n || ackedSlot (next q j) k n) := by
    rw [hj.next]
    unfold ackedSlot
    rw [hiack, hjack, hkack, hptr]
    simp only [Bool.true_and, Bool.false_and, Bool.or_false]
    rfl
  rw [hk.next, hi.next]
  simp only [hslot]
  rw [hj.next, hiack, hjack, hkack, h2]
  simp only [settle_settle]
  have hadd (x y : BitVec 3) : x - (y + y) = x - y - y := by bv_omega
  rw [hadd, ← BitVec.add_assoc]

end Cva6.Issue.Scoreboard

namespace Cva6.Core

open Cva6.Sync Cva6.Issue Cva6.Lsu

/-! ## The core with one port -/

def Input.still (i : Input) : Input :=
  { i with decodedInstrValid := false, wb := [], isMispredict := false }

section Solo

variable (s : State) (i : Input)

def soloIn : Backend.Input := { backendIn s i with commitInstr.instr1.valid := false }

def soloOut : Commit.Output := Backend.out s.be (soloIn s i)

def soloFlushes : Controller.Output := Backend.flushes s.be (soloIn s i)

def soloWrite : ReadOperands.CommitWrite where
  weGpr0 := (soloOut s i).weGpr0
  waddr0 := (Backend.commitInput s.be (soloIn s i)).waddr0
  wdata0 := (soloOut s i).wdata0
  weGpr1 := (soloOut s i).weGpr1
  waddr1 := (Backend.commitInput s.be (soloIn s i)).waddr1
  wdata1 := (soloOut s i).wdata1

/-- The core with the second commit port shut. -/
def solo : Machine State Input where
  init := core.init
  next s i :=
    { sb := Scoreboard.next s.sb { sbIn s i with
        flushUnissuedInstr := (soloFlushes s i).flushUnissuedInstr
        flush := (soloFlushes s i).flushId
        commitAck := (soloOut s i).commitAck }
      iro := ReadOperands.next s.iro { iroIn s i with
        flush := (soloFlushes s i).flushUnissuedInstr
        commit := soloWrite s i }
      be := Backend.backend.next s.be (soloIn s i)
      st := StoreUnit.storeUnit.next s.st { storeIn s i with
        flush := (soloFlushes s i).flushEx
        commit := (soloOut s i).commitLsu
        amoValidCommit := (soloOut s i).amoValidCommit } }

theorem soloOut_ack1 : (soloOut s i).commitAck.ack1 = false := by
  unfold soloOut Backend.out
  rw [Commit.commit_ack1]
  show (_ && false && _ && _ && _ && _ && _ && _) = false
  simp only [Bool.and_false, Bool.false_and]

end Solo

/-! ## Two instructions -/

section Dual

variable {s : State} {i : Input}

/-- In the same cycle the first instruction does the same with and without the second port. -/
theorem soloOut_port0 : (soloOut s i).commitAck.ack0 = ack0 s i ∧
    (soloOut s i).weGpr0 = (out s i).weGpr0 ∧ (soloOut s i).wdata0 = (out s i).wdata0 ∧
    (soloOut s i).commitLsu = (out s i).commitLsu := by
  unfold soloOut ack0 out Backend.out
  simp only [Commit.commit_ack0, Commit.commit_weGpr0, Commit.commit_wdata0,
    Commit.commit_commitLsu]
  exact ⟨rfl, rfl, rfl, rfl⟩

theorem of_port1Fu {fu : Fu} (h : Commit.port1Fu fu = true) :
    fu ≠ .CSR ∧ fu ≠ .STORE ∧ fu ≠ .NONE := by
  revert h
  cases fu <;> decide

/-- Both ports of a reachable state are acknowledged, with the violation flag down. -/
structure Dual (ins : List Input) (i : Input) : Prop where
  ack1 : ack1 (core.run ins) i = true
  flag : Backend.flag (core.run ins).be = false

variable {ins : List Input}

theorem Dual.ordinary (h : Dual ins i) (j : Backend.Input)
    (hj : j.commitInstr.instr0 = port0 (core.run ins)) :
    Backend.Ordinary (core.run ins).be j := by
  obtain ⟨hack0, -, -, hcsr, hamo, -⟩ := of_ack1 h.ack1
  have hret := retiring_of_ack0 hack0
  constructor
  case retiring =>
    unfold Backend.retiring at hret ⊢
    rw [hj]
    exact hret
  case not_csr => exact hj ▸ hcsr
  case not_amo => exact hj ▸ hamo
  case not_fence =>
    rw [hj]
    by_contra hf
    exact hcsr (sb_fence ins _ (by simpa [port0, Scoreboard.commitInstr] using hf))
  case flag => exact h.flag
  case step =>
    have hack := Commit.commit_ack1 (Backend.commitInput (core.run ins).be (backendIn (core.run ins) i))
    rw [show (Commit.commit _).commitAck.ack1 = true from h.ack1] at hack
    simp only [Bool.true_eq, Bool.and_eq_true, Bool.not_eq_true'] at hack
    exact hack.1.2
  case noDcacheFlush =>
    rw [run_ctrl]
    rfl

def afterFirst (ins : List Input) (i : Input) : State := solo.next (core.run ins) i.still

theorem Dual.first_still (h : Dual ins i) :
    Backend.Ordinary (core.run ins).be (soloIn (core.run ins) i.still) ∧
      soloFlushes (core.run ins) i.still = ⟨false, false, false, false, false, false, false, false⟩ ∧
      (soloOut (core.run ins) i.still).commitAck = ⟨true, false⟩ := by
  have hord := h.ordinary (soloIn (core.run ins) i.still) rfl
  have hack0 : (soloOut (core.run ins) i.still).commitAck.ack0 = true :=
    soloOut_port0.1.trans (of_ack1 h.ack1).1
  refine ⟨hord, hord.flushes rfl, ?_⟩
  have hack1 := soloOut_ack1 (core.run ins) i.still
  revert hack0 hack1
  cases (soloOut (core.run ins) i.still).commitAck
  rintro rfl rfl
  rfl

theorem Dual.commitPointer1 (h : Dual ins i) :
    (core.run ins).sb.commitPointer1 = (core.run ins).sb.commitPointer0 + 1 := by
  have hvalid := (port0_of_retiring (retiring_of_ack0 (of_ack1 h.ack1).1)).1
  have hok := sb_ok ins
  exact hok.commitPointer1_of_pos (hok.count_pos_of_valid0 hvalid)

theorem Dual.sb_next (h : Dual ins i) : ∃ j : Scoreboard.Input, Scoreboard.Still j ∧
    j.commitAck = ⟨true, false⟩ ∧ (afterFirst ins i).sb = Scoreboard.next (core.run ins).sb j := by
  obtain ⟨-, hflush, hack⟩ := h.first_still
  refine ⟨_, ⟨?_, rfl, rfl⟩, hack, rfl⟩
  show (soloFlushes (core.run ins) i.still).flushId = false
  rw [hflush]

theorem Dual.port0_next (h : Dual ins i) : port0 (afterFirst ins i) = port1 (core.run ins) := by
  obtain ⟨j, hj, hack, hsb⟩ := h.sb_next
  have hptr := h.commitPointer1
  have hfu := (of_port1Fu (of_ack1 h.ack1).2.2.2.2.2).2.2
  have hfu : (((core.run ins).sb.mem (core.run ins).sb.commitPointer1).sbe.fu == .NONE) = false :=
    beq_false_of_ne hfu
  have hne : (core.run ins).sb.commitPointer1 ≠ (core.run ins).sb.commitPointer0 := by
    rw [hptr]
    generalize (core.run ins).sb.commitPointer0 = x
    revert x
    decide
  have hstays : Scoreboard.settle ((core.run ins).sb.mem (core.run ins).sb.commitPointer1)
      (Scoreboard.ackedSlot (core.run ins).sb j (core.run ins).sb.commitPointer1) =
        (core.run ins).sb.mem (core.run ins).sb.commitPointer1 := by
    unfold Scoreboard.settle Scoreboard.ackedSlot
    rw [hack, hfu, beq_false_of_ne hne]
    rfl
  unfold port0 port1 Scoreboard.commitInstr
  rw [hsb, hj.next, hack]
  show { (Scoreboard.settle _ _).sbe with transId := (core.run ins).sb.commitPointer0 + 1 } = _
  rw [show (core.run ins).sb.commitPointer0 + Scoreboard.numCommit ⟨true, false⟩ =
    (core.run ins).sb.commitPointer1 from hptr.symm, ← hptr, hstays]

theorem Dual.second (h : Dual ins i) (hflag : Backend.flag (afterFirst ins i).be = false)
    (j : Input) : Backend.Ordinary (afterFirst ins i).be (soloIn (afterFirst ins i) j) := by
  obtain ⟨hord, -, -⟩ := h.first_still
  obtain ⟨-, hvalid, hex, -, -, hfu⟩ := of_ack1 h.ack1
  obtain ⟨hcsr, hstore, -⟩ := of_port1Fu hfu
  have hport : (soloIn (afterFirst ins i) j).commitInstr.instr0 = port1 (core.run ins) :=
    h.port0_next
  have hctrl : (afterFirst ins i).be.ctrl = Controller.reset := by
    show Controller.next (core.run ins).be.ctrl = Controller.reset
    rw [run_ctrl]
    rfl
  constructor
  case retiring =>
    have hhalt : Backend.halt (afterFirst ins i).be = false := by
      unfold Backend.halt
      rw [hctrl, show (afterFirst ins i).be.csr.wfi = false from hord.wfi]
      rfl
    unfold Backend.retiring
    rw [hport, hvalid, hex, hhalt]
    rfl
  case not_csr => exact hport ▸ hcsr
  case not_amo =>
    rw [hport]
    by_contra hamo
    exact hstore (sb_amo ins _ (by simpa [port1, Scoreboard.commitInstr] using hamo))
  case not_fence =>
    rw [hport]
    by_contra hf
    exact hcsr (sb_fence ins _ (by simpa [port1, Scoreboard.commitInstr] using hf))
  case flag => exact hflag
  case step => exact hord.step_next
  case noDcacheFlush =>
    rw [hctrl]
    rfl

theorem Dual.second_ack (h : Dual ins i) (hflag : Backend.flag (afterFirst ins i).be = false)
    (j : Input) : (soloOut (afterFirst ins i) j).commitAck = ⟨true, false⟩ := by
  have hstore := (of_port1Fu (of_ack1 h.ack1).2.2.2.2.2).2.1
  have hport : (soloIn (afterFirst ins i) j).commitInstr.instr0 = port1 (core.run ins) :=
    h.port0_next
  have hack0 : (soloOut (afterFirst ins i) j).commitAck.ack0 = true := by
    refine (h.second hflag j).ack0.trans ?_
    rw [hport, beq_false_of_ne hstore]
    rfl
  have hack1 := soloOut_ack1 (afterFirst ins i) j
  revert hack0 hack1
  cases (soloOut (afterFirst ins i) j).commitAck
  rintro rfl rfl
  rfl

theorem Dual.commitAck (h : Dual ins i) : (out (core.run ins) i).commitAck = ⟨true, true⟩ := by
  have hack0 : (out (core.run ins) i).commitAck.ack0 = true := (of_ack1 h.ack1).1
  have hack1 : (out (core.run ins) i).commitAck.ack1 = true := h.ack1
  revert hack0 hack1
  cases (out (core.run ins) i).commitAck
  rintro rfl rfl
  rfl

theorem Dual.sb_eq (h : Dual ins i) (hflag : Backend.flag (afterFirst ins i).be = false)
    (j : Input) : (core.next (core.run ins) i.still).sb = (solo.next (afterFirst ins i) j.still).sb := by
  obtain ⟨k, hk, hkack, hsb⟩ := h.sb_next
  have hboth : Scoreboard.Still (sbIn (core.run ins) i.still) := by
    refine ⟨?_, rfl, rfl⟩
    show (Backend.flushes _ _).flushId = false
    rw [(h.ordinary (backendIn (core.run ins) i.still) rfl).flushes rfl]
  have hlast : (soloFlushes (afterFirst ins i) j.still).flushId = false := by
    rw [soloFlushes, (h.second hflag j.still).flushes rfl]
  show Scoreboard.next _ _ = Scoreboard.next (afterFirst ins i).sb _
  rw [hsb]
  exact Scoreboard.two_acks hboth hk ⟨hlast, rfl, rfl⟩ h.commitPointer1 h.commitAck hkack
    (h.second_ack hflag j.still)

theorem Dual.regfile_eq (h : Dual ins i) (hflag : Backend.flag (afterFirst ins i).be = false)
    (j : Input) (hj : j.amoResp.ack = false) : (core.next (core.run ins) i).iro.regfile =
      (solo.next (afterFirst ins i) j).iro.regfile := by
  obtain ⟨-, hwe, hdata, -⟩ := soloOut_port0 (s := core.run ins) (i := i.still)
  have hsecond := h.second hflag j
  have hport : (soloIn (afterFirst ins i) j).commitInstr.instr0 = port1 (core.run ins) :=
    h.port0_next
  have hwe1 : (out (core.run ins) i).weGpr1 = true :=
    (Commit.commit_weGpr1 _).trans h.ack1
  have hwe1' (s : State) (j : Input) : (soloOut s j).weGpr1 = false :=
    (Commit.commit_weGpr1 _).trans (soloOut_ack1 s j)
  have hdata1 : (out (core.run ins) i).wdata1 = (port1 (core.run ins)).result :=
    Commit.commit_wdata1 _
  have hwe' : (soloOut (afterFirst ins i) j).weGpr0 = true := hsecond.weGpr0
  have hdata' : (soloOut (afterFirst ins i) j).wdata0 = (port1 (core.run ins)).result :=
    (hsecond.wdata0 hj).trans (congrArg ScoreboardEntry.result hport)
  have haddr : (Backend.commitInput (afterFirst ins i).be (soloIn (afterFirst ins i) j)).waddr0 =
      (Backend.commitInput (core.run ins).be (backendIn (core.run ins) i)).waddr1 :=
    congrArg (fun e : ScoreboardEntry => e.rd.setWidth 5) hport
  funext n
  show ReadOperands.regfileNext _ (commitWrite (core.run ins) i) n =
    ReadOperands.regfileNext (ReadOperands.regfileNext _ (soloWrite (core.run ins) i.still))
      (soloWrite (afterFirst ins i) j) n
  unfold ReadOperands.regfileNext commitWrite soloWrite
  simp only [hwe1', hwe1, hwe, hdata, hwe', hdata1, hdata', haddr, Bool.false_and,
    Bool.true_and, Bool.false_eq_true, if_false]
  by_cases hn : n = 0
  · rw [if_pos hn, if_pos hn]
  · simp only [if_neg hn]
    rfl

theorem Dual.instret_eq (h : Dual ins i) (hflag : Backend.flag (afterFirst ins i).be = false)
    (j : Input) : (core.next (core.run ins) i).be.csr.instret =
      (solo.next (afterFirst ins i) j).be.csr.instret := by
  obtain ⟨hord, -, hack⟩ := h.first_still
  have hboth := (h.ordinary (backendIn (core.run ins) i) rfl).instret
  have hfirst := hord.instret
  have hlast := (h.second hflag j).instret
  rw [show (Backend.out (core.run ins).be (backendIn (core.run ins) i)).commitAck = _ from
    h.commitAck] at hboth
  rw [show (Backend.out (core.run ins).be (soloIn (core.run ins) i.still)).commitAck = _ from
    hack] at hfirst
  rw [show (Backend.out (afterFirst ins i).be (soloIn (afterFirst ins i) j)).commitAck = _ from
    h.second_ack hflag j, show (afterFirst ins i).be.csr.instret = _ from hfirst,
    show (afterFirst ins i).be.csr.debugMode = _ from hord.debugMode] at hlast
  refine hboth.trans (Eq.trans ?_ hlast.symm)
  cases (core.run ins).be.csr.debugMode with
  | true => rfl
  | false =>
      have hzero (x : XLen) : x + 0 = x := BitVec.add_zero x
      simp only [if_true, Bool.false_eq_true, if_false, hzero]

theorem Dual.commitLsu (h : Dual ins i) (j : Input) :
    (soloOut (core.run ins) i.still).commitLsu = (out (core.run ins) i).commitLsu ∧
      (soloOut (afterFirst ins i) j).commitLsu = false := by
  refine ⟨soloOut_port0.2.2.2, ?_⟩
  have hstore := (of_port1Fu (of_ack1 h.ack1).2.2.2.2.2).2.1
  have hport : (Backend.commitInput (afterFirst ins i).be (soloIn (afterFirst ins i) j)).instr0 =
      port1 (core.run ins) := h.port0_next
  refine (Commit.commit_commitLsu _).trans ?_
  rw [hport, beq_false_of_ne hstore, Bool.and_false, Bool.false_and, Bool.false_and]

end Dual

/-- While the violation flag is down, a cycle that acknowledges both ports leaves the register
file, the scoreboard, the counter of retired instructions and the requests to the store buffer as
two cycles with one port do; and the second instruction, alone at port 0 in the cycle after,
retires without a trap, a flush, a CSR operation, a store or an atomic. -/
theorem dual_commit (ins : List Input) (i : Input) (hack : ack1 (core.run ins) i = true)
    (hflag : Backend.flag (core.run ins).be = false)
    (hflag' : Backend.flag (afterFirst ins i).be = false) (j : Input)
    (hj : j.amoResp.ack = false) :
    let both := core.next (core.run ins) i.still
    let last := solo.next (afterFirst ins i) j.still
    (both.iro.regfile = last.iro.regfile ∧ both.sb = last.sb ∧
        both.be.csr.instret = last.be.csr.instret ∧
        (soloOut (core.run ins) i.still).commitLsu = (out (core.run ins) i.still).commitLsu ∧
        (soloOut (afterFirst ins i) j.still).commitLsu = false) ∧
      port0 (afterFirst ins i) = port1 (core.run ins) ∧
      (soloOut (afterFirst ins i) j.still).commitAck = ⟨true, false⟩ ∧
      (Backend.ex (afterFirst ins i).be (soloIn (afterFirst ins i) j.still)).valid = false ∧
      soloFlushes (afterFirst ins i) j.still =
        ⟨false, false, false, false, false, false, false, false⟩ ∧
      Backend.Silent (soloOut (afterFirst ins i) j.still) := by
  have h : Dual ins i := ⟨hack, hflag⟩
  have hstill : Dual ins i.still := ⟨hack, hflag⟩
  have hsecond := h.second hflag' j.still
  intro both last
  refine ⟨⟨?_, ?_, ?_, ?_, ?_⟩, h.port0_next, h.second_ack hflag' _, hsecond.ex,
    hsecond.flushes rfl, hsecond.silent⟩
  · exact hstill.regfile_eq hflag' j.still hj
  · exact h.sb_eq hflag' j
  · exact hstill.instret_eq hflag' j.still
  · exact (hstill.commitLsu j).1
  · exact (h.commitLsu _).2

/-- `addi x1, x0, 1` and `addi x2, x0, 2` complete in the same cycle. -/
def twoReady : List Input :=
  [.offer 0x00100093, .offer 0x00200113,
    { Input.quiet with wb := [⟨0, 1, default, true⟩, ⟨1, 2, default, true⟩] }]

theorem dual_commit_twoReady :
    ack1 (core.run twoReady) .quiet = true ∧
      (core.next (core.run twoReady) Input.quiet.still).sb =
        (solo.next (afterFirst twoReady .quiet) Input.quiet.still).sb := by
  have hack : ack1 (core.run twoReady) .quiet = true := by decide +kernel
  refine ⟨hack, ?_⟩
  exact (dual_commit twoReady .quiet hack (by decide +kernel) (by decide +kernel) .quiet rfl).1.2.1

end Cva6.Core
