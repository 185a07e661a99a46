import Cva6.Pkg
import Cva6.Sync.Machine
import Cva6.Sync.Ring
/-!
# The scoreboard

`scoreboard.sv` with `NR_ENTRIES = 8` and two commit ports; the number of
write-back ports is arbitrary. The process `issue_fifo` assigns the slots of `mem_n` in loops over
slots and ports; `issueFifo` is that process seen from one slot.
-/

namespace Cva6.Issue.Scoreboard

open Cva6.Sync

structure Slot where
  issued : Bool
  isRdFprFlag : Bool
  sbe : ScoreboardEntry
  deriving DecidableEq, Repr, Inhabited

structure Regs where
  mem : TransId → Slot
  issueCnt : BitVec 3
  issuePointer : TransId
  commitPointer0 : TransId
  commitPointer1 : TransId

def reset : Regs := ⟨fun _ => ⟨false, false, default⟩, 0, 0, 0, 0⟩

/-- One write-back port: `trans_id_i`, `wbdata_i`, `ex_i` and `wt_valid_i`. -/
structure WbPort where
  transId : TransId
  data : XLen
  ex : Exception
  valid : Bool
  deriving DecidableEq, Repr, Inhabited

structure Input where
  flushUnissuedInstr : Bool
  flush : Bool
  commitAck : CommitAck
  decodedInstr : ScoreboardEntry
  decodedInstrValid : Bool
  issueAck : Bool
  /-- `resolved_branch_i.target_address`. -/
  targetAddress : XLen
  wb : List WbPort
  deriving DecidableEq, Repr, Inhabited

variable (q : Regs) (i : Input)

/-! ## Outputs -/

def issueFull : Bool := q.issueCnt == 7

def commitInstr : CommitPorts where
  instr0 := { (q.mem q.commitPointer0).sbe with transId := q.commitPointer0 }
  instr1 := { (q.mem q.commitPointer1).sbe with transId := q.commitPointer1 }

def issueInstr (decoded : ScoreboardEntry) : ScoreboardEntry :=
  { decoded with transId := q.issuePointer }

/-- `issue_instr_valid_o`; `unresolved_branch_i` is tied to zero. -/
def issueInstrValid (decodedValid : Bool) : Bool := decodedValid && !issueFull q

def decodedInstrAck (issueAck : Bool) : Bool := issueAck && !issueFull q

def slots : List TransId := [0, 1, 2, 3, 4, 5, 6, 7]

/-- `rd_clobber_gpr_o`: the unit of the lowest slot that writes the register. With
no request at all, as for `x0`, the arbiter answers zero. -/
def rdClobberGpr (r : RegAddr) : Fu :=
  let clobbers (n : TransId) : Bool :=
    (q.mem n).sbe.rd == r && (q.mem n).issued && !(q.mem n).isRdFprFlag
  if r = 0 then .NONE else ((slots.find? clobbers).map fun n => (q.mem n).sbe.fu).getD .NONE

/-- `rs1_o` with `rs1_valid_o`, and `rs2_o` with `rs2_valid_o`: the write-back
ports have priority over the slots, and lower ports and slots over higher ones. -/
def readOperand (wb : List WbPort) (r : RegAddr) : Option XLen :=
  let fromPort (p : WbPort) : Bool :=
    (q.mem p.transId).sbe.rd == r && p.valid && !p.ex.valid && !(q.mem p.transId).isRdFprFlag
  let fromSlot (n : TransId) : Bool :=
    (q.mem n).sbe.rd == r && (q.mem n).issued && (q.mem n).sbe.valid && !(q.mem n).isRdFprFlag
  if r = 0 then none
  else
    match wb.find? fromPort with
    | some p => some p.data
    | none => (slots.find? fromSlot).map fun n => (q.mem n).sbe.result

/-! ## The clocked process -/

def issueEn : Bool :=
  i.decodedInstrValid && decodedInstrAck q i.issueAck && !i.flushUnissuedInstr

def Slot.clear (s : Slot) : Slot := { s with issued := false, sbe.valid := false }

def Slot.flush (s : Slot) : Slot := { s.clear with sbe.ex.valid := false }

def Slot.complete (s : Slot) : Slot := { s with sbe.valid := true }

def writeBack (n : TransId) (s : Slot) (p : WbPort) : Slot :=
  if p.valid && p.transId == n && (q.mem n).issued then
    let ex :=
      if p.ex.valid then p.ex
      else if (q.mem n).sbe.fu == .FPU || (q.mem n).sbe.fu == .FPU_VEC then
        { s.sbe.ex with cause := p.ex.cause }
      else s.sbe.ex
    { s with
      sbe.valid := true, sbe.result := p.data, sbe.bp.predictAddress := i.targetAddress,
      sbe.ex := ex }
  else s

/-- The process `issue_fifo`, for slot `n`. -/
def issueFifo (n : TransId) : Slot :=
  let s := q.mem n
  let s :=
    if issueEn q i && n == q.issuePointer then
      ⟨true, isRdFpr i.decodedInstr.op, i.decodedInstr⟩ else s
  let s := if (q.mem n).sbe.fu == .NONE && (q.mem n).issued then s.complete else s
  let s := i.wb.foldl (writeBack q i n) s
  let s := if i.commitAck.ack0 && n == q.commitPointer0 then s.clear else s
  let s := if i.commitAck.ack1 && n == q.commitPointer1 then s.clear else s
  if i.flush then s.flush else s

def numCommit (a : CommitAck) : BitVec 3 :=
  (if a.ack0 then 1 else 0) + (if a.ack1 then 1 else 0)

def next : Regs :=
  let issueEn : BitVec 3 := if issueEn q i then 1 else 0
  let commitPointer0 := if i.flush then 0 else q.commitPointer0 + numCommit i.commitAck
  { mem := issueFifo q i
    issueCnt := if i.flush then 0 else q.issueCnt - numCommit i.commitAck + issueEn
    issuePointer := if i.flush then 0 else q.issuePointer + issueEn
    commitPointer0 := commitPointer0
    commitPointer1 := if i.flush then 0 else commitPointer0 + 1 }

/-! ## What the slots keep -/

def decodedFields (e : ScoreboardEntry) : ScoreboardEntry :=
  { e with result := 0, valid := false, ex := default, bp := default }

theorem decodedFields_eq {e e' : ScoreboardEntry} (h : decodedFields e' = decodedFields e) :
    (e'.fu = e.fu ∧ e'.op = e.op ∧ e'.rd = e.rd) ∧ (e'.rs1 = e.rs1 ∧ e'.rs2 = e.rs2 ∧ e'.pc = e.pc) ∧
      e'.useImm = e.useImm ∧ e'.useZimm = e.useZimm ∧ e'.usePc = e.usePc := by
  simp only [decodedFields, ScoreboardEntry.mk.injEq] at h
  simp [h]

theorem writeBack_decodedFields (n : TransId) (s : Slot) (p : WbPort) :
    decodedFields (writeBack q i n s p).sbe = decodedFields s.sbe := by
  unfold writeBack
  split <;> rfl

theorem foldl_writeBack_decodedFields (n : TransId) (wb : List WbPort) (s : Slot) :
    decodedFields (wb.foldl (writeBack q i n) s).sbe = decodedFields s.sbe := by
  induction wb generalizing s with
  | nil => rfl
  | cons p wb ih => rw [List.foldl_cons, ih, writeBack_decodedFields]

theorem issueFifo_decodedFields (n : TransId) :
    decodedFields (issueFifo q i n).sbe =
      decodedFields (if issueEn q i && n == q.issuePointer then i.decodedInstr
        else (q.mem n).sbe) := by
  let f (s : Slot) : ScoreboardEntry := decodedFields s.sbe
  have hclear (s : Slot) : f s.clear = f s := rfl
  have hflush (s : Slot) : f s.flush = f s := rfl
  have hcomplete (s : Slot) : f s.complete = f s := rfl
  have hwb (wb : List WbPort) (s : Slot) : f (wb.foldl (writeBack q i n) s) = f s :=
    foldl_writeBack_decodedFields q i n wb s
  show f (issueFifo q i n) = _
  simp only [issueFifo, apply_ite f, hclear, hflush, hcomplete, hwb, ite_self,
    apply_ite decodedFields]
  rfl

/-! ## What the issue stage is told -/

theorem mem_slots (n : TransId) : n ∈ slots := by
  revert n
  decide

/-- Every writer of the register is seen, unless its unit is `NONE`. -/
theorem rdClobberGpr_none {q : Regs} {r : RegAddr} (hr : r ≠ 0)
    (hfpr : ∀ n, (q.mem n).isRdFprFlag = false)
    (hfu : ∀ n, (q.mem n).issued = true → (q.mem n).sbe.fu ≠ .NONE)
    (h : rdClobberGpr q r = .NONE) (n : TransId) (hn : (q.mem n).issued = true) :
    (q.mem n).sbe.rd ≠ r := by
  intro hrd
  simp only [rdClobberGpr, if_neg hr] at h
  cases hfind : slots.find? fun n =>
      (q.mem n).sbe.rd == r && (q.mem n).issued && !(q.mem n).isRdFprFlag with
  | none =>
      have := List.find?_eq_none.mp hfind n (mem_slots n)
      simp [hrd, hn, hfpr] at this
  | some m =>
      rw [hfind] at h
      have hm := List.find?_some hfind
      simp only [Bool.and_eq_true] at hm
      exact hfu m hm.1.2 h

theorem of_rdClobberGpr_ne {q : Regs} {r : RegAddr} (h : rdClobberGpr q r ≠ .NONE) :
    r ≠ 0 ∧ ∃ n, (q.mem n).issued = true ∧ (q.mem n).sbe.rd = r ∧
      (q.mem n).sbe.fu = rdClobberGpr q r := by
  have hr : r ≠ 0 := by
    intro hr
    simp [rdClobberGpr, hr] at h
  refine ⟨hr, ?_⟩
  simp only [rdClobberGpr, if_neg hr] at h ⊢
  cases hfind : slots.find? fun n =>
      (q.mem n).sbe.rd == r && (q.mem n).issued && !(q.mem n).isRdFprFlag with
  | none => simp [hfind] at h
  | some m =>
      have hm := List.find?_some hfind
      simp only [Bool.and_eq_true, beq_iff_eq] at hm
      exact ⟨m, hm.1.2, hm.1.1, rfl⟩

/-- A forwarded value comes from a write-back port or from a slot. -/
theorem of_readOperand {q : Regs} {wb : List WbPort} {r : RegAddr} {v : XLen}
    (h : readOperand q wb r = some v) :
    (∃ p ∈ wb, p.valid = true ∧ (q.mem p.transId).sbe.rd = r ∧ p.data = v) ∨
      ∃ n, (q.mem n).issued = true ∧ (q.mem n).sbe.valid = true ∧ (q.mem n).sbe.rd = r ∧
        (q.mem n).sbe.result = v := by
  simp only [readOperand, Option.ite_none_left_eq_some] at h
  obtain ⟨-, h⟩ := h
  split at h
  · rename_i p hfind
    have hp := List.find?_some hfind
    simp only [Bool.and_eq_true, beq_iff_eq] at hp
    exact .inl ⟨p, List.mem_of_find?_eq_some hfind, hp.1.1.2, hp.1.1.1, Option.some.inj h⟩
  · obtain ⟨n, hfind, hv⟩ := Option.map_eq_some_iff.mp h
    have hn := List.find?_some hfind
    simp only [Bool.and_eq_true, beq_iff_eq] at hn
    exact .inr ⟨n, hn.1.1.2, hn.1.2, hn.1.1.1, hv⟩

/-- Commit acknowledges valid instructions only, and port 1 only with port 0. -/
def AckLegal : Prop :=
  (i.commitAck.ack0 = true → (commitInstr q).instr0.valid = true) ∧
    (i.commitAck.ack1 = true → i.commitAck.ack0 = true ∧ (commitInstr q).instr1.valid = true)

instance : Decidable (AckLegal q i) := inferInstanceAs (Decidable ((_ → _) ∧ (_ → _ ∧ _)))

end Cva6.Issue.Scoreboard
