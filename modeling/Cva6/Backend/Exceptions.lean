import Cva6.Backend.Model
/-!
# Exceptions at commit

An exception taken by the commit stage belongs to an instruction that does not
retire, and it excludes a return from a trap in the same cycle. Both rest on the
CSR file raising its exception only for the CSR instruction at port 0. The
violation flag breaks this: it raises the exception for any instruction, and the
commit stage looks at it for CSR instructions only.
-/

namespace Cva6.Backend

open Cva6.Sync

variable (s : State) (i : Input)

/-! ## Precise exceptions -/

/-- If an exception is taken, nothing is retired, written, committed or flushed
by the instructions at the commit ports. -/
def Precise : Prop :=
  (ex s i).valid = true →
    (out s i).commitAck = ⟨false, false⟩ ∧
      (out s i).weGpr0 = false ∧ (out s i).weGpr1 = false ∧
      (out s i).weFpr0 = false ∧ (out s i).weFpr1 = false ∧
      (out s i).commitLsu = false ∧ (out s i).commitCsr = false ∧
      (out s i).amoValidCommit = false ∧ (out s i).fenceI = false ∧
      (out s i).fence = false ∧ (out s i).sfenceVma = false ∧
      (out s i).flushCommit = false

instance : Decidable (Precise s i) := inferInstanceAs (Decidable (_ → _))

/-- The instruction at port 0 is stopped by an exception of the CSR file: it is
a CSR instruction, and not a fence that is ready to take effect. -/
def StoppedByCsr (i : Input) : Prop :=
  i.commitInstr.instr0.fu = .CSR ∧ isAmo i.commitInstr.instr0.op = false ∧
    (i.noStPending = true → isFence i.commitInstr.instr0.op = false)

instance : Decidable (StoppedByCsr i) := inferInstanceAs (Decidable (_ ∧ _ ∧ (_ → _)))

theorem isAmo_of_isAccess {op : FuOp} (h : Csr.isAccess op = true) : isAmo op = false := by
  cases op <;> simp_all [Csr.isAccess, isAmo]

theorem isFence_of_isAccess {op : FuOp} (h : Csr.isAccess op = true) : isFence op = false := by
  cases op <;> simp_all [Csr.isAccess, isFence]

/-- A CSR exception stops exactly the instructions of `StoppedByCsr`. -/
theorem precise_iff_stopped (hret : retiring s i = true)
    (hex : (csrException s i).valid = true) (hdc : s.ctrl.flushDcache = false) :
    Precise s i ↔ StoppedByCsr i := by
  have hvalid : (ex s i).valid = true := by rw [(ex_of_retiring s i hret).1, hex]
  have hr : (commitInput s i).retiring = true := hret
  have hce : (commitInput s i).csrException.valid = true := hex
  have hfd : (commitInput s i).flushDcache = false := hdc
  have hack1 : (out s i).commitAck.ack1 = false := by
    rw [out, Commit.commit_ack1, show (Commit.exceptionHandling (commitInput s i)).valid = true
      from hvalid]
    simp
  constructor
  · intro h
    obtain ⟨-, hwe, -, -, -, -, -, hamo, hfi, hf, hsf, -⟩ := h hvalid
    rw [out, Commit.commit_amoValidCommit, hr, Bool.true_and] at hamo
    rw [out, Commit.commit_weGpr0, hr, hamo, hce] at hwe
    rw [out, Commit.commit_fenceI, hr, hfd] at hfi
    rw [out, Commit.commit_fence, hr] at hf
    rw [out, Commit.commit_sfenceVma, hr] at hsf
    refine ⟨by simpa using hwe, hamo, ?_⟩
    intro hst
    simp_all [isFence]
  · rintro ⟨hfu, hamo, hfence⟩ -
    have hfu' : ((commitInput s i).instr0.fu == Fu.CSR) = true := by simpa using hfu
    have hnst : ((commitInput s i).instr0.fu == Fu.STORE) = false := by simp [hfu]
    have hamo' : (commitInput s i).instr0IsAmo = false := hamo
    have hnf : (isFence i.commitInstr.instr0.op && (commitInput s i).noStPending) = false := by
      cases hst : i.noStPending with
      | false => simp [hst]
      | true => simp [hfence hst]
    have hack0 : (out s i).commitAck.ack0 = false := by
      rw [out, Commit.commit_ack0]
      simp_all [isFence]
    refine ⟨?_, ?_, ?_, Commit.commit_weFpr0 _, Commit.commit_weFpr1 _, ?_, ?_, ?_, ?_, ?_, ?_, ?_⟩
    · exact CommitAck.ext hack0 hack1
    · rw [out, Commit.commit_weGpr0, hamo', hfu', hce]
      simp
    · rw [out, Commit.commit_weGpr1]
      exact hack1
    · rw [out, Commit.commit_commitLsu, hnst]
      simp
    · rw [out, Commit.commit_commitCsr, hce]
      simp
    · rw [out, Commit.commit_amoValidCommit, hamo']
      simp
    · rw [out, Commit.commit_fenceI, hfd]
      simp_all [isFence]
    · rw [out, Commit.commit_fence]
      simp_all [isFence]
    · rw [out, Commit.commit_sfenceVma]
      simp_all [isFence]
    · rw [out, Commit.commit_flushCommit, hamo']
      simp

theorem precise_of_not_retiring (hret : retiring s i = false) : Precise s i := by
  intro _
  have hr : (commitInput s i).retiring = false := hret
  have hack0 : (out s i).commitAck.ack0 = false := by
    rw [out, Commit.commit_ack0, hr, Bool.false_and]
  have hack1 : (out s i).commitAck.ack1 = false := by
    rw [out, Commit.commit_ack1, ← out, hack0]
    simp
  refine ⟨CommitAck.ext hack0 hack1, ?_, ?_, Commit.commit_weFpr0 _, Commit.commit_weFpr1 _,
    ?_, ?_, ?_, ?_, ?_, ?_, ?_⟩
  · rw [out, Commit.commit_weGpr0, hr, Bool.false_and]
  · rw [out, Commit.commit_weGpr1]
    exact hack1
  · simp [out, Commit.commit_commitLsu, hr]
  · simp [out, Commit.commit_commitCsr, hr]
  · simp [out, Commit.commit_amoValidCommit, hr]
  · simp [out, Commit.commit_fenceI, hr]
  · simp [out, Commit.commit_fence, hr]
  · simp [out, Commit.commit_sfenceVma, hr]
  · simp [out, Commit.commit_flushCommit, hr]

/-- In every reachable state exceptions are precise, except exactly when the
violation flag is up and port 0 is retiring an instruction that an exception of
the CSR file does not stop. -/
theorem precise_iff (ins : List Input) (i : Input) :
    Precise (backend.run ins) i ↔
      ¬(flag (backend.run ins) = true ∧ retiring (backend.run ins) i = true ∧
        ¬StoppedByCsr i) := by
  have hdc : (backend.run ins).ctrl.flushDcache = false := by rw [run_ctrl]; rfl
  generalize backend.run ins = s at hdc ⊢
  cases hret : retiring s i with
  | false => simp [precise_of_not_retiring s i hret]
  | true =>
      cases hex : (csrException s i).valid with
      | true =>
          rw [precise_iff_stopped s i hret hex hdc]
          rcases csrException_cases s i hex with hflag | ⟨-, hfu, hop⟩
          · simp [hflag]
          · have hstop : StoppedByCsr i :=
              ⟨hfu, isAmo_of_isAccess hop, fun _ => isFence_of_isAccess hop⟩
            simp [hstop]
      | false =>
          have hvalid : (ex s i).valid = false := by rw [(ex_of_retiring s i hret).1, hex]
          have hflag : flag s = false := by
            by_contra hflag
            simp [csrException_valid_of_flag s i (by simpa using hflag)] at hex
          simp [Precise, hvalid, hflag]

/-! ## Traps and returns -/

/-- A trap and a return are never taken in the same cycle, and a trap enters its
mode with the interrupted privilege and enable bit stacked. -/
def TrapExclusive : Prop :=
  let q := s.csr
  let q' := (backend.next s i).csr
  let lvl := Csr.trapToPrivLvl q (retire s i)
  ¬((csrUpdate s i).eret = true ∧ (ex s i).valid = true) ∧
    (Csr.takesTrap q (retire s i) = true →
      q'.privLvl = lvl ∧ Csr.xpp q'.mstatus lvl = q.privLvl ∧
        Csr.xpie q'.mstatus lvl = Csr.xie q.mstatus lvl)

/-- A trap is delegated to supervisor mode from the unnamed privilege encoding
`10`, which the single bit `spp` cannot hold. -/
def UnstackablePrivilege : Prop :=
  Csr.takesTrap s.csr (retire s i) = true ∧ Csr.delegated s.csr (ex s i) = true ∧
    s.csr.privLvl = 2

theorem upper_bit_clear_iff (v : Riscv.PrivLvl) :
    (v ≠ Riscv.privLvlM → v.getLsbD 1 = false) ↔ ¬v = 2 := by
  revert v
  decide

theorem csrUpdate_eret_iff :
    (csrUpdate s i).eret = true ↔
      retiring s i = true ∧ i.commitInstr.instr0.fu = .CSR ∧
        Csr.isXret i.commitInstr.instr0.op = true := by
  rw [csrUpdate, Csr.csrUpdate_eret]
  simp only [csrAccess, out_csrOp, csrSelect]
  by_cases hc : (retiring s i && i.commitInstr.instr0.fu == .CSR) = true
  · rw [if_pos hc]
    simp_all [Csr.isXret]
  · rw [if_neg hc]
    simp only [Bool.and_eq_true, beq_iff_eq, not_and] at hc
    simp only [Csr.isXret]
    constructor
    · intro h
      simp at h
    · rintro ⟨hret, hfu, -⟩
      exact absurd hfu (hc hret)

/-- The two events coincide exactly when the flag is up at a return. -/
theorem eret_and_ex_iff :
    ((csrUpdate s i).eret = true ∧ (ex s i).valid = true) ↔
      (flag s = true ∧ retiring s i = true ∧ i.commitInstr.instr0.fu = .CSR ∧
        Csr.isXret i.commitInstr.instr0.op = true) := by
  rw [csrUpdate_eret_iff]
  constructor
  · rintro ⟨⟨hret, hfu, hop⟩, hex⟩
    rw [(ex_of_retiring s i hret).1] at hex
    rcases csrException_cases s i hex with hflag | ⟨-, -, hacc⟩
    · exact ⟨hflag, hret, hfu, hop⟩
    · revert hop hacc
      cases i.commitInstr.instr0.op <;> simp [Csr.isXret, Csr.isAccess]
  · rintro ⟨hflag, hret, hfu, hop⟩
    refine ⟨⟨hret, hfu, hop⟩, ?_⟩
    rw [(ex_of_retiring s i hret).1]
    exact csrException_valid_of_flag s i hflag

/-- In every reachable state traps and returns are exclusive and trap entry
stacks the interrupted context, except exactly when the violation flag is up at a
retiring `xRET`, or when a trap is delegated from the privilege encoding `10`. -/
theorem trapExclusive_iff (ins : List Input) (i : Input) :
    TrapExclusive (backend.run ins) i ↔
      ¬(flag (backend.run ins) = true ∧ retiring (backend.run ins) i = true ∧
          i.commitInstr.instr0.fu = .CSR ∧ Csr.isXret i.commitInstr.instr0.op = true) ∧
        ¬UnstackablePrivilege (backend.run ins) i := by
  generalize backend.run ins = s
  rw [← eret_and_ex_iff]
  unfold TrapExclusive
  refine and_congr_right ?_
  intro hexcl
  cases htrap : Csr.takesTrap s.csr (retire s i) with
  | false => simp [UnstackablePrivilege, htrap]
  | true =>
      have hexv : (ex s i).valid = true := by
        have htrap' := htrap
        simp only [Csr.takesTrap, Bool.and_eq_true] at htrap'
        exact htrap'.2
      have heret : (csrUpdate s i).eret = false := by
        by_contra h
        exact hexcl ⟨by simpa using h, hexv⟩
      obtain ⟨hpriv, hpie, hpp⟩ :=
        Csr.csrUpdate_trap s.csr i.platform (csrAccess s i) (retire s i) htrap heret
      have hstack : (Csr.trapToPrivLvl s.csr (retire s i) = Riscv.privLvlS →
          s.csr.privLvl.getLsbD 1 = false) ↔ ¬UnstackablePrivilege s i := by
        rw [Csr.trapToPrivLvl_eq_S_iff, UnstackablePrivilege]
        constructor
        · rintro h ⟨-, hdel, hpriv⟩
          exact (upper_bit_clear_iff _).mp (fun hM => h ⟨htrap, hdel, hM⟩) hpriv
        · rintro h ⟨-, hdel, hM⟩
          exact (upper_bit_clear_iff _).mpr (fun hpriv => h ⟨htrap, hdel, hpriv⟩) hM
      rw [← hstack, ← hpp]
      constructor
      · intro h
        exact (h rfl).2.1
      · intro h _
        exact ⟨hpriv, h, hpie⟩

/-! ## Runs that raise the violation flag -/

/-- A cycle with `e` alone at port 0, with the load-store unit ready and no store
pending. -/
def Input.at0 (e : ScoreboardEntry) : Input :=
  { (default : Input) with
    commitInstr := ⟨e, default⟩, commitLsuReady := true, noStPending := true }

/-- A return, a marker and an empty cycle: the flag is up afterwards. -/
def violation : List Input := [.at0 Cfi.returnInstr, .at0 Cfi.markerInstr, .at0 default]

def addInstr : ScoreboardEntry :=
  { (default : ScoreboardEntry) with
    fu := .ALU, op := .ADD, rs1 := 6, rd := 5, result := 7, useImm := true, valid := true }

/-- With the flag up, an addition is acknowledged and writes its register in the
cycle in which its exception is taken. -/
theorem imprecise_after_violation :
    (ex (backend.run violation) (.at0 addInstr)).valid = true ∧
      (out (backend.run violation) (.at0 addInstr)).commitAck = ⟨true, false⟩ ∧
      (out (backend.run violation) (.at0 addInstr)).weGpr0 = true ∧
      ¬Precise (backend.run violation) (.at0 addInstr) := by
  decide +kernel

def mretInstr : ScoreboardEntry :=
  { (default : ScoreboardEntry) with fu := .CSR, op := .MRET, valid := true }

/-- With the flag up, an `mret` returns in the cycle in which its exception is
taken: the machine trap is lost and the privilege drops to user mode. -/
theorem mret_with_trap_after_violation :
    (csrUpdate (backend.run violation) (.at0 mretInstr)).eret = true ∧
      (ex (backend.run violation) (.at0 mretInstr)).valid = true ∧
      Csr.trapToPrivLvl (backend.run violation).csr
        (retire (backend.run violation) (.at0 mretInstr)) = Riscv.privLvlM ∧
      (backend.run (violation ++ [.at0 mretInstr])).csr.privLvl = Riscv.privLvlU := by
  decide +kernel

end Cva6.Backend
