import Cva6.Backend.Exceptions
/-!
# What flushes the pipeline

`flush_ex_o` collects causes from the commit stage, the CSR file and the
controller. The lemmas evaluate it for the instruction at port 0.
-/

namespace Cva6.Backend

variable (s : State) (i : Input)

theorem flushEx_eq :
    (flushes s i).flushEx =
      ((out s i).fence || (out s i).fenceI || (out s i).sfenceVma || (csrUpdate s i).flush ||
        (out s i).flushCommit || (ex s i).valid || (csrUpdate s i).eret ||
        (csrUpdate s i).setDebugPc) :=
  Controller.flushCtrl_flushEx _

theorem flushId_eq : (flushes s i).flushId = (flushes s i).flushEx :=
  Controller.flushCtrl_flushId _

theorem csr_causes (hop : Csr.isAccess (csrAccess s i).csrOp = false)
    (hxret : Csr.isXret (csrAccess s i).csrOp = false)
    (hcause : (ex s i).valid = true →
      (ex s i).cause ≠ Riscv.breakpoint ∧ (ex s i).cause ≠ Riscv.debugRequest) :
    (csrUpdate s i).flush = false ∧ (csrUpdate s i).eret = false ∧
      (csrUpdate s i).setDebugPc =
        (!s.csr.debugMode && s.csr.dcsr.step && (out s i).commitAck.ack0) := by
  refine ⟨Csr.csrUpdate_flush_of_idle _ _ _ _ hop, ?_, Csr.csrUpdate_setDebugPc _ _ _ _ hcause⟩
  show (Csr.csrUpdate _ _ _ _).eret = false
  rw [Csr.csrUpdate_eret]
  exact hxret

theorem csrException_of_not_csr (hfu : i.commitInstr.instr0.fu ≠ .CSR) :
    (csrException s i).valid = flag s := by
  cases hf : flag s with
  | true => exact csrException_valid_of_flag s i hf
  | false =>
      by_contra hne
      rcases csrException_cases s i (by simpa using hne) with h | ⟨-, h, -⟩
      · simp [hf] at h
      · exact hfu h

/-- An atomic that waits at port 0 for its answer is not flushed without the violation flag. -/
theorem flushEx_of_amo_waiting (hret : retiring s i = true)
    (hfu : i.commitInstr.instr0.fu = .STORE) (hamo : isAmo i.commitInstr.instr0.op = true)
    (hflag : flag s = false) (hack : i.amoResp.ack = false) : (flushes s i).flushEx = false := by
  have hop : (csrAccess s i).csrOp = .ADD := by
    show (out s i).csrOp = _
    rw [out_csrOp, csrSelect, hret, hfu]
    rfl
  have hexv : (ex s i).valid = false := by
    rw [(ex_of_retiring s i hret).1, csrException_of_not_csr s i (by simp [hfu]), hflag]
  have hack0 : (out s i).commitAck.ack0 = false := by
    have hamo' : (commitInput s i).instr0IsAmo = true := hamo
    have hresp : (commitInput s i).amoResp.ack = false := hack
    rw [out, Commit.commit_ack0, hamo', if_pos rfl, hresp, Bool.and_false]
  have hnot {op : FuOp} (h : isAmo op = false) : (i.commitInstr.instr0.op == op) = false := by
    rw [beq_eq_false_iff_ne]
    rintro rfl
    rw [h] at hamo
    cases hamo
  have houts : (out s i).fence = false ∧ (out s i).fenceI = false ∧ (out s i).sfenceVma = false ∧
      (out s i).flushCommit = false := by
    have hresp : (commitInput s i).amoResp.ack = false := hack
    refine ⟨?_, ?_, ?_, ?_⟩
    · simp [out, Commit.commit_fence, hnot (rfl : isAmo .FENCE = false)]
    · simp [out, Commit.commit_fenceI, hnot (rfl : isAmo .FENCE_I = false), hfu]
    · simp [out, Commit.commit_sfenceVma, hnot (rfl : isAmo .SFENCE_VMA = false)]
    · simp [out, Commit.commit_flushCommit, hresp]
  obtain ⟨hflush, heret, hdebug⟩ :=
    csr_causes s i (by rw [hop]; rfl) (by rw [hop]; rfl) (by simp [hexv])
  rw [flushEx_eq, houts.1, houts.2.1, houts.2.2.1, houts.2.2.2, hflush, heret, hdebug, hack0, hexv]
  simp

theorem flushEx_of_flag (hret : retiring s i = true) (hflag : flag s = true) :
    (flushes s i).flushEx = true := by
  rw [flushEx_eq, (ex_of_retiring s i hret).1, csrException_valid_of_flag s i hflag]
  simp

/-- A store that is ready to commit meets a flush when the violation flag is up or
a single step completes. -/
theorem flushEx_of_store (hret : retiring s i = true) (hfu : i.commitInstr.instr0.fu = .STORE)
    (hamo : isAmo i.commitInstr.instr0.op = false)
    (hfence : isFence i.commitInstr.instr0.op = false) (hready : i.commitLsuReady = true)
    (hdc : s.ctrl.flushDcache = false) :
    (flushes s i).flushEx = (flag s || (!s.csr.debugMode && s.csr.dcsr.step)) := by
  have hr : (commitInput s i).retiring = true := hret
  have hamo' : (commitInput s i).instr0IsAmo = false := hamo
  have hop : (csrAccess s i).csrOp = .ADD := by
    show (out s i).csrOp = _
    rw [out_csrOp, csrSelect, hret, hfu]
    rfl
  have hex := ex_of_retiring s i hret
  have hcause : (ex s i).valid = true →
      (ex s i).cause ≠ Riscv.breakpoint ∧ (ex s i).cause ≠ Riscv.debugRequest := by
    intro hv
    rw [hex.2 hv]
    decide
  have hexc : (csrException s i).valid = flag s := csrException_of_not_csr s i (by simp [hfu])
  simp only [isFence, Bool.or_eq_false_iff, beq_eq_false_iff_ne] at hfence
  have hack : (out s i).commitAck.ack0 = true := by
    rw [out, Commit.commit_ack0, hr, hamo']
    have hfd : (commitInput s i).flushDcache = false := hdc
    simp [hfence, hfu, hready, hfd]
  have hfd : (commitInput s i).flushDcache = false := hdc
  have houts : (out s i).fence = false ∧ (out s i).fenceI = false ∧ (out s i).sfenceVma = false ∧
      (out s i).flushCommit = false := by
    refine ⟨?_, ?_, ?_, ?_⟩
    · simp [out, Commit.commit_fence, hfence]
    · simp [out, Commit.commit_fenceI, hfence, hfd]
    · simp [out, Commit.commit_sfenceVma, hfence]
    · simp [out, Commit.commit_flushCommit, hamo']
  obtain ⟨hflush, heret, hdebug⟩ := csr_causes s i (by rw [hop]; rfl) (by rw [hop]; rfl) hcause
  rw [flushEx_eq, houts.1, houts.2.1, houts.2.2.1, houts.2.2.2, hflush, heret, hdebug, hack,
    hex.1, hexc]
  simp

theorem flushEx_of_not_retiring (hret : retiring s i = false)
    (hex : (i.commitInstr.instr0.valid && i.commitInstr.instr0.ex.valid) = false) :
    (flushes s i).flushEx = false := by
  have hr : (commitInput s i).retiring = false := hret
  have hexv : (ex s i).valid = false := by
    rw [ex, Commit.exceptionHandling_valid, commitInput_instr0]
    show (i.commitInstr.instr0.valid && _ && !halt s) = false
    rw [retiring] at hret
    cases hv : i.commitInstr.instr0.valid with
    | false => rfl
    | true =>
        rw [hv, Bool.true_and] at hex hret
        rw [hex] at hret
        have hhalt : halt s = true := by simpa using hret
        simp [hhalt]
  have hop : (csrAccess s i).csrOp = .ADD := by
    show (out s i).csrOp = _
    rw [out_csrOp, csrSelect, hret]
    rfl
  have hack : (out s i).commitAck.ack0 = false := by
    rw [out, Commit.commit_ack0, hr]
    rfl
  have houts : (out s i).fence = false ∧ (out s i).fenceI = false ∧ (out s i).sfenceVma = false ∧
      (out s i).flushCommit = false := by
    refine ⟨?_, ?_, ?_, ?_⟩
    · simp [out, Commit.commit_fence, hret]
    · simp [out, Commit.commit_fenceI, hret]
    · simp [out, Commit.commit_sfenceVma, hret]
    · simp [out, Commit.commit_flushCommit, hret]
  obtain ⟨hflush, heret, hdebug⟩ :=
    csr_causes s i (by rw [hop]; rfl) (by rw [hop]; rfl) (by simp [hexv])
  rw [flushEx_eq, houts.1, houts.2.1, houts.2.2.1, houts.2.2.2, hflush, heret, hdebug, hack, hexv]
  simp

theorem flushEx_of_ack_barrier (hack : (out s i).commitAck.ack0 = true)
    (hb : isAmo i.commitInstr.instr0.op = true ∨ isFence i.commitInstr.instr0.op = true) :
    (flushes s i).flushEx = true := by
  have hack' := hack
  rw [out, Commit.commit_ack0, Bool.and_eq_true] at hack'
  obtain ⟨hr, hack'⟩ := hack'
  rw [flushEx_eq]
  cases hamo : isAmo i.commitInstr.instr0.op with
  | true =>
      have hamo' : (commitInput s i).instr0IsAmo = true := hamo
      rw [hamo', if_pos rfl] at hack'
      have : (out s i).flushCommit = true := by
        rw [out, Commit.commit_flushCommit, hr, hamo', hack']
        rfl
      simp [this]
  | false =>
      have hamo' : (commitInput s i).instr0IsAmo = false := hamo
      have hfence : isFence i.commitInstr.instr0.op = true := by simpa [hamo] using hb
      simp only [isFence, Bool.or_eq_true, beq_iff_eq] at hfence
      rw [hamo'] at hack'
      rcases hfence with (hop | hop) | hop
      · have hst : i.noStPending = true := by
          simpa [hop] using hack'
        have : (out s i).sfenceVma = true := by
          simp [out, Commit.commit_sfenceVma, hr, hop, hst]
        simp [this]
      · have hst : i.noStPending = true := by simpa [hop] using hack'
        have : (out s i).fence = true := by
          simp [out, Commit.commit_fence, hr, hop, hst]
        simp [this]
      · have hst : i.noStPending = true := by simpa [hop] using hack'
        have : (out s i).fenceI = true := by
          simp [out, Commit.commit_fenceI, hr, hop, hst]
        simp [this]

/-- An `SFENCE.VMA` that waits at port 0 is not flushed without the violation flag. -/
theorem flushEx_of_sfence_waiting (hop : i.commitInstr.instr0.op = .SFENCE_VMA)
    (hex : i.commitInstr.instr0.ex.valid = false) (hflag : flag s = false)
    (hack : (out s i).commitAck.ack0 = false) (hdc : s.ctrl.flushDcache = false) :
    (flushes s i).flushEx = false := by
  have hcsr : (csrException s i).valid = false := by
    by_contra hne
    rcases csrException_cases s i (by simpa using hne) with h | ⟨-, -, h⟩
    · simp [hflag] at h
    · simp [hop, Csr.isAccess] at h
  have hexv : (ex s i).valid = false := by
    rw [ex, Commit.exceptionHandling_valid, commitInput_instr0, commitInput_csrException, hex, hcsr]
    simp
  have hsel : (csrAccess s i).csrOp = .SFENCE_VMA ∨ (csrAccess s i).csrOp = .ADD := by
    show (out s i).csrOp = _ ∨ (out s i).csrOp = _
    rw [out_csrOp, csrSelect, hop]
    by_cases hc : (retiring s i && i.commitInstr.instr0.fu == .CSR) = true
    · exact .inl (if_pos hc)
    · exact .inr (if_neg hc)
  have hidle : Csr.isAccess (csrAccess s i).csrOp = false ∧ Csr.isXret (csrAccess s i).csrOp = false := by
    rcases hsel with h | h <;> rw [h] <;> exact ⟨rfl, rfl⟩
  obtain ⟨hflush, heret, hdebug⟩ := csr_causes s i hidle.1 hidle.2 (by simp [hexv])
  have hfd : (commitInput s i).flushDcache = false := hdc
  have hst : (retiring s i && i.noStPending) = false := by
    have hack' := hack
    have hamo : (commitInput s i).instr0IsAmo = false := by
      show isAmo i.commitInstr.instr0.op = false
      rw [hop]
      rfl
    rw [out, Commit.commit_ack0, hamo, hfd] at hack'
    simpa [hop] using hack'
  have hsf : (out s i).sfenceVma = false := by
    rw [out, Commit.commit_sfenceVma]
    simpa [hop] using hst
  have houts : (out s i).fence = false ∧ (out s i).fenceI = false ∧
      (out s i).flushCommit = false := by
    refine ⟨?_, ?_, ?_⟩
    · simp [out, Commit.commit_fence, hop]
    · simp [out, Commit.commit_fenceI, hop, hfd]
    · simp [out, Commit.commit_flushCommit, Commit.Input.instr0IsAmo, hop, isAmo]
  rw [flushEx_eq, houts.1, houts.2.1, hsf, hflush, houts.2.2, hexv, heret, hdebug, hack]
  simp

def CommitsInFlush : Prop := (out s i).commitLsu = true ∧ (flushes s i).flushEx = true

/-- Port 0 holds a store that the store buffer can take while the violation flag is
up or a single step is to complete. -/
def StoreMeetsFlush : Prop :=
  retiring s i = true ∧ i.commitInstr.instr0.fu = .STORE ∧
    isAmo i.commitInstr.instr0.op = false ∧ i.commitLsuReady = true ∧
    (flag s = true ∨ s.csr.debugMode = false ∧ s.csr.dcsr.step = true)

instance : Decidable (StoreMeetsFlush s i) :=
  inferInstanceAs (Decidable (_ ∧ _ ∧ _ ∧ _ ∧ (_ ∨ _ ∧ _)))

theorem commitsInFlush_iff (hfence : isFence i.commitInstr.instr0.op = true →
      i.commitInstr.instr0.fu = .CSR) (hdc : s.ctrl.flushDcache = false) :
    CommitsInFlush s i ↔ StoreMeetsFlush s i := by
  unfold CommitsInFlush StoreMeetsFlush
  have hlsu : (out s i).commitLsu = true ↔ retiring s i = true ∧
      i.commitInstr.instr0.fu = .STORE ∧ isAmo i.commitInstr.instr0.op = false ∧
      i.commitLsuReady = true := by
    rw [out, Commit.commit_commitLsu]
    show ((retiring s i && i.commitInstr.instr0.fu == .STORE &&
      !isAmo i.commitInstr.instr0.op && i.commitLsuReady) = true) ↔ _
    simp only [Bool.and_eq_true, beq_iff_eq, Bool.not_eq_true', and_assoc]
  rw [hlsu]
  constructor
  · rintro ⟨⟨hret, hfu, hamo, hready⟩, hflush⟩
    have hnf : isFence i.commitInstr.instr0.op = false := by
      by_contra hne
      have := hfence (by simpa using hne)
      simp [hfu] at this
    rw [flushEx_of_store s i hret hfu hamo hnf hready hdc] at hflush
    exact ⟨hret, hfu, hamo, hready, by simpa using hflush⟩
  · rintro ⟨hret, hfu, hamo, hready, hcause⟩
    have hnf : isFence i.commitInstr.instr0.op = false := by
      by_contra hne
      have := hfence (by simpa using hne)
      simp [hfu] at this
    refine ⟨⟨hret, hfu, hamo, hready⟩, ?_⟩
    rw [flushEx_of_store s i hret hfu hamo hnf hready hdc]
    simpa using hcause

end Cva6.Backend
