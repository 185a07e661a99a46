import Cva6.Backend.FailStop
import Cva6.Frontend.Delivery
import Cva6.Pipeline.InFlight
/-!
# Where the commit stage restarts the fetch

A fence, an atomic and the write of some control registers flush the pipeline and restart
it behind the committed instruction, at its address plus four. That is the next
instruction because these are never compressed and always retire alone. A trap, a return and
the entry of debug mode have their own addresses.
-/

namespace Cva6.Pipeline

open Cva6.Sync Cva6.Issue

/-! ## Compressed instructions -/

section Compressed

open CompressedDecoder

variable (w : BitVec 32)

/-- The opcodes of the instructions that the commit stage retires alone: `SYSTEM`,
`MISC-MEM` and `AMO`. -/
def serialOpcode (o : BitVec 7) : Bool := o == 0b1110011 || o == 0b0001111 || o == 0b0101111

@[simp] theorem serialOpcode_expansions :
    (serialOpcode opcodeBranch = false ∧ serialOpcode opcodeJal = false ∧
        serialOpcode opcodeJalr = false) ∧
      (serialOpcode opcodeLoad = false ∧ serialOpcode opcodeLoadFp = false ∧
        serialOpcode opcodeStore = false ∧ serialOpcode opcodeStoreFp = false) ∧
      serialOpcode opcodeOpImm = false ∧ serialOpcode opcodeOpImm32 = false ∧
        serialOpcode opcodeOp = false ∧ serialOpcode opcodeOp32 = false ∧
        serialOpcode opcodeLui = false := by
  decide

theorem serialOpcode_expandC0 : serialOpcode (Decoder.opcode (expandC0 w).instr) = false ∨
    (expandC0 w).illegalInstr = true := by
  unfold expandC0
  split <;> simp [Output.legal, Decoder.opcode_append]

theorem serialOpcode_expandMiscAlu :
    serialOpcode (Decoder.opcode (expandMiscAlu w).instr) = false ∨
      (expandMiscAlu w).illegalInstr = true := by
  unfold expandMiscAlu
  split
  all_goals try split
  all_goals simp [Output.legal, Decoder.opcode_append]

theorem serialOpcode_expandC1 : serialOpcode (Decoder.opcode (expandC1 w).instr) = false ∨
    (expandC1 w).illegalInstr = true := by
  unfold expandC1
  split
  case h_5 => exact serialOpcode_expandMiscAlu w
  case h_2 => split_ifs <;> simp [Output.legal, Decoder.opcode_append]
  case h_4 =>
    left
    simp only [Output.legal]
    split_ifs <;> simp [Decoder.opcode_append]
  all_goals simp [Output.legal, expandJ, expandBz, Decoder.opcode_append]

theorem serialOpcode_expandC2 : serialOpcode (Decoder.opcode (expandC2 w).instr) = false ∨
    (expandC2 w).illegalInstr = true ∨ (expandC2 w).instr = 0x00100073 := by
  unfold expandC2
  split
  case h_5 =>
    unfold expandJalrMvAdd
    split_ifs <;> simp [Output.legal, Decoder.opcode_append]
  all_goals simp [Output.legal, Decoder.opcode_append]

/-- No compressed instruction expands to one of these opcodes but the breakpoint. -/
theorem serialOpcode_compressed (hc : (compressedDecoder w).isCompressed = true)
    (hl : (compressedDecoder w).illegalInstr = false) :
    serialOpcode (Decoder.opcode (compressedDecoder w).instr) = false ∨
      (compressedDecoder w).instr = 0x00100073 := by
  have hkeep (o : Output)
      (ho : (if o.illegalInstr && o.isCompressed then { o with instr := w } else o).illegalInstr = false) :
      (if o.illegalInstr && o.isCompressed then { o with instr := w } else o) = o ∧
        o.illegalInstr = false := by
    split_ifs at ho ⊢ <;> simp_all
  unfold compressedDecoder at hc hl ⊢
  obtain ⟨heq, hlegal⟩ := hkeep _ hl
  simp only [heq] at hc ⊢
  split at hlegal
  · rcases serialOpcode_expandC0 w with h | h
    · exact .inl h
    · simp [h] at hlegal
  · rcases serialOpcode_expandC1 w with h | h
    · exact .inl h
    · simp [h] at hlegal
  · rcases serialOpcode_expandC2 w with h | h | h
    · exact .inl h
    · simp [h] at hlegal
    · exact .inr h
  · simp_all

end Compressed

section Decoded

open Decoder

theorem decodeStore_not_amo (w : BitVec 32) : isAmo (decodeStore w).op = false := by
  unfold decodeStore
  split <;> rfl

theorem decodeOp_not_serial (w : BitVec 32) : (decodeOp w).fu ≠ .CSR ∧ (decodeOp w).fu ≠ .STORE := by
  rcases decodeOp_fu w with h | h
  · simp [h]
  · rw [h]
    exact opUnit_not_serial w

/-- Only these opcodes decode to the CSR unit or to an atomic. -/
theorem decoder_not_serial (d : Decoder.Input) (hex : d.ex.valid = false)
    (hop : serialOpcode (opcode d.instruction) = false) :
    (decoder d).fu ≠ .CSR ∧ isAmo (decoder d).op = false := by
  have hplain (hfu : (decoder d).fu ≠ .CSR ∧ (decoder d).fu ≠ .STORE) :
      (decoder d).fu ≠ .CSR ∧ isAmo (decoder d).op = false := by
    refine ⟨hfu.1, ?_⟩
    by_contra hamo
    exact hfu.2 ((decoder_sound d hex).amo (Bool.not_eq_false _ ▸ hamo))
  have hstore (h : decoder d = decodeStore d.instruction) :
      (decoder d).fu ≠ .CSR ∧ isAmo (decoder d).op = false := by
    rw [h]
    exact ⟨by simp [decodeStore_fu], decodeStore_not_amo _⟩
  have hdec : decoder d = decodeStore d.instruction ∨
      ((decoder d).fu ≠ .CSR ∧ (decoder d).fu ≠ .STORE) := by
    unfold decoder
    simp only [hex, Bool.false_eq_true, if_false]
    generalize opcode d.instruction = c at hop ⊢
    split
    · simp [serialOpcode] at hop
    · simp [serialOpcode] at hop
    · exact .inr (decodeOp_not_serial _)
    · exact .inr (opUnit_not_serial _)
    · simp [decodeOpImm_fu]
    · simp [decodeOpImm32]
    · exact .inl rfl
    · simp [decodeLoad_fu]
    · simp [serialOpcode] at hop
    · simp [decodeBranch_fu]
    · simp [(decodeJalr_spec d.instruction).1]
    · simp [decodeJal]
    · simp [decodeAuipc]
    · simp [decodeLui]
    · simp [Decoded.default]
  exact hdec.elim hstore hplain

/-- A decoded instruction that does not trap and goes to the CSR unit or is an atomic has
four bytes. -/
theorem not_compressed_of_serial (c : IdStage.Hart) (e : Frontend.FetchEntry)
    (hex : (IdStage.decodedInstruction c e).ex.valid = false)
    (h : (IdStage.decodedInstruction c e).fu = .CSR ∨
      isAmo (IdStage.decodedInstruction c e).op = true) :
    (IdStage.decodedInstruction c e).isCompressed = false := by
  obtain ⟨hfetch, hill, -, hbreak⟩ := Frontend.exceptionHandling_valid hex
  by_contra hc
  rcases serialOpcode_compressed e.instruction (Bool.not_eq_false _ ▸ hc) hill with hop | hw
  · obtain ⟨hfu, hamo⟩ := decoder_not_serial (IdStage.decoderIn c e) hfetch hop
    rcases h with h | h
    · exact hfu h
    · exact absurd (hamo.symm.trans h) Bool.false_ne_true
  · simp [Frontend.decoder_ebreak (IdStage.decoderIn c e) hfetch hw] at hbreak

end Decoded

theorem Holds.not_compressed {F : Exception → Prop} {c : Capture} {e : ScoreboardEntry}
    (h : Holds F c.fetch e) (hex : e.ex.valid = false) (hs : e.fu = .CSR ∨ isAmo e.op = true) :
    e.isCompressed = false := by
  have hd := h.decoded
  simp only [Scoreboard.decodedFields, ReadOperands.reName, ScoreboardEntry.mk.injEq] at hd
  obtain ⟨-, -, hfu, hop, -, -, -, -, -, -, -, -, -, -, hc⟩ := hd
  have hdecoded : (Decoder.instructionO c.fetch).ex.valid = false := by
    rcases h.ex with hsame | ⟨hv, -⟩
    · rw [← hsame, hex]
    · rw [hex] at hv
      cases hv
  rw [hc]
  rw [hfu, hop] at hs
  exact not_compressed_of_serial _ _ hdecoded hs

/-! ## The cycle of a flush -/

section Cycle

variable {s : State} {i : Input}

abbrev ack0 (s : State) (i : Input) : Bool := Core.ack0 s.core (coreIn s i)

abbrev ack1 (s : State) (i : Input) : Bool := Core.ack1 s.core (coreIn s i)

abbrev port0 (s : State) : ScoreboardEntry := Core.port0 s.core

abbrev beIn (s : State) (i : Input) : Backend.Input := Core.backendIn s.core (coreIn s i)

def Serial (e : ScoreboardEntry) : Prop := e.fu = .CSR ∨ isAmo e.op = true

theorem not_ack1_of_serial (h : Serial (port0 s)) : ack1 s i = false := by
  by_contra hack
  obtain ⟨-, -, -, hcsr, hamo, -⟩ := Core.of_ack1 (Bool.not_eq_false _ ▸ hack)
  rcases h with h | h
  · exact hcsr h
  · exact absurd (hamo.symm.trans h) Bool.false_ne_true

def restarts (s : State) (i : Input) : Bool :=
  let c := Backend.ctrlInput s.core.be (beIn s i)
  c.fence || c.fenceI || c.sfenceVma || c.flushCsr || c.flushCommit

theorem serial_of_restarts (hdc : s.core.be.ctrl.flushDcache = false)
    (hs : (port0 s).valid = true → Decoder.EntrySound (port0 s)) (h : restarts s i = true) :
    Backend.retiring s.core.be (beIn s i) = true ∧ Serial (port0 s) ∧
      ((Backend.ex s.core.be (beIn s i)).valid = false → ack0 s i = true) := by
  have hsound (hret : Backend.retiring s.core.be (beIn s i) = true) := hs (Core.port0_of_retiring hret).1
  -- the fences wait for the stores and are acknowledged when they flush
  have hfence (hret : Backend.retiring s.core.be (beIn s i) = true)
      (hop : isFence (port0 s).op = true) (hst : (beIn s i).noStPending = true) :
      Serial (port0 s) ∧ ack0 s i = true := by
    have hamo : isAmo (port0 s).op = false := by
      revert hop
      cases (port0 s).op <;> simp [isFence, isAmo]
    refine ⟨.inl ((hsound hret).fence hop), ?_⟩
    rw [ack0, Core.ack0_eq hdc, hret, hamo, hop, hst]
    rfl
  have h : (((((Backend.out s.core.be (beIn s i)).fence || (Backend.out s.core.be (beIn s i)).fenceI) ||
    (Backend.out s.core.be (beIn s i)).sfenceVma) || (Backend.csrUpdate s.core.be (beIn s i)).flush) ||
    (Backend.out s.core.be (beIn s i)).flushCommit) = true := h
  simp only [Bool.or_eq_true] at h
  rcases h with (((h | h) | h) | h) | h
  · rw [Backend.out, Commit.commit_fence] at h
    simp only [Bool.and_eq_true, beq_iff_eq] at h
    have hop : (port0 s).op = .FENCE := h.1.2
    obtain ⟨hser, hack⟩ := hfence h.1.1 (by rw [hop]; rfl) h.2
    exact ⟨h.1.1, hser, fun _ => hack⟩
  · rw [Backend.out, Commit.commit_fenceI] at h
    have hfd : (Backend.commitInput s.core.be (beIn s i)).flushDcache = false := hdc
    simp only [hfd, Bool.false_and, Bool.or_false, Bool.and_eq_true, beq_iff_eq] at h
    have hop : (port0 s).op = .FENCE_I := h.1.2
    obtain ⟨hser, hack⟩ := hfence h.1.1 (by rw [hop]; rfl) h.2
    exact ⟨h.1.1, hser, fun _ => hack⟩
  · rw [Backend.out, Commit.commit_sfenceVma] at h
    simp only [Bool.and_eq_true, beq_iff_eq] at h
    have hop : (port0 s).op = .SFENCE_VMA := h.1.2
    obtain ⟨hser, hack⟩ := hfence h.1.1 (by rw [hop]; rfl) h.2
    exact ⟨h.1.1, hser, fun _ => hack⟩
  · have hacc : Csr.isAccess (Backend.csrSelect s.core.be (beIn s i)).csrOp = true := by
      by_contra hne
      rw [← Backend.out_csrOp] at hne
      have hidle : (Backend.csrUpdate s.core.be (beIn s i)).flush = false :=
        Csr.csrUpdate_flush_of_idle _ _ _ _ (Bool.not_eq_true _ ▸ hne)
      simp [hidle] at h
    obtain ⟨hret, hfu, hop⟩ := Backend.retiring_of_isAccess _ _ hacc
    have hfu : (port0 s).fu = .CSR := hfu
    refine ⟨hret, .inl hfu, ?_⟩
    intro hex
    have hce : (Core.csrException s.core (coreIn s i)).valid = false :=
      ((Backend.ex_of_retiring _ _ hret).1).symm.trans hex
    have hamo : isAmo (port0 s).op = false := Backend.isAmo_of_isAccess hop
    have hnf : isFence (port0 s).op = false := Backend.isFence_of_isAccess hop
    rw [ack0, Core.ack0_eq hdc, hret, hamo, hnf, hfu, hce]
    rfl
  · rw [Backend.out, Commit.commit_flushCommit] at h
    simp only [Bool.and_eq_true] at h
    have hamo : isAmo (port0 s).op = true := h.1.2
    refine ⟨h.1.1, .inr hamo, ?_⟩
    intro _
    have hret : Backend.retiring s.core.be (beIn s i) = true := h.1.1
    have hack : (coreIn s i).amoResp.ack = true := h.2
    rw [ack0, Core.ack0_eq hdc, hret, hamo, if_pos rfl, hack]
    rfl

theorem not_ack1_of_ex (h : (Backend.ex s.core.be (beIn s i)).valid = true) : ack1 s i = false :=
  Backend.ack1_of_ex _ _ h

theorem not_ack1_of_setDebugPc (h : (Backend.csrUpdate s.core.be (beIn s i)).setDebugPc = true) :
    ack1 s i = false := by
  cases hex : (Backend.ex s.core.be (beIn s i)).valid with
  | true => exact not_ack1_of_ex hex
  | false =>
      have hnone : ¬(Backend.retire s.core.be (beIn s i)).ex.valid = true := by
        show ¬(Backend.ex s.core.be (beIn s i)).valid = true
        simp [hex]
      have hstep : (!s.core.be.csr.debugMode && s.core.be.csr.dcsr.step && ack0 s i) = true := by
        rw [← h, Backend.csrUpdate, Csr.csrUpdate_setDebugPc _ _ _ _ fun hv => absurd hv hnone]
        rfl
      simp only [Bool.and_eq_true] at hstep
      show (Backend.out s.core.be (beIn s i)).commitAck.ack1 = false
      have hsingle : (Backend.commitInput s.core.be (beIn s i)).singleStep = true := hstep.1.2
      rw [Backend.out, Commit.commit_ack1, hsingle]
      simp

/-- The second port does not retire in a cycle that flushes. -/
theorem not_ack1_of_commitFlush (hdc : s.core.be.ctrl.flushDcache = false)
    (hs : (port0 s).valid = true → Decoder.EntrySound (port0 s)) (h : commitFlush s i = true) :
    ack1 s i = false := by
  have h : (flushes s i).flushEx = true := by
    rw [← h]
    exact (Controller.flushCtrl_flushId _).symm
  have h : (restarts s i || (Backend.ex s.core.be (beIn s i)).valid ||
      (Backend.csrUpdate s.core.be (beIn s i)).eret ||
      (Backend.csrUpdate s.core.be (beIn s i)).setDebugPc) = true := by
    rw [← h]
    exact (Controller.flushCtrl_flushEx _).symm
  simp only [Bool.or_eq_true] at h
  rcases h with ((h | h) | h) | h
  · exact not_ack1_of_serial (serial_of_restarts hdc hs h).2.1
  · exact not_ack1_of_ex h
  · exact not_ack1_of_serial (.inl ((Backend.csrUpdate_eret_iff _ _).mp h).2.1)
  · exact not_ack1_of_setDebugPc h

end Cycle

/-! ## Runs -/

theorem run_ctrl (ins : List Input) : (pipeline.run ins).core.be.ctrl = Controller.reset := by
  induction ins using List.reverseRecOn with
  | nil => rfl
  | append_singleton ins i ih =>
      rw [Machine.run_snoc]
      show Controller.next (pipeline.run ins).core.be.ctrl = Controller.reset
      rw [ih]
      rfl

theorem holds_port0 (ins : List Input) (hv : (port0 (pipeline.run ins)).valid = true) :
    ∃ c : Capture, Holds (fun _ => True) c.fetch
      ((pipeline.run ins).core.sb.mem (pipeline.run ins).core.sb.commitPointer0).sbe := by
  have hinv : Inv (fun _ => True) (tracked.run ins) := inv_run fun _ _ _ _ _ _ _ _ => trivial
  rw [← tracked_hw] at hv ⊢
  exact ⟨_, (hinv.of_valid hv).2⟩

theorem entrySound_port0 (ins : List Input) (hv : (port0 (pipeline.run ins)).valid = true) :
    Decoder.EntrySound (port0 (pipeline.run ins)) := by
  obtain ⟨c, hc⟩ := holds_port0 ins hv
  exact hc.entrySound.transId _

/-- The address loaded by a frontend with the registers `q` that has the branch
resolution `r` and the answer `a` of the instruction cache in the same cycle. -/
def npcLoaded (s : State) (i : Input) (q : Frontend.Regs) (r : BpResolve) (a : Frontend.IcacheRsp) :
    XLen :=
  (Frontend.next q { feIn s i with resolvedBranch := r, icache := a }).npc

theorem npc_next (s : State) (i : Input) :
    (pipeline.next s i).fe.q.npc = npcLoaded s i s.fe.q (resolvedBranch s) i.icache := by
  have hfe : { feIn s i with resolvedBranch := resolvedBranch s, icache := i.icache } = feIn s i := rfl
  rw [npcLoaded, hfe]
  rfl

/-- The redirections of a cycle, when the frontend loads `npc`. -/
structure Redirects (s : State) (i : Input) (npc : XLen) : Prop where
  /-- A restart goes on behind the one instruction that retires. -/
  restart : (flushes s i).setPcCommit = true →
    ack0 s i = true ∧ ack1 s i = false ∧ (port0 s).isCompressed = false ∧
      npc = (port0 s).pc + if (port0 s).isCompressed then 2 else 4
  debug : (flushes s i).setPcCommit = false → (feIn s i).setDebugPc = true →
    npc = Frontend.debugAddress
  trap : (flushes s i).setPcCommit = false → (feIn s i).setDebugPc = false →
    (feIn s i).exValid = true → npc = (feIn s i).trapVectorBase
  xret : (flushes s i).setPcCommit = false → (feIn s i).setDebugPc = false →
    (feIn s i).exValid = false → (feIn s i).eret = true → npc = (feIn s i).epc
  alone : commitFlush s i = true → ack1 s i = false

theorem commit_redirects (ins : List Input) (i : Input) (q : Frontend.Regs) (r : BpResolve)
    (a : Frontend.IcacheRsp) :
    Redirects (pipeline.run ins) i (npcLoaded (pipeline.run ins) i q r a) := by
  have hdc : (pipeline.run ins).core.be.ctrl.flushDcache = false := by
    rw [run_ctrl]
    rfl
  have hs := entrySound_port0 ins
  refine ⟨?_, ?_, ?_, ?_, not_ack1_of_commitFlush hdc hs⟩
  · intro hset
    have hctrl : (restarts (pipeline.run ins) i &&
        !((feIn (pipeline.run ins) i).exValid || (feIn (pipeline.run ins) i).eret ||
          (feIn (pipeline.run ins) i).setDebugPc)) = true := by
      rw [← hset]
      exact (Controller.flushCtrl_setPcCommit _).symm
    simp only [Bool.and_eq_true, Bool.not_eq_true', Bool.or_eq_false_iff] at hctrl
    obtain ⟨hrestart, ⟨hex, -⟩, hdebug⟩ := hctrl
    obtain ⟨hret, hserial, hack⟩ := serial_of_restarts hdc hs hrestart
    obtain ⟨hv, hnoex⟩ := Core.port0_of_retiring hret
    obtain ⟨c, hc⟩ := holds_port0 ins hv
    have hlen : (port0 (pipeline.run ins)).isCompressed = false := hc.not_compressed hnoex hserial
    refine ⟨hack hex, not_ack1_of_serial hserial, hlen, ?_⟩
    have hset : (feIn (pipeline.run ins) i).setPcCommit = true := hset
    rw [hlen, if_neg Bool.false_ne_true]
    simp only [npcLoaded, Frontend.next, Frontend.npcD, hset, hdebug, Bool.false_eq_true, if_false,
      if_true]
    rfl
  all_goals
    intro hset
    have hset : (feIn (pipeline.run ins) i).setPcCommit = false := hset
  · intro hdebug
    simp only [npcLoaded, Frontend.next, Frontend.npcD, hdebug, if_true]
  · intro hdebug hex
    simp only [npcLoaded, Frontend.next, Frontend.npcD, hset, hdebug, hex, Bool.false_eq_true,
      if_false, if_true]
  · intro hdebug hex heret
    simp only [npcLoaded, Frontend.next, Frontend.npcD, hset, hdebug, hex, heret,
      Bool.false_eq_true, if_false, if_true]

end Cva6.Pipeline
