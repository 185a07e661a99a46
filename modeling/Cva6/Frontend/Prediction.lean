import Cva6.Frontend.Parcels
/-!
# Predictions

What the prediction of a slot says about its instruction: a predicted direct branch or
jump goes to its own target, and only indirect jumps take an address from the branch
target buffer or from the return address stack.
-/

namespace Cva6.Frontend

open CompressedDecoder (bits)

/-! ## Scans exclude each other -/

section Exclusive

variable (w : BitVec 32)

def Scan.imm (s : Scan) : XLen := if s.rvcBranch || s.rvcJump then s.rvcImm else s.rviImm

theorem scan_rvi (h : isRvc w = false) :
    (instrScan w).rvcBranch = false ∧ (instrScan w).rvcJump = false ∧ (instrScan w).rvcJr = false ∧
      (instrScan w).rvcJalr = false := by
  simp [instrScan, isJalR, h]

theorem scan_rvc (h : isRvc w = true) :
    (instrScan w).rviBranch = false ∧ (instrScan w).rviJump = false ∧ (instrScan w).rviJalr = false := by
  have h : bits w 1 0 ≠ 0b11 := by simpa [isRvc] using h
  exact ⟨opcode_low w h _ rfl, opcode_low w h _ rfl, opcode_low w h _ rfl⟩

theorem scan_exclusive :
    let s := instrScan w
    ((s.rviBranch || s.rvcBranch) && (s.rviJump || s.rvcJump)) = false ∧
      ((s.rviBranch || s.rvcBranch) && (s.rviJalr || s.rvcJr || s.rvcJalr)) = false ∧
      ((s.rviJump || s.rvcJump) && (s.rviJalr || s.rvcJr || s.rvcJalr)) = false := by
  cases h : isRvc w with
  | false =>
      obtain ⟨h0, h1, h2, h3⟩ := scan_rvi w h
      simp only [h0, h1, h2, h3, Bool.or_false]
      have hx : ∀ c : BitVec 7, ((c == 0b1100011) && (c == 0b1101111)) = false ∧
          ((c == 0b1100011) && (c == 0b1100111)) = false ∧
          ((c == 0b1101111) && (c == 0b1100111)) = false := by decide
      exact hx (bits w 6 0)
  | true =>
      obtain ⟨h0, h1, h2⟩ := scan_rvc w h
      simp only [h0, h1, h2, Bool.false_or]
      have hx : ∀ (c : BitVec 3) (d : BitVec 2),
          (((c == 0b110 || c == 0b111) && d == 0b01) && (c == 0b101 && d == 0b01)) = false ∧
          (d == 0b01 && d == 0b10) = false := by decide
      obtain ⟨ha, hb⟩ := hx (bits w 15 13) (bits w 1 0)
      simp only [instrScan, isJalR, h]
      cases hd1 : bits w 1 0 == 0b01 <;> cases hd2 : bits w 1 0 == 0b10 <;> simp_all

theorem scan_return : ((instrScan w).rviReturn || (instrScan w).rvcReturn) = true →
    ((instrScan w).rviJalr || (instrScan w).rvcJr || (instrScan w).rvcJalr) = true := by
  simp only [instrScan]
  intro h
  simp only [Bool.or_eq_true, Bool.and_eq_true] at h ⊢
  rcases h with h | h
  · exact .inl (.inl h.1.1)
  · exact .inl (.inr h.2)

theorem flow_eq_branch : (instrScan w).flow = .branch ↔
    ((instrScan w).rviBranch || (instrScan w).rvcBranch) = true := by
  unfold Scan.flow
  split_ifs <;> simp_all

theorem flow_eq_jump : (instrScan w).flow = .jump ↔
    ((instrScan w).rviJump || (instrScan w).rvcJump) = true := by
  obtain ⟨h, -, -⟩ := scan_exclusive w
  unfold Scan.flow
  split_ifs <;> simp_all

theorem flow_eq_jalr : (instrScan w).flow = .jalr ↔
    ((instrScan w).rviJalr || (instrScan w).rvcJr || (instrScan w).rvcJalr) = true := by
  obtain ⟨-, h, h'⟩ := scan_exclusive w
  unfold Scan.flow
  split_ifs <;> simp_all

theorem aligned_of_getLsbD {a : XLen} (h : a.getLsbD 0 = false) : Aligned a := by
  rw [BitVec.getLsbD, Nat.testBit_eq_decide_div_mod_eq] at h
  unfold Aligned
  simp only [pow_zero, Nat.div_one, decide_eq_false_iff_not] at h
  omega

theorem aligned_imm : Aligned (instrScan w).rviImm ∧ Aligned (instrScan w).rvcImm := by
  constructor
  · apply aligned_of_getLsbD
    simp only [instrScan]
    split
    · unfold ujImm
      rw [BitVec.getLsbD_append]
      rfl
    · unfold sbImm
      rw [BitVec.getLsbD_append]
      rfl
  · apply aligned_of_getLsbD
    simp only [instrScan]
    split
    · unfold cbImm
      rw [BitVec.getLsbD_append]
      rfl
    · unfold cjImm
      rw [BitVec.getLsbD_append]
      rfl

end Exclusive

/-! ## Agreement with the decoder -/

section Expanded

open CompressedDecoder (compressedDecoder)

variable (w : BitVec 32)

theorem isCompressed_expandMiscAlu : (CompressedDecoder.expandMiscAlu w).isCompressed = true := by
  unfold CompressedDecoder.expandMiscAlu
  split
  all_goals try split
  all_goals rfl

theorem isCompressed_expandC1 : (CompressedDecoder.expandC1 w).isCompressed = true := by
  unfold CompressedDecoder.expandC1
  split
  case h_2 => split <;> rfl
  case h_5 => exact isCompressed_expandMiscAlu w
  all_goals rfl

theorem isCompressed_expandC2 : (CompressedDecoder.expandC2 w).isCompressed = true := by
  unfold CompressedDecoder.expandC2 CompressedDecoder.expandJalrMvAdd
  split
  case h_5 => split_ifs <;> rfl
  all_goals rfl

theorem isCompressed_compressedDecoder : (compressedDecoder w).isCompressed = isRvc w := by
  have hkeep (o : CompressedDecoder.Output) :
      (if o.illegalInstr && o.isCompressed then { o with instr := w } else o).isCompressed =
        o.isCompressed := by
    split_ifs <;> rfl
  have h0 : (CompressedDecoder.expandC0 w).isCompressed = true := by
    unfold CompressedDecoder.expandC0
    split <;> rfl
  unfold compressedDecoder isRvc
  rw [hkeep]
  have hcases : ∀ b : BitVec 2, b = 0 ∨ b = 1 ∨ b = 2 ∨ b = 3 := by decide
  rcases hcases (bits w 1 0) with hb | hb | hb | hb
  · simp [hb, h0]
  · simp [hb, isCompressed_expandC1]
  · simp [hb, isCompressed_expandC2]
  · simp [hb]

theorem getLsbD_funct3 : w.getLsbD 14 = (bits w 15 13).getLsbD 1 := by
  rw [BitVec.getLsbD_extractLsb]
  simp

theorem getLsbD_opcode : w.getLsbD 3 = (bits w 6 0).getLsbD 3 := by
  rw [BitVec.getLsbD_extractLsb]
  simp

theorem compressedDecoder_c1 (h : bits w 1 0 = 0b01) :
    (bits w 15 13 = 0b110 ∨ bits w 15 13 = 0b111 →
        (compressedDecoder w).instr = CompressedDecoder.expandBz w) ∧
      (bits w 15 13 = 0b101 → (compressedDecoder w).instr = CompressedDecoder.expandJ w) := by
  unfold compressedDecoder CompressedDecoder.expandC1
  refine ⟨?_, ?_⟩
  · rintro (h3 | h3) <;> simp [h, h3, CompressedDecoder.Output.legal]
  · intro h3
    simp [h, h3, CompressedDecoder.Output.legal]

theorem imm_compressedDecoder :
    ((instrScan w).flow = .branch →
        Decoder.signExtend (compressedDecoder w).instr .SBIMM = (instrScan w).imm) ∧
      ((instrScan w).flow = .jump →
        Decoder.signExtend (compressedDecoder w).instr .JIMM = (instrScan w).imm) := by
  rw [flow_eq_branch, flow_eq_jump]
  cases hrvc : isRvc w with
  | true =>
      obtain ⟨hb, hj, -⟩ := scan_rvc w hrvc
      rw [hb, hj, Bool.false_or, Bool.false_or]
      refine ⟨?_, ?_⟩
      · intro h
        have him : (instrScan w).imm = (instrScan w).rvcImm := by simp [Scan.imm, h]
        simp only [instrScan, Bool.and_eq_true, Bool.or_eq_true, beq_iff_eq] at h
        have h14 : w.getLsbD 14 = true := by
          rw [getLsbD_funct3]
          rcases h.1.1 with h3 | h3 <;> rw [h3] <;> rfl
        rw [(compressedDecoder_c1 w h.1.2).1 h.1.1, sbimm_expandBz, him]
        simp only [instrScan, h14, if_true]
      · intro h
        have him : (instrScan w).imm = (instrScan w).rvcImm := by simp [Scan.imm, h]
        simp only [instrScan, Bool.and_eq_true, beq_iff_eq] at h
        have h14 : w.getLsbD 14 = false := by
          rw [getLsbD_funct3, h.1.1]
          rfl
        rw [(compressedDecoder_c1 w h.2).2 h.1.1, jimm_expandJ, him]
        simp only [instrScan, h14, Bool.false_eq_true, if_false]
  | false =>
      obtain ⟨hb, hj, -, -⟩ := scan_rvi w hrvc
      have him : (instrScan w).imm = (instrScan w).rviImm := by simp [Scan.imm, hb, hj]
      have hsame : (compressedDecoder w).instr = w := by
        have h3 : bits w 1 0 = 0b11 := by simpa [isRvc] using hrvc
        simp [compressedDecoder, h3]
      rw [hb, hj, Bool.or_false, Bool.or_false, him, hsame, sbimm_eq, jimm_eq]
      refine ⟨?_, ?_⟩
      · intro h
        have h3 : w.getLsbD 3 = false := by
          simp only [instrScan, beq_iff_eq] at h
          rw [getLsbD_opcode, h]
          rfl
        simp only [instrScan, h3, Bool.false_eq_true, if_false]
      · intro h
        have h3 : w.getLsbD 3 = true := by
          simp only [instrScan, beq_iff_eq] at h
          rw [getLsbD_opcode, h]
          rfl
        simp only [instrScan, h3, if_true]

end Expanded

/-! ## Slots -/

section Slots

variable {q : Regs} {j : Bool}

theorem caseOf_invalid (h : (slot q j).valid = false) : caseOf q j = .regular := by
  simp [caseOf, isBranch, isReturn, isJump, isJalr, h]

/-- The case of a slot follows the scan of its instruction. -/
theorem caseOf_spec (h : (slot q j).valid = true) :
    (caseOf q j = .branch ↔ (scan q j).flow = .branch) ∧ (caseOf q j = .jump ↔ (scan q j).flow = .jump) ∧
      (caseOf q j = .ret ∨ caseOf q j = .jalr → (scan q j).flow = .jalr) := by
  unfold scan
  rw [flow_eq_branch, flow_eq_jump, flow_eq_jalr]
  obtain ⟨h1, h2, h3⟩ := scan_exclusive (slot q j).instr
  have h4 := scan_return (slot q j).instr
  simp only [caseOf, isBranch, isReturn, isJump, isJalr, h, scan, Bool.true_and]
  have hor : ((instrScan (slot q j).instr).rviJalr || (instrScan (slot q j).instr).rvcJalr ||
      (instrScan (slot q j).instr).rvcJr) = ((instrScan (slot q j).instr).rviJalr ||
      (instrScan (slot q j).instr).rvcJr || (instrScan (slot q j).instr).rvcJalr) :=
    Bool.or_right_comm _ _ _
  rw [hor]
  generalize ((instrScan (slot q j).instr).rviBranch || (instrScan (slot q j).instr).rvcBranch) = b at *
  generalize ((instrScan (slot q j).instr).rviJump || (instrScan (slot q j).instr).rvcJump) = k at *
  generalize ((instrScan (slot q j).instr).rviReturn || (instrScan (slot q j).instr).rvcReturn) = t at *
  generalize ((instrScan (slot q j).instr).rviJalr || (instrScan (slot q j).instr).rvcJr ||
    (instrScan (slot q j).instr).rvcJalr) = r at *
  generalize isCall q j = c
  revert h1 h2 h3 h4
  cases b <;> cases k <;> cases t <;> cases r <;> cases c <;> simp

theorem target_of_noCF (h : cfType q j = .NoCF) : target q j = none := by
  unfold cfType at h
  unfold target takenRvcCf takenRviCf at *
  cases hc : caseOf q j <;> simp_all

theorem cfType_invalid (h : (slot q j).valid = false) : cfType q j = .NoCF := by
  simp [cfType, caseOf_invalid h]

/-- What a prediction says about the instruction `w` at `a`, when it is followed by the
one at `nxt`. -/
def FlowOk (a : XLen) (w : BitVec 32) (cf : Cf) (nxt : XLen) : Prop :=
  match cf with
  | .NoCF => (instrScan w).flow ≠ .jump
  | .Branch => (instrScan w).flow = .branch ∧ nxt = a + (instrScan w).imm
  | .Jump => (instrScan w).flow = .jump ∧ nxt = a + (instrScan w).imm
  | .JumpR | .Return => (instrScan w).flow = .jalr

theorem taken_imm (h : takenRvcCf q j = true ∨ takenRviCf q j = true) :
    (if takenRvcCf q j then (scan q j).rvcImm else (scan q j).rviImm) = (scan q j).imm := by
  unfold Scan.imm
  cases hrvc : isRvc (slot q j).instr with
  | false =>
      obtain ⟨h0, h1, -, -⟩ := scan_rvi (slot q j).instr hrvc
      have h0 : (scan q j).rvcBranch = false := h0
      have h1 : (scan q j).rvcJump = false := h1
      have hrvc : takenRvcCf q j = false := by
        unfold takenRvcCf
        split <;> simp [h0, h1]
      simp [hrvc, h0, h1]
  | true =>
      obtain ⟨h0, h1, -⟩ := scan_rvc (slot q j).instr hrvc
      have h0 : (scan q j).rviBranch = false := h0
      have h1 : (scan q j).rviJump = false := h1
      have hrvi : takenRviCf q j = false := by
        unfold takenRviCf
        split <;> simp [h0, h1]
      have htaken : takenRvcCf q j = true := by simpa [hrvi] using h
      have hflag : ((scan q j).rvcBranch || (scan q j).rvcJump) = true := by
        unfold takenRvcCf at htaken
        split at htaken <;> simp_all
      rw [if_pos htaken, if_pos hflag]

theorem cfType_flowOk (h : (slot q j).valid = true) {a : XLen} (ha : target q j = some a ∨ cfType q j = .NoCF) :
    FlowOk (slot q j).addr (slot q j).instr (cfType q j) a := by
  obtain ⟨hbranch, hjump, hind⟩ := caseOf_spec h
  have htaken (ht : takenRvcCf q j = true ∨ takenRviCf q j = true) (hcf : cfType q j ≠ .NoCF) :
      a = (slot q j).addr + (scan q j).imm := by
    have ha := ha.resolve_right hcf
    have ht' : (takenRvcCf q j || takenRviCf q j) = true := by simpa using ht
    unfold target at ha
    rw [if_pos ht', taken_imm ht] at ha
    exact (Option.some.inj ha).symm
  cases hc : caseOf q j with
  | regular | other =>
      have hcf : cfType q j = .NoCF := by simp [cfType, hc]
      rw [hcf]
      show (scan q j).flow ≠ .jump
      rw [Ne, ← hjump, hc]
      simp
  | jalr =>
      have hflow := hind (.inr hc)
      cases hv : (btbPrediction q j).valid with
      | true =>
          have hcf : cfType q j = .JumpR := by simp [cfType, hc, hv]
          rw [hcf]
          exact hflow
      | false =>
          have hcf : cfType q j = .NoCF := by simp [cfType, hc, hv]
          rw [hcf]
          show (scan q j).flow ≠ .jump
          rw [hflow]
          simp
  | ret =>
      have hcf : cfType q j = .Return := by simp [cfType, hc]
      rw [hcf]
      exact hind (.inl hc)
  | jump =>
      have hcf : cfType q j = .Jump := by simp [cfType, hc]
      have hflow := hjump.mp hc
      have hflag := (flow_eq_jump _).mp hflow
      rw [hcf]
      refine ⟨hflow, htaken ?_ (by simp [hcf])⟩
      simp only [takenRvcCf, takenRviCf, hc]
      exact (Bool.or_eq_true _ _ ▸ hflag).symm
  | branch =>
      have hflow := hbranch.mp hc
      by_cases ht : (takenRviCf q j || takenRvcCf q j) = true
      · have hcf : cfType q j = .Branch := by simp only [cfType, hc, if_pos ht]
        rw [hcf]
        refine ⟨hflow, htaken ?_ (by simp [hcf])⟩
        rw [Bool.or_eq_true] at ht
        exact ht.symm
      · have hcf : cfType q j = .NoCF := by simp only [cfType, hc, if_neg ht]
        rw [hcf]
        show (scan q j).flow ≠ .jump
        rw [hflow]
        simp

end Slots

end Cva6.Frontend
