import Cva6.CompressedDecoder
import Cva6.Decoder
import Mathlib.Tactic.IntervalCases
/-!
# Scanning for control flow

`instr_scan.sv`: what the frontend sees of an instruction before it is decoded. The
lemmas compare it with the compressed decoder followed by the decoder.
-/

namespace Cva6.Frontend

open CompressedDecoder (bits)

structure Scan where
  rviReturn : Bool
  rviCall : Bool
  rviBranch : Bool
  rviJalr : Bool
  rviJump : Bool
  rviImm : XLen
  rvcBranch : Bool
  rvcJump : Bool
  rvcJr : Bool
  rvcReturn : Bool
  rvcJalr : Bool
  rvcCall : Bool
  rvcImm : XLen
  deriving DecidableEq, Repr

variable (i : BitVec 32)

def isRvc : Bool := bits i 1 0 != 0b11

def ujImm : XLen :=
  (bits i 31 31).signExtend 12 ++ bits i 19 12 ++ bits i 20 20 ++ bits i 30 21 ++ 0#1

def sbImm : XLen :=
  (bits i 31 31).signExtend 19 ++ bits i 31 31 ++ bits i 7 7 ++ bits i 30 25 ++ bits i 11 8 ++ 0#1

def cbImm : XLen :=
  (bits i 12 12).signExtend 24 ++ bits i 6 5 ++ bits i 2 2 ++ bits i 11 10 ++ bits i 4 3 ++ 0#1

def cjImm : XLen :=
  (bits i 12 12).signExtend 21 ++ bits i 8 8 ++ bits i 10 9 ++ bits i 6 6 ++ bits i 7 7 ++
    bits i 2 2 ++ bits i 11 11 ++ bits i 5 3 ++ 0#1

/-- The link registers `x1` and `x5`. -/
def isLink (r : BitVec 5) : Bool := r == 1 || r == 5

def isJalR : Bool :=
  bits i 15 13 == 0b100 && bits i 6 2 == 0 && bits i 1 0 == 0b10 && isRvc i

def instrScan : Scan :=
  let rviJalr := bits i 6 0 == 0b1100111
  let rviJump := bits i 6 0 == 0b1101111
  let rvcJr := isJalR i && !i.getLsbD 12
  let rvcJalr := isJalR i && i.getLsbD 12
  { rviReturn := rviJalr && isLink (bits i 19 15) && bits i 19 15 != bits i 11 7
    rviCall := (rviJalr || rviJump) && isLink (bits i 11 7)
    rviBranch := bits i 6 0 == 0b1100011
    rviJalr := rviJalr
    rviJump := rviJump
    rviImm := if i.getLsbD 3 then ujImm i else sbImm i
    rvcBranch := (bits i 15 13 == 0b110 || bits i 15 13 == 0b111) && bits i 1 0 == 0b01 && isRvc i
    rvcJump := bits i 15 13 == 0b101 && isRvc i && bits i 1 0 == 0b01
    rvcJr := rvcJr
    rvcReturn := isLink (bits i 11 7) && rvcJr
    rvcJalr := rvcJalr
    rvcCall := rvcJalr
    rvcImm := if i.getLsbD 14 then cbImm i else cjImm i }

/-! ## Agreement with the decoder -/

theorem jimm_expandJ : Decoder.signExtend (CompressedDecoder.expandJ i) .JIMM = cjImm i := by
  apply BitVec.eq_of_getLsbD_eq
  intro k hk
  unfold Decoder.signExtend cjImm CompressedDecoder.expandJ
  interval_cases k <;>
    simp only [BitVec.getLsbD_append, BitVec.getLsbD_signExtend, BitVec.msb_eq_getLsbD_last,
      BitVec.getLsbD_extractLsb, BitVec.getLsbD_extractLsb', bits] <;> simp

theorem sbimm_expandBz : Decoder.signExtend (CompressedDecoder.expandBz i) .SBIMM = cbImm i := by
  apply BitVec.eq_of_getLsbD_eq
  intro k hk
  unfold Decoder.signExtend cbImm CompressedDecoder.expandBz
  interval_cases k <;>
    simp only [BitVec.getLsbD_append, BitVec.getLsbD_signExtend, BitVec.msb_eq_getLsbD_last,
      BitVec.getLsbD_extractLsb, BitVec.getLsbD_extractLsb', bits] <;> simp

theorem jimm_eq : Decoder.signExtend i .JIMM = ujImm i := by
  apply BitVec.eq_of_getLsbD_eq
  intro k hk
  unfold Decoder.signExtend ujImm
  interval_cases k <;>
    simp only [BitVec.getLsbD_append, BitVec.getLsbD_signExtend, BitVec.msb_eq_getLsbD_last,
      BitVec.getLsbD_extractLsb, BitVec.getLsbD_extractLsb', bits] <;> simp

theorem sbimm_eq : Decoder.signExtend i .SBIMM = sbImm i := by
  apply BitVec.eq_of_getLsbD_eq
  intro k hk
  unfold Decoder.signExtend sbImm
  interval_cases k <;>
    simp only [BitVec.getLsbD_append, BitVec.getLsbD_signExtend, BitVec.msb_eq_getLsbD_last,
      BitVec.getLsbD_extractLsb, BitVec.getLsbD_extractLsb', bits] <;> simp

inductive Flow where
  | branch | jump | jalr | none
  deriving DecidableEq, Repr

def flowOf (opcode : BitVec 7) : Flow :=
  if opcode = 0b1100011 then .branch
  else if opcode = 0b1101111 then .jump
  else if opcode = 0b1100111 then .jalr
  else .none

def Scan.flow (s : Scan) : Flow :=
  if s.rviBranch || s.rvcBranch then .branch
  else if s.rviJump || s.rvcJump then .jump
  else if s.rviJalr || s.rvcJr || s.rvcJalr then .jalr
  else .none

theorem opcode_low (h : bits i 1 0 ≠ 0b11) (c : BitVec 7) (hc : c.extractLsb 1 0 = 0b11) :
    (bits i 6 0 == c) = false := by
  rw [beq_eq_false_iff_ne]
  rintro rfl
  apply h
  rw [← hc]
  apply BitVec.eq_of_getLsbD_eq
  intro k hk
  have hk : k < 2 := hk
  rw [BitVec.getLsbD_extractLsb, BitVec.getLsbD_extractLsb, BitVec.getLsbD_extractLsb]
  have hk7 : k < 7 := by omega
  simp [hk7]

theorem flow_rvc (h : bits i 1 0 ≠ 0b11) :
    (instrScan i).flow =
      if bits i 1 0 = 0b01 ∧ (bits i 15 13 = 0b110 ∨ bits i 15 13 = 0b111) then .branch
      else if bits i 1 0 = 0b01 ∧ bits i 15 13 = 0b101 then .jump
      else if bits i 1 0 = 0b10 ∧ bits i 15 13 = 0b100 ∧ bits i 6 2 = 0 then .jalr
      else .none := by
  have hrvc : isRvc i = true := by simpa [isRvc] using h
  have h1 := opcode_low i h 0b1100011 rfl
  have h2 := opcode_low i h 0b1101111 rfl
  have h3 := opcode_low i h 0b1100111 rfl
  simp only [Scan.flow, instrScan, h1, h2, h3, hrvc, isJalR]
  cases hb : i.getLsbD 12 <;>
    simp only [Bool.not_true, Bool.not_false, Bool.and_true, Bool.and_false, Bool.or_false,
      Bool.false_or, Bool.and_eq_true, Bool.or_eq_true, beq_iff_eq, and_comm]

theorem flow_rvi (h : bits i 1 0 = 0b11) : (instrScan i).flow = flowOf (Decoder.opcode i) := by
  have hrvc : isRvc i = false := by simp [isRvc, h]
  have hop : bits i 6 0 = Decoder.opcode i := rfl
  simp only [Scan.flow, instrScan, isJalR, hrvc, hop, Bool.and_false, Bool.false_and, Bool.or_false,
    beq_iff_eq]
  rfl

open CompressedDecoder in
@[simp] theorem flowOf_opcodes :
    (flowOf opcodeBranch = .branch ∧ flowOf opcodeJal = .jump ∧ flowOf opcodeJalr = .jalr) ∧
      (flowOf opcodeLoad = .none ∧ flowOf opcodeLoadFp = .none ∧ flowOf opcodeStore = .none ∧
        flowOf opcodeStoreFp = .none) ∧
      flowOf opcodeOpImm = .none ∧ flowOf opcodeOpImm32 = .none ∧ flowOf opcodeOp = .none ∧
        flowOf opcodeOp32 = .none ∧ flowOf opcodeLui = .none := by
  decide

theorem flow_expandC0 : flowOf (Decoder.opcode (CompressedDecoder.expandC0 i).instr) = .none ∨
    (CompressedDecoder.expandC0 i).illegalInstr = true := by
  unfold CompressedDecoder.expandC0
  split <;> simp [CompressedDecoder.Output.legal, Decoder.opcode_append]

theorem flow_expandMiscAlu :
    flowOf (Decoder.opcode (CompressedDecoder.expandMiscAlu i).instr) = .none ∨
      (CompressedDecoder.expandMiscAlu i).illegalInstr = true := by
  unfold CompressedDecoder.expandMiscAlu
  split
  all_goals try split
  all_goals simp [CompressedDecoder.Output.legal, Decoder.opcode_append]

theorem flow_expandC1 :
    flowOf (Decoder.opcode (CompressedDecoder.expandC1 i).instr) =
        (if bits i 15 13 = 0b110 ∨ bits i 15 13 = 0b111 then .branch
        else if bits i 15 13 = 0b101 then .jump else .none) ∨
      (CompressedDecoder.expandC1 i).illegalInstr = true := by
  unfold CompressedDecoder.expandC1
  split
  · rename_i h
    simp [h, CompressedDecoder.Output.legal, Decoder.opcode_append]
  · rename_i h
    split_ifs <;> simp_all [CompressedDecoder.Output.legal, Decoder.opcode_append]
  · rename_i h
    simp [h, CompressedDecoder.Output.legal, Decoder.opcode_append]
  · rename_i h
    simp only [h, CompressedDecoder.Output.legal]
    split_ifs <;> simp_all [Decoder.opcode_append]
  · rename_i h
    simpa [h] using flow_expandMiscAlu i
  · rename_i h
    simp [h, CompressedDecoder.Output.legal, CompressedDecoder.expandJ, Decoder.opcode_append]
  · rename_i h0 h1 h2 h3 h4 h5
    have hlast : ∀ b : BitVec 3, b ≠ 0 → b ≠ 1 → b ≠ 2 → b ≠ 3 → b ≠ 4 → b ≠ 5 →
        b = 0b110 ∨ b = 0b111 := by decide
    have hb := hlast (bits i 15 13) h0 h1 h2 h3 h4 h5
    left
    rw [if_pos hb]
    simp [CompressedDecoder.Output.legal, CompressedDecoder.expandBz, Decoder.opcode_append]

theorem flow_expandJalrMvAdd :
    flowOf (Decoder.opcode (CompressedDecoder.expandJalrMvAdd i).instr) =
        (if bits i 6 2 = 0 then .jalr else .none) ∨
      (CompressedDecoder.expandJalrMvAdd i).illegalInstr = true ∨
      (CompressedDecoder.expandJalrMvAdd i).instr = 0x00100073 := by
  unfold CompressedDecoder.expandJalrMvAdd
  split_ifs <;> simp_all [CompressedDecoder.Output.legal, Decoder.opcode_append]

theorem flow_expandC2 :
    flowOf (Decoder.opcode (CompressedDecoder.expandC2 i).instr) =
        (if bits i 15 13 = 0b100 ∧ bits i 6 2 = 0 then .jalr else .none) ∨
      (CompressedDecoder.expandC2 i).illegalInstr = true ∨
      (CompressedDecoder.expandC2 i).instr = 0x00100073 := by
  unfold CompressedDecoder.expandC2
  split
  case h_5 h =>
    simpa [h] using flow_expandJalrMvAdd i
  all_goals simp_all [CompressedDecoder.Output.legal, Decoder.opcode_append]

/-- The scan of a fetched word and the opcode that reaches the decoder agree, except on
the compressed breakpoint. -/
theorem flow_compressedDecoder
    (h : (CompressedDecoder.compressedDecoder i).illegalInstr = false) :
    flowOf (Decoder.opcode (CompressedDecoder.compressedDecoder i).instr) = (instrScan i).flow ∨
      (CompressedDecoder.compressedDecoder i).instr = 0x00100073 := by
  have hkeep (o : CompressedDecoder.Output)
      (ho : (if o.illegalInstr && o.isCompressed then { o with instr := i } else o).illegalInstr = false) :
      (if o.illegalInstr && o.isCompressed then { o with instr := i } else o) = o ∧
        o.illegalInstr = false := by
    split_ifs at ho ⊢ <;> simp_all
  unfold CompressedDecoder.compressedDecoder at h ⊢
  obtain ⟨heq, hlegal⟩ := hkeep _ h
  simp only [heq]
  have hcases : ∀ b : BitVec 2, b = 0 ∨ b = 1 ∨ b = 2 ∨ b = 3 := by decide
  rcases hcases (bits i 1 0) with hb | hb | hb | hb <;> simp only [hb] at hlegal ⊢
  · left
    rw [flow_rvc i (by simp [hb])]
    rcases flow_expandC0 i with h0 | h0
    · simp [h0, hb]
    · simp [h0] at hlegal
  · left
    rw [flow_rvc i (by simp [hb])]
    rcases flow_expandC1 i with h0 | h0
    · simp [h0, hb]
    · simp [h0] at hlegal
  · rw [flow_rvc i (by simp [hb])]
    rcases flow_expandC2 i with h0 | h0 | h0
    · left
      simp [h0, hb]
    · simp [h0] at hlegal
    · exact .inr h0
  · exact .inl (flow_rvi i hb).symm

/-! ## The decoder -/

theorem decoder_flow (d : Decoder.Input) (hex : d.ex.valid = false)
    (h : (Decoder.decoder d).illegalInstr = false) :
    match flowOf (Decoder.opcode d.instruction) with
    | .branch => (Decoder.decoder d).fu = .CTRL_FLOW ∧ opIsBranch (Decoder.decoder d).op = true ∧
        (Decoder.decoder d).immSelect = .SBIMM
    | .jump => (Decoder.decoder d).fu = .CTRL_FLOW ∧ (Decoder.decoder d).op = .JAL ∧
        (Decoder.decoder d).immSelect = .JIMM
    | .jalr => (Decoder.decoder d).fu = .CTRL_FLOW ∧ (Decoder.decoder d).op = .JALR
    | .none => (Decoder.decoder d).fu ≠ .CTRL_FLOW := by
  unfold Decoder.decoder at h ⊢
  simp only [hex, Bool.false_eq_true, if_false] at h ⊢
  generalize Decoder.opcode d.instruction = c at h ⊢
  split at h
  · simp [Decoder.decodeSystem_fu, flowOf]
  · simp [Decoder.decodeMiscMem_fu, flowOf]
  · exact Decoder.decodeOp_not_flow d.instruction
  · simp [Decoder.decodeOp32] at h
  · simp [Decoder.decodeOpImm_fu, flowOf]
  · simp [Decoder.decodeOpImm32] at h
  · simp [Decoder.decodeStore_fu, flowOf]
  · simp [Decoder.decodeLoad_fu, flowOf]
  · simp [Decoder.decodeAmo_fu, flowOf]
  · exact Decoder.decodeBranch_spec d.instruction h
  · exact Decoder.decodeJalr_spec d.instruction
  · exact ⟨rfl, rfl, rfl⟩
  · simp [Decoder.decodeAuipc, flowOf]
  · simp [Decoder.decodeLui, flowOf]
  · simp at h

end Cva6.Frontend
