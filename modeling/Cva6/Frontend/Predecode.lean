import Cva6.Frontend.Delivery
/-!
# Pre-decode and decode

The frontend redirects the fetch with the immediate of `instr_scan`, before the
instruction is expanded and decoded. The branch unit later checks the outcome
of a direct branch but not its target, so the immediate has to be the one the
decoder puts into the result field, and the scan must flag exactly the words
that decode to a conditional branch or to `jal`.
-/

namespace Cva6.Frontend

open CompressedDecoder (compressedDecoder bits)
open IdStage (Hart decodedInstruction)

section Word

variable (w : BitVec 32)

def Scan.IsBranch (s : Scan) (imm : XLen) : Prop :=
  (s.rviBranch = true ∧ imm = s.rviImm) ∨ (s.rvcBranch = true ∧ imm = s.rvcImm)

def Scan.IsJump (s : Scan) (imm : XLen) : Prop :=
  (s.rviJump = true ∧ imm = s.rviImm) ∨ (s.rvcJump = true ∧ imm = s.rvcImm)

theorem isBranch_iff (imm : XLen) : (instrScan w).IsBranch imm ↔
    (instrScan w).flow = .branch ∧ imm = (instrScan w).imm := by
  rw [flow_eq_branch, Scan.IsBranch, Scan.imm]
  cases hrvc : isRvc w with
  | false =>
      obtain ⟨hb, hj, -, -⟩ := scan_rvi w hrvc
      simp [hb, hj]
  | true =>
      obtain ⟨hb, -, -⟩ := scan_rvc w hrvc
      cases h : (instrScan w).rvcBranch <;> simp [hb]

theorem isJump_iff (imm : XLen) : (instrScan w).IsJump imm ↔
    (instrScan w).flow = .jump ∧ imm = (instrScan w).imm := by
  rw [flow_eq_jump, Scan.IsJump, Scan.imm]
  cases hrvc : isRvc w with
  | false =>
      obtain ⟨hb, hj, -, -⟩ := scan_rvi w hrvc
      simp [hb, hj]
  | true =>
      obtain ⟨-, hj, -⟩ := scan_rvc w hrvc
      cases h : (instrScan w).rvcJump <;> simp [hj]

/-- The word of `ebreak`, which the expander makes of `c.ebreak`, is no direct
branch or jump. -/
theorem flow_of_ebreak (h : (compressedDecoder w).instr = 0x00100073) :
    (instrScan w).flow ≠ .branch ∧ (instrScan w).flow ≠ .jump := by
  cases hrvc : isRvc w with
  | false =>
      have h3 : bits w 1 0 = 0b11 := by simpa [isRvc] using hrvc
      have hw : w = 0x00100073 := by simpa [compressedDecoder, h3] using h
      rw [hw]
      decide
  | true =>
      obtain ⟨hb, hj, -⟩ := scan_rvc w hrvc
      rw [Ne, flow_eq_branch, Ne, flow_eq_jump, hb, hj, Bool.false_or, Bool.false_or]
      have hop : Decoder.opcode (0x00100073 : BitVec 32) = 0b1110011 := rfl
      refine ⟨?_, ?_⟩
      · intro hbr
        simp only [instrScan, Bool.and_eq_true, Bool.or_eq_true, beq_iff_eq] at hbr
        rw [(compressedDecoder_c1 w hbr.1.2).1 hbr.1.1] at h
        rw [← h, CompressedDecoder.expandBz, Decoder.opcode_append] at hop
        exact absurd hop (by decide)
      · intro hjump
        simp only [instrScan, Bool.and_eq_true, beq_iff_eq] at hjump
        rw [(compressedDecoder_c1 w hjump.2).2 hjump.1.1] at h
        rw [← h, CompressedDecoder.expandJ, Decoder.opcode_append] at hop
        exact absurd hop (by decide)

end Word

def illegal (c : Hart) (e : FetchEntry) : Bool :=
  (compressedDecoder e.instruction).illegalInstr ||
    (Decoder.decoder (IdStage.decoderIn c e)).illegalInstr

section Decoded

variable (c : Hart) (e : FetchEntry)

/-- The kind of control flow that reaches the decoder and the one the scan
reports agree as far as direct branches and jumps are concerned. -/
theorem flow_direct (h : illegal c e = false) (f : Flow) (hf : f = .branch ∨ f = .jump) :
    (instrScan e.instruction).flow = f ↔
      flowOf (Decoder.opcode (IdStage.decoderIn c e).instruction) = f := by
  simp only [illegal, Bool.or_eq_false_iff] at h
  rcases flow_compressedDecoder e.instruction h.1 with hsame | hbreak
  · change _ ↔ flowOf (Decoder.opcode (compressedDecoder e.instruction).instr) = f
    rw [hsame]
  · obtain ⟨hb, hj⟩ := flow_of_ebreak e.instruction hbreak
    change _ ↔ flowOf (Decoder.opcode (compressedDecoder e.instruction).instr) = f
    rw [hbreak]
    rcases hf with rfl | rfl
    · exact ⟨fun h => absurd h hb, fun h => absurd h (by decide)⟩
    · exact ⟨fun h => absurd h hj, fun h => absurd h (by decide)⟩

theorem result_eq (sel : Decoder.ImmSelect)
    (hs : (Decoder.decoder (IdStage.decoderIn c e)).immSelect = sel) :
    (decodedInstruction c e).result =
      Decoder.signExtend (compressedDecoder e.instruction).instr sel := by
  rw [← hs]
  rfl

theorem decoded_of_branch (hex : e.ex.valid = false) (h : illegal c e = false)
    (hflow : (instrScan e.instruction).flow = .branch) :
    (decodedInstruction c e).fu = .CTRL_FLOW ∧ opIsBranch (decodedInstruction c e).op = true ∧
      (decodedInstruction c e).result = (instrScan e.instruction).imm := by
  have hop := (flow_direct c e h .branch (.inl rfl)).mp hflow
  simp only [illegal, Bool.or_eq_false_iff] at h
  have hdec := decoder_flow (IdStage.decoderIn c e) hex h.2
  rw [hop] at hdec
  refine ⟨hdec.1, hdec.2.1, ?_⟩
  rw [result_eq c e _ hdec.2.2, (imm_compressedDecoder e.instruction).1 hflow]

theorem decoded_of_jump (hex : e.ex.valid = false) (h : illegal c e = false)
    (hflow : (instrScan e.instruction).flow = .jump) :
    (decodedInstruction c e).fu = .CTRL_FLOW ∧ (decodedInstruction c e).op = .JAL ∧
      (decodedInstruction c e).result = (instrScan e.instruction).imm := by
  have hop := (flow_direct c e h .jump (.inr rfl)).mp hflow
  simp only [illegal, Bool.or_eq_false_iff] at h
  have hdec := decoder_flow (IdStage.decoderIn c e) hex h.2
  rw [hop] at hdec
  refine ⟨hdec.1, hdec.2.1, ?_⟩
  rw [result_eq c e _ hdec.2.2, (imm_compressedDecoder e.instruction).2 hflow]

theorem flow_of_decoded (hex : e.ex.valid = false) (h : illegal c e = false)
    (hfu : (decodedInstruction c e).fu = .CTRL_FLOW) :
    (opIsBranch (decodedInstruction c e).op = true → (instrScan e.instruction).flow = .branch) ∧
      ((decodedInstruction c e).op = .JAL → (instrScan e.instruction).flow = .jump) := by
  rw [flow_direct c e h .branch (.inl rfl), flow_direct c e h .jump (.inr rfl)]
  simp only [illegal, Bool.or_eq_false_iff] at h
  have hdec := decoder_flow (IdStage.decoderIn c e) hex h.2
  have hfu : (Decoder.decoder (IdStage.decoderIn c e)).fu = .CTRL_FLOW := hfu
  change (opIsBranch (Decoder.decoder (IdStage.decoderIn c e)).op = true → _) ∧
    ((Decoder.decoder (IdStage.decoderIn c e)).op = .JAL → _)
  cases hf : flowOf (Decoder.opcode (IdStage.decoderIn c e).instruction) with
  | branch =>
      rw [hf] at hdec
      refine ⟨fun _ => rfl, fun hop => ?_⟩
      rw [hop] at hdec
      exact absurd hdec.2.1 (by decide)
  | jump =>
      rw [hf] at hdec
      refine ⟨fun hop => ?_, fun _ => rfl⟩
      rw [hdec.2.1] at hop
      exact absurd hop (by decide)
  | jalr =>
      rw [hf] at hdec
      rw [hdec.2]
      exact ⟨fun hop => absurd hop (by decide), fun hop => absurd hop (by decide)⟩
  | none =>
      rw [hf] at hdec
      exact absurd hfu hdec

end Decoded

/-- The scan of a fetched word agrees with the expander followed by the
decoder, in any state of the hart. What it flags as a direct branch or jump is
illegal or decodes to one with the same immediate, and whatever decodes to one
is flagged with its immediate. -/
theorem predecode_agrees (c : Hart) (e : FetchEntry) (hex : e.ex.valid = false) :
    (∀ imm, (instrScan e.instruction).IsBranch imm → illegal c e = true ∨
      (decodedInstruction c e).fu = .CTRL_FLOW ∧ opIsBranch (decodedInstruction c e).op = true ∧
        (decodedInstruction c e).result = imm) ∧
    (∀ imm, (instrScan e.instruction).IsJump imm → illegal c e = true ∨
      (decodedInstruction c e).fu = .CTRL_FLOW ∧ (decodedInstruction c e).op = .JAL ∧
        (decodedInstruction c e).result = imm) ∧
    (illegal c e = false → (decodedInstruction c e).fu = .CTRL_FLOW →
      (opIsBranch (decodedInstruction c e).op = true →
        (instrScan e.instruction).IsBranch (decodedInstruction c e).result) ∧
      ((decodedInstruction c e).op = .JAL →
        (instrScan e.instruction).IsJump (decodedInstruction c e).result)) := by
  refine ⟨?_, ?_, ?_⟩
  · intro imm hscan
    obtain ⟨hflow, rfl⟩ := (isBranch_iff e.instruction imm).mp hscan
    cases hill : illegal c e with
    | true => exact .inl rfl
    | false => exact .inr (decoded_of_branch c e hex hill hflow)
  · intro imm hscan
    obtain ⟨hflow, rfl⟩ := (isJump_iff e.instruction imm).mp hscan
    cases hill : illegal c e with
    | true => exact .inl rfl
    | false => exact .inr (decoded_of_jump c e hex hill hflow)
  · intro hill hfu
    obtain ⟨hbr, hj⟩ := flow_of_decoded c e hex hill hfu
    refine ⟨fun hop => ?_, fun hop => ?_⟩
    · rw [isBranch_iff]
      exact ⟨hbr hop, (decoded_of_branch c e hex hill (hbr hop)).2.2⟩
    · rw [isJump_iff]
      exact ⟨hj hop, (decoded_of_jump c e hex hill (hj hop)).2.2⟩

def compressedBranch : FetchEntry :=
  { (default : FetchEntry) with instruction := 0x0000DD75 }

theorem predecode_agrees_compressedBranch :
    compressedBranch.ex.valid = false ∧ illegal default compressedBranch = false ∧
      (decodedInstruction default compressedBranch).fu = .CTRL_FLOW ∧
      (decodedInstruction default compressedBranch).op = .EQ ∧
      (instrScan compressedBranch.instruction).IsBranch (-4) := by
  have hex : compressedBranch.ex.valid = false := by decide
  have hill : illegal default compressedBranch = false := by decide
  have hfu : (decodedInstruction default compressedBranch).fu = .CTRL_FLOW := by decide
  have himm : (decodedInstruction default compressedBranch).result = -4 := by decide
  have hscan := ((predecode_agrees default compressedBranch hex).2.2 hill hfu).1 (by decide)
  rw [himm] at hscan
  exact ⟨hex, hill, hfu, by decide, hscan⟩

end Cva6.Frontend
