import Cva6.Riscv
/-!
# The decoder

`decoder.sv` for `XLEN = 32` with atomics and without floating point: where the
source needs `FP_PRESENT` or `IS_XLEN64` the instruction is illegal. `fs_i` and
`frm_i` are only read by floating-point encodings.
-/

namespace Cva6.Decoder

open Cva6.Riscv

structure IrqCtrl where
  mie : XLen
  mip : XLen
  mideleg : XLen
  sie : Bool
  globalEnable : Bool
  deriving DecidableEq, Repr, Inhabited

structure Input where
  debugReq : Bool
  pc : XLen
  isCompressed : Bool
  compressedInstr : BitVec 16
  isIllegal : Bool
  instruction : BitVec 32
  branchPredict : BranchpredictSbe
  ex : Exception
  irq : BitVec 2
  irqCtrl : IrqCtrl
  privLvl : PrivLvl
  debugMode : Bool
  tvm : Bool
  tw : Bool
  tsr : Bool
  deriving DecidableEq, Repr, Inhabited

inductive ImmSelect where
  | NOIMM | IIMM | SIMM | SBIMM | UIMM | JIMM
  deriving DecidableEq, Repr

/-- What the process `decoder` assigns, before immediates and exceptions. -/
structure Decoded where
  fu : Fu
  op : FuOp
  rs1 : RegAddr
  rs2 : RegAddr
  rd : RegAddr
  usePc : Bool
  useZimm : Bool
  immSelect : ImmSelect
  illegalInstr : Bool
  ecall : Bool
  ebreak : Bool
  isControlFlowInstr : Bool
  deriving DecidableEq, Repr

def Decoded.default : Decoded :=
  ⟨.NONE, .ADD, 0, 0, 0, false, false, .NOIMM, false, false, false, false⟩

/-! ## Fields of an instruction word -/

section Fields

variable (w : BitVec 32)

def opcode : BitVec 7 := w.extractLsb' 0 7
def rdField : BitVec 5 := w.extractLsb' 7 5
def funct3 : BitVec 3 := w.extractLsb' 12 3
def rs1Field : BitVec 5 := w.extractLsb' 15 5
def rs2Field : BitVec 5 := w.extractLsb' 20 5
def funct5 : BitVec 5 := w.extractLsb' 27 5
def funct6 : BitVec 6 := w.extractLsb' 26 6
def funct7 : BitVec 7 := w.extractLsb' 25 7
def immI : BitVec 12 := w.extractLsb' 20 12

/-- A register number as the scoreboard stores it. -/
def reg (r : BitVec 5) : RegAddr := r.setWidth 6

end Fields

theorem opcode_append (x : BitVec 25) (y : BitVec 7) : opcode (x ++ y) = y := by
  unfold opcode
  ext k hk
  rw [BitVec.getElem_extractLsb', BitVec.getLsbD_append]
  simp [hk]

/-! ## Opcodes -/

section Opcodes

variable (i : Input)

/-- The privileged instructions: `funct3` is zero and the immediate selects. -/
def decodePrivileged (d : Decoded) : Decoded :=
  let d := if rs1Field i.instruction != 0 || rdField i.instruction != 0 then
    { d with illegalInstr := true } else d
  if immI i.instruction = 0x000 then { d with ecall := true }
  else if immI i.instruction = 0x001 then { d with ebreak := true }
  else if immI i.instruction = 0x102 then
    let d := { d with op := .SRET }
    let d := if i.privLvl = privLvlU then { d with illegalInstr := true, op := .ADD } else d
    if i.privLvl = privLvlS && i.tsr then { d with illegalInstr := true, op := .ADD } else d
  else if immI i.instruction = 0x302 then
    let d := { d with op := .MRET }
    if i.privLvl = privLvlU || i.privLvl = privLvlS then { d with illegalInstr := true } else d
  else if immI i.instruction = 0x7b2 then
    -- the assignment also clears what the register fields raised
    { d with op := .DRET, illegalInstr := !i.debugMode }
  else if immI i.instruction = 0x105 then
    let d := { d with op := .WFI }
    let d := if i.privLvl = privLvlS && i.tw then { d with illegalInstr := true, op := .ADD } else d
    if i.privLvl = privLvlU then { d with illegalInstr := true, op := .ADD } else d
  else if funct7 i.instruction = 0b0001001 then
    let d := { d with
      illegalInstr := !(i.privLvl = privLvlM || i.privLvl = privLvlS), op := .SFENCE_VMA }
    if i.privLvl = privLvlS && i.tvm then { d with illegalInstr := true } else d
  else d

/-- A set or clear with a zero source only reads. -/
def csrSetOp (w : BitVec 32) (op : FuOp) : FuOp := if rs1Field w = 0 then .CSR_READ else op

def decodeSystem : Decoded :=
  let d := { Decoded.default with
    fu := .CSR, rs1 := reg (rs1Field i.instruction), rs2 := reg (rs2Field i.instruction),
    rd := reg (rdField i.instruction) }
  match funct3 i.instruction with
  | 0b000#3 => decodePrivileged i d
  | 0b001#3 => { d with immSelect := .IIMM, op := .CSR_WRITE }
  | 0b010#3 => { d with immSelect := .IIMM, op := csrSetOp i.instruction .CSR_SET }
  | 0b011#3 => { d with immSelect := .IIMM, op := csrSetOp i.instruction .CSR_CLEAR }
  | 0b101#3 => { d with immSelect := .IIMM, useZimm := true, op := .CSR_WRITE }
  | 0b110#3 => { d with immSelect := .IIMM, useZimm := true, op := csrSetOp i.instruction .CSR_SET }
  | 0b111#3 => { d with immSelect := .IIMM, useZimm := true, op := csrSetOp i.instruction .CSR_CLEAR }
  | _ => { d with illegalInstr := true }

def decodeFence (w : BitVec 32) : Decoded :=
  let d := { Decoded.default with fu := .CSR }
  match funct3 w with
  | 0b000#3 => { d with op := .FENCE }
  | 0b001#3 => { d with op := .FENCE_I, illegalInstr := immI w != 0 }
  | _ => { d with illegalInstr := true }

def decodeMiscMem (w : BitVec 32) : Decoded :=
  let d := decodeFence w
  if rs1Field w != 0 || rdField w != 0 || w.extractLsb' 28 4 != 0 then
    { d with illegalInstr := true }
  else d

def opUnit (w : BitVec 32) : Fu := if funct7 w = 0b0000001 then .MULT else .ALU

def decodeOp (w : BitVec 32) : Decoded :=
  -- the vectorial floating-point operations
  if w.extractLsb' 30 2 = 0b10#2 then { Decoded.default with illegalInstr := true }
  else
    let d := { Decoded.default with
      fu := opUnit w, rs1 := reg (rs1Field w), rs2 := reg (rs2Field w),
      rd := reg (rdField w) }
    match funct7 w, funct3 w with
    | 0b0000000#7, 0b000#3 => { d with op := .ADD }
    | 0b0100000#7, 0b000#3 => { d with op := .SUB }
    | 0b0000000#7, 0b010#3 => { d with op := .SLTS }
    | 0b0000000#7, 0b011#3 => { d with op := .SLTU }
    | 0b0000000#7, 0b100#3 => { d with op := .XORL }
    | 0b0000000#7, 0b110#3 => { d with op := .ORL }
    | 0b0000000#7, 0b111#3 => { d with op := .ANDL }
    | 0b0000000#7, 0b001#3 => { d with op := .SLL }
    | 0b0000000#7, 0b101#3 => { d with op := .SRL }
    | 0b0100000#7, 0b101#3 => { d with op := .SRA }
    | 0b0000001#7, 0b000#3 => { d with op := .MUL }
    | 0b0000001#7, 0b001#3 => { d with op := .MULH }
    | 0b0000001#7, 0b010#3 => { d with op := .MULHSU }
    | 0b0000001#7, 0b011#3 => { d with op := .MULHU }
    | 0b0000001#7, 0b100#3 => { d with op := .DIV }
    | 0b0000001#7, 0b101#3 => { d with op := .DIVU }
    | 0b0000001#7, 0b110#3 => { d with op := .REM }
    | 0b0000001#7, 0b111#3 => { d with op := .REMU }
    | _, _ => { d with illegalInstr := true }

/-- `OpcodeOp32` exists for 64-bit registers only. -/
def decodeOp32 (w : BitVec 32) : Decoded :=
  { Decoded.default with
    fu := opUnit w, rs1 := reg (rs1Field w), rs2 := reg (rs2Field w),
    rd := reg (rdField w), illegalInstr := true }

def decodeOpImm (w : BitVec 32) : Decoded :=
  let d := { Decoded.default with
    fu := .ALU, immSelect := .IIMM, rs1 := reg (rs1Field w), rd := reg (rdField w) }
  match funct3 w with
  | 0b000#3 => { d with op := .ADD }
  | 0b010#3 => { d with op := .SLTS }
  | 0b011#3 => { d with op := .SLTU }
  | 0b100#3 => { d with op := .XORL }
  | 0b110#3 => { d with op := .ORL }
  | 0b111#3 => { d with op := .ANDL }
  | 0b001#3 =>
      let d := { d with op := .SLL }
      let d := if funct6 w != 0 then { d with illegalInstr := true } else d
      if w.getLsbD 25 then { d with illegalInstr := true } else d
  | _ =>
      let d :=
        if funct6 w = 0 then { d with op := .SRL }
        else if funct6 w = 0b010000 then { d with op := .SRA }
        else { d with illegalInstr := true }
      if w.getLsbD 25 then { d with illegalInstr := true } else d

def decodeOpImm32 (w : BitVec 32) : Decoded :=
  { Decoded.default with
    fu := .ALU, immSelect := .IIMM, rs1 := reg (rs1Field w), rd := reg (rdField w),
    illegalInstr := true }

def decodeStore (w : BitVec 32) : Decoded :=
  let d := { Decoded.default with
    fu := .STORE, immSelect := .SIMM, rs1 := reg (rs1Field w),
    rs2 := reg (rs2Field w) }
  match funct3 w with
  | 0b000#3 => { d with op := .SB }
  | 0b001#3 => { d with op := .SH }
  | 0b010#3 => { d with op := .SW }
  | _ => { d with illegalInstr := true }

def decodeLoad (w : BitVec 32) : Decoded :=
  let d := { Decoded.default with
    fu := .LOAD, immSelect := .IIMM, rs1 := reg (rs1Field w), rd := reg (rdField w) }
  match funct3 w with
  | 0b000#3 => { d with op := .LB }
  | 0b001#3 => { d with op := .LH }
  | 0b010#3 => { d with op := .LW }
  | 0b100#3 => { d with op := .LBU }
  | 0b101#3 => { d with op := .LHU }
  | 0b110#3 => { d with op := .LWU }
  | _ => { d with illegalInstr := true }

def decodeAmo (w : BitVec 32) : Decoded :=
  let d := { Decoded.default with
    fu := .STORE, rs1 := reg (rs1Field w), rs2 := reg (rs2Field w),
    rd := reg (rdField w) }
  match funct3 w, funct5 w with
  | 0b010#3, 0x00#5 => { d with op := .AMO_ADDW }
  | 0b010#3, 0x01#5 => { d with op := .AMO_SWAPW }
  | 0b010#3, 0x02#5 => { d with op := .AMO_LRW, illegalInstr := rs2Field w != 0 }
  | 0b010#3, 0x03#5 => { d with op := .AMO_SCW }
  | 0b010#3, 0x04#5 => { d with op := .AMO_XORW }
  | 0b010#3, 0x08#5 => { d with op := .AMO_ORW }
  | 0b010#3, 0x0c#5 => { d with op := .AMO_ANDW }
  | 0b010#3, 0x10#5 => { d with op := .AMO_MINW }
  | 0b010#3, 0x14#5 => { d with op := .AMO_MAXW }
  | 0b010#3, 0x18#5 => { d with op := .AMO_MINWU }
  | 0b010#3, 0x1c#5 => { d with op := .AMO_MAXWU }
  -- the doubleword atomics are not excluded for 32-bit registers
  | 0b011#3, 0x00#5 => { d with op := .AMO_ADDD }
  | 0b011#3, 0x01#5 => { d with op := .AMO_SWAPD }
  | 0b011#3, 0x02#5 => { d with op := .AMO_LRD, illegalInstr := rs2Field w != 0 }
  | 0b011#3, 0x03#5 => { d with op := .AMO_SCD }
  | 0b011#3, 0x04#5 => { d with op := .AMO_XORD }
  | 0b011#3, 0x08#5 => { d with op := .AMO_ORD }
  | 0b011#3, 0x0c#5 => { d with op := .AMO_ANDD }
  | 0b011#3, 0x10#5 => { d with op := .AMO_MIND }
  | 0b011#3, 0x14#5 => { d with op := .AMO_MAXD }
  | 0b011#3, 0x18#5 => { d with op := .AMO_MINDU }
  | 0b011#3, 0x1c#5 => { d with op := .AMO_MAXDU }
  | _, _ => { d with illegalInstr := true }

def decodeBranch (w : BitVec 32) : Decoded :=
  let d := { Decoded.default with
    fu := .CTRL_FLOW, immSelect := .SBIMM, rs1 := reg (rs1Field w),
    rs2 := reg (rs2Field w), isControlFlowInstr := true }
  match funct3 w with
  | 0b000#3 => { d with op := .EQ }
  | 0b001#3 => { d with op := .NE }
  | 0b100#3 => { d with op := .LTS }
  | 0b101#3 => { d with op := .GES }
  | 0b110#3 => { d with op := .LTU }
  | 0b111#3 => { d with op := .GEU }
  | _ => { d with isControlFlowInstr := false, illegalInstr := true }

def decodeJalr (w : BitVec 32) : Decoded :=
  let d := { Decoded.default with
    fu := .CTRL_FLOW, op := .JALR, immSelect := .IIMM, rs1 := reg (rs1Field w),
    rd := reg (rdField w), isControlFlowInstr := true }
  if funct3 w != 0 then { d with illegalInstr := true } else d

def decodeJal (w : BitVec 32) : Decoded :=
  { Decoded.default with
    fu := .CTRL_FLOW, op := .JAL, immSelect := .JIMM, rd := reg (rdField w),
    isControlFlowInstr := true }

def decodeAuipc (w : BitVec 32) : Decoded :=
  { Decoded.default with
    fu := .ALU, immSelect := .UIMM, usePc := true, rd := reg (rdField w) }

def decodeLui (w : BitVec 32) : Decoded :=
  { Decoded.default with fu := .ALU, immSelect := .UIMM, rd := reg (rdField w) }

/-- The process `decoder`. The floating-point opcodes are illegal like the
unknown ones. -/
def decoder : Decoded :=
  if i.ex.valid then Decoded.default
  else
    match opcode i.instruction with
    | 0b1110011#7 => decodeSystem i
    | 0b0001111#7 => decodeMiscMem i.instruction
    | 0b0110011#7 => decodeOp i.instruction
    | 0b0111011#7 => decodeOp32 i.instruction
    | 0b0010011#7 => decodeOpImm i.instruction
    | 0b0011011#7 => decodeOpImm32 i.instruction
    | 0b0100011#7 => decodeStore i.instruction
    | 0b0000011#7 => decodeLoad i.instruction
    | 0b0101111#7 => decodeAmo i.instruction
    | 0b1100011#7 => decodeBranch i.instruction
    | 0b1100111#7 => decodeJalr i.instruction
    | 0b1101111#7 => decodeJal i.instruction
    | 0b0010111#7 => decodeAuipc i.instruction
    | 0b0110111#7 => decodeLui i.instruction
    | _ => { Decoded.default with illegalInstr := true }

end Opcodes

/-! ## Immediates and exceptions -/

def signExtend (w : BitVec 32) : ImmSelect → XLen
  | .NOIMM => 0
  | .IIMM => (immI w).signExtend 32
  | .SIMM => (funct7 w ++ rdField w).signExtend 32
  | .SBIMM =>
      (w.extractLsb' 31 1 ++ w.extractLsb' 7 1 ++ w.extractLsb' 25 6 ++ w.extractLsb' 8 4 ++
        0#1).signExtend 32
  | .UIMM => w.extractLsb' 12 20 ++ 0#12
  | .JIMM =>
      (w.extractLsb' 31 1 ++ w.extractLsb' 12 8 ++ w.extractLsb' 20 1 ++ w.extractLsb' 21 10 ++
        0#1).signExtend 32

/-- `interrupt_cause`: the last of the pending interrupts in this order. -/
def interruptCause (i : Input) : XLen :=
  let pending (n : Nat) : Bool := i.irqCtrl.mie.getLsbD n && i.irqCtrl.mip.getLsbD n
  let cause : XLen := 0
  let cause := if pending irqSTimer then Riscv.interruptCause irqSTimer else cause
  let cause := if pending irqSSoft then Riscv.interruptCause irqSSoft else cause
  let cause :=
    if i.irqCtrl.mie.getLsbD irqSExt && (i.irqCtrl.mip.getLsbD irqSExt || i.irq.getLsbD 1) then
      Riscv.interruptCause irqSExt else cause
  let cause := if pending irqMTimer then Riscv.interruptCause irqMTimer else cause
  let cause := if pending irqMSoft then Riscv.interruptCause irqMSoft else cause
  if pending irqMExt then Riscv.interruptCause irqMExt else cause

def interruptTaken (i : Input) : Bool :=
  let cause := interruptCause i
  cause.getLsbD 31 && i.irqCtrl.globalEnable &&
    if i.irqCtrl.mideleg.getLsbD (cause.extractLsb' 0 5).toNat then
      (i.irqCtrl.sie && i.privLvl == privLvlS) || i.privLvl == privLvlU
    else true

/-- The cause of an environment call; there is none for an unknown privilege level. -/
def ecallCause (privLvl : PrivLvl) (cause : XLen) : XLen :=
  if privLvl = privLvlM then envCallMmode
  else if privLvl = privLvlS then envCallSmode
  else if privLvl = privLvlU then envCallUmode
  else cause

def exceptionHandling (i : Input) (d : Decoded) : Exception :=
  let ex := i.ex
  let ex :=
    if i.ex.valid then ex
    else
      let ex := { ex with
        tval := if i.isCompressed then i.compressedInstr.setWidth 32 else i.instruction }
      let ex :=
        if d.illegalInstr || i.isIllegal then { ex with valid := true, cause := illegalInstr }
        else if d.ecall then { ex with valid := true, cause := ecallCause i.privLvl ex.cause }
        else if d.ebreak then { ex with valid := true, cause := breakpoint }
        else ex
      if interruptTaken i then { ex with valid := true, cause := interruptCause i } else ex
  if i.debugReq && !i.debugMode then { ex with valid := true, cause := debugRequest } else ex

def instructionO (i : Input) : ScoreboardEntry :=
  let d := decoder i
  let ex := exceptionHandling i d
  { pc := i.pc
    transId := 0
    fu := d.fu
    op := d.op
    rs1 := d.rs1
    rs2 := d.rs2
    rd := d.rd
    result := signExtend i.instruction d.immSelect
    valid := ex.valid
    useImm := d.immSelect != .NOIMM
    useZimm := d.useZimm
    usePc := d.usePc
    ex := ex
    bp := i.branchPredict
    isCompressed := i.isCompressed }

/-! ## The functional units of the opcodes -/

theorem decodeSystem_fu (i : Input) : (decodeSystem i).fu = .CSR := by
  unfold decodeSystem decodePrivileged
  split
  · simp only [apply_ite Decoded.fu, ite_self]
  all_goals rfl

theorem decodeMiscMem_fu (w : BitVec 32) : (decodeMiscMem w).fu = .CSR := by
  unfold decodeMiscMem decodeFence
  split <;> simp only [apply_ite Decoded.fu, ite_self]

theorem decodeOp_fu (w : BitVec 32) : (decodeOp w).fu = .NONE ∨ (decodeOp w).fu = opUnit w := by
  unfold decodeOp
  split
  · exact .inl rfl
  · right
    split <;> rfl

theorem decodeStore_fu (w : BitVec 32) : (decodeStore w).fu = .STORE := by
  unfold decodeStore
  split <;> rfl

theorem decodeLoad_fu (w : BitVec 32) : (decodeLoad w).fu = .LOAD := by
  unfold decodeLoad
  split <;> rfl

theorem decodeAmo_fu (w : BitVec 32) : (decodeAmo w).fu = .STORE := by
  unfold decodeAmo
  split <;> rfl

theorem opUnit_cases (w : BitVec 32) : opUnit w = .ALU ∨ opUnit w = .MULT := by
  unfold opUnit
  split
  · exact .inr rfl
  · exact .inl rfl

theorem opUnit_not_serial (w : BitVec 32) : opUnit w ≠ .CSR ∧ opUnit w ≠ .STORE := by
  rcases opUnit_cases w with h | h <;> simp [h]

theorem decodeBranch_fu (w : BitVec 32) : (decodeBranch w).fu = .CTRL_FLOW := by
  unfold decodeBranch
  split <;> rfl

theorem decodeOp_not_flow (w : BitVec 32) : (decodeOp w).fu ≠ .CTRL_FLOW := by
  rcases decodeOp_fu w with h | h
  · simp [h]
  · rcases opUnit_cases w with hunit | hunit <;> simp [h, hunit]

theorem decodeOpImm_fu (w : BitVec 32) : (decodeOpImm w).fu = .ALU := by
  unfold decodeOpImm
  split <;> simp only [apply_ite Decoded.fu, ite_self]

theorem decodeBranch_spec (w : BitVec 32) (h : (decodeBranch w).illegalInstr = false) :
    (decodeBranch w).fu = .CTRL_FLOW ∧ opIsBranch (decodeBranch w).op = true ∧
      (decodeBranch w).immSelect = .SBIMM := by
  unfold decodeBranch at h ⊢
  split at h <;> simp_all [opIsBranch]

theorem decodeJalr_spec (w : BitVec 32) :
    (decodeJalr w).fu = .CTRL_FLOW ∧ (decodeJalr w).op = .JALR := by
  unfold decodeJalr
  split <;> exact ⟨rfl, rfl⟩

/-! ## What the back end relies on -/

/-- Fences go to the CSR unit, atomics to the store unit, and only atomics among
the stores name a destination. -/
structure Decoded.Sound (d : Decoded) : Prop where
  fence : isFence d.op = true → d.fu = .CSR
  fence_rd : d.op = .FENCE ∨ d.op = .FENCE_I → d.rd = 0
  amo : isAmo d.op = true → d.fu = .STORE
  store : d.fu = .STORE → isAmo d.op = false → d.illegalInstr = false → d.rd = 0
  none : d.fu = .NONE → d.illegalInstr = true
  not_fpu : d.fu ≠ .FPU ∧ d.fu ≠ .FPU_VEC

theorem Decoded.Sound.of_csr {d : Decoded} (hfu : d.fu = .CSR)
    (hop : (isAmo d.op || d.op == .FENCE || d.op == .FENCE_I) = false) : d.Sound := by
  simp only [Bool.or_eq_false_iff, beq_eq_false_iff_ne] at hop
  refine ⟨fun _ => hfu, ?_, ?_, ?_, ?_, ?_⟩ <;> simp [hfu, hop]

theorem decodePrivileged_sound (i : Input) {d : Decoded} (hfu : d.fu = .CSR) (hop : d.op = .ADD) :
    (decodePrivileged i d).Sound := by
  let p (op : FuOp) : Bool := isAmo op || op == .FENCE || op == .FENCE_I
  refine Decoded.Sound.of_csr ?_ ?_
  · unfold decodePrivileged
    simp only [apply_ite Decoded.fu, hfu, ite_self]
  · show p (decodePrivileged i d).op = false
    unfold decodePrivileged
    simp only [apply_ite Decoded.op, apply_ite p, hop, ite_self]
    simp [p, isAmo]

theorem csrSetOp_cases (w : BitVec 32) (op : FuOp) : csrSetOp w op = .CSR_READ ∨ csrSetOp w op = op := by
  unfold csrSetOp
  split
  · exact .inl rfl
  · exact .inr rfl

theorem decodeSystem_sound (i : Input) : (decodeSystem i).Sound := by
  unfold decodeSystem
  split
  · exact decodePrivileged_sound i rfl rfl
  all_goals
    refine Decoded.Sound.of_csr rfl ?_
  · rfl
  · rcases csrSetOp_cases i.instruction .CSR_SET with h | h <;> simp [h, isAmo]
  · rcases csrSetOp_cases i.instruction .CSR_CLEAR with h | h <;> simp [h, isAmo]
  · rfl
  · rcases csrSetOp_cases i.instruction .CSR_SET with h | h <;> simp [h, isAmo]
  · rcases csrSetOp_cases i.instruction .CSR_CLEAR with h | h <;> simp [h, isAmo]
  · rfl

theorem decodeMiscMem_sound (w : BitVec 32) : (decodeMiscMem w).Sound := by
  have hfence : (decodeFence w).fu = .CSR ∧ (decodeFence w).rd = 0 ∧
      isAmo (decodeFence w).op = false := by
    unfold decodeFence
    split <;> exact ⟨rfl, rfl, rfl⟩
  obtain ⟨hfu, hrd, hop⟩ := hfence
  unfold decodeMiscMem
  simp only
  split <;>
    exact ⟨fun _ => hfu, fun _ => hrd, by simp [hop], by simp [hfu], by simp [hfu], by simp [hfu]⟩

/-- `Decoded.Sound` for the entry the scoreboard is offered. It is kept while the
entry is in flight, where `fu`, `op` and `rd` stay and `ex.valid` can only rise. -/
structure EntrySound (e : ScoreboardEntry) : Prop where
  fence : isFence e.op = true → e.fu = .CSR
  fence_rd : e.op = .FENCE ∨ e.op = .FENCE_I → e.rd = 0
  amo : isAmo e.op = true → e.fu = .STORE
  store : e.fu = .STORE → isAmo e.op = false → e.ex.valid = false → e.rd = 0
  none : e.fu = .NONE → e.ex.valid = true
  not_fpu : e.fu ≠ .FPU ∧ e.fu ≠ .FPU_VEC

/-- A commit port shows the entry under the number of its slot. -/
theorem EntrySound.transId {e : ScoreboardEntry} (h : EntrySound e) (n : TransId) :
    EntrySound { e with transId := n } :=
  ⟨h.fence, h.fence_rd, h.amo, h.store, h.none, h.not_fpu⟩

theorem Decoded.Sound.of_plain {d : Decoded} (hop : (isAmo d.op || isFence d.op) = false)
    (hfu : d.fu = .ALU ∨ d.fu = .MULT ∨ d.fu = .LOAD ∨ d.fu = .CTRL_FLOW) : d.Sound := by
  simp only [Bool.or_eq_false_iff, isFence, beq_eq_false_iff_ne] at hop
  rcases hfu with hfu | hfu | hfu | hfu <;>
    exact ⟨by simp [isFence, hop], by simp [hop], by simp [hop], by simp [hfu], by simp [hfu],
      by simp [hfu]⟩

theorem default_sound : ({ Decoded.default with illegalInstr := true } : Decoded).Sound := by
  constructor <;> simp [Decoded.default, isFence, isAmo]

theorem decodeOp_sound (w : BitVec 32) : (decodeOp w).Sound := by
  unfold decodeOp
  split
  · exact default_sound
  · have hfu : opUnit w = .ALU ∨ opUnit w = .MULT ∨ opUnit w = .LOAD ∨ opUnit w = .CTRL_FLOW := by
      rcases opUnit_cases w with h | h <;> simp [h]
    split <;> exact Decoded.Sound.of_plain rfl hfu

theorem decodeOpImm_sound (w : BitVec 32) : (decodeOpImm w).Sound := by
  let p (op : FuOp) : Bool := isAmo op || isFence op
  refine Decoded.Sound.of_plain ?_ (.inl ?_)
  · show p (decodeOpImm w).op = false
    unfold decodeOpImm
    split <;> simp [apply_ite Decoded.op, apply_ite p] <;> simp [p, isAmo, isFence, Decoded.default]
  · unfold decodeOpImm
    split <;> simp [apply_ite Decoded.fu]

theorem decodeStore_sound (w : BitVec 32) : (decodeStore w).Sound := by
  unfold decodeStore
  split <;> constructor <;> simp [isFence, isAmo, Decoded.default]

theorem decodeLoad_sound (w : BitVec 32) : (decodeLoad w).Sound := by
  unfold decodeLoad
  split <;> exact Decoded.Sound.of_plain rfl (by simp)

theorem Decoded.Sound.of_amo {d : Decoded} (hfu : d.fu = .STORE)
    (hop : isAmo d.op = true ∨ d.op = .ADD ∧ d.illegalInstr = true) : d.Sound := by
  have hfence : isFence d.op = false := by
    rcases hop with h | h
    · revert h
      cases d.op <;> simp [isAmo, isFence]
    · simp [h.1, isFence]
  have hfence' : ¬(d.op = .FENCE ∨ d.op = .FENCE_I) := by
    simp only [isFence, Bool.or_eq_false_iff, beq_eq_false_iff_ne] at hfence
    simp [hfence]
  refine ⟨by simp [hfence], by simp [hfence'], fun _ => hfu, ?_, by simp [hfu], by simp [hfu]⟩
  intro _ hamo hlegal
  simp [hamo, hlegal] at hop

theorem decodeAmo_sound (w : BitVec 32) : (decodeAmo w).Sound := by
  unfold decodeAmo
  split
  all_goals
    refine Decoded.Sound.of_amo ?_ ?_
  all_goals
    first
      | rfl
      | exact .inl rfl
      | exact .inr ⟨rfl, rfl⟩

theorem decodeBranch_sound (w : BitVec 32) : (decodeBranch w).Sound := by
  unfold decodeBranch
  split <;> exact Decoded.Sound.of_plain rfl (by simp)

theorem decodeJalr_sound (w : BitVec 32) : (decodeJalr w).Sound := by
  unfold decodeJalr
  split <;> exact Decoded.Sound.of_plain rfl (by simp)

theorem decoder_sound (i : Input) (hex : i.ex.valid = false) : (decoder i).Sound := by
  unfold decoder
  rw [hex]
  simp only [Bool.false_eq_true, if_false]
  split
  · exact decodeSystem_sound i
  · exact decodeMiscMem_sound _
  · exact decodeOp_sound _
  · refine Decoded.Sound.of_plain rfl ?_
    show opUnit i.instruction = .ALU ∨ opUnit i.instruction = .MULT ∨ _
    rcases opUnit_cases i.instruction with h | h <;> simp [h]
  · exact decodeOpImm_sound _
  · exact Decoded.Sound.of_plain rfl (.inl rfl)
  · exact decodeStore_sound _
  · exact decodeLoad_sound _
  · exact decodeAmo_sound _
  · exact decodeBranch_sound _
  · exact decodeJalr_sound _
  · exact Decoded.Sound.of_plain rfl (by simp [decodeJal])
  · exact Decoded.Sound.of_plain rfl (.inl rfl)
  · exact Decoded.Sound.of_plain rfl (.inl rfl)
  · exact default_sound

theorem exceptionHandling_valid (i : Input) (d : Decoded)
    (h : i.ex.valid = true ∨ d.illegalInstr = true) : (exceptionHandling i d).valid = true := by
  unfold exceptionHandling
  simp only [apply_ite Exception.valid]
  rcases h with h | h <;> simp [h]

theorem instructionO_sound (i : Input) : EntrySound (instructionO i) := by
  have hval := exceptionHandling_valid i (decoder i)
  cases hex : i.ex.valid with
  | true =>
      have hv : (instructionO i).ex.valid = true := hval (.inl hex)
      have hd : decoder i = Decoded.default := by simp [decoder, hex]
      have hop : (instructionO i).op = .ADD := congrArg Decoded.op hd
      have hfu : (instructionO i).fu = .NONE := congrArg Decoded.fu hd
      exact ⟨by simp [hop, isFence], by simp [hop], by simp [hop, isAmo], by simp [hfu],
        fun _ => hv, by simp [hfu]⟩
  | false =>
      have hs := decoder_sound i hex
      refine ⟨hs.fence, hs.fence_rd, hs.amo, ?_, fun h => hval (.inr (hs.none h)), hs.not_fpu⟩
      intro hfu hamo hv
      refine hs.store hfu hamo ?_
      by_contra hill
      have : (instructionO i).ex.valid = true := hval (.inr (by simpa using hill))
      simp [this] at hv

/-! ## The destinations of CSR instructions -/

/-- The CSR instructions that may have a destination: the accesses, and two that clear what
the check of the register fields has raised. -/
def mayName (op : FuOp) : Bool :=
  op == .CSR_WRITE || op == .CSR_SET || op == .CSR_CLEAR || op == .CSR_READ ||
    op == .SFENCE_VMA || op == .DRET

def NamesZero (d : Decoded) : Prop :=
  d.fu = .CSR → d.illegalInstr = false → mayName d.op = false → d.rd = 0

theorem NamesZero.of_fu {d : Decoded} (hfu : d.fu ≠ .CSR) : NamesZero d :=
  fun h => absurd h hfu

theorem NamesZero.of_op {d : Decoded} (hop : mayName d.op = true) : NamesZero d :=
  fun _ _ h => Bool.noConfusion (hop.symm.trans h)

theorem decodePrivileged_namesZero (i : Input) {d : Decoded}
    (hrd : d.rd = reg (rdField i.instruction)) : NamesZero (decodePrivileged i d) := by
  intro _ hl hn
  have hsame : (decodePrivileged i d).rd = d.rd := by
    unfold decodePrivileged
    simp only [apply_ite Decoded.rd, ite_self]
  rw [hsame, hrd]
  by_contra hne
  have htest : (rs1Field i.instruction != 0 || rdField i.instruction != 0) = true := by
    rw [Bool.or_eq_true, bne_iff_ne, bne_iff_ne]
    refine .inr fun hz => hne ?_
    rw [hz]
    rfl
  -- what names a register is illegal here, or an instruction that may have a destination
  let p (d : Decoded) : Bool := d.illegalInstr || mayName d.op
  have hp : p (decodePrivileged i d) = true := by
    unfold decodePrivileged
    rw [if_pos htest]
    simp only [apply_ite p]
    simp [p, mayName]
  have hp : ((decodePrivileged i d).illegalInstr || mayName (decodePrivileged i d).op) = true := hp
  rw [hl, hn] at hp
  cases hp

theorem decodeSystem_namesZero (i : Input) : NamesZero (decodeSystem i) := by
  have hset {op : FuOp} (hop : mayName op = true) : mayName (csrSetOp i.instruction op) = true := by
    rcases csrSetOp_cases i.instruction op with h | h
    · rw [h]
      rfl
    · rw [h, hop]
  unfold decodeSystem
  split
  · exact decodePrivileged_namesZero i rfl
  · exact NamesZero.of_op rfl
  · exact NamesZero.of_op (hset rfl)
  · exact NamesZero.of_op (hset rfl)
  · exact NamesZero.of_op rfl
  · exact NamesZero.of_op (hset rfl)
  · exact NamesZero.of_op (hset rfl)
  · exact fun _ hl => Bool.noConfusion hl

theorem decodeMiscMem_rd (w : BitVec 32) : (decodeMiscMem w).rd = 0 := by
  unfold decodeMiscMem decodeFence
  split <;> simp only [apply_ite Decoded.rd, ite_self] <;> rfl

theorem decoder_namesZero (i : Input) : NamesZero (decoder i) := by
  have hfu {d : Decoded} {u : Fu} (h : d.fu = u) (hu : u ≠ .CSR) : NamesZero d :=
    NamesZero.of_fu (h ▸ hu)
  unfold decoder
  split
  · exact hfu (u := .NONE) rfl (by decide)
  split
  · exact decodeSystem_namesZero i
  · exact fun _ _ _ => decodeMiscMem_rd _
  · rcases decodeOp_fu i.instruction with h | h
    · exact hfu h (by decide)
    · exact hfu h (opUnit_not_serial _).1
  · exact NamesZero.of_fu (opUnit_not_serial i.instruction).1
  · exact hfu (decodeOpImm_fu _) (by decide)
  · exact hfu (u := .ALU) rfl (by decide)
  · exact hfu (decodeStore_fu _) (by decide)
  · exact hfu (decodeLoad_fu _) (by decide)
  · exact hfu (decodeAmo_fu _) (by decide)
  · exact hfu (decodeBranch_fu _) (by decide)
  · exact hfu (decodeJalr_spec _).1 (by decide)
  · exact hfu (u := .CTRL_FLOW) rfl (by decide)
  · exact hfu (u := .ALU) rfl (by decide)
  · exact hfu (u := .ALU) rfl (by decide)
  · exact hfu (u := .NONE) rfl (by decide)

/-- A CSR instruction that is let through and is none of those names register zero. -/
theorem instructionO_rd (i : Input) (hfu : (instructionO i).fu = .CSR)
    (hex : (instructionO i).ex.valid = false) (hn : mayName (instructionO i).op = false) :
    (instructionO i).rd = 0 := by
  refine decoder_namesZero i hfu ?_ hn
  by_contra hl
  have hval := exceptionHandling_valid i (decoder i) (.inr (Bool.not_eq_false _ ▸ hl))
  exact Bool.noConfusion (hex.symm.trans hval)

end Cva6.Decoder
