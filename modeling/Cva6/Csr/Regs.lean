import Cva6.Riscv
import Mathlib.Logic.Function.Basic
/-!
# Control and status registers

The registers of `csr_regfile.sv`, their addresses, and the two `case`
statements over an address: `csr_read_process` and the write part of
`csr_update`. An address that appears in neither is not decoded and accesses to
it raise an access exception.
-/

namespace Cva6.Csr

open Cva6.Riscv

/-- The registers `…_q` of `csr_regfile`. -/
structure Regs where
  privLvl : PrivLvl
  fcsr : Fcsr
  debugMode : Bool
  dcsr : Dcsr
  dpc : XLen
  dscratch0 : XLen
  dscratch1 : XLen
  mstatus : Status
  mtvecRstLoad : Bool
  mtvec : XLen
  medeleg : XLen
  mideleg : XLen
  mip : XLen
  mie : XLen
  mepc : XLen
  mcause : XLen
  mcounteren : XLen
  mscratch : XLen
  mtval : XLen
  dcache : XLen
  icache : XLen
  sepc : XLen
  scause : XLen
  stvec : XLen
  scounteren : XLen
  sscratch : XLen
  stval : XLen
  satp : Satp
  cycle : XLen
  instret : XLen
  enLdStTranslation : Bool
  wfi : Bool
  pmpcfg : Fin 16 → Pmpcfg
  pmpaddr : Fin 16 → BitVec 30

def Regs.reset : Regs where
  privLvl := privLvlM
  fcsr := ⟨0, 0, 0, 0⟩
  debugMode := false
  dcsr := { Dcsr.ofBits 0 with prv := privLvlM, xdebugver := 4 }
  dpc := 0
  dscratch0 := 0
  dscratch1 := 0
  mstatus := Status.ofBits 0
  mtvecRstLoad := true
  mtvec := 0
  medeleg := 0
  mideleg := 0
  mip := 0
  mie := 0
  mepc := 0
  mcause := 0
  mcounteren := 0
  mscratch := 0
  mtval := 0
  dcache := 1
  icache := 1
  sepc := 0
  scause := 0
  stvec := 0
  scounteren := 0
  sscratch := 0
  stval := 0
  satp := Satp.ofBits 0
  cycle := 0
  instret := 0
  enLdStTranslation := false
  wfi := false
  pmpcfg := fun _ => Pmpcfg.ofBits 0
  pmpaddr := fun _ => 0

/-- `priv_lvl_o`: in debug mode the core executes with machine privilege. -/
def Regs.privLvlO (q : Regs) : PrivLvl :=
  if q.debugMode then privLvlM else q.privLvl

/-! ## Addresses -/

/-- The members of `csr_reg_t` that the register file decodes. The performance
counters `CSR_ML1_ICACHE_MISS` to `CSR_MHPM_COUNTER_31` are one family. -/
inductive CsrReg where
  | fflags | frm | fcsr | ftran
  | sstatus | sie | stvec | scounteren | sscratch | sepc | scause | stval | sip | satp
  | mstatus | misa | medeleg | mideleg | mie | mtvec | mcounteren
  | mscratch | mepc | mcause | mtval | mip
  | pmpcfg (n : Fin 4)
  | pmpaddr (n : Fin 16)
  | mvendorid | marchid | mimpid | mhartid
  | mcycle | minstret
  | perfCounter
  | dcache | icache
  | tselect | tdata1 | tdata2 | tdata3
  | dcsr | dpc | dscratch0 | dscratch1
  | cycle | instret
  deriving DecidableEq, Repr

def CsrReg.ofAddr (a : BitVec 12) : Option CsrReg :=
  match a with
  | 0x001#12 => some .fflags
  | 0x002#12 => some .frm
  | 0x003#12 => some .fcsr
  | 0x800#12 => some .ftran
  | 0x100#12 => some .sstatus
  | 0x104#12 => some .sie
  | 0x105#12 => some .stvec
  | 0x106#12 => some .scounteren
  | 0x140#12 => some .sscratch
  | 0x141#12 => some .sepc
  | 0x142#12 => some .scause
  | 0x143#12 => some .stval
  | 0x144#12 => some .sip
  | 0x180#12 => some .satp
  | 0x300#12 => some .mstatus
  | 0x301#12 => some .misa
  | 0x302#12 => some .medeleg
  | 0x303#12 => some .mideleg
  | 0x304#12 => some .mie
  | 0x305#12 => some .mtvec
  | 0x306#12 => some .mcounteren
  | 0x340#12 => some .mscratch
  | 0x341#12 => some .mepc
  | 0x342#12 => some .mcause
  | 0x343#12 => some .mtval
  | 0x344#12 => some .mip
  | 0xF11#12 => some .mvendorid
  | 0xF12#12 => some .marchid
  | 0xF13#12 => some .mimpid
  | 0xF14#12 => some .mhartid
  | 0xB00#12 => some .mcycle
  | 0xB02#12 => some .minstret
  | 0x701#12 => some .dcache
  | 0x700#12 => some .icache
  | 0x7A0#12 => some .tselect
  | 0x7A1#12 => some .tdata1
  | 0x7A2#12 => some .tdata2
  | 0x7A3#12 => some .tdata3
  | 0x7B0#12 => some .dcsr
  | 0x7B1#12 => some .dpc
  | 0x7B2#12 => some .dscratch0
  | 0x7B3#12 => some .dscratch1
  | 0xC00#12 => some .cycle
  | 0xC02#12 => some .instret
  | a =>
      if 0x3A0#12 ≤ a ∧ a ≤ 0x3A3#12 then some (.pmpcfg (Fin.ofNat 4 a.toNat))
      else if 0x3B0#12 ≤ a ∧ a ≤ 0x3BF#12 then some (.pmpaddr (Fin.ofNat 16 a.toNat))
      else if 0xB03#12 ≤ a ∧ a ≤ 0xB1F#12 then some .perfCounter
      else none

/-! ## Reads -/

/-- `ISA_CODE`: A, C, I, M, S, U and a 32-bit `MXL`. -/
def isaCode : XLen :=
  1 ||| 1 <<< 2 ||| 1 <<< 8 ||| 1 <<< 12 ||| 1 <<< 18 ||| 1 <<< 20 ||| 1 <<< 30

/-- `mstatus_extended`: the 32-bit view of the 64-bit status register. -/
def mstatusExtended (s : Status) : XLen :=
  BitVec.ofBool s.sd ++ s.wpri3.setWidth 8 ++ s.toBits.setWidth 23

/-- Four consecutive `pmpcfg` bytes, entry `4 * n` in the low byte. -/
def pmpcfgWord (q : Regs) (n : Fin 4) : XLen :=
  (q.pmpcfg (Fin.ofNat 16 (4 * n + 3))).toBits ++ (q.pmpcfg (Fin.ofNat 16 (4 * n + 2))).toBits ++
    (q.pmpcfg (Fin.ofNat 16 (4 * n + 1))).toBits ++ (q.pmpcfg (Fin.ofNat 16 (4 * n))).toBits

/-- The `case` of `csr_read_process`; `none` is a read access exception. The
reads of `PMPCFG0` and `PMPCFG2` are truncated to 32 bits, and `PMPCFG1` and
`PMPCFG3` cannot be read. -/
def readReg (q : Regs) (hartId perfData : XLen) : CsrReg → Option XLen
  | .fflags => if q.mstatus.fs == xsOff then none else some (q.fcsr.fflags.setWidth 32)
  | .frm => if q.mstatus.fs == xsOff then none else some (q.fcsr.frm.setWidth 32)
  | .fcsr =>
      if q.mstatus.fs == xsOff then none
      else some ((q.fcsr.frm ++ q.fcsr.fflags).setWidth 32)
  | .ftran => if q.mstatus.fs == xsOff then none else some (q.fcsr.fprec.setWidth 32)
  | .dcsr => some q.dcsr.toBits
  | .dpc => some q.dpc
  | .dscratch0 => some q.dscratch0
  | .dscratch1 => some q.dscratch1
  | .tselect | .tdata1 | .tdata2 | .tdata3 => some 0
  | .sstatus => some (mstatusExtended q.mstatus &&& smodeStatusReadMask.setWidth 32)
  | .sie => some (q.mie &&& q.mideleg)
  | .sip => some (q.mip &&& q.mideleg)
  | .stvec => some q.stvec
  | .scounteren => some q.scounteren
  | .sscratch => some q.sscratch
  | .sepc => some q.sepc
  | .scause => some q.scause
  | .stval => some q.stval
  | .satp => if q.privLvlO == privLvlS && q.mstatus.tvm then none else some q.satp.toBits
  | .mstatus => some (mstatusExtended q.mstatus)
  | .misa => some isaCode
  | .medeleg => some q.medeleg
  | .mideleg => some q.mideleg
  | .mie => some q.mie
  | .mtvec => some q.mtvec
  | .mcounteren => some q.mcounteren
  | .mscratch => some q.mscratch
  | .mepc => some q.mepc
  | .mcause => some q.mcause
  | .mtval => some q.mtval
  | .mip => some q.mip
  | .mvendorid => some 0
  | .marchid => some 3
  | .mimpid => some 0
  | .mhartid => some hartId
  | .mcycle | .cycle => some q.cycle
  | .minstret | .instret => some q.instret
  | .perfCounter => some perfData
  | .dcache => some q.dcache
  | .icache => some q.icache
  | .pmpcfg n => if n == 0 || n == 2 then some (pmpcfgWord q n) else none
  | .pmpaddr n =>
      some (((q.pmpaddr n).extractLsb' 1 29 ++
        BitVec.ofBool ((q.pmpcfg n).addrMode.getLsbD 1)).setWidth 32)

/-! ## Writes -/

/-- What `csr_update` drives: the next register values and its outputs. -/
structure Update where
  d : Regs
  eret : Bool
  flush : Bool
  updateAccessException : Bool
  setDebugPc : Bool
  perfWe : Bool
  perfData : XLen

def masked (old mask wdata : XLen) : XLen :=
  (old &&& ~~~mask) ||| (wdata &&& mask)

/-- A trap vector: bit 1 is hardwired to zero. -/
def tvec (wdata : XLen) : XLen :=
  wdata.extractLsb' 2 30 ++ 0#1 ++ wdata.extractLsb' 0 1

/-- In vectored mode the machine trap vector is aligned to 256 bytes. -/
def mtvecValue (wdata : XLen) : XLen :=
  if wdata.getLsbD 0 then wdata.extractLsb' 8 24 ++ 0#7 ++ wdata.extractLsb' 0 1 else tvec wdata

/-- An exception program counter is halfword aligned. -/
def epcValue (wdata : XLen) : XLen :=
  wdata.extractLsb' 1 31 ++ 0#1

/-- The `fs` guard of the floating-point registers. -/
def writeFcsr (q : Regs) (f : Fcsr) (u : Update) : Update :=
  if q.mstatus.fs == xsOff then { u with updateAccessException := true }
  else { u with d.fcsr := f, flush := true }

def medelegMask : XLen :=
  1 <<< 0 ||| 1 <<< 3 ||| 1 <<< 8 ||| 1 <<< 12 ||| 1 <<< 13 ||| 1 <<< 15

/-- Entry `n` refuses address writes when it is locked or when the entry above
it is a locked top-of-range entry. -/
def pmpaddrWritable (q : Regs) (n : Fin 16) : Bool :=
  !(q.pmpcfg n).locked &&
    !(n != 15 && (q.pmpcfg (n + 1)).locked && (q.pmpcfg (n + 1)).addrMode == pmpTor)

/-- The `case` of `csr_update`. A write to `minstret` only sets a local variable
that is read before it, so it has no effect. -/
def writeReg (q : Regs) (wdata : XLen) (u : Update) : CsrReg → Update
  | .fflags => writeFcsr q { u.d.fcsr with fflags := wdata.setWidth 5 } u
  | .frm => writeFcsr q { u.d.fcsr with frm := wdata.setWidth 3 } u
  | .fcsr =>
      writeFcsr q
        { u.d.fcsr with frm := wdata.extractLsb' 5 3, fflags := wdata.setWidth 5 } u
  | .ftran => writeFcsr q { u.d.fcsr with fprec := wdata.setWidth 7 } u
  | .dcsr =>
      { u with
        d.dcsr := { Dcsr.ofBits wdata with
          xdebugver := 4, nmip := false, stopcount := false, stoptime := false } }
  | .dpc => { u with d.dpc := wdata }
  | .dscratch0 => { u with d.dscratch0 := wdata }
  | .dscratch1 => { u with d.dscratch1 := wdata }
  | .tselect | .tdata1 | .tdata2 | .tdata3 => u
  | .sstatus =>
      let mask := (smodeStatusWriteMask.setWidth 32).setWidth 64
      let s := Status.ofBits ((q.mstatus.toBits &&& ~~~mask) ||| (wdata.setWidth 64 &&& mask))
      { u with d.mstatus := { s with fs := xsOff }, flush := true }
  | .sie => { u with d.mie := masked q.mie q.mideleg wdata }
  | .sip => { u with d.mip := masked q.mip (mipSsip &&& q.mideleg) wdata }
  | .stvec => { u with d.stvec := tvec wdata }
  | .scounteren => { u with d.scounteren := wdata }
  | .sscratch => { u with d.sscratch := wdata }
  | .sepc => { u with d.sepc := epcValue wdata }
  | .scause => { u with d.scause := wdata }
  | .stval => { u with d.stval := wdata }
  | .satp =>
      if q.privLvlO == privLvlS && q.mstatus.tvm then
        { u with updateAccessException := true, flush := true }
      else
        let satp := Satp.ofBits wdata
        -- one address-space bit is implemented
        let satp := { satp with asid := satp.asid &&& 1 }
        if satp.mode == modeOff || satp.mode == modeSv then
          { u with d.satp := satp, flush := true }
        else { u with flush := true }
  | .mstatus =>
      { u with
        d.mstatus := { Status.ofBits (wdata.setWidth 64) with
          xs := xsOff, fs := xsOff, upie := false, uie := false }
        flush := true }
  | .misa => u
  | .medeleg => { u with d.medeleg := masked q.medeleg medelegMask wdata }
  | .mideleg => { u with d.mideleg := masked q.mideleg (mipSsip ||| mipStip ||| mipSeip) wdata }
  | .mie =>
      { u with
        d.mie := masked q.mie
          (mipSsip ||| mipStip ||| mipSeip ||| mipMsip ||| mipMtip ||| mipMeip) wdata }
  | .mtvec => { u with d.mtvec := mtvecValue wdata }
  | .mcounteren => { u with d.mcounteren := wdata }
  | .mscratch => { u with d.mscratch := wdata }
  | .mepc => { u with d.mepc := epcValue wdata }
  | .mcause => { u with d.mcause := wdata }
  | .mtval => { u with d.mtval := wdata }
  | .mip => { u with d.mip := masked q.mip (mipSsip ||| mipStip ||| mipSeip) wdata }
  | .mcycle => { u with d.cycle := wdata }
  | .minstret => u
  | .perfCounter => { u with perfData := wdata, perfWe := true }
  | .dcache => { u with d.dcache := (wdata.setWidth 1).setWidth 32 }
  | .icache => { u with d.icache := (wdata.setWidth 1).setWidth 32 }
  | .pmpcfg n =>
      { u with
        d.pmpcfg := fun j =>
          if j.val / 4 = n.val ∧ (q.pmpcfg j).locked = false then
            Pmpcfg.ofBits (wdata.extractLsb' (8 * (j.val % 4)) 8)
          else u.d.pmpcfg j }
  | .pmpaddr n =>
      if pmpaddrWritable q n then
        { u with d.pmpaddr := Function.update u.d.pmpaddr n (wdata.setWidth 30) }
      else u
  | .mvendorid | .marchid | .mimpid | .mhartid | .cycle | .instret =>
      { u with updateAccessException := true }

end Cva6.Csr
