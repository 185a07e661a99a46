import Cva6.Pkg
/-!
# Privileged architecture

The packed structures and constants of `riscv_pkg.sv` that the CSR file uses.
A privilege level is held as its two bits: a software write can leave the
unnamed encoding `10` in `mstatus.mpp` or in `dcsr.prv`, and the register file
then carries it around.
-/

namespace Cva6.Riscv

abbrev PrivLvl := BitVec 2

def privLvlM : PrivLvl := 3
def privLvlS : PrivLvl := 1
def privLvlU : PrivLvl := 0

abbrev Xs := BitVec 2

def xsOff : Xs := 0
def xsDirty : Xs := 3

/-- `xlen_e`, the encoding of a 64-bit mode in `sxl` and `uxl`. -/
def xlen64 : BitVec 2 := 2

/-! ## Causes and interrupts -/

def instrAddrMisaligned : XLen := 0
def instrAccessFault : XLen := 1
def illegalInstr : XLen := 2
def breakpoint : XLen := 3
def ldAddrMisaligned : XLen := 4
def ldAccessFault : XLen := 5
def stAddrMisaligned : XLen := 6
def stAccessFault : XLen := 7
def envCallUmode : XLen := 8
def envCallSmode : XLen := 9
def envCallMmode : XLen := 11
def instrPageFault : XLen := 12
def debugRequest : XLen := 24

def irqSSoft : Nat := 1
def irqMSoft : Nat := 3
def irqSTimer : Nat := 5
def irqMTimer : Nat := 7
def irqSExt : Nat := 9
def irqMExt : Nat := 11

def interruptCause (irq : Nat) : XLen := BitVec.twoPow 32 31 ||| BitVec.ofNat 32 irq

def mipSsip : XLen := 1 <<< irqSSoft
def mipMsip : XLen := 1 <<< irqMSoft
def mipStip : XLen := 1 <<< irqSTimer
def mipMtip : XLen := 1 <<< irqMTimer
def mipSeip : XLen := 1 <<< irqSExt
def mipMeip : XLen := 1 <<< irqMExt

/-! ## Status registers -/

/-- `status_rv_t`, most significant field first. -/
structure Status where
  sd : Bool
  wpri4 : BitVec 27
  sxl : BitVec 2
  uxl : BitVec 2
  wpri3 : BitVec 9
  tsr : Bool
  tw : Bool
  tvm : Bool
  mxr : Bool
  sum : Bool
  mprv : Bool
  xs : Xs
  fs : Xs
  mpp : PrivLvl
  wpri2 : BitVec 2
  spp : Bool
  mpie : Bool
  wpri1 : Bool
  spie : Bool
  upie : Bool
  mie : Bool
  wpri0 : Bool
  sie : Bool
  uie : Bool
  deriving DecidableEq, Repr

namespace Status

def toBits (s : Status) : BitVec 64 :=
  BitVec.ofBool s.sd ++ s.wpri4 ++ s.sxl ++ s.uxl ++ s.wpri3 ++ BitVec.ofBool s.tsr ++
    BitVec.ofBool s.tw ++ BitVec.ofBool s.tvm ++ BitVec.ofBool s.mxr ++ BitVec.ofBool s.sum ++
    BitVec.ofBool s.mprv ++ s.xs ++ s.fs ++ s.mpp ++ s.wpri2 ++ BitVec.ofBool s.spp ++
    BitVec.ofBool s.mpie ++ BitVec.ofBool s.wpri1 ++ BitVec.ofBool s.spie ++
    BitVec.ofBool s.upie ++ BitVec.ofBool s.mie ++ BitVec.ofBool s.wpri0 ++
    BitVec.ofBool s.sie ++ BitVec.ofBool s.uie

def ofBits (b : BitVec 64) : Status where
  sd := b.getLsbD 63
  wpri4 := b.extractLsb' 36 27
  sxl := b.extractLsb' 34 2
  uxl := b.extractLsb' 32 2
  wpri3 := b.extractLsb' 23 9
  tsr := b.getLsbD 22
  tw := b.getLsbD 21
  tvm := b.getLsbD 20
  mxr := b.getLsbD 19
  sum := b.getLsbD 18
  mprv := b.getLsbD 17
  xs := b.extractLsb' 15 2
  fs := b.extractLsb' 13 2
  mpp := b.extractLsb' 11 2
  wpri2 := b.extractLsb' 9 2
  spp := b.getLsbD 8
  mpie := b.getLsbD 7
  wpri1 := b.getLsbD 6
  spie := b.getLsbD 5
  upie := b.getLsbD 4
  mie := b.getLsbD 3
  wpri0 := b.getLsbD 2
  sie := b.getLsbD 1
  uie := b.getLsbD 0

end Status

/-- `SMODE_STATUS_READ_MASK`: uie, sie, upie, spie, spp, fs, xs, sum, mxr, sd, uxl. -/
def smodeStatusReadMask : BitVec 64 :=
  0x1 ||| 0x2 ||| 0x10 ||| 0x20 ||| 0x100 ||| 0x6000 ||| 0x18000 ||| 0x40000 ||| 0x80000 |||
    0x80000000 ||| 0x300000000

/-- `SMODE_STATUS_WRITE_MASK`: sie, spie, spp, fs, sum, mxr. -/
def smodeStatusWriteMask : BitVec 64 :=
  0x2 ||| 0x20 ||| 0x100 ||| 0x6000 ||| 0x40000 ||| 0x80000

structure Satp where
  mode : BitVec 1
  asid : BitVec 9
  ppn : BitVec 22
  deriving DecidableEq, Repr

namespace Satp

def toBits (s : Satp) : XLen := s.mode ++ s.asid ++ s.ppn

def ofBits (b : XLen) : Satp where
  mode := b.extractLsb' 31 1
  asid := b.extractLsb' 22 9
  ppn := b.extractLsb' 0 22

end Satp

/-- `ModeSv32`, the only translation mode for `XLEN = 32`. -/
def modeSv : BitVec 1 := 1
def modeOff : BitVec 1 := 0

structure Fcsr where
  reserved : BitVec 17
  fprec : BitVec 7
  frm : BitVec 3
  fflags : BitVec 5
  deriving DecidableEq, Repr

structure Pmpcfg where
  locked : Bool
  reserved : BitVec 2
  addrMode : BitVec 2
  accessType : BitVec 3
  deriving DecidableEq, Repr

namespace Pmpcfg

def toBits (c : Pmpcfg) : BitVec 8 :=
  BitVec.ofBool c.locked ++ c.reserved ++ c.addrMode ++ c.accessType

def ofBits (b : BitVec 8) : Pmpcfg where
  locked := b.getLsbD 7
  reserved := b.extractLsb' 5 2
  addrMode := b.extractLsb' 3 2
  accessType := b.extractLsb' 0 3

end Pmpcfg

def pmpTor : BitVec 2 := 1

structure Dcsr where
  xdebugver : BitVec 4
  zero2 : BitVec 12
  ebreakm : Bool
  zero1 : Bool
  ebreaks : Bool
  ebreaku : Bool
  stepie : Bool
  stopcount : Bool
  stoptime : Bool
  cause : BitVec 3
  zero0 : Bool
  mprven : Bool
  nmip : Bool
  step : Bool
  prv : PrivLvl
  deriving DecidableEq, Repr

namespace Dcsr

def toBits (d : Dcsr) : XLen :=
  d.xdebugver ++ d.zero2 ++ BitVec.ofBool d.ebreakm ++ BitVec.ofBool d.zero1 ++
    BitVec.ofBool d.ebreaks ++ BitVec.ofBool d.ebreaku ++ BitVec.ofBool d.stepie ++
    BitVec.ofBool d.stopcount ++ BitVec.ofBool d.stoptime ++ d.cause ++ BitVec.ofBool d.zero0 ++
    BitVec.ofBool d.mprven ++ BitVec.ofBool d.nmip ++ BitVec.ofBool d.step ++ d.prv

def ofBits (b : XLen) : Dcsr where
  xdebugver := b.extractLsb' 28 4
  zero2 := b.extractLsb' 16 12
  ebreakm := b.getLsbD 15
  zero1 := b.getLsbD 14
  ebreaks := b.getLsbD 13
  ebreaku := b.getLsbD 12
  stepie := b.getLsbD 11
  stopcount := b.getLsbD 10
  stoptime := b.getLsbD 9
  cause := b.extractLsb' 6 3
  zero0 := b.getLsbD 5
  mprven := b.getLsbD 4
  nmip := b.getLsbD 3
  step := b.getLsbD 2
  prv := b.extractLsb' 0 2

end Dcsr

/-- The reasons for entering debug mode, `dm::Cause…`. -/
def causeBreakpoint : BitVec 3 := 1
def causeRequest : BitVec 3 := 3
def causeSingleStep : BitVec 3 := 4

end Cva6.Riscv
