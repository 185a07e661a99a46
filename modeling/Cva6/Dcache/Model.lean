import Cva6.Dcache.Ctrl
import Cva6.Dcache.Missunit
import Cva6.Dcache.Wbuffer
import Cva6.Sync.Machine
/-!
# The data cache and its memory

`wt_dcache.sv` wires two read controllers, the write buffer, the miss unit and the
memory arrays. The memory side applies an accepted write at some time before it
acknowledges it, answers a read with what the memory held at some time after the request,
and invalidates the line of an atomic before it changes it. `arch` is the memory as the
core sees it: every granted store is in it at once.
-/

namespace Cva6.Dcache

open Cva6.Sync

abbrev Memory := WordAddr → Word

structure Input where
  loads : Fin 2 → LoadReq
  store : StoreReq
  enable : Bool
  flush : Bool
  amo : AmoReq
  memRtrnVld : Bool
  memRtrn : Rtrn
  memDataAck : Bool
  rndWay : Way
  scBackoffOver : Bool
  /-- The choices of the round-robin arbiters. -/
  rdSel : Port
  choice : Wbuffer.Choice
  /-- The pending writes the memory applies in this cycle. -/
  apply : TxId → Bool
  /-- The memory reads the line of the pending load. -/
  sample : Bool
  /-- The memory performs the pending atomic, which leaves this word. -/
  amoApply : Option Word

/-! ## The hardware -/

structure Hw where
  ctrl : Fin 2 → Ctrl.Regs
  miss : Missunit.Regs
  wbuf : Wbuffer.Regs
  mem : Mem.Regs

section Wires

variable (cfg : Cfg) (s : Hw) (i : Input)

def cacheEn : Bool := s.miss.enableQ

def rdTxId : TxId := 1

def missOf : Port → Missunit.Miss
  | .rd p =>
      { req := Ctrl.missReq (s.ctrl p)
        we := false
        nc := Ctrl.missNc (s.ctrl p) cfg (cacheEn s)
        wdata := fun _ => 0
        paddr := Ctrl.missPaddr (s.ctrl p)
        vldBits := (s.ctrl p).vldDataQ
        size := Ctrl.missSize (s.ctrl p) cfg (cacheEn s)
        id := rdTxId }
  | .wr =>
      { req := Wbuffer.missReq s.wbuf
        we := true
        nc := Wbuffer.missNc cfg s.wbuf i.choice (cacheEn s)
        wdata := Wbuffer.missWdata s.wbuf i.choice
        paddr := Wbuffer.missPaddr s.wbuf i.choice
        vldBits := fun _ => false
        size := (Wbuffer.missSize s.wbuf i.choice).setWidth 3
        id := Wbuffer.txId s.wbuf i.choice }

def txLine (id : TxId) : Option (Tag × Idx) :=
  let t := s.wbuf.txStat id
  if t.vld then some (s.wbuf.buffer t.ptr).wtag.line else none

def missIn : Missunit.Input where
  enable := i.enable
  flush := i.flush
  wbufferEmpty := Wbuffer.emptyO s.wbuf
  amo := i.amo
  miss := missOf cfg s i
  txLine := txLine s
  memRtrnVld := i.memRtrnVld
  memRtrn := i.memRtrn
  memDataAck := i.memDataAck
  rndWay := i.rndWay
  scBackoffOver := i.scBackoffOver

def wrCl : Mem.LineWrite := Missunit.wrCl s.miss (missIn cfg s i)

def rdReqs : Port → Bool
  | .rd p => Ctrl.rdReq (s.ctrl p) (i.loads p)
  | .wr => Wbuffer.rdReq s.wbuf

def rdAck (p : Port) : Bool := Mem.rdAck (wrCl cfg s i) (rdReqs s i) i.rdSel p

def rdTag : Port → Tag
  | .rd p => Ctrl.addressTagD (s.ctrl p) (i.loads p)
  | .wr => s.wbuf.rdTagQ

def rdHitOh : WayMask := Mem.rdHitOh s.mem (rdTag s i)

def ctrlIn (p : Fin 2) : Ctrl.Input where
  cacheEn := cacheEn s
  req := i.loads p
  missAck := Missunit.missAck s.miss (missIn cfg s i) (.rd p)
  missReplay := Missunit.missReplay s.miss (missIn cfg s i) (.rd p)
  missRtrnVld := Missunit.missRtrnVld s.miss (missIn cfg s i) (.rd p)
  wrClVld := (wrCl cfg s i).vld
  rdAck := rdAck cfg s i (.rd p)
  rdVldBits := Mem.rdVldBits s.mem
  rdHitOh := rdHitOh s i

def readReq : Port → Mem.ReadReq
  | .rd p =>
      ⟨Ctrl.rdReq (s.ctrl p) (i.loads p), Ctrl.addressIdxD (s.ctrl p) (ctrlIn cfg s i p),
        Ctrl.addressOffD (s.ctrl p) (ctrlIn cfg s i p), false⟩
  | .wr =>
      ⟨Wbuffer.rdReq s.wbuf, (Wbuffer.rdPaddr s.wbuf i.choice).idx,
        (Wbuffer.rdPaddr s.wbuf i.choice).bank, true⟩

def wordWrite : Mem.WordWrite :=
  let e := s.wbuf.buffer (Wbuffer.rtrnPtr s.wbuf)
  ⟨Wbuffer.wrReq s.wbuf, e.wtag.idx, e.wtag.bank, e.data, Wbuffer.wrDataBe s.wbuf⟩

def wrAck : Bool := Mem.wrAck (wrCl cfg s i) (readReq cfg s i) i.rdSel (wordWrite s)

def wbufIn : Wbuffer.Input where
  store := i.store
  missAck := Missunit.missAck s.miss (missIn cfg s i) .wr
  missRtrnVld := Missunit.missRtrnVld s.miss (missIn cfg s i) .wr
  missRtrnId := i.memRtrn.tid
  rdAck := rdAck cfg s i .wr
  rdHitOh := rdHitOh s i
  wrClVld := (wrCl cfg s i).vld
  wrClIdx := (wrCl cfg s i).idx
  wrAck := wrAck cfg s i

def hwNext : Hw where
  ctrl := fun p => Ctrl.next (s.ctrl p) (ctrlIn cfg s i p)
  miss := Missunit.next s.miss (missIn cfg s i)
  wbuf := Wbuffer.next cfg s.wbuf i.choice (wbufIn cfg s i)
  mem := Mem.next s.mem (wrCl cfg s i) (readReq cfg s i) i.rdSel (wordWrite s)

/-! ## Outputs -/

def rvalid (p : Fin 2) : Bool := Ctrl.dataRvalid (s.ctrl p) (ctrlIn cfg s i p)

def rdata : Word := Mem.rdData s.mem (wrCl cfg s i) (rdTag s i) s.wbuf.buffer

def storeGnt : Bool := Wbuffer.dataGnt cfg s.wbuf (wbufIn cfg s i)

def accepted : Option MemReq :=
  if Missunit.memDataReq s.miss (missIn cfg s i) && i.memDataAck then
    some (Missunit.memData s.miss (missIn cfg s i))
  else none

end Wires

/-! ## The memory side -/

structure PendingWrite where
  addr : WordAddr
  be : Mask
  data : Word
  applied : Bool

structure PendingLoad where
  paddr : Paddr
  size : BitVec 3
  nc : Bool
  sample : Option Line

structure PendingAmo where
  addr : WordAddr
  be : Mask
  invalidated : Bool

structure Side where
  mem : Memory
  writes : TxId → Option PendingWrite
  load : Option PendingLoad
  amo : Option PendingAmo

def lineAt (m : Memory) (a : WordAddr) : Line := fun b => m { a with bank := b }

section SideStep

variable (d : Side) (i : Input) (req : Option MemReq)

def rtrns (i : Input) (t : RtrnType) : Bool := i.memRtrnVld && i.memRtrn.rtype == t

/-- The pending write `id` is applied now, to this byte. -/
def appliesTo (a : WordAddr) (k : Lane) (id : TxId) : Bool :=
  i.apply id && match d.writes id with
    | some w => !w.applied && w.addr == a && w.be k
    | none => false

def appliedByte (a : WordAddr) (k : Lane) : Byte :=
  if any (appliesTo d i a k) then
    ((d.writes (lzc (appliesTo d i a k))).map fun w => w.data k).getD 0
  else d.mem a k

/-- The byte the pending atomic writes now. -/
def amoByte (a : WordAddr) (k : Lane) : Option Byte :=
  match i.amoApply, d.amo with
  | some w, some am => if am.addr = a ∧ am.be k = true then some (w k) else none
  | _, _ => none

def memNext : Memory := fun a k => (amoByte d i a k).getD (appliedByte d i a k)

def invalidatesNow (am : PendingAmo) : Bool :=
  rtrns i .INV_REQ && i.memRtrn.inv.all && i.memRtrn.inv.idx == am.addr.idx

def writesNext (id : TxId) : Option PendingWrite :=
  match req with
  | some r =>
      if r.rtype = .STORE ∧ r.tid = id then
        some ⟨r.paddr.word, toByteEnable8 r.paddr.lane (r.size.setWidth 2), r.data, false⟩
      else kept
  | none => kept
where
  kept : Option PendingWrite :=
    if rtrns i .STORE_ACK && i.memRtrn.tid == id then none
    else (d.writes id).map fun w => { w with applied := w.applied || i.apply id }

def loadNext : Option PendingLoad :=
  match req with
  | some r => if r.rtype = .LOAD then some ⟨r.paddr, r.size, r.nc, none⟩ else kept
  | none => kept
where
  kept : Option PendingLoad :=
    if rtrns i .LOAD_ACK then none
    else d.load.map fun l =>
      if i.sample then { l with sample := some (lineAt d.mem l.paddr.word) } else l

def amoNext : Option PendingAmo :=
  match req with
  | some r =>
      if r.rtype = .ATOMIC then
        some ⟨r.paddr.word, toByteEnable8 r.paddr.lane (r.size.setWidth 2), false⟩
      else kept
  | none => kept
where
  kept : Option PendingAmo :=
    if rtrns i .ATOMIC_ACK then none
    else d.amo.map fun am => { am with invalidated := am.invalidated || invalidatesNow i am }

def Side.next : Side := ⟨memNext d i, writesNext d i req, loadNext d i req, amoNext d i req⟩

end SideStep

/-! ## The system -/

structure State where
  hw : Hw
  side : Side
  /-- The memory as the core sees it. -/
  arch : Memory
  /-- The bytes stored since the miss unit took the pending atomic. -/
  since : WordAddr → Lane → Bool
  /-- The memory as the core saw it in the tag cycle of each port's load. -/
  tagArch : Fin 2 → Memory

section System

variable (cfg : Cfg) (s : State) (i : Input)

def stores (a : WordAddr) (k : Lane) : Bool :=
  storeGnt cfg s.hw i && i.store.wtag == a && i.store.be k

def amoTaken : Bool :=
  s.hw.miss.state == .IDLE && Missunit.stateD s.hw.miss (missIn cfg s.hw i) == .AMO

/-- A granted store is seen at once. An atomic is seen when the memory performs it,
but a store granted after it was taken counts as later. -/
def archNext : Memory := fun a k =>
  if stores cfg s i a k then i.store.wdata k
  else if s.since a k then s.arch a k
  else (amoByte s.side i a k).getD (s.arch a k)

def sinceNext (a : WordAddr) (k : Lane) : Bool :=
  (!amoTaken cfg s i && s.since a k) || stores cfg s i a k

def tagArchNext (p : Fin 2) : Memory :=
  if Ctrl.saveTag (s.hw.ctrl p) (i.loads p) then s.arch else s.tagArch p

def State.next : State where
  hw := hwNext cfg s.hw i
  side := s.side.next i (accepted cfg s.hw i)
  arch := archNext cfg s i
  since := sinceNext cfg s i
  tagArch := tagArchNext s i

end System

/-- What the SRAMs and the memory hold at reset. -/
structure Start where
  tags : Idx → Way → TagLine
  data : Bank → Idx → Way → Word
  mem : Memory

def start (z : Start) : State where
  hw := ⟨fun _ => Ctrl.reset, Missunit.reset, Wbuffer.reset, Mem.reset z.tags z.data⟩
  side := ⟨z.mem, fun _ => none, none, none⟩
  arch := z.mem
  since := fun _ _ => false
  tagArch := fun _ => z.mem

def dcache (cfg : Cfg) (z : Start) : Machine State Input := ⟨start z, State.next cfg⟩

/-- Nothing is cached, and reads and writes of every page have effects. -/
def devicePages : Cfg := ⟨fun _ => false, fun _ => true⟩

def cleared : Start := ⟨fun _ _ => default, fun _ _ _ _ => 0, fun _ _ => 0⟩

def Input.silent : Input where
  loads := fun _ => default
  store := default
  enable := true
  flush := false
  amo := default
  memRtrnVld := false
  memRtrn := ⟨.LOAD_ACK, fun _ _ => 0, ⟨false, false, 0, 0⟩, 0⟩
  memDataAck := false
  rndWay := 0
  scBackoffOver := true
  rdSel := .wr
  choice := default
  apply := fun _ => false
  sample := false
  amoApply := none

/-! ## The environment -/

section Contract

variable (s : State) (i : Input)

/-- The answer to the pending load is what the memory held at some time. -/
def LoadAnswered : Prop :=
  rtrns i .LOAD_ACK = true → ∀ l ∈ s.side.load,
    let d := l.sample.getD (lineAt s.side.mem l.paddr.word)
    if l.nc then
      ∀ k, toByteEnable8 l.paddr.lane (l.size.setWidth 2) k = true →
        i.memRtrn.data 0 k = d l.paddr.word.bank k
    else i.memRtrn.data = d

/-- A write is acknowledged after it has been applied. -/
def WriteAnswered : Prop :=
  rtrns i .STORE_ACK = true →
    ∃ w, s.side.writes i.memRtrn.tid = some w ∧ (w.applied = true ∨ i.apply i.memRtrn.tid = true)

def AmoInvalidates : Prop :=
  i.amoApply.isSome = true → ∀ am ∈ s.side.amo,
    am.invalidated = true ∨ invalidatesNow i am = true

def ArbitersChoose : Prop :=
  (anyPort (rdReqs s.hw i) = true → Mem.rdReqMasked (rdReqs s.hw i) i.rdSel = true) ∧
    (any (Wbuffer.tocheck s.hw.wbuf) = true →
      Wbuffer.tocheck s.hw.wbuf i.choice.checkPtr = true) ∧
    (any (Wbuffer.dirty s.hw.wbuf) = true →
      Wbuffer.dirty s.hw.wbuf i.choice.dirtyPtr = true) ∧
    (Wbuffer.freeTxSlots s.hw.wbuf = true → (s.hw.wbuf.txStat i.choice.txId).vld = false)

structure Contract : Prop where
  load : LoadAnswered s i
  write : WriteAnswered s i
  amo : AmoInvalidates s i
  arbiters : ArbitersChoose s i

end Contract

end Cva6.Dcache
