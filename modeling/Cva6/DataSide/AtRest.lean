import Cva6.DataSide.Linked
import Cva6.Dcache.ResetFlush
/-!
# The data side at rest

While the core is offered no instruction and the memory is silent, the data side only counts
cycles, and the data cache invalidates its tags. The state after each cycle of the flush after
reset is known.
-/

namespace Cva6.DataSide

open Cva6.Sync Cva6.Issue Cva6.Lsu

/-- A cycle of the core in which the memory is silent. -/
def Input.of (c : Core.Input) : Input := ⟨c, .silent⟩

/-! ## The registers -/

def restCsr (first : Bool) (k : XLen) : Csr.Regs :=
  { Csr.Regs.reset with
    mstatus :=
      if first then Csr.Regs.reset.mstatus
      else { Riscv.Status.ofBits 0 with sxl := Riscv.xlen64, uxl := Riscv.xlen64 }
    mtvecRstLoad := first
    mtvec := if first then 0 else 0x40
    cycle := k }

/-- The core in its cycle `k`, the `first` one after reset or a later one. -/
def restCore (first : Bool) (k : XLen) : Core.State where
  sb := { Scoreboard.reset with commitPointer1 := if first then 0 else 1 }
  iro := ReadOperands.reset
  be := ⟨restCsr first k, Controller.reset, Cfi.cfiMod.init⟩
  st :=
    ⟨{ StoreUnit.Regs.reset with
        stBe := if first then 0 else 0xff
        stDataSize := if first then 0 else 3 }, StoreBuffer.reset, none⟩

def restLsu (first : Bool) : Lsu.State where
  lsuValid := false
  fuData := fuData ReadOperands.reset
  bypass := Bypass.reset
  load := LoadUnit.reset
  store := (restCore first 0).st
  mmuPaddr := 0
  loadPipe := default

def atRest (first : Bool) (k : XLen) (d : Dcache.State) : State where
  core := restCore first k
  bypass := Bypass.reset
  load := LoadUnit.reset
  mmuPaddr := 0
  loadPipe := default
  dc := d

def restIn : Core.Input :=
  { Core.Input.quiet with
    lsuReady := true
    lsuCtrl := { (default : LsuCtrl) with be := 0xff }
    wb := [⟨0, 0, default, false⟩, ⟨0, 0, default, false⟩]
    dcacheWbufferEmpty := true }

variable {cfg : Dcache.Cfg} {z : Dcache.Start} {first : Bool} {k : XLen} {d : Dcache.State}

/-! ## What the units are given -/

theorem dcIn_rest : Dcache.Quiet (dcIn cfg (atRest first k d) (.of .quiet)) where
  loads p := by
    show (if p = 0 then ptwReq else _).dataReq = false
    split
    · rfl
    · cases first <;> rfl
  store := rfl
  enable := rfl
  amo := rfl
  rtrn := rfl
  ack := rfl
  rdSel := rfl
  txId := rfl
  checkPtr := rfl

variable (first) in
theorem lsuCtrl_rest : lsuCtrl (restLsu first) = { (default : LsuCtrl) with be := 0xff } := by
  cases first <;> decide

section Flushing

variable {c x : Dcache.Idx} {v : Bool} {l : Option Dcache.TxId} {mem : Dcache.Mem.Regs}
  (hw : d.hw = Dcache.flushingHw c v x l mem)
include hw

theorem amoResp_rest : amoResp cfg (atRest first k d) (.of .quiet) = ⟨false, 0⟩ := by
  have hack : Dcache.Missunit.amoRespAck d.hw.miss (Dcache.missIn cfg d.hw .silent) = false := by
    rw [Dcache.Missunit.amoRespAck, hw]
    rfl
  have hzero : (0#8 ++ 0#8 ++ 0#8 ++ 0#8 ++ 0#8 ++ 0#8 ++ 0#8 ++ 0#8) = 0#64 := by decide
  have hresult : Dcache.Missunit.amoResult (Dcache.missIn cfg d.hw
      { Dcache.Input.silent with amo := heldAmo (atRest first k d) (.of .quiet) }) = 0 := hzero
  show AmoResp.mk (Dcache.Missunit.amoRespAck d.hw.miss _) (Dcache.Missunit.amoResult _) = _
  exact congrArg₂ AmoResp.mk hack hresult

theorem coreIn_rest : coreIn cfg (atRest first k d) (.of .quiet) = restIn := by
  have hempty : Dcache.Wbuffer.emptyO d.hw.wbuf = true := by
    rw [Dcache.Wbuffer.emptyO, Dcache.any_eq_false.mpr (Dcache.valid_flushing hw)]
    rfl
  have hgnt : Dcache.storeGnt cfg (atRest first k d).dc.hw
      (dcIn cfg (atRest first k d) (.of .quiet)) = false := Dcache.dataGnt_quiet dcIn_rest
  have hctrl : lsuCtrl (lsu (atRest first k d)) = _ := lsuCtrl_rest first
  rw [coreIn, commitIn, amoResp_rest hw, hctrl, hgnt]
  show ({ restIn with
      wb := lsuWb cfg (atRest first k d) (.of .quiet) ++ []
      dcacheWbufferEmpty := Dcache.Wbuffer.emptyO d.hw.wbuf } : Core.Input) = _
  rw [hempty]
  cases first <;> rfl

end Flushing

/-! ## The next cycle -/

theorem csrNext_rest {i : Backend.Input} (hi : i = Core.backendIn (restCore first k) restIn) :
    Csr.csrNext (restCsr first k) i.platform (Backend.csrAccess (restCore first k).be i)
      (Backend.retire (restCore first k).be i) = restCsr false (k + 1) := by
  subst hi
  generalize hq : Csr.csrNext _ _ _ _ = q
  have hmip : q.mip = 0 := by
    have h : q.mip = Csr.setBit (Csr.setBit (Csr.setBit 0 Riscv.irqMExt false)
        Riscv.irqMSoft false) Riscv.irqMTimer false := by
      rw [← hq]
      cases first <;> rfl
    rw [h]
    decide
  have hcfg : q.pmpcfg = fun _ => Riscv.Pmpcfg.ofBits 0 := by
    rw [← hq]
    funext n
    cases first <;> exact ite_self _
  have haddr : q.pmpaddr = fun _ => 0 := by
    rw [← hq]
    funext n
    cases first <;> exact ite_self _
  have h : q = { restCsr false (k + 1) with
      mip := q.mip, pmpcfg := q.pmpcfg, pmpaddr := q.pmpaddr } := by
    rw [← hq]
    cases first <;> rfl
  rw [h, hmip, hcfg, haddr]
  rfl

theorem sb_next_rest : Scoreboard.next (restCore first k).sb (Core.sbIn (restCore first k) restIn) =
    (restCore false (k + 1)).sb := by
  have hen : Scoreboard.issueEn (restCore first k).sb (Core.sbIn (restCore first k) restIn) =
    false := rfl
  have hack : (Core.sbIn (restCore first k) restIn).commitAck = ⟨false, false⟩ := by
    cases first <;> rfl
  have hflush : (Core.sbIn (restCore first k) restIn).flush = false := by
    cases first <;> rfl
  have hmem : Scoreboard.issueFifo (restCore first k).sb (Core.sbIn (restCore first k) restIn) =
      (restCore first k).sb.mem := by
    funext n
    rw [Scoreboard.issueFifo, hen, hack, hflush]
    rfl
  have hcnt : (0 : BitVec 3) - Scoreboard.numCommit ⟨false, false⟩ + 0 = 0 := by decide
  have hptr : (0 : BitVec 3) + Scoreboard.numCommit ⟨false, false⟩ = 0 := by decide
  rw [Scoreboard.next, hmem, hen, hack, hflush]
  show Scoreboard.Regs.mk _ (0 - Scoreboard.numCommit ⟨false, false⟩ + 0) (0 + 0)
    (0 + Scoreboard.numCommit ⟨false, false⟩)
    (0 + Scoreboard.numCommit ⟨false, false⟩ + 1) = _
  rw [hcnt, hptr]
  cases first <;> rfl

theorem iro_next_rest : ReadOperands.next ReadOperands.reset
    (Core.iroIn (restCore first k) restIn) = ReadOperands.reset := by
  have hinstr : (Core.iroIn (restCore first k) restIn).issueInstr =
      { (default : ScoreboardEntry) with valid := true, ex := ⟨2, 0, true⟩ } := by
    show Scoreboard.issueInstr { Scoreboard.reset with commitPointer1 := if first then 0 else 1 }
      (Core.decodedInstr restIn) = _
    cases first <;> decide +kernel
  have hclobber : (Core.iroIn (restCore first k) restIn).rdClobberGpr 0#6 = .NONE := rfl
  have hvalid : (Core.iroIn (restCore first k) restIn).issueInstrValid = false := rfl
  have hfile : ReadOperands.regfileNext (fun _ => 0)
      (Core.iroIn (restCore first k) restIn).commit = fun _ => 0 := by
    funext n
    cases first <;> exact ite_self _
  generalize Core.iroIn (restCore first k) restIn = j at *
  have ha : ReadOperands.operandA ReadOperands.reset j = 0 := by
    simp [ReadOperands.operandA, ReadOperands.forwardRs1, ReadOperands.clobbered1, hinstr,
      hclobber, ReadOperands.reset, default, Inhabited.default]
  have hb : ReadOperands.operandB ReadOperands.reset j = 0 := by
    simp [ReadOperands.operandB, ReadOperands.forwardRs2, ReadOperands.clobbered2, hinstr,
      hclobber, ReadOperands.reset, default, Inhabited.default]
  rw [ReadOperands.next, hinstr, ha, hb, hvalid]
  exact congrArg (fun file => { ReadOperands.reset with regfile := file }) hfile

theorem core_next_rest :
    Core.core.next (restCore first k) restIn = restCore false (k + 1) := by
  have hbe : Backend.backend.next (restCore first k).be (Core.backendIn (restCore first k) restIn) =
      (restCore false (k + 1)).be :=
    congrArg (fun q => (⟨q, Controller.reset, Cfi.cfiMod.init⟩ : Backend.State)) (csrNext_rest rfl)
  have hst : StoreUnit.storeUnit.next (restCore first k).st
      (Core.storeIn (restCore first k) restIn) = (restCore false (k + 1)).st := by
    cases first <;> rfl
  have hiro : ReadOperands.next (restCore first k).iro (Core.iroIn (restCore first k) restIn) = _ :=
    iro_next_rest
  show Core.State.mk _ _ _ _ = _
  rw [sb_next_rest, hiro, hbe, hst]
  rfl

section Flushing

variable {c x : Dcache.Idx} {v : Bool} {l : Option Dcache.TxId} {mem : Dcache.Mem.Regs}
  (hw : d.hw = Dcache.flushingHw c v x l mem)
include hw

theorem validO_rest : LoadUnit.validO LoadUnit.reset (loadIn cfg.nonIdempotent (restLsu first)
    (lsuIn cfg (atRest first k d) (.of .quiet))) = false := by
  have hvalid : (loadIn cfg.nonIdempotent (restLsu first)
      (lsuIn cfg (atRest first k d) (.of .quiet))).dataRvalid = false := by
    show Dcache.rvalid cfg d.hw _ 1 = false
    rw [Dcache.rvalid, hw]
    rfl
  rw [LoadUnit.validO_of_no_ex rfl, hvalid]
  rfl

theorem loadOutput_rest : LoadUnit.output LoadUnit.reset (loadIn cfg.nonIdempotent (restLsu first)
    (lsuIn cfg (atRest first k d) (.of .quiet))) = default := by
  have hdata : (lsuIn cfg (atRest first k d) (.of .quiet)).loadRdata = 0 := by
    show ofWord (Dcache.rdata cfg d.hw (dcIn cfg (atRest first k d) (.of .quiet))) = 0
    rw [Dcache.rdata_flushing hw]
    show ofWord (fun _ => 0) = 0
    decide
  have hresult : LoadUnit.result LoadUnit.reset (loadIn cfg.nonIdempotent (restLsu first)
      (lsuIn cfg (atRest first k d) (.of .quiet))) = 0 := by
    show LoadUnit.resultOf _ _ _ _ (lsuIn cfg (atRest first k d) (.of .quiet)).loadRdata = 0
    rw [hdata]
    decide
  rw [LoadUnit.output, validO_rest hw, hresult]
  cases first <;> rfl

theorem next_rest : (dataSide cfg z).next (atRest first k d) (.of .quiet) =
    atRest false (k + 1) (d.next cfg (dcIn cfg (atRest first k d) (.of .quiet))) := by
  have hbypass : Bypass.next Bypass.reset (bypassIn cfg.nonIdempotent (restLsu first)
      (lsuIn cfg (atRest first k d) (.of .quiet))) = Bypass.reset := by
    cases first <;> rfl
  have hload : LoadUnit.next LoadUnit.reset (loadIn cfg.nonIdempotent (restLsu first)
      (lsuIn cfg (atRest first k d) (.of .quiet))) = LoadUnit.reset := by
    cases first <;> rfl
  show State.mk (Core.core.next (restCore first k) (coreIn cfg (atRest first k d) (.of .quiet)))
    (Bypass.next Bypass.reset (bypassIn cfg.nonIdempotent (restLsu first) _))
    (LoadUnit.next LoadUnit.reset (loadIn cfg.nonIdempotent (restLsu first) _))
    (mmuVaddr (restLsu first))
    (LoadUnit.output LoadUnit.reset (loadIn cfg.nonIdempotent (restLsu first) _)) _ = _
  rw [coreIn_rest hw, core_next_rest, hbypass, hload, loadOutput_rest hw]
  rfl

end Flushing

/-! ## The record -/

def restTracked (first : Bool) (k : XLen) (d : Dcache.State) : Tracked where
  hw := atRest first k d
  path := ⟨⟨restLsu first, ⟨[], [], none, [], [], [], []⟩⟩, Dcache.Ctrl.reset, none, [], []⟩
  piped := none
  req := fun _ => default
  reads := []
  retired := []

section Flushing

variable {c x : Dcache.Idx} {v : Bool} {l : Option Dcache.TxId} {mem : Dcache.Mem.Regs}
  (hw : d.hw = Dcache.flushingHw c v x l mem)
include hw

theorem agrees_rest : Agrees (restTracked first k d) := by
  refine ⟨rfl, ?_⟩
  show Dcache.Ctrl.reset = d.hw.ctrl 1
  rw [hw]
  rfl

theorem pathLsuIn_rest : Lsu.lsuIn cfg.nonIdempotent (restTracked first k d).path
    (pathIn cfg (atRest first k d) (.of .quiet)) = lsuIn cfg (atRest first k d) (.of .quiet) :=
  (agrees_rest hw).lsuIn_eq

theorem ldValidO_rest : ldValidO cfg.nonIdempotent (restTracked first k d).path
    (pathIn cfg (atRest first k d) (.of .quiet)) = false := by
  rw [ldValidO, pathLsuIn_rest hw]
  exact validO_rest hw

theorem path_next_rest : (loadPath cfg.nonIdempotent).next (restTracked first k d).path
    (pathIn cfg (atRest first k d) (.of .quiet)) = (restTracked false (k + 1) d).path := by
  have hlsu : (loadStoreUnit cfg.nonIdempotent).next (restLsu first)
      (lsuIn cfg (atRest first k d) (.of .quiet)) = restLsu false :=
    (lsu_next (z := Dcache.cleared)).symm.trans (congrArg lsu (next_rest hw))
  have hrecord : recordNext cfg.nonIdempotent (restTracked first k d).path.lsu
      (lsuIn cfg (atRest first k d) (.of .quiet)) = ⟨[], [], none, [], [], [], []⟩ := by
    cases first <;> rfl
  have hctrl : Dcache.Ctrl.next Dcache.Ctrl.reset (Lsu.ctrlIn cfg.nonIdempotent
      (restTracked first k d).path (pathIn cfg (atRest first k d) (.of .quiet))) =
        Dcache.Ctrl.reset := by
    have hin : Lsu.ctrlIn cfg.nonIdempotent (restTracked first k d).path
        (pathIn cfg (atRest first k d) (.of .quiet)) = _ := (agrees_rest hw).ctrlIn_eq
    have hreset : d.hw.ctrl 1 = Dcache.Ctrl.reset := by
      rw [hw]
      rfl
    rw [hin, ← hreset]
    exact (Dcache.ctrl_next_flushing hw dcIn_rest 1).trans hreset.symm
  have hpop : popLd cfg.nonIdempotent (restTracked first k d).path
      (pathIn cfg (atRest first k d) (.of .quiet)) = false := by
    cases first <;> rfl
  show PathState.mk ⟨(loadStoreUnit cfg.nonIdempotent).next (restLsu first) (Lsu.lsuIn _ _ _),
    _⟩ (Dcache.Ctrl.next Dcache.Ctrl.reset _) _ _ _ = _
  rw [pathLsuIn_rest hw, hlsu, hrecord, hctrl, hpop, answeredNow, ldValidO_rest hw]
  cases first <;> rfl

theorem tracked_next_rest : (tracked cfg z).next (restTracked first k d) (.of .quiet) =
    restTracked false (k + 1) (d.next cfg (dcIn cfg (atRest first k d) (.of .quiet))) := by
  have hreads : deviceReads cfg (atRest first k d) (.of .quiet) = [] := by
    have hnone : Dcache.accepted cfg (atRest first k d).dc.hw
      (dcIn cfg (atRest first k d) (.of .quiet)) = none := Dcache.accepted_quiet dcIn_rest
    rw [deviceReads, hnone]
    rfl
  have hretired : deviceRetired cfg (restTracked first k d) (.of .quiet) = [] := by
    cases first <;> rfl
  show Tracked.mk ((dataSide cfg z).next (atRest first k d) _)
    ((loadPath cfg.nonIdempotent).next (restTracked first k d).path
      (pathIn cfg (atRest first k d) (.of .quiet)))
    (if _ then none else if ldValidO cfg.nonIdempotent (restTracked first k d).path
      (pathIn cfg (atRest first k d) (.of .quiet)) then _ else none) _
    ([] ++ deviceReads cfg (atRest first k d) (.of .quiet)) _ = _
  rw [next_rest hw, path_next_rest hw, hreads, hretired, ldValidO_rest hw]
  cases first <;> rfl

end Flushing

/-! ## The flush after reset -/

/-- The cycles of the flush, when the core is offered no instruction. -/
def flushRun : List Input := List.replicate 256 (.of .quiet)

variable {n : Nat}

theorem run_rest (hn : n < 256) : (tracked cfg z).run (List.replicate (n + 1) (.of .quiet)) =
    restTracked false (BitVec.ofNat 32 (n + 1)) (Dcache.flushing z n) := by
  induction n with
  | zero =>
      have hw : (Dcache.start z).hw = Dcache.flushingHw 0 false 0 none
        (Dcache.Mem.reset z.tags z.data) := rfl
      show (tracked cfg z).next (restTracked true 0 (Dcache.start z)) (.of .quiet) = _
      rw [tracked_next_rest hw, Dcache.start_next dcIn_rest]
      rfl
  | succ n ih =>
      have hcycle : BitVec.ofNat 32 (n + 1) + 1 = BitVec.ofNat 32 (n + 1 + 1) :=
        (BitVec.ofNat_add (n + 1) 1).symm
      rw [List.replicate_succ', Machine.run_snoc, ih (by omega),
        tracked_next_rest (Dcache.hw_flushing (by omega)),
        Dcache.flushing_next dcIn_rest (by omega), hcycle]

variable (cfg z) in
theorem flushing_rest (hn : n < 256) : ∃ first k d c v x l mem,
    (tracked cfg z).run (List.replicate n (.of .quiet)) = restTracked first k d ∧
      d.hw = Dcache.flushingHw c v x l mem := by
  cases n with
  | zero => exact ⟨true, 0, Dcache.start z, 0, false, 0, none, _, rfl, rfl⟩
  | succ n =>
      exact ⟨_, _, _, _, _, _, _, _, run_rest (by omega), Dcache.hw_flushing (by omega)⟩

variable (cfg z) in
theorem rest_of_flushRun {pre post : List Input} {i : Input} (hp : flushRun = pre ++ i :: post) :
    i = .of .quiet ∧ ∃ first k d c v x l mem, (tracked cfg z).run pre = restTracked first k d ∧
      d.hw = Dcache.flushingHw c v x l mem := by
  have hquiet {j : Input} (hj : j ∈ pre ++ i :: post) : j = .of .quiet :=
    List.eq_of_mem_replicate (n := 256) (by rwa [← flushRun, hp])
  have hlen : pre.length < 256 := by
    have h := congrArg List.length hp
    rw [flushRun, List.length_replicate, List.length_append, List.length_cons] at h
    omega
  have hpre : pre = List.replicate pre.length (.of .quiet) :=
    List.eq_replicate_of_mem fun j hj => hquiet (List.mem_append_left _ hj)
  rw [hpre]
  exact ⟨hquiet (by simp), flushing_rest cfg z hlen⟩

variable (cfg z) in
theorem environment_flushRun : (tracked cfg z).Throughout
    (fun t i => UnitsKeep t i ∧ Dcache.Served t.hw.dc (dcIn cfg t.hw i)) flushRun := by
  intro pre i post hp
  obtain ⟨rfl, first, k, d, c, v, x, l, mem, hrun, hw⟩ := rest_of_flushRun cfg z hp
  rw [hrun]
  refine ⟨fun p hp => absurd hp List.not_mem_nil, fun h => ?_,
    Dcache.arbitersChoose_flushing hw dcIn_rest⟩
  have hnone : Dcache.rtrns (dcIn cfg (atRest first k d) (.of .quiet)) .STORE_ACK = false := by
    rw [Dcache.rtrns, dcIn_rest.rtrn, Bool.false_and]
  cases hnone.symm.trans h

end Cva6.DataSide
