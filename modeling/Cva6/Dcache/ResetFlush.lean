import Cva6.Dcache.Requests
/-!
# The flush after reset

The miss unit leaves reset in `FLUSH` and invalidates one index of the tag SRAMs a cycle, whatever
they hold. If the core and the memory ask for nothing, all other registers stay as they are, and
the state after each cycle is known: 256 cycles later the cache is idle, enabled and empty.
-/

namespace Cva6.Dcache

open Cva6.Sync

/-- A cycle in which neither the core nor the memory asks for anything. -/
structure Quiet (i : Input) : Prop where
  loads : ∀ p, (i.loads p).dataReq = false
  store : i.store.dataReq = false
  enable : i.enable = true
  amo : i.amo.req = false
  rtrn : i.memRtrnVld = false
  ack : i.memDataAck = false
  rdSel : i.rdSel = .wr
  /-- What the idle arbiters show. -/
  txId : i.choice.txId = 0
  checkPtr : i.choice.checkPtr = 0

theorem quiet_silent : Quiet Input.silent :=
  ⟨fun _ => rfl, rfl, rfl, rfl, rfl, rfl, rfl, rfl, rfl⟩

/-- The registers while the index `c` is written. -/
def flushingHw (c : Idx) (wrClVld : Bool) (wrClIdx : Idx) (txLock : Option TxId)
    (mem : Mem.Regs) : Hw where
  ctrl := fun _ => Ctrl.reset
  miss := { Missunit.reset with cnt := c }
  wbuf := { Wbuffer.reset with wrClVldQ := wrClVld, wrClIdxQ := wrClIdx, txLock := txLock }
  mem := mem

def flushedMem (m : Mem.Regs) (c : Idx) : Mem.Regs where
  tags := fun idx way => if idx = c then ⟨false, 0⟩ else m.tags idx way
  data := m.data
  tagRdata := m.tags c
  bankRdata := fun b => m.data b c
  bankIdxQ := c
  bankOffQ := 0
  vldSelQ := .wr
  cmpEnQ := false

section Step

variable {cfg : Cfg} {s : Hw} {c : Idx} {v : Bool} {x : Idx} {l : Option TxId} {mem : Mem.Regs}
  {i : Input}

/-! ## Nothing is asked for -/

section Requests

variable (hs : s = flushingHw c v x l mem)
include hs

theorem valid_flushing (n : Ptr) : Wbuffer.valid s.wbuf n = false := by
  subst hs
  simp [flushingHw, Wbuffer.valid, Wbuffer.reset, Wbuffer.Entry.reset, any]

theorem dirty_flushing (n : Ptr) : Wbuffer.dirty s.wbuf n = false := by
  subst hs
  simp [flushingHw, Wbuffer.dirty, Wbuffer.bdirty, Wbuffer.reset, Wbuffer.Entry.reset, any]

theorem missReq_flushing : Wbuffer.missReq s.wbuf = false := by
  rw [Wbuffer.missReq, any_eq_false.mpr (dirty_flushing hs), Bool.false_and]

theorem rdReq_flushing : Wbuffer.rdReq s.wbuf = false := by
  refine any_eq_false.mpr fun n => ?_
  rw [Wbuffer.tocheck, valid_flushing hs, Bool.and_false]

theorem req_flushing (p : Port) : (missOf cfg s i p).req = false := by
  cases p with
  | rd p =>
      subst hs
      rfl
  | wr => exact missReq_flushing hs

theorem rdReqs_flushing (hq : Quiet i) (p : Port) : rdReqs s i p = false := by
  cases p with
  | rd p =>
      subst hs
      exact hq.loads p
  | wr => exact rdReq_flushing hs

theorem wrCl_flushing : wrCl cfg s i =
    ⟨true, false, fun _ => true, 0, c, 0, i.memRtrn.data, false, fun _ => false⟩ := by
  subst hs
  have hload : Missunit.loadAck { Missunit.reset with cnt := c }
    (missIn cfg (flushingHw c v x l mem) i) = false := Bool.and_false _
  show Missunit.wrCl { Missunit.reset with cnt := c } (missIn cfg (flushingHw c v x l mem) i) = _
  rw [Missunit.wrCl, Missunit.clWriteEn, hload]
  rfl

theorem memDataReq_flushing (j : Missunit.Input) : Missunit.memDataReq s.miss j = false := by
  subst hs
  rfl

theorem rdata_flushing : rdata cfg s i = i.memRtrn.data 0 := by
  have hmiss (a : WordAddr) : any (Mem.wbufferHitOh s.wbuf.buffer a) = false := by
    refine any_eq_false.mpr fun n => ?_
    have hvalid : any (s.wbuf.buffer n).valid = false := valid_flushing hs n
    rw [Mem.wbufferHitOh, hvalid, Bool.false_and]
  rw [rdata, wrCl_flushing hs, Mem.rdData]
  funext k
  simp only [Mem.overlay, hmiss]
  rfl

end Requests

theorem dataGnt_quiet (hq : Quiet i) : Wbuffer.dataGnt cfg s.wbuf (wbufIn cfg s i) = false := by
  have hreq : (wbufIn cfg s i).store.dataReq = false := hq.store
  rw [Wbuffer.dataGnt, hreq, Bool.false_and, Bool.false_and]

theorem accepted_quiet (hq : Quiet i) : accepted cfg s i = none := by
  rw [accepted, hq.ack, Bool.and_false]
  rfl

/-! ## The registers -/

section Registers

variable (hs : s = flushingHw c v x l mem) (hq : Quiet i)
include hs hq

theorem ctrl_next_flushing (p : Fin 2) : Ctrl.next (s.ctrl p) (ctrlIn cfg s i p) = Ctrl.reset := by
  have hreq : (ctrlIn cfg s i p).req.dataReq = false := hq.loads p
  have hack : (ctrlIn cfg s i p).rdAck = false := by
    show Mem.rdAck (wrCl cfg s i) _ _ _ = false
    rw [Mem.rdAck, wrCl_flushing hs, Bool.not_true, Bool.and_false]
  have hctrl : s.ctrl p = Ctrl.reset := by
    rw [hs]
    rfl
  simp [hctrl, Ctrl.next, Ctrl.reset, Ctrl.stateD, Ctrl.addressTagD, Ctrl.saveTag,
    Ctrl.addressIdxD, Ctrl.addressOffD, Ctrl.dataGnt, Ctrl.rdReq, hreq, hack]

theorem miss_next_flushing : Missunit.next s.miss (missIn cfg s i) =
    { Missunit.reset with
      state := if c = 255 then .IDLE else .FLUSH
      cnt := c + 1
      enableQ := decide (c = 255) } := by
  have hreq (p : Port) : ((missIn cfg s i).miss p).req = false := req_flushing hs p
  have hen : (missIn cfg s i).enable = true := hq.enable
  have hack : (missIn cfg s i).memDataAck = false := hq.ack
  have hamo : (missIn cfg s i).amo.req = false := hq.amo
  have hmiss : s.miss = { Missunit.reset with cnt := c } := by
    rw [hs]
    rfl
  have hmasked : Missunit.missReqMasked s.miss (missIn cfg s i) = fun _ => false := by
    rw [hmiss]
    exact funext hreq
  generalize missIn cfg s i = j at *
  have halloc : Missunit.mshrAllocate s.miss j = false := by
    rw [Missunit.mshrAllocate, hack, Bool.and_false]
  have hsent : Missunit.storeSent s.miss j = false := by
    rw [Missunit.storeSent, hack, Bool.and_false, Bool.false_and]
  have hcoll (p : Port) : Missunit.rdrdCollisionD s.miss j p = false := by
    rw [Missunit.rdrdCollisionD, hreq, Bool.false_and]
  rw [Missunit.next, Missunit.mshrD, Missunit.storesInflightD, halloc, hsent, hmasked, hamo,
    funext hcoll, hmiss]
  simp [Missunit.reset, Missunit.stateD, Missunit.enableD, Missunit.flushAckD, Missunit.flushDone,
    Missunit.flushEn, Missunit.loadAck, Missunit.storeAck, hen]

theorem bufferNext_flushing :
    Wbuffer.bufferNext cfg s.wbuf i.choice (wbufIn cfg s i) = fun _ => Wbuffer.Entry.reset := by
  have hinval (n : Ptr) : Wbuffer.invalHit s.wbuf (wbufIn cfg s i) n = false := by
    simp only [Wbuffer.invalHit, valid_flushing hs, Bool.and_false, Bool.false_and, Bool.or_false]
  have hrd : Wbuffer.dirtyRdEn s.wbuf (wbufIn cfg s i) = false := by
    rw [Wbuffer.dirtyRdEn, missReq_flushing hs, Bool.false_and]
  have hgnt : Wbuffer.dataGnt cfg s.wbuf (wbufIn cfg s i) = false := dataGnt_quiet hq
  funext n
  unfold Wbuffer.bufferNext
  simp only [hinval, hrd, hgnt]
  subst hs
  rfl

theorem wbuf_next_flushing (hcmp : mem.cmpEnQ = false) :
    Wbuffer.next cfg s.wbuf i.choice (wbufIn cfg s i) =
      { Wbuffer.reset with wrClVldQ := true, wrClIdxQ := c, txLock := some (l.getD 0) } := by
  have hrd : Wbuffer.dirtyRdEn s.wbuf (wbufIn cfg s i) = false := by
    rw [Wbuffer.dirtyRdEn, missReq_flushing hs, Bool.false_and]
  have hcl : wrCl cfg s i = _ := wrCl_flushing hs
  have hvld : (wbufIn cfg s i).wrClVld = true := congrArg Mem.LineWrite.vld hcl
  have hidx : (wbufIn cfg s i).wrClIdx = c := congrArg Mem.LineWrite.idx hcl
  have hhit : (wbufIn cfg s i).rdHitOh = fun _ => false := by
    funext way
    have hcmp : s.mem.cmpEnQ = false := by rw [hs]; exact hcmp
    show (_ && s.mem.cmpEnQ) = false
    rw [hcmp, Bool.and_false]
  have hrtrn : (wbufIn cfg s i).missRtrnVld = false := by
    have hvld : (missIn cfg s i).memRtrnVld = false := hq.rtrn
    show Missunit.missRtrnVld s.miss (missIn cfg s i) .wr = false
    simp only [Missunit.missRtrnVld, Missunit.loadAck, Missunit.storeAck, Missunit.rtrn, hvld,
      Bool.false_and, Bool.or_self]
  have hdirty : any (Wbuffer.dirty s.wbuf) = false := any_eq_false.mpr (dirty_flushing hs)
  have hgnt : Wbuffer.dataGnt cfg s.wbuf (wbufIn cfg s i) = false := dataGnt_quiet hq
  have hfree : Wbuffer.freeTxSlots s.wbuf = true := by
    subst hs
    exact any_iff.mpr ⟨0, rfl⟩
  have htx : Wbuffer.txStatNext s.wbuf i.choice (wbufIn cfg s i) = Wbuffer.reset.txStat := by
    funext id
    unfold Wbuffer.txStatNext
    simp only [hrd]
    subst hs
    rfl
  have hni : Wbuffer.niPendingNext cfg s.wbuf (wbufIn cfg s i) = Wbuffer.reset.niPending := by
    funext n
    unfold Wbuffer.niPendingNext
    simp only [hgnt]
    subst hs
    rfl
  have hfifo : Wbuffer.rtrnFifoNext s.wbuf (wbufIn cfg s i) = [] := by
    unfold Wbuffer.rtrnFifoNext
    simp only [hrtrn]
    subst hs
    rfl
  have htag : (Wbuffer.rdPaddr s.wbuf i.choice).tag = Wbuffer.reset.rdTagQ := by
    subst hs
    rw [Wbuffer.rdPaddr, hq.checkPtr]
    rfl
  have hid : Wbuffer.txId s.wbuf i.choice = l.getD 0 := by
    subst hs
    rw [Wbuffer.txId, hq.txId]
    rfl
  rw [Wbuffer.next, bufferNext_flushing hs hq, rdReq_flushing hs, hvld, hidx, hdirty, hrd, hhit,
    htx, hni, hfifo, hfree, htag, hid, hq.checkPtr]
  subst hs
  rfl

theorem mem_next_flushing : Mem.next s.mem (wrCl cfg s i) (readReq cfg s i) i.rdSel (wordWrite s) =
    flushedMem s.mem c := by
  have hany : any (fun _ : Way => true) = true := any_iff.mpr ⟨0, rfl⟩
  rw [wrCl_flushing hs, hq.rdSel]
  generalize readReq cfg s i = rd
  generalize wordWrite s = w
  let cl : Mem.LineWrite :=
    ⟨true, false, fun _ => true, 0, c, 0, i.memRtrn.data, false, fun _ => false⟩
  have hcl : Mem.clWrite cl = true := hany
  have htags : Mem.tagsNext s.mem cl = (flushedMem s.mem c).tags := by
    funext idx way
    simp [Mem.tagsNext, flushedMem, cl]
  have hdata : Mem.dataNext s.mem cl rd .wr w = s.mem.data := by
    funext b idx way
    rw [Mem.dataNext, if_pos hcl]
    simp [cl]
  have hbank : Mem.bankRdataNext s.mem cl rd .wr w = fun b => s.mem.data b c := by
    funext b
    rw [Mem.bankRdataNext, if_pos hcl]
  have hacked : Mem.rdAcked cl (Mem.rdReqs rd) = false := Bool.and_false _
  show Mem.next s.mem cl rd .wr w = _
  rw [Mem.next, htags, hdata, hbank, hacked]
  rfl

theorem hwNext_flushing (hcmp : mem.cmpEnQ = false) : hwNext cfg s i =
    { ctrl := fun _ => Ctrl.reset
      miss :=
        { Missunit.reset with
          state := if c = 255 then .IDLE else .FLUSH
          cnt := c + 1
          enableQ := decide (c = 255) }
      wbuf := { Wbuffer.reset with wrClVldQ := true, wrClIdxQ := c, txLock := some (l.getD 0) }
      mem := flushedMem mem c } := by
  have hmem : s.mem = mem := by
    rw [hs]
    rfl
  rw [hwNext, funext (ctrl_next_flushing hs hq), miss_next_flushing hs hq,
    wbuf_next_flushing hs hq hcmp, mem_next_flushing hs hq, hmem]

end Registers

end Step

/-! ## The whole flush -/

def flushingMem (z : Start) (n : Nat) : Mem.Regs where
  tags := fun idx way => if idx.toNat ≤ n then ⟨false, 0⟩ else z.tags idx way
  data := z.data
  tagRdata := z.tags (BitVec.ofNat 8 n)
  bankRdata := fun b => z.data b (BitVec.ofNat 8 n)
  bankIdxQ := BitVec.ofNat 8 n
  bankOffQ := 0
  vldSelQ := .wr
  cmpEnQ := false

theorem flushedMem_reset (z : Start) :
    flushedMem (Mem.reset z.tags z.data) 0 = flushingMem z 0 := by
  have htags : (flushedMem (Mem.reset z.tags z.data) 0).tags = (flushingMem z 0).tags := by
    funext idx way
    simp [flushedMem, flushingMem, Mem.reset, BitVec.toNat_eq]
  exact congrArg (fun tags => { flushingMem z 0 with tags := tags }) htags

theorem flushedMem_flushing {z : Start} {n : Nat} (hn : n < 255) :
    flushedMem (flushingMem z n) (BitVec.ofNat 8 (n + 1)) = flushingMem z (n + 1) := by
  have hlast : (BitVec.ofNat 8 (n + 1)).toNat = n + 1 := by
    rw [BitVec.toNat_ofNat]
    omega
  have htags : (flushedMem (flushingMem z n) (BitVec.ofNat 8 (n + 1))).tags =
      (flushingMem z (n + 1)).tags := by
    funext idx way
    simp only [flushedMem, flushingMem]
    by_cases hidx : idx = BitVec.ofNat 8 (n + 1)
    · rw [if_pos hidx, hidx, hlast, if_pos (Nat.le_refl _)]
    · have hne : idx.toNat ≠ n + 1 := fun h => hidx (BitVec.eq_of_toNat_eq (h.trans hlast.symm))
      rw [if_neg hidx]
      simp only [show idx.toNat ≤ n + 1 ↔ idx.toNat ≤ n by omega]
  have hread : (flushingMem z n).tags (BitVec.ofNat 8 (n + 1)) =
      z.tags (BitVec.ofNat 8 (n + 1)) := by
    funext way
    simp only [flushingMem]
    rw [hlast, if_neg (by omega)]
  exact congrArg₂ (fun tags read => { flushingMem z (n + 1) with tags := tags, tagRdata := read })
    htags hread

/-- The state after `n + 1` quiet cycles. -/
def flushing (z : Start) (n : Nat) : State where
  hw :=
    { ctrl := fun _ => Ctrl.reset
      miss :=
        { Missunit.reset with
          state := if n = 255 then .IDLE else .FLUSH
          cnt := BitVec.ofNat 8 (n + 1)
          enableQ := decide (n = 255) }
      wbuf :=
        { Wbuffer.reset with
          wrClVldQ := true
          wrClIdxQ := BitVec.ofNat 8 n
          txLock := some 0 }
      mem := flushingMem z n }
  side := ⟨z.mem, fun _ => none, none, none⟩
  arch := z.mem
  since := fun _ _ => false
  tagArch := fun _ => z.mem

section Run

variable {cfg : Cfg} {z : Start} {i : Input} {n : Nat}

theorem next_quiet {s : State} (hq : Quiet i) (hc : s.hw.ctrl = fun _ => Ctrl.reset)
    (hside : s.side = ⟨z.mem, fun _ => none, none, none⟩)
    (harch : s.arch = z.mem) (hsince : s.since = fun _ _ => false)
    (htag : s.tagArch = fun _ => z.mem) : s.next cfg i = ⟨hwNext cfg s.hw i,
      ⟨z.mem, fun _ => none, none, none⟩, z.mem, fun _ _ => false, fun _ => z.mem⟩ := by
  have hstores (a : WordAddr) (k : Lane) : stores cfg s i a k = false := by
    rw [stores, storeGnt, dataGnt_quiet hq, Bool.false_and, Bool.false_and]
  have hamo (a : WordAddr) (k : Lane) : amoByte s.side i a k = none := by
    rw [amoByte, hside]
    cases i.amoApply <;> rfl
  have happlies (a : WordAddr) (k : Lane) : any (appliesTo s.side i a k) = false := by
    refine any_eq_false.mpr fun id => ?_
    rw [appliesTo, hside]
    exact Bool.and_false _
  have hmem : memNext s.side i = z.mem := by
    funext a k
    rw [memNext, hamo, Option.getD_none, appliedByte, happlies, if_neg Bool.false_ne_true, hside]
  have hnext : s.side.next i (accepted cfg s.hw i) = ⟨z.mem, fun _ => none, none, none⟩ := by
    have hwrites : writesNext s.side i none = fun _ => none := by
      funext id
      rw [writesNext, writesNext.kept, hside]
      simp
    have hload : loadNext s.side i none = none := by
      rw [loadNext, loadNext.kept, hside]
      simp
    have hamo : amoNext s.side i none = none := by
      rw [amoNext, amoNext.kept, hside]
      simp
    rw [accepted_quiet hq, Side.next, hmem, hwrites, hload, hamo]
  have harch' : archNext cfg s i = z.mem := by
    funext a k
    rw [archNext, hstores, if_neg Bool.false_ne_true, hsince, if_neg Bool.false_ne_true, hamo,
      Option.getD_none, harch]
  have hsince' : sinceNext cfg s i = fun _ _ => false := by
    funext a k
    rw [sinceNext, hstores, hsince, Bool.and_false, Bool.or_false]
  have htag' : tagArchNext s i = fun _ => z.mem := by
    funext p
    rw [tagArchNext, hc]
    exact congrFun htag p
  rw [State.next, hnext, harch', hsince', htag']

theorem start_next (hq : Quiet i) : (start z).next cfg i = flushing z 0 := by
  have hs : (start z).hw = flushingHw 0 false 0 none (Mem.reset z.tags z.data) := rfl
  rw [next_quiet hq rfl rfl rfl rfl rfl, hwNext_flushing hs hq rfl, flushedMem_reset]
  rfl

theorem hw_flushing (hn : n < 255) : (flushing z n).hw =
    flushingHw (BitVec.ofNat 8 (n + 1)) true (BitVec.ofNat 8 n) (some 0) (flushingMem z n) := by
  have hne : n ≠ 255 := by omega
  simp [flushing, flushingHw, hne, Missunit.reset]

theorem flushing_next (hq : Quiet i) (hn : n < 255) :
    (flushing z n).next cfg i = flushing z (n + 1) := by
  have hlast : BitVec.ofNat 8 (n + 1) = 255 ↔ n + 1 = 255 := by
    rw [BitVec.toNat_eq]
    simp
    omega
  rw [next_quiet hq rfl rfl rfl rfl rfl, hwNext_flushing (hw_flushing hn) hq rfl,
    flushedMem_flushing hn]
  have hcnt : BitVec.ofNat 8 (n + 1) + 1 = BitVec.ofNat 8 (n + 1 + 1) :=
    (BitVec.ofNat_add (n + 1) 1).symm
  simp only [hlast, hcnt]
  rfl

/-- 256 quiet cycles after reset no line is valid, and the cache is idle and enabled. -/
theorem run_quiet {ins : List Input} (hq : ∀ i ∈ ins, Quiet i) (hlen : ins.length = n + 1)
    (hn : n < 256) : (dcache cfg z).run ins = flushing z n := by
  induction n generalizing ins with
  | zero =>
      obtain ⟨i, rfl⟩ := List.length_eq_one_iff.mp hlen
      exact start_next (hq i (by simp))
  | succ n ih =>
      obtain ⟨ins, i, rfl⟩ : ∃ l i, ins = l ++ [i] := by
        rcases List.eq_nil_or_concat ins with rfl | h
        · cases hlen
        · simpa using h
      rw [Machine.run_snoc, ih (fun j hj => hq j (by simp [hj])) (by simpa using hlen) (by omega)]
      exact flushing_next (hq i (by simp)) (by omega)

theorem side_quiet {ins : List Input} (hq : ∀ i ∈ ins, Quiet i) (hlen : ins.length < 256) :
    ((dcache cfg z).run ins).side = ⟨z.mem, fun _ => none, none, none⟩ := by
  rcases Nat.eq_zero_or_pos ins.length with hzero | hpos
  · rw [List.length_eq_zero_iff.mp hzero]
    rfl
  · obtain ⟨n, hn⟩ := Nat.exists_eq_add_one.mpr hpos
    rw [run_quiet hq hn (by omega)]
    rfl

theorem hw_quiet {ins : List Input} (hq : ∀ i ∈ ins, Quiet i) (hlen : ins.length < 256) :
    ∃ c v x l mem, ((dcache cfg z).run ins).hw = flushingHw c v x l mem := by
  rcases Nat.eq_zero_or_pos ins.length with hzero | hpos
  · rw [List.length_eq_zero_iff.mp hzero]
    exact ⟨0, false, 0, none, Mem.reset z.tags z.data, rfl⟩
  · obtain ⟨n, hn⟩ := Nat.exists_eq_add_one.mpr hpos
    rw [run_quiet hq hn (by omega)]
    exact ⟨_, _, _, _, _, hw_flushing (by omega)⟩

theorem arbitersChoose_flushing {s : State} {c : Idx} {v : Bool} {x : Idx} {l : Option TxId}
    {mem : Mem.Regs} (hs : s.hw = flushingHw c v x l mem) (hq : Quiet i) : ArbitersChoose s i := by
  have hread : anyPort (rdReqs s.hw i) = false := by
    simp only [anyPort, rdReqs_flushing hs hq, Bool.or_self]
  have hcheck : any (Wbuffer.tocheck s.hw.wbuf) = false := rdReq_flushing hs
  have hdirty : any (Wbuffer.dirty s.hw.wbuf) = false := any_eq_false.mpr (dirty_flushing hs)
  refine ⟨fun h => ?_, fun h => ?_, fun h => ?_, fun _ => ?_⟩
  · rw [hread] at h
    cases h
  · rw [hcheck] at h
    cases h
  · rw [hdirty] at h
    cases h
  · rw [hs]
    rfl

theorem contract_quiet {ins : List Input} (hq : ∀ i ∈ ins, Quiet i) (hlen : ins.length ≤ 256) :
    (dcache cfg z).Throughout Contract ins := by
  rintro pre i post rfl
  have hi : Quiet i := hq i (by simp)
  have hpre : ∀ j ∈ pre, Quiet j := fun j hj => hq j (by simp [hj])
  have hshort : pre.length < 256 := by
    rw [List.length_append, List.length_cons] at hlen
    omega
  obtain ⟨c, v, x, l, mem, hs⟩ : ∃ c v x l mem,
      ((dcache cfg z).run pre).hw = flushingHw c v x l mem := hw_quiet hpre hshort
  have hrtrn (t : RtrnType) : rtrns i t = false := by rw [rtrns, hi.rtrn, Bool.false_and]
  refine ⟨fun h => ?_, fun h => ?_, fun _ am ham => ?_, arbitersChoose_flushing hs hi⟩
  · rw [hrtrn] at h
    cases h
  · rw [hrtrn] at h
    cases h
  · rw [side_quiet hpre hshort] at ham
    cases ham

def flushRun : List Input := List.replicate 256 .silent

theorem quiet_flushRun (hi : i ∈ flushRun) : Quiet i := by
  rw [List.eq_of_mem_replicate hi]
  exact quiet_silent

theorem run_flushRun : (dcache cfg z).run flushRun = flushing z 255 :=
  run_quiet (fun _ => quiet_flushRun) List.length_replicate (by decide)

theorem contract_flushRun : (dcache cfg z).Throughout Contract flushRun :=
  contract_quiet (fun _ => quiet_flushRun) (le_of_eq List.length_replicate)

end Run

end Cva6.Dcache
