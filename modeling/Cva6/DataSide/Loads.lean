import Cva6.DataSide.AtRest
import Cva6.Dcache.Lines
/-!
# Loads from non-idempotent pages

A load from a non-idempotent page is popped only when it is the oldest instruction and no
store is inside. From then on nothing can flush it: the commit stage does nothing until the
load has been written back, and then it retires it. One read of memory is accepted for it.
-/

namespace Cva6.DataSide

open Cva6.Sync Cva6.Issue Cva6.Lsu

variable {cfg : Dcache.Cfg} {z : Dcache.Start} {t : Tracked} {i : Input}

/-! ## The oldest instruction waits -/

theorem ack1_eq_false (hack : (out cfg t.hw i).commitAck.ack0 = false) :
    (out cfg t.hw i).commitAck.ack1 = false := by
  by_contra hne
  have h0 := (Core.of_ack1 (s := t.hw.core) (i := coreIn cfg t.hw i) (Bool.not_eq_false _ ▸ hne)).1
  have h0 : (out cfg t.hw i).commitAck.ack0 = true := h0
  rw [hack] at h0
  cases h0

structure Quiet (cfg : Dcache.Cfg) (t : Tracked) (i : Input) : Prop where
  flush : (flushes cfg t.hw i).flushEx = false
  ack0 : (out cfg t.hw i).commitAck.ack0 = false
  ack1 : (out cfg t.hw i).commitAck.ack1 = false
  commit : (out cfg t.hw i).commitLsu = false

theorem no_flush (hret : Backend.retiring t.hw.core.be
      (Core.backendIn t.hw.core (coreIn cfg t.hw i)) = false)
    (hex : ((port0 t).valid && (port0 t).ex.valid) = false) :
    (flushes cfg t.hw i).flushEx = false :=
  Backend.flushEx_of_not_retiring _ _ hret hex

theorem quiet_of_not_valid (hv : (port0 t).valid = false) : Quiet cfg t i := by
  have hret : Backend.retiring t.hw.core.be
      (Core.backendIn t.hw.core (coreIn cfg t.hw i)) = false := by
    show ((port0 t).valid && _ && _) = false
    rw [hv]
    rfl
  have hack0 : (out cfg t.hw i).commitAck.ack0 = false := by
    by_contra hne
    have hr := Core.retiring_of_ack0 (s := t.hw.core) (i := coreIn cfg t.hw i)
      (Bool.not_eq_false _ ▸ hne)
    rw [hret] at hr
    cases hr
  refine ⟨no_flush hret (by rw [hv]; rfl), hack0, ack1_eq_false hack0, ?_⟩
  by_contra hne
  have h0 := (of_commitLsu (Bool.not_eq_false _ ▸ hne)).1
  rw [hv] at h0
  cases h0

theorem Linked.quiet (h : Linked t) {e : Item} (he : e ∈ unwritten t)
    (hid : e.2.transId = t.hw.core.sb.commitPointer0) : Quiet cfg t i := by
  refine quiet_of_not_valid ?_
  rw [port0, ← hid]
  exact h.awaiting e he

/-- Without an acknowledgement and without a flush the oldest instruction stays. -/
theorem commitPointer0_kept (hf : (flushes cfg t.hw i).flushEx = false)
    (hack : (out cfg t.hw i).commitAck.ack0 = false) :
    ((tracked cfg z).next t i).hw.core.sb.commitPointer0 = t.hw.core.sb.commitPointer0 := by
  have hack1 : (sbIn cfg t.hw i).commitAck.ack1 = false := ack1_eq_false hack
  have hack0 : (sbIn cfg t.hw i).commitAck.ack0 = false := hack
  have hnum : Scoreboard.acks (sbIn cfg t.hw i).commitAck = 0 := by
    rw [Scoreboard.acks, hack0, hack1]
    rfl
  rw [sb_next, Scoreboard.commitPointer0_next (sb_flush.trans hf), hnum, Ring.slot_zero]

theorem Quiet.pointer (h : Quiet cfg t i) :
    ((tracked cfg z).next t i).hw.core.sb.commitPointer0 = t.hw.core.sb.commitPointer0 :=
  commitPointer0_kept h.flush h.ack0

/-- A load at port 0 retires as soon as it can be flushed. -/
theorem CoreOk.ack0_of_load (h : CoreOk t.hw.core) (hfu : (port0 t).fu = .LOAD)
    (hex : (port0 t).ex.valid = false) (hack : (out cfg t.hw i).commitAck.ack0 = false) :
    (flushes cfg t.hw i).flushEx = false := by
  have hret : Backend.retiring t.hw.core.be
      (Core.backendIn t.hw.core (coreIn cfg t.hw i)) = false := by
    have hack : Core.ack0 t.hw.core (coreIn cfg t.hw i) = false := hack
    have hamo : isAmo (Core.port0 t.hw.core).op = false := h.not_amo (by simp [hfu])
    have hnf : isFence (Core.port0 t.hw.core).op = false := h.not_fence (by simp [hfu])
    have hfu : (Core.port0 t.hw.core).fu = .LOAD := hfu
    rw [Core.ack0_eq (by rw [h.ctrl]; rfl), hamo, hnf, hfu] at hack
    simpa using hack
  exact no_flush hret (by rw [hex, Bool.and_false])

/-! ## The invariant -/

def readOf (c : LsuCtrl) : Dcache.MemReq where
  rtype := .LOAD
  size := (extractTransferSize c.operator).setWidth 3
  paddr := Dcache.paddrSizeAlign (loadAddr c) ((extractTransferSize c.operator).setWidth 3)
  data := fun _ => 0
  nc := true
  tid := Dcache.rdTxId
  amoOp := .NONE

def complete (t : Tracked) : List LsuCtrl :=
  if (port0 t).valid && (port0 t).fu == .LOAD && !(port0 t).ex.valid then
    [t.req t.hw.core.sb.commitPointer0]
  else []

def reading (t : Tracked) : List Item :=
  if t.path.ctrl.state = .MISS_WAIT then t.path.outstanding.toList else []

/-- The loads from device pages whose read was accepted and that have not retired. -/
def sent (cfg : Dcache.Cfg) (t : Tracked) : List LsuCtrl :=
  ((t.piped.toList ++ reading t).map Prod.snd ++ complete t).filter fun c => device cfg (pageOf c)

structure LoadsOk (cfg : Dcache.Cfg) (t : Tracked) : Prop where
  linked : Linked t
  books : Dcache.Books t.hw.dc
  lines : Dcache.LinesOk cfg t.hw.dc.hw
  commit : t.hw.core.st.buffer.commit.Shape
  ptw : (t.hw.dc.hw.ctrl 0).state = .IDLE
  size : SizeOk t.path
  /-- A load from a non-idempotent page that is awaited or written back is the oldest
  instruction. -/
  oldest : ∀ e ∈ t.piped.toList ++ t.path.outstanding.toList,
    cfg.nonIdempotent (pageOf e.2) = true → e.2.transId = t.hw.core.sb.commitPointer0
  done : ∀ n, (t.hw.core.sb.mem n).sbe.valid = true → (t.hw.core.sb.mem n).sbe.fu = .LOAD →
    (t.hw.core.sb.mem n).sbe.ex.valid = false → cfg.nonIdempotent (pageOf (t.req n)) = true →
    n = t.hw.core.sb.commitPointer0
  /-- A read that was killed with its miss under way is not one of such a page. -/
  killed : t.path.outstanding = none → t.path.ctrl.state ≠ .IDLE → t.path.ctrl.state ≠ .READ →
    cfg.nonIdempotent t.path.ctrl.addressTagQ = false
  /-- No store is inside when the tag of such a load is sent. -/
  alone : t.path.lsu.hw.load.state = .SEND_TAG → ∀ e ∈ t.path.outstanding,
    cfg.nonIdempotent (pageOf e.2) = true →
      StoreBuffer.storeBufferEmpty t.hw.core.st.buffer = true ∧ wbufferNotNi t.hw = true
  reads : t.reads = (t.retired ++ sent cfg t).map readOf

/-! ## The answer -/

theorem mem_unwritten_of_awaited {e : Item}
    (he : e ∈ t.piped.toList ++ t.path.outstanding.toList) : e ∈ unwritten t := by
  rcases List.mem_append.mp he with he | he
  · exact mem_unwritten_of_piped he
  · exact mem_unwritten_of_behind (List.mem_append_left _ he)

section Step

variable (h : LoadsOk cfg t)
include h

/-- While such a load is awaited or written back the commit stage does nothing. -/
theorem LoadsOk.quiet {e : Item} (he : e ∈ t.piped.toList ++ t.path.outstanding.toList)
    (hni : cfg.nonIdempotent (pageOf e.2) = true) : Quiet cfg t i :=
  h.linked.quiet (mem_unwritten_of_awaited he) (h.oldest e he hni)

theorem LoadsOk.tag_eq {e : Item} (he : e ∈ t.path.outstanding) :
    Dcache.Ctrl.addressTagD t.path.ctrl (pathReq cfg.nonIdempotent t.path (pathIn cfg t.hw i)) =
      pageOf e.2 := by
  have haddr := h.linked.path.ctrlAddr_eq cfg.nonIdempotent (i := pathIn cfg t.hw i)
    (Option.isSome_of_mem he)
  rw [h.linked.path.address e he] at haddr
  exact congrArg (fun a => a.word.tag) haddr

/-- A load from a device page is answered by the memory only. -/
theorem LoadsOk.answered {e : Item} (he : e ∈ t.path.outstanding)
    (hd : device cfg (pageOf e.2) = true)
    (hv : ldValidO cfg.nonIdempotent t.path (pathIn cfg t.hw i) = true) :
    t.path.ctrl.state = .MISS_WAIT := by
  let c := Lsu.ctrlIn cfg.nonIdempotent t.path (pathIn cfg t.hw i)
  have hkill : c.req.killReq = false :=
    ((h.linked.path.answer cfg.nonIdempotent (pathIn cfg t.hw i)).2 (Option.isSome_of_mem he)).1
  have hrvalid : Dcache.Ctrl.dataRvalid t.path.ctrl c = true := by
    rw [h.linked.path.ldValidO_eq (Option.isSome_of_mem he), Bool.and_eq_true] at hv
    exact hv.1
  have hnohit : Dcache.Ctrl.hit t.path.ctrl c = false := by
    by_contra hne
    have hhit : Dcache.Ctrl.hit (t.hw.dc.hw.ctrl 1)
        (Dcache.ctrlIn cfg t.hw.dc.hw (dcIn cfg t.hw i) 1) = true := by
      rw [← h.linked.agrees.port, ← h.linked.agrees.ctrlIn_eq]
      exact Bool.not_eq_false _ ▸ hne
    have hcache := h.lines.hit_cacheable hhit
    rw [← h.linked.agrees.port, ← h.linked.agrees.pathReq_eq, h.tag_eq he] at hcache
    rw [device, hcache] at hd
    simp at hd
  cases hs : t.path.ctrl.state
  case MISS_WAIT => rfl
  all_goals simp only [Dcache.Ctrl.dataRvalid, hs, hkill, hnohit, Bool.or_self,
    Bool.false_eq_true] at hrvalid

/-! ## One cycle -/

theorem LoadsOk.popped {e : Item} {rest : List Item}
    (hp : popLd cfg.nonIdempotent t.path (pathIn cfg t.hw i) = true)
    (hpres : present t.path.lsu = e :: rest) (heq : e.2 = lsuCtrl t.path.lsu.hw)
    (hni : cfg.nonIdempotent (pageOf e.2) = true) :
    e.2.transId = t.hw.core.sb.commitPointer0 ∧ Quiet cfg t i ∧
      StoreBuffer.storeBufferEmpty t.hw.core.st.buffer = true ∧ wbufferNotNi t.hw = true := by
  rw [heq] at hni
  obtain ⟨hnotNi, hempty, hid⟩ := h.linked.path.alone_of_popLd hp hni
  have hid : t.hw.core.sb.commitPointer0 = (lsuCtrl t.path.lsu.hw).transId := hid
  rw [h.linked.agrees.store] at hempty
  rw [← heq] at hid
  have hmem : e ∈ unwritten t := by
    refine mem_unwritten_of_behind (List.mem_append_right _ ?_)
    rw [hpres]
    exact List.mem_cons_self
  exact ⟨hid.symm, h.linked.quiet hmem hid.symm, hempty, hnotNi⟩

theorem LoadsOk.oldest_next (e : Item)
    (he : e ∈ ((tracked cfg z).next t i).piped.toList ++
      ((tracked cfg z).next t i).path.outstanding.toList)
    (hni : cfg.nonIdempotent (pageOf e.2) = true) :
    e.2.transId = ((tracked cfg z).next t i).hw.core.sb.commitPointer0 := by
  have hstays (hold : e ∈ t.path.outstanding) :
      e.2.transId = ((tracked cfg z).next t i).hw.core.sb.commitPointer0 := by
    have hmem : e ∈ t.piped.toList ++ t.path.outstanding.toList :=
      List.mem_append_right _ (Option.mem_toList.mpr hold)
    rw [(h.quiet (i := i) hmem hni).pointer]
    exact h.oldest e hmem hni
  rcases List.mem_append.mp he with he | he
  · have he : (if (flushes cfg t.hw i).flushEx then none
      else if ldValidO cfg.nonIdempotent t.path (pathIn cfg t.hw i) then t.path.outstanding
      else none) = some e := Option.mem_toList.mp he
    split_ifs at he
    exact hstays he
  · obtain ⟨-, ⟨hp, heq, rest, hpres⟩ | ⟨-, -, hold⟩⟩ :=
      h.linked.path.outstanding_next (Option.mem_toList.mp he)
    · obtain ⟨hid, hquiet, -⟩ := h.popped hp hpres heq hni
      rw [hquiet.pointer]
      exact hid
    · exact hstays hold

theorem LoadsOk.req_of_valid {n : TransId} (hv : (t.hw.core.sb.mem n).sbe.valid = true) :
    reqNow t n = t.req n := by
  unfold reqNow
  refine if_neg ?_
  rw [Bool.and_eq_true, beq_iff_eq]
  rintro ⟨hlsu, rfl⟩
  let e : Item := (t.path.lsu.record.accepted.length,
    lsuReq t.hw.core.iro.lsuValid (fuData t.hw.core.iro))
  have he : e ∈ arriving t.path.lsu := by
    have hlsu : (lsu t.hw).lsuValid = true := hlsu
    rw [arriving, h.linked.agrees.lsu, if_pos hlsu]
    exact List.mem_singleton.mpr rfl
  have hopen := h.linked.awaiting e (List.mem_append_right _ (List.mem_append_right _ he))
  have hopen : (t.hw.core.sb.mem t.hw.core.iro.transId).sbe.valid = false := hopen
  rw [hv] at hopen
  cases hopen

theorem LoadsOk.of_complete (hu : UnitsKeep t i) (hf : (flushes cfg t.hw i).flushEx = false)
    {n : TransId} (hv : (((tracked cfg z).next t i).hw.core.sb.mem n).sbe.valid = true)
    (hfu : (((tracked cfg z).next t i).hw.core.sb.mem n).sbe.fu = .LOAD)
    (hex : (((tracked cfg z).next t i).hw.core.sb.mem n).sbe.ex.valid = false) :
    ((t.hw.core.sb.mem n).sbe.valid = true ∧ (t.hw.core.sb.mem n).sbe.fu = .LOAD ∧
      (t.hw.core.sb.mem n).sbe.ex.valid = false ∧
      Scoreboard.ackedSlot t.hw.core.sb (sbIn cfg t.hw i) n = false ∧ reqNow t n = t.req n) ∨
      ∃ e ∈ t.piped, e.2.transId = n ∧ reqNow t n = e.2 := by
  obtain ⟨-, hack, hkept, hcase⟩ := h.linked.of_valid_next hu hf hv (.inl hfu) hex
  rw [hkept.fu] at hfu
  rw [hkept.ex] at hex
  rcases hcase with hv | ⟨e, he, rfl⟩
  · exact .inl ⟨hv, hfu, hex, hack, h.req_of_valid hv⟩
  · rcases List.mem_append.mp he with he | he
    · have hholds := h.linked.holds e (List.mem_append_right _ (mem_unwritten_of_piped he))
      exact .inr ⟨e, Option.mem_toList.mp he, rfl, hholds.req⟩
    · have hstore := (h.linked.holds e (List.mem_append_right _ (mem_unwritten_of_unit he))).fu
      have hfu : (slot t e).sbe.fu = .LOAD := hfu
      rw [hfu, (h.linked.unit_id e (Option.mem_toList.mp he)).2] at hstore
      cases hstore

theorem LoadsOk.done_next (hu : UnitsKeep t i) (n : TransId)
    (hv : (((tracked cfg z).next t i).hw.core.sb.mem n).sbe.valid = true)
    (hfu : (((tracked cfg z).next t i).hw.core.sb.mem n).sbe.fu = .LOAD)
    (hex : (((tracked cfg z).next t i).hw.core.sb.mem n).sbe.ex.valid = false)
    (hni : cfg.nonIdempotent (pageOf (((tracked cfg z).next t i).req n)) = true) :
    n = ((tracked cfg z).next t i).hw.core.sb.commitPointer0 := by
  cases hf : (flushes cfg t.hw i).flushEx with
  | true =>
      rw [not_valid_of_flush hf] at hv
      cases hv
  | false =>
      have hni : cfg.nonIdempotent (pageOf (reqNow t n)) = true := hni
      rcases h.of_complete hu hf hv hfu hex with ⟨hv, hfu, hex, hack, hreq⟩ | ⟨e, he, rfl, hreq⟩
      · rw [hreq] at hni
        have hn := h.done n hv hfu hex hni
        have hack0 : (out cfg t.hw i).commitAck.ack0 = false := by
          by_contra hne
          have hne : (sbIn cfg t.hw i).commitAck.ack0 = true := Bool.not_eq_false _ ▸ hne
          simp [Scoreboard.ackedSlot, hne, hn] at hack
        rw [commitPointer0_kept hf hack0]
        exact hn
      · rw [hreq] at hni
        have hmem : e ∈ t.piped.toList ++ t.path.outstanding.toList :=
          List.mem_append_left _ (Option.mem_toList.mpr he)
        rw [(h.quiet (i := i) hmem hni).pointer]
        exact h.oldest e hmem hni

theorem LoadsOk.killed_next
    (hnone : ((tracked cfg z).next t i).path.outstanding = none)
    (hidle : ((tracked cfg z).next t i).path.ctrl.state ≠ .IDLE)
    (hread : ((tracked cfg z).next t i).path.ctrl.state ≠ .READ) :
    cfg.nonIdempotent ((tracked cfg z).next t i).path.ctrl.addressTagQ = false := by
  rcases h.linked.path.of_killed hnone hidle hread with ⟨hf, e, he, htag⟩ | ⟨hn, hi, hr, htag⟩
  · -- a load from such a page is the oldest instruction and cannot be flushed
    by_contra hni
    have hni : cfg.nonIdempotent (pageOf e.2) = true := by
      have hpage : ((tracked cfg z).next t i).path.ctrl.addressTagQ = pageOf e.2 := htag
      rw [hpage] at hni
      exact Bool.not_eq_false _ ▸ hni
    have hquiet := h.quiet (i := i) (List.mem_append_right _ (Option.mem_toList.mpr he)) hni
    have hf : (flushes cfg t.hw i).flushEx = true := hf
    rw [hquiet.flush] at hf
    cases hf
  · have htag : ((tracked cfg z).next t i).path.ctrl.addressTagQ = t.path.ctrl.addressTagQ := htag
    rw [htag]
    exact h.killed hn hi hr

/-- No store enters the store buffer while the oldest request of the queue is a load and
the oldest instruction. -/
theorem LoadsOk.no_store {e : Item} {rest : List Item} (hpres : present t.path.lsu = e :: rest)
    (hid : e.2.transId = t.hw.core.sb.commitPointer0) :
    t.hw.core.st.unit.state ≠ .VALID_STORE := by
  intro hstate
  obtain ⟨e', he'⟩ := Option.isSome_iff_exists.mp (h.linked.unit_state.mp hstate)
  have hord := (List.pairwise_append.mp h.linked.ordered).2.2 e'
    (List.mem_append_right _ (Option.mem_toList.mpr he')) e (by rw [hpres]; exact List.mem_cons_self)
  have hzero : ageOf t e = 0 := by
    rw [ageOf, hid]
    exact Scoreboard.age_commitPointer0 _
  omega

theorem LoadsOk.alone_next
    (hstate : ((tracked cfg z).next t i).path.lsu.hw.load.state = .SEND_TAG) (e : Item)
    (he : e ∈ ((tracked cfg z).next t i).path.outstanding)
    (hni : cfg.nonIdempotent (pageOf e.2) = true) :
    StoreBuffer.storeBufferEmpty ((tracked cfg z).next t i).hw.core.st.buffer = true ∧
      wbufferNotNi ((tracked cfg z).next t i).hw = true := by
  have hp : popLd cfg.nonIdempotent t.path (pathIn cfg t.hw i) = true :=
    ((LoadUnit.loadControl_sendTag rfl).mp hstate).1
  obtain ⟨-, ⟨-, heq, rest, hpres⟩ | ⟨hnot, -, -⟩⟩ := h.linked.path.outstanding_next he
  · obtain ⟨hid, hquiet, hempty, hnotNi⟩ := h.popped hp hpres heq hni
    have hcnt : t.hw.core.st.buffer.speculative.statusCnt = 0 ∧
        t.hw.core.st.buffer.commit.statusCnt = 0 := by
      simpa [StoreBuffer.storeBufferEmpty, StoreBuffer.noStPending] using hempty
    have hreq : StoreBuffer.dataReq t.hw.core.st.buffer = false := by
      by_contra hne
      have hpos := h.commit.pos_of_head (Bool.not_eq_false _ ▸ hne)
      rw [hcnt.2] at hpos
      cases hpos
    let j := Core.storeIn t.hw.core (coreIn cfg t.hw i)
    have hv : (StoreUnit.bufferIn t.hw.core.st j).valid = false := by
      by_contra hne
      exact h.no_store hpres hid (StoreUnit.state_of_bufferIn_valid (Bool.not_eq_false _ ▸ hne))
    have hc : (StoreUnit.bufferIn t.hw.core.st j).commit = false := hquiet.commit
    have hfl : (StoreUnit.bufferIn t.hw.core.st j).flush = false := hquiet.flush
    constructor
    · have hsame : ((tracked cfg z).next t i).hw.core.st.buffer = t.hw.core.st.buffer := by
        show StoreBuffer.next t.hw.core.st.buffer (StoreUnit.bufferIn t.hw.core.st j) = _
        simp only [StoreBuffer.next, StoreBuffer.coreIf, StoreBuffer.storeIf, hv, hc, hfl, hreq,
          Bool.false_and, Bool.false_eq_true, if_false]
      rw [hsame]
      exact hempty
    · have hgnt : Dcache.Wbuffer.dataGnt cfg t.hw.dc.hw.wbuf
          (Dcache.wbufIn cfg t.hw.dc.hw (dcIn cfg t.hw i)) = false := by
        have hreq : (Dcache.wbufIn cfg t.hw.dc.hw (dcIn cfg t.hw i)).store.dataReq = false := hreq
        rw [Dcache.Wbuffer.dataGnt, hreq]
        rfl
      rw [wbufferNotNi, Bool.not_eq_true', Dcache.any_eq_false] at hnotNi ⊢
      intro n
      show Dcache.Wbuffer.niPendingNext cfg t.hw.dc.hw.wbuf
        (Dcache.wbufIn cfg t.hw.dc.hw (dcIn cfg t.hw i)) n = false
      rw [Dcache.Wbuffer.niPendingNext, hgnt, hnotNi n]
      simp
  · rw [hp] at hnot
    cases hnot

/-! ## The reads -/

abbrev missAcked (cfg : Dcache.Cfg) (t : Tracked) (i : Input) : Bool :=
  Dcache.Missunit.missAck t.hw.dc.hw.miss
    (Dcache.missIn cfg t.hw.dc.hw (dcIn cfg t.hw i)) (.rd 1)

theorem LoadsOk.loadMemReq_eq {e : Item} (he : e ∈ t.path.outstanding)
    (hread : t.path.ctrl.state ≠ .READ) (hd : device cfg (pageOf e.2) = true) :
    Dcache.loadMemReq cfg t.hw.dc.hw 1 = readOf e.2 := by
  have haddr : Dcache.Ctrl.missPaddr t.path.ctrl = loadAddr e.2 := by
    have haddr := h.linked.path.address e he
    rw [heldAddr, if_neg hread] at haddr
    exact haddr
  have htag : t.path.ctrl.addressTagQ = pageOf e.2 := congrArg (fun a => a.word.tag) haddr
  have hnc : Dcache.Ctrl.missNc t.path.ctrl cfg (Dcache.cacheEn t.hw.dc.hw) = true := by
    rw [device, Bool.and_eq_true] at hd
    rw [Dcache.Ctrl.missNc, htag, hd.2, Bool.or_true]
  have hsize : Dcache.Ctrl.missSize t.path.ctrl cfg (Dcache.cacheEn t.hw.dc.hw) =
      (extractTransferSize e.2.operator).setWidth 3 := by
    rw [Dcache.Ctrl.missSize, hnc, if_pos rfl, h.size e he]
  unfold Dcache.loadMemReq readOf
  rw [← h.linked.agrees.port, hsize, haddr, hnc]

theorem LoadsOk.of_deviceReads (he : deviceReads cfg t.hw i ≠ []) :
    ∃ e ∈ t.path.outstanding, device cfg (pageOf e.2) = true ∧ t.path.ctrl.state = .MISS_REQ ∧
      missAcked cfg t i = true ∧ deviceReads cfg t.hw i = [readOf e.2] := by
  unfold deviceReads at he ⊢
  cases hacc : Dcache.accepted cfg t.hw.dc.hw (dcIn cfg t.hw i) with
  | none => simp [hacc] at he
  | some r =>
      rw [hacc] at he
      cases h.books.waits.sent hacc with
      | store _ => simp [Dcache.storeMemReq] at he
      | atomic _ _ hrtype => simp [hrtype] at he
      | load p hreq hack =>
          have hp : p = 1 := by
            by_contra hne
            have hzero : p = 0 := by omega
            rw [hzero, Dcache.Ctrl.missReq, h.ptw] at hreq
            cases hreq
          subst hp
          rw [← h.linked.agrees.port, Dcache.Ctrl.missReq, Bool.or_eq_true, beq_iff_eq,
            beq_iff_eq] at hreq
          have htag : (Dcache.loadMemReq cfg t.hw.dc.hw 1).paddr.word.tag =
              t.path.ctrl.addressTagQ := by
            rw [h.linked.agrees.port]
            simp only [Dcache.loadMemReq, Dcache.paddrSizeAlign]
            split <;> rfl
          have hrtype : (Dcache.loadMemReq cfg t.hw.dc.hw 1).rtype = .LOAD := rfl
          have hd : device cfg t.path.ctrl.addressTagQ = true := by
            rw [← htag]
            by_contra hne
            simp [hne] at he
          cases ha : t.path.outstanding with
          | none =>
              have hlost := h.killed ha (by rcases hreq with hs | hs <;> simp [hs])
                (by rcases hreq with hs | hs <;> simp [hs])
              rw [device, hlost] at hd
              cases hd
          | some e =>
              have he : e ∈ t.path.outstanding := ha
              have hstate : t.path.ctrl.state = .MISS_REQ := by
                refine hreq.resolve_right ?_
                intro hs
                have hcoupled := h.linked.path.coupled
                rw [ha, hs] at hcoupled
                cases hcoupled
              have hpage : t.path.ctrl.addressTagQ = pageOf e.2 := by
                rw [← h.tag_eq (i := i) he, Dcache.Ctrl.addressTagD, Dcache.Ctrl.saveTag, hstate]
                rfl
              have hdev := hd
              rw [hpage] at hd
              refine ⟨e, rfl, hd, hstate, hack, ?_⟩
              rw [← h.loadMemReq_eq he (by simp [hstate]) hd]
              simp [hrtype, htag, hdev]

theorem LoadsOk.deviceReads_of_missAcked {e : Item} (he : e ∈ t.path.outstanding)
    (hd : device cfg (pageOf e.2) = true) (hstate : t.path.ctrl.state = .MISS_REQ)
    (hack : missAcked cfg t i = true) : deviceReads cfg t.hw i = [readOf e.2] := by
  obtain ⟨hacc, hport, hsel⟩ := Dcache.accepted_of_missAck hack
  have heq := h.loadMemReq_eq he (by simp [hstate]) hd
  have htag : (readOf e.2).paddr.word.tag = pageOf e.2 := by
    simp only [readOf, Dcache.paddrSizeAlign]
    split <;> rfl
  have hrtype : (readOf e.2).rtype = .LOAD := rfl
  generalize Dcache.Missunit.memData t.hw.dc.hw.miss
    (Dcache.missIn cfg t.hw.dc.hw (dcIn cfg t.hw i)) = r at hacc
  cases h.books.waits.sent hacc with
  | store hen =>
      rw [Dcache.Wbuffer.dirtyRdEn, Bool.and_eq_true] at hen
      rw [(Dcache.accepted_of_missAck hen.2).2.1] at hport
      cases hport
  | atomic _ hstate _ => simp [Dcache.Missunit.amoSel, hstate] at hsel
  | load p _ hack' =>
      rw [(Dcache.accepted_of_missAck hack').2.1, Dcache.Port.rd.injEq] at hport
      subst hport
      rw [heq] at hacc
      simp [deviceReads, hacc, hrtype, htag, hd]

/-! ## At most one load is under way -/

abbrev devices (cfg : Dcache.Cfg) (l : List LsuCtrl) : List LsuCtrl :=
  l.filter fun c => device cfg (pageOf c)

omit h in
theorem devices_eq_nil {l : List Item} (hl : ∀ e ∈ l, device cfg (pageOf e.2) = false) :
    devices cfg (l.map Prod.snd) = [] := by
  rw [devices, List.filter_eq_nil_iff]
  intro c hc
  obtain ⟨e, he, rfl⟩ := List.mem_map.mp hc
  simp [hl e he]

omit h in
theorem sent_eq : sent cfg t = devices cfg (t.piped.toList.map Prod.snd) ++
    devices cfg ((reading t).map Prod.snd) ++ devices cfg (complete t) := by
  rw [sent, List.map_append, List.filter_append, List.filter_append]

omit h in
theorem mem_outstanding_of_reading {e : Item} (he : e ∈ reading t) : e ∈ t.path.outstanding := by
  unfold reading at he
  split_ifs at he
  · exact Option.mem_toList.mp he
  · cases he

theorem LoadsOk.oldest_of_device {e : Item} (he : e ∈ t.piped.toList ++ t.path.outstanding.toList)
    (hd : device cfg (pageOf e.2) = true) :
    e.2.transId = t.hw.core.sb.commitPointer0 ∧ (port0 t).valid = false := by
  rw [device, Bool.and_eq_true] at hd
  have hid := h.oldest e he hd.1
  refine ⟨hid, ?_⟩
  rw [port0, ← hid]
  exact h.linked.awaiting e (mem_unwritten_of_awaited he)

theorem LoadsOk.excludes {e e' : Item} (he : e ∈ t.piped) (hd : device cfg (pageOf e.2) = true)
    (he' : e' ∈ t.path.outstanding) : device cfg (pageOf e'.2) = false := by
  by_contra hne
  have hid := (h.oldest_of_device (List.mem_append_left _ (Option.mem_toList.mpr he)) hd).1
  have hid' := (h.oldest_of_device (List.mem_append_right _ (Option.mem_toList.mpr he'))
    (Bool.not_eq_false _ ▸ hne)).1
  have hnodup := h.linked.nodup_parts
  rw [List.map_append, List.nodup_append] at hnodup
  refine hnodup.2.2 _ (List.mem_map_of_mem (List.mem_append_right _ (Option.mem_toList.mpr he))) _
    (List.mem_map_of_mem (List.mem_append_left _ (Option.mem_toList.mpr he'))) ?_
  exact hid.trans hid'.symm

omit h in
theorem complete_eq_nil (hv : (port0 t).valid = false) : complete t = [] := by
  rw [complete, hv]
  rfl

/-- Nothing that is awaited is from a device page, so neither is what is answered, nor what
the memory is asked for. -/
theorem LoadsOk.awaited_next (hnone : ∀ e ∈ t.path.outstanding, device cfg (pageOf e.2) = false) :
    devices cfg (((tracked cfg z).next t i).piped.toList.map Prod.snd) = [] ∧
      devices cfg ((reading ((tracked cfg z).next t i)).map Prod.snd) = [] := by
  constructor
  · refine devices_eq_nil ?_
    intro e he
    have he : (if (flushes cfg t.hw i).flushEx then none
      else if ldValidO cfg.nonIdempotent t.path (pathIn cfg t.hw i) then t.path.outstanding
      else none) = some e := Option.mem_toList.mp he
    split_ifs at he
    exact hnone e he
  · refine devices_eq_nil ?_
    intro e he
    have hwait : ((tracked cfg z).next t i).path.ctrl.state = .MISS_WAIT := by
      by_contra hne
      rw [reading, if_neg hne] at he
      cases he
    obtain ⟨-, ⟨hp, -, -⟩ | ⟨-, -, hold⟩⟩ :=
      h.linked.path.outstanding_next (mem_outstanding_of_reading he)
    · have hread : ((tracked cfg z).next t i).path.ctrl.state = .READ := read_of_popLd hp
      rw [hread] at hwait
      cases hwait
    · exact hnone e hold

omit h in
theorem Quiet.deviceRetired (hq : Quiet cfg t i) : deviceRetired cfg t i = [] := by
  rw [DataSide.deviceRetired, ackedSlots, hq.ack0, hq.ack1]
  rfl

theorem LoadsOk.no_reads (hnone : ∀ e ∈ t.path.outstanding, device cfg (pageOf e.2) = false) :
    deviceReads cfg t.hw i = [] := by
  by_contra hne
  obtain ⟨e, he, hd, -⟩ := h.of_deviceReads hne
  rw [hnone e he] at hd
  cases hd

theorem LoadsOk.reads_of_piped (hu : UnitsKeep t i) {e : Item} (he : e ∈ t.piped)
    (hd : device cfg (pageOf e.2) = true) :
    (sent cfg t).map readOf ++ deviceReads cfg t.hw i =
      (deviceRetired cfg t i ++ sent cfg ((tracked cfg z).next t i)).map readOf := by
  have hmem : e ∈ t.piped.toList := Option.mem_toList.mpr he
  obtain ⟨hid, hopen⟩ := h.oldest_of_device (List.mem_append_left _ hmem) hd
  have hq : Quiet cfg t i := quiet_of_not_valid hopen
  have hnone : ∀ e' ∈ t.path.outstanding, device cfg (pageOf e'.2) = false :=
    fun e' he' => h.excludes he hd he'
  have hold : sent cfg t = [e.2] := by
    have hreading : devices cfg ((reading t).map Prod.snd) = [] :=
      devices_eq_nil fun e' he' => hnone e' (mem_outstanding_of_reading he')
    have hpiped : t.piped = some e := he
    rw [sent_eq, hreading, complete_eq_nil hopen, hpiped]
    simp [devices, hd]
  have hholds := h.linked.holds e (List.mem_append_right _ (mem_unwritten_of_piped hmem))
  have hkept : Kept t ((tracked cfg z).next t i) e.2.transId := by
    refine h.linked.kept hu hq.flush hholds.issued ?_ (h.linked.not_acked (mem_unwritten_of_piped hmem))
    have hfu : (t.hw.core.sb.mem e.2.transId).sbe.fu = e.2.fu := hholds.fu
    rw [hfu]
    exact hholds.unit
  have hnow : writtenNow t e.2.transId = true :=
    (h.linked.writtenNow_iff hholds.issued).mpr ⟨e, List.mem_append_left _ hmem, rfl⟩
  have hcomplete : complete ((tracked cfg z).next t i) = [e.2] := by
    have hfu : (t.hw.core.sb.mem e.2.transId).sbe.fu = .LOAD :=
      hholds.fu.trans (h.linked.piped e he).2.2
    have hex : (t.hw.core.sb.mem e.2.transId).sbe.ex.valid = false := hholds.ex
    rw [complete, port0, hq.pointer, ← hid, hkept.valid, hkept.fu, hkept.ex, hnow, hfu, hex,
      Bool.or_true]
    show [reqNow t e.2.transId] = _
    rw [hholds.req]
  obtain ⟨hpiped', hreading'⟩ := h.awaited_next (z := z) (i := i) hnone
  rw [hold, h.no_reads hnone, hq.deviceRetired, sent_eq, hpiped', hreading', hcomplete]
  simp [devices, hd]

theorem LoadsOk.reads_of_awaited (hu : UnitsKeep t i) {e : Item} (he : e ∈ t.path.outstanding)
    (hd : device cfg (pageOf e.2) = true) :
    (sent cfg t).map readOf ++ deviceReads cfg t.hw i =
      (deviceRetired cfg t i ++ sent cfg ((tracked cfg z).next t i)).map readOf := by
  have hsome : t.path.outstanding = some e := he
  have hmem : e ∈ t.piped.toList ++ t.path.outstanding.toList :=
    List.mem_append_right _ (Option.mem_toList.mpr he)
  obtain ⟨hid, hopen⟩ := h.oldest_of_device hmem hd
  have hq : Quiet cfg t i := quiet_of_not_valid hopen
  have hold : sent cfg t = if t.path.ctrl.state = .MISS_WAIT then [e.2] else [] := by
    have hpiped : devices cfg (t.piped.toList.map Prod.snd) = [] := by
      refine devices_eq_nil ?_
      intro e' he'
      by_contra hne
      have := h.excludes (Option.mem_toList.mp he') (Bool.not_eq_false _ ▸ hne) he
      rw [hd] at this
      cases this
    rw [sent_eq, hpiped, complete_eq_nil hopen, reading, hsome]
    split_ifs <;> simp [devices, hd]
  have hkill := ((h.linked.path.answer cfg.nonIdempotent (pathIn cfg t.hw i)).2
    (Option.isSome_of_mem he)).1
  have hcomplete : e ∈ unwritten ((tracked cfg z).next t i) →
      complete ((tracked cfg z).next t i) = [] := by
    intro hin
    refine complete_eq_nil ?_
    rw [port0, hq.pointer, ← hid]
    exact h.linked.awaiting_next hu e hin
  cases hv : ldValidO cfg.nonIdempotent t.path (pathIn cfg t.hw i) with
  | true =>
      have hwait := h.answered he hd hv
      have hreads : deviceReads cfg t.hw i = [] := by
        by_contra hne
        obtain ⟨-, -, -, hreq, -⟩ := h.of_deviceReads hne
        rw [hwait] at hreq
        cases hreq
      have hpiped : ((tracked cfg z).next t i).piped = some e := by
        show (if (flushes cfg t.hw i).flushEx then none
          else if ldValidO cfg.nonIdempotent t.path (pathIn cfg t.hw i) then t.path.outstanding
          else none) = some e
        rw [hq.flush, hv]
        exact he
      have hreading : reading ((tracked cfg z).next t i) = [] := by
        by_contra hne
        obtain ⟨e', he'⟩ := List.exists_mem_of_ne_nil _ hne
        have hstate : ((tracked cfg z).next t i).path.ctrl.state = .MISS_WAIT := by
          by_contra hno
          rw [reading, if_neg hno] at he'
          cases he'
        obtain ⟨-, ⟨hp, -, -⟩ | ⟨-, hno, -⟩⟩ :=
          h.linked.path.outstanding_next (mem_outstanding_of_reading he')
        · have hread : ((tracked cfg z).next t i).path.ctrl.state = .READ := read_of_popLd hp
          rw [hread] at hstate
          cases hstate
        · rw [hv] at hno
          cases hno
      have hin : e ∈ unwritten ((tracked cfg z).next t i) :=
        mem_unwritten_of_piped (Option.mem_toList.mpr hpiped)
      rw [hold, hwait, if_pos rfl, hreads, hq.deviceRetired, sent_eq, hpiped, hreading,
        hcomplete hin]
      simp [devices, hd]
  | false =>
      have hout : ((tracked cfg z).next t i).path.outstanding = some e :=
        h.linked.path.outstanding_stays he hq.flush hv
      have hpiped : ((tracked cfg z).next t i).piped = none := by
        show (if (flushes cfg t.hw i).flushEx then none
          else if ldValidO cfg.nonIdempotent t.path (pathIn cfg t.hw i) then t.path.outstanding
          else none) = none
        rw [hq.flush, hv]
        rfl
      have hin : e ∈ unwritten ((tracked cfg z).next t i) :=
        mem_unwritten_of_awaited (List.mem_append_right _ (Option.mem_toList.mpr hout))
      have hwait : ((tracked cfg z).next t i).path.ctrl.state = .MISS_WAIT ↔
          t.path.ctrl.state = .MISS_WAIT ∨
            t.path.ctrl.state = .MISS_REQ ∧ missAcked cfg t i = true := by
        refine Dcache.Ctrl.stateD_missWait hkill ?_ ?_
        · rw [h.linked.path.ldValidO_eq (Option.isSome_of_mem he), hkill] at hv
          simpa using hv
        · intro hreplay
          exact Dcache.not_missAck_of_missReplay hreplay
      have hsent : sent cfg ((tracked cfg z).next t i) =
          if ((tracked cfg z).next t i).path.ctrl.state = .MISS_WAIT then [e.2] else [] := by
        rw [sent_eq, hpiped, hcomplete hin, reading, hout]
        split_ifs <;> simp [devices, hd]
      rw [hold, hsent, hq.deviceRetired, List.nil_append]
      by_cases hreq : t.path.ctrl.state = .MISS_REQ ∧ missAcked cfg t i = true
      · rw [h.deviceReads_of_missAcked he hd hreq.1 hreq.2, hreq.1, if_pos (hwait.mpr (.inr hreq))]
        rfl
      · have hreads : deviceReads cfg t.hw i = [] := by
          by_contra hne
          obtain ⟨-, -, -, hstate, hack, -⟩ := h.of_deviceReads hne
          exact hreq ⟨hstate, hack⟩
        simp only [hwait, hreq, or_false, hreads, List.append_nil]

omit h in
theorem sent_of_none (hp : ∀ e ∈ t.piped, device cfg (pageOf e.2) = false)
    (ho : ∀ e ∈ t.path.outstanding, device cfg (pageOf e.2) = false) :
    sent cfg t = devices cfg (complete t) := by
  have hpiped : devices cfg (t.piped.toList.map Prod.snd) = [] :=
    devices_eq_nil fun e he => hp e (Option.mem_toList.mp he)
  have hreading : devices cfg ((reading t).map Prod.snd) = [] :=
    devices_eq_nil fun e he => ho e (mem_outstanding_of_reading he)
  rw [sent_eq, hpiped, hreading]
  rfl

omit h in
theorem of_mem_complete {c : LsuCtrl} (hc : c ∈ complete t) :
    (port0 t).valid = true ∧ (port0 t).fu = .LOAD ∧ (port0 t).ex.valid = false ∧
      c = t.req t.hw.core.sb.commitPointer0 ∧ complete t = [c] := by
  unfold complete at hc ⊢
  split_ifs at hc ⊢ with hcond
  · simp only [Bool.and_eq_true, beq_iff_eq, Bool.not_eq_true'] at hcond
    rw [List.mem_singleton] at hc
    exact ⟨hcond.1.1, hcond.1.2, hcond.2, hc, by rw [hc]⟩
  · cases hc

theorem LoadsOk.of_retired {n : TransId} (hn : n ∈ ackedSlots cfg t.hw i)
    (hfu : (t.hw.core.sb.mem n).sbe.fu = .LOAD) (hd : device cfg (pageOf (t.req n)) = true) :
    n = t.hw.core.sb.commitPointer0 := by
  rw [device, Bool.and_eq_true] at hd
  rw [ackedSlots, List.mem_append, List.mem_ite_nil_right, List.mem_ite_nil_right,
    List.mem_singleton, List.mem_singleton] at hn
  rcases hn with ⟨-, hn⟩ | ⟨hack, rfl⟩
  · exact hn
  · obtain ⟨-, hv, hex, -⟩ := Core.of_ack1 (s := t.hw.core) (i := coreIn cfg t.hw i) hack
    exact h.done _ hv hfu hex hd.1

theorem LoadsOk.deviceRetired_eq :
    deviceRetired cfg t i =
      if (out cfg t.hw i).commitAck.ack0 then devices cfg (complete t) else [] := by
  cases hack : (out cfg t.hw i).commitAck.ack0 with
  | false =>
      rw [deviceRetired, ackedSlots, hack, ack1_eq_false hack]
      rfl
  | true =>
      obtain ⟨hv, hex⟩ := Core.port0_of_retiring
        (Core.retiring_of_ack0 (s := t.hw.core) (i := coreIn cfg t.hw i) hack)
      have hv : (port0 t).valid = true := hv
      have hex : (port0 t).ex.valid = false := hex
      -- port 1 does not retire such a load
      have hport1 : ((if (out cfg t.hw i).commitAck.ack1 then [t.hw.core.sb.commitPointer1]
          else []).filter fun n => (t.hw.core.sb.mem n).sbe.fu == .LOAD &&
            device cfg (pageOf (t.req n))) = [] := by
        rw [List.filter_eq_nil_iff]
        intro n hn
        rw [Bool.and_eq_true, beq_iff_eq]
        rintro ⟨hfu, hd⟩
        have hn0 := h.of_retired (List.mem_append_right _ hn) hfu hd
        rw [List.mem_ite_nil_right, List.mem_singleton] at hn
        have hpos := h.linked.core.ok.count_pos_of_valid0 hv
        have hcp1 := h.linked.core.ok.commitPointer1_of_pos hpos
        rw [hn.2, hcp1] at hn0
        revert hn0
        generalize t.hw.core.sb.commitPointer0 = p
        revert p
        decide
      rw [deviceRetired, ackedSlots, hack, if_pos rfl, List.filter_append, hport1, List.append_nil,
        if_pos rfl, complete, hv, hex]
      cases hfu : (port0 t).fu == .LOAD with
      | false => simp [hfu]
      | true => cases hd : device cfg (pageOf (t.req t.hw.core.sb.commitPointer0)) <;> simp [hfu, hd]

/-- A complete load from a device page stays at port 0 until it retires; no other one
becomes complete. -/
theorem LoadsOk.complete_next (hu : UnitsKeep t i)
    (hp : ∀ e ∈ t.piped, device cfg (pageOf e.2) = false) :
    devices cfg (complete ((tracked cfg z).next t i)) =
      if (out cfg t.hw i).commitAck.ack0 then [] else devices cfg (complete t) := by
  -- what is complete afterwards was complete before and is not acknowledged
  have hback {c : LsuCtrl} (hc : c ∈ devices cfg (complete ((tracked cfg z).next t i))) :
      (out cfg t.hw i).commitAck.ack0 = false ∧ c ∈ devices cfg (complete t) := by
    obtain ⟨hc, hd⟩ := List.mem_filter.mp hc
    obtain ⟨hv, hfu, hex, hreq, -⟩ := of_mem_complete hc
    have hf : (flushes cfg t.hw i).flushEx = false := by
      by_contra hne
      rw [not_valid_of_flush (Bool.not_eq_false _ ▸ hne)] at hv
      cases hv
    have hreq : c = reqNow t ((tracked cfg z).next t i).hw.core.sb.commitPointer0 := hreq
    rcases h.of_complete hu hf hv hfu hex with ⟨hv, hfu, hex, hack, hkeep⟩ | ⟨e, he, hid, hkeep⟩
    · rw [hkeep] at hreq
      have hni : cfg.nonIdempotent (pageOf c) = true := by
        simp only [device, Bool.and_eq_true] at hd
        exact hd.1
      rw [hreq] at hni
      have hn := h.done _ hv hfu hex hni
      rw [hn] at hv hfu hex hack hreq
      refine ⟨?_, ?_⟩
      · by_contra hne
        have hne : (sbIn cfg t.hw i).commitAck.ack0 = true := Bool.not_eq_false _ ▸ hne
        simp [Scoreboard.ackedSlot, hne] at hack
      · refine List.mem_filter.mpr ⟨?_, hd⟩
        rw [complete, port0, hv, hfu, hex]
        exact List.mem_singleton.mpr hreq
    · rw [hkeep] at hreq
      have hd : device cfg (pageOf c) = true := hd
      rw [hreq, hp e he] at hd
      cases hd
  cases hack : (out cfg t.hw i).commitAck.ack0 with
  | true =>
      rw [if_pos rfl, List.eq_nil_iff_forall_not_mem]
      intro c hc
      have := (hback hc).1
      rw [hack] at this
      cases this
  | false =>
      rw [if_neg Bool.false_ne_true]
      cases hold : devices cfg (complete t) with
      | nil =>
          rw [List.eq_nil_iff_forall_not_mem]
          intro c hc
          have := (hback hc).2
          rw [hold] at this
          cases this
      | cons c rest =>
          have hmem : c ∈ devices cfg (complete t) := by
            rw [hold]
            exact List.mem_cons_self
          obtain ⟨hc, hd⟩ := List.mem_filter.mp hmem
          obtain ⟨hv, hfu, hex, hreq, hone⟩ := of_mem_complete hc
          have hd : device cfg (pageOf c) = true := hd
          have hf := h.linked.core.ack0_of_load hfu hex hack
          have hnot : Scoreboard.ackedSlot t.hw.core.sb (sbIn cfg t.hw i)
              t.hw.core.sb.commitPointer0 = false := by
            have hack0 : (sbIn cfg t.hw i).commitAck.ack0 = false := hack
            have hack1 : (sbIn cfg t.hw i).commitAck.ack1 = false := ack1_eq_false hack
            rw [Scoreboard.ackedSlot, hack0, hack1]
            rfl
          have hkept := h.linked.kept (z := z) hu hf (h.linked.core.ok.valid_issued _ hv)
            (.inl hfu) hnot
          have hnew : complete ((tracked cfg z).next t i) = [c] := by
            have hv : (t.hw.core.sb.mem t.hw.core.sb.commitPointer0).sbe.valid = true := hv
            have hfu : (t.hw.core.sb.mem t.hw.core.sb.commitPointer0).sbe.fu = .LOAD := hfu
            have hex : (t.hw.core.sb.mem t.hw.core.sb.commitPointer0).sbe.ex.valid = false := hex
            rw [complete, port0, commitPointer0_kept hf hack, hkept.valid, hkept.fu, hkept.ex, hv,
              hfu, hex]
            show [reqNow t t.hw.core.sb.commitPointer0] = _
            rw [h.req_of_valid hv, hreq]
          rw [hnew, ← hold, hone]

theorem LoadsOk.reads_next (hu : UnitsKeep t i) :
    ((tracked cfg z).next t i).reads =
      (((tracked cfg z).next t i).retired ++ sent cfg ((tracked cfg z).next t i)).map readOf := by
  show t.reads ++ deviceReads cfg t.hw i =
    ((t.retired ++ deviceRetired cfg t i) ++ sent cfg ((tracked cfg z).next t i)).map readOf
  have hstep : (sent cfg t).map readOf ++ deviceReads cfg t.hw i =
      (deviceRetired cfg t i ++ sent cfg ((tracked cfg z).next t i)).map readOf := by
    by_cases hp : ∀ e ∈ t.piped, device cfg (pageOf e.2) = false
    · by_cases ho : ∀ e ∈ t.path.outstanding, device cfg (pageOf e.2) = false
      · obtain ⟨hpiped, hreading⟩ := h.awaited_next (z := z) (i := i) ho
        rw [sent_of_none hp ho, h.no_reads ho, List.append_nil, h.deviceRetired_eq, sent_eq, hpiped,
          hreading, h.complete_next hu hp]
        cases (out cfg t.hw i).commitAck.ack0 <;> simp
      · simp only [not_forall] at ho
        obtain ⟨e, he, hd⟩ := ho
        exact h.reads_of_awaited hu he (Bool.not_eq_false _ ▸ hd)
    · simp only [not_forall] at hp
      obtain ⟨e, he, hd⟩ := hp
      exact h.reads_of_piped hu he (Bool.not_eq_false _ ▸ hd)
  rw [h.reads, List.map_append, List.append_assoc, hstep, ← List.map_append, List.append_assoc]

theorem LoadsOk.commit_next : ((tracked cfg z).next t i).hw.core.st.buffer.commit.Shape := by
  refine (StoreBuffer.storeIf_shape h.commit ?_).1
  intro hc
  have hready := (of_commitLsu (i := i) hc).2.2.2.2
  simpa [StoreBuffer.commitReady, BitVec.lt_def] using hready

theorem LoadsOk.ptw_next : (((tracked cfg z).next t i).hw.dc.hw.ctrl 0).state = .IDLE := by
  show Dcache.Ctrl.stateD (t.hw.dc.hw.ctrl 0)
    (Dcache.ctrlIn cfg t.hw.dc.hw (dcIn cfg t.hw i) 0) = .IDLE
  have hreq : (Dcache.ctrlIn cfg t.hw.dc.hw (dcIn cfg t.hw i) 0).req.dataReq = false := rfl
  simp [Dcache.Ctrl.stateD, h.ptw, hreq]

theorem LoadsOk.next (hu : UnitsKeep t i) (hs : Dcache.Served t.hw.dc (dcIn cfg t.hw i)) :
    LoadsOk cfg ((tracked cfg z).next t i) where
  linked := h.linked.next hu
  books := h.books.next hs.1 hs.chosen
  lines := h.lines.next h.books.waits
  commit := h.commit_next
  ptw := h.ptw_next
  size := h.size.next h.linked.path
  oldest := h.oldest_next
  done := h.done_next hu
  killed := h.killed_next
  alone := h.alone_next
  reads := h.reads_next hu

end Step

theorem loadsOk_init : LoadsOk cfg (tracked cfg z).init where
  linked := linked_init
  books := Dcache.books_start z
  lines := Dcache.linesOk_start cfg z
  commit := StoreBuffer.Queue.reset_ok.shape
  ptw := rfl
  size := by
    intro e he
    cases he
  oldest := by
    intro e he
    cases he
  done := by
    intro n hv
    cases hv
  killed := by
    intro _ hidle
    exact absurd rfl hidle
  alone := by
    intro hs
    cases hs
  reads := rfl

/-! ## Every run -/

/-- At most one read of a device page was accepted for a load that has not retired. -/
theorem LoadsOk.sent_length_le (h : LoadsOk cfg t) : (sent cfg t).length ≤ 1 := by
  have hone (o : Option Item) : (devices cfg (o.toList.map Prod.snd)).length ≤ 1 := by
    refine List.length_filter_le _ _ |>.trans ?_
    cases o <;> simp
  have hreading : (devices cfg ((reading t).map Prod.snd)).length ≤ 1 := by
    unfold reading
    split_ifs
    · exact hone _
    · exact Nat.zero_le 1
  have hcomplete : (devices cfg (complete t)).length ≤ 1 := by
    refine List.length_filter_le _ _ |>.trans ?_
    unfold complete
    split_ifs <;> simp
  -- while such a load is on its way the oldest instruction is not complete
  have hnot {e : Item} (he : e ∈ t.piped.toList ++ t.path.outstanding.toList)
      (hd : device cfg (pageOf e.2) = true) : devices cfg (complete t) = [] := by
    rw [complete_eq_nil (h.oldest_of_device he hd).2]
    rfl
  rw [sent_eq, List.length_append, List.length_append]
  by_cases hp : ∀ e ∈ t.piped, device cfg (pageOf e.2) = false
  · have hpiped : devices cfg (t.piped.toList.map Prod.snd) = [] :=
      devices_eq_nil fun e he => hp e (Option.mem_toList.mp he)
    rw [hpiped, List.length_nil, Nat.zero_add]
    by_cases ho : ∀ e ∈ t.path.outstanding, device cfg (pageOf e.2) = false
    · have hnone : devices cfg ((reading t).map Prod.snd) = [] :=
        devices_eq_nil fun e he => ho e (mem_outstanding_of_reading he)
      rw [hnone, List.length_nil, Nat.zero_add]
      exact hcomplete
    · simp only [not_forall] at ho
      obtain ⟨e, he, hd⟩ := ho
      rw [hnot (List.mem_append_right _ (Option.mem_toList.mpr he)) (Bool.not_eq_false _ ▸ hd)]
      exact hreading
  · simp only [not_forall] at hp
    obtain ⟨e, he, hd⟩ := hp
    have hd : device cfg (pageOf e.2) = true := Bool.not_eq_false _ ▸ hd
    have hnone : devices cfg ((reading t).map Prod.snd) = [] :=
      devices_eq_nil fun e' he' => h.excludes he hd (mem_outstanding_of_reading he')
    rw [hnone, hnot (List.mem_append_left _ (Option.mem_toList.mpr he)) hd]
    exact hone _

/-- Loads from pages that are non-idempotent and not cached read memory once each. -/
structure DeviceLoads (cfg : Dcache.Cfg) (t : Tracked) : Prop where
  /-- The accepted reads are those of the retired loads, in their order, and of at most one that
  is still to retire. -/
  reads : t.reads = (t.retired ++ sent cfg t).map readOf
  pending : (sent cfg t).length ≤ 1
  /-- The tag of a load from a non-idempotent page is sent when it is the oldest instruction and
  no store is left in the store buffer, and none to such a page in the write buffer. -/
  alone : t.path.lsu.hw.load.state = .SEND_TAG → ∀ e ∈ t.path.outstanding,
    cfg.nonIdempotent (pageOf e.2) = true → e.2.transId = t.hw.core.sb.commitPointer0 ∧
      StoreBuffer.storeBufferEmpty t.hw.core.st.buffer = true ∧ wbufferNotNi t.hw = true
  /-- From then on nothing flushes or kills it. -/
  kept : ∀ e ∈ t.piped.toList ++ t.path.outstanding.toList,
    cfg.nonIdempotent (pageOf e.2) = true → ∀ i, (flushes cfg t.hw i).flushEx = false ∧
      (e ∈ t.path.outstanding → ((dcIn cfg t.hw i).loads 1).killReq = false)

theorem device_loads_read_once (cfg : Dcache.Cfg) (z : Dcache.Start) (ins : List Input)
    (henv : (tracked cfg z).Throughout
      (fun t i => UnitsKeep t i ∧ Dcache.Served t.hw.dc (dcIn cfg t.hw i)) ins) :
    DeviceLoads cfg ((tracked cfg z).run ins) := by
  have h : LoadsOk cfg ((tracked cfg z).run ins) :=
    Machine.invariant loadsOk_init (fun _ _ h he => h.next he.1 he.2) ins henv
  refine ⟨h.reads, h.sent_length_le, ?_, ?_⟩
  · intro hstate e he hni
    exact ⟨h.oldest e (List.mem_append_right _ (Option.mem_toList.mpr he)) hni,
      h.alone hstate e he hni⟩
  · intro e he hni i
    refine ⟨(h.quiet he hni).flush, ?_⟩
    intro ho
    rw [← h.linked.agrees.pathReq_eq]
    exact ((h.linked.path.answer cfg.nonIdempotent (pathIn cfg _ i)).2
      (Option.isSome_of_mem ho)).1

/-! ## A load from a device -/

open Dcache (devicePages cleared)

instance (t : Tracked) (i : Input) : Decidable (UnitsKeep t i) :=
  inferInstanceAs (Decidable (∀ p ∈ i.core.wb, _ → _ ∨ _ ∧ _))

/-- `lw x5, 0(x0)` and `lw x6, 64(x0)` from a device. The second one is aborted until the first
one has been read, answered and retired; then it is read as well. -/
def deviceLoads : List Input :=
  let waits : Input := { Input.of .quiet with dc.rdSel := .rd 1 }
  let granted : Input := { waits with dc.memDataAck := true }
  let answered : Input :=
    { waits with
      dc.memRtrnVld := true
      dc.memRtrn := ⟨.LOAD_ACK, fun _ _ => 5, ⟨false, false, 0, 0⟩, 1⟩ }
  [.of (.offer 0x00002283), { waits with core := .offer 0x04002303 }, waits, granted, answered,
    waits, waits, waits, waits, waits, waits, granted]

def deviceRun : List Input := flushRun ++ deviceLoads

theorem run_deviceRun : (tracked devicePages cleared).run deviceRun =
    (tracked devicePages cleared).runFrom (restTracked false 256 (Dcache.flushing cleared 255))
      deviceLoads := by
  rw [deviceRun, Machine.run_append, flushRun, run_rest (by decide)]
  rfl

theorem environment_deviceRun : (tracked devicePages cleared).Throughout
    (fun t i => UnitsKeep t i ∧ Dcache.Served t.hw.dc (dcIn devicePages t.hw i)) deviceRun := by
  refine Machine.throughout_append.mpr ⟨environment_flushRun _ _, ?_⟩
  rw [flushRun, run_rest (by decide)]
  decide +kernel

theorem device_loads_read_once_deviceRun :
    let t := (tracked devicePages cleared).run deviceRun
    t.retired.length = 1 ∧ t.hw.core.iro.regfile 5 = 0x05050505 ∧
      (sent devicePages t).length = 1 ∧ t.reads.length = 2 ∧ DeviceLoads devicePages t := by
  have h := device_loads_read_once devicePages cleared deviceRun environment_deviceRun
  rw [run_deviceRun] at h ⊢
  exact ⟨by decide +kernel, by decide +kernel, by decide +kernel, by decide +kernel, h⟩

end Cva6.DataSide
