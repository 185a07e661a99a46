import Cva6.Core.Operands
import Cva6.DataSide.Tracked
/-!
# Requests and their slots

Every request in the load-store unit belongs to a slot of the scoreboard that has not been
written back, and every store in the speculative queue to one that has. The requests are
distinct, and the stores are in the order of their slots, so that the commit stage always
commits the oldest store of the queue.
-/

namespace Cva6.DataSide

open Cva6.Sync Cva6.Issue Cva6.Lsu

def posted (t : Tracked) : List Item := t.path.lsu.record.speculative

/-- The requests whose slots have not been written back. -/
def unwritten (t : Tracked) : List Item :=
  t.piped.toList ++ t.path.outstanding.toList ++ t.path.lsu.record.unit.toList ++
    present t.path.lsu

def slot (t : Tracked) (e : Item) : Scoreboard.Slot := t.hw.core.sb.mem e.2.transId

def ageOf (t : Tracked) (e : Item) : Nat := Scoreboard.age t.hw.core.sb e.2.transId

structure Holds (t : Tracked) (e : Item) : Prop where
  issued : (slot t e).issued = true
  fu : (slot t e).sbe.fu = e.2.fu
  op : (slot t e).sbe.op = e.2.operator
  ex : (slot t e).sbe.ex.valid = false
  req : reqNow t e.2.transId = e.2
  unit : e.2.fu = .LOAD ∨ e.2.fu = .STORE

/-- What holds of the core whatever its units do. -/
structure CoreOk (s : Core.State) : Prop where
  ok : Scoreboard.Ok s.sb
  ctrl : s.be.ctrl = Controller.reset
  fence : ∀ n, isFence (s.sb.mem n).sbe.op = true → (s.sb.mem n).sbe.fu = .CSR
  amo : ∀ n, isAmo (s.sb.mem n).sbe.op = true → (s.sb.mem n).sbe.fu = .STORE

structure Linked (t : Tracked) : Prop where
  core : CoreOk t.hw.core
  agrees : Agrees t
  path : PathOk t.path
  unit_state : t.hw.core.st.unit.state = .VALID_STORE ↔ t.path.lsu.record.unit.isSome = true
  unit_id : ∀ e ∈ t.path.lsu.record.unit,
    t.hw.core.st.unit.transId = e.2.transId ∧ e.2.fu = .STORE
  holds : ∀ e ∈ posted t ++ unwritten t, Holds t e
  awaiting : ∀ e ∈ unwritten t, (slot t e).sbe.valid = false
  written : ∀ e ∈ posted t, (slot t e).sbe.valid = true ∧ e.2.fu = .STORE ∧
    isAmo e.2.operator = false
  nodup : ((posted t ++ unwritten t).map fun e => e.2.transId).Nodup
  ordered : (posted t ++ t.path.lsu.record.unit.toList ++ present t.path.lsu).Pairwise
    fun e e' => ageOf t e < ageOf t e'
  piped : ∀ e ∈ t.piped, t.hw.loadPipe.valid = true ∧ t.hw.loadPipe.transId = e.2.transId ∧
    e.2.fu = .LOAD
  /-- What the output register still holds of a flushed load comes out at once. -/
  loadPipe : t.hw.loadPipe.ex.valid = false ∧ (t.hw.loadPipe.valid = true →
    t.piped.isSome = true ∨ t.hw.core.sb.issueCnt = 0)
  stores : ∀ n, (t.hw.core.sb.mem n).sbe.valid = true → (t.hw.core.sb.mem n).sbe.fu = .STORE →
    isAmo (t.hw.core.sb.mem n).sbe.op = false → (t.hw.core.sb.mem n).sbe.ex.valid = false →
    ∃ e ∈ posted t, e.2.transId = n

/-- The other functional units do not write back loads and stores. What is left of flushed
transactions may come out while the scoreboard is empty. -/
def UnitsKeep (t : Tracked) (i : Input) : Prop :=
  ∀ p ∈ i.core.wb, p.valid = true → t.hw.core.sb.issueCnt = 0 ∨
    (t.hw.core.sb.mem p.transId).sbe.fu ≠ .LOAD ∧ (t.hw.core.sb.mem p.transId).sbe.fu ≠ .STORE

variable {cfg : Dcache.Cfg} {z : Dcache.Start} {t : Tracked} {i : Input}

/-! ## The core -/

theorem coreOk_init : CoreOk Core.core.init where
  ok := Scoreboard.reset_ok
  ctrl := rfl
  fence := by simp [Core.core, Scoreboard.reset, isFence, default]
  amo := by simp [Core.core, Scoreboard.reset, isAmo, default]

theorem CoreOk.next {s : Core.State} {j : Core.Input} (h : CoreOk s) :
    CoreOk (Core.core.next s j) := by
  have hsound := Decoder.instructionO_sound j.fetch
  let p (e : ScoreboardEntry) : Prop :=
    (isFence e.op = true → e.fu = .CSR) ∧ (isAmo e.op = true → e.fu = .STORE)
  have hp (e : ScoreboardEntry) : p e = p (Scoreboard.decodedFields e) := rfl
  have hkinds (n : TransId) : p ((Core.core.next s j).sb.mem n).sbe := by
    show p (Scoreboard.issueFifo s.sb (Core.sbIn s j) n).sbe
    rw [hp, Scoreboard.issueFifo_decodedFields, ← hp]
    split
    · exact ⟨hsound.fence, hsound.amo⟩
    · exact ⟨h.fence n, h.amo n⟩
  refine ⟨h.ok.next (Core.ackLegal s j), ?_, fun n => (hkinds n).1, fun n => (hkinds n).2⟩
  show Controller.next s.be.ctrl = Controller.reset
  rw [h.ctrl]
  rfl

/-! ## What a cycle does to the slots -/

abbrev sbIn (cfg : Dcache.Cfg) (s : State) (i : Input) : Scoreboard.Input :=
  Core.sbIn s.core (coreIn cfg s i)

theorem sb_next : ((tracked cfg z).next t i).hw.core.sb =
    Scoreboard.next t.hw.core.sb (sbIn cfg t.hw i) := rfl

theorem sb_flush : (sbIn cfg t.hw i).flush = (flushes cfg t.hw i).flushEx :=
  Backend.flushId_eq _ _

theorem storeOut_valid :
    (storeOut (lsu t.hw) (lsuReqIn cfg t.hw i)).valid =
      (t.hw.core.st.unit.state == .VALID_STORE) := by
  have general (state : StoreUnit.Fsm) (c : StoreUnit.ControlIn) (hex : c.exValid = false) :
      (StoreUnit.storeControl state c).valid = (state == .VALID_STORE) := by
    obtain ⟨flush, valid, instrIsAmo, stReady, dtlbHit, exValid⟩ := c
    subst hex
    cases state <;> cases flush <;> cases valid <;> cases stReady <;> cases instrIsAmo <;>
      cases dtlbHit <;> decide
  exact general _ _ rfl

def writtenNow (t : Tracked) (n : TransId) : Bool :=
  (t.hw.core.st.unit.state == .VALID_STORE && t.hw.core.st.unit.transId == n) ||
    (t.hw.loadPipe.valid && t.hw.loadPipe.transId == n)

theorem Linked.count_ne_zero (h : Linked t) {n : TransId}
    (hn : (t.hw.core.sb.mem n).issued = true) : t.hw.core.sb.issueCnt ≠ 0 := by
  intro hzero
  obtain ⟨k, hk, -⟩ := (h.core.ok.issued_iff n).mp hn
  simp [hzero] at hk

theorem Linked.writtenNow_iff (h : Linked t) {n : TransId}
    (hn : (t.hw.core.sb.mem n).issued = true) :
    writtenNow t n = true ↔
      ∃ e ∈ t.piped.toList ++ t.path.lsu.record.unit.toList, e.2.transId = n := by
  simp only [writtenNow, Bool.or_eq_true, Bool.and_eq_true, beq_iff_eq, List.mem_append,
    Option.mem_toList]
  constructor
  · rintro (⟨hstate, hid⟩ | ⟨hv, hid⟩)
    · obtain ⟨e, he⟩ := Option.isSome_iff_exists.mp (h.unit_state.mp hstate)
      exact ⟨e, .inr he, (h.unit_id e he).1.symm.trans hid⟩
    · rcases h.loadPipe.2 hv with hp | hzero
      · obtain ⟨e, he⟩ := Option.isSome_iff_exists.mp hp
        exact ⟨e, .inl he, (h.piped e he).2.1.symm.trans hid⟩
      · exact absurd hzero (h.count_ne_zero hn)
  · rintro ⟨e, he | he, rfl⟩
    · exact .inr ⟨(h.piped e he).1, (h.piped e he).2.1⟩
    · exact .inl ⟨h.unit_state.mpr (Option.isSome_of_mem he), (h.unit_id e he).1⟩

/-- What a cycle does to the slot of a load or a store that stays in flight. -/
structure Kept (t t' : Tracked) (n : TransId) : Prop where
  issued : (t'.hw.core.sb.mem n).issued = true
  fu : (t'.hw.core.sb.mem n).sbe.fu = (t.hw.core.sb.mem n).sbe.fu
  op : (t'.hw.core.sb.mem n).sbe.op = (t.hw.core.sb.mem n).sbe.op
  ex : (t'.hw.core.sb.mem n).sbe.ex.valid = (t.hw.core.sb.mem n).sbe.ex.valid
  valid : (t'.hw.core.sb.mem n).sbe.valid =
    ((t.hw.core.sb.mem n).sbe.valid || writtenNow t n)

theorem Linked.kept (h : Linked t) (hu : UnitsKeep t i)
    (hf : (flushes cfg t.hw i).flushEx = false) {n : TransId}
    (hn : (t.hw.core.sb.mem n).issued = true)
    (hfu : (t.hw.core.sb.mem n).sbe.fu = .LOAD ∨ (t.hw.core.sb.mem n).sbe.fu = .STORE)
    (hack : Scoreboard.ackedSlot t.hw.core.sb (sbIn cfg t.hw i) n = false) :
    Kept t ((tracked cfg z).next t i) n := by
  let q := t.hw.core.sb
  let j := sbIn cfg t.hw i
  let p0 : Scoreboard.WbPort := ⟨t.hw.core.st.unit.transId, 0, mmuException,
    (storeOut (lsu t.hw) (lsuReqIn cfg t.hw i)).valid⟩
  let p1 : Scoreboard.WbPort :=
    ⟨t.hw.loadPipe.transId, t.hw.loadPipe.result, t.hw.loadPipe.ex, t.hw.loadPipe.valid⟩
  have hnone : ((q.mem n).sbe.fu == .NONE) = false := by
    rcases hfu with hfu | hfu <;> simp [q, hfu]
  have hothers : ∀ p ∈ i.core.wb, p.valid = true → p.transId ≠ n := by
    rintro p hp hv rfl
    rcases hu p hp hv with hzero | ⟨hl, hs⟩
    · exact h.count_ne_zero hn hzero
    · exact hfu.elim hl hs
  have hmem : ((tracked cfg z).next t i).hw.core.sb.mem n =
      Scoreboard.writeBack q j n (Scoreboard.writeBack q j n (q.mem n) p0) p1 := by
    show Scoreboard.issueFifo q j n = _
    rw [h.core.ok.issueFifo_staying hn (sb_flush.trans hf) hack, hnone, if_neg Bool.false_ne_true]
    show (lsuWb cfg t.hw i ++ i.core.wb).foldl _ _ = _
    rw [List.foldl_append, Scoreboard.foldl_writeBack_of_no_port hothers]
    rfl
  have hfields := (Scoreboard.writeBack_decodedFields q j n
    (Scoreboard.writeBack q j n (q.mem n) p0) p1).trans
    (Scoreboard.writeBack_decodedFields q j n (q.mem n) p0)
  obtain ⟨⟨hfu', hop', -⟩, -⟩ := Scoreboard.decodedFields_eq hfields
  have h0 := Scoreboard.writeBack_of_no_ex (q := q) (i := j) (n := n) (s := q.mem n)
    (p := p0) rfl
  have h1 := Scoreboard.writeBack_of_no_ex (q := q) (i := j) (n := n)
    (s := Scoreboard.writeBack q j n (q.mem n) p0) (p := p1) h.loadPipe.1
  refine ⟨?_, ?_, ?_, ?_, ?_⟩
  · rw [hmem, Scoreboard.writeBack_issued, Scoreboard.writeBack_issued]
    exact hn
  · rw [hmem]
    exact hfu'
  · rw [hmem]
    exact hop'
  · rw [hmem, h1.1, h0.1]
  · have hp0 : p0.valid = (t.hw.core.st.unit.state == .VALID_STORE) := storeOut_valid
    rw [hmem, h1.2, h0.2, hp0, show (q.mem n).issued = true from hn, writtenNow, Bool.and_true,
      Bool.and_true, Bool.or_assoc]

structure Issued (cfg : Dcache.Cfg) (t t' : Tracked) (i : Input) : Prop where
  flush : (flushes cfg t.hw i).flushEx = false
  issueEn : Scoreboard.issueEn t.hw.core.sb (sbIn cfg t.hw i) = true
  transId : t'.hw.core.iro.transId = t.hw.core.sb.issuePointer
  issued : (t'.hw.core.sb.mem t.hw.core.sb.issuePointer).issued = true
  fu : (t'.hw.core.sb.mem t.hw.core.sb.issuePointer).sbe.fu = t'.hw.core.iro.fu
  op : (t'.hw.core.sb.mem t.hw.core.sb.issuePointer).sbe.op = t'.hw.core.iro.operator
  ex : (t'.hw.core.sb.mem t.hw.core.sb.issuePointer).sbe.ex.valid = false
  valid : (t'.hw.core.sb.mem t.hw.core.sb.issuePointer).sbe.valid = false
  unit : t'.hw.core.iro.fu = .LOAD ∨ t'.hw.core.iro.fu = .STORE

theorem CoreOk.issued (h : CoreOk t.hw.core)
    (hv : ((tracked cfg z).next t i).hw.core.iro.lsuValid = true) :
    Issued cfg t ((tracked cfg z).next t i) i := by
  let q := t.hw.core.sb
  let j := sbIn cfg t.hw i
  let r := Core.iroIn t.hw.core (coreIn cfg t.hw i)
  have hv : (!r.issueInstr.ex.valid && r.issueInstrValid &&
    ReadOperands.issueAck t.hw.core.iro r && !r.flush &&
      (r.issueInstr.fu == .LOAD || r.issueInstr.fu == .STORE)) = true := hv
  simp only [Bool.and_eq_true, Bool.not_eq_true', Bool.or_eq_true, beq_iff_eq] at hv
  obtain ⟨⟨⟨⟨hex, hvalid⟩, hissue⟩, hunissued⟩, hunit⟩ := hv
  have hvalid : (j.decodedInstrValid && !Scoreboard.issueFull q) = true := hvalid
  rw [Bool.and_eq_true] at hvalid
  have hflush : (flushes cfg t.hw i).flushEx = false := by
    by_contra hne
    have hall : r.flush = true := flushUnissued_of_flushEx (Bool.not_eq_false _ ▸ hne)
    rw [hunissued] at hall
    cases hall
  have hen : Scoreboard.issueEn q j = true := by
    have hissue : j.issueAck = true := hissue
    have hunissued : j.flushUnissuedInstr = false := hunissued
    rw [Scoreboard.issueEn, Scoreboard.decodedInstrAck, hvalid.1, hvalid.2, hissue, hunissued]
    rfl
  have hnew : ((tracked cfg z).next t i).hw.core.sb.mem q.issuePointer =
      ⟨true, isRdFpr j.decodedInstr.op, j.decodedInstr⟩ :=
    h.ok.issueFifo_new (Core.ackLegal _ _) (sb_flush.trans hflush) hen
  refine ⟨hflush, hen, rfl, ?_, ?_, ?_, ?_, ?_, hunit⟩ <;> rw [hnew]
  · rfl
  · rfl
  · exact hex
  · exact hex

/-! ## What is acknowledged -/

abbrev port0 (t : Tracked) : ScoreboardEntry := (t.hw.core.sb.mem t.hw.core.sb.commitPointer0).sbe

theorem CoreOk.not_fence (h : CoreOk t.hw.core) (hfu : (port0 t).fu ≠ .CSR) :
    isFence (port0 t).op = false := by
  by_contra hfence
  exact hfu (h.fence _ (Bool.not_eq_false _ ▸ hfence))

theorem CoreOk.not_amo (h : CoreOk t.hw.core) (hfu : (port0 t).fu ≠ .STORE) :
    isAmo (port0 t).op = false := by
  by_contra hamo
  exact hfu (h.amo _ (Bool.not_eq_false _ ▸ hamo))

theorem of_commitLsu (hc : (out cfg t.hw i).commitLsu = true) :
    (port0 t).valid = true ∧ (port0 t).ex.valid = false ∧ (port0 t).fu = .STORE ∧
      isAmo (port0 t).op = false ∧ StoreBuffer.commitReady t.hw.core.st.buffer = true := by
  have hc : (Commit.commit (Backend.commitInput t.hw.core.be
    (Core.backendIn t.hw.core (coreIn cfg t.hw i)))).commitLsu = true := hc
  rw [Commit.commit_commitLsu] at hc
  simp only [Bool.and_eq_true, beq_iff_eq, Bool.not_eq_true'] at hc
  obtain ⟨⟨⟨hret, hfu⟩, hamo⟩, hready⟩ := hc
  obtain ⟨hv, hex⟩ := Core.port0_of_retiring (i := coreIn cfg t.hw i) hret
  exact ⟨hv, hex, hfu, hamo, hready⟩

/-- The store that is committed is the oldest one in the speculative queue. -/
theorem Linked.commit_head (h : Linked t) (hc : (out cfg t.hw i).commitLsu = true) :
    ∃ e rest, posted t = e :: rest ∧ e.2.transId = t.hw.core.sb.commitPointer0 := by
  obtain ⟨hv, hex, hfu, hamo, -⟩ := of_commitLsu hc
  obtain ⟨e, he, hid⟩ := h.stores _ hv hfu hamo hex
  have hage : ageOf t e = 0 := by
    rw [ageOf, hid]
    exact Scoreboard.age_commitPointer0 _
  have hord := (List.pairwise_append.mp (List.pairwise_append.mp h.ordered).1).1
  cases hp : posted t with
  | nil => simp [hp] at he
  | cons e' rest =>
      rw [hp] at he hord
      rcases List.mem_cons.mp he with rfl | he
      · exact ⟨e, rest, rfl, hid⟩
      · have := (List.pairwise_cons.mp hord).1 e he
        omega

theorem Linked.not_acked (h : Linked t) {e : Item} (he : e ∈ unwritten t) :
    Scoreboard.ackedSlot t.hw.core.sb (sbIn cfg t.hw i) e.2.transId = false := by
  by_contra hne
  have hv := (Core.ackLegal t.hw.core (coreIn cfg t.hw i)).valid_of_ackedSlot
    (Bool.not_eq_false _ ▸ hne)
  have hv : (slot t e).sbe.valid = true := hv
  rw [h.awaiting e he] at hv
  cases hv

theorem Linked.not_acked_posted (h : Linked t) {e : Item}
    (he : e ∈ uncommitted t.path.lsu (Lsu.lsuIn cfg.nonIdempotent t.path (pathIn cfg t.hw i))) :
    Scoreboard.ackedSlot t.hw.core.sb (sbIn cfg t.hw i) e.2.transId = false := by
  have he : e ∈ if (out cfg t.hw i).commitLsu then (posted t).tail else posted t := he
  have hmem : e ∈ posted t := by
    split_ifs at he
    · exact List.mem_of_mem_tail he
    · exact he
  obtain ⟨hvalid, hstore, hamo⟩ := h.written e hmem
  have hholds := h.holds e (List.mem_append_left _ hmem)
  by_contra hne
  simp only [Bool.not_eq_false, Scoreboard.ackedSlot, Bool.or_eq_true, Bool.and_eq_true,
    beq_iff_eq] at hne
  rcases hne with ⟨hack, hid⟩ | ⟨hack, hid⟩
  · -- an acknowledged store is committed, and then it is the first of the queue
    have hfu : (Core.port0 t.hw.core).fu = .STORE := by
      show (port0 t).fu = .STORE
      rw [port0, ← hid]
      exact hholds.fu.trans hstore
    have hop : isAmo (Core.port0 t.hw.core).op = false := by
      show isAmo (port0 t).op = false
      rw [port0, ← hid]
      exact (congrArg isAmo hholds.op).trans hamo
    have hnf : isFence (Core.port0 t.hw.core).op = false := by
      refine h.core.not_fence ?_
      have hfu : (port0 t).fu = .STORE := hfu
      simp [hfu]
    have hack : Core.ack0 t.hw.core (coreIn cfg t.hw i) = true := hack
    rw [Core.ack0_eq (by rw [h.core.ctrl]; rfl), hop, hnf, hfu, Bool.and_eq_true] at hack
    have hc : (out cfg t.hw i).commitLsu = true := by
      show (Commit.commit (Backend.commitInput t.hw.core.be
        (Core.backendIn t.hw.core (coreIn cfg t.hw i)))).commitLsu = true
      rw [Commit.commit_commitLsu]
      show (Backend.retiring t.hw.core.be (Core.backendIn t.hw.core (coreIn cfg t.hw i)) &&
        (Core.port0 t.hw.core).fu == .STORE && !isAmo (Core.port0 t.hw.core).op &&
        (Core.backendIn t.hw.core (coreIn cfg t.hw i)).commitLsuReady) = true
      have hready : (Core.backendIn t.hw.core (coreIn cfg t.hw i)).commitLsuReady = true := hack.2
      rw [hack.1, hfu, hop, hready]
      rfl
    obtain ⟨e', rest, hp, hid'⟩ := h.commit_head hc
    rw [hc, if_pos rfl, hp, List.tail_cons] at he
    have hnodup := h.nodup
    rw [hp] at hnodup
    simp only [List.cons_append, List.map_cons, List.nodup_cons, List.mem_map, not_exists,
      not_and] at hnodup
    exact hnodup.1 e (List.mem_append_left _ he) (hid.trans hid'.symm)
  · have hack : Core.ack1 t.hw.core (coreIn cfg t.hw i) = true := hack
    obtain ⟨-, -, -, -, -, hport⟩ := Core.of_ack1 hack
    have hfu : (Core.port1 t.hw.core).fu = .STORE := by
      show (t.hw.core.sb.mem t.hw.core.sb.commitPointer1).sbe.fu = .STORE
      rw [← hid]
      exact hholds.fu.trans hstore
    rw [hfu] at hport
    cases hport

/-! ## What stays -/

abbrev pathLsuIn (cfg : Dcache.Cfg) (t : Tracked) (i : Input) : Lsu.Input :=
  Lsu.lsuIn cfg.nonIdempotent t.path (pathIn cfg t.hw i)

def staying (cfg : Dcache.Cfg) (t : Tracked) (i : Input) : List Item :=
  uncommitted t.path.lsu (pathLsuIn cfg t i) ++ posting t.path.lsu ++
    (t.path.outstanding.toList ++ present t.path.lsu)

theorem nothing_of_flush (hf : (flushes cfg t.hw i).flushEx = true) :
    posted ((tracked cfg z).next t i) = [] ∧ unwritten ((tracked cfg z).next t i) = [] ∧
      ((tracked cfg z).next t i).path.lsu.record.unit = none := by
  have hff : (pathLsuIn cfg t i).flush = true := hf
  have hpf : (pathIn cfg t.hw i).lsu.flush = true := hf
  have hvalid : ((tracked cfg z).next t i).path.lsu.hw.lsuValid = false := by
    show ((pathLsuIn cfg t i).issueValid && lsuReady t.path.lsu.hw && !(pathLsuIn cfg t i).flush &&
      _) = false
    rw [hff]
    simp
  have hunit : ((tracked cfg z).next t i).path.lsu.record.unit = none := by
    show (if StoreUnit.taken _ (Lsu.storeIn t.path.lsu.hw (pathLsuIn cfg t i)) then _ else none) = none
    have hfst : (Lsu.storeIn t.path.lsu.hw (pathLsuIn cfg t i)).flush = true := hff
    rw [StoreUnit.taken, hfst]
    simp
  refine ⟨?_, ?_, hunit⟩
  · show (if (pathLsuIn cfg t i).flush then [] else _) = []
    rw [hff]
    rfl
  · have hwaiting : ((tracked cfg z).next t i).path.lsu.record.waiting = [] := by
      show (if (pathLsuIn cfg t i).flush then [] else _) = []
      rw [hff]
      rfl
    have hout : ((tracked cfg z).next t i).path.outstanding = none := by
      show (if (pathIn cfg t.hw i).lsu.flush then none else _) = none
      rw [hpf]
      rfl
    have hpiped : ((tracked cfg z).next t i).piped = none := by
      show (if (flushes cfg t.hw i).flushEx then none else _) = none
      rw [hf]
      rfl
    rw [unwritten, hpiped, hout, hunit, present, hwaiting, arriving, hvalid]
    rfl

theorem Linked.inflight_next (h : Linked t) (hf : (flushes cfg t.hw i).flushEx = false) :
    posted ((tracked cfg z).next t i) =
        uncommitted t.path.lsu (pathLsuIn cfg t i) ++ posting t.path.lsu ∧
      unwritten ((tracked cfg z).next t i) = t.path.outstanding.toList ++ present t.path.lsu ++
        arriving ((tracked cfg z).next t i).path.lsu := by
  have hff : (pathLsuIn cfg t i).flush = false := hf
  have hpiped : ((tracked cfg z).next t i).piped =
      if ldValidO cfg.nonIdempotent t.path (pathIn cfg t.hw i) then t.path.outstanding
      else none := by
    show (if (flushes cfg t.hw i).flushEx then none else _) = _
    rw [hf]
    rfl
  constructor
  · show (if (pathLsuIn cfg t i).flush then [] else _) = _
    rw [hff]
    rfl
  · rw [← h.path.moved cfg.nonIdempotent (i := pathIn cfg t.hw i) hf, unwritten, hpiped,
      present, ← List.append_assoc]
    rfl

theorem Linked.mem_inflight_next (h : Linked t) (hf : (flushes cfg t.hw i).flushEx = false)
    {e : Item} (he : e ∈ posted ((tracked cfg z).next t i) ++ unwritten ((tracked cfg z).next t i)) :
    e ∈ staying cfg t i ∨ e ∈ arriving ((tracked cfg z).next t i).path.lsu := by
  rw [(h.inflight_next hf).1, (h.inflight_next hf).2, ← List.append_assoc, List.mem_append] at he
  exact he

theorem mem_posted_of_uncommitted {e : Item} {j : Lsu.Input}
    (he : e ∈ uncommitted t.path.lsu j) : e ∈ posted t := by
  unfold uncommitted at he
  split_ifs at he
  · exact List.mem_of_mem_tail he
  · exact he

theorem mem_unwritten_of_piped {e : Item} (he : e ∈ t.piped.toList) : e ∈ unwritten t :=
  List.mem_append_left _ (List.mem_append_left _ (List.mem_append_left _ he))

theorem mem_unwritten_of_unit {e : Item} (he : e ∈ t.path.lsu.record.unit.toList) :
    e ∈ unwritten t :=
  List.mem_append_left _ (List.mem_append_right _ he)

theorem mem_unwritten_of_behind {e : Item}
    (he : e ∈ t.path.outstanding.toList ++ present t.path.lsu) : e ∈ unwritten t := by
  rcases List.mem_append.mp he with he | he
  · exact List.mem_append_left _ (List.mem_append_left _ (List.mem_append_right _ he))
  · exact List.mem_append_right _ he

theorem Linked.of_staying (h : Linked t) {e : Item} (he : e ∈ staying cfg t i) :
    e ∈ posted t ++ unwritten t ∧
      Scoreboard.ackedSlot t.hw.core.sb (sbIn cfg t.hw i) e.2.transId = false := by
  rcases List.mem_append.mp he with he | he
  · rcases List.mem_append.mp he with he | he
    · exact ⟨List.mem_append_left _ (mem_posted_of_uncommitted he), h.not_acked_posted he⟩
    · have hmem := mem_unwritten_of_unit (List.mem_filter.mp he).1
      exact ⟨List.mem_append_right _ hmem, h.not_acked hmem⟩
  · have hmem := mem_unwritten_of_behind he
    exact ⟨List.mem_append_right _ hmem, h.not_acked hmem⟩

theorem Linked.kept_of_staying (h : Linked t) (hu : UnitsKeep t i)
    (hf : (flushes cfg t.hw i).flushEx = false) {e : Item} (he : e ∈ staying cfg t i) :
    Kept t ((tracked cfg z).next t i) e.2.transId := by
  obtain ⟨hmem, hack⟩ := h.of_staying he
  have hholds := h.holds e hmem
  refine h.kept hu hf hholds.issued ?_ hack
  have hfu : (t.hw.core.sb.mem e.2.transId).sbe.fu = e.2.fu := hholds.fu
  rw [hfu]
  exact hholds.unit

/-! ## One cycle -/

theorem Linked.ne_issuePointer (h : Linked t) {n : TransId}
    (hn : (t.hw.core.sb.mem n).issued = true) : n ≠ t.hw.core.sb.issuePointer := by
  rintro rfl
  rw [h.core.ok.issuePointer_free] at hn
  cases hn

theorem reqNow_next {n : TransId} (hn : n ≠ t.hw.core.sb.issuePointer) :
    reqNow ((tracked cfg z).next t i) n = reqNow t n := by
  have hid : ((tracked cfg z).next t i).hw.core.iro.transId = t.hw.core.sb.issuePointer := rfl
  have hne : (n == ((tracked cfg z).next t i).hw.core.iro.transId) = false := by
    rw [hid]
    exact beq_eq_false_iff_ne.mpr hn
  rw [reqNow, hne, Bool.and_false]
  rfl

theorem Agrees.store (h : Agrees t) : t.path.lsu.hw.store = t.hw.core.st :=
  congrArg Lsu.State.store h.lsu

theorem Agrees.mem_arriving (h : Agrees t) {e : Item} (he : e ∈ arriving t.path.lsu) :
    t.hw.core.iro.lsuValid = true ∧ e.2 = lsuReq t.hw.core.iro.lsuValid (fuData t.hw.core.iro) := by
  unfold arriving at he
  rw [h.lsu] at he
  split_ifs at he with hv
  · rw [List.mem_singleton] at he
    exact ⟨hv, by rw [he]; rfl⟩
  · cases he

theorem Linked.holds_next (h : Linked t) (hu : UnitsKeep t i) (e : Item)
    (he : e ∈ posted ((tracked cfg z).next t i) ++ unwritten ((tracked cfg z).next t i)) :
    Holds ((tracked cfg z).next t i) e := by
  cases hf : (flushes cfg t.hw i).flushEx with
  | true =>
      obtain ⟨hposted, hunwritten, -⟩ := nothing_of_flush (z := z) hf
      rw [hposted, hunwritten] at he
      cases he
  | false =>
      rcases h.mem_inflight_next hf he with he | he
      · have hkept := h.kept_of_staying (z := z) hu hf he
        have hold := h.holds e (h.of_staying he).1
        exact ⟨hkept.issued, hkept.fu.trans hold.fu, hkept.op.trans hold.op,
          hkept.ex.trans hold.ex, (reqNow_next (h.ne_issuePointer hold.issued)).trans hold.req,
          hold.unit⟩
      · obtain ⟨hv, heq⟩ := h.agrees.next.mem_arriving he
        have hnew := h.core.issued hv
        have hid : e.2.transId = t.hw.core.sb.issuePointer := by
          rw [heq]
          rfl
        refine ⟨?_, ?_, ?_, ?_, ?_, ?_⟩
        · rw [slot, hid]
          exact hnew.issued
        · rw [slot, hid, heq]
          exact hnew.fu
        · rw [slot, hid, heq]
          exact hnew.op
        · rw [slot, hid]
          exact hnew.ex
        · have hsame : (e.2.transId == ((tracked cfg z).next t i).hw.core.iro.transId) = true := by
            rw [heq]
            exact beq_self_eq_true _
          rw [reqNow, hv, hsame, heq, hv]
          rfl
        · rw [heq]
          exact hnew.unit

theorem Linked.nodup_parts (h : Linked t) :
    (((posted t ++ t.path.lsu.record.unit.toList) ++ t.piped.toList ++
      (t.path.outstanding.toList ++ present t.path.lsu)).map fun e => e.2.transId).Nodup := by
  have hmove (a b c d : List Item) : (a ++ (b ++ (c ++ d))).Perm (c ++ (a ++ (b ++ d))) := by
    have hcomm : ((a ++ b) ++ c).Perm (c ++ (a ++ b)) := List.perm_append_comm
    simpa only [List.append_assoc] using hcomm.append_right d
  refine (List.Perm.nodup_iff (List.Perm.map _ ?_)).mp h.nodup
  simp only [unwritten, List.append_assoc]
  exact List.Perm.append_left _ (hmove _ _ _ _)

theorem Linked.not_writtenNow (h : Linked t) {e : Item}
    (he : e ∈ t.path.outstanding.toList ++ present t.path.lsu) :
    writtenNow t e.2.transId = false := by
  have hholds := h.holds e (List.mem_append_right _ (mem_unwritten_of_behind he))
  by_contra hne
  obtain ⟨e', he', hid⟩ := (h.writtenNow_iff hholds.issued).mp (Bool.not_eq_false _ ▸ hne)
  have hnodup := h.nodup_parts
  rw [List.map_append, List.nodup_append] at hnodup
  refine hnodup.2.2 _ (List.mem_map_of_mem ?_) _ (List.mem_map_of_mem he) hid
  rcases List.mem_append.mp he' with he' | he'
  · exact List.mem_append_right _ he'
  · exact List.mem_append_left _ (List.mem_append_right _ he')

theorem Linked.awaiting_next (h : Linked t) (hu : UnitsKeep t i) (e : Item)
    (he : e ∈ unwritten ((tracked cfg z).next t i)) :
    (slot ((tracked cfg z).next t i) e).sbe.valid = false := by
  cases hf : (flushes cfg t.hw i).flushEx with
  | true =>
      rw [(nothing_of_flush (z := z) hf).2.1] at he
      cases he
  | false =>
      rw [(h.inflight_next hf).2] at he
      rcases List.mem_append.mp he with he | he
      · have hkept := h.kept_of_staying (z := z) hu hf (List.mem_append_right _ he)
        have hold : (t.hw.core.sb.mem e.2.transId).sbe.valid = false :=
          h.awaiting e (mem_unwritten_of_behind he)
        rw [slot, hkept.valid, hold, h.not_writtenNow he]
        rfl
      · obtain ⟨hv, heq⟩ := h.agrees.next.mem_arriving he
        have hid : e.2.transId = t.hw.core.sb.issuePointer := by
          rw [heq]
          rfl
        rw [slot, hid]
        exact (h.core.issued hv).valid

theorem Linked.written_next (h : Linked t) (hu : UnitsKeep t i) (e : Item)
    (he : e ∈ posted ((tracked cfg z).next t i)) :
    (slot ((tracked cfg z).next t i) e).sbe.valid = true ∧ e.2.fu = .STORE ∧
      isAmo e.2.operator = false := by
  cases hf : (flushes cfg t.hw i).flushEx with
  | true =>
      rw [(nothing_of_flush (z := z) hf).1] at he
      cases he
  | false =>
      rw [(h.inflight_next hf).1] at he
      have hkept := h.kept_of_staying (z := z) hu hf (List.mem_append_left _ he)
      rw [slot, hkept.valid]
      rcases List.mem_append.mp he with he | he
      · have hold := h.written e (mem_posted_of_uncommitted he)
        have hvalid : (t.hw.core.sb.mem e.2.transId).sbe.valid = true := hold.1
        rw [hvalid]
        exact ⟨rfl, hold.2⟩
      · obtain ⟨hunit, hamo⟩ := List.mem_filter.mp he
        have hholds := h.holds e (List.mem_append_right _ (mem_unwritten_of_unit hunit))
        have hnow : writtenNow t e.2.transId = true :=
          (h.writtenNow_iff hholds.issued).mpr ⟨e, List.mem_append_right _ hunit, rfl⟩
        rw [hnow, Bool.or_true]
        exact ⟨rfl, (h.unit_id e (Option.mem_toList.mp hunit)).2, by simpa using hamo⟩

theorem posted_sublist {j : Lsu.Input} :
    (uncommitted t.path.lsu j ++ posting t.path.lsu).Sublist
      (posted t ++ t.path.lsu.record.unit.toList) := by
  refine List.Sublist.append ?_ List.filter_sublist
  unfold uncommitted
  split_ifs
  · exact List.tail_sublist _
  · exact List.Sublist.refl _

theorem Linked.arriving_fresh (h : Linked t) {e e' : Item} (he : e ∈ staying cfg t i)
    (he' : e' ∈ arriving ((tracked cfg z).next t i).path.lsu) :
    e'.2.transId = t.hw.core.sb.issuePointer ∧ e.2.transId ≠ e'.2.transId := by
  obtain ⟨-, heq⟩ := h.agrees.next.mem_arriving he'
  have hid : e'.2.transId = t.hw.core.sb.issuePointer := by
    rw [heq]
    rfl
  refine ⟨hid, ?_⟩
  rw [hid]
  exact h.ne_issuePointer (h.holds e (h.of_staying he).1).issued

theorem arriving_nodup (t : Lsu.Tracked) : ((arriving t).map fun e => e.2.transId).Nodup := by
  unfold arriving
  split_ifs <;> simp

theorem Linked.nodup_next (h : Linked t) :
    ((posted ((tracked cfg z).next t i) ++ unwritten ((tracked cfg z).next t i)).map
      fun e => e.2.transId).Nodup := by
  cases hf : (flushes cfg t.hw i).flushEx with
  | true =>
      obtain ⟨hposted, hunwritten, -⟩ := nothing_of_flush (z := z) hf
      rw [hposted, hunwritten]
      exact List.nodup_nil
  | false =>
      rw [(h.inflight_next hf).1, (h.inflight_next hf).2, ← List.append_assoc, List.map_append,
        List.nodup_append]
      refine ⟨?_, arriving_nodup _, ?_⟩
      · refine h.nodup_parts.sublist (List.Sublist.map _ ?_)
        refine List.Sublist.append ?_ (List.Sublist.refl _)
        exact posted_sublist.trans (List.sublist_append_left _ _)
      · intro n hn m hm
        obtain ⟨e, he, rfl⟩ := List.mem_map.mp hn
        obtain ⟨e', he', rfl⟩ := List.mem_map.mp hm
        exact (h.arriving_fresh he he').2

theorem Linked.age_next (h : Linked t) (hf : (flushes cfg t.hw i).flushEx = false) {e : Item}
    (he : e ∈ staying cfg t i) :
    ageOf t e = Scoreboard.acks (sbIn cfg t.hw i).commitAck +
      ageOf ((tracked cfg z).next t i) e := by
  obtain ⟨hmem, hack⟩ := h.of_staying he
  exact h.core.ok.age_next (Core.ackLegal _ _) (sb_flush.trans hf) (h.holds e hmem).issued hack

theorem Linked.age_lt_arriving (h : Linked t) (hf : (flushes cfg t.hw i).flushEx = false)
    {e e' : Item} (he : e ∈ staying cfg t i)
    (he' : e' ∈ arriving ((tracked cfg z).next t i).path.lsu) :
    ageOf ((tracked cfg z).next t i) e < ageOf ((tracked cfg z).next t i) e' := by
  obtain ⟨hmem, hack⟩ := h.of_staying he
  rw [ageOf, ageOf, (h.arriving_fresh he he').1]
  exact h.core.ok.age_lt_new (Core.ackLegal _ _) (sb_flush.trans hf) (h.holds e hmem).issued hack

theorem Linked.ordered_next (h : Linked t) :
    (posted ((tracked cfg z).next t i) ++
      ((tracked cfg z).next t i).path.lsu.record.unit.toList ++
      present ((tracked cfg z).next t i).path.lsu).Pairwise
        fun e e' => ageOf ((tracked cfg z).next t i) e < ageOf ((tracked cfg z).next t i) e' := by
  cases hf : (flushes cfg t.hw i).flushEx with
  | true =>
      obtain ⟨hposted, hunwritten, hunit⟩ := nothing_of_flush (z := z) hf
      have hpresent : present ((tracked cfg z).next t i).path.lsu = [] :=
        (List.append_eq_nil_iff.mp hunwritten).2
      rw [hposted, hunit, hpresent]
      exact List.Pairwise.nil
  | false =>
      let old := uncommitted t.path.lsu (pathLsuIn cfg t i) ++ posting t.path.lsu ++
        (((tracked cfg z).next t i).path.lsu.record.unit.toList ++
          ((tracked cfg z).next t i).path.lsu.record.waiting)
      have hsub : (((tracked cfg z).next t i).path.lsu.record.unit.toList ++
          ((tracked cfg z).next t i).path.lsu.record.waiting).Sublist (present t.path.lsu) :=
        h.path.queue.unit_waiting_sublist
      have hstay : ∀ e ∈ old, e ∈ staying cfg t i := by
        intro e he
        rcases List.mem_append.mp he with he | he
        · exact List.mem_append_left _ he
        · exact List.mem_append_right _ (List.mem_append_right _ (hsub.subset he))
      have hold : old.Pairwise fun e e' =>
          ageOf ((tracked cfg z).next t i) e < ageOf ((tracked cfg z).next t i) e' := by
        refine List.Pairwise.imp_of_mem ?_ (h.ordered.sublist (posted_sublist.append hsub))
        intro e e' he he' hlt
        have hage := h.age_next (z := z) hf (hstay e he)
        have hage' := h.age_next (z := z) hf (hstay e' he')
        omega
      have hall : posted ((tracked cfg z).next t i) ++
          ((tracked cfg z).next t i).path.lsu.record.unit.toList ++
          present ((tracked cfg z).next t i).path.lsu =
            old ++ arriving ((tracked cfg z).next t i).path.lsu := by
        rw [(h.inflight_next hf).1, present]
        simp only [old, List.append_assoc]
      rw [hall, List.pairwise_append]
      refine ⟨hold, ?_, fun e he e' he' => h.age_lt_arriving hf (hstay e he) he'⟩
      unfold arriving
      split_ifs <;> simp

theorem CoreOk.ack0_of_commitLsu (h : CoreOk t.hw.core)
    (hc : (out cfg t.hw i).commitLsu = true) : (out cfg t.hw i).commitAck.ack0 = true := by
  obtain ⟨-, -, hfu, hamo, hready⟩ := of_commitLsu hc
  have hc : (Commit.commit (Backend.commitInput t.hw.core.be
    (Core.backendIn t.hw.core (coreIn cfg t.hw i)))).commitLsu = true := hc
  rw [Commit.commit_commitLsu] at hc
  simp only [Bool.and_eq_true] at hc
  have hret : Backend.retiring t.hw.core.be (Core.backendIn t.hw.core (coreIn cfg t.hw i)) = true :=
    hc.1.1.1
  have hnf : isFence (port0 t).op = false := h.not_fence (by simp [hfu])
  show Core.ack0 t.hw.core (coreIn cfg t.hw i) = true
  rw [Core.ack0_eq (by rw [h.ctrl]; rfl), hret]
  have hfu : (Core.port0 t.hw.core).fu = .STORE := hfu
  have hamo : isAmo (Core.port0 t.hw.core).op = false := hamo
  have hnf : isFence (Core.port0 t.hw.core).op = false := hnf
  have hready : (Core.backendIn t.hw.core (coreIn cfg t.hw i)).commitLsuReady = true := hready
  rw [hamo, hnf, hfu, hready]
  rfl

theorem Linked.mem_uncommitted (h : Linked t) {e : Item} (he : e ∈ posted t)
    (hack : Scoreboard.ackedSlot t.hw.core.sb (sbIn cfg t.hw i) e.2.transId = false) :
    e ∈ uncommitted t.path.lsu (pathLsuIn cfg t i) := by
  show e ∈ if (out cfg t.hw i).commitLsu then (posted t).tail else posted t
  cases hc : (out cfg t.hw i).commitLsu with
  | false => exact he
  | true =>
      obtain ⟨e', rest, hp, hid⟩ := h.commit_head hc
      rw [hp] at he ⊢
      rcases List.mem_cons.mp he with rfl | he
      · have hack0 : (sbIn cfg t.hw i).commitAck.ack0 = true := h.core.ack0_of_commitLsu hc
        simp [Scoreboard.ackedSlot, hack0, hid] at hack
      · exact he

/-- A load or a store that is complete after a cycle without a flush has been in flight, and
was complete before or is written back in this cycle. -/
theorem Linked.of_valid_next (h : Linked t) (hu : UnitsKeep t i)
    (hf : (flushes cfg t.hw i).flushEx = false) {n : TransId}
    (hv : (((tracked cfg z).next t i).hw.core.sb.mem n).sbe.valid = true)
    (hfu : (((tracked cfg z).next t i).hw.core.sb.mem n).sbe.fu = .LOAD ∨
      (((tracked cfg z).next t i).hw.core.sb.mem n).sbe.fu = .STORE)
    (hex : (((tracked cfg z).next t i).hw.core.sb.mem n).sbe.ex.valid = false) :
    (t.hw.core.sb.mem n).issued = true ∧
      Scoreboard.ackedSlot t.hw.core.sb (sbIn cfg t.hw i) n = false ∧
      Kept t ((tracked cfg z).next t i) n ∧
      ((t.hw.core.sb.mem n).sbe.valid = true ∨
        ∃ e ∈ t.piped.toList ++ t.path.lsu.record.unit.toList, e.2.transId = n) := by
  let q := t.hw.core.sb
  let j := sbIn cfg t.hw i
  have hmem : ((tracked cfg z).next t i).hw.core.sb.mem n = Scoreboard.issueFifo q j n := rfl
  have hsf : j.flush = false := sb_flush.trans hf
  have hnew : (Scoreboard.issueEn q j && n == q.issuePointer) = false := by
    by_contra hne
    rw [Bool.not_eq_false, Bool.and_eq_true, beq_iff_eq] at hne
    obtain ⟨hen, rfl⟩ := hne
    rw [hmem, h.core.ok.issueFifo_new (Core.ackLegal _ _) hsf hen] at hv hex
    -- the decoder completes exactly the instructions that trap
    have hv : (Decoder.instructionO (coreIn cfg t.hw i).fetch).ex.valid = true := hv
    have hex : (Decoder.instructionO (coreIn cfg t.hw i).fetch).ex.valid = false := hex
    rw [hv] at hex
    cases hex
  have hissued : (q.mem n).issued = true ∧ Scoreboard.ackedSlot q j n = false := by
    have hi := (h.core.next (j := coreIn cfg t.hw i)).ok.valid_issued n hv
    have hi : (Scoreboard.issueFifo q j n).issued = true := hi
    rw [Scoreboard.issueFifo_issued n hsf, hnew, Bool.false_or, Bool.and_eq_true,
      Bool.not_eq_true'] at hi
    exact hi
  obtain ⟨hi, hack⟩ := hissued
  have hfields : Scoreboard.decodedFields (Scoreboard.issueFifo q j n).sbe =
      Scoreboard.decodedFields (q.mem n).sbe := by
    rw [Scoreboard.issueFifo_decodedFields, hnew]
    rfl
  have hsame : (Scoreboard.issueFifo q j n).sbe.fu = (q.mem n).sbe.fu :=
    (Scoreboard.decodedFields_eq hfields).1.1
  rw [hmem, hsame] at hfu
  have hkept := h.kept (z := z) hu hf hi hfu hack
  rw [hkept.valid, Bool.or_eq_true] at hv
  exact ⟨hi, hack, hkept, hv.imp_right (h.writtenNow_iff hi).mp⟩

theorem not_valid_of_flush (hf : (flushes cfg t.hw i).flushEx = true) (n : TransId) :
    (((tracked cfg z).next t i).hw.core.sb.mem n).sbe.valid = false :=
  (Scoreboard.issueFifo_flush n (sb_flush.trans hf)).2

theorem Linked.stores_next (h : Linked t) (hu : UnitsKeep t i) (n : TransId)
    (hv : (((tracked cfg z).next t i).hw.core.sb.mem n).sbe.valid = true)
    (hfu : (((tracked cfg z).next t i).hw.core.sb.mem n).sbe.fu = .STORE)
    (hamo : isAmo (((tracked cfg z).next t i).hw.core.sb.mem n).sbe.op = false)
    (hex : (((tracked cfg z).next t i).hw.core.sb.mem n).sbe.ex.valid = false) :
    ∃ e ∈ posted ((tracked cfg z).next t i), e.2.transId = n := by
  cases hf : (flushes cfg t.hw i).flushEx with
  | true =>
      rw [not_valid_of_flush hf] at hv
      cases hv
  | false =>
      obtain ⟨hi, hack, hkept, hcase⟩ := h.of_valid_next hu hf hv (.inr hfu) hex
      rw [hkept.fu] at hfu
      rw [hkept.op] at hamo
      rw [hkept.ex] at hex
      rw [(h.inflight_next hf).1]
      rcases hcase with hv | ⟨e, he, rfl⟩
      · obtain ⟨e, he, rfl⟩ := h.stores n hv hfu hamo hex
        exact ⟨e, List.mem_append_left _ (h.mem_uncommitted he hack), rfl⟩
      · rcases List.mem_append.mp he with he | he
        · have hload := (h.holds e (List.mem_append_right _ (mem_unwritten_of_piped he))).fu
          have hfu : (slot t e).sbe.fu = .STORE := hfu
          rw [hfu, (h.piped e (Option.mem_toList.mp he)).2.2] at hload
          cases hload
        · have hholds := h.holds e (List.mem_append_right _ (mem_unwritten_of_unit he))
          have hop : (t.hw.core.sb.mem e.2.transId).sbe.op = e.2.operator := hholds.op
          rw [hop] at hamo
          exact ⟨e, List.mem_append_right _ (List.mem_filter.mpr ⟨he, by simp [hamo]⟩), rfl⟩

theorem Linked.loadPipe_next (h : Linked t) :
    ((tracked cfg z).next t i).hw.loadPipe.valid =
        ldValidO cfg.nonIdempotent t.path (pathIn cfg t.hw i) ∧
      ((tracked cfg z).next t i).hw.loadPipe.transId = t.path.lsu.hw.load.loadData.transId := by
  have hpipe : ((tracked cfg z).next t i).path.lsu.hw.loadPipe =
      ((tracked cfg z).next t i).hw.loadPipe := congrArg Lsu.State.loadPipe h.agrees.next.lsu
  have hex : LoadUnit.retiresException (loadIn cfg.nonIdempotent t.path.lsu.hw
      (pathLsuIn cfg t i)) = false := by
    simp [LoadUnit.retiresException, loadIn, mmuException]
  rw [← hpipe]
  refine ⟨rfl, ?_⟩
  show (if LoadUnit.retiresException _ then _ else _) = _
  rw [hex]
  rfl

theorem Linked.piped_next (h : Linked t) (e : Item) (he : e ∈ ((tracked cfg z).next t i).piped) :
    ((tracked cfg z).next t i).hw.loadPipe.valid = true ∧
      ((tracked cfg z).next t i).hw.loadPipe.transId = e.2.transId ∧ e.2.fu = .LOAD := by
  have he : (if (flushes cfg t.hw i).flushEx then none
    else if ldValidO cfg.nonIdempotent t.path (pathIn cfg t.hw i) then t.path.outstanding
    else none) = some e := he
  split_ifs at he with _ hv
  rw [h.loadPipe_next.1, h.loadPipe_next.2, h.path.load_data e he]
  exact ⟨hv, rfl, h.path.loads e (List.mem_append_right _ (Option.mem_toList.mpr he))⟩

theorem Linked.pipe_next (h : Linked t)
    (hv : ((tracked cfg z).next t i).hw.loadPipe.valid = true) :
    ((tracked cfg z).next t i).piped.isSome = true ∨
      ((tracked cfg z).next t i).hw.core.sb.issueCnt = 0 := by
  rw [h.loadPipe_next.1] at hv
  cases hf : (flushes cfg t.hw i).flushEx with
  | true =>
      have hsf : (sbIn cfg t.hw i).flush = true := sb_flush.trans hf
      refine .inr ?_
      show (if (sbIn cfg t.hw i).flush then 0 else _) = _
      rw [hsf]
      rfl
  | false =>
      refine .inl ?_
      show (if (flushes cfg t.hw i).flushEx then none else if ldValidO _ _ _ then _
        else none).isSome = true
      rw [hf, hv]
      exact (h.path.answer _ _).1 hv

theorem Linked.next (h : Linked t) (hu : UnitsKeep t i) : Linked ((tracked cfg z).next t i) where
  core := h.core.next
  agrees := h.agrees.next
  path := h.path.next
  unit_state := by
    rw [← h.agrees.next.store]
    exact h.path.queue.unit_state_next
  unit_id := by
    intro e he
    obtain ⟨-, heq, hfu⟩ := h.path.queue.of_unit_next he
    rw [← h.agrees.next.store, heq]
    exact ⟨rfl, hfu⟩
  holds := h.holds_next hu
  awaiting := h.awaiting_next hu
  written := h.written_next hu
  nodup := h.nodup_next
  ordered := h.ordered_next
  piped := h.piped_next
  loadPipe := ⟨rfl, h.pipe_next⟩
  stores := h.stores_next hu

theorem linked_init : Linked (tracked cfg z).init where
  core := coreOk_init
  agrees := ⟨rfl, rfl⟩
  path := pathOk_init
  unit_state := by
    simp [tracked, dataSide, Core.core, loadPath, Lsu.tracked, StoreUnit.storeUnit,
      StoreUnit.Regs.reset]
  unit_id := by simp [tracked, loadPath, Lsu.tracked]
  holds := by
    intro e he
    cases he
  awaiting := by
    intro e he
    cases he
  written := by
    intro e he
    cases he
  nodup := List.nodup_nil
  ordered := List.Pairwise.nil
  piped := by simp [tracked]
  loadPipe := ⟨rfl, nofun⟩
  stores := by
    intro n hv
    cases hv

end Cva6.DataSide
