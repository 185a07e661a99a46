import Cva6.DataSide.Loads
/-!
# Atomics

An atomic waits in the one-entry buffer of the store unit until it is the oldest instruction
and every store is out; the miss unit then sends it, and the answer of the memory lets it
retire. The data side is run together with the request that the buffer holds, the atomic
requests that the memory side has accepted, and the atomics that were acknowledged.
-/

namespace Cva6.DataSide

open Cva6.Sync Cva6.Issue Cva6.Lsu
open Cva6.Dcache (paddrOf)

structure Atomics where
  base : Tracked
  /-- The request of the atomic in the buffer. -/
  held : Option Item
  /-- The atomic requests that the memory side has accepted. -/
  requests : List Dcache.MemReq
  /-- The atomics that the commit stage has acknowledged. -/
  acked : List LsuCtrl

section Record

variable (cfg : Dcache.Cfg) (t : Tracked) (i : Input)

def atomicRequests : List Dcache.MemReq :=
  (Dcache.accepted cfg t.hw.dc.hw (dcIn cfg t.hw i)).toList.filter fun r => r.rtype == .ATOMIC

def atomicAcked : List LsuCtrl :=
  ((ackedSlots cfg t.hw i).filter fun n => isAmo (t.hw.core.sb.mem n).sbe.op).map t.req

def postingAmo : Option Item := t.path.lsu.record.unit.filter fun e => isAmo e.2.operator

def heldNext (held : Option Item) : Option Item :=
  if (flushes cfg t.hw i).flushEx && !(out cfg t.hw i).amoValidCommit then none
  else
    match held with
    | some e => if (amoResp cfg t.hw i).ack then none else some e
    | none => if (flushes cfg t.hw i).flushEx then none else postingAmo t

end Record

def atomics (cfg : Dcache.Cfg) (z : Dcache.Start) : Machine Atomics Input where
  init := ⟨(tracked cfg z).init, none, [], []⟩
  next w i :=
    { base := (tracked cfg z).next w.base i
      held := heldNext cfg w.base i w.held
      requests := w.requests ++ atomicRequests cfg w.base i
      acked := w.acked ++ atomicAcked cfg w.base i }

/-! ## The property -/

/-- The entry of the buffer for a request; its address translates to itself. -/
def amoEntry (c : LsuCtrl) : StoreUnit.AmoEntry :=
  ⟨amoOp c.operator, c.vaddr, c.data.setWidth 32, extractTransferSize c.operator⟩

/-- The memory request of an atomic; a word is sent in both halves. -/
def atomicReq (c : LsuCtrl) : Dcache.MemReq :=
  let size := (extractTransferSize c.operator).setWidth 3
  let operand := wordOf ((c.data.setWidth 32).setWidth 64)
  { rtype := .ATOMIC
    size := size
    paddr := Dcache.paddrSizeAlign (paddrOf c.vaddr) size
    data :=
      if extractTransferSize c.operator == 2 then fun k => operand (Fin.ofNat 8 (k.val % 4))
      else operand
    nc := true
    tid := Dcache.Missunit.amoTxId
    amoOp := amoOp c.operator }

/-- The atomic at port 0 whose answer is awaited. -/
def awaited (t : Tracked) : List LsuCtrl :=
  if t.hw.dc.hw.miss.state = .AMO_WAIT then [t.req t.hw.core.sb.commitPointer0] else []

def retiresAmo (t : Tracked) : Bool :=
  (port0 t).valid && !(port0 t).ex.valid && !Backend.halt t.hw.core.be && isAmo (port0 t).op

def answersAmo (t : Tracked) (i : Input) : Bool :=
  t.hw.dc.hw.miss.state == .AMO_WAIT && Dcache.rtrns i.dc .ATOMIC_ACK

/-- An atomic executes once, exactly if it retires: what the memory side has accepted are the
requests of the acknowledged atomics, in their order, and of the one that is awaited. -/
structure OnceIfRetired (cfg : Dcache.Cfg) (z : Dcache.Start) (w : Atomics) (i : Input) : Prop where
  once : w.requests = (w.acked ++ awaited w.base).map atomicReq
  /-- The answer of the memory retires the atomic. Until then it is at port 0. -/
  answered : w.base.hw.dc.hw.miss.state = .AMO_WAIT →
    if Dcache.rtrns i.dc .ATOMIC_ACK then
      ((atomics cfg z).next w i).acked = w.acked ++ awaited w.base
    else
      (flushes cfg w.base.hw i).flushEx = false ∧
        ((atomics cfg z).next w i).acked = w.acked ∧
        awaited ((atomics cfg z).next w i).base = awaited w.base
  /-- No store is left when the request is accepted. -/
  alone : atomicRequests cfg w.base i ≠ [] →
    StoreBuffer.noStPending w.base.hw.core.st.buffer = true ∧
      Dcache.Wbuffer.emptyO w.base.hw.dc.hw.wbuf = true ∧
      ∀ id, w.base.hw.dc.side.writes id = none
  /-- A flush leaves no atomic in the buffer. -/
  flushed : (flushes cfg w.base.hw i).flushEx = true →
    ((atomics cfg z).next w i).base.hw.core.st.amo = none

/-- The violation flag traps an atomic at port 0 that the memory does not answer in this
cycle. -/
def TrapsAmo (w : Atomics) (i : Input) : Prop :=
  Backend.flag w.base.hw.core.be = true ∧ retiresAmo w.base = true ∧ answersAmo w.base i = false

/-- The other units leave loads and stores alone, and the memory serves the data cache. -/
def Environment (cfg : Dcache.Cfg) (w : Atomics) (i : Input) : Prop :=
  UnitsKeep w.base i ∧ Dcache.Served w.base.hw.dc (dcIn cfg w.base.hw i)

variable {cfg : Dcache.Cfg} {z : Dcache.Start} {t : Tracked} {w : Atomics} {i : Input}

/-! ## The commit stage and the miss unit -/

variable (cfg i) in
theorem amoResp_ack : (amoResp cfg t.hw i).ack =
    (answersAmo t i && t.hw.dc.hw.miss.amoReqQ) := by
  show (t.hw.dc.hw.miss.state == .AMO_WAIT && (Dcache.rtrns i.dc .ATOMIC_ACK &&
    t.hw.dc.hw.miss.amoReqQ)) = _
  rw [answersAmo, Bool.and_assoc]

variable (cfg i) in
theorem retiring_of_retiresAmo (h : retiresAmo t = true) :
    Backend.retiring t.hw.core.be (Core.backendIn t.hw.core (coreIn cfg t.hw i)) = true ∧
      isAmo (port0 t).op = true := by
  rw [retiresAmo, Bool.and_eq_true] at h
  exact h

variable (cfg i) in
theorem amoValidCommit_eq : (out cfg t.hw i).amoValidCommit = retiresAmo t :=
  Commit.commit_amoValidCommit _

/-- An atomic at port 0 is acknowledged with its answer. -/
theorem CoreOk.ack0_amo (h : CoreOk t.hw.core) (hamo : isAmo (port0 t).op = true) :
    (out cfg t.hw i).commitAck.ack0 = (retiresAmo t && (amoResp cfg t.hw i).ack) := by
  show Core.ack0 t.hw.core (coreIn cfg t.hw i) = _
  have hport : isAmo (Core.port0 t.hw.core).op = true := hamo
  rw [Core.ack0_eq (by rw [h.ctrl]; rfl), hport, if_pos rfl, retiresAmo, hamo, Bool.and_true]
  rfl

/-- Without its answer an atomic at port 0 waits, if the violation flag is down. -/
theorem CoreOk.quiet_of_retiresAmo (h : CoreOk t.hw.core) (hret : retiresAmo t = true)
    (hflag : Backend.flag t.hw.core.be = false) (hack : (amoResp cfg t.hw i).ack = false) :
    Quiet cfg t i := by
  obtain ⟨hretiring, hamo⟩ := retiring_of_retiresAmo cfg i hret
  have hack0 : (out cfg t.hw i).commitAck.ack0 = false := by
    rw [h.ack0_amo hamo, hack, Bool.and_false]
  refine ⟨?_, hack0, ack1_eq_false hack0, ?_⟩
  · exact Backend.flushEx_of_amo_waiting t.hw.core.be
      (Core.backendIn t.hw.core (coreIn cfg t.hw i)) hretiring (h.amo _ hamo) hamo hflag hack
  · by_contra hne
    have hnot := (of_commitLsu (Bool.not_eq_false _ ▸ hne)).2.2.2.1
    rw [hamo] at hnot
    cases hnot

/-! ## The invariant -/

/-- The atomic at port 0 has been sent for, and nothing else is on its way. -/
structure Committing (t : Tracked) : Prop where
  retires : retiresAmo t = true
  queue : StoreBuffer.noStPending t.hw.core.st.buffer = true
  empty : Dcache.Wbuffer.emptyO t.hw.dc.hw.wbuf = true
  asked : t.hw.dc.hw.miss.amoReqQ = true

structure Ready (t : Tracked) (e : Item) : Prop where
  valid : (slot t e).sbe.valid = true
  fu : (slot t e).sbe.fu = .STORE
  op : (slot t e).sbe.op = e.2.operator
  ex : (slot t e).sbe.ex.valid = false
  req : reqNow t e.2.transId = e.2
  amo : isAmo e.2.operator = true

structure AtomicsOk (cfg : Dcache.Cfg) (w : Atomics) : Prop where
  loads : LoadsOk cfg w.base
  entry : w.base.hw.core.st.amo = w.held.map fun e => amoEntry e.2
  sampled : ∀ e ∈ w.base.path.lsu.record.unit,
    w.base.hw.core.st.unit.amoOp = amoOp e.2.operator ∧ (isAmo e.2.operator = true →
      (⟨w.base.hw.core.st.unit.amoOp, w.base.hw.mmuPaddr, w.base.hw.core.st.unit.stData,
        w.base.hw.core.st.unit.stDataSize⟩ : StoreUnit.AmoEntry) = amoEntry e.2)
  /-- The atomic in the store unit finds the buffer empty. -/
  room : (postingAmo w.base).isSome = true → w.held = none
  ready : ∀ e ∈ w.held, Ready w.base e
  buffered : ∀ n, (w.base.hw.core.sb.mem n).sbe.valid = true →
    isAmo (w.base.hw.core.sb.mem n).sbe.op = true →
    (w.base.hw.core.sb.mem n).sbe.ex.valid = false → ∃ e ∈ w.held, e.2.transId = n
  busy : Dcache.Missunit.amoSel w.base.hw.dc.hw.miss = true → Committing w.base
  once : w.requests = (w.acked ++ awaited w.base).map atomicReq

/-! ## The buffer -/

theorem mem_postingAmo {e : Item} :
    e ∈ postingAmo t ↔ e ∈ t.path.lsu.record.unit ∧ isAmo e.2.operator = true := by
  rw [postingAmo, Option.mem_def, Option.filter_eq_some_iff, Option.mem_def]

theorem AtomicsOk.push_eq (h : AtomicsOk cfg w)
    (hf : (flushes cfg w.base.hw i).flushEx = false) :
    let j := Core.storeIn w.base.hw.core (coreIn cfg w.base.hw i)
    (if (StoreUnit.control w.base.hw.core.st j).stValid && w.base.hw.core.st.unit.amoOp != .NONE then
        some (⟨w.base.hw.core.st.unit.amoOp, j.paddr, w.base.hw.core.st.unit.stData,
          w.base.hw.core.st.unit.stDataSize⟩ : StoreUnit.AmoEntry) else none) =
      (postingAmo w.base).map fun e => amoEntry e.2 := by
  intro j
  have hvalid : (StoreUnit.control w.base.hw.core.st j).stValid =
      (w.base.hw.core.st.unit.state == .VALID_STORE) := by
    have hflush : j.flush = false := hf
    have hex : j.exValid = false := rfl
    rw [StoreUnit.control_stValid, hflush, hex]
    simp
  rw [hvalid]
  cases hunit : w.base.path.lsu.record.unit with
  | none =>
      have hstate : (w.base.hw.core.st.unit.state == .VALID_STORE) = false := by
        rw [beq_eq_false_iff_ne]
        intro hs
        have hsome := h.loads.linked.unit_state.mp hs
        rw [hunit] at hsome
        cases hsome
      rw [hstate, postingAmo, hunit]
      rfl
  | some e =>
      have hstate : w.base.hw.core.st.unit.state = .VALID_STORE :=
        h.loads.linked.unit_state.mpr (by rw [hunit]; rfl)
      obtain ⟨hop, hsampled⟩ := h.sampled e hunit
      rw [hstate, hop, postingAmo, hunit]
      cases hamo : isAmo e.2.operator with
      | true =>
          have hne : (amoOp e.2.operator != .NONE) = true := by
            rw [bne_iff_ne, Ne, amoOp_eq_none_iff, hamo]
            simp
          have hentry := hsampled hamo
          rw [hop] at hentry
          have hentry' : (⟨amoOp e.2.operator, j.paddr, w.base.hw.core.st.unit.stData,
            w.base.hw.core.st.unit.stDataSize⟩ : StoreUnit.AmoEntry) = amoEntry e.2 := hentry
          rw [hne, hentry', Option.filter_some, if_pos hamo]
          rfl
      | false =>
          have heq : amoOp e.2.operator = .NONE := (amoOp_eq_none_iff _).mpr hamo
          have hnot : ¬isAmo e.2.operator = true := Bool.eq_false_iff.mp hamo
          rw [heq, Option.filter_some, if_neg hnot]
          rfl

theorem AtomicsOk.entry_next (h : AtomicsOk cfg w) :
    ((atomics cfg z).next w i).base.hw.core.st.amo =
      ((atomics cfg z).next w i).held.map fun e => amoEntry e.2 := by
  let j := Core.storeIn w.base.hw.core (coreIn cfg w.base.hw i)
  have hnext : ((atomics cfg z).next w i).base.hw.core.st.amo =
      StoreUnit.amoNext w.base.hw.core.st.amo
        ((flushes cfg w.base.hw i).flushEx && !(out cfg w.base.hw i).amoValidCommit)
        ((StoreUnit.control w.base.hw.core.st j).stValid && w.base.hw.core.st.unit.amoOp != .NONE)
        (amoResp cfg w.base.hw i).ack ⟨w.base.hw.core.st.unit.amoOp, j.paddr,
          w.base.hw.core.st.unit.stData, w.base.hw.core.st.unit.stDataSize⟩ := rfl
  have hheld : ((atomics cfg z).next w i).held = heldNext cfg w.base i w.held := rfl
  rw [hnext, hheld, h.entry]
  unfold StoreUnit.amoNext heldNext
  cases hclear : (flushes cfg w.base.hw i).flushEx && !(out cfg w.base.hw i).amoValidCommit with
  | true => rfl
  | false =>
      rw [if_neg Bool.false_ne_true, if_neg Bool.false_ne_true]
      cases w.held with
      | some e => cases (amoResp cfg w.base.hw i).ack <;> rfl
      | none =>
          show (if _ then _ else _) = _
          cases hf : (flushes cfg w.base.hw i).flushEx with
          | true =>
              have hvalid : (StoreUnit.control w.base.hw.core.st j).stValid = false := by
                have hflush : j.flush = true := hf
                rw [StoreUnit.control_stValid, hflush]
                simp
              rw [hvalid]
              rfl
          | false => exact h.push_eq hf

theorem AtomicsOk.sampled_next (h : AtomicsOk cfg w) (e : Item)
    (he : e ∈ ((atomics cfg z).next w i).base.path.lsu.record.unit) :
    let w' := (atomics cfg z).next w i
    w'.base.hw.core.st.unit.amoOp = amoOp e.2.operator ∧ (isAmo e.2.operator = true →
      (⟨w'.base.hw.core.st.unit.amoOp, w'.base.hw.mmuPaddr, w'.base.hw.core.st.unit.stData,
        w'.base.hw.core.st.unit.stDataSize⟩ : StoreUnit.AmoEntry) = amoEntry e.2) := by
  obtain ⟨-, heq, hfu⟩ := h.loads.linked.path.queue.of_unit_next he
  rw [h.loads.linked.agrees.lsu] at heq hfu
  refine ⟨by rw [heq]; rfl, ?_⟩
  intro hamo
  rw [heq] at hamo
  show StoreUnit.AmoEntry.mk (amoOp (lsuCtrl (lsu w.base.hw)).operator) (mmuVaddr (lsu w.base.hw))
    (if isAmo (lsuCtrl (lsu w.base.hw)).operator then _ else _) _ = _
  rw [mmuVaddr, if_pos (.inr hfu), if_pos hamo, heq]
  rfl

/-- The store unit takes an atomic when the buffer is empty and nothing enters it. -/
theorem AtomicsOk.room_next (h : AtomicsOk cfg w)
    (hp : (postingAmo ((atomics cfg z).next w i).base).isSome = true) :
    ((atomics cfg z).next w i).held = none := by
  obtain ⟨e, he⟩ := Option.isSome_iff_exists.mp hp
  obtain ⟨hunit, hamo⟩ := mem_postingAmo.mp he
  obtain ⟨htaken, heq, -⟩ := h.loads.linked.path.queue.of_unit_next hunit
  have hstate := (StoreUnit.state_validStore_iff _ _).mpr htaken
  rw [heq] at hamo
  obtain ⟨-, -, hready⟩ := StoreUnit.storeControl_validStore _ _ hstate
  have hidle : w.base.path.lsu.hw.store.unit.state ≠ .VALID_STORE :=
    StoreUnit.storeControl_takes_amo hstate hamo
  have hheld : w.held = none := by
    have hready : (_ && w.base.path.lsu.hw.store.amo.isNone) = true := hready
    rw [Bool.and_eq_true, h.loads.linked.agrees.store, h.entry, Option.isNone_map] at hready
    exact Option.isNone_iff_eq_none.mp hready.2
  have hposting : postingAmo w.base = none := by
    rw [h.loads.linked.agrees.store] at hidle
    have hnone : w.base.path.lsu.record.unit = none := by
      by_contra hne
      exact hidle (h.loads.linked.unit_state.mpr (Option.isSome_iff_ne_none.mpr hne))
    rw [postingAmo, hnone]
    rfl
  show heldNext cfg w.base i w.held = none
  unfold heldNext
  rw [hheld, hposting]
  split_ifs <;> rfl

/-! ## The slots -/

theorem AtomicsOk.not_acked (h : AtomicsOk cfg w) {e : Item} (he : e ∈ w.held)
    (hack : (amoResp cfg w.base.hw i).ack = false) :
    Scoreboard.ackedSlot w.base.hw.core.sb (sbIn cfg w.base.hw i) e.2.transId = false := by
  have hready := h.ready e he
  by_contra hne
  rw [Bool.not_eq_false, Scoreboard.ackedSlot, Bool.or_eq_true, Bool.and_eq_true, Bool.and_eq_true,
    beq_iff_eq, beq_iff_eq] at hne
  rcases hne with ⟨hack0, hid⟩ | ⟨hack1, hid⟩
  · have hamo : isAmo (port0 w.base).op = true := by
      have hop : (slot w.base e).sbe.op = e.2.operator := hready.op
      rw [port0, ← hid]
      exact (congrArg isAmo hop).trans hready.amo
    have hack0 : (out cfg w.base.hw i).commitAck.ack0 = true := hack0
    rw [h.loads.linked.core.ack0_amo hamo, hack, Bool.and_false] at hack0
    cases hack0
  · obtain ⟨-, -, -, -, -, hport⟩ :=
      Core.of_ack1 (s := w.base.hw.core) (i := coreIn cfg w.base.hw i) hack1
    have hfu : (Core.port1 w.base.hw.core).fu = .STORE := by
      show (w.base.hw.core.sb.mem w.base.hw.core.sb.commitPointer1).sbe.fu = .STORE
      rw [← hid]
      exact hready.fu
    rw [hfu] at hport
    cases hport

theorem AtomicsOk.of_ack (h : AtomicsOk cfg w) (hack : (amoResp cfg w.base.hw i).ack = true) :
    Committing w.base ∧ w.base.hw.dc.hw.miss.state = .AMO_WAIT ∧
      Dcache.rtrns i.dc .ATOMIC_ACK = true := by
  rw [amoResp_ack, Bool.and_eq_true, answersAmo, Bool.and_eq_true, beq_iff_eq] at hack
  refine ⟨h.busy ?_, hack.1⟩
  rw [Dcache.Missunit.amoSel, hack.1.1]
  rfl

theorem AtomicsOk.quiet (h : AtomicsOk cfg w) (ht : ¬TrapsAmo w i)
    (hret : retiresAmo w.base = true) (hack : (amoResp cfg w.base.hw i).ack = false) :
    Quiet cfg w.base i := by
  refine h.loads.linked.core.quiet_of_retiresAmo hret ?_ hack
  by_contra hflag
  have hanswer : answersAmo w.base i = true := by
    by_contra hne
    exact ht ⟨Bool.not_eq_false _ ▸ hflag, hret, Bool.not_eq_true _ ▸ hne⟩
  have hsel : Dcache.Missunit.amoSel w.base.hw.dc.hw.miss = true := by
    rw [answersAmo, Bool.and_eq_true, beq_iff_eq] at hanswer
    rw [Dcache.Missunit.amoSel, hanswer.1]
    rfl
  rw [amoResp_ack, hanswer, (h.busy hsel).asked] at hack
  cases hack

theorem AtomicsOk.held_of_flush (h : AtomicsOk cfg w) (ht : ¬TrapsAmo w i)
    (hf : (flushes cfg w.base.hw i).flushEx = true) :
    ((atomics cfg z).next w i).held = none := by
  show heldNext cfg w.base i w.held = none
  unfold heldNext
  rw [hf, amoValidCommit_eq]
  cases hret : retiresAmo w.base with
  | false => rfl
  | true =>
      rw [if_neg (by simp)]
      cases hheld : w.held with
      | none => rfl
      | some e =>
          cases hack : (amoResp cfg w.base.hw i).ack with
          | true => rfl
          | false =>
              rw [(h.quiet ht hret hack).flush] at hf
              cases hf

theorem held_next (hf : (flushes cfg w.base.hw i).flushEx = false) :
    ((atomics cfg z).next w i).held =
      match w.held with
      | some e => if (amoResp cfg w.base.hw i).ack then none else some e
      | none => postingAmo w.base := by
  show heldNext cfg w.base i w.held = _
  unfold heldNext
  rw [hf]
  rfl

theorem AtomicsOk.ready_next (h : AtomicsOk cfg w) (hu : UnitsKeep w.base i) (ht : ¬TrapsAmo w i)
    (e : Item) (he : e ∈ ((atomics cfg z).next w i).held) :
    Ready ((atomics cfg z).next w i).base e := by
  let t := w.base
  have hf : (flushes cfg w.base.hw i).flushEx = false := by
    by_contra hne
    rw [h.held_of_flush ht (Bool.not_eq_false _ ▸ hne)] at he
    cases he
  -- a slot that is kept, and is written by the end of the cycle
  have hstays (hissued : (slot t e).issued = true) (hfu : (slot t e).sbe.fu = .STORE)
      (hop : (slot t e).sbe.op = e.2.operator) (hex : (slot t e).sbe.ex.valid = false)
      (hreq : reqNow t e.2.transId = e.2) (hamo : isAmo e.2.operator = true)
      (hack : Scoreboard.ackedSlot t.hw.core.sb (sbIn cfg t.hw i) e.2.transId = false)
      (hv : ((slot t e).sbe.valid || writtenNow t e.2.transId) = true) :
      Ready ((atomics cfg z).next w i).base e := by
    have hkept : Kept t ((tracked cfg z).next t i) e.2.transId :=
      h.loads.linked.kept hu hf hissued (.inr hfu) hack
    exact ⟨hkept.valid.trans hv, hkept.fu.trans hfu, hkept.op.trans hop, hkept.ex.trans hex,
      (reqNow_next (h.loads.linked.ne_issuePointer hissued)).trans hreq, hamo⟩
  rw [held_next hf] at he
  cases hheld : w.held with
  | some e' =>
      rw [hheld] at he
      have he : (if (amoResp cfg w.base.hw i).ack then none else some e') = some e := he
      split_ifs at he with hack
      obtain rfl := Option.some.inj he
      have hready := h.ready e' hheld
      refine hstays (h.loads.linked.core.ok.valid_issued _ hready.valid) hready.fu hready.op
        hready.ex hready.req hready.amo (h.not_acked hheld (Bool.eq_false_iff.mpr hack)) ?_
      rw [hready.valid, Bool.true_or]
  | none =>
      rw [hheld] at he
      obtain ⟨hunit, hamo⟩ := mem_postingAmo.mp he
      have hmem := mem_unwritten_of_unit (Option.mem_toList.mpr hunit)
      have hholds := h.loads.linked.holds e (List.mem_append_right _ hmem)
      have hstore := (h.loads.linked.unit_id e hunit).2
      refine hstays hholds.issued (hholds.fu.trans hstore) hholds.op hholds.ex hholds.req hamo
        (h.loads.linked.not_acked hmem) ?_
      rw [(h.loads.linked.writtenNow_iff hholds.issued).mpr
        ⟨e, List.mem_append_right _ (Option.mem_toList.mpr hunit), rfl⟩, Bool.or_true]

theorem AtomicsOk.port0_held (h : AtomicsOk cfg w) (hret : retiresAmo w.base = true) :
    ∃ e ∈ w.held, e.2.transId = w.base.hw.core.sb.commitPointer0 := by
  simp only [retiresAmo, Bool.and_eq_true, Bool.not_eq_true'] at hret
  exact h.buffered _ hret.1.1.1 hret.2 hret.1.1.2

theorem AtomicsOk.buffered_next (h : AtomicsOk cfg w) (hu : UnitsKeep w.base i) (n : TransId)
    (hv : (((atomics cfg z).next w i).base.hw.core.sb.mem n).sbe.valid = true)
    (hamo : isAmo (((atomics cfg z).next w i).base.hw.core.sb.mem n).sbe.op = true)
    (hex : (((atomics cfg z).next w i).base.hw.core.sb.mem n).sbe.ex.valid = false) :
    ∃ e ∈ ((atomics cfg z).next w i).held, e.2.transId = n := by
  have hf : (flushes cfg w.base.hw i).flushEx = false := by
    by_contra hne
    have hnot := not_valid_of_flush (z := z) (Bool.not_eq_false _ ▸ hne) n
    exact Bool.noConfusion (hnot.symm.trans hv)
  have hfu := (h.loads.linked.core.next (j := coreIn cfg w.base.hw i)).amo n hamo
  obtain ⟨hissued, hack, hkept, hcase⟩ :=
    h.loads.linked.of_valid_next (z := z) hu hf hv (.inr hfu) hex
  have hop : isAmo (w.base.hw.core.sb.mem n).sbe.op = true := by
    rw [← hkept.op]
    exact hamo
  rw [held_next hf]
  rcases hcase with hold | ⟨e, he, rfl⟩
  · obtain ⟨e, he, hid⟩ := h.buffered n hold hop (hkept.ex.symm.trans hex)
    have hheld : w.held = some e := he
    have hwait : (amoResp cfg w.base.hw i).ack = false := by
      by_contra hne
      have hanswer : (amoResp cfg w.base.hw i).ack = true := Bool.not_eq_false _ ▸ hne
      have hcommitting := (h.of_ack hanswer).1
      obtain ⟨e', he', hid'⟩ := h.port0_held hcommitting.retires
      have hsame : e = e' := Option.some.inj (hheld.symm.trans he')
      have hack0 : (sbIn cfg w.base.hw i).commitAck.ack0 = true := by
        show (out cfg w.base.hw i).commitAck.ack0 = true
        rw [h.loads.linked.core.ack0_amo (retiring_of_retiresAmo cfg i
          hcommitting.retires).2, hcommitting.retires, hanswer]
        rfl
      rw [← hid, hsame, hid', Scoreboard.ackedSlot, hack0, beq_self_eq_true] at hack
      cases hack
    rw [hheld, hwait]
    exact ⟨e, rfl, hid⟩
  · rcases List.mem_append.mp he with he | he
    · have hload := (h.loads.linked.holds e (List.mem_append_right _ (mem_unwritten_of_piped he))).fu
      have hstore : (slot w.base e).sbe.fu = .STORE := h.loads.linked.core.amo _ hop
      rw [hstore, (h.loads.linked.piped e (Option.mem_toList.mp he)).2.2] at hload
      cases hload
    · have hholds := h.loads.linked.holds e (List.mem_append_right _ (mem_unwritten_of_unit he))
      have hamo : isAmo e.2.operator = true := by
        rw [← hholds.op]
        exact hop
      have hposting : postingAmo w.base = some e :=
        mem_postingAmo.mpr ⟨Option.mem_toList.mp he, hamo⟩
      have hnone := h.room (by rw [hposting]; rfl)
      rw [hnone]
      exact ⟨e, hposting, rfl⟩

/-! ## The request -/

theorem AtomicsOk.retires_next (h : AtomicsOk cfg w) (hu : UnitsKeep w.base i)
    (hret : retiresAmo w.base = true) (hq : Quiet cfg w.base i) :
    retiresAmo ((tracked cfg z).next w.base i) = true := by
  let s := w.base.hw.core
  have hret' := hret
  simp only [retiresAmo, Bool.and_eq_true, Bool.not_eq_true'] at hret'
  obtain ⟨⟨⟨hv, hex⟩, hhalt⟩, hamo⟩ := hret'
  have hfu : (port0 w.base).fu = .STORE := h.loads.linked.core.amo _ hamo
  have hnot : Scoreboard.ackedSlot s.sb (sbIn cfg w.base.hw i) s.sb.commitPointer0 = false := by
    have hack0 : (sbIn cfg w.base.hw i).commitAck.ack0 = false := hq.ack0
    have hack1 : (sbIn cfg w.base.hw i).commitAck.ack1 = false := hq.ack1
    rw [Scoreboard.ackedSlot, hack0, hack1]
    rfl
  have hkept := h.loads.linked.kept (z := z) hu hq.flush
    (h.loads.linked.core.ok.valid_issued _ hv) (.inr hfu) hnot
  -- nothing but a `WFI` halts the core
  have hwfi : ((tracked cfg z).next w.base i).hw.core.be.csr.wfi = false := by
    have hop : (Backend.csrAccess s.be (Core.backendIn s (coreIn cfg w.base.hw i))).csrOp = .ADD := by
      show (Backend.out _ _).csrOp = _
      rw [Backend.out_csrOp, Backend.csrSelect]
      refine if_neg ?_
      have hport : (Scoreboard.commitInstr s.sb).instr0.fu = .STORE := hfu
      show ¬(_ && (Scoreboard.commitInstr s.sb).instr0.fu == .CSR) = true
      rw [hport]
      simp
    show Csr.wfiNext _ _ _ _ = false
    rw [Csr.wfiNext, hop]
    have hnow : s.be.csr.wfi = false := (Bool.or_eq_false_iff.mp hhalt).1
    split_ifs with _ hbad
    · rfl
    · simp at hbad
    · exact hnow
  have hctrl : Backend.halt ((tracked cfg z).next w.base i).hw.core.be = false := by
    have hreset : ((tracked cfg z).next w.base i).hw.core.be.ctrl = Controller.reset :=
      (h.loads.linked.core.next (j := coreIn cfg w.base.hw i)).ctrl
    rw [Backend.halt, hwfi, hreset]
    rfl
  have hpointer : ((tracked cfg z).next w.base i).hw.core.sb.commitPointer0 =
      w.base.hw.core.sb.commitPointer0 := hq.pointer
  rw [retiresAmo, port0, hpointer, hctrl]
  rw [hkept.valid, hkept.ex, hkept.op, hv, hex, hamo]
  rfl

theorem LoadsOk.no_store_request (h : LoadsOk cfg t)
    (hq : StoreBuffer.noStPending t.hw.core.st.buffer = true) :
    StoreBuffer.dataReq t.hw.core.st.buffer = false := by
  by_contra hne
  have hpos := h.commit.pos_of_head (Bool.not_eq_false _ ▸ hne)
  rw [StoreBuffer.noStPending, beq_iff_eq] at hq
  rw [hq] at hpos
  cases hpos

theorem AtomicsOk.committing_next (h : AtomicsOk cfg w) (hu : UnitsKeep w.base i)
    (hret : retiresAmo w.base = true) (hquiet : Quiet cfg w.base i)
    (hq : StoreBuffer.noStPending w.base.hw.core.st.buffer = true)
    (he : Dcache.Wbuffer.emptyO w.base.hw.dc.hw.wbuf = true) :
    Committing ((tracked cfg z).next w.base i) where
  retires := h.retires_next hu hret hquiet
  queue := by
    let j := StoreUnit.bufferIn w.base.hw.core.st
      (Core.storeIn w.base.hw.core (coreIn cfg w.base.hw i))
    have hc : j.commit = false := hquiet.commit
    have hsame : StoreBuffer.storeIf w.base.hw.core.st.buffer j =
        w.base.hw.core.st.buffer.commit := by
      simp only [StoreBuffer.storeIf, hc, h.loads.no_store_request hq, Bool.false_and,
        Bool.false_eq_true, if_false]
    show (StoreBuffer.storeIf w.base.hw.core.st.buffer j).statusCnt == 0
    rw [hsame]
    exact hq
  empty := by
    rw [Dcache.Wbuffer.emptyO, Bool.not_eq_true', Dcache.any_eq_false] at he ⊢
    intro n
    have hvalid := he n
    rw [Dcache.Wbuffer.valid, Dcache.any_eq_false] at hvalid ⊢
    intro k
    have hgnt : Dcache.Wbuffer.dataGnt cfg w.base.hw.dc.hw.wbuf
        (Dcache.wbufIn cfg w.base.hw.dc.hw (dcIn cfg w.base.hw i)) = false := by
      have hreq : (Dcache.wbufIn cfg w.base.hw.dc.hw (dcIn cfg w.base.hw i)).store.dataReq = false :=
        h.loads.no_store_request hq
      rw [Dcache.Wbuffer.dataGnt, hreq]
      rfl
    show (Dcache.Wbuffer.bufferNext _ _ _ _ n).valid k = false
    rw [Dcache.Wbuffer.bufferNext_valid, hvalid k, Dcache.Wbuffer.stored, hgnt]
    rfl
  asked := by
    obtain ⟨e, hheld, -⟩ := h.port0_held hret
    have hsome : w.base.hw.core.st.amo.isSome = true := by
      rw [h.entry, Option.isSome_map]
      exact Option.isSome_of_mem hheld
    show (amoReq w.base.hw.core.st.amo _ _).req = true
    have hvalid : (storeIn cfg w.base.hw i).amoValidCommit = true :=
      (amoValidCommit_eq cfg i).trans hret
    rw [amoReq_req, StoreUnit.amoReq, hq, hvalid, hsome]
    rfl

/-- The miss unit is asked for an atomic when one retires and every store is out. -/
theorem of_amoReq (hreq : (dcIn cfg t.hw i).amo.req = true) :
    retiresAmo t = true ∧ StoreBuffer.noStPending t.hw.core.st.buffer = true := by
  have hreq : (amoReq t.hw.core.st.amo _ _).req = true := hreq
  rw [amoReq_req, StoreUnit.amoReq, Bool.and_eq_true, Bool.and_eq_true] at hreq
  exact ⟨(amoValidCommit_eq cfg i).symm.trans hreq.1.2, hreq.1.1⟩

theorem AtomicsOk.busy_next (h : AtomicsOk cfg w) (hu : UnitsKeep w.base i) (ht : ¬TrapsAmo w i)
    (hsel : Dcache.Missunit.amoSel ((atomics cfg z).next w i).base.hw.dc.hw.miss = true) :
    Committing ((atomics cfg z).next w i).base := by
  rcases Dcache.Missunit.of_amoSel_next hsel with ⟨hidle, hreq, hempty, -⟩ | ⟨hsel, hwait⟩
  · obtain ⟨hret, hq⟩ := of_amoReq hreq
    have hack : (amoResp cfg w.base.hw i).ack = false := by
      rw [amoResp_ack, answersAmo, hidle]
      rfl
    exact h.committing_next hu hret (h.quiet ht hret hack) hq hempty
  · have hc := h.busy hsel
    have hack : (amoResp cfg w.base.hw i).ack = false := by
      by_contra hne
      obtain ⟨-, hstate, hrtrn⟩ := h.of_ack (Bool.not_eq_false _ ▸ hne)
      have hnot : (Dcache.rtrns i.dc .ATOMIC_ACK && w.base.hw.dc.hw.miss.amoReqQ) = false :=
        hwait hstate
      rw [hrtrn, hc.asked] at hnot
      cases hnot
    exact h.committing_next hu hc.retires (h.quiet ht hc.retires hack) hc.queue hc.empty

/-! ## The books -/

theorem AtomicsOk.memData_eq (h : AtomicsOk cfg w) (hstate : w.base.hw.dc.hw.miss.state = .AMO) :
    Dcache.Missunit.memData w.base.hw.dc.hw.miss
        (Dcache.missIn cfg w.base.hw.dc.hw (dcIn cfg w.base.hw i)) =
      atomicReq (reqNow w.base w.base.hw.core.sb.commitPointer0) := by
  have hsel : Dcache.Missunit.amoSel w.base.hw.dc.hw.miss = true := by
    rw [Dcache.Missunit.amoSel, hstate]
    rfl
  obtain ⟨e, hheld, hid⟩ := h.port0_held (h.busy hsel).retires
  rw [← hid, (h.ready e hheld).req]
  have hamo : w.base.hw.core.st.amo = some (amoEntry e.2) := by
    rw [h.entry, hheld]
    rfl
  have hreq : (Dcache.missIn cfg w.base.hw.dc.hw (dcIn cfg w.base.hw i)).amo =
      amoReq (some (amoEntry e.2)) (StoreUnit.amoReq w.base.hw.core.st (storeIn cfg w.base.hw i))
        i.dc.amo := by
    rw [← hamo]
    rfl
  simp only [Dcache.Missunit.memData, Dcache.Missunit.rtype, Dcache.Missunit.amoData, hsel, hreq,
    hstate, if_true]
  rfl

theorem AtomicsOk.atomicRequests_eq (h : AtomicsOk cfg w) :
    atomicRequests cfg w.base i =
      if w.base.hw.dc.hw.miss.state = .AMO ∧
          Dcache.Missunit.stateD w.base.hw.dc.hw.miss
            (Dcache.missIn cfg w.base.hw.dc.hw (dcIn cfg w.base.hw i)) = .AMO_WAIT then
        [atomicReq (reqNow w.base w.base.hw.core.sb.commitPointer0)]
      else [] := by
  let q := w.base.hw.dc.hw.miss
  let j := Dcache.missIn cfg w.base.hw.dc.hw (dcIn cfg w.base.hw i)
  by_cases hstate : q.state = .AMO
  · have hreq : Dcache.Missunit.memDataReq q j = Dcache.Missunit.sendsAmo q j := by
      simp [Dcache.Missunit.memDataReq, Dcache.Missunit.sendsStore, Dcache.Missunit.sendsLoad, hstate]
    have hnext : Dcache.Missunit.stateD q j =
        if Dcache.Missunit.sendsAmo q j && j.memDataAck then .AMO_WAIT else .AMO := by
      simp only [Dcache.Missunit.stateD, hstate]
    have hacc : Dcache.accepted cfg w.base.hw.dc.hw (dcIn cfg w.base.hw i) =
        if Dcache.Missunit.sendsAmo q j && j.memDataAck then
          some (atomicReq (reqNow w.base w.base.hw.core.sb.commitPointer0)) else none := by
      rw [Dcache.accepted, h.memData_eq hstate]
      show (if Dcache.Missunit.memDataReq q j && _ then _ else _) = _
      rw [hreq]
      rfl
    rw [atomicRequests, hacc]
    show _ = if q.state = .AMO ∧ Dcache.Missunit.stateD q j = .AMO_WAIT then _ else _
    rw [hnext]
    cases Dcache.Missunit.sendsAmo q j && j.memDataAck with
    | true => rw [if_pos rfl, if_pos rfl, if_pos ⟨hstate, rfl⟩]; rfl
    | false => rw [if_neg Bool.false_ne_true, if_neg Bool.false_ne_true, if_neg (by simp)]; rfl
  · rw [if_neg (fun hboth => hstate hboth.1), atomicRequests, List.filter_eq_nil_iff]
    intro r hr
    cases h.loads.books.waits.sent (Option.mem_toList.mp hr) with
    | store _ => exact Bool.false_ne_true
    | load p _ _ => exact Bool.false_ne_true
    | atomic _ hamo _ => exact absurd hamo hstate

theorem AtomicsOk.atomicAcked_eq (h : AtomicsOk cfg w) :
    atomicAcked cfg w.base i = if (amoResp cfg w.base.hw i).ack then awaited w.base else [] := by
  let sb := w.base.hw.core.sb
  have hport1 : ((if (out cfg w.base.hw i).commitAck.ack1 then [sb.commitPointer1] else []).filter
      fun n => isAmo (sb.mem n).sbe.op) = [] := by
    rw [List.filter_eq_nil_iff]
    intro n hn hamo
    rw [List.mem_ite_nil_right, List.mem_singleton] at hn
    obtain ⟨hack1, rfl⟩ := hn
    obtain ⟨-, -, -, -, -, hport⟩ :=
      Core.of_ack1 (s := w.base.hw.core) (i := coreIn cfg w.base.hw i) hack1
    have hfu : (Core.port1 w.base.hw.core).fu = .STORE := h.loads.linked.core.amo _ hamo
    rw [hfu] at hport
    cases hport
  rw [atomicAcked, ackedSlots, List.filter_append, hport1, List.append_nil]
  cases hack : (amoResp cfg w.base.hw i).ack with
  | true =>
      obtain ⟨hc, hstate, -⟩ := h.of_ack hack
      have hamo := (retiring_of_retiresAmo cfg i hc.retires).2
      have hslot : isAmo (sb.mem sb.commitPointer0).sbe.op = true := hamo
      rw [h.loads.linked.core.ack0_amo hamo, hc.retires, hack, awaited, hstate]
      simp [sb, hslot]
  | false =>
      cases hamo : isAmo (port0 w.base).op with
      | true =>
          rw [h.loads.linked.core.ack0_amo hamo, hack, Bool.and_false]
          rfl
      | false =>
          have hslot : isAmo (sb.mem sb.commitPointer0).sbe.op = false := hamo
          cases (out cfg w.base.hw i).commitAck.ack0 <;> simp [sb, hslot]

theorem AtomicsOk.awaited_of_waiting (h : AtomicsOk cfg w) (ht : ¬TrapsAmo w i)
    (hsel : Dcache.Missunit.amoSel w.base.hw.dc.hw.miss = true)
    (hack : (amoResp cfg w.base.hw i).ack = false)
    (hnext : Dcache.Missunit.stateD w.base.hw.dc.hw.miss
      (Dcache.missIn cfg w.base.hw.dc.hw (dcIn cfg w.base.hw i)) = .AMO_WAIT) :
    awaited ((atomics cfg z).next w i).base =
      [reqNow w.base w.base.hw.core.sb.commitPointer0] := by
  have hpointer : ((atomics cfg z).next w i).base.hw.core.sb.commitPointer0 =
      w.base.hw.core.sb.commitPointer0 := (h.quiet ht (h.busy hsel).retires hack).pointer
  have hstate : ((atomics cfg z).next w i).base.hw.dc.hw.miss.state = .AMO_WAIT := hnext
  rw [awaited, if_pos hstate, hpointer]
  rfl

theorem AtomicsOk.req_port0 (h : AtomicsOk cfg w) (hret : retiresAmo w.base = true) :
    reqNow w.base w.base.hw.core.sb.commitPointer0 =
      w.base.req w.base.hw.core.sb.commitPointer0 := by
  simp only [retiresAmo, Bool.and_eq_true] at hret
  exact h.loads.req_of_valid hret.1.1.1

theorem AtomicsOk.books_next (h : AtomicsOk cfg w) (ht : ¬TrapsAmo w i) :
    (awaited w.base).map atomicReq ++ atomicRequests cfg w.base i =
      (atomicAcked cfg w.base i ++ awaited ((atomics cfg z).next w i).base).map atomicReq := by
  let q := w.base.hw.dc.hw.miss
  let j := Dcache.missIn cfg w.base.hw.dc.hw (dcIn cfg w.base.hw i)
  have hresp := amoResp_ack cfg i (t := w.base)
  rw [h.atomicRequests_eq, h.atomicAcked_eq]
  have hnone (hnext : Dcache.Missunit.stateD q j ≠ .AMO_WAIT) :
      awaited ((atomics cfg z).next w i).base = [] := if_neg hnext
  by_cases hwait : q.state = .AMO_WAIT
  · have hsel : Dcache.Missunit.amoSel q = true := by
      rw [Dcache.Missunit.amoSel, hwait]
      rfl
    have hc := h.busy hsel
    rw [if_neg (by rintro ⟨hamo, -⟩; exact absurd (hwait.symm.trans hamo) (by decide)), List.append_nil]
    have hanswer : (amoResp cfg w.base.hw i).ack = Dcache.Missunit.amoAck q j := by
      have hstate : (q.state == .AMO_WAIT) = true := beq_iff_eq.mpr hwait
      rw [hresp, answersAmo, hstate, Bool.true_and]
      rfl
    cases hack : (amoResp cfg w.base.hw i).ack with
    | true =>
        have hnext : Dcache.Missunit.stateD q j ≠ .AMO_WAIT := by
          rw [Ne, Dcache.Missunit.stateD_eq_amoWait_iff, hwait, ← hanswer, hack]
          simp
        rw [hnone hnext, if_pos rfl, List.append_nil]
    | false =>
        have hnext := Dcache.Missunit.stateD_eq_amoWait_iff.mpr (.inr ⟨hwait, hanswer.symm.trans hack⟩)
        rw [h.awaited_of_waiting ht hsel hack hnext, if_neg Bool.false_ne_true, List.nil_append,
          awaited, if_pos hwait, h.req_port0 hc.retires]
  · have hidle : (q.state == .AMO_WAIT) = false := beq_eq_false_iff_ne.mpr hwait
    have hack : (amoResp cfg w.base.hw i).ack = false := by
      rw [hresp, answersAmo, hidle]
      rfl
    have hold : awaited w.base = [] := if_neg hwait
    rw [hold, hack, if_neg Bool.false_ne_true]
    by_cases hsent : q.state = .AMO ∧ Dcache.Missunit.stateD q j = .AMO_WAIT
    · have hsel : Dcache.Missunit.amoSel q = true := by
        rw [Dcache.Missunit.amoSel, hsent.1]
        rfl
      rw [if_pos hsent, h.awaited_of_waiting ht hsel hack hsent.2]
      rfl
    · have hnext : Dcache.Missunit.stateD q j ≠ .AMO_WAIT := by
        intro hnext
        rcases Dcache.Missunit.stateD_eq_amoWait_iff.mp hnext with ⟨hamo, -⟩ | ⟨hbad, -⟩
        · exact hsent ⟨hamo, hnext⟩
        · exact hwait hbad
      rw [if_neg hsent, hnone hnext]
      rfl

theorem AtomicsOk.next (h : AtomicsOk cfg w) (henv : Environment cfg w i) (ht : ¬TrapsAmo w i) :
    AtomicsOk cfg ((atomics cfg z).next w i) where
  loads := h.loads.next henv.1 henv.2
  entry := h.entry_next
  sampled := h.sampled_next
  room := h.room_next
  ready := h.ready_next henv.1 ht
  buffered := h.buffered_next henv.1
  busy := h.busy_next henv.1 ht
  once := by
    show w.requests ++ atomicRequests cfg w.base i = ((w.acked ++ _) ++ _).map atomicReq
    rw [h.once, List.map_append, List.append_assoc, h.books_next ht, ← List.map_append,
      List.append_assoc]

theorem atomicsOk_init : AtomicsOk cfg (atomics cfg z).init where
  loads := loadsOk_init
  entry := rfl
  sampled := by
    intro e he
    cases he
  room := fun _ => rfl
  ready := by
    intro e he
    cases he
  buffered := by
    intro n hv
    cases hv
  busy := by
    intro hsel
    cases hsel
  once := rfl

/-! ## Every run -/

theorem AtomicsOk.onceIfRetired (h : AtomicsOk cfg w) (ht : ¬TrapsAmo w i) :
    OnceIfRetired cfg z w i where
  once := h.once
  answered := by
    intro hwait
    have hsel : Dcache.Missunit.amoSel w.base.hw.dc.hw.miss = true := by
      rw [Dcache.Missunit.amoSel, hwait]
      rfl
    have hc := h.busy hsel
    have hanswer : (amoResp cfg w.base.hw i).ack = Dcache.rtrns i.dc .ATOMIC_ACK := by
      rw [amoResp_ack, answersAmo, hwait, hc.asked, Bool.and_true]
      rfl
    have hacked : ((atomics cfg z).next w i).acked =
        w.acked ++ if Dcache.rtrns i.dc .ATOMIC_ACK then awaited w.base else [] := by
      rw [← hanswer, ← h.atomicAcked_eq]
      rfl
    cases hrtrn : Dcache.rtrns i.dc .ATOMIC_ACK with
    | true =>
        rw [hrtrn] at hacked
        exact hacked
    | false =>
        rw [hrtrn] at hacked hanswer
        have hnext := Dcache.Missunit.stateD_eq_amoWait_iff.mpr (.inr ⟨hwait, (show Dcache.Missunit.amoAck
          w.base.hw.dc.hw.miss (Dcache.missIn cfg w.base.hw.dc.hw (dcIn cfg w.base.hw i)) = false
          from (show (Dcache.rtrns i.dc .ATOMIC_ACK && _) = false by rw [hrtrn]; rfl))⟩)
        refine ⟨(h.quiet ht hc.retires hanswer).flush, hacked.trans (List.append_nil _), ?_⟩
        rw [h.awaited_of_waiting ht hsel hanswer hnext, awaited, if_pos hwait,
          h.req_port0 hc.retires]
  alone := by
    intro hne
    rw [h.atomicRequests_eq] at hne
    split_ifs at hne with hsent
    · have hsel : Dcache.Missunit.amoSel w.base.hw.dc.hw.miss = true := by
        rw [Dcache.Missunit.amoSel, hsent.1]
        rfl
      have hc := h.busy hsel
      exact ⟨hc.queue, hc.empty, h.loads.books.no_write_of_empty hc.empty⟩
    · exact absurd rfl hne
  flushed := by
    intro hf
    rw [h.entry_next, h.held_of_flush ht hf]
    rfl

/-- The trap flushes the pipeline, and the atomic stays in the buffer. -/
theorem AtomicsOk.not_trapsAmo (h : AtomicsOk cfg w) (ho : OnceIfRetired cfg z w i) :
    ¬TrapsAmo w i := by
  rintro ⟨hflag, hret, hanswer⟩
  have hretiring := (retiring_of_retiresAmo cfg i hret).1
  have hf : (flushes cfg w.base.hw i).flushEx = true :=
    Backend.flushEx_of_flag _ _ hretiring hflag
  obtain ⟨e, hheld, -⟩ := h.port0_held hret
  have hack : (amoResp cfg w.base.hw i).ack = false := by
    rw [amoResp_ack, hanswer]
    rfl
  have hstays : ((atomics cfg z).next w i).held = some e := by
    show heldNext cfg w.base i w.held = some e
    have hheld : w.held = some e := hheld
    unfold heldNext
    rw [hf, amoValidCommit_eq, hret, hheld, hack]
    rfl
  have hempty := ho.flushed hf
  rw [h.entry_next, hstays] at hempty
  cases hempty

/-- In a run every atomic executes once, exactly if it retires, if and only if the violation
flag traps none of them at the commit port before the memory has answered it. -/
theorem atomics_once_iff (cfg : Dcache.Cfg) (z : Dcache.Start) (ins : List Input)
    (henv : (atomics cfg z).Throughout (Environment cfg) ins) :
    (atomics cfg z).Throughout (OnceIfRetired cfg z) ins ↔
      (atomics cfg z).Throughout (fun w i => ¬TrapsAmo w i) ins := by
  have hinv {ins : List Input} (henv : (atomics cfg z).Throughout (Environment cfg) ins)
      (ht : (atomics cfg z).Throughout (fun w i => ¬TrapsAmo w i) ins) :
      AtomicsOk cfg ((atomics cfg z).run ins) :=
    Machine.invariant atomicsOk_init (fun _ _ h he => h.next he.1 he.2) ins (henv.and ht)
  constructor
  · intro ho
    induction ins using List.reverseRecOn with
    | nil => exact Machine.throughout_nil
    | append_singleton ins i ih =>
        rw [Machine.throughout_snoc] at ho henv ⊢
        have ht := ih henv.1 ho.1
        exact ⟨ht, (hinv henv.1 ht).not_trapsAmo ho.2⟩
  · intro ht pre i post hp
    subst hp
    exact (hinv henv.take ht.take).onceIfRetired (ht pre i post rfl)

/-! ## An atomic that waits, and one that is trapped -/

open Dcache (cleared)

instance : Decidable (Environment cfg w i) :=
  inferInstanceAs (Decidable (_ ∧ _ ∧ _))

instance : Decidable (TrapsAmo w i) := inferInstanceAs (Decidable (_ ∧ _ ∧ _))

def plain : Dcache.Cfg := ⟨fun _ => true, fun _ => false⟩

theorem atomics_base (ins : List Input) :
    ((atomics cfg z).run ins).base = (tracked cfg z).run ins := by
  induction ins using List.reverseRecOn with
  | nil => rfl
  | append_singleton ins i ih =>
      rw [Machine.run_snoc, Machine.run_snoc, ← ih]
      rfl

theorem atomics_rest {n : Nat} (hn : n ≤ 256) :
    (atomics cfg z).run (List.replicate n (.of .quiet)) =
      ⟨(tracked cfg z).run (List.replicate n (.of .quiet)), none, [], []⟩ := by
  induction n with
  | zero => rfl
  | succ n ih =>
      obtain ⟨first, k, d, c, v, x, l, mem, hrun, -⟩ := flushing_rest cfg z hn
      have hheld : heldNext cfg (restTracked first k d) (.of .quiet) none = none := by
        cases first <;> rfl
      have hrequests : atomicRequests cfg (restTracked first k d) (.of .quiet) = [] := by
        have hnone : Dcache.accepted cfg (atRest first k d).dc.hw
          (dcIn cfg (atRest first k d) (.of .quiet)) = none := Dcache.accepted_quiet dcIn_rest
        exact congrArg (fun r => r.toList.filter fun r => r.rtype == .ATOMIC) hnone
      have hacked : atomicAcked cfg (restTracked first k d) (.of .quiet) = [] := by
        cases first <;> rfl
      rw [List.replicate_succ', Machine.run_snoc, ih (by omega), Machine.run_snoc, hrun]
      show Atomics.mk _ (heldNext cfg (restTracked first k d) _ none)
        ([] ++ atomicRequests cfg (restTracked first k d) _)
        ([] ++ atomicAcked cfg (restTracked first k d) _) = _
      rw [hheld, hrequests, hacked]
      rfl

/-- After the flush `amoadd.w x5, x0, (x0)` is executed. A return and its marker are followed
by another one; they retire together while it is written to the buffer, and two cycles later
the violation flag is up. -/
def twoAtomics : List Input :=
  let amo : Input := .of (.offer 0x000022af)
  let quiet : Input := .of .quiet
  let granted : Input := { quiet with dc.memDataAck := true }
  let answered : Input :=
    { quiet with
      dc.memRtrnVld := true
      dc.memRtrn := ⟨.ATOMIC_ACK, fun _ _ => 5, ⟨false, false, 0, 0⟩, Dcache.Missunit.amoTxId⟩ }
  [amo, quiet, quiet, quiet, granted, answered, quiet,
    .of (.offer 0x00008067), .of (.offer 0x00308013), amo, quiet,
    .of { Core.Input.quiet with wb := [⟨0, 0, default, true⟩, ⟨1, 3, default, true⟩] },
    quiet, quiet]

def trapRun : List Input := flushRun ++ twoAtomics

theorem run_flushRun : (atomics cfg z).run flushRun =
    ⟨restTracked false 256 (Dcache.flushing z 255), none, [], []⟩ := by
  rw [flushRun, atomics_rest (Nat.le_refl _), run_rest (by decide)]
  rfl

theorem environment_trapRun :
    (atomics plain cleared).Throughout (Environment plain) (trapRun ++ [.of .quiet]) := by
  rw [trapRun, List.append_assoc]
  refine Machine.throughout_append.mpr ⟨fun pre i post hp => ?_, ?_⟩
  · have henv := environment_flushRun plain cleared pre i post hp
    rw [← atomics_base] at henv
    exact henv
  · rw [run_flushRun]
    decide +kernel

/-- The first atomic is executed once; one cycle later the other one is trapped. -/
theorem atomics_once_trapRun :
    ((atomics plain cleared).run trapRun).requests.length = 1 ∧
      ((atomics plain cleared).run trapRun).acked.length = 1 ∧
      (atomics plain cleared).Throughout (OnceIfRetired plain cleared) trapRun ∧
      ¬(atomics plain cleared).Throughout (OnceIfRetired plain cleared)
        (trapRun ++ [.of .quiet]) := by
  have hfree : (atomics plain cleared).Throughout (fun w i => ¬TrapsAmo w i) trapRun := by
    refine Machine.throughout_append.mpr ⟨fun pre i post hp htraps => ?_, ?_⟩
    · obtain ⟨-, first, k, d, -, -, -, -, -, hrun, -⟩ :=
        rest_of_flushRun plain cleared hp
      have hret := htraps.2.1
      rw [atomics_base, hrun] at hret
      cases hret
    · rw [run_flushRun]
      decide +kernel
  have htraps : TrapsAmo ((atomics plain cleared).run trapRun) (.of .quiet) := by
    rw [trapRun, Machine.run_append, run_flushRun]
    decide +kernel
  rw [atomics_once_iff plain cleared trapRun environment_trapRun.take,
    atomics_once_iff plain cleared _ environment_trapRun, Machine.throughout_snoc]
  refine ⟨?_, ?_, hfree, fun h => h.2 htraps⟩
  · rw [trapRun, Machine.run_append, run_flushRun]
    decide +kernel
  · rw [trapRun, Machine.run_append, run_flushRun]
    decide +kernel

/-- A flushed atomic is left in the buffer. -/
example :
    ((atomics plain cleared).run (trapRun ++ [.of .quiet])).base.hw.core.st.amo.isSome = true ∧
      ((atomics plain cleared).run (trapRun ++ [.of .quiet])).base.hw.core.sb.issueCnt = 0 := by
  rw [Machine.run_snoc, trapRun, Machine.run_append, run_flushRun]
  decide +kernel

end Cva6.DataSide
