import Cva6.Dcache.WbufferInv
import Cva6.Sync.Machine
import Cva6.Sync.RoundRobin
/-!
# The states of a byte in the write buffer

A byte of an entry is free, waits to be sent, is in flight, or is in flight and has been written
again. The write buffer runs here with its round-robin arbiters and with a record of the traffic:
which transactions the memory has not answered, and which of their bytes were stored again.
-/

namespace Cva6.Dcache.Wbuffer

open Cva6.Sync

/-! ## The recorded run -/

structure Audit where
  q : Regs
  /-- The counters of `i_dirty_rr`, `i_tx_id_rr` and `i_clean_rr`. -/
  dirtyRr : BitVec 3
  txRr : BitVec 2
  checkRr : BitVec 3
  /-- The transactions that were sent and have not been answered. -/
  unanswered : TxId → Bool
  /-- The bytes stored again since the transaction was sent. -/
  rewritten : TxId → Mask

namespace Audit

variable (cfg : Cfg) (a : Audit) (i : Input)

def choice : Choice where
  dirtyPtr := RoundRobin.choose (h := 3) (dirty a.q) a.dirtyRr
  txId := RoundRobin.choose (h := 2) (fun id => !(a.q.txStat id).vld) a.txRr
  checkPtr := RoundRobin.choose (h := 3) (tocheck a.q) a.checkRr

def sends (id : TxId) : Bool := dirtyRdEn a.q i && id == txId a.q a.choice

def next : Audit where
  q := Wbuffer.next cfg a.q a.choice i
  dirtyRr := RoundRobin.advance a.dirtyRr (dirtyRdEn a.q i)
  txRr := RoundRobin.advance a.txRr (dirtyRdEn a.q i)
  checkRr := RoundRobin.advance a.checkRr (rdReq a.q && i.rdAck)
  unanswered := fun id =>
    a.sends i id || (a.unanswered id && !(i.missRtrnVld && id == i.missRtrnId))
  rewritten := fun id k =>
    if a.sends i id then stored cfg a.q i (dirtyPtr a.q a.choice) k
    else a.rewritten id k || stored cfg a.q i (a.q.txStat id).ptr k

end Audit

def audited (cfg : Cfg) : Machine Audit Input where
  init := ⟨reset, 0, 0, 0, fun _ => false, fun _ _ => false⟩
  next := Audit.next cfg

/-- A write return carries the number of a transaction that was sent and not answered. -/
def Answers (a : Audit) (i : Input) : Prop :=
  i.missRtrnVld = true → a.unanswered i.missRtrnId = true

instance (a : Audit) (i : Input) : Decidable (Answers a i) := inferInstanceAs (Decidable (_ → _))

/-! ## What holds -/

/-- The legal values of `{valid, dirty, txblock}`. -/
def byteStates : List (Bool × Bool × Bool) :=
  [(false, false, false), (true, true, false), (true, false, true), (true, true, true)]

def byteState (q : Regs) (n : Ptr) (k : Lane) : Bool × Bool × Bool :=
  ((q.buffer n).valid k, (q.buffer n).dirty k, (q.buffer n).txblock k)

structure Books (q : Regs) : Prop where
  byte : ∀ n k, byteState q n k ∈ byteStates
  one_tx : ∀ id id', (q.txStat id).vld = true → (q.txStat id').vld = true →
    (q.txStat id).ptr = (q.txStat id').ptr → id = id'
  tx_entry : ∀ id, (q.txStat id).vld = true → valid q (q.txStat id).ptr = true ∧
    ∀ k, (q.txStat id).be k = true → (q.buffer (q.txStat id).ptr).txblock k = true
  distinct : ∀ n n', valid q n = true → valid q n' = true →
    (q.buffer n).wtag = (q.buffer n').wtag → n = n'

section Cycle

variable (cfg : Cfg) (a : Audit) (i : Input)

/-- The answered transaction leaves the buffer in this cycle, and byte `k` of entry `n` is one
of its bytes. -/
def Returned (n : Ptr) (k : Lane) : Prop :=
  evict a.q i = true ∧ n = (a.q.txStat (rtrnId a.q)).ptr ∧ (a.q.txStat (rtrnId a.q)).be k = true

structure Evicts : Prop where
  answered : evict a.q i = true →
    (a.q.txStat (rtrnId a.q)).vld = true ∧ a.unanswered (rtrnId a.q) = false
  ended : ∀ id, (a.q.txStat id).vld = true →
    (((a.next cfg i).q.txStat id).vld = false ↔ evict a.q i = true ∧ id = rtrnId a.q)
  released : ∀ n k, (a.q.buffer n).txblock k = true →
    (((a.next cfg i).q.buffer n).txblock k = false ↔ Returned a i n k)
  cleared : ∀ n k, (a.q.buffer n).valid k = true →
    (((a.next cfg i).q.buffer n).valid k = false ↔
      Returned a i n k ∧ (a.next cfg i).rewritten (rtrnId a.q) k = false)

end Cycle

/-! ## The invariant -/

structure Audit.Ok (a : Audit) : Prop where
  ok : Wbuffer.Ok a.q
  /-- A byte does not stay once it is sent and answered. -/
  busy : ∀ n k, (a.q.buffer n).valid k = true →
    (a.q.buffer n).dirty k = true ∨ (a.q.buffer n).txblock k = true
  unanswered : ∀ id, a.unanswered id = true ↔
    (a.q.txStat id).vld = true ∧ id ∉ a.q.rtrnFifo
  rewritten : ∀ id k, (a.q.txStat id).vld = true → (a.q.txStat id).be k = true →
    (a.q.buffer (a.q.txStat id).ptr).dirty k = a.rewritten id k

variable {cfg : Cfg} {a : Audit} {i : Input}

theorem Audit.chosen (a : Audit) : Chosen a.q a.choice := by
  constructor
  · intro h
    exact RoundRobin.choose_req (h := 3) a.dirtyRr (any_iff.mp h)
  · intro h
    have hfree := RoundRobin.choose_req (h := 2) (m := fun id => !(a.q.txStat id).vld) a.txRr
      (any_iff.mp h)
    exact Bool.not_eq_true' _ ▸ hfree

theorem Audit.Ok.returns (h : a.Ok) (hr : Answers a i) : Returns a.q i :=
  fun hv => (h.unanswered _).mp (hr hv)

theorem reset_audit_ok : (audited cfg).init.Ok where
  ok := reset_ok
  busy n k hv := by cases hv
  unanswered id := by
    constructor
    · intro hu
      cases hu
    · rintro ⟨hv, -⟩
      cases hv
  rewritten id k hv := by cases hv

theorem Audit.Ok.busy_next (h : a.Ok) (n : Ptr) (k : Lane)
    (hv : ((a.next cfg i).q.buffer n).valid k = true) :
    ((a.next cfg i).q.buffer n).dirty k = true ∨
      ((a.next cfg i).q.buffer n).txblock k = true := by
  rcases valid_next.mp hv with ⟨hv, hret⟩ | hst
  · rcases h.busy n k hv with hd | hb
    · -- a byte that waits goes on waiting, or is sent
      cases hs : sent a.q a.choice i n k with
      | true => exact .inr (txblock_next.mpr (.inr hs))
      | false => exact .inl (dirty_next.mpr (.inl ⟨hd, hs⟩))
    · cases hr : returned a.q i n k with
      | false => exact .inr (txblock_next.mpr (.inl ⟨hb, hr⟩))
      | true =>
          have hnot : sent a.q a.choice i n k = false := by
            by_contra hs
            have hfree := (h.ok.of_sent a.chosen (Bool.not_eq_false _ ▸ hs)).2.2.1 k
            exact Bool.noConfusion (hfree.symm.trans hb)
          exact .inl (dirty_next.mpr (.inl ⟨hret hr, hnot⟩))
  · exact .inl (dirty_next.mpr (.inr hst))

/-- The converse of `Ok.of_mem_rtrnFifo_next`: there is room for every answer. -/
theorem Audit.Ok.mem_rtrnFifo_next (h : a.Ok) (hr : Answers a i) {id : TxId}
    (hid : (id ∈ a.q.rtrnFifo ∧ ¬(evict a.q i = true ∧ id = rtrnId a.q)) ∨
      (i.missRtrnVld = true ∧ id = i.missRtrnId)) : id ∈ rtrnFifoNext a.q i := by
  have hroom : i.missRtrnVld = true → a.q.rtrnFifo.length ≠ 4 := by
    intro hv hlen
    have hnew : (i.missRtrnId :: a.q.rtrnFifo).Nodup :=
      List.nodup_cons.mpr ⟨(h.returns hr hv).2, h.ok.fifo_nodup⟩
    have hle := hnew.length_le_card
    rw [List.length_cons, hlen, Fintype.card_fin] at hle
    omega
  have hkeep : id ∈ a.q.rtrnFifo ∧ ¬(evict a.q i = true ∧ id = rtrnId a.q) →
      id ∈ if evict a.q i then a.q.rtrnFifo.tail else a.q.rtrnFifo := by
    rintro ⟨hmem, hne⟩
    split
    case isTrue he =>
      rw [(of_evict he).1] at hmem
      exact (List.mem_cons.mp hmem).resolve_left fun heq => hne ⟨he, heq⟩
    case isFalse => exact hmem
  unfold rtrnFifoNext
  simp only
  split
  case isTrue => exact List.mem_append.mpr (hid.imp hkeep fun h => List.mem_singleton.mpr h.2)
  case isFalse hpush =>
    refine hkeep (hid.resolve_right ?_)
    rintro ⟨hv, -⟩
    refine hpush ?_
    rw [hv, Bool.true_and, bne_iff_ne]
    exact hroom hv

theorem Audit.Ok.of_sends (h : a.Ok) {id : TxId} (hs : a.sends i id = true) :
    dirtyRdEn a.q i = true ∧ id = txId a.q a.choice ∧ (a.q.txStat id).vld = false := by
  rw [Audit.sends, Bool.and_eq_true, beq_iff_eq] at hs
  obtain ⟨hen, rfl⟩ := hs
  exact ⟨hen, rfl, h.ok.free_txId a.chosen (of_dirtyRdEn hen).2⟩

theorem Audit.Ok.not_sends (h : a.Ok) {id : TxId} (hv : (a.q.txStat id).vld = true) :
    a.sends i id = false := by
  by_contra hs
  exact Bool.noConfusion ((h.of_sends (Bool.not_eq_false _ ▸ hs)).2.2.symm.trans hv)

theorem Audit.Ok.unanswered_next (h : a.Ok) (hr : Answers a i) (id : TxId) :
    (a.next cfg i).unanswered id = true ↔
      ((a.next cfg i).q.txStat id).vld = true ∧ id ∉ (a.next cfg i).q.rtrnFifo := by
  show (a.sends i id || (a.unanswered id && !(i.missRtrnVld && id == i.missRtrnId))) = true ↔
    (txStatNext a.q a.choice i id).vld = true ∧ id ∉ rtrnFifoNext a.q i
  cases hs : a.sends i id with
  | true =>
      obtain ⟨hen, rfl, hfree⟩ := h.of_sends hs
      have hfresh : (txStatNext a.q a.choice i (txId a.q a.choice)).vld = true := by
        unfold txStatNext
        rw [hen, beq_self_eq_true]
        rfl
      refine iff_of_true (Bool.true_or _) ⟨hfresh, ?_⟩
      intro hmem
      rcases h.ok.of_mem_rtrnFifo_next hmem with ⟨hmem, -⟩ | ⟨hv, heq⟩
      · exact Bool.noConfusion (hfree.symm.trans (h.ok.fifo_vld _ hmem))
      · rw [heq] at hfree
        exact Bool.noConfusion (hfree.symm.trans (h.returns hr hv).1)
  | false =>
      rw [Bool.false_or, Bool.and_eq_true, h.unanswered, Bool.not_eq_true', ← Bool.not_eq_true,
        Bool.and_eq_true, beq_iff_eq]
      constructor
      · rintro ⟨⟨hv, hnot⟩, hret⟩
        have hkeep : ¬(evict a.q i = true ∧ id = rtrnId a.q) := by
          rintro ⟨he, rfl⟩
          refine hnot ?_
          rw [(of_evict he).1]
          exact List.mem_cons_self
        rw [h.ok.vld_next a.chosen hv hkeep]
        refine ⟨hv, fun hmem => ?_⟩
        rcases h.ok.of_mem_rtrnFifo_next hmem with ⟨hmem, -⟩ | hnew
        · exact hnot hmem
        · exact hret hnew
      · rintro ⟨hv, hnot⟩
        rcases of_vld_next hv with ⟨hen, rfl, -⟩ | ⟨hold, -, hkeep⟩
        · rw [Audit.sends, hen, beq_self_eq_true] at hs
          cases hs
        · exact ⟨⟨hold, fun hmem => hnot (h.mem_rtrnFifo_next hr (.inl ⟨hmem, hkeep⟩))⟩,
            fun hret => hnot (h.mem_rtrnFifo_next hr (.inr hret))⟩

theorem Audit.Ok.rewritten_next (h : a.Ok) (id : TxId) (k : Lane)
    (hv : ((a.next cfg i).q.txStat id).vld = true)
    (hk : ((a.next cfg i).q.txStat id).be k = true) :
    ((a.next cfg i).q.buffer ((a.next cfg i).q.txStat id).ptr).dirty k =
      (a.next cfg i).rewritten id k := by
  show (bufferNext cfg a.q a.choice i (txStatNext a.q a.choice i id).ptr).dirty k =
    if a.sends i id then stored cfg a.q i (dirtyPtr a.q a.choice) k
    else a.rewritten id k || stored cfg a.q i (a.q.txStat id).ptr k
  change (txStatNext a.q a.choice i id).be k = true at hk
  rw [bufferNext_dirty]
  rcases of_vld_next hv with ⟨hen, rfl, htx⟩ | ⟨hold, htx, -⟩
  · have hs : a.sends i (txId a.q a.choice) = true := by
      rw [Audit.sends, hen, beq_self_eq_true]
      rfl
    rw [htx] at hk ⊢
    have hsent : sent a.q a.choice i (dirtyPtr a.q a.choice) k = true := by
      change txBe a.q a.choice k = true at hk
      rw [sent, hen, beq_self_eq_true, hk]
      rfl
    rw [if_pos hs, hsent, Bool.not_true, Bool.and_false, Bool.false_or]
  · rw [htx] at hk ⊢
    have hsent : sent a.q a.choice i (a.q.txStat id).ptr k = false := by
      by_contra hs
      obtain ⟨heq, hen, -⟩ := h.ok.of_sent a.chosen (Bool.not_eq_false _ ▸ hs)
      exact h.ok.ptr_ne_dirtyPtr a.chosen hen hold heq
    rw [h.not_sends hold, if_neg Bool.false_ne_true, hsent, Bool.not_false, Bool.and_true,
      h.rewritten id k hold hk]

theorem Audit.Ok.next (h : a.Ok) (hr : Answers a i) : (a.next cfg i).Ok where
  ok := h.ok.next a.chosen (h.returns hr)
  busy := h.busy_next
  unanswered := h.unanswered_next hr
  rewritten := h.rewritten_next

/-! ## One state and one cycle -/

theorem Audit.Ok.books (h : a.Ok) : Books a.q where
  byte n k := by
    have hd := h.ok.dirty_valid n k
    have hb := h.ok.txblock_valid n k
    have hbusy := h.busy n k
    unfold byteState
    revert hd hb hbusy
    cases (a.q.buffer n).valid k <;> cases (a.q.buffer n).dirty k <;>
      cases (a.q.buffer n).txblock k <;> decide
  one_tx := h.ok.tx_ptr
  tx_entry id hv := by
    obtain ⟨k, hk⟩ := h.ok.tx_any id hv
    exact ⟨valid_iff.mpr ⟨k, h.ok.txblock_valid _ k (h.ok.tx_block id hv k hk)⟩,
      h.ok.tx_block id hv⟩
  distinct := h.ok.distinct

theorem returned_iff {n : Ptr} {k : Lane} : returned a.q i n k = true ↔ Returned a i n k := by
  unfold returned Returned
  rw [Bool.and_eq_true, Bool.and_eq_true, beq_iff_eq, and_assoc]
  rfl

theorem Audit.Ok.evicts (h : a.Ok) : Evicts cfg a i where
  answered he := by
    refine ⟨h.ok.rtrnId_vld he, ?_⟩
    by_contra hu
    refine ((h.unanswered _).mp (Bool.not_eq_false _ ▸ hu)).2 ?_
    rw [(of_evict he).1]
    exact List.mem_cons_self
  ended id hv := by
    show (txStatNext a.q a.choice i id).vld = false ↔ _
    constructor
    · intro hend
      by_contra hkeep
      rw [h.ok.vld_next a.chosen hv hkeep, hv] at hend
      cases hend
    · rintro ⟨he, rfl⟩
      unfold txStatNext
      rw [show (dirtyRdEn a.q i && rtrnId a.q == txId a.q a.choice) = false from h.not_sends hv,
        he, beq_self_eq_true]
      rfl
  released n k hb := by
    show (bufferNext cfg a.q a.choice i n).txblock k = false ↔ _
    have hsent : sent a.q a.choice i n k = false := by
      by_contra hs
      have hfree := (h.ok.of_sent a.chosen (Bool.not_eq_false _ ▸ hs)).2.2.1 k
      exact Bool.noConfusion (hfree.symm.trans hb)
    rw [← returned_iff, bufferNext_txblock, hb, hsent, Bool.true_and, Bool.or_false,
      Bool.not_eq_false']
  cleared n k hv := by
    show (bufferNext cfg a.q a.choice i n).valid k = false ↔ _ ∧
      (if a.sends i (rtrnId a.q) then _ else a.rewritten (rtrnId a.q) k ||
        stored cfg a.q i (a.q.txStat (rtrnId a.q)).ptr k) = false
    rw [bufferNext_valid, hv, Bool.true_and, Bool.or_eq_false_iff, Bool.not_eq_false',
      Bool.and_eq_true, Bool.not_eq_true', returned_iff, and_assoc]
    refine and_congr_right ?_
    rintro ⟨he, rfl, hbe⟩
    have hvld := h.ok.rtrnId_vld he
    rw [h.not_sends hvld, if_neg Bool.false_ne_true, Bool.or_eq_false_iff,
      h.rewritten _ k hvld hbe]

/-! ## Every run -/

/-- In every run in which the memory answers only what was sent, every state keeps the books,
and every further cycle evicts the bytes of an answered transaction that were not stored again. -/
theorem byte_states (cfg : Cfg) (ins : List Input) (hr : (audited cfg).Throughout Answers ins) :
    Books ((audited cfg).run ins).q ∧
      ∀ i, Answers ((audited cfg).run ins) i → Evicts cfg ((audited cfg).run ins) i := by
  have hok : ((audited cfg).run ins).Ok :=
    Machine.invariant (I := Audit.Ok) reset_audit_ok (fun _ _ h hr => h.next hr) ins hr
  exact ⟨hok.books, fun _ _ => hok.evicts⟩

def Input.storing (wtag : WordAddr) (lane : Lane) : Input where
  store := ⟨wtag, fun _ => 7, fun k => k == lane, true⟩
  missAck := false
  missRtrnVld := false
  missRtrnId := 0
  rdAck := true
  rdHitOh := fun _ => false
  wrClVld := false
  wrClIdx := 0
  wrAck := false

/-- A byte is stored, sent, stored again while in flight, and answered; it stays to be sent
again. -/
def rewriteRun : List Input :=
  let idle : Input := { Input.storing default 0 with store.dataReq := false }
  [Input.storing default 0, { idle with missAck := true }, Input.storing default 0, idle, idle,
    { idle with missRtrnVld := true }, idle]

theorem byte_states_rewriteRun : (audited ⟨fun _ => true, fun _ => false⟩).Throughout Answers
      rewriteRun ∧
    Books ((audited ⟨fun _ => true, fun _ => false⟩).run rewriteRun).q ∧
      byteState ((audited ⟨fun _ => true, fun _ => false⟩).run rewriteRun).q 0 0 =
        (true, true, false) := by
  have hr : (audited ⟨fun _ => true, fun _ => false⟩).Throughout Answers rewriteRun := by
    decide +kernel
  exact ⟨hr, (byte_states _ rewriteRun hr).1, by decide +kernel⟩

end Cva6.Dcache.Wbuffer
