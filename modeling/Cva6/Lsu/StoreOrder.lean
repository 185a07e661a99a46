import Cva6.Lsu.StoreUnit
import Cva6.Sync.Speculation
/-!
# Stores reach the data cache in program order

The store unit is run together with a record of the stores it has been given: the
LSU requests it has posted and that are not retired yet, those the commit stage
has committed, those that were flushed, and the write requests the data cache has
granted. The circular queues of the store buffer hold exactly the pending and the
committed but not yet granted stores of this record.
-/

namespace Cva6.Lsu.StoreUnit

open Cva6.Sync

/-! ## What the unit and its queues hold -/

/-- A request the store unit has posted to its buffers, with the physical address
that came back for it. -/
structure Posted where
  ctrl : LsuCtrl
  paddr : BitVec 32

/-- The queue entry of a store request: its address, its data rotated to the byte
lanes, its byte enables and its size. -/
def storeEntry (p : Posted) : StoreBuffer.Entry :=
  ⟨p.paddr, dataAlign (p.ctrl.vaddr.setWidth 3) (p.ctrl.data.setWidth 32), p.ctrl.be,
    extractTransferSize p.ctrl.operator, true⟩

/-- The write request accepted by the data cache in this cycle. -/
def grantedNow (s : State) (i : Input) : List StoreBuffer.ReqPort :=
  if StoreBuffer.dataReq s.buffer && i.dataGnt then [StoreBuffer.reqPort s.buffer] else []

/-- The speculative queue holds these entries; the requests granted so far and those still in the
commit queue are the committed ones; a store about to be posted finds room. -/
structure Holds (s : State) (speculative : List StoreBuffer.Entry)
    (committed granted : List StoreBuffer.ReqPort) : Prop where
  spec_ok : s.buffer.speculative.Ok
  commit_ok : s.buffer.commit.Ok
  spec_contents : s.buffer.speculative.contents = speculative
  commit_contents :
    granted ++ s.buffer.commit.contents.map StoreBuffer.Entry.reqPort = committed
  room : s.unit.state = .VALID_STORE → s.buffer.speculative.statusCnt.toNat ≤ 3

/-- The unit has sampled the request that was taken in the cycle before. -/
structure Samples (s : State) (current : Option LsuCtrl) : Prop where
  state : s.unit.state = .VALID_STORE ↔ current.isSome = true
  sampled : ∀ c ∈ current, s.unit.amoOp = amoOp c.operator ∧
    ∀ i, isAmo c.operator = false → (bufferIn s i).entry = storeEntry ⟨c, i.paddr⟩

section Unit

variable {s : State} {i : Input} {speculative : List StoreBuffer.Entry}
  {committed granted : List StoreBuffer.ReqPort} {current : Option LsuCtrl}

theorem grantedNow_append (h : s.buffer.commit.Ok) :
    grantedNow s i ++
      (if StoreBuffer.dataReq s.buffer && i.dataGnt then s.buffer.commit.contents.tail
        else s.buffer.commit.contents).map StoreBuffer.Entry.reqPort =
      s.buffer.commit.contents.map StoreBuffer.Entry.reqPort := by
  unfold grantedNow
  cases hg : StoreBuffer.dataReq s.buffer && i.dataGnt with
  | false => simp
  | true =>
      rw [Bool.and_eq_true] at hg
      have hpos := (StoreBuffer.Queue.head_valid_iff h).mp hg.1
      rw [StoreBuffer.Queue.contents_eq_cons h hpos]
      rfl

theorem Holds.head (h : Holds s speculative committed granted) (hne : speculative ≠ []) :
    0 < s.buffer.speculative.statusCnt.toNat ∧
      speculative.head? = some s.buffer.speculative.head := by
  have hpos : 0 < s.buffer.speculative.statusCnt.toNat := by
    rw [← StoreBuffer.Queue.length_contents, h.spec_contents]
    exact List.length_pos_iff.mpr hne
  refine ⟨hpos, ?_⟩
  rw [← h.spec_contents, StoreBuffer.Queue.contents_eq_cons h.spec_ok hpos]
  rfl

theorem Holds.valid_room (h : Holds s speculative committed granted)
    (hv : (bufferIn s i).valid = true) : s.buffer.speculative.statusCnt.toNat < 4 :=
  Nat.lt_succ_of_le (h.room (state_of_bufferIn_valid hv))

theorem Holds.next (h : Holds s speculative committed granted)
    (hc : i.commit = true →
      speculative ≠ [] ∧ StoreBuffer.commitReady s.buffer = true ∧ i.flush = false) :
    Holds (storeUnit.next s i)
      (if i.flush then []
        else (if i.commit then speculative.tail else speculative) ++
          if (bufferIn s i).valid then [(bufferIn s i).entry] else [])
      (committed ++
        if i.commit then (speculative.head?.map StoreBuffer.Entry.reqPort).toList else [])
      (granted ++ grantedNow s i) := by
  have hcommit : i.commit = true →
      0 < s.buffer.speculative.statusCnt.toNat ∧ i.flush = false :=
    fun hi => ⟨(h.head (hc hi).1).1, (hc hi).2.2⟩
  have hspec := StoreBuffer.coreIf_spec (i := bufferIn s i) h.spec_ok h.valid_room hcommit
  have hstore := StoreBuffer.storeIf_spec (i := bufferIn s i) h.commit_ok (by
    intro hi
    refine ⟨?_, (StoreBuffer.Queue.head_valid_iff h.spec_ok).mpr (hcommit hi).1⟩
    simpa [StoreBuffer.commitReady, BitVec.lt_def] using (hc hi).2.1)
  refine ⟨hspec.1, hstore.1, ?_, ?_, room_next h.spec_ok h.room hcommit⟩
  · rw [← h.spec_contents]
    exact hspec.2
  · have hnew : (if i.commit then [s.buffer.speculative.head] else []).map
          StoreBuffer.Entry.reqPort =
        if i.commit then (speculative.head?.map StoreBuffer.Entry.reqPort).toList else [] := by
      cases hi : i.commit with
      | false => rfl
      | true =>
          rw [(h.head (hc hi).1).2]
          rfl
    show granted ++ grantedNow s i ++
      (StoreBuffer.storeIf s.buffer (bufferIn s i)).contents.map _ = _
    rw [hstore.2, List.map_append, ← h.commit_contents, ← hnew,
      ← grantedNow_append h.commit_ok (i := i)]
    simp only [List.append_assoc]
    rfl

theorem samples_next (s : State) (i : Input) :
    Samples (storeUnit.next s i) (if taken s i then some i.lsuCtrl else none) where
  state := by
    show (control s i).state = .VALID_STORE ↔ _
    rw [state_validStore_iff]
    cases taken s i <;> simp
  sampled c hc := by
    obtain rfl : c = i.lsuCtrl := by
      split at hc
      · exact (Option.some.inj hc).symm
      · cases hc
    refine ⟨rfl, fun j ha => ?_⟩
    simp [bufferIn, StoreBuffer.Input.entry, storeEntry, storeUnit, unitNext, ha]

theorem Samples.entry_posted (h : Samples s current) (hf : i.flush = false) :
    (if (bufferIn s i).valid then [(bufferIn s i).entry] else []) =
      (current.toList.filter fun c => !i.exValid && !isAmo c.operator).map
        fun c => storeEntry ⟨c, i.paddr⟩ := by
  have hvalid : (bufferIn s i).valid =
      ((s.unit.state == .VALID_STORE && !i.exValid) && s.unit.amoOp == .NONE) := by
    simp [bufferIn, control_stValid, hf]
  have hstate := h.state
  rw [hvalid]
  cases hcur : current with
  | none =>
      have hs : s.unit.state ≠ .VALID_STORE := by simp [hstate, hcur]
      simp [hs]
  | some c =>
      obtain ⟨hamo, hentry⟩ := h.sampled c hcur
      have hs : s.unit.state = .VALID_STORE := by simp [hstate, hcur]
      cases ha : isAmo c.operator with
      | true =>
          have hne : s.unit.amoOp ≠ .NONE := by
            rw [hamo, Ne, amoOp_eq_none_iff, ha]
            simp
          simp [hne, ha]
      | false =>
          have heq : s.unit.amoOp = .NONE := by rwa [hamo, amoOp_eq_none_iff]
          cases hex : i.exValid <;> simp [hs, heq, ha, hentry i ha]

end Unit

/-! ## The record -/

/-- The request taken in the previous cycle, the fates of the posted ones, and the
write requests granted so far. -/
structure Record where
  current : Option LsuCtrl
  track : Track Posted
  granted : List StoreBuffer.ReqPort

structure Tracked where
  hw : State
  record : Record

def headIsAmo (t : Track Posted) : Bool :=
  t.pending.head?.any fun e => isAmo e.2.ctrl.operator

def headIsStore (t : Track Posted) : Bool :=
  t.pending.head?.any fun e => !isAmo e.2.ctrl.operator

theorem headIsStore_iff {t : Track Posted} : headIsStore t = true ↔
    ∃ e rest, t.pending = e :: rest ∧ isAmo e.2.ctrl.operator = false := by
  unfold headIsStore
  cases t.pending <;> simp

/-- The items that leave `pending` by retiring in this cycle. An atomic retires
when the data cache has answered it. -/
def retireStep (t : Track Posted) (i : Input) : Track Posted :=
  if i.commit then t.commit else if i.amoAck && headIsAmo t then t.retire else t

def trackNext (t : Tracked) (i : Input) : Track Posted :=
  let r := retireStep t.record.track i
  if i.flush then r.squash
  else
    match t.record.current with
    | some c => if i.exValid then r else r.post ⟨c, i.paddr⟩
    | none => r

def tracked : Machine Tracked Input where
  init := ⟨storeUnit.init, ⟨none, Track.empty, []⟩⟩
  next t i :=
    { hw := storeUnit.next t.hw i
      record :=
        { current := if taken t.hw i then some i.lsuCtrl else none
          track := trackNext t i
          granted := t.record.granted ++ grantedNow t.hw i } }

theorem tracked_hw (ins : List Input) : (tracked.run ins).hw = storeUnit.run ins := by
  induction ins using List.reverseRecOn with
  | nil => rfl
  | append_singleton ins i ih =>
      rw [Machine.run_snoc, Machine.run_snoc, ← ih]
      rfl

/-- A commit is only given when the commit queue is ready, the oldest unretired
instruction is a posted store, and the pipeline is not flushed. -/
def CommitDiscipline (t : Tracked) (i : Input) : Prop :=
  i.commit = true →
    StoreBuffer.commitReady t.hw.buffer = true ∧ headIsStore t.record.track = true ∧
      i.flush = false

instance (t : Tracked) (i : Input) : Decidable (CommitDiscipline t i) :=
  inferInstanceAs (Decidable (_ → _))

def storeEntries (l : List (Nat × Posted)) : List StoreBuffer.Entry :=
  (l.filter fun e => !isAmo e.2.ctrl.operator).map fun e => storeEntry e.2

def committedPorts (t : Tracked) : List StoreBuffer.ReqPort :=
  t.record.track.committed.map fun e => (storeEntry e.2).reqPort

structure Inv (t : Tracked) : Prop extends
    Holds t.hw (storeEntries t.record.track.pending) (committedPorts t) t.record.granted,
    Samples t.hw t.record.current where
  committed_stores : ∀ e ∈ t.record.track.committed, isAmo e.2.ctrl.operator = false
  numbered : t.record.track.Numbered

/-! ## One cycle -/

@[simp] theorem storeEntries_append (l l' : List (Nat × Posted)) :
    storeEntries (l ++ l') = storeEntries l ++ storeEntries l' := by
  simp [storeEntries]

theorem storeEntries_cons_store {e : Nat × Posted} {l : List (Nat × Posted)}
    (h : isAmo e.2.ctrl.operator = false) :
    storeEntries (e :: l) = storeEntry e.2 :: storeEntries l := by
  simp [storeEntries, h]

theorem storeEntries_cons_amo {e : Nat × Posted} {l : List (Nat × Posted)}
    (h : isAmo e.2.ctrl.operator = true) : storeEntries (e :: l) = storeEntries l := by
  simp [storeEntries, h]

variable {t : Tracked} {i : Input}

theorem storeEntries_retireStep (hd : CommitDiscipline t i) :
    storeEntries (retireStep t.record.track i).pending =
      if i.commit then (storeEntries t.record.track.pending).tail
      else storeEntries t.record.track.pending := by
  unfold retireStep
  cases hc : i.commit with
  | true =>
      obtain ⟨e, rest, hp, he⟩ := headIsStore_iff.mp (hd hc).2.1
      simp [Track.commit, hp, storeEntries_cons_store he]
  | false =>
      cases hr : i.amoAck && headIsAmo t.record.track with
      | true =>
          rw [Bool.and_eq_true] at hr
          cases hp : t.record.track.pending with
          | nil => simp [Track.retire, hp]
          | cons e rest =>
              have he : isAmo e.2.ctrl.operator = true := by
                simpa [headIsAmo, hp] using hr.2
              simp [Track.retire, hp, storeEntries_cons_amo he]
      | false => simp

theorem CommitDiscipline.holds (hd : CommitDiscipline t i) (hc : i.commit = true) :
    storeEntries t.record.track.pending ≠ [] ∧ StoreBuffer.commitReady t.hw.buffer = true ∧
      i.flush = false ∧ (storeEntries t.record.track.pending).head? =
        t.record.track.pending.head?.map fun e => storeEntry e.2 := by
  obtain ⟨hready, hhead, hflush⟩ := hd hc
  obtain ⟨e, rest, hp, he⟩ := headIsStore_iff.mp hhead
  rw [hp, storeEntries_cons_store he]
  exact ⟨List.cons_ne_nil _ _, hready, hflush, rfl⟩

theorem Inv.pending_next (h : Inv t) (hd : CommitDiscipline t i) :
    storeEntries (tracked.next t i).record.track.pending =
      if i.flush then []
      else (if i.commit then (storeEntries t.record.track.pending).tail
          else storeEntries t.record.track.pending) ++
        (if (bufferIn t.hw i).valid then [(bufferIn t.hw i).entry] else []) := by
  show storeEntries (trackNext t i).pending = _
  unfold trackNext
  cases hf : i.flush with
  | true => rfl
  | false =>
      rw [← storeEntries_retireStep hd, h.entry_posted hf]
      cases t.record.current with
      | none => exact (List.append_nil _).symm
      | some c =>
          cases hex : i.exValid with
          | true => exact (List.append_nil _).symm
          | false =>
              show storeEntries ((retireStep t.record.track i).pending ++ _) = _
              rw [storeEntries_append]
              cases ha : isAmo c.operator <;> simp [storeEntries, ha]

theorem committed_next (t : Tracked) (i : Input) :
    (tracked.next t i).record.track.committed =
      t.record.track.committed ++
        if i.commit then t.record.track.pending.head?.toList else [] := by
  show (trackNext t i).committed = _
  have hretire : (retireStep t.record.track i).committed =
      t.record.track.committed ++
        if i.commit then t.record.track.pending.head?.toList else [] := by
    unfold retireStep
    cases i.commit <;> cases i.amoAck && headIsAmo t.record.track <;>
      simp [Track.commit, Track.retire]
  rw [← hretire]
  unfold trackNext
  cases i.flush <;> cases t.record.current <;> cases i.exValid <;> rfl

theorem committedPorts_next (hd : CommitDiscipline t i) :
    committedPorts (tracked.next t i) = committedPorts t ++
      if i.commit then
        ((storeEntries t.record.track.pending).head?.map StoreBuffer.Entry.reqPort).toList
      else [] := by
  rw [committedPorts, committed_next, List.map_append]
  refine congrArg _ ?_
  cases hc : i.commit with
  | false => rfl
  | true =>
      rw [(hd.holds hc).2.2.2]
      cases t.record.track.pending.head? <;> rfl

theorem Inv.numbered_next (h : Inv t) (i : Input) :
    (tracked.next t i).record.track.Numbered := by
  have hretire : (retireStep t.record.track i).Numbered := by
    unfold retireStep
    split
    · exact h.numbered.commit
    · split
      · exact h.numbered.retire
      · exact h.numbered
  show (trackNext t i).Numbered
  unfold trackNext
  cases i.flush with
  | true => exact hretire.squash
  | false =>
      cases t.record.current with
      | none => exact hretire
      | some c =>
          cases i.exValid with
          | true => exact hretire
          | false => exact hretire.post _

theorem Inv.next (h : Inv t) (hd : CommitDiscipline t i) : Inv (tracked.next t i) where
  toHolds := by
    have hnext := h.toHolds.next (i := i) fun hc =>
      ⟨(hd.holds hc).1, (hd.holds hc).2.1, (hd.holds hc).2.2.1⟩
    rw [← h.pending_next hd, ← committedPorts_next hd] at hnext
    exact hnext
  toSamples := samples_next t.hw i
  committed_stores := by
    rw [committed_next]
    intro e he
    rcases List.mem_append.mp he with he | he
    · exact h.committed_stores e he
    · cases hc : i.commit with
      | false => simp [hc] at he
      | true =>
          obtain ⟨e', rest, hp, he'⟩ := headIsStore_iff.mp (hd hc).2.1
          obtain rfl : e = e' := by simpa [hc, hp] using he
          exact he'
  numbered := h.numbered_next i

theorem inv_init : Inv tracked.init where
  spec_ok := StoreBuffer.Queue.reset_ok
  commit_ok := StoreBuffer.Queue.reset_ok
  spec_contents := rfl
  commit_contents := rfl
  committed_stores := by simp [tracked, Track.empty]
  room := by simp [tracked, storeUnit, Regs.reset]
  state := by simp [tracked, storeUnit, Regs.reset]
  sampled := by simp [tracked]
  numbered := Track.empty_numbered

theorem inv_run {ins : List Input} (h : tracked.Throughout CommitDiscipline ins) :
    Inv (tracked.run ins) :=
  Machine.invariant inv_init (fun _ _ hI hd => hI.next hd) ins h

/-! ## Whole runs -/

/-- What is granted now and what has been granted before are the requests of the
committed stores, one each and in commit order; the ones still missing are in the
commit queue, whose head is requested next. -/
theorem Inv.granted_eq (h : Inv t) :
    t.record.granted = (committedPorts t).take t.record.granted.length ∧
      (StoreBuffer.dataReq t.hw.buffer = true →
        (committedPorts t)[t.record.granted.length]? = some (StoreBuffer.reqPort t.hw.buffer)) ∧
      (StoreBuffer.noStPending t.hw.buffer = true → t.record.granted = committedPorts t) := by
  have hall : committedPorts t = t.record.granted ++
      t.hw.buffer.commit.contents.map StoreBuffer.Entry.reqPort := h.commit_contents.symm
  refine ⟨?_, ?_, ?_⟩
  · rw [hall, List.take_left]
  · intro hreq
    have hpos := (StoreBuffer.Queue.head_valid_iff h.commit_ok).mp hreq
    rw [hall, StoreBuffer.Queue.contents_eq_cons h.commit_ok hpos]
    simp [StoreBuffer.reqPort]
  · intro hempty
    have hzero : t.hw.buffer.commit.statusCnt = 0 := by
      simpa [StoreBuffer.noStPending] using hempty
    have hnil : t.hw.buffer.commit.contents = [] := by
      rw [← List.length_eq_zero_iff, StoreBuffer.Queue.length_contents, hzero]
      rfl
    rw [hall, hnil, List.map_nil, List.append_nil]

/-- No queue is pushed into when it is full or popped from when it is empty. -/
structure NoOverflow (s : State) (i : Input) : Prop where
  push_spec : (bufferIn s i).valid = true → s.buffer.speculative.statusCnt ≠ 4
  pop_spec : i.commit = true → s.buffer.speculative.statusCnt ≠ 0
  push_commit : i.commit = true → s.buffer.commit.statusCnt ≠ 4
  pop_commit : StoreBuffer.dataReq s.buffer = true → s.buffer.commit.statusCnt ≠ 0

theorem Inv.noOverflow (h : Inv t) (hd : CommitDiscipline t i) : NoOverflow t.hw i where
  push_spec := by
    intro hv heq
    have := h.valid_room hv
    simp [heq] at this
  pop_spec := by
    intro hc heq
    have := (h.head (hd.holds hc).1).1
    simp [heq] at this
  push_commit := by
    intro hc heq
    have := (hd hc).1
    simp [StoreBuffer.commitReady, heq] at this
  pop_commit := by
    intro hreq heq
    have := (StoreBuffer.Queue.head_valid_iff h.commit_ok).mp hreq
    simp [heq] at this

/-- The data cache is asked to write exactly the committed stores, once each and in
program order, a flushed store never, and the queues neither overflow nor lose
count of their entries. -/
theorem stores_in_program_order (ins : List Input) (h : tracked.Throughout CommitDiscipline ins) :
    let t := tracked.run ins
    (t.record.granted = (committedPorts t).take t.record.granted.length ∧
      (StoreBuffer.dataReq t.hw.buffer = true →
        (committedPorts t)[t.record.granted.length]? = some (StoreBuffer.reqPort t.hw.buffer)) ∧
      (StoreBuffer.noStPending t.hw.buffer = true → t.record.granted = committedPorts t)) ∧
    (∀ e ∈ t.record.track.committed, isAmo e.2.ctrl.operator = false) ∧
    (t.record.track.committed.map Prod.fst).Pairwise (· < ·) ∧
    (∀ e ∈ t.record.track.squashed, ∀ e' ∈ t.record.track.committed, e'.1 ≠ e.1) ∧
    t.hw.buffer.speculative.Counted ∧ t.hw.buffer.commit.Counted ∧
    ∀ pre i post, ins = pre ++ i :: post → NoOverflow (tracked.run pre).hw i := by
  intro t
  have hinv : Inv t := inv_run h
  refine ⟨hinv.granted_eq, hinv.committed_stores, hinv.numbered.committed_ordered,
    fun e he => hinv.numbered.squashed_not_committed he, hinv.spec_ok.counted,
    hinv.commit_ok.counted, ?_⟩
  rintro pre i post rfl
  exact (inv_run h.take).noOverflow (h pre i post rfl)

/-- A word store is requested, posted, committed and granted, while a second one is
posted behind it and flushed. -/
def storeRun : List Input :=
  let idle : Input := { (default : Input) with dtlbHit := true }
  let req (a d : BitVec 32) : LsuCtrl :=
    { (default : LsuCtrl) with
      valid := true, vaddr := a, data := d.setWidth 64, be := 0x0f, fu := .STORE, operator := .SW }
  [{ idle with lsuCtrl := req 0x100 0xcafe },
    { idle with lsuCtrl := req 0x104 0xbeef, paddr := 0x100 },
    { idle with paddr := 0x104 },
    { idle with commit := true },
    { idle with flush := true, dataGnt := true }]

theorem stores_in_program_order_storeRun :
    (tracked.run storeRun).record.granted = committedPorts (tracked.run storeRun) ∧
      (tracked.run storeRun).record.granted.length = 1 ∧
      (tracked.run storeRun).record.track.squashed.length = 1 := by
  have h := stores_in_program_order storeRun (by decide +kernel)
  exact ⟨h.1.2.2 (by decide +kernel), by decide +kernel, by decide +kernel⟩

end Cva6.Lsu.StoreUnit
