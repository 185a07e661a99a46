import Cva6.Lsu.Types
import Cva6.Sync.Ring
/-!
# The store buffer

`store_buffer.sv` with `DEPTH_SPEC = DEPTH_COMMIT = 4`. Stores wait in the
speculative queue until the commit stage moves them to the commit queue, from
which they are presented to the data cache in order. Each queue is a circular
buffer with two 2-bit pointers, a 3-bit fill counter and a valid bit per slot.
-/

namespace Cva6.Lsu.StoreBuffer

structure Entry where
  address : BitVec 32
  data : XLen
  be : BitVec 8
  dataSize : BitVec 2
  valid : Bool
  deriving DecidableEq, Repr, Inhabited

abbrev Pointer := BitVec 2

structure Queue where
  entries : Pointer → Entry
  readPointer : Pointer
  writePointer : Pointer
  statusCnt : BitVec 3

namespace Queue

def reset : Queue := ⟨fun _ => ⟨0, 0, 0, 0, false⟩, 0, 0, 0⟩

def push (q : Queue) (e : Entry) : Queue :=
  { q with
    entries := Function.update q.entries q.writePointer e
    writePointer := q.writePointer + 1
    statusCnt := q.statusCnt + 1 }

def head (q : Queue) : Entry := q.entries q.readPointer

def pop (q : Queue) : Queue :=
  { q with
    entries := Function.update q.entries q.readPointer { q.head with valid := false }
    readPointer := q.readPointer + 1
    statusCnt := q.statusCnt - 1 }

/-- Invalidate every slot and return the write pointer to `ptr`. -/
def flush (q : Queue) (ptr : Pointer) : Queue :=
  { q with
    entries := fun n => { q.entries n with valid := false }
    writePointer := ptr
    statusCnt := 0 }

end Queue

structure Regs where
  speculative : Queue
  commit : Queue

def reset : Regs := ⟨Queue.reset, Queue.reset⟩

structure Input where
  flush : Bool
  commit : Bool
  valid : Bool
  paddr : BitVec 32
  data : XLen
  be : BitVec 8
  dataSize : BitVec 2
  dataGnt : Bool
  deriving DecidableEq, Repr, Inhabited

/-- The fields of `dcache_req_i_t` that the store buffer drives; the others are
constant (`data_we = 1`, `kill_req = 0`, `tag_valid = 0`). -/
structure ReqPort where
  addressIndex : BitVec 12
  addressTag : BitVec 20
  dataWdata : BitVec 64
  dataBe : BitVec 8
  dataSize : BitVec 2
  deriving DecidableEq, Repr

variable (q : Regs) (i : Input)

/-! ## Outputs -/

/-- `ready_o`, computed one cycle before the store arrives. -/
def ready (commit : Bool) : Bool := decide (q.speculative.statusCnt < 3) || commit

def commitReady : Bool := decide (q.commit.statusCnt < 4)

def noStPending : Bool := q.commit.statusCnt == 0

def storeBufferEmpty : Bool := q.speculative.statusCnt == 0 && noStPending q

/-- The request for an entry: the word goes to the half of the port that bit 2 of
its address selects. -/
def Entry.reqPort (e : Entry) : ReqPort where
  addressIndex := e.address.extractLsb' 0 12
  addressTag := e.address.extractLsb' 12 20
  dataWdata := if e.address.getLsbD 2 then e.data ++ 0#32 else e.data.setWidth 64
  dataBe := e.be
  dataSize := e.dataSize

def reqPort : ReqPort := q.commit.head.reqPort

def dataReq : Bool := q.commit.head.valid

def pageOffsetMatches (pageOffset : BitVec 12) (paddr : BitVec 32)
    (validWithoutFlush : Bool) : Bool :=
  let hit (e : Entry) : Bool := pageOffset.extractLsb' 3 9 == e.address.extractLsb' 3 9 && e.valid
  let slots : List Pointer := [0, 1, 2, 3]
  slots.any (fun n => hit (q.commit.entries n)) ||
    slots.any (fun n => hit (q.speculative.entries n)) ||
    (pageOffset.extractLsb' 3 9 == paddr.extractLsb' 3 9 && validWithoutFlush)

/-! ## The clocked process -/

def Input.entry (i : Input) : Entry := ⟨i.paddr, i.data, i.be, i.dataSize, true⟩

/-- The process `core_if`: append the arriving store, evict the committed one,
and evict everything on a flush. The flush returns the write pointer to where the
read pointer was before this cycle. -/
def coreIf : Queue :=
  let spec := q.speculative
  let spec := if i.valid then spec.push i.entry else spec
  let spec := if i.commit then spec.pop else spec
  if i.flush then spec.flush q.speculative.readPointer else spec

/-- The process `store_if`: release the store the data cache has granted and take
over the committed one, as it was in the speculative queue before this cycle. -/
def storeIf : Queue :=
  let commit := q.commit
  let commit := if dataReq q && i.dataGnt then commit.pop else commit
  if i.commit then commit.push q.speculative.head else commit

def next : Regs := ⟨coreIf q i, storeIf q i⟩

/-! ## Queues as lists -/

namespace Queue

open Cva6.Sync

/-- The valid bits, the pointers and the counter describe the same window. -/
structure Ok (q : Queue) : Prop where
  le : q.statusCnt.toNat ≤ 4
  valid_iff : ∀ n, (q.entries n).valid = true ↔ Ring.InWindow q.readPointer q.statusCnt.toNat n
  writePointer_eq : q.writePointer = Ring.slot q.readPointer q.statusCnt.toNat

def contents (q : Queue) : List Entry :=
  Ring.window q.entries q.readPointer q.statusCnt.toNat

@[simp] theorem length_contents (q : Queue) : q.contents.length = q.statusCnt.toNat := by
  simp [contents]

theorem reset_ok : reset.Ok where
  le := by decide
  valid_iff := by simp [reset]
  writePointer_eq := by simp [reset]

variable {q : Queue}

def Counted (q : Queue) : Prop :=
  q.statusCnt.toNat = Ring.count (fun n => (q.entries n).valid) ∧ q.statusCnt.toNat ≤ 4

theorem Ok.counted (h : q.Ok) : q.Counted :=
  ⟨(Ring.count_eq_of_inWindow h.le h.valid_iff).symm, h.le⟩

/-- What holds of a queue also when a slot of its window is not valid. -/
structure Shape (q : Queue) : Prop where
  le : q.statusCnt.toNat ≤ 4
  valid_in : ∀ n, (q.entries n).valid = true → Ring.InWindow q.readPointer q.statusCnt.toNat n
  writePointer_eq : q.writePointer = Ring.slot q.readPointer q.statusCnt.toNat

theorem Ok.shape (h : q.Ok) : q.Shape := ⟨h.le, fun n => (h.valid_iff n).mp, h.writePointer_eq⟩

theorem toNat_succ (hlt : q.statusCnt.toNat < 4) :
    (q.statusCnt + 1).toNat = q.statusCnt.toNat + 1 := by
  rw [BitVec.toNat_add]
  simp
  omega

theorem toNat_pred (hpos : 0 < q.statusCnt.toNat) :
    (q.statusCnt - 1).toNat = q.statusCnt.toNat - 1 := by
  rw [BitVec.toNat_sub]
  have := q.statusCnt.isLt
  simp
  omega

theorem push_statusCnt (hlt : q.statusCnt.toNat < 4) (e : Entry) :
    (q.push e).statusCnt.toNat = q.statusCnt.toNat + 1 :=
  toNat_succ hlt

theorem push_ok (h : q.Ok) (hlt : q.statusCnt.toNat < 4) {e : Entry} (he : e.valid = true) :
    (q.push e).Ok where
  le := by rw [push_statusCnt hlt]; omega
  valid_iff := by
    intro n
    rw [push_statusCnt hlt]
    show (Function.update q.entries q.writePointer e n).valid = true ↔ Ring.InWindow q.readPointer _ n
    rw [Ring.inWindow_snoc, ← h.writePointer_eq]
    by_cases hn : n = q.writePointer
    · simp [hn, he]
    · simp [hn, h.valid_iff]
  writePointer_eq := by
    rw [push_statusCnt hlt]
    show q.writePointer + 1 = Ring.slot q.readPointer _
    rw [Ring.slot_succ_right, ← h.writePointer_eq]

theorem Shape.push_contents (h : q.Shape) (hlt : q.statusCnt.toNat < 4) (e : Entry) :
    (q.push e).contents = q.contents ++ [e] := by
  have hfresh : ¬Ring.InWindow q.readPointer q.statusCnt.toNat q.writePointer := by
    rw [h.writePointer_eq]
    exact Ring.slot_not_inWindow (by omega)
  rw [contents, push_statusCnt hlt]
  show Ring.window (Function.update q.entries q.writePointer e) q.readPointer _ = _
  rw [Ring.window_snoc, ← h.writePointer_eq, Function.update_self, contents]
  congr 1
  refine Ring.window_congr ?_
  intro n hn
  refine Function.update_of_ne ?_ _ _
  rintro rfl
  exact hfresh hn

theorem push_contents (h : q.Ok) (hlt : q.statusCnt.toNat < 4) (e : Entry) :
    (q.push e).contents = q.contents ++ [e] :=
  h.shape.push_contents hlt e

theorem Shape.push (h : q.Shape) (hlt : q.statusCnt.toNat < 4) (e : Entry) : (q.push e).Shape where
  le := by rw [push_statusCnt hlt]; omega
  valid_in := by
    intro n hn
    rw [push_statusCnt hlt]
    show Ring.InWindow q.readPointer _ n
    rw [Ring.inWindow_snoc, ← h.writePointer_eq]
    have hn : (Function.update q.entries q.writePointer e n).valid = true := hn
    by_cases heq : n = q.writePointer
    · exact .inr heq
    · rw [Function.update_of_ne heq] at hn
      exact .inl (h.valid_in n hn)
  writePointer_eq := by
    rw [push_statusCnt hlt]
    show q.writePointer + 1 = Ring.slot q.readPointer _
    rw [Ring.slot_succ_right, ← h.writePointer_eq]

theorem pop_statusCnt (hpos : 0 < q.statusCnt.toNat) :
    q.pop.statusCnt.toNat = q.statusCnt.toNat - 1 :=
  toNat_pred hpos

theorem pop_ok (h : q.Ok) (hpos : 0 < q.statusCnt.toNat) : q.pop.Ok where
  le := by
    rw [pop_statusCnt hpos]
    have := h.le
    omega
  valid_iff := by
    intro n
    rw [pop_statusCnt hpos]
    show (Function.update q.entries q.readPointer _ n).valid = true ↔
      Ring.InWindow (q.readPointer + 1) _ n
    obtain ⟨k, hk⟩ : ∃ k, q.statusCnt.toNat = k + 1 := ⟨_, (Nat.succ_pred_eq_of_pos hpos).symm⟩
    have hle := h.le
    have hvalid := h.valid_iff n
    rw [hk, Ring.inWindow_cons] at hvalid
    rw [hk, Nat.add_sub_cancel]
    by_cases hn : n = q.readPointer
    · have hhead : ¬Ring.InWindow (q.readPointer + 1) k q.readPointer :=
        Ring.head_not_inWindow (by omega)
      rw [hn, Function.update_self]
      exact iff_of_false Bool.false_ne_true hhead
    · rw [Function.update_of_ne hn]
      simpa only [hn, false_or] using hvalid
  writePointer_eq := by
    rw [pop_statusCnt hpos]
    show q.writePointer = Ring.slot (q.readPointer + 1) _
    rw [← Ring.slot_succ, Nat.sub_add_cancel hpos]
    exact h.writePointer_eq

theorem Shape.contents_eq_cons (h : q.Shape) (hpos : 0 < q.statusCnt.toNat) :
    q.contents = q.head :: q.pop.contents := by
  obtain ⟨k, hk⟩ : ∃ k, q.statusCnt.toNat = k + 1 := ⟨_, (Nat.succ_pred_eq_of_pos hpos).symm⟩
  have hle := h.le
  rw [contents, contents, pop_statusCnt hpos, hk, Ring.window_cons, Nat.add_sub_cancel]
  show _ :: _ = q.entries q.readPointer ::
    Ring.window (Function.update q.entries q.readPointer _) (q.readPointer + 1) k
  congr 1
  refine Ring.window_congr ?_
  intro n hn
  refine (Function.update_of_ne ?_ _ _).symm
  rintro rfl
  exact Ring.head_not_inWindow (by omega) hn

theorem contents_eq_cons (h : q.Ok) (hpos : 0 < q.statusCnt.toNat) :
    q.contents = q.head :: q.pop.contents :=
  h.shape.contents_eq_cons hpos

theorem Shape.pop_contents (h : q.Shape) (hpos : 0 < q.statusCnt.toNat) :
    q.pop.contents = q.contents.tail := by
  rw [h.contents_eq_cons hpos, List.tail_cons]

theorem pop_contents (h : q.Ok) (hpos : 0 < q.statusCnt.toNat) :
    q.pop.contents = q.contents.tail :=
  h.shape.pop_contents hpos

theorem Shape.pop (h : q.Shape) (hpos : 0 < q.statusCnt.toNat) : q.pop.Shape where
  le := by
    rw [pop_statusCnt hpos]
    have := h.le
    omega
  valid_in := by
    intro n hn
    rw [pop_statusCnt hpos]
    show Ring.InWindow (q.readPointer + 1) _ n
    have hn : (Function.update q.entries q.readPointer _ n).valid = true := hn
    have hne : n ≠ q.readPointer := by
      rintro rfl
      rw [Function.update_self] at hn
      cases hn
    rw [Function.update_of_ne hne] at hn
    have hin := h.valid_in n hn
    rw [← Nat.sub_add_cancel hpos, Ring.inWindow_cons] at hin
    exact hin.resolve_left hne
  writePointer_eq := by
    rw [pop_statusCnt hpos]
    show q.writePointer = Ring.slot (q.readPointer + 1) _
    rw [← Ring.slot_succ, Nat.sub_add_cancel hpos]
    exact h.writePointer_eq

theorem Shape.pos_of_head (h : q.Shape) (hv : q.head.valid = true) : 0 < q.statusCnt.toNat := by
  obtain ⟨k, hk, -⟩ := h.valid_in q.readPointer hv
  omega

theorem head_valid_iff (h : q.Ok) : q.head.valid = true ↔ 0 < q.statusCnt.toNat := by
  rw [head, h.valid_iff]
  constructor
  · rintro ⟨k, hk, -⟩
    omega
  · intro hpos
    exact ⟨0, hpos, (Ring.slot_zero _).symm⟩

theorem flush_ok : (q.flush q.readPointer).Ok where
  le := by simp [flush]
  valid_iff := by simp [flush]
  writePointer_eq := by simp [flush]

theorem flush_contents (ptr : Pointer) : (q.flush ptr).contents = [] := rfl

theorem flush_push_ok (e : Entry) : ((q.push e).flush q.readPointer).Ok :=
  flush_ok (q := q.push e)

end Queue

/-! ## One clock edge -/

variable {q : Regs} {i : Input}

/-- The speculative queue takes a push when it has room, and a pop when it is not
empty and not flushed. -/
theorem coreIf_spec (h : q.speculative.Ok) (hvalid : i.valid = true → q.speculative.statusCnt.toNat < 4)
    (hcommit : i.commit = true → 0 < q.speculative.statusCnt.toNat ∧ i.flush = false) :
    (coreIf q i).Ok ∧ (coreIf q i).contents =
      if i.flush then []
      else (if i.commit then q.speculative.contents.tail else q.speculative.contents) ++
        (if i.valid then [i.entry] else []) := by
  unfold coreIf
  cases hf : i.flush with
  | true =>
      have hc : i.commit = false := by
        by_contra hc
        simp [hf] at hcommit
        exact hc hcommit
      cases hv : i.valid with
      | true => simpa [hc, hv] using ⟨Queue.flush_push_ok _, Queue.flush_contents _⟩
      | false => simpa [hc, hv] using ⟨Queue.flush_ok, Queue.flush_contents _⟩
  | false =>
      cases hv : i.valid with
      | true =>
          have hok := Queue.push_ok h (hvalid hv) (e := i.entry) rfl
          have hcontents := Queue.push_contents h (hvalid hv) i.entry
          cases hc : i.commit with
          | true =>
              have hpos : 0 < (q.speculative.push i.entry).statusCnt.toNat := by
                rw [Queue.push_statusCnt (hvalid hv)]
                omega
              have htail : q.speculative.contents ≠ [] := by
                rw [← List.length_pos_iff, Queue.length_contents]
                exact (hcommit hc).1
              refine ⟨Queue.pop_ok hok hpos, ?_⟩
              simp only [if_true]
              show (q.speculative.push i.entry).pop.contents = _
              rw [Queue.pop_contents hok hpos, hcontents, List.tail_append_of_ne_nil htail]
              rfl
          | false => exact ⟨hok, hcontents⟩
      | false =>
          cases hc : i.commit with
          | true =>
              have hpos := (hcommit hc).1
              refine ⟨Queue.pop_ok h hpos, ?_⟩
              simpa using Queue.pop_contents h hpos
          | false => exact ⟨h, by simp⟩

/-- The commit queue keeps its shape also when what it takes over is not valid. -/
theorem storeIf_shape (h : q.commit.Shape)
    (hcommit : i.commit = true → q.commit.statusCnt.toNat < 4) :
    (storeIf q i).Shape ∧ (storeIf q i).contents =
      (if dataReq q && i.dataGnt then q.commit.contents.tail else q.commit.contents) ++
        (if i.commit then [q.speculative.head] else []) := by
  unfold storeIf
  cases hg : dataReq q && i.dataGnt with
  | true =>
      have hpos : 0 < q.commit.statusCnt.toNat := by
        rw [Bool.and_eq_true] at hg
        exact h.pos_of_head hg.1
      have hshape := h.pop hpos
      have hcontents := h.pop_contents hpos
      cases hc : i.commit with
      | true =>
          have hlt : q.commit.pop.statusCnt.toNat < 4 := by
            have := h.le
            rw [Queue.pop_statusCnt hpos]
            omega
          refine ⟨hshape.push hlt _, ?_⟩
          show (q.commit.pop.push q.speculative.head).contents = _
          rw [hshape.push_contents hlt, hcontents]
          rfl
      | false => exact ⟨hshape, by simpa using hcontents⟩
  | false =>
      cases hc : i.commit with
      | true => exact ⟨h.push (hcommit hc) _, h.push_contents (hcommit hc) _⟩
      | false => exact ⟨h, by simp⟩

/-- The commit queue releases its head when it is granted, and takes a committed
store when it has room. -/
theorem storeIf_spec (h : q.commit.Ok) (hcommit : i.commit = true →
      q.commit.statusCnt.toNat < 4 ∧ q.speculative.head.valid = true) :
    (storeIf q i).Ok ∧ (storeIf q i).contents =
      (if dataReq q && i.dataGnt then q.commit.contents.tail else q.commit.contents) ++
        (if i.commit then [q.speculative.head] else []) := by
  refine ⟨?_, (storeIf_shape h.shape fun hc => (hcommit hc).1).2⟩
  unfold storeIf
  cases hg : dataReq q && i.dataGnt with
  | true =>
      have hpos : 0 < q.commit.statusCnt.toNat := by
        rw [Bool.and_eq_true] at hg
        exact (Queue.head_valid_iff h).mp hg.1
      have hok := Queue.pop_ok h hpos
      cases hc : i.commit with
      | true =>
          have hlt : q.commit.pop.statusCnt.toNat < 4 := by
            have := h.le
            rw [Queue.pop_statusCnt hpos]
            omega
          exact Queue.push_ok hok hlt (hcommit hc).2
      | false => exact hok
  | false =>
      cases hc : i.commit with
      | true => exact Queue.push_ok h (hcommit hc).1 (hcommit hc).2
      | false => exact h

/-! ## Slots -/

theorem coreIf_entries {n : Pointer} (h : ((coreIf q i).entries n).valid = true) :
    (coreIf q i).entries n = q.speculative.entries n ∨
      i.valid = true ∧ (coreIf q i).entries n = i.entry := by
  unfold coreIf at h ⊢
  cases hf : i.flush with
  | true => simp [hf, Queue.flush] at h
  | false =>
      have hpushed : ∀ spec : Queue, (spec = if i.valid then q.speculative.push i.entry
          else q.speculative) → spec.entries n = q.speculative.entries n ∨
            i.valid = true ∧ spec.entries n = i.entry := by
        rintro spec rfl
        cases hv : i.valid with
        | false => exact .inl rfl
        | true =>
            by_cases hn : n = q.speculative.writePointer
            · exact .inr ⟨rfl, by simp [Queue.push, hn]⟩
            · exact .inl (by simp [Queue.push, hn])
      simp only [hf, Bool.false_eq_true, if_false] at h ⊢
      cases hc : i.commit with
      | false => simpa only [hc, Bool.false_eq_true, if_false] using hpushed _ rfl
      | true =>
          simp only [hc, if_true] at h ⊢
          generalize hspec : (if i.valid then q.speculative.push i.entry else q.speculative) = spec
          rw [hspec] at h
          have hn : n ≠ spec.readPointer := by
            rintro rfl
            simp [Queue.pop] at h
          have hpop : spec.pop.entries n = spec.entries n := by
            simp [Queue.pop, hn]
          rw [hpop]
          exact hpushed _ hspec.symm

theorem storeIf_entries {n : Pointer} (h : ((storeIf q i).entries n).valid = true) :
    (storeIf q i).entries n = q.commit.entries n ∨
      i.commit = true ∧ (storeIf q i).entries n = q.speculative.head := by
  unfold storeIf at h ⊢
  have hpopped : ∀ c : Queue, (c = if dataReq q && i.dataGnt then q.commit.pop else q.commit) →
      (c.entries n).valid = true → c.entries n = q.commit.entries n := by
    rintro c rfl hv
    split_ifs at hv ⊢ with hg
    · have hn : n ≠ q.commit.readPointer := by
        rintro rfl
        simp [Queue.pop] at hv
      simp [Queue.pop, hn]
    · rfl
  cases hc : i.commit with
  | false =>
      simp only [hc, Bool.false_eq_true, if_false] at h ⊢
      exact .inl (hpopped _ rfl h)
  | true =>
      rw [hc, if_pos rfl] at h
      rw [if_pos rfl]
      generalize hcommit : (if dataReq q && i.dataGnt then q.commit.pop else q.commit) = c at h ⊢
      by_cases hn : n = c.writePointer
      · exact .inr ⟨rfl, by simp [Queue.push, hn]⟩
      · have hpush : (c.push q.speculative.head).entries n = c.entries n := by
          simp [Queue.push, hn]
        rw [hpush] at h ⊢
        exact .inl (hpopped _ hcommit.symm h)

theorem pageOffsetMatches_eq_false {pageOffset : BitVec 12} {paddr : BitVec 32} {v : Bool} :
    pageOffsetMatches q pageOffset paddr v = false ↔
      (∀ n, (q.commit.entries n).valid = true →
        pageOffset.extractLsb' 3 9 ≠ (q.commit.entries n).address.extractLsb' 3 9) ∧
      (∀ n, (q.speculative.entries n).valid = true →
        pageOffset.extractLsb' 3 9 ≠ (q.speculative.entries n).address.extractLsb' 3 9) ∧
      (v = true → pageOffset.extractLsb' 3 9 ≠ paddr.extractLsb' 3 9) := by
  have hslots (p : Pointer → Bool) : [0, 1, 2, 3].any p = false ↔ ∀ n, p n = false := by
    constructor
    · intro h n
      rw [List.any_eq_false] at h
      have hn : n ∈ [(0 : Pointer), 1, 2, 3] := by revert n; decide
      simpa using h n hn
    · intro h
      rw [List.any_eq_false]
      intro n _
      simp [h n]
  unfold pageOffsetMatches
  simp only [Bool.or_eq_false_iff, hslots, Bool.and_eq_false_iff, beq_eq_false_iff_ne, ne_eq,
    and_assoc]
  refine and_congr ?_ (and_congr ?_ ?_)
  · refine forall_congr' fun n => ?_
    cases (q.commit.entries n).valid <;> simp
  · refine forall_congr' fun n => ?_
    cases (q.speculative.entries n).valid <;> simp
  · cases v <;> simp

end Cva6.Lsu.StoreBuffer
