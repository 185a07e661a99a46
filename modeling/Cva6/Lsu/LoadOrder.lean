import Cva6.Lsu.Model
import Cva6.Lsu.StoreOrder
/-!
# Loads do not overtake older stores

The load-store unit is run together with a record of the requests it was given, numbered
in program order, and of where each store is: waiting in `lsu_bypass`, taken by the store
unit, posted to the speculative queue, committed, or flushed. What the hardware queues hold
is what the record says as long as no store is committed in a cycle that flushes.
-/

namespace Cva6.Lsu

open Cva6.Sync

/-! ## The record -/

abbrev Item := Nat × LsuCtrl

structure Record where
  /-- Every request given to the unit so far; its number is its place in this list. -/
  accepted : List LsuCtrl
  waiting : List Item
  /-- The store that the store unit has taken in the cycle before. -/
  unit : Option Item
  speculative : List Item
  committed : List Item
  /-- The write requests that the data cache has granted so far. -/
  granted : List StoreBuffer.ReqPort
  flushed : List Item

structure Tracked where
  hw : State
  record : Record

variable (ni : NonIdempotent) (t : Tracked) (i : Input)

def arriving : List Item :=
  if t.hw.lsuValid then [(t.record.accepted.length, lsuReq t.hw.lsuValid t.hw.fuData)] else []

/-- The requests that no unit has popped, oldest first. -/
def present : List Item := t.record.waiting ++ arriving t

def posting : List Item :=
  t.record.unit.toList.filter fun e => !isAmo e.2.operator

def uncommitted : List Item :=
  if i.commit then t.record.speculative.tail else t.record.speculative

def popped : Bool := (loadOut ni t.hw i).popLd || (storeOut t.hw i).popSt

def recordNext : Record where
  accepted := t.record.accepted ++ (arriving t).map Prod.snd
  waiting :=
    if i.flush then [] else if popped ni t i then (present t).tail else present t
  unit := if StoreUnit.taken t.hw.store (storeIn t.hw i) then (present t).head? else none
  speculative := if i.flush then [] else uncommitted t i ++ posting t
  committed :=
    t.record.committed ++ (if i.commit then t.record.speculative.head?.toList else [])
  granted := t.record.granted ++ StoreUnit.grantedNow t.hw.store (storeIn t.hw i)
  flushed :=
    t.record.flushed ++
      (if i.flush then present t ++ t.record.unit.toList ++ uncommitted t i else [])

def tracked : Machine Tracked Input where
  init := ⟨(loadStoreUnit ni).init, ⟨[], [], none, [], [], [], []⟩⟩
  next t i := ⟨(loadStoreUnit ni).next t.hw i, recordNext ni t i⟩

/-! ## The property -/

/-- The queue entry and the write request of a store; its address translates to itself. -/
def storeEntry (c : LsuCtrl) : StoreBuffer.Entry := StoreUnit.storeEntry ⟨c, c.vaddr⟩

/-- The write request of the store has been granted, in its place among the committed
stores. -/
def Granted (r : Record) (e : Item) : Prop :=
  (e, (storeEntry e.2).reqPort) ∈ r.committed.zip r.granted

/-- The doubleword inside a page, bits 11:3 of an address. -/
def pageDword (a : BitVec 32) : BitVec 9 := a.extractLsb' 3 9

structure NoneInside (s : State) (d : BitVec 9) : Prop where
  unit : s.store.unit.state = .VALID_STORE → pageDword s.mmuPaddr ≠ d
  speculative : ∀ n, (s.store.buffer.speculative.entries n).valid = true →
    pageDword (s.store.buffer.speculative.entries n).address ≠ d
  commit : ∀ n, (s.store.buffer.commit.entries n).valid = true →
    pageDword (s.store.buffer.commit.entries n).address ≠ d

/-- The request of the load at hand is granted in this cycle and its tag is sent in the
next one. -/
def loadGranted : Bool :=
  (loadOut ni t.hw i).dataReq && i.loadGnt && (loadOut ni t.hw i).state == .SEND_TAG

/-- When a load is granted, every older store to its doubleword that was not flushed has
been granted before, and none is left inside the unit. -/
def NoOvertake : Prop :=
  loadGranted ni t i = true → ∃ n l, (present t).head? = some (n, l) ∧ l = lsuCtrl t.hw ∧
    (∀ m c, m < n → t.record.accepted[m]? = some c → c.fu = .STORE → isAmo c.operator = false →
      pageDword c.vaddr = pageDword l.vaddr → (m, c) ∈ t.record.flushed ∨ Granted t.record (m, c)) ∧
    (∀ e ∈ t.record.waiting, n ≤ e.1) ∧
    NoneInside t.hw (pageDword l.vaddr)

/-- What the commit stage promises: it commits a store only when one is in the speculative
queue and the commit queue has room. -/
def CommitContract (t : Tracked) (i : Input) : Prop :=
  i.commit = true → 0 < t.hw.store.buffer.speculative.statusCnt.toNat ∧
    StoreBuffer.commitReady t.hw.store.buffer = true

def NoCommitInFlush (_t : Tracked) (i : Input) : Prop :=
  i.commit = true → i.flush = false

instance : Decidable (CommitContract t i) := inferInstanceAs (Decidable (_ → _))

instance : Decidable (NoCommitInFlush t i) := inferInstanceAs (Decidable (_ → _))

/-! ## What the queue in front of the units holds -/

/-- The queue holds the requests of the record, in order; it has room for the one that
arrives. -/
structure QueueOk (t : Tracked) : Prop where
  bypass_ok : Bypass.Ok t.hw.bypass
  waiting_eq : Bypass.contents t.hw.bypass = t.record.waiting.map Prod.snd
  room : t.hw.lsuValid = true → t.record.waiting.length ≤ 1
  valid : ∀ e ∈ present t, e.2.valid = true ∧ (e.2.fu = .LOAD ∨ e.2.fu = .STORE)
  ordered : (t.record.waiting.map Prod.fst).Pairwise (· < ·)
  lt : ∀ e ∈ t.record.waiting, e.1 < t.record.accepted.length
  /-- A load that waits for its grant is the oldest request. -/
  load_head : LoadUnit.waits t.hw.load.state = true →
    ∃ e rest, t.record.waiting = e :: rest ∧ e.2.fu = .LOAD

variable {ni : NonIdempotent} {t : Tracked} {i : Input}

theorem QueueOk.lsuCtrl_eq (h : QueueOk t) :
    lsuCtrl t.hw =
      (((present t).head?).map Prod.snd).getD (lsuReq t.hw.lsuValid t.hw.fuData) := by
  rw [lsuCtrl, Bypass.lsuCtrl_eq h.bypass_ok, h.waiting_eq, present, arriving]
  cases t.record.waiting with
  | cons e rest => simp
  | nil => cases t.hw.lsuValid <;> simp

theorem QueueOk.present_of_valid (h : QueueOk t) (hv : (lsuCtrl t.hw).valid = true) :
    ∃ n rest, present t = (n, lsuCtrl t.hw) :: rest := by
  rw [h.lsuCtrl_eq] at hv ⊢
  cases hp : present t with
  | cons e rest => exact ⟨e.1, rest, rfl⟩
  | nil =>
      have hlsu : t.hw.lsuValid = false := by
        by_contra hlsu
        simp [present, arriving, Bool.not_eq_false _ ▸ hlsu] at hp
      rw [hp] at hv
      simp [lsuReq, hlsu] at hv

theorem QueueOk.head_of_load (h : QueueOk t)
    (hl : LoadUnit.waits t.hw.load.state = true ∨ ldValid t.hw = true) :
    ∃ n rest, present t = (n, lsuCtrl t.hw) :: rest ∧ (lsuCtrl t.hw).fu = .LOAD := by
  rcases hl with hw | hv
  · obtain ⟨e, rest, hwait, hfu⟩ := h.load_head hw
    have hhead : lsuCtrl t.hw = e.2 := by
      rw [h.lsuCtrl_eq, present, hwait]
      rfl
    rw [hhead]
    exact ⟨e.1, rest ++ arriving t, by rw [present, hwait]; rfl, hfu⟩
  · rw [ldValid, Bool.and_eq_true, beq_iff_eq] at hv
    obtain ⟨n, rest, hpres⟩ := h.present_of_valid hv.2
    exact ⟨n, rest, hpres, hv.1⟩

theorem QueueOk.head_of_asks (h : QueueOk t)
    (ha : LoadUnit.asks t.hw.load.state (loadIn ni t.hw i) = true) :
    ∃ n rest, present t = (n, lsuCtrl t.hw) :: rest ∧ (lsuCtrl t.hw).fu = .LOAD := by
  simp only [LoadUnit.asks, Bool.or_eq_true, Bool.and_eq_true, beq_iff_eq] at ha
  rcases ha with ⟨⟨-, hv⟩, -⟩ | hw
  · exact h.head_of_load (.inr hv)
  · exact h.head_of_load (.inl (by rw [hw]; rfl))

theorem QueueOk.head_of_popLd (h : QueueOk t) (hp : (loadOut ni t.hw i).popLd = true) :
    ∃ n rest, present t = (n, lsuCtrl t.hw) :: rest ∧ (lsuCtrl t.hw).fu = .LOAD := by
  rw [loadOut, LoadUnit.control, LoadUnit.loadControl_popLd rfl] at hp
  simp only [Bool.and_eq_true] at hp
  exact h.head_of_asks hp.1.1.1

theorem QueueOk.head_of_popSt (h : QueueOk t) (hp : (storeOut t.hw i).popSt = true) :
    ∃ n rest, present t = (n, lsuCtrl t.hw) :: rest ∧ (lsuCtrl t.hw).fu = .STORE := by
  have hv : ((lsuCtrl t.hw).fu == .STORE && (lsuCtrl t.hw).valid) = true :=
    StoreUnit.storeControl_popSt rfl hp
  rw [Bool.and_eq_true, beq_iff_eq] at hv
  obtain ⟨n, rest, hpres⟩ := h.present_of_valid hv.2
  exact ⟨n, rest, hpres, hv.1⟩

variable (ni) in
theorem QueueOk.legal (h : QueueOk t) : Bypass.Legal t.hw.bypass (bypassIn ni t.hw i) where
  room := by
    intro hv
    have hlen := h.room hv
    have heq := congrArg List.length h.waiting_eq
    rw [Bypass.length_contents, List.length_map] at heq
    omega
  one := by
    rintro ⟨hld, hst⟩
    obtain ⟨-, -, -, hload⟩ := h.head_of_popLd hld
    obtain ⟨-, -, -, hstore⟩ := h.head_of_popSt hst
    rw [hload] at hstore
    cases hstore
  here := by
    intro hp
    have hne : present t ≠ [] := by
      rw [Bool.or_eq_true] at hp
      rcases hp with hp | hp
      · obtain ⟨_, _, hpres, -⟩ := h.head_of_popLd hp
        simp [hpres]
      · obtain ⟨_, _, hpres, -⟩ := h.head_of_popSt hp
        simp [hpres]
    by_contra hnot
    rw [not_or] at hnot
    have hlsu : t.hw.lsuValid = false := Bool.eq_false_iff.mpr hnot.1
    have hlen : t.record.waiting.length = 0 := by
      have heq := congrArg List.length h.waiting_eq
      rw [Bypass.length_contents, List.length_map] at heq
      omega
    apply hne
    simp [present, arriving, hlsu, List.length_eq_zero_iff.mp hlen]

theorem waiting_next_subset (e : Item) (he : e ∈ (recordNext ni t i).waiting) :
    e ∈ present t := by
  have he : e ∈ if i.flush then [] else if popped ni t i then (present t).tail else present t := he
  split_ifs at he
  · cases he
  · exact List.mem_of_mem_tail he
  · exact he

theorem QueueOk.present_ordered (h : QueueOk t) :
    ((present t).map Prod.fst).Pairwise (· < ·) ∧
      ∀ e ∈ present t, e.1 < t.record.accepted.length + (arriving t).length := by
  have hlt := h.lt
  unfold present arriving
  cases t.hw.lsuValid with
  | false => simpa using ⟨h.ordered, fun n c he => hlt (n, c) he⟩
  | true =>
      constructor
      · rw [List.map_append, List.pairwise_append]
        refine ⟨h.ordered, by simp, ?_⟩
        intro n hn m hm
        obtain ⟨e, he, rfl⟩ := List.mem_map.mp hn
        obtain rfl : m = t.record.accepted.length := by simpa using hm
        exact hlt e he
      · intro e he
        rcases List.mem_append.mp he with he | he
        · have := hlt e he
          simp
          omega
        · rw [if_pos rfl, List.mem_singleton] at he
          simp [he]

theorem QueueOk.next (h : QueueOk t) : QueueOk ((tracked ni).next t i) := by
  obtain ⟨hok, hcontents⟩ := Bypass.next_spec h.bypass_ok (h.legal ni (i := i))
  have hwaiting : Bypass.contents (Bypass.next t.hw.bypass (bypassIn ni t.hw i)) =
      (recordNext ni t i).waiting.map Prod.snd := by
    have harr : (if (lsuReq t.hw.lsuValid t.hw.fuData).valid then
        [lsuReq t.hw.lsuValid t.hw.fuData] else []) = (arriving t).map Prod.snd := by
      unfold arriving
      cases t.hw.lsuValid <;> rfl
    rw [hcontents]
    show (if i.flush then [] else _) = (if i.flush then [] else _ : List Item).map Prod.snd
    cases i.flush with
    | true => rfl
    | false =>
        show (if popped ni t i then _ else _) = (if popped ni t i then _ else _ : List Item).map _
        rw [h.waiting_eq, show (bypassIn ni t.hw i).lsuReq = lsuReq t.hw.lsuValid t.hw.fuData from rfl,
          harr, ← List.map_append]
        cases popped ni t i
        · rfl
        · exact (List.map_tail ..).symm
  have hpres := h.present_ordered
  refine ⟨hok, hwaiting, ?_, ?_, ?_, ?_, ?_⟩
  · -- the unit was ready, so that the queue was empty, when the arriving request was issued
    intro hv
    have hv : (i.issueValid && lsuReady t.hw && !i.flush &&
        (i.fuData.fu == .LOAD || i.fuData.fu == .STORE)) = true := hv
    simp only [Bool.and_eq_true] at hv
    have hnil : t.record.waiting = [] := by
      have hnil := Bypass.empty_iff.mp hv.1.1.2
      rw [h.waiting_eq] at hnil
      exact List.map_eq_nil_iff.mp hnil
    have hsub : ((recordNext ni t i).waiting).length ≤ (present t).length := by
      show (if i.flush then [] else if popped ni t i then _ else _ : List Item).length ≤ _
      split_ifs <;> simp
    refine hsub.trans ?_
    rw [present, hnil, List.nil_append, arriving]
    split_ifs <;> simp
  · intro e he
    rcases List.mem_append.mp he with he | he
    · exact h.valid e (waiting_next_subset e he)
    · have he : e ∈ if ((tracked ni).next t i).hw.lsuValid then
          [(_, lsuReq ((tracked ni).next t i).hw.lsuValid i.fuData)] else [] := he
      split_ifs at he with hv
      · rw [List.mem_singleton.mp he]
        refine ⟨hv, ?_⟩
        have hv : (i.issueValid && lsuReady t.hw && !i.flush &&
            (i.fuData.fu == .LOAD || i.fuData.fu == .STORE)) = true := hv
        simp only [Bool.and_eq_true, Bool.or_eq_true, beq_iff_eq] at hv
        exact hv.2
      · cases he
  · refine hpres.1.sublist (List.Sublist.map _ ?_)
    show List.Sublist (if i.flush then [] else if popped ni t i then _ else _) _
    split_ifs
    · exact List.nil_sublist _
    · exact List.tail_sublist _
    · exact List.Sublist.refl _
  · intro e he
    have := hpres.2 e (waiting_next_subset e he)
    show e.1 < (t.record.accepted ++ (arriving t).map Prod.snd).length
    rw [List.length_append, List.length_map]
    exact this
  · intro hw
    obtain ⟨hflush, hpop, hcase⟩ := LoadUnit.loadControl_waits rfl hw
    obtain ⟨n, rest, hpres, hfu⟩ := h.head_of_load hcase
    have hnopop : popped ni t i = false := by
      have hst : (storeOut t.hw i).popSt = false := by
        apply Bool.eq_false_iff.mpr
        intro hst
        obtain ⟨-, -, -, hstore⟩ := h.head_of_popSt hst
        rw [hfu] at hstore
        cases hstore
      have hpop : (loadOut ni t.hw i).popLd = false := hpop
      rw [popped, hpop, hst]
      rfl
    have hflush : i.flush = false := hflush
    refine ⟨(n, lsuCtrl t.hw), rest, ?_, hfu⟩
    show (if i.flush then [] else if popped ni t i then _ else _) = _
    rw [hflush, hnopop]
    exact hpres

/-! ## What the store unit and the store queues hold -/

/-- The store unit has sampled the store of the record, and the queues hold its stores. -/
structure StoresOk (t : Tracked) : Prop extends
    StoreUnit.Holds t.hw.store (t.record.speculative.map fun e => storeEntry e.2)
      (t.record.committed.map fun e => (storeEntry e.2).reqPort) t.record.granted,
    StoreUnit.Samples t.hw.store (t.record.unit.map Prod.snd) where
  translated : ∀ e ∈ t.record.unit, t.hw.mmuPaddr = e.2.vaddr

theorem StoresOk.entry_posted (h : StoresOk t) (hf : i.flush = false) :
    (if (StoreUnit.bufferIn t.hw.store (storeIn t.hw i)).valid then
        [(StoreUnit.bufferIn t.hw.store (storeIn t.hw i)).entry] else []) =
      (posting t).map fun e => storeEntry e.2 := by
  rw [h.toSamples.entry_posted hf, posting]
  cases hunit : t.record.unit with
  | none => rfl
  | some e =>
      have haddr : (storeIn t.hw i).paddr = e.2.vaddr := h.translated e hunit
      have hex : (storeIn t.hw i).exValid = false := rfl
      rw [haddr, hex]
      cases ha : isAmo e.2.operator <;> simp [ha, storeEntry]

theorem QueueOk.of_taken (h : QueueOk t)
    (ht : StoreUnit.taken t.hw.store (storeIn t.hw i) = true) :
    ∃ n rest, present t = (n, lsuCtrl t.hw) :: rest ∧ (lsuCtrl t.hw).fu = .STORE := by
  simp only [StoreUnit.taken, Bool.and_eq_true] at ht
  exact h.head_of_popSt ht.1.1

theorem QueueOk.of_unit_next (h : QueueOk t) {e : Item}
    (he : e ∈ ((tracked ni).next t i).record.unit) :
    StoreUnit.taken t.hw.store (storeIn t.hw i) = true ∧ e.2 = lsuCtrl t.hw ∧
      (lsuCtrl t.hw).fu = .STORE := by
  have he : (if StoreUnit.taken t.hw.store (storeIn t.hw i) then (present t).head? else none) =
    some e := he
  split_ifs at he with ht
  obtain ⟨n, rest, hpres, hfu⟩ := h.of_taken ht
  rw [hpres, List.head?_cons, Option.some.injEq] at he
  exact ⟨ht, by rw [← he], hfu⟩

theorem QueueOk.unit_next (h : QueueOk t) :
    ((tracked ni).next t i).record.unit.map Prod.snd =
      if StoreUnit.taken t.hw.store (storeIn t.hw i) then some (lsuCtrl t.hw) else none := by
  show (if StoreUnit.taken t.hw.store (storeIn t.hw i) then (present t).head? else none).map _ = _
  cases ht : StoreUnit.taken t.hw.store (storeIn t.hw i) with
  | false => rfl
  | true =>
      obtain ⟨n, rest, hpres, -⟩ := h.of_taken ht
      rw [hpres]
      rfl

theorem QueueOk.unit_state_next (h : QueueOk t) :
    ((tracked ni).next t i).hw.store.unit.state = .VALID_STORE ↔
      ((tracked ni).next t i).record.unit.isSome = true := by
  rw [← Option.isSome_map, h.unit_next]
  exact (StoreUnit.samples_next t.hw.store (storeIn t.hw i)).state

/-- What the store unit takes and what is left were present, in this order. -/
theorem QueueOk.unit_waiting_sublist (h : QueueOk t) :
    ((recordNext ni t i).unit.toList ++ (recordNext ni t i).waiting).Sublist (present t) := by
  show ((if StoreUnit.taken t.hw.store (storeIn t.hw i) then (present t).head? else none).toList ++
    if i.flush then [] else if popped ni t i then (present t).tail else present t).Sublist _
  cases ht : StoreUnit.taken t.hw.store (storeIn t.hw i) with
  | false =>
      rw [if_neg Bool.false_ne_true, Option.toList_none, List.nil_append]
      split_ifs
      · exact List.nil_sublist _
      · exact List.tail_sublist _
      · exact List.Sublist.refl _
  | true =>
      obtain ⟨n, rest, hpres, -⟩ := h.of_taken ht
      have hpop : popped ni t i = true := by
        simp only [StoreUnit.taken, Bool.and_eq_true] at ht
        have hst : (storeOut t.hw i).popSt = true := ht.1.1
        rw [popped, hst, Bool.or_true]
      rw [hpop, if_pos rfl, if_pos rfl, hpres]
      split_ifs
      · simp
      · exact List.Sublist.refl _

theorem StoresOk.speculative_ne_nil (h : StoresOk t) (hc : CommitContract t i)
    (hi : i.commit = true) : (t.record.speculative.map fun e => storeEntry e.2) ≠ [] := by
  rw [← h.spec_contents, ← List.length_pos_iff, StoreBuffer.Queue.length_contents]
  exact (hc hi).1

variable (ni) in
theorem StoresOk.speculative_next (h : StoresOk t) :
    (recordNext ni t i).speculative.map (fun e => storeEntry e.2) =
      if i.flush then []
      else (if i.commit then (t.record.speculative.map fun e => storeEntry e.2).tail
          else t.record.speculative.map fun e => storeEntry e.2) ++
        if (StoreUnit.bufferIn t.hw.store (storeIn t.hw i)).valid then
          [(StoreUnit.bufferIn t.hw.store (storeIn t.hw i)).entry] else [] := by
  show (if i.flush then [] else uncommitted t i ++ posting t : List Item).map _ = _
  cases hflush : i.flush with
  | true => rfl
  | false =>
      show List.map _ (uncommitted t i ++ posting t) = (if i.commit then _ else _) ++ _
      rw [h.entry_posted hflush, List.map_append, uncommitted]
      cases i.commit
      · rfl
      · rw [if_pos rfl, if_pos rfl, List.map_tail]

variable (ni t i) in
theorem committed_next :
    (recordNext ni t i).committed.map (fun e => (storeEntry e.2).reqPort) =
      (t.record.committed.map fun e => (storeEntry e.2).reqPort) ++
        if i.commit then
          ((t.record.speculative.map fun e => storeEntry e.2).head?.map
            StoreBuffer.Entry.reqPort).toList
        else [] := by
  show List.map _ (t.record.committed ++ if i.commit then _ else []) = _
  rw [List.map_append]
  cases i.commit with
  | false => rfl
  | true => cases t.record.speculative <;> rfl

theorem StoresOk.next (h : StoresOk t) (hq : QueueOk t) (hc : CommitContract t i)
    (hf : NoCommitInFlush t i) : StoresOk ((tracked ni).next t i) where
  toHolds := by
    have hnext := h.toHolds.next (i := storeIn t.hw i) fun hi =>
      ⟨h.speculative_ne_nil hc hi, (hc hi).2, hf hi⟩
    have hspec := h.speculative_next ni (i := i)
    have hcommitted := committed_next ni t i
    exact hspec ▸ hcommitted ▸ hnext
  toSamples := by
    rw [hq.unit_next]
    exact StoreUnit.samples_next t.hw.store (storeIn t.hw i)
  translated e he := by
    obtain ⟨-, heq, hfu⟩ := hq.of_unit_next he
    show mmuVaddr t.hw = _
    rw [mmuVaddr, if_pos (.inr hfu), heq]

/-! ## The address check -/

theorem pageDword_setWidth (a : BitVec 32) : (a.setWidth 12).extractLsb' 3 9 = pageDword a := by
  ext k hk
  simp [pageDword]
  omega

theorem noneInside_of_no_match (h : pageOffsetMatches t.hw i = false) :
    NoneInside t.hw (pageDword (lsuCtrl t.hw).vaddr) := by
  obtain ⟨hcommit, hspec, hunit⟩ := StoreBuffer.pageOffsetMatches_eq_false.mp h
  rw [pageDword_setWidth] at hcommit hspec hunit
  refine ⟨?_, fun n hn => (hspec n hn).symm, fun n hn => (hcommit n hn).symm⟩
  intro hs
  refine (hunit ?_).symm
  rw [storeOut, StoreUnit.control_stValidWithoutFlush, hs]
  rfl

theorem NoneInside.next {d : BitVec 9} (h : NoneInside t.hw d)
    (htaken : StoreUnit.taken t.hw.store (storeIn t.hw i) = false)
    (hspec : t.hw.store.buffer.speculative.Ok)
    (hcommit : i.commit = true → 0 < t.hw.store.buffer.speculative.statusCnt.toNat) :
    NoneInside ((tracked ni).next t i).hw d where
  unit := by
    intro hs
    have hs : (StoreUnit.control t.hw.store (storeIn t.hw i)).state = .VALID_STORE := hs
    rw [StoreUnit.state_validStore_iff, htaken] at hs
    cases hs
  speculative := by
    intro n hn
    show pageDword (StoreBuffer.Queue.entries (StoreBuffer.coreIf t.hw.store.buffer
      (StoreUnit.bufferIn t.hw.store (storeIn t.hw i))) n).address ≠ d
    rcases StoreBuffer.coreIf_entries hn with heq | ⟨hv, heq⟩
    · have hn := (congrArg StoreBuffer.Entry.valid heq).symm.trans hn
      rw [heq]
      exact h.speculative n hn
    · rw [heq]
      exact h.unit (StoreUnit.state_of_bufferIn_valid hv)
  commit := by
    intro n hn
    show pageDword (StoreBuffer.Queue.entries (StoreBuffer.storeIf t.hw.store.buffer
      (StoreUnit.bufferIn t.hw.store (storeIn t.hw i))) n).address ≠ d
    rcases StoreBuffer.storeIf_entries hn with heq | ⟨hi, heq⟩
    · have hn := (congrArg StoreBuffer.Entry.valid heq).symm.trans hn
      rw [heq]
      exact h.commit n hn
    · rw [heq]
      exact h.speculative _ ((StoreBuffer.Queue.head_valid_iff hspec).mpr (hcommit hi))

theorem QueueOk.not_taken (h : QueueOk t) (hfu : (lsuCtrl t.hw).fu = .LOAD) :
    StoreUnit.taken t.hw.store (storeIn t.hw i) = false := by
  apply Bool.eq_false_iff.mpr
  intro ht
  obtain ⟨-, -, -, hstore⟩ := h.of_taken ht
  rw [hfu] at hstore
  cases hstore

/-- A load that waits for its grant after the check has no store to its doubleword before
it. -/
def Checked (t : Tracked) : Prop :=
  LoadUnit.waitsChecked t.hw.load.state = true →
    NoneInside t.hw (pageDword (lsuCtrl t.hw).vaddr)

/-- The load at hand stays the one at hand until it is popped. -/
theorem QueueOk.lsuCtrl_next (h : QueueOk t)
    (hw : LoadUnit.waits ((tracked ni).next t i).hw.load.state = true) :
    lsuCtrl ((tracked ni).next t i).hw = lsuCtrl t.hw ∧ (lsuCtrl t.hw).fu = .LOAD := by
  obtain ⟨hflush, hpop, hcase⟩ := LoadUnit.loadControl_waits rfl hw
  obtain ⟨n, rest, hpres, hfu⟩ := h.head_of_load hcase
  obtain ⟨e, rest', hwait, -⟩ := h.next.load_head hw
  refine ⟨?_, hfu⟩
  have hst : (storeOut t.hw i).popSt = false := by
    apply Bool.eq_false_iff.mpr
    intro hst
    obtain ⟨-, -, -, hstore⟩ := h.head_of_popSt hst
    rw [hfu] at hstore
    cases hstore
  have hnopop : popped ni t i = false := by
    have hpop : (loadOut ni t.hw i).popLd = false := hpop
    rw [popped, hpop, hst]
    rfl
  have hflush : i.flush = false := hflush
  have hkeep : ((tracked ni).next t i).record.waiting = present t := by
    show (if i.flush then [] else if popped ni t i then _ else _) = _
    rw [hflush, hnopop]
    rfl
  rw [h.next.lsuCtrl_eq, present, hkeep, hpres]
  rfl

theorem Checked.next (h : Checked t) (hq : QueueOk t) (hs : StoresOk t)
    (hc : CommitContract t i) : Checked ((tracked ni).next t i) := by
  intro hw
  obtain ⟨-, -, hcase⟩ := LoadUnit.loadControl_waitsChecked rfl hw
  have hwaits : LoadUnit.waits ((tracked ni).next t i).hw.load.state = true := by
    rw [LoadUnit.waits, hw]
    rfl
  obtain ⟨hctrl, hfu⟩ := hq.lsuCtrl_next hwaits
  rw [hctrl]
  have hbefore : NoneInside t.hw (pageDword (lsuCtrl t.hw).vaddr) := by
    rcases hcase with hw | ⟨hmatch, -⟩
    · exact h hw
    · exact noneInside_of_no_match hmatch
  exact hbefore.next (hq.not_taken hfu) hs.spec_ok fun hi => (hc hi).1

/-! ## The fates of the stores -/

/-- Every store that was accepted is somewhere in the record. -/
def Accounted (r : Record) : Prop :=
  ∀ m c, r.accepted[m]? = some c → c.fu = .STORE → isAmo c.operator = false →
    (m, c) ∈ r.waiting ∨ r.unit = some (m, c) ∨ (m, c) ∈ r.speculative ∨ (m, c) ∈ r.committed ∨
      (m, c) ∈ r.flushed

theorem taken_of_popSt (hp : (storeOut t.hw i).popSt = true) (hflush : i.flush = false) :
    StoreUnit.taken t.hw.store (storeIn t.hw i) = true := by
  show ((storeOut t.hw i).popSt && !i.flush && !((storeOut t.hw i).valid && false)) = true
  rw [hp, hflush]
  simp

variable (ni) in
theorem QueueOk.store_present_next (h : QueueOk t) {e : Item} (he : e ∈ present t)
    (hfu : e.2.fu = .STORE) :
    e ∈ (recordNext ni t i).waiting ∨ (recordNext ni t i).unit = some e ∨
      e ∈ (recordNext ni t i).flushed := by
  cases hflush : i.flush with
  | true => exact .inr (.inr (by simp [recordNext, hflush, he]))
  | false =>
      cases hpop : popped ni t i with
      | false => exact .inl (by simp [recordNext, hflush, hpop, he])
      | true =>
          cases hpres : present t with
          | nil => simp [hpres] at he
          | cons e' rest =>
              rw [hpres, List.mem_cons] at he
              rcases he with rfl | he
              · -- only the store unit pops a store
                have hst : (storeOut t.hw i).popSt = true := by
                  rw [popped, Bool.or_eq_true] at hpop
                  rcases hpop with hpop | hpop
                  · obtain ⟨n, rest', hpres', hload⟩ := h.head_of_popLd hpop
                    rw [hpres, List.cons.injEq] at hpres'
                    rw [hpres'.1] at hfu
                    rw [hfu] at hload
                    cases hload
                  · exact hpop
                exact .inr (.inl (by simp [recordNext, taken_of_popSt hst hflush, hpres]))
              · exact .inl (by simp [recordNext, hflush, hpop, hpres, he])

variable (ni) in
theorem posting_next {e : Item} (he : e ∈ posting t) :
    e ∈ (recordNext ni t i).speculative ∨ e ∈ (recordNext ni t i).flushed := by
  cases hflush : i.flush with
  | false => exact .inl (by simp [recordNext, hflush, he])
  | true =>
      have hunit : e ∈ t.record.unit.toList := (List.mem_filter.mp he).1
      refine .inr ?_
      simp only [recordNext, hflush, if_true, List.mem_append, hunit, true_or, or_true]

theorem speculative_next {e : Item} (he : e ∈ t.record.speculative) :
    e ∈ (recordNext ni t i).speculative ∨ e ∈ (recordNext ni t i).committed ∨
      e ∈ (recordNext ni t i).flushed := by
  have hcase : e ∈ uncommitted t i ∨ e ∈ (recordNext ni t i).committed := by
    unfold uncommitted
    cases hi : i.commit with
    | false => exact .inl he
    | true =>
        cases hspec : t.record.speculative with
        | nil => simp [hspec] at he
        | cons e' rest =>
            rw [hspec, List.mem_cons] at he
            rcases he with rfl | he
            · exact .inr (by simp [recordNext, hi, hspec])
            · exact .inl he
  rcases hcase with he | he
  · cases hflush : i.flush with
    | false => exact .inl (by simp [recordNext, hflush, he])
    | true => exact .inr (.inr (by simp [recordNext, hflush, he]))
  · exact .inr (.inl he)

theorem Accounted.next (h : Accounted t.record) (hq : QueueOk t) :
    Accounted (recordNext ni t i) := by
  intro m c hacc hfu hamo
  -- where the store is before this cycle
  have hbefore : (m, c) ∈ present t ∨ (m, c) ∈ posting t ∨ (m, c) ∈ t.record.speculative ∨
      (m, c) ∈ t.record.committed ∨ (m, c) ∈ t.record.flushed := by
    have hacc : (t.record.accepted ++ (arriving t).map Prod.snd)[m]? = some c := hacc
    by_cases hm : m < t.record.accepted.length
    · rw [List.getElem?_append_left hm] at hacc
      rcases h m c hacc hfu hamo with hmem | hunit | hrest
      · exact .inl (List.mem_append_left _ hmem)
      · exact .inr (.inl (by simp [posting, hunit, hamo]))
      · exact .inr (.inr hrest)
    · rw [List.getElem?_append_right (by omega)] at hacc
      refine .inl (List.mem_append_right _ ?_)
      unfold arriving at hacc ⊢
      cases hv : t.hw.lsuValid with
      | false => simp [hv] at hacc
      | true =>
          simp only [hv, if_true, List.map_cons, List.map_nil, List.getElem?_singleton] at hacc
          split_ifs at hacc with hzero
          rw [if_pos rfl, List.mem_singleton]
          have hmeq : m = t.record.accepted.length := by omega
          rw [hmeq, ← Option.some.inj hacc]
  rcases hbefore with hmem | hmem | hmem | hmem | hmem
  · rcases hq.store_present_next ni (i := i) hmem hfu with h | h | h
    · exact .inl h
    · exact .inr (.inl h)
    · exact .inr (.inr (.inr (.inr h)))
  · rcases posting_next ni (i := i) hmem with h | h
    · exact .inr (.inr (.inl h))
    · exact .inr (.inr (.inr (.inr h)))
  · exact .inr (.inr (speculative_next hmem))
  · exact .inr (.inr (.inr (.inl (List.mem_append_left _ hmem))))
  · exact .inr (.inr (.inr (.inr (List.mem_append_left _ hmem))))

/-! ## Every run -/

structure Inv (t : Tracked) : Prop where
  queue : QueueOk t
  stores : StoresOk t
  checked : Checked t
  accounted : Accounted t.record

theorem inv_init : Inv (tracked ni).init where
  queue :=
    { bypass_ok := Bypass.reset_ok
      waiting_eq := rfl
      room := by simp [tracked]
      valid := by simp [tracked, present, arriving, loadStoreUnit]
      ordered := by simp [tracked]
      lt := by simp [tracked]
      load_head := by simp [tracked, loadStoreUnit, LoadUnit.reset, LoadUnit.waits,
        LoadUnit.waitsChecked] }
  stores :=
    { state := by simp [tracked, loadStoreUnit, StoreUnit.storeUnit, StoreUnit.Regs.reset]
      sampled := by simp [tracked]
      translated := by simp [tracked]
      spec_ok := StoreBuffer.Queue.reset_ok
      commit_ok := StoreBuffer.Queue.reset_ok
      spec_contents := rfl
      commit_contents := rfl
      room := by simp [tracked, loadStoreUnit, StoreUnit.storeUnit, StoreUnit.Regs.reset] }
  checked := by simp [Checked, tracked, loadStoreUnit, LoadUnit.reset, LoadUnit.waitsChecked]
  accounted := by simp [Accounted, tracked]

theorem Inv.next (h : Inv t) (hc : CommitContract t i) (hf : NoCommitInFlush t i) :
    Inv ((tracked ni).next t i) where
  queue := h.queue.next
  stores := h.stores.next h.queue hc hf
  checked := h.checked.next h.queue h.stores hc
  accounted := h.accounted.next h.queue

theorem inv_run {ins : List Input} (hc : (tracked ni).Throughout CommitContract ins)
    (hf : (tracked ni).Throughout NoCommitInFlush ins) : Inv ((tracked ni).run ins) :=
  Machine.invariant inv_init (fun _ _ h he => h.next he.1 he.2) ins (hc.and hf)

/-- A committed store that is not in the commit queue any more has been granted. -/
theorem StoresOk.granted_of_committed (h : StoresOk t) {e : Item} (he : e ∈ t.record.committed)
    (hnone : NoneInside t.hw (pageDword e.2.vaddr)) : Granted t.record e := by
  obtain ⟨k, hk, rfl⟩ := List.getElem_of_mem he
  have hport := congrArg (fun l => l[k]?) h.commit_contents
  simp only [List.getElem?_map, List.getElem?_eq_getElem hk, Option.map_some] at hport
  by_cases hlt : k < t.record.granted.length
  · rw [List.getElem?_append_left hlt] at hport
    have hzip : (t.record.committed.zip t.record.granted)[k]? =
        some (t.record.committed[k], (storeEntry t.record.committed[k].2).reqPort) := by
      rw [List.getElem?_zip_eq_some]
      exact ⟨List.getElem?_eq_getElem hk, hport⟩
    exact List.mem_of_getElem? hzip
  · exfalso
    rw [List.getElem?_append_right (by omega), List.getElem?_map, Option.map_eq_some_iff] at hport
    obtain ⟨entry, hentry, hreq⟩ := hport
    obtain ⟨n, hn, rfl⟩ := Ring.mem_window.mp (List.mem_of_getElem? hentry)
    apply hnone.commit n ((h.commit_ok.valid_iff n).mpr hn)
    have hidx := congrArg StoreBuffer.ReqPort.addressIndex hreq
    have hdword (a : BitVec 32) : pageDword a = (a.extractLsb' 0 12).extractLsb' 3 9 := by
      rw [← pageDword_setWidth]
      rfl
    rw [hdword, hdword]
    exact congrArg (BitVec.extractLsb' 3 9) hidx

theorem Inv.noOvertake (h : Inv t) : NoOvertake ni t i := by
  intro hg
  simp only [loadGranted, Bool.and_eq_true, beq_iff_eq] at hg
  have hasks : LoadUnit.asks t.hw.load.state (loadIn ni t.hw i) = true := by
    rw [← LoadUnit.loadControl_dataReq rfl]
    exact hg.1.1
  obtain ⟨n, rest, hpres, -⟩ := h.queue.head_of_asks hasks
  have hnone : NoneInside t.hw (pageDword (lsuCtrl t.hw).vaddr) := by
    simp only [LoadUnit.asks, Bool.or_eq_true, Bool.and_eq_true, beq_iff_eq] at hasks
    rcases hasks with ⟨-, hmatch⟩ | hw
    · exact noneInside_of_no_match (by simpa [loadIn] using hmatch)
    · exact h.checked (by rw [hw]; rfl)
  have hfirst : ∀ e ∈ t.record.waiting, n ≤ e.1 := by
    intro e he
    have hmem : e ∈ (n, lsuCtrl t.hw) :: rest := hpres ▸ List.mem_append_left _ he
    have hord := h.queue.present_ordered.1
    rw [hpres, List.map_cons, List.pairwise_cons] at hord
    rcases List.mem_cons.mp hmem with rfl | hmem
    · exact Nat.le_refl _
    · exact Nat.le_of_lt (hord.1 _ (List.mem_map_of_mem hmem))
  refine ⟨n, lsuCtrl t.hw, by rw [hpres]; rfl, rfl, ?_, hfirst, hnone⟩
  intro m c hm hacc hfu hamo hdword
  rw [← hdword] at hnone
  rcases h.accounted m c hacc hfu hamo with hmem | hunit | hmem | hmem | hmem
  · have := hfirst _ hmem
    simp only at this
    omega
  · have hs := h.stores.state.mpr (by rw [hunit]; rfl)
    exact absurd (congrArg pageDword (h.stores.translated _ hunit)) (hnone.unit hs)
  · have hentry : storeEntry c ∈ t.hw.store.buffer.speculative.contents := by
      rw [h.stores.spec_contents]
      exact List.mem_map.mpr ⟨_, hmem, rfl⟩
    obtain ⟨k, hk, heq⟩ := Ring.mem_window.mp hentry
    refine absurd ?_ (hnone.speculative k ((h.stores.spec_ok.valid_iff k).mpr hk))
    rw [heq]
    rfl
  · exact .inr (h.stores.granted_of_committed hmem hnone)
  · exact .inl hmem

/-- As long as no store is committed in a cycle that flushes, a load whose request is granted
has no older store to its doubleword inside the unit: all of them have been granted. -/
theorem load_never_overtakes (ni : NonIdempotent) (ins : List Input) (i : Input)
    (hc : (tracked ni).Throughout CommitContract ins)
    (hf : (tracked ni).Throughout NoCommitInFlush ins) :
    NoOvertake ni ((tracked ni).run ins) i :=
  (inv_run hc hf).noOvertake

/-! ## Runs -/

instance (r : Record) (e : Item) : Decidable (Granted r e) :=
  inferInstanceAs (Decidable (_ ∈ _))

def storeWord (a : XLen) (id : TransId) : FuData := ⟨.STORE, .SW, a, 7, 0, id⟩

def loadWord (a : XLen) (id : TransId) : FuData := ⟨.LOAD, .LW, a, 0, 0, id⟩

def Input.open : Input :=
  { (default : Input) with storeGnt := true, loadGnt := true, dcacheWbufferNotNi := true }

def Input.issue (d : FuData) : Input := { Input.open with fuData := d, issueValid := true }

def Input.commits : Input := { Input.open with commit := true }

def orderedRun : List Input :=
  [.issue (storeWord 0x100 0), .issue (loadWord 0x104 1), .open, .open, .commits, .open, .open]

theorem load_never_overtakes_orderedRun :
    loadGranted (fun _ => false) ((tracked fun _ => false).run orderedRun) .open = true ∧
      NoOvertake (fun _ => false) ((tracked fun _ => false).run orderedRun) .open :=
  ⟨by decide +kernel, load_never_overtakes _ _ _ (by decide +kernel) (by decide +kernel)⟩

/-- The first store is committed in a cycle that flushes, which leaves the read pointer of
the speculative queue one slot ahead of its write pointer. The commits of the stores to
`0x100` and `0x200` then move those to `0x200` and `0x300`, and the store to `0x500`
overwrites the one to `0x100`. -/
def lostStoreRun : List Input :=
  [.issue (storeWord 0x800 0), .open, .open, { Input.commits with flush := true },
    .issue (storeWord 0x100 0), .issue (storeWord 0x200 1), .issue (storeWord 0x300 2), .open,
    .commits, .issue (storeWord 0x400 3), .open, .commits, .issue (storeWord 0x500 4), .open,
    .open, .issue (loadWord 0x100 5)]

/-- The load from `0x100` is granted although the store to `0x100`, which was committed, has
never been requested from the data cache. -/
theorem load_overtakes_lost_store :
    (tracked fun _ => false).Throughout CommitContract lostStoreRun ∧
      (1, lsuReq true (storeWord 0x100 0)) ∈
        ((tracked fun _ => false).run lostStoreRun).record.committed ∧
      ¬NoOvertake (fun _ => false) ((tracked fun _ => false).run lostStoreRun) .open := by
  refine ⟨by decide +kernel, by decide +kernel, ?_⟩
  intro h
  obtain ⟨n, l, hhead, -, hold, -, -⟩ := h (by decide +kernel)
  have hload : (present ((tracked fun _ => false).run lostStoreRun)).head? =
      some (6, lsuReq true (loadWord 0x100 5)) := by decide +kernel
  rw [hload, Option.some.injEq, Prod.mk.injEq] at hhead
  obtain ⟨rfl, rfl⟩ := hhead
  have hlost := hold 1 (lsuReq true (storeWord 0x100 0)) (by decide) (by decide +kernel) rfl rfl rfl
  revert hlost
  decide +kernel

end Cva6.Lsu
