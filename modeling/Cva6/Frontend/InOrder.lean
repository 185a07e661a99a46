import Cva6.Frontend.Queue
import Cva6.Sync.Machine
/-!
# The instruction queue in order

What goes into `instr_queue` comes out in the same order. The instructions go
through two FIFOs in turn and the predicted addresses through a third one, and
the address of an instruction is not stored at all: the output side counts it up
from the first address after a flush. The history of the queue since the last
flush is the list of the items it has taken, of which it has delivered a first
part and holds the rest.
-/

namespace Cva6.Frontend.Queue

open Cva6.Sync

/-- An instruction the queue has taken, with the address and the prediction of its packet. -/
structure Item where
  addr : XLen
  data : InstrData
  predict : XLen
  deriving DecidableEq, Repr

def Item.taken (x : Item) : Bool := predicted x.data

def Item.after (x : Item) (a : XLen) : XLen :=
  if x.taken then x.predict else a + len x.data.instr

/-- Each item starts at the successor of the one before it. -/
def Linked (l : List Item) : Prop := l.IsChain fun x y => y.addr = x.after x.addr

instance (l : List Item) : Decidable (Linked l) :=
  inferInstanceAs (Decidable (l.IsChain _))

section Cycle

variable (q : Regs) (i : Input)

def itemOf (j : Bool) : Item := ⟨(i.slots j).addr, dataOf i j, i.predictAddress⟩

/-- What the queue takes in this cycle, `consumed_o`. -/
def takenItems : List Item :=
  (if consumed q i false then [itemOf i false] else []) ++
    if consumed q i true then [itemOf i true] else []

def deliveredEntries : List FetchEntry :=
  if fetchEntryValid q && i.fetchEntryReady then [fetchEntry q] else []

/-- The packet is filled from its first instruction on, and the decoder takes
only what is there. -/
def Env : Prop :=
  ((i.slots true).valid = true → (i.slots false).valid = true) ∧
    (i.fetchEntryReady = true → fetchEntryValid q = true)

instance : Decidable (Env q i) := inferInstanceAs (Decidable (_ ∧ _))

end Cycle

structure Shows (x : Item) (e : FetchEntry) : Prop where
  instruction : e.instruction = x.data.instr
  cf : e.branchPredict.cf = x.data.cf
  ex : e.ex.valid = (x.data.ex != .FE_NONE)
  tval : e.ex.tval = x.data.exVaddr
  predict : x.taken = true → e.branchPredict.predictAddress = x.predict

def instrQueue : Machine Regs Input := ⟨reset, next⟩

/-! ## Addresses -/

/-- The addresses of the items when they are counted up from `a`. -/
def addresses : XLen → List Item → List XLen
  | _, [] => []
  | a, x :: l => a :: addresses (x.after a) l

def addressAfter (a : XLen) (l : List Item) : XLen :=
  l.foldl (fun a x => x.after a) a

theorem addresses_snoc (a : XLen) (l : List Item) (x : Item) :
    addresses a (l ++ [x]) = addresses a l ++ [addressAfter a l] := by
  induction l generalizing a with
  | nil => rfl
  | cons y l ih => simp [addresses, addressAfter, ih]

theorem addressAfter_snoc (a : XLen) (l : List Item) (x : Item) :
    addressAfter a (l ++ [x]) = x.after (addressAfter a l) := by
  simp [addressAfter]

theorem addresses_of_linked {x : Item} {l l' : List Item} (h : Linked (x :: l))
    (hl : l' <+: x :: l) : addresses x.addr l' = l'.map Item.addr := by
  induction l' generalizing x l with
  | nil => rfl
  | cons y l' ih =>
      obtain ⟨hy, htail⟩ : y = x ∧ l' <+: l := by simpa using hl
      subst hy
      cases l with
      | nil =>
          obtain rfl : l' = [] := by simpa using htail
          rfl
      | cons z l =>
          obtain ⟨hz, hrest⟩ := List.isChain_cons_cons.mp h
          rw [addresses, List.map_cons, ← hz, ih hrest htail]

/-! ## The history since the last flush -/

/-- The items `old` have been delivered as `es` and the items `new` are in the
queue. -/
structure History (q : Regs) (old new : List Item) (es : List FetchEntry) : Prop where
  shows : List.Forall₂ Shows old es
  instrs : Holds q (new.map Item.data)
  addrs : q.addrs.contents = (new.filter Item.taken).map Item.predict
  start : q.resetAddress = (old ++ new).isEmpty
  pc : ∀ x ∈ (old ++ new).head?, q.pc = addressAfter x.addr old ∧
    es.map FetchEntry.address = addresses x.addr old

theorem history_reset : History reset [] [] [] where
  shows := .nil
  instrs := reset_holds
  addrs := by simp [reset]
  start := rfl
  pc := by simp

theorem history_flush {q : Regs} {i : Input} (hf : i.flush = true) :
    History (next q i) [] [] [] where
  shows := .nil
  instrs := holds_flush hf
  addrs := by simp [next, hf]
  start := by simp [next, hf]
  pc := by simp

variable {q : Regs} {i : Input} {old new : List Item} {es : List FetchEntry}

theorem pushed_eq : pushed q i = (takenItems q i).map Item.data := by
  have h0 : consumed q i false = pushInstrFifo q i q.idxIs := by simp [consumed]
  have h1 : consumed q i true = pushInstrFifo q i (!q.idxIs) := by simp [consumed]
  unfold pushed takenItems
  rw [h0, h1]
  cases pushInstrFifo q i q.idxIs <;> cases pushInstrFifo q i (!q.idxIs) <;> rfl

/-- The items of one packet that are predicted are at most one. -/
theorem taken_items (h : Holds q (new.map Item.data))
    (hv : (i.slots true).valid = true → (i.slots false).valid = true) :
    ((takenItems q i).filter Item.taken).map Item.predict =
      if (pushed q i).any predicted then [i.predictAddress] else [] := by
  have h2 := h.push_second hv
  have h1 : consumed q i false = pushInstrFifo q i q.idxIs := by simp [consumed]
  have h1' : consumed q i true = pushInstrFifo q i (!q.idxIs) := by simp [consumed]
  -- the second instruction is left out when the first one is predicted
  have hcut : consumed q i true = true → predicted (dataOf i false) = false := by
    intro h
    rw [h1'] at h
    simp only [pushInstrFifo, pushInstr, (fifoPos_idxIs).2, valid, Bool.true_and, Bool.and_eq_true,
      Bool.not_eq_true', bne_eq_false_iff_eq] at h
    simp [predicted, dataOf, h.1.1.2]
  rw [pushed_eq]
  unfold takenItems
  cases hc0 : consumed q i false with
  | false =>
      have hc1 : consumed q i true = false := by
        cases hc1 : consumed q i true with
        | false => rfl
        | true =>
            rw [h1'] at hc1
            rw [h1, h2 hc1] at hc0
            exact absurd hc0 (by decide)
      simp [hc1]
  | true =>
      cases hc1 : consumed q i true with
      | false =>
          cases ht : predicted (dataOf i false) <;> simp [Item.taken, itemOf, ht]
      | true =>
          have ht0 := hcut hc1
          cases ht : predicted (dataOf i true) <;> simp [Item.taken, itemOf, ht, ht0]

theorem addrs_full_iff : q.addrs.full = true ↔ q.addrs.contents.length = 4 := Fifo.full_iff _

/-- An empty queue takes the first instruction of any packet. -/
theorem consumed_of_empty (h : Holds q []) (ha : q.addrs.contents = []) :
    consumed q i false = (i.slots false).valid := by
  obtain ⟨-, hfull, -⟩ := h.full
  have hfull : (q.instrs q.idxIs).full = false := by
    rw [← Bool.not_eq_true, hfull]
    simp
  have hafull : q.addrs.full = false := by
    rw [← Bool.not_eq_true, addrs_full_iff, ha]
    simp
  have hpush : consumed q i false = pushInstrFifo q i q.idxIs := by simp [consumed]
  rw [hpush]
  simp [pushInstrFifo, pushInstr, addressOverflow, (fifoPos_idxIs).1, valid, hfull, hafull]

theorem takenItems_eq_nil (h : Holds q [])
    (hv : (i.slots true).valid = true → (i.slots false).valid = true)
    (hc : consumed q i false = false) : takenItems q i = [] := by
  have hc1 : consumed q i true = false := by
    have h2 := h.push_second hv
    have h0 : consumed q i false = pushInstrFifo q i q.idxIs := by simp [consumed]
    have h1 : consumed q i true = pushInstrFifo q i (!q.idxIs) := by simp [consumed]
    cases hc1 : consumed q i true with
    | false => rfl
    | true =>
        rw [h1] at hc1
        rw [h0, h2 hc1] at hc
        exact absurd hc (by decide)
  simp [takenItems, hc, hc1]

theorem head?_takenItems (hc : consumed q i false = true) :
    (takenItems q i).head? = some (itemOf i false) := by
  simp [takenItems, hc]

/-- The oldest item is the one at the output. -/
theorem History.output {x : Item} (h : History q old (x :: new) es) :
    instrDataOut q = x.data ∧ (x.taken = true → addressOut q = x.predict) := by
  refine ⟨?_, ?_⟩
  · have hh := h.instrs
    rw [List.map_cons] at hh
    exact hh.instrDataOut
  · intro ht
    have ha := h.addrs
    rw [List.filter_cons_of_pos ht, List.map_cons] at ha
    exact q.addrs.mem_readPointer ha

theorem History.shows_output {x : Item} (h : History q old (x :: new) es) :
    Shows x (fetchEntry q) := by
  obtain ⟨hdata, haddr⟩ := h.output
  refine ⟨?_, ?_, ?_, ?_, haddr⟩ <;> simp [fetchEntry, hdata]

theorem next_regs (hf : i.flush = false) :
    (next q i).addrs = addrsNext q i ∧ (next q i).pc = pcD q i ∧
      (next q i).resetAddress = (q.resetAddress && !(i.slots false).valid) := by
  simp [next, hf]

theorem History.start_next (h : History q old new es)
    (hv : (i.slots true).valid = true → (i.slots false).valid = true) :
    (q.resetAddress && !(i.slots false).valid) = (old ++ new ++ takenItems q i).isEmpty := by
  rw [h.start]
  cases hl : old ++ new with
  | cons x l => rfl
  | nil =>
      obtain ⟨-, rfl⟩ := List.append_eq_nil_iff.mp hl
      have hc := consumed_of_empty (i := i) h.instrs h.addrs
      cases hs : (i.slots false).valid with
      | false => simp [takenItems_eq_nil h.instrs hv (hc.trans hs)]
      | true =>
          have hhead := head?_takenItems (hc.trans hs)
          cases ht : takenItems q i with
          | nil => simp [ht] at hhead
          | cons y l => rfl

theorem History.pc_first (h : History q [] [] es)
    (hv : (i.slots true).valid = true → (i.slots false).valid = true) {x : Item}
    (hx : x ∈ (takenItems q i).head?) : pcD q i = x.addr := by
  have hc := consumed_of_empty (i := i) h.instrs h.addrs
  cases hs : (i.slots false).valid with
  | false => simp [takenItems_eq_nil h.instrs hv (hc.trans hs)] at hx
  | true =>
      rw [head?_takenItems (hc.trans hs)] at hx
      obtain rfl : itemOf i false = x := by simpa using hx
      simp [pcD, hs, h.start, itemOf]

theorem History.next_idle (h : History q old new es) (hf : i.flush = false) (henv : Env q i)
    (hready : i.fetchEntryReady = false) :
    History (next q i) old (new ++ takenItems q i) es := by
  obtain ⟨hv, hr⟩ := henv
  obtain ⟨haddrs, hpc, hreset⟩ := next_regs (q := q) hf
  have hpop : popped q i = 0 := by simp [popped, hready]
  have hpa : popAddress q i = false := by simp [popAddress, hready]
  refine ⟨h.shows, ?_, ?_, ?_, ?_⟩
  · have hnext := h.instrs.next hf hv hr
    rw [hpop, List.drop_zero, pushed_eq, ← List.map_append] at hnext
    exact hnext
  · rw [haddrs, addrsNext_contents, hpa, ← taken_items h.instrs hv, h.addrs]
    simp
  · rw [hreset, h.start_next hv, List.append_assoc]
  · intro x hx
    rw [← List.append_assoc] at hx
    rw [hpc]
    cases hl : old ++ new with
    | nil =>
        obtain ⟨rfl, rfl⟩ := List.append_eq_nil_iff.mp hl
        rw [List.append_nil, List.nil_append] at hx
        obtain rfl : es = [] := by
          have := h.shows
          cases this
          rfl
        exact ⟨h.pc_first hv hx, rfl⟩
    | cons y l =>
        rw [hl, List.cons_append, List.head?_cons] at hx
        have hy := h.pc y (by rw [hl]; rfl)
        obtain rfl : y = x := by simpa using hx
        have hkeep : pcD q i = q.pc := by
          have hstart : q.resetAddress = false := by rw [h.start, hl]; rfl
          simp [pcD, hready, hpa, hstart]
        rw [hkeep]
        exact hy

theorem History.next_deliver {x : Item} (h : History q old (x :: new) es) (hf : i.flush = false)
    (henv : Env q i) (hready : i.fetchEntryReady = true) :
    History (next q i) (old ++ [x]) (new ++ takenItems q i) (es ++ [fetchEntry q]) := by
  obtain ⟨hv, hr⟩ := henv
  obtain ⟨haddrs, hpc, hreset⟩ := next_regs (q := q) hf
  obtain ⟨hdata, haddr⟩ := h.output
  have hvalid := hr hready
  have hpop : popped q i = 1 := by simp [popped, hready, hvalid]
  have hpa : popAddress q i = x.taken := by
    simp [popAddress, fetchEntry, hdata, hready, hvalid, Item.taken, predicted]
  have hlist : old ++ [x] ++ (new ++ takenItems q i) = old ++ (x :: new) ++ takenItems q i := by
    simp
  have hstart : q.resetAddress = false := by
    rw [h.start]
    cases old <;> rfl
  obtain ⟨y, l, hy⟩ : ∃ y l, old ++ (x :: new) = y :: l := by
    cases old with
    | nil => exact ⟨x, new, rfl⟩
    | cons z l => exact ⟨z, l ++ x :: new, rfl⟩
  obtain ⟨hpcq, hes⟩ := h.pc y (by rw [hy]; rfl)
  refine ⟨?_, ?_, ?_, ?_, ?_⟩
  · exact List.rel_append h.shows (.cons h.shows_output .nil)
  · have hnext := h.instrs.next hf hv hr
    rw [hpop, List.map_cons, List.drop_one, List.tail_cons, pushed_eq, ← List.map_append] at hnext
    exact hnext
  · rw [haddrs, addrsNext_contents, hpa, ← taken_items h.instrs hv, h.addrs]
    cases ht : x.taken <;> simp [ht]
  · rw [hreset, h.start_next hv, hlist]
  · intro z hz
    rw [hlist, hy, List.cons_append, List.head?_cons] at hz
    obtain rfl : y = z := by simpa using hz
    have hpcd : pcD q i = x.after q.pc := by
      cases ht : x.taken with
      | true => simp [pcD, hstart, hpa, ht, haddr ht, Item.after]
      | false => simp [pcD, hstart, hpa, ht, hready, Item.after, fetchEntry, hdata]
    refine ⟨?_, ?_⟩
    · rw [hpc, hpcd, hpcq, addressAfter_snoc]
    · rw [List.map_append, hes, addresses_snoc, ← hpcq]
      rfl

theorem History.deliver (h : History q old new es) (henv : Env q i) :
    ∃ old' new', old' ++ new' = old ++ new ∧
      List.Forall₂ Shows old' (es ++ deliveredEntries q i) ∧
      ∀ x ∈ (old ++ new).head?,
        (es ++ deliveredEntries q i).map FetchEntry.address = addresses x.addr old' := by
  cases hready : i.fetchEntryReady with
  | false =>
      have hnone : deliveredEntries q i = [] := by simp [deliveredEntries, hready]
      rw [hnone, List.append_nil]
      exact ⟨old, new, rfl, h.shows, fun x hx => (h.pc x hx).2⟩
  | true =>
      have hvalid := henv.2 hready
      have hone : deliveredEntries q i = [fetchEntry q] := by
        simp [deliveredEntries, hready, hvalid]
      have hne := h.instrs.fetchEntryValid_iff.mp hvalid
      cases new with
      | nil => exact absurd rfl hne
      | cons x new =>
          rw [hone]
          refine ⟨old ++ [x], new, by simp, ?_, ?_⟩
          · exact List.rel_append h.shows (.cons h.shows_output .nil)
          · intro y hy
            obtain ⟨hpc, hes⟩ := h.pc y hy
            rw [List.map_append, hes, addresses_snoc, ← hpc]
            rfl

theorem History.next (h : History q old new es) (hf : i.flush = false) (henv : Env q i) :
    ∃ old' new', old' ++ new' = old ++ new ++ takenItems q i ∧
      History (Queue.next q i) old' new' (es ++ deliveredEntries q i) := by
  cases hready : i.fetchEntryReady with
  | false =>
      have hnone : deliveredEntries q i = [] := by simp [deliveredEntries, hready]
      rw [hnone, List.append_nil]
      exact ⟨old, new ++ takenItems q i, by simp, h.next_idle hf henv hready⟩
  | true =>
      have hvalid := henv.2 hready
      have hone : deliveredEntries q i = [fetchEntry q] := by
        simp [deliveredEntries, hready, hvalid]
      have hne := h.instrs.fetchEntryValid_iff.mp hvalid
      cases new with
      | nil => exact absurd rfl hne
      | cons x new =>
          rw [hone]
          exact ⟨old ++ [x], new ++ takenItems q i, by simp, h.next_deliver hf henv hready⟩

/-! ## Runs -/

def takenFrom (q : Regs) (ins : List Input) : List Item := instrQueue.logFrom takenItems q ins

def deliveredFrom (q : Regs) (ins : List Input) : List FetchEntry :=
  instrQueue.logFrom deliveredEntries q ins

theorem History.run {ins : List Input} (h : History q old new es)
    (henv : instrQueue.ThroughoutFrom Env q ins) (hf : ∀ j ∈ ins, j.flush = false) :
    ∃ old' new', old' ++ new' = old ++ new ++ takenFrom q ins ∧
      History (instrQueue.runFrom q ins) old' new' (es ++ deliveredFrom q ins) := by
  induction ins generalizing q old new es with
  | nil => exact ⟨old, new, by simp [takenFrom, Machine.logFrom], by simpa [deliveredFrom, Machine.logFrom]⟩
  | cons i ins ih =>
      obtain ⟨hi, hrest⟩ := henv
      obtain ⟨old', new', heq, hnext⟩ := h.next (hf i (by simp)) hi
      obtain ⟨old'', new'', heq', hrun⟩ :=
        ih hnext hrest fun j hj => hf j (List.mem_cons_of_mem i hj)
      refine ⟨old'', new'', ?_, ?_⟩
      · rw [heq', heq, List.append_assoc]
        rfl
      · rw [List.append_assoc] at hrun
        exact hrun

def packetItems (i : Input) : List Item :=
  (if valid i false then [itemOf i false] else []) ++ if valid i true then [itemOf i true] else []

theorem takenItems_eq_take {l : List InstrData} (h : Holds q l)
    (hv : (i.slots true).valid = true → (i.slots false).valid = true) :
    takenItems q i = [itemOf i false, itemOf i true].take (pushed q i).length := by
  have h2 := h.push_second hv
  have h0 : consumed q i false = pushInstrFifo q i q.idxIs := by simp [consumed]
  have h1 : consumed q i true = pushInstrFifo q i (!q.idxIs) := by simp [consumed]
  unfold takenItems pushed
  rw [h0, h1]
  cases hp : pushInstrFifo q i (!q.idxIs) with
  | true => simp [h2 hp]
  | false => cases pushInstrFifo q i q.idxIs <;> rfl

/-- What the queue does not take of a packet is replayed from its first
instruction on, and no predicted address is stored then. -/
theorem replay_spec {l : List InstrData} (h : Holds q l)
    (hv : (i.slots true).valid = true → (i.slots false).valid = true) :
    (replay q i = false ∧ takenItems q i = packetItems i) ∨
      (replay q i = true ∧ (pushAddress q i && !q.addrs.full) = false ∧
        ∃ x rest, packetItems i = takenItems q i ++ x :: rest ∧ replayAddr q i = x.addr) := by
  have hcut : valid i true = true → valid i false = true ∧ predicted (dataOf i false) = false := by
    intro h1
    simp only [valid, Bool.true_and, Bool.and_eq_true, Bool.not_eq_true', bne_eq_false_iff_eq] at h1
    exact ⟨by simp [valid, hv h1.1], by simp [predicted, dataOf, h1.2]⟩
  rw [takenItems_eq_take h hv, ← any_predicted_pushed]
  rcases h.replay_cases hv with ⟨hr, hp⟩ | ⟨hr, hv0, hp, haddr⟩ | ⟨hr, hv0, hv1, hp, haddr⟩
  · refine .inl ⟨hr, ?_⟩
    rw [hp, packet, packetItems]
    cases h1 : valid i true with
    | true => simp [(hcut h1).1]
    | false => cases valid i false <;> rfl
  · refine .inr ⟨hr, by rw [hp]; rfl, itemOf i false, if valid i true then [itemOf i true] else [], ?_,
      haddr⟩
    simp [hp, packetItems, hv0]
  · refine .inr ⟨hr, ?_, itemOf i true, [], ?_, haddr⟩
    · rw [hp]
      simp [(hcut hv1).2]
    · simp [hp, packetItems, hv0, hv1]

theorem history_of_flush {pre : List Input}
    (hpre : ∀ p j, pre = p ++ [j] → j.flush = true) : History (instrQueue.run pre) [] [] [] := by
  rcases List.eq_nil_or_concat pre with rfl | ⟨p, j, rfl⟩
  · exact history_reset
  · rw [List.concat_eq_append] at hpre ⊢
    rw [Machine.run_snoc]
    exact history_flush (hpre p j rfl)

/-- Between two flushes the queue delivers what it has taken, in order: the
entries delivered so far show the first items, with the predicted address of
every taken one, and the other items are still in the queue. The delivered
addresses are those of the items if each item starts at the successor of the one
before it. An entry is offered as long as an item is left. In every cycle the
queue takes a first part of the packet, cut after its first taken instruction, and
the rest is replayed. -/
theorem queue_in_order (pre seg : List Input) (i : Input)
    (hpre : ∀ p j, pre = p ++ [j] → j.flush = true) (hseg : ∀ j ∈ seg, j.flush = false)
    (henv : instrQueue.Throughout Env (pre ++ seg ++ [i])) :
    (∃ old new, takenFrom (instrQueue.run pre) seg = old ++ new ∧
      List.Forall₂ Shows old (deliveredFrom (instrQueue.run pre) (seg ++ [i])) ∧
      (Linked (takenFrom (instrQueue.run pre) seg) →
        (deliveredFrom (instrQueue.run pre) (seg ++ [i])).map FetchEntry.address =
          old.map Item.addr)) ∧
    (fetchEntryValid (instrQueue.run (pre ++ seg)) = true ↔
      (deliveredFrom (instrQueue.run pre) seg).length <
        (takenFrom (instrQueue.run pre) seg).length) ∧
    takenItems (instrQueue.run (pre ++ seg)) i <+: packetItems i ∧
    (replay (instrQueue.run (pre ++ seg)) i = true ↔
      takenItems (instrQueue.run (pre ++ seg)) i ≠ packetItems i) ∧
    (replay (instrQueue.run (pre ++ seg)) i = true →
      (pushAddress (instrQueue.run (pre ++ seg)) i &&
        !(instrQueue.run (pre ++ seg)).addrs.full) = false ∧
      ∃ x rest, packetItems i = takenItems (instrQueue.run (pre ++ seg)) i ++ x :: rest ∧
        replayAddr (instrQueue.run (pre ++ seg)) i = x.addr) := by
  have hfrom : instrQueue.ThroughoutFrom Env (instrQueue.run pre) seg := by
    rw [Machine.throughoutFrom_iff]
    intro p j post hp
    rw [← Machine.run_append]
    exact henv (pre ++ p) j (post ++ [i]) (by simp [hp])
  have hi : Env (instrQueue.run (pre ++ seg)) i := henv (pre ++ seg) i [] rfl
  obtain ⟨old, new, heq, hist⟩ := (history_of_flush hpre).run hfrom hseg
  rw [← Machine.run_append] at hist
  rw [List.append_nil, List.nil_append] at heq
  rw [List.nil_append] at hist
  refine ⟨?_, ?_, ?_⟩
  · obtain ⟨old', new', heq', hshows, haddr⟩ := hist.deliver hi
    have hsnoc : deliveredFrom (instrQueue.run pre) (seg ++ [i]) =
        deliveredFrom (instrQueue.run pre) seg ++ deliveredEntries (instrQueue.run (pre ++ seg)) i := by
      rw [deliveredFrom, Machine.logFrom_append, Machine.run_append]
      simp [Machine.logFrom, deliveredFrom]
    rw [hsnoc]
    refine ⟨old', new', by rw [heq', heq], hshows, ?_⟩
    intro hlinked
    rw [← heq, ← heq'] at hlinked
    rw [← heq'] at haddr
    cases old' with
    | nil =>
        rw [List.forall₂_nil_left_iff.mp hshows]
        rfl
    | cons x l =>
        rw [haddr x (by simp)]
        exact addresses_of_linked hlinked (List.prefix_append (x :: l) new')
  · have hlen := hist.shows.length_eq
    rw [hist.instrs.fetchEntryValid_iff, ← heq, List.length_append, hlen, ne_eq,
      List.map_eq_nil_iff, ← ne_eq, ← List.length_pos_iff]
    omega
  · rcases replay_spec hist.instrs hi.1 with ⟨hr, htaken⟩ | ⟨hr, hpush, x, rest, hp, haddr⟩
    · rw [hr, htaken]
      exact ⟨List.prefix_rfl, by simp, by simp⟩
    · refine ⟨⟨x :: rest, hp.symm⟩, ?_, fun _ => ⟨hpush, x, rest, hp, haddr⟩⟩
      rw [hr, hp]
      simp

def packetCycle (a0 a1 : XLen) : Input where
  flush := false
  slots j := ⟨true, if j then a1 else a0, if j then 0x4501 else 0x0001⟩
  exception := .FE_NONE
  exceptionAddr := 0
  predictAddress := 0
  cfType _ := .NoCF
  fetchEntryReady := false

def deliverCycle : Input where
  flush := false
  slots _ := ⟨false, 0, 0⟩
  exception := .FE_NONE
  exceptionAddr := 0
  predictAddress := 0
  cfType _ := .NoCF
  fetchEntryReady := true

theorem queue_in_order_pair :
    instrQueue.Throughout Env ([] ++ [packetCycle 0x100 0x102, deliverCycle] ++ [deliverCycle]) ∧
      Linked (takenFrom reset [packetCycle 0x100 0x102, deliverCycle]) ∧
      ∃ old new, takenFrom reset [packetCycle 0x100 0x102, deliverCycle] = old ++ new ∧
        (deliveredFrom reset [packetCycle 0x100 0x102, deliverCycle, deliverCycle]).map
          FetchEntry.address = old.map Item.addr := by
  have henv : instrQueue.Throughout Env
      ([] ++ [packetCycle 0x100 0x102, deliverCycle] ++ [deliverCycle]) := by decide +kernel
  have hlinked : Linked (takenFrom reset [packetCycle 0x100 0x102, deliverCycle]) := by
    decide +kernel
  obtain ⟨⟨old, new, hsplit, -, haddr⟩, -⟩ :=
    queue_in_order [] [packetCycle 0x100 0x102, deliverCycle] deliverCycle (by simp)
      (by decide) henv
  exact ⟨henv, hlinked, old, new, hsplit, haddr hlinked⟩

/-- A single packet whose second instruction is not at the successor of the
first one: both are taken, and the second one is delivered with an address it was
not pushed with. -/
theorem second_address_counted :
    instrQueue.Throughout Env [packetCycle 0x100 0x500, deliverCycle, deliverCycle] ∧
      (takenFrom reset [packetCycle 0x100 0x500, deliverCycle, deliverCycle]).map Item.addr =
        [0x100, 0x500] ∧
      (deliveredFrom reset [packetCycle 0x100 0x500, deliverCycle, deliverCycle]).map
        FetchEntry.address = [0x100, 0x102] := by
  decide +kernel

end Cva6.Frontend.Queue
