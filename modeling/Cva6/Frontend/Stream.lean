import Cva6.Frontend.Prediction
/-!
# The delivered stream

The frontend is run beside the request the instruction cache has to answer and the
address of the next entry to be delivered. The invariant ties together the position of
the re-aligner, the fetch address and the queued instructions: walking the queue from
its program counter, by length or by predicted address, leads to the place where the
next instruction will come from.
-/

namespace Cva6.Frontend

open Cva6.Sync Queue

/-! ## Walks -/

/-- `Path R a es as b`: the instructions `es`, the predicted ones among them followed by
the addresses `as`, lead from `a` to `b`, and `R` holds of each with its address and the
address of its successor. -/
inductive Path (R : XLen → InstrData → XLen → Prop) :
    XLen → List InstrData → List XLen → XLen → Prop where
  | nil (a : XLen) : Path R a [] [] a
  | plain {a b : XLen} {e : InstrData} {es : List InstrData} {as : List XLen} (hcf : e.cf = .NoCF)
      (hr : R a e (a + len e.instr)) (tail : Path R (a + len e.instr) es as b) :
      Path R a (e :: es) as b
  | taken {a t b : XLen} {e : InstrData} {es : List InstrData} {as : List XLen} (hcf : e.cf ≠ .NoCF)
      (hr : R a e t) (tail : Path R t es as b) : Path R a (e :: es) (t :: as) b

theorem Path.append {R : XLen → InstrData → XLen → Prop} {a b c : XLen} {es es' : List InstrData}
    {as as' : List XLen} (h : Path R a es as b) (h' : Path R b es' as' c) :
    Path R a (es ++ es') (as ++ as') c := by
  induction h with
  | nil a => exact h'
  | plain hcf hr _ ih => exact .plain hcf hr (ih h')
  | taken hcf hr _ ih => exact .taken hcf hr (ih h')

theorem Path.eq_of_nil {R : XLen → InstrData → XLen → Prop} {a b : XLen} {as : List XLen}
    (h : Path R a [] as b) : a = b := by
  cases h
  rfl

/-! ## The system -/

structure State where
  q : Regs
  /-- The request the cache has to answer. -/
  asked : Option XLen
  /-- The address of the next entry to be delivered. -/
  due : XLen

def successor (e : FetchEntry) : XLen :=
  if e.branchPredict.cf = .NoCF then e.address + len e.instruction else e.branchPredict.predictAddress

section Cycle

variable (s : State) (i : Input)

def askedNext : Option XLen :=
  if killS1 s.q i then none
  else if ifReady s.q i then some (fetchAddress s.q i)
  else if killS2 s.q i || i.icache.valid then none
  else s.asked

def dueNext : XLen :=
  if i.flush then npcD s.q i
  else if fetchEntryValid s.q.queue && i.fetchEntryReady then successor (fetchEntry s.q.queue)
  else if s.q.npcRstLoad then i.bootAddr
  else s.due

def State.next : State := ⟨Frontend.next s.q i, askedNext s i, dueNext s i⟩

end Cycle

def stream : Machine State Input := ⟨⟨reset, none, 0⟩, State.next⟩

/-- What the frontend is promised by the pipeline: who redirects it also flushes it, and
only a valid entry is taken. -/
structure Wired (s : State) (i : Input) : Prop where
  flush : (isMispredict i || i.eret || i.exValid || i.setPcCommit || i.setDebugPc) = true →
    i.flush = true
  ready : i.fetchEntryReady = true → fetchEntryValid s.q.queue = true

/-- The addresses the frontend is redirected to are aligned. -/
structure Even (i : Input) : Prop where
  boot : Aligned i.bootAddr
  target : isMispredict i = true → Aligned i.resolvedBranch.targetAddress
  epc : i.eret = true → Aligned i.epc
  trap : i.exValid = true → Aligned i.trapVectorBase
  commit : i.setPcCommit = true → Aligned i.pcCommit

/-- The cache answers the request that is open with acceptable parcels, and takes a new
one only when the open one is settled. -/
structure Cached (H : Parcel → BitVec 16 → Prop) (s : State) (i : Input) : Prop where
  asked : i.icache.valid = true → s.asked = some i.icache.vaddr
  alive : i.icache.valid = true → killS2 s.q i = false
  low : i.icache.valid = true → H (i.icache.vaddr.extractLsb 31 2 ++ 0#1) (lowParcel i.icache.data)
  high : i.icache.valid = true → H (i.icache.vaddr.extractLsb 31 2 ++ 1#1) (highParcel i.icache.data)
  ready : i.icache.ready = true → s.asked = none ∨ i.icache.valid = true ∨ killS2 s.q i = true

instance (s : State) (i : Input) : Decidable (Wired s i) :=
  decidable_of_iff
    (((isMispredict i || i.eret || i.exValid || i.setPcCommit || i.setDebugPc) = true →
        i.flush = true) ∧
      (i.fetchEntryReady = true → fetchEntryValid s.q.queue = true))
    ⟨fun ⟨h1, h2⟩ => ⟨h1, h2⟩, fun ⟨h1, h2⟩ => ⟨h1, h2⟩⟩

instance (i : Input) : Decidable (Even i) :=
  decidable_of_iff
    (Aligned i.bootAddr ∧ (isMispredict i = true → Aligned i.resolvedBranch.targetAddress) ∧
      (i.eret = true → Aligned i.epc) ∧ (i.exValid = true → Aligned i.trapVectorBase) ∧
      (i.setPcCommit = true → Aligned i.pcCommit))
    ⟨fun ⟨h1, h2, h3, h4, h5⟩ => ⟨h1, h2, h3, h4, h5⟩, fun ⟨h1, h2, h3, h4, h5⟩ => ⟨h1, h2, h3, h4, h5⟩⟩

instance (H : Parcel → BitVec 16 → Prop) [∀ p v, Decidable (H p v)] (s : State) (i : Input) :
    Decidable (Cached H s i) :=
  decidable_of_iff
    ((i.icache.valid = true → s.asked = some i.icache.vaddr) ∧
      (i.icache.valid = true → killS2 s.q i = false) ∧
      (i.icache.valid = true → H (i.icache.vaddr.extractLsb 31 2 ++ 0#1) (lowParcel i.icache.data)) ∧
      (i.icache.valid = true → H (i.icache.vaddr.extractLsb 31 2 ++ 1#1) (highParcel i.icache.data)) ∧
      (i.icache.ready = true → s.asked = none ∨ i.icache.valid = true ∨ killS2 s.q i = true))
    ⟨fun ⟨h1, h2, h3, h4, h5⟩ => ⟨h1, h2, h3, h4, h5⟩,
      fun ⟨h1, h2, h3, h4, h5⟩ => ⟨h1, h2, h3, h4, h5⟩⟩

/-- A return is found while the return address stack is empty, and no other instruction
of the packet is predicted. -/
def emptyReturn (q : Regs) : Bool :=
  !q.ras.top.valid && (cfType q false == .Return || cfType q true == .Return) &&
    (cfType q false == .NoCF || cfType q false == .Return) &&
    (cfType q true == .NoCF || cfType q true == .Return)

/-! ## The invariant -/

def fetchPos (s : State) : XLen := s.asked.getD s.q.npc

def wordPos (s : State) : XLen := if s.q.icacheValid then s.q.icacheVaddr else fetchPos s

/-- Where the next instruction to be queued starts. -/
def pos (s : State) : XLen := Realign.position s.q.realign (wordPos s)

def EntryOk (H : Parcel → BitVec 16 → Prop) (a : XLen) (e : InstrData) (t : XLen) : Prop :=
  Stored H a e.instr ∧ FlowOk a e.instr e.cf t

structure AlignedRegs (q : Regs) : Prop where
  npc : Aligned q.npc
  ras : Aligned q.ras.top.ra ∧ Aligned q.ras.bottom.ra
  btb : ∀ x h, Aligned (q.btb x h).targetAddress
  btbQ : Aligned q.btbQ.targetAddress

structure FetchOk (H : Parcel → BitVec 16 → Prop) (s : State) : Prop where
  boot : s.q.npcRstLoad = true → s.asked = none ∧ s.q.icacheValid = false ∧
    s.q.realign.unaligned = false ∧ s.q.queue.resetAddress = true
  asked : ∀ a ∈ s.asked, s.q.npc = nextWord a ∧ Aligned a
  word : s.q.icacheValid = true → fetchPos s = nextWord s.q.icacheVaddr ∧
    Realign.WordOk H (realignIn s.q false)
  pending : s.q.realign.unaligned = true → Realign.PendingOk H s.q.realign (wordPos s)

/-- The queue holds the way from the next entry to be delivered to the next instruction to
be queued. After a flush it is empty, and waits for its program counter. -/
def QueueOk (H : Parcel → BitVec 16 → Prop) (s : State) : Prop :=
  ∃ es, Holds s.q.queue es ∧
    if s.q.queue.resetAddress then
      es = [] ∧ s.q.queue.addrs.contents = [] ∧ (s.q.npcRstLoad = false → pos s = s.due)
    else
      Path (EntryOk H) s.q.queue.pc es s.q.queue.addrs.contents (pos s) ∧ s.q.queue.pc = s.due

structure Ok (H : Parcel → BitVec 16 → Prop) (s : State) : Prop where
  aligned : AlignedRegs s.q
  fetch : FetchOk H s
  queue : QueueOk H s

/-! ## Fetching -/

section Fetch

variable {H : Parcel → BitVec 16 → Prop} {s : State} {i : Input} {j : Bool} {es : List InstrData}

theorem npcD_of_no_flush (hw : Wired s i) (hf : i.flush = false) :
    isMispredict i = false ∧ npcD s.q i =
      if replay s.q i then replayAddr s.q.queue (queueIn s.q i)
      else if ifReady s.q i then nextWord (fetchAddress s.q i) else fetchAddress s.q i := by
  have h : (isMispredict i || i.eret || i.exValid || i.setPcCommit || i.setDebugPc) = false := by
    cases hc : isMispredict i || i.eret || i.exValid || i.setPcCommit || i.setDebugPc with
    | false => rfl
    | true => simp [hw.flush hc] at hf
  simp only [Bool.or_eq_false_iff] at h
  obtain ⟨⟨⟨⟨hm, he⟩, hx⟩, hp⟩, hd⟩ := h
  exact ⟨hm, by simp [npcD, hm, he, hx, hp, hd]⟩

theorem slot_aligned (ft : FetchOk H s) (j : Bool) (hv : (slot s.q j).valid = true) :
    Aligned (slot s.q j).addr := by
  have hvalid : s.q.icacheValid = true := by
    cases j <;> simp [slot, Realign.slot0, Realign.slot1, realignIn] at hv <;> simp [hv]
  obtain ⟨-, hw⟩ := ft.word hvalid
  cases j with
  | true =>
      show Aligned (Realign.upperAddress (realignIn s.q false))
      have := Realign.toNat_upperAddress_mod (i := realignIn s.q false)
      unfold Aligned
      omega
  | false =>
      show Aligned (if s.q.realign.unaligned then s.q.realign.unalignedAddress else s.q.icacheVaddr)
      cases hu : s.q.realign.unaligned with
      | true =>
          have := (ft.pending hu).upper
          unfold Aligned
          simp only [if_true]
          omega
      | false =>
          rw [if_neg Bool.false_ne_true]
          exact hw.aligned

theorem slot_valid_of_predicted {q : Regs} {j : Bool} (h : cfType q j ≠ .NoCF) :
    (slot q j).valid = true := by
  cases hv : (slot q j).valid with
  | true => rfl
  | false => exact absurd (cfType_invalid hv) h

theorem target_aligned (ft : FetchOk H s) (hal : AlignedRegs s.q) (j : Bool) (t : XLen) (ht : target s.q j = some t) :
    Aligned t := by
  have hne : cfType s.q j ≠ .NoCF := by
    intro h
    simp [target_of_noCF h] at ht
  have haddr := slot_aligned ft j (slot_valid_of_predicted hne)
  obtain ⟨hi, hc⟩ := aligned_imm (slot s.q j).instr
  unfold target at ht
  split at ht
  · rw [← Option.some.inj ht]
    apply haddr.add
    split_ifs
    · exact hc
    · exact hi
  · split at ht
    · split_ifs at ht
      rw [← Option.some.inj ht]
      unfold btbPrediction
      split_ifs
      · exact hal.btb _ _
      · exact hal.btbQ
      · exact hal.btb _ _
    · rw [← Option.some.inj ht]
      exact hal.ras.1
    · simp at ht

theorem predictAddress_aligned (ft : FetchOk H s) (hal : AlignedRegs s.q) : Aligned (predictAddress s.q) := by
  unfold predictAddress
  cases h0 : target s.q false with
  | some t => exact target_aligned ft hal false t h0
  | none =>
      cases h1 : target s.q true with
      | some t => exact target_aligned ft hal true t h1
      | none => rfl

theorem fetchAddress_aligned (ft : FetchOk H s) (hal : AlignedRegs s.q) (he : Even i) :
    Aligned (fetchAddress s.q i) := by
  unfold fetchAddress npcQ
  split_ifs
  · exact predictAddress_aligned ft hal
  · exact he.boot
  · exact hal.npc

theorem slot_order {q : Regs} : (slot q true).valid = true → (slot q false).valid = true := by
  simp only [slot, if_true, Bool.false_eq_true, if_false, Realign.slot0, Realign.slot1,
    Bool.and_eq_true, Bool.not_eq_true']
  rintro ⟨⟨⟨hv, -⟩, -⟩, hs⟩
  exact ⟨hv, by simp [hs]⟩

theorem replay_cases (hh : Holds s.q.queue es) :
    (replay s.q i = false ∧ pushed s.q.queue (queueIn s.q i) = packet (queueIn s.q i)) ∨
      (replay s.q i = true ∧ valid (queueIn s.q i) false = true ∧
        pushed s.q.queue (queueIn s.q i) = [] ∧
        replayAddr s.q.queue (queueIn s.q i) = (slot s.q false).addr) ∨
      (replay s.q i = true ∧ valid (queueIn s.q i) false = true ∧ valid (queueIn s.q i) true = true ∧
        pushed s.q.queue (queueIn s.q i) = [dataOf (queueIn s.q i) false] ∧
        replayAddr s.q.queue (queueIn s.q i) = (slot s.q true).addr) :=
  hh.replay_cases slot_order

theorem slot1_invalid {q : Regs} (hv0 : (slot q false).valid = false) : (slot q true).valid = false := by
  cases hv1 : (slot q true).valid with
  | false => rfl
  | true => simp [slot_order hv1] at hv0

theorem slot_valid_of_valid (h : valid (queueIn s.q i) j = true) :
    (slot s.q j).valid = true := by
  simp only [valid, Bool.and_eq_true] at h
  exact h.1

theorem replay_of_invalid (hh : Holds s.q.queue es) (h : (slot s.q false).valid = false) :
    replay s.q i = false := by
  obtain ⟨hr, -⟩ | ⟨-, hv, -⟩ | ⟨-, hv, -⟩ := replay_cases (i := i) hh
  · exact hr
  · exact absurd ((slot_valid_of_valid hv).symm.trans h) (by decide)
  · exact absurd ((slot_valid_of_valid hv).symm.trans h) (by decide)

theorem pushed_of_invalid (hh : Holds s.q.queue es) (h : (slot s.q false).valid = false) :
    pushed s.q.queue (queueIn s.q i) = [] := by
  have h1 := slot1_invalid h
  obtain ⟨-, hp⟩ | ⟨-, -, hp, -⟩ | ⟨-, hv, -⟩ := replay_cases (i := i) hh
  · rw [hp]
    simp [packet, valid, queueIn, h, h1]
  · exact hp
  · simp [slot_valid_of_valid hv] at h

theorem replayAddr_aligned (ft : FetchOk H s) (hh : Holds s.q.queue es) (h : replay s.q i = true) :
    Aligned (replayAddr s.q.queue (queueIn s.q i)) := by
  obtain ⟨hr, -⟩ | ⟨-, hv, -, ha⟩ | ⟨-, -, hv, -, ha⟩ := replay_cases (i := i) hh
  · exact absurd (h.symm.trans hr) (by decide)
  · rw [ha]
    exact slot_aligned ft false (slot_valid_of_valid hv)
  · rw [ha]
    exact slot_aligned ft true (slot_valid_of_valid hv)

theorem npcD_aligned (ft : FetchOk H s) (hal : AlignedRegs s.q) (hh : Holds s.q.queue es) (he : Even i) :
    Aligned (npcD s.q i) := by
  have hfetch := fetchAddress_aligned ft hal he
  simp only [npcD]
  split_ifs with hd hc hx hr hm hr hi
  · show debugAddress.toNat % 2 = 0
    rfl
  · exact (he.commit hc).add_four
  · exact he.trap hx
  · exact he.epc hr
  · exact he.target hm
  · exact replayAddr_aligned ft hh hr
  · exact aligned_nextWord _
  · exact hfetch

theorem slot_aligned_of_isCall (ft : FetchOk H s) {j : Bool} (h : isCall s.q j = true) :
    Aligned (slot s.q j).addr := by
  simp only [isCall, Bool.and_eq_true] at h
  exact slot_aligned ft j h.1

theorem rasStep_aligned (ft : FetchOk H s) (u : RasUpdate) (hu : Aligned u.update) (j : Bool) :
    Aligned (rasStep s.q i u j).update := by
  simp only [rasStep]
  split_ifs with hcall
  · exact (slot_aligned_of_isCall ft hcall).add_two
  · exact (slot_aligned_of_isCall ft hcall).add_four
  · split <;> exact hu

theorem Ras.next_aligned {r : Ras} (hr : Aligned r.top.ra ∧ Aligned r.bottom.ra) {data : XLen}
    (hd : Aligned data) (flush push pop : Bool) :
    Aligned (r.next flush push pop data).top.ra ∧ Aligned (r.next flush push pop data).bottom.ra := by
  have h0 : Aligned 0#32 := rfl
  unfold Ras.next
  cases flush <;> cases push <;> cases pop <;> simp [hr, hd, h0]

theorem AlignedRegs.next (ft : FetchOk H s) (hal : AlignedRegs s.q) (hh : Holds s.q.queue es) (he : Even i) :
    AlignedRegs (Frontend.next s.q i) where
  npc := npcD_aligned ft hal hh he
  ras := Ras.next_aligned hal.ras
    (rasStep_aligned ft _ (rasStep_aligned ft ⟨false, false, 0⟩ rfl true) false) _ _ _
  btb := by
    intro x h
    show Aligned (s.q.btb.next i.flushBp i.debugMode i.resolvedBranch x h).targetAddress
    unfold Btb.next
    split_ifs with hf hu
    · exact hal.btb x h
    · apply he.target
      simp only [Bool.and_eq_true] at hu
      simp [isMispredict, hu]
    · exact hal.btb x h
  btbQ := by
    show Aligned (if i.icache.valid then s.q.btb (btbRow s.q.icacheVaddr) true else s.q.btbQ).targetAddress
    split_ifs
    · exact hal.btb _ _
    · exact hal.btbQ

/-! ### One cycle of the fetch -/

theorem killS1_of_no_flush (hw : Wired s i) (hf : i.flush = false) : killS1 s.q i = replay s.q i := by
  simp [killS1, hf, (npcD_of_no_flush hw hf).1]

theorem not_valid_of_killS2 (hc : Cached H s i) (hk : killS2 s.q i = true) : i.icache.valid = false := by
  cases hv : i.icache.valid with
  | false => rfl
  | true => simp [hc.alive hv] at hk

theorem pos_killed (hc : Cached H s i) (hk : killS2 s.q i = true) :
    (s.next i).q.icacheValid = false ∧ (s.next i).q.realign.unaligned = false ∧
      pos (s.next i) = fetchPos (s.next i) := by
  have hv : (s.next i).q.icacheValid = false := not_valid_of_killS2 hc hk
  have hu : (s.next i).q.realign.unaligned = false := by
    show (Realign.next s.q.realign (realignIn s.q (killS2 s.q i))).unaligned = false
    simp [Realign.next, realignIn, hk]
  exact ⟨hv, hu, by simp [pos, Realign.position, wordPos, hv, hu]⟩

theorem fetchPos_flush (hf : i.flush = true) : fetchPos (s.next i) = npcD s.q i := by
  show (askedNext s i).getD (npcD s.q i) = npcD s.q i
  simp [askedNext, killS1, hf]

theorem fetchPos_replay (hw : Wired s i) (hf : i.flush = false) (hr : replay s.q i = true) :
    fetchPos (s.next i) = replayAddr s.q.queue (queueIn s.q i) := by
  show (askedNext s i).getD (npcD s.q i) = _
  simp [askedNext, killS1_of_no_flush hw hf, hr, (npcD_of_no_flush hw hf).2]

theorem fetchPos_predicted (hw : Wired s i) (hf : i.flush = false) (hr : replay s.q i = false)
    (hb : bpValid s.q = true) : fetchPos (s.next i) = predictAddress s.q := by
  have haddr : fetchAddress s.q i = predictAddress s.q := by simp [fetchAddress, hb]
  show (askedNext s i).getD (npcD s.q i) = _
  rw [(npcD_of_no_flush hw hf).2]
  cases hi : ifReady s.q i <;>
    simp [askedNext, killS1_of_no_flush hw hf, killS2, hr, hb, hi, haddr]

/-- Without a prediction the fetch goes on: the word it has to bring next is given to the
re-aligner, and is followed by the next one. -/
theorem fetch_on (ft : FetchOk H s) (hw : Wired s i) (hc : Cached H s i) (hf : i.flush = false)
    (hk : killS2 s.q i = false) (hboot : s.q.npcRstLoad = false) :
    wordPos (s.next i) = fetchPos s ∧
      ((s.next i).q.icacheValid = true →
        fetchPos (s.next i) = nextWord (s.next i).q.icacheVaddr ∧ s.asked = some i.icache.vaddr) := by
  simp only [killS2, killS1_of_no_flush hw hf, Bool.or_eq_false_iff] at hk
  obtain ⟨hr, hb⟩ := hk
  have hk1 : killS1 s.q i = false := (killS1_of_no_flush hw hf).trans hr
  have haddr : fetchAddress s.q i = s.q.npc := by simp [fetchAddress, npcQ, hb, hboot]
  have hnpc : npcD s.q i = if ifReady s.q i then nextWord s.q.npc else s.q.npc := by
    simp [(npcD_of_no_flush hw hf).2, hr, haddr]
  have hpos : fetchPos (s.next i) = (askedNext s i).getD (npcD s.q i) := rfl
  cases hv : i.icache.valid with
  | true =>
      have hasked := hc.asked hv
      obtain ⟨hnext, -⟩ := ft.asked _ hasked
      have hq : (s.next i).q.icacheVaddr = i.icache.vaddr := by simp [State.next, Frontend.next, hv]
      have hq' : (s.next i).q.icacheValid = true := hv
      refine ⟨by simp [wordPos, hq, hq', fetchPos, hasked], fun _ => ⟨?_, hasked⟩⟩
      rw [hq, ← hnext, hpos, hnpc]
      cases hi : ifReady s.q i <;> simp [askedNext, hk1, killS2, hb, hi, hv, haddr]
  | false =>
      have hq' : (s.next i).q.icacheValid = false := hv
      refine ⟨?_, fun h => absurd (hq'.symm.trans h) Bool.false_ne_true⟩
      simp only [wordPos, hq', Bool.false_eq_true, if_false, hpos, hnpc]
      cases hi : ifReady s.q i with
      | true =>
          have hready : i.icache.ready = true := by
            simp only [ifReady, Bool.and_eq_true] at hi
            exact hi.1
          have hasked : s.asked = none := by
            rcases hc.ready hready with h | h | h
            · exact h
            · simp [hv] at h
            · simp [killS2, hk1, hb] at h
          simp [askedNext, hk1, hi, haddr, fetchPos, hasked]
      | false => simp [askedNext, hk1, killS2, hb, hi, hv, fetchPos]

theorem pending_word (ft : FetchOk H s) (hv : s.q.icacheValid = true) (hu : s.q.realign.unaligned = true) :
    Realign.PendingOk H s.q.realign (realignIn s.q false).address := by
  have hp := ft.pending hu
  have hwp : wordPos s = s.q.icacheVaddr := by simp [wordPos, hv]
  rw [hwp] at hp
  exact hp

theorem pos_fetch_on (ft : FetchOk H s) (hw : Wired s i) (hc : Cached H s i) (hf : i.flush = false)
    (hk : killS2 s.q i = false) (hboot : s.q.npcRstLoad = false) :
    pos (s.next i) =
        (if s.q.icacheValid then Realign.endPos s.q.realign (realignIn s.q false) else pos s) ∧
      ((s.next i).q.realign.unaligned = true →
        Realign.PendingOk H (s.next i).q.realign (wordPos (s.next i))) := by
  have hrealign : (s.next i).q.realign = Realign.next s.q.realign (realignIn s.q false) := by
    rw [← hk]
    rfl
  unfold pos
  rw [(fetch_on ft hw hc hf hk hboot).1, hrealign]
  cases hv : s.q.icacheValid with
  | true =>
      obtain ⟨hnext, hword⟩ := ft.word hv
      rw [hnext, if_pos rfl]
      exact Realign.next_ok hword (pending_word ft hv) hv rfl
  | false =>
      have hsame : Realign.next s.q.realign (realignIn s.q false) = s.q.realign := by
        simp [Realign.next, realignIn, hv]
      have hwp : wordPos s = fetchPos s := by simp [wordPos, hv]
      rw [hsame, ← hwp]
      exact ⟨by simp, ft.pending⟩

theorem fetch_boot (ft : FetchOk H s) (hh : Holds s.q.queue es) (hw : Wired s i) (hc : Cached H s i) (hf : i.flush = false)
    (hboot : s.q.npcRstLoad = true) :
    killS2 s.q i = false ∧ (slot s.q false).valid = false ∧ (s.next i).q.icacheValid = false ∧
      (s.next i).q.realign.unaligned = false ∧ pos (s.next i) = i.bootAddr := by
  obtain ⟨hasked, hvalid, hun, -⟩ := ft.boot hboot
  have hslot (j : Bool) : (slot s.q j).valid = false := by
    cases j <;> simp [slot, Realign.slot0, Realign.slot1, realignIn, hvalid]
  have hb : bpValid s.q = false := by simp [bpValid, cfType_invalid (hslot _)]
  have hr : replay s.q i = false := replay_of_invalid hh (hslot false)
  have hk1 : killS1 s.q i = false := (killS1_of_no_flush hw hf).trans hr
  have hk : killS2 s.q i = false := by simp [killS2, hk1, hb]
  have hv' : i.icache.valid = false := by
    cases hv : i.icache.valid with
    | false => rfl
    | true => exact absurd (hasked.symm.trans (hc.asked hv)) (by simp)
  have hun' : (s.next i).q.realign.unaligned = false := by
    show (Realign.next s.q.realign (realignIn s.q (killS2 s.q i))).unaligned = false
    simp [Realign.next, realignIn, hvalid, hun]
  refine ⟨hk, hslot false, hv', hun', ?_⟩
  have haddr : fetchAddress s.q i = i.bootAddr := by simp [fetchAddress, npcQ, hb, hboot]
  have hq' : (s.next i).q.icacheValid = false := hv'
  have hpos : fetchPos (s.next i) = (askedNext s i).getD (npcD s.q i) := rfl
  simp only [pos, Realign.position, hun', wordPos, hq', Bool.false_eq_true, if_false, hpos,
    (npcD_of_no_flush hw hf).2, hr, haddr]
  cases hi : ifReady s.q i <;> simp [askedNext, hk1, hk, hi, haddr, hasked]

theorem askedNext_spec (ft : FetchOk H s) (hw : Wired s i) (ha : Aligned (fetchAddress s.q i)) :
    ∀ a ∈ askedNext s i, npcD s.q i = nextWord a ∧ Aligned a := by
  intro a hm
  unfold askedNext at hm
  cases hk1 : killS1 s.q i with
  | true => simp [hk1] at hm
  | false =>
      have hf : i.flush = false := by
        simp only [killS1, Bool.or_eq_false_iff] at hk1
        exact hk1.1.2
      have hr : replay s.q i = false := (killS1_of_no_flush hw hf).symm.trans hk1
      rw [hk1, if_neg Bool.false_ne_true] at hm
      rw [(npcD_of_no_flush hw hf).2, hr, if_neg Bool.false_ne_true]
      cases hi : ifReady s.q i with
      | true =>
          obtain rfl : fetchAddress s.q i = a := by simpa [hi] using hm
          exact ⟨rfl, ha⟩
      | false =>
          cases hk2 : killS2 s.q i with
          | true => simp [hi, hk2] at hm
          | false =>
              have hb : bpValid s.q = false := by
                simp only [killS2, Bool.or_eq_false_iff] at hk2
                exact hk2.2
              have hm : s.asked = some a := by
                cases hv : i.icache.valid with
                | true => simp [hi, hk2, hv] at hm
                | false => simpa [hi, hk2, hv] using hm
              have hboot : s.q.npcRstLoad = false := by
                cases hboot : s.q.npcRstLoad with
                | false => rfl
                | true => simp [(ft.boot hboot).1] at hm
              obtain ⟨hn, hal⟩ := ft.asked a hm
              exact ⟨by simp [fetchAddress, npcQ, hb, hboot, hn], hal⟩

theorem wordOk_of_valid (ft : FetchOk H s) (hc : Cached H s i) (hv : i.icache.valid = true) :
    Realign.WordOk H (realignIn (s.next i).q false) := by
  have haddr : (realignIn (s.next i).q false).address = i.icache.vaddr := by
    simp [realignIn, State.next, Frontend.next, hv]
  have hdata : (realignIn (s.next i).q false).data = icacheData i.icache := by
    simp [realignIn, State.next, Frontend.next, hv]
  have hlow := hc.low hv
  have hhigh := hc.high hv
  obtain ⟨hodd, heven⟩ := half_eq_parcel i.icache.vaddr
  refine ⟨haddr ▸ (ft.asked _ (hc.asked hv)).2, ?_, ?_, ?_⟩
  · show H (half (realignIn (s.next i).q false).address) (lowParcel (realignIn (s.next i).q false).data)
    rw [haddr, hdata]
    cases h1 : i.icache.vaddr.getLsbD 1 with
    | true =>
        rw [hodd h1, icacheData, if_pos h1, lowParcel_shift]
        exact hhigh
    | false =>
        rw [(heven h1).1, icacheData, h1, if_neg Bool.false_ne_true]
        exact hlow
  · rw [haddr]
    intro h1
    show H _ (highParcel (realignIn (s.next i).q false).data)
    rw [hdata, (heven h1).2, icacheData, h1, if_neg Bool.false_ne_true]
    exact hhigh
  · rw [haddr]
    intro h1
    show highParcel (realignIn (s.next i).q false).data = 0
    rw [hdata, icacheData, if_pos h1, highParcel_shift]

theorem no_flush_of_killS2 (hk : killS2 s.q i = false) : i.flush = false := by
  simp only [killS2, killS1, Bool.or_eq_false_iff] at hk
  exact hk.1.1.2

theorem FetchOk.next (ft : FetchOk H s) (hh : Holds s.q.queue es) (hw : Wired s i) (hc : Cached H s i)
    (ha : Aligned (fetchAddress s.q i)) : FetchOk H (s.next i) where
  boot := fun h => absurd h Bool.false_ne_true
  asked := askedNext_spec ft hw ha
  word := by
    intro hv
    have hk := hc.alive hv
    have hboot : s.q.npcRstLoad = false := by
      cases hboot : s.q.npcRstLoad with
      | false => rfl
      | true => exact absurd ((ft.boot hboot).1.symm.trans (hc.asked hv)) (by simp)
    exact ⟨((fetch_on ft hw hc (no_flush_of_killS2 hk) hk hboot).2 hv).1, wordOk_of_valid ft hc hv⟩
  pending := by
    intro hu
    cases hk : killS2 s.q i with
    | true => simp [(pos_killed hc hk).2.1] at hu
    | false =>
        have hf := no_flush_of_killS2 hk
        cases hboot : s.q.npcRstLoad with
        | true => simp [(fetch_boot ft hh hw hc hf hboot).2.2.2.1] at hu
        | false => exact (pos_fetch_on ft hw hc hf hk hboot).2 hu

/-! ## Queueing -/

theorem target_of_predicted {q : Regs} {j : Bool} (h : cfType q j ≠ .NoCF) :
    ∃ t, target q j = some t := by
  have hv := slot_valid_of_predicted h
  have hjump : caseOf q j = .jump → (takenRvcCf q j || takenRviCf q j) = true := by
    intro hc
    have hflag := (flow_eq_jump _).mp ((caseOf_spec hv).2.1.mp hc)
    rw [Bool.or_comm] at hflag
    simpa [takenRvcCf, takenRviCf, hc, scan] using hflag
  unfold target
  by_cases ht : (takenRvcCf q j || takenRviCf q j) = true
  · exact ⟨_, if_pos ht⟩
  · rw [if_neg ht]
    rw [Bool.or_comm] at ht
    unfold cfType at h
    cases hc : caseOf q j with
    | jalr =>
        have hb : (btbPrediction q j).valid = true := by simpa [hc] using h
        exact ⟨_, if_pos hb⟩
    | ret => exact ⟨_, rfl⟩
    | jump =>
        rw [Bool.or_comm] at ht
        exact absurd (hjump hc) ht
    | branch =>
        simp only [hc, if_neg ht] at h
        exact absurd rfl h
    | regular | other => simp [hc] at h

theorem icacheValid_of_slot {q : Regs} (h : (slot q false).valid = true) : q.icacheValid = true := by
  simp only [slot, Realign.slot0, realignIn, Bool.false_eq_true, if_false, Bool.and_eq_true] at h
  exact h.1

theorem slot0_stored (ft : FetchOk H s) (hv : (slot s.q false).valid = true) :
    (slot s.q false).addr = pos s ∧ Stored H (slot s.q false).addr (slot s.q false).instr := by
  have hvalid := icacheValid_of_slot hv
  have hwp : wordPos s = s.q.icacheVaddr := by simp [wordPos, hvalid]
  have h := Realign.slot0_ok (ft.word hvalid).2 (pending_word ft hvalid) hv
  refine ⟨?_, h.2⟩
  rw [pos, hwp]
  exact h.1

theorem slot1_stored (ft : FetchOk H s) (hv : (slot s.q true).valid = true) :
    (slot s.q true).addr = (slot s.q false).addr + len (slot s.q false).instr ∧
      Stored H (slot s.q true).addr (slot s.q true).instr := by
  have hvalid := icacheValid_of_slot (slot_order hv)
  have h := Realign.slot1_ok (ft.word hvalid).2 (pending_word ft hvalid) hv
  exact ⟨h.2.1, h.2.2.1⟩

theorem endPos_packet (q : Regs) (hv : (slot q false).valid = true) :
    Realign.endPos q.realign (realignIn q false) =
      if (slot q true).valid then (slot q true).addr + len (slot q true).instr
      else (slot q false).addr + len (slot q false).instr := by
  have hv : (Realign.slot0 q.realign (realignIn q false)).valid = true := hv
  simp [Realign.endPos, slot, hv]

/-- The fetch follows what is predicted, except for a return on an empty stack. -/
theorem bpValid_of_predicted (hu : emptyReturn s.q = false) (h : cfType s.q j ≠ .NoCF) :
    bpValid s.q = true := by
  have h : cfType s.q false ≠ .NoCF ∨ cfType s.q true ≠ .NoCF := by
    cases j
    · exact .inl h
    · exact .inr h
  revert hu h
  unfold emptyReturn bpValid
  cases cfType s.q false <;> cases cfType s.q true <;> cases s.q.ras.top.valid <;> decide

theorem bpValid_of_plain {q : Regs} (h0 : cfType q false = .NoCF) (h1 : cfType q true = .NoCF) :
    bpValid q = false := by
  simp [bpValid, h0, h1]

theorem pos_replay (hw : Wired s i) (hc : Cached H s i) (hf : i.flush = false)
    (hr : replay s.q i = true) : pos (s.next i) = replayAddr s.q.queue (queueIn s.q i) := by
  have hk : killS2 s.q i = true := by simp [killS2, killS1, hr]
  rw [(pos_killed hc hk).2.2, fetchPos_replay hw hf hr]

theorem pos_predicted (hw : Wired s i) (hc : Cached H s i) (hf : i.flush = false)
    (hr : replay s.q i = false) (hb : bpValid s.q = true) : pos (s.next i) = predictAddress s.q := by
  have hk : killS2 s.q i = true := by simp [killS2, hb]
  rw [(pos_killed hc hk).2.2, fetchPos_predicted hw hf hr hb]

theorem pos_plain (ft : FetchOk H s) (hw : Wired s i) (hc : Cached H s i) (hf : i.flush = false)
    (hboot : s.q.npcRstLoad = false) (hr : replay s.q i = false) (hb : bpValid s.q = false) :
    pos (s.next i) =
      if s.q.icacheValid then Realign.endPos s.q.realign (realignIn s.q false) else pos s := by
  have hk : killS2 s.q i = false := by simp [killS2, killS1_of_no_flush hw hf, hr, hb]
  exact (pos_fetch_on ft hw hc hf hk hboot).1

theorem entryOk_slot (hv : (slot s.q j).valid = true)
    (hs : Stored H (slot s.q j).addr (slot s.q j).instr) {t : XLen}
    (ht : target s.q j = some t ∨ cfType s.q j = .NoCF) :
    EntryOk H (slot s.q j).addr (dataOf (queueIn s.q i) j) t :=
  ⟨hs, cfType_flowOk hv ht⟩

theorem path_slot (hv : (slot s.q j).valid = true)
    (hs : Stored H (slot s.q j).addr (slot s.q j).instr)
    (hfirst : j = true → cfType s.q false = .NoCF) :
    Path (EntryOk H) (slot s.q j).addr [dataOf (queueIn s.q i) j]
      (if cfType s.q j = .NoCF then [] else [predictAddress s.q])
      (if cfType s.q j = .NoCF then (slot s.q j).addr + len (slot s.q j).instr else predictAddress s.q) := by
  by_cases hcf : cfType s.q j = .NoCF
  · rw [if_pos hcf, if_pos hcf]
    exact .plain hcf (entryOk_slot hv hs (.inr hcf)) (.nil _)
  · rw [if_neg hcf, if_neg hcf]
    obtain ⟨t, ht⟩ := target_of_predicted hcf
    have hp : predictAddress s.q = t := by
      unfold predictAddress
      cases j with
      | false => simp [ht]
      | true => simp [target_of_noCF (hfirst rfl), ht]
    rw [hp]
    exact .taken hcf (entryOk_slot hv hs (.inl ht)) (.nil _)

theorem pos_of_invalid (ft : FetchOk H s) (hw : Wired s i) (hc : Cached H s i) (hf : i.flush = false)
    (hboot : s.q.npcRstLoad = false) (hr : replay s.q i = false) (hv0 : (slot s.q false).valid = false) :
    pos (s.next i) = pos s := by
  have hv1 := slot1_invalid hv0
  rw [pos_plain ft hw hc hf hboot hr (bpValid_of_plain (cfType_invalid hv0) (cfType_invalid hv1))]
  cases hvalid : s.q.icacheValid with
  | false => rfl
  | true =>
      have hv0 : (Realign.slot0 s.q.realign (realignIn s.q false)).valid = false := hv0
      have hv1 : (Realign.slot1 s.q.realign (realignIn s.q false)).valid = false := hv1
      have hwp : wordPos s = (realignIn s.q false).address := by simp [wordPos, hvalid, realignIn]
      simp [Realign.endPos, hv0, hv1, pos, hwp]

theorem path_packet (ft : FetchOk H s) (hw : Wired s i) (hc : Cached H s i) (hf : i.flush = false)
    (hu : emptyReturn s.q = false) (hboot : s.q.npcRstLoad = false) (hr : replay s.q i = false) :
    Path (EntryOk H) (pos s) (packet (queueIn s.q i))
      (if (packet (queueIn s.q i)).any predicted then [predictAddress s.q] else [])
      (pos (s.next i)) := by
  have hpred (j : Bool) : predicted (dataOf (queueIn s.q i) j) = (cfType s.q j != .NoCF) := rfl
  have hpacket : packet (queueIn s.q i) =
      (if (slot s.q false).valid then [dataOf (queueIn s.q i) false] else []) ++
        if (slot s.q true).valid && cfType s.q false == .NoCF then [dataOf (queueIn s.q i) true]
        else [] := by
    simp [packet, valid, queueIn, bne]
  rw [hpacket]
  cases hv0 : (slot s.q false).valid with
  | false =>
      have hv1 := slot1_invalid hv0
      have hpos := pos_of_invalid ft hw hc hf hboot hr hv0
      rw [hpos]
      simpa [hv1] using Path.nil (pos s)
  | true =>
      obtain ⟨hpos, hs0⟩ := slot0_stored ft hv0
      have hpath0 := path_slot (i := i) hv0 hs0 (by simp)
      have hplain := pos_plain ft hw hc hf hboot hr
      rw [icacheValid_of_slot hv0, if_pos rfl, endPos_packet s.q hv0] at hplain
      rw [← hpos]
      by_cases hcf0 : cfType s.q false = .NoCF
      · rw [if_pos hcf0, if_pos hcf0] at hpath0
        cases hv1 : (slot s.q true).valid with
        | false =>
            have hb := bpValid_of_plain hcf0 (cfType_invalid hv1)
            rw [hplain hb, hv1]
            simpa [hpred, hcf0] using hpath0
        | true =>
            obtain ⟨haddr, hs1⟩ := slot1_stored ft hv1
            have hpath1 := path_slot (i := i) hv1 hs1 (fun _ => hcf0)
            rw [← haddr] at hpath0
            have hpath := hpath0.append hpath1
            by_cases hcf1 : cfType s.q true = .NoCF
            · rw [hplain (bpValid_of_plain hcf0 hcf1), hv1]
              simpa [hpred, hcf0, hcf1] using hpath
            · rw [pos_predicted hw hc hf hr (bpValid_of_predicted hu hcf1)]
              simpa [hpred, hcf0, hcf1] using hpath
      · rw [pos_predicted hw hc hf hr (bpValid_of_predicted hu hcf0)]
        simpa [hpred, hcf0] using hpath0

/-- What is queued from the packet, followed where the fetch goes on. -/
theorem path_pushed (ft : FetchOk H s) (hh : Holds s.q.queue es) (hw : Wired s i) (hc : Cached H s i) (hf : i.flush = false)
    (hu : emptyReturn s.q = false) (hboot : s.q.npcRstLoad = false) :
    Path (EntryOk H) (pos s) (pushed s.q.queue (queueIn s.q i))
      (if (pushed s.q.queue (queueIn s.q i)).any predicted then [predictAddress s.q] else [])
      (pos (s.next i)) := by
  have hvalid1 : valid (queueIn s.q i) true = ((slot s.q true).valid && cfType s.q false == .NoCF) := by
    simp [valid, queueIn, bne]
  have hpred (j : Bool) : predicted (dataOf (queueIn s.q i) j) = (cfType s.q j != .NoCF) := rfl
  obtain ⟨hr, hp⟩ | ⟨hr, hv, hp, ha⟩ | ⟨hr, hv, hv1, hp, ha⟩ :=
    replay_cases (i := i) hh
  · rw [hp]
    exact path_packet ft hw hc hf hu hboot hr
  · -- the packet is left out
    rw [hp, pos_replay hw hc hf hr, ha, (slot0_stored ft (slot_valid_of_valid hv)).1]
    exact .nil _
  · -- the second instruction is left out
    have hcf : cfType s.q false = .NoCF := by
      rw [hvalid1, Bool.and_eq_true, beq_iff_eq] at hv1
      exact hv1.2
    obtain ⟨hpos, hs⟩ := slot0_stored ft (slot_valid_of_valid hv)
    have hpath := path_slot (i := i) (slot_valid_of_valid hv) hs (by simp)
    rw [hp, pos_replay hw hc hf hr, ha, ← hpos, (slot1_stored ft (slot_valid_of_valid hv1)).1]
    simpa [hpred, hcf] using hpath

/-! ## Delivering -/

theorem addressOut_of_contents {q : Queue.Regs} {a : XLen} {as : List XLen}
    (h : q.addrs.contents = a :: as) : addressOut q = a := by
  have hne : q.addrs.contents ≠ [] := by simp [h]
  have hhead := Fifo.head_contents q.addrs false default hne
  simp only [h, List.head_cons] at hhead
  exact hhead.symm

theorem path_head {q : Queue.Regs} {es : List InstrData} {b : XLen} (hh : Holds q es)
    (hp : Path (EntryOk H) q.pc es q.addrs.contents b) (hv : fetchEntryValid q = true) :
    EntryOk H (fetchEntry q).address (instrDataOut q) (successor (fetchEntry q)) ∧
      Path (EntryOk H) (successor (fetchEntry q)) (es.drop 1)
        (q.addrs.contents.drop (if (fetchEntry q).branchPredict.cf != .NoCF then 1 else 0)) b := by
  have hsucc : successor (fetchEntry q) =
      if (instrDataOut q).cf = .NoCF then q.pc + len (instrDataOut q).instr else addressOut q := rfl
  have hcf : (fetchEntry q).branchPredict.cf = (instrDataOut q).cf := rfl
  show EntryOk H q.pc _ _ ∧ _
  rw [hsucc, hcf]
  generalize has : q.addrs.contents = as at hp ⊢
  generalize ha : q.pc = a at hp ⊢
  cases hp with
  | nil => exact absurd rfl (hh.fetchEntryValid_iff.mp hv)
  | plain hcf hr tail =>
      rw [hh.instrDataOut, if_pos hcf, hcf]
      exact ⟨hr, tail⟩
  | taken hcf hr tail =>
      rw [hh.instrDataOut, if_neg hcf, addressOut_of_contents has, if_pos (by simpa using hcf)]
      exact ⟨hr, tail⟩

theorem queue_next (hf : i.flush = false) :
    (s.next i).q.queue.resetAddress = (s.q.queue.resetAddress && !(slot s.q false).valid) ∧
      (s.next i).q.queue.pc = pcD s.q.queue (queueIn s.q i) ∧
      (s.next i).q.queue.addrs.contents =
        s.q.queue.addrs.contents.drop (if popAddress s.q.queue (queueIn s.q i) then 1 else 0) ++
          if (pushed s.q.queue (queueIn s.q i)).any predicted then [predictAddress s.q] else [] := by
  have hnext : (s.next i).q.queue = Queue.next s.q.queue (queueIn s.q i) := rfl
  have hf : (queueIn s.q i).flush = false := hf
  rw [hnext]
  refine ⟨?_, by simp [Queue.next, hf], ?_⟩
  · simp only [Queue.next, hf, Bool.false_eq_true, if_false]
    rfl
  have haddrs : (Queue.next s.q.queue (queueIn s.q i)).addrs = addrsNext s.q.queue (queueIn s.q i) := by
    simp [Queue.next, hf]
  rw [haddrs, addrsNext_contents]
  rfl

theorem QueueOk.next_waiting (ft : FetchOk H s) (hw : Wired s i) (hc : Cached H s i) (hf : i.flush = false)
    (hu : emptyReturn s.q = false) (hreset : s.q.queue.resetAddress = true)
    (hh : Holds s.q.queue []) (haddrs : s.q.queue.addrs.contents = [])
    (hdue : s.q.npcRstLoad = false → pos s = s.due) : QueueOk H (s.next i) := by
  have hempty : fetchEntryValid s.q.queue = false := by
    rw [← Bool.not_eq_true, hh.fetchEntryValid_iff]
    simp
  have hdue' : (s.next i).due = if s.q.npcRstLoad then i.bootAddr else s.due := by
    show dueNext s i = _
    simp [dueNext, hf, hempty]
  obtain ⟨hreset', hpc', haddrs'⟩ := queue_next (s := s) hf
  have hnext := hh.next (i := queueIn s.q i) hf slot_order hw.ready
  rw [List.drop_nil, List.nil_append] at hnext
  rw [haddrs, List.drop_nil, List.nil_append] at haddrs'
  rw [hreset, Bool.true_and] at hreset'
  refine ⟨_, hnext, ?_⟩
  rw [hreset', haddrs', hdue']
  cases hv0 : (slot s.q false).valid with
  | false =>
      have hpush : pushed s.q.queue (queueIn s.q i) = [] := pushed_of_invalid hh hv0
      rw [hpush]
      refine ⟨rfl, rfl, fun _ => ?_⟩
      cases hboot : s.q.npcRstLoad with
      | true => exact (fetch_boot ft hh hw hc hf hboot).2.2.2.2
      | false =>
          have hpath := path_pushed ft hh hw hc hf hu hboot
          rw [hpush] at hpath
          rw [← hpath.eq_of_nil]
          exact hdue hboot
  | true =>
      have hboot : s.q.npcRstLoad = false := by
        cases hboot : s.q.npcRstLoad with
        | false => rfl
        | true => simp [(fetch_boot ft hh hw hc hf hboot).2.1] at hv0
      have hpc : (s.next i).q.queue.pc = pos s := by
        rw [hpc', ← (slot0_stored ft hv0).1]
        simp [pcD, queueIn, hv0, hreset]
      rw [hpc, hboot]
      exact ⟨path_pushed ft hh hw hc hf hu hboot, hdue hboot⟩

theorem QueueOk.next_walking (ft : FetchOk H s) (hw : Wired s i) (hc : Cached H s i) (hf : i.flush = false)
    (hu : emptyReturn s.q = false) (hreset : s.q.queue.resetAddress = false) {es : List InstrData}
    (hh : Holds s.q.queue es)
    (hpath : Path (EntryOk H) s.q.queue.pc es s.q.queue.addrs.contents (pos s))
    (hdue : s.q.queue.pc = s.due) : QueueOk H (s.next i) := by
  have hboot : s.q.npcRstLoad = false := by
    cases hboot : s.q.npcRstLoad with
    | false => rfl
    | true => exact absurd (hreset.symm.trans (ft.boot hboot).2.2.2) Bool.false_ne_true
  have hpushed := path_pushed ft hh hw hc hf hu hboot
  obtain ⟨hreset', hpc', haddrs'⟩ := queue_next (s := s) hf
  rw [hreset, Bool.false_and] at hreset'
  refine ⟨_, hh.next (i := queueIn s.q i) hf slot_order hw.ready, ?_⟩
  rw [hreset', haddrs', if_neg Bool.false_ne_true]
  have hdue' : (s.next i).due = dueNext s i := rfl
  cases hready : i.fetchEntryReady with
  | true =>
      have hv := hw.ready hready
      obtain ⟨-, htail⟩ := path_head hh hpath hv
      have hpop : popped s.q.queue (queueIn s.q i) = 1 := by simp [popped, queueIn, hv, hready]
      have hpopa : popAddress s.q.queue (queueIn s.q i) =
          ((fetchEntry s.q.queue).branchPredict.cf != .NoCF) := by
        simp [popAddress, queueIn, hv, hready]
      have hpc : (s.next i).q.queue.pc = successor (fetchEntry s.q.queue) := by
        have hr : (queueIn s.q i).fetchEntryReady = true := hready
        rw [hpc', successor]
        by_cases hcf : (fetchEntry s.q.queue).branchPredict.cf = .NoCF
        · simp [pcD, hreset, hpopa, hr, hcf]
          rfl
        · simp [pcD, hreset, hpopa, hcf]
          rfl
      rw [hpop, hpopa, hpc, hdue']
      exact ⟨htail.append hpushed, by simp [dueNext, hf, hv, hready]⟩
  | false =>
      have hpop : popped s.q.queue (queueIn s.q i) = 0 := by simp [popped, queueIn, hready]
      have hpopa : popAddress s.q.queue (queueIn s.q i) = false := by
        simp [popAddress, queueIn, hready]
      have hpc : (s.next i).q.queue.pc = s.q.queue.pc := by
        have hr : (queueIn s.q i).fetchEntryReady = false := hready
        rw [hpc']
        simp [pcD, hreset, hpopa, hr]
      rw [hpop, hpopa, hpc, hdue']
      exact ⟨hpath.append hpushed, by simp [dueNext, hf, hready, hboot, hdue]⟩

theorem Ok.next (ok : Ok H s) (hw : Wired s i) (he : Even i) (hc : Cached H s i)
    (hu : i.flush = false → emptyReturn s.q = false) : Ok H (s.next i) where
  aligned := by
    obtain ⟨es, hh, -⟩ := ok.queue
    exact AlignedRegs.next ok.fetch ok.aligned hh he
  fetch := by
    obtain ⟨es, hh, -⟩ := ok.queue
    exact ok.fetch.next hh hw hc (fetchAddress_aligned ok.fetch ok.aligned he)
  queue := by
    cases hf : i.flush with
    | true =>
        have hk : killS2 s.q i = true := by simp [killS2, killS1, hf]
        have hq : (s.next i).q.queue = Queue.next s.q.queue (queueIn s.q i) := rfl
        have hf' : (queueIn s.q i).flush = true := hf
        refine ⟨[], holds_flush hf', ?_⟩
        have hdue : (s.next i).due = npcD s.q i := by
          show dueNext s i = _
          simp [dueNext, hf]
        rw [hdue, (pos_killed hc hk).2.2, fetchPos_flush hf, hq]
        simp [Queue.next, hf']
    | false =>
        obtain ⟨es, hh, h⟩ := ok.queue
        cases hreset : s.q.queue.resetAddress with
        | true =>
            rw [hreset, if_pos rfl] at h
            obtain ⟨rfl, haddrs, hdue⟩ := h
            exact QueueOk.next_waiting ok.fetch hw hc hf (hu hf) hreset hh haddrs hdue
        | false =>
            rw [hreset, if_neg Bool.false_ne_true] at h
            exact QueueOk.next_walking ok.fetch hw hc hf (hu hf) hreset hh h.1 h.2

end Fetch

end Cva6.Frontend
