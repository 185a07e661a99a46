import Cva6.Frontend.Realign
import Cva6.Sync.Fifo
/-!
# The instruction queue

`instr_queue.sv` for two instructions per fetch. The instructions go in turn to two
FIFOs, the predicted addresses to a third one, and the program counter of the next
instruction is reconstructed at the output. A number of a FIFO or of an instruction of
the packet is one bit, and the one-hot output select is kept as the number it selects.
-/

namespace Cva6.Frontend

open Cva6.Sync

inductive FrontendException where
  | FE_NONE | FE_INSTR_ACCESS_FAULT | FE_INSTR_PAGE_FAULT
  deriving DecidableEq, Repr, Inhabited

structure FetchEntry where
  address : XLen
  instruction : BitVec 32
  branchPredict : BranchpredictSbe
  ex : Exception
  deriving DecidableEq, Repr, Inhabited

namespace Queue

structure InstrData where
  instr : BitVec 32
  cf : Cf
  ex : FrontendException
  exVaddr : XLen
  deriving DecidableEq, Repr, Inhabited

structure Regs where
  instrs : Bool → Fifo InstrData 2
  addrs : Fifo XLen 2
  /-- The FIFO that takes the first instruction of the next packet. -/
  idxIs : Bool
  /-- The FIFO that holds the next instruction to deliver. -/
  idxDs : Bool
  pc : XLen
  resetAddress : Bool

def reset : Regs := ⟨fun _ => Fifo.reset ⟨0, .NoCF, .FE_NONE, 0⟩, Fifo.reset 0, false, false, 0, true⟩

structure Input where
  flush : Bool
  /-- The re-aligned instructions. -/
  slots : Bool → Realign.Slot
  exception : FrontendException
  exceptionAddr : XLen
  predictAddress : XLen
  cfType : Bool → Cf
  fetchEntryReady : Bool

variable (q : Regs) (i : Input)

/-! ## Input side -/

def ready : Bool := !((q.instrs false).full || (q.instrs true).full) && !q.addrs.full

/-- The instructions up to the first predicted one. -/
def valid (j : Bool) : Bool :=
  (i.slots j).valid && !(j && i.cfType false != .NoCF)

def fifoPos (k : Bool) : Bool := valid i (k ^^ q.idxIs)

def pushInstr (k : Bool) : Bool := fifoPos q i k && !(q.instrs k).full

def instrDataIn (k : Bool) : InstrData where
  instr := (i.slots (k ^^ q.idxIs)).instr
  cf := i.cfType (k ^^ q.idxIs)
  ex := i.exception
  exVaddr := i.exceptionAddr

def pushAddress : Bool :=
  (pushInstr q i false && (instrDataIn q i false).cf != .NoCF) ||
    (pushInstr q i true && (instrDataIn q i true).cf != .NoCF)

def addressOverflow : Bool := q.addrs.full && pushAddress q i

def instrOverflow : Bool :=
  ((q.instrs false).full && fifoPos q i false) || ((q.instrs true).full && fifoPos q i true)

def pushInstrFifo (k : Bool) : Bool := pushInstr q i k && !addressOverflow q i

def consumed (j : Bool) : Bool := pushInstrFifo q i (j ^^ q.idxIs)

/-- The lowest bit of the number of pushed instructions. -/
def shamt : Bool := pushInstrFifo q i false ^^ pushInstrFifo q i true

def replay : Bool := instrOverflow q i || addressOverflow q i

def replayAddr : XLen :=
  if addressOverflow q i then (i.slots false).addr else (i.slots (shamt q i)).addr

/-! ## Output side -/

def fetchEntryValid : Bool := !((q.instrs false).empty false false && (q.instrs true).empty false false)

def instrDataOut : InstrData := (q.instrs q.idxDs).mem (q.instrs q.idxDs).readPointer

def addressOut : XLen := q.addrs.mem q.addrs.readPointer

def fetchEntry : FetchEntry where
  address := q.pc
  instruction := (instrDataOut q).instr
  branchPredict := ⟨(instrDataOut q).cf, addressOut q⟩
  ex :=
    { cause :=
        if (instrDataOut q).ex = .FE_INSTR_ACCESS_FAULT then Riscv.instrAccessFault
        else Riscv.instrPageFault
      tval := (instrDataOut q).exVaddr
      valid := (instrDataOut q).ex != .FE_NONE }

def popInstr (k : Bool) : Bool := k == q.idxDs && fetchEntryValid q && i.fetchEntryReady

def popAddress : Bool :=
  (fetchEntry q).branchPredict.cf != .NoCF && fetchEntryValid q && i.fetchEntryReady

def len (w : BitVec 32) : XLen := if isRvc w then 2 else 4

def pcD : XLen :=
  let pc := if i.fetchEntryReady then q.pc + len (fetchEntry q).instruction else q.pc
  let pc := if popAddress q i then addressOut q else pc
  if (i.slots false).valid && q.resetAddress then (i.slots false).addr else pc

def instrsNext (k : Bool) : Fifo InstrData 2 :=
  (q.instrs k).next false (pushInstrFifo q i k) (popInstr q i k) (instrDataIn q i k)

def addrsNext : Fifo XLen 2 :=
  q.addrs.next false (pushAddress q i && !q.addrs.full) (popAddress q i) i.predictAddress

def next : Regs :=
  if i.flush then
    { instrs := fun k => (instrsNext q i k).flush
      addrs := (addrsNext q i).flush
      idxIs := false
      idxDs := false
      pc := pcD q i
      resetAddress := true }
  else
    { instrs := instrsNext q i
      addrs := addrsNext q i
      idxIs := q.idxIs ^^ shamt q i
      idxDs := if i.fetchEntryReady then !q.idxDs else q.idxDs
      pc := pcD q i
      resetAddress := q.resetAddress && !(i.slots false).valid }

/-! ## One queue -/

section Lanes

variable {α : Type*}

/-- Every other element of a list, from the first one or from the second one on. -/
def lane : Bool → List α → List α
  | _, [] => []
  | false, a :: l => a :: lane true l
  | true, _ :: l => lane false l

def odd (n : Nat) : Bool := n % 2 == 1

theorem odd_succ (n : Nat) : odd (n + 1) = !odd n := by
  rcases Nat.mod_two_eq_zero_or_one n with h | h <;> simp [odd, Nat.add_mod, h]

@[simp] theorem lane_nil (b : Bool) : lane b ([] : List α) = [] := by
  cases b <;> rfl

theorem lane_cons (b : Bool) (a : α) (l : List α) :
    lane b (a :: l) = (if b then [] else [a]) ++ lane (!b) l := by
  cases b <;> rfl

theorem lane_snoc (b : Bool) (l : List α) (a : α) :
    lane b (l ++ [a]) = lane b l ++ if b = odd l.length then [a] else [] := by
  induction l generalizing b with
  | nil => cases b <;> simp [lane, odd]
  | cons c l ih =>
      rw [List.cons_append, lane_cons, lane_cons, ih, List.length_cons, odd_succ, List.append_assoc]
      cases b <;> cases odd l.length <;> simp

theorem length_lane (b : Bool) (l : List α) :
    (lane b l).length = (l.length + if b then 0 else 1) / 2 := by
  induction l generalizing b with
  | nil => cases b <;> simp
  | cons a l ih =>
      rw [lane_cons, List.length_append, ih, List.length_cons]
      cases b <;> simp
      omega

theorem lane_drop_one (b : Bool) (l : List α) :
    lane b (l.drop 1) = (lane (!b) l).drop (if b then 1 else 0) := by
  cases l with
  | nil => simp
  | cons a l => cases b <;> simp [lane_cons]

end Lanes

/-- The two FIFOs hold the instructions `es` in turn. -/
structure Holds (q : Regs) (es : List InstrData) : Prop where
  contents : ∀ b, (q.instrs (q.idxDs ^^ b)).contents = lane b es
  idxIs : q.idxIs = (q.idxDs ^^ odd es.length)

theorem reset_holds : Holds reset [] := ⟨by simp [reset], rfl⟩

def dataOf (j : Bool) : InstrData := ⟨(i.slots j).instr, i.cfType j, i.exception, i.exceptionAddr⟩

def pushed : List InstrData :=
  (if pushInstrFifo q i q.idxIs then [dataOf i false] else []) ++
    if pushInstrFifo q i (!q.idxIs) then [dataOf i true] else []

def popped : Nat := if fetchEntryValid q && i.fetchEntryReady then 1 else 0

variable {q i} {es : List InstrData}

theorem Holds.length_contents (h : Holds q es) :
    (q.instrs q.idxIs).contents.length = es.length / 2 ∧
      (q.instrs (!q.idxIs)).contents.length = (es.length + 1) / 2 := by
  have hodd : odd es.length = decide (es.length % 2 = 1) := rfl
  have h0 := h.contents (odd es.length)
  have h1 := h.contents (!odd es.length)
  rw [← h.idxIs] at h0
  rw [Bool.xor_not, ← h.idxIs] at h1
  rw [h0, h1, length_lane, length_lane, hodd]
  rcases Nat.mod_two_eq_zero_or_one es.length with hm | hm
  · simp [hm]
    omega
  · simp [hm]

/-- The FIFO of the first instruction is full when there are eight, the other one when
there are seven. -/
theorem Holds.full (h : Holds q es) :
    es.length ≤ 8 ∧ ((q.instrs q.idxIs).full = true ↔ es.length = 8) ∧
      ((q.instrs (!q.idxIs)).full = true ↔ 7 ≤ es.length) := by
  obtain ⟨h0, h1⟩ := h.length_contents
  have hle0 := (q.instrs q.idxIs).statusCnt_le
  have hle1 := (q.instrs (!q.idxIs)).statusCnt_le
  rw [← Fifo.length_contents, h0] at hle0
  rw [← Fifo.length_contents, h1] at hle1
  rw [Fifo.full_iff, Fifo.full_iff, h0, h1]
  refine ⟨by omega, by omega, by omega⟩

theorem Holds.fetchEntryValid_iff (h : Holds q es) : fetchEntryValid q = true ↔ es ≠ [] := by
  obtain ⟨h0, h1⟩ := h.length_contents
  rw [Fifo.length_contents] at h0 h1
  have hboth : fetchEntryValid q =
      !((q.instrs q.idxIs).statusCnt == 0 && (q.instrs (!q.idxIs)).statusCnt == 0) := by
    cases q.idxIs <;> simp [fetchEntryValid, Fifo.empty, Bool.and_comm]
  rw [hboth, h0, h1, ← List.length_pos_iff]
  simp only [Bool.not_eq_true', Bool.and_eq_false_iff, beq_eq_false_iff_ne, ne_eq]
  omega

theorem Holds.instrDataOut {e : InstrData} (h : Holds q (e :: es)) : instrDataOut q = e := by
  have hc := h.contents false
  rw [Bool.xor_false] at hc
  have hne : (q.instrs q.idxDs).contents ≠ [] := by simp [hc, lane]
  have hhead := Fifo.head_contents (q.instrs q.idxDs) false default hne
  simp only [hc, lane, List.head_cons] at hhead
  exact hhead.symm

theorem fifoPos_idxIs : fifoPos q i q.idxIs = valid i false ∧ fifoPos q i (!q.idxIs) = valid i true := by
  simp [fifoPos]

theorem instrDataIn_idxIs :
    instrDataIn q i q.idxIs = dataOf i false ∧ instrDataIn q i (!q.idxIs) = dataOf i true := by
  simp [instrDataIn, dataOf]

/-- The second instruction of a packet is queued together with the first one only. -/
theorem Holds.push_second (h : Holds q es) (hv : (i.slots true).valid = true → (i.slots false).valid = true)
    (h2 : pushInstrFifo q i (!q.idxIs) = true) : pushInstrFifo q i q.idxIs = true := by
  obtain ⟨-, h0, h1⟩ := h.full
  simp only [pushInstrFifo, pushInstr, (fifoPos_idxIs).1, (fifoPos_idxIs).2, valid, Bool.and_eq_true,
    Bool.not_eq_true', Bool.true_and] at h2 ⊢
  obtain ⟨⟨⟨hv1, -⟩, hf1⟩, hov⟩ := h2
  refine ⟨⟨⟨hv hv1, by simp⟩, ?_⟩, hov⟩
  cases hf : (q.instrs q.idxIs).full with
  | false => rfl
  | true =>
      have := h0.mp hf
      rw [← Bool.not_eq_true, h1] at hf1
      omega

theorem instrsNext_contents (k : Bool) :
    (instrsNext q i k).contents = (q.instrs k).contents.drop (if popInstr q i k then 1 else 0) ++
      if pushInstrFifo q i k then [instrDataIn q i k] else [] := by
  have hpush : (pushInstrFifo q i k && !(q.instrs k).full) = pushInstrFifo q i k := by
    simp only [pushInstrFifo, pushInstr]
    cases (q.instrs k).full <;> simp
  rw [instrsNext, Fifo.contents_step, hpush]

theorem lane_pushed (b ds : Bool) (base : List InstrData) (hidx : q.idxIs = (ds ^^ odd base.length))
    (h2 : pushInstrFifo q i (!q.idxIs) = true → pushInstrFifo q i q.idxIs = true) :
    lane b (base ++ pushed q i) =
      lane b base ++ if pushInstrFifo q i (ds ^^ b) then [instrDataIn q i (ds ^^ b)] else [] := by
  obtain ⟨hd0, hd1⟩ := instrDataIn_idxIs (q := q) (i := i)
  have hk : (ds ^^ b) = if b = odd base.length then q.idxIs else !q.idxIs := by
    rw [hidx]
    cases ds <;> cases b <;> cases odd base.length <;> rfl
  rw [hk]
  unfold pushed
  cases h1 : pushInstrFifo q i q.idxIs with
  | false =>
      have h2' : pushInstrFifo q i (!q.idxIs) = false := by
        cases h : pushInstrFifo q i (!q.idxIs) with
        | false => rfl
        | true => simp [h2 h] at h1
      split_ifs <;> simp_all
  | true =>
      have hfirst : lane b (base ++ [dataOf i false]) =
          lane b base ++ if b = odd base.length then [dataOf i false] else [] := lane_snoc b base _
      cases h2' : pushInstrFifo q i (!q.idxIs) with
      | false =>
          simp only [if_true, Bool.false_eq_true, if_false, List.append_nil, hfirst]
          split_ifs <;> simp_all
      | true =>
          have hlen : (base ++ [dataOf i false]).length = base.length + 1 := by simp
          simp only [if_true]
          rw [← List.append_assoc, lane_snoc, hfirst, hlen, odd_succ]
          cases b <;> cases hodd : odd base.length <;> simp_all

theorem odd_add (m n : Nat) : odd (m + n) = (odd m ^^ odd n) := by
  induction n with
  | zero => simp [odd]
  | succ n ih => rw [← Nat.add_assoc, odd_succ, odd_succ, ih, Bool.xor_not]

theorem odd_length_pushed : odd (pushed q i).length = shamt q i := by
  unfold pushed shamt
  cases q.idxIs <;> cases h0 : pushInstrFifo q i false <;> cases h1 : pushInstrFifo q i true <;>
    simp [odd, h0, h1]

/-- A cycle without a flush delivers from the front and queues at the end. -/
theorem Holds.next (h : Holds q es) (hf : i.flush = false)
    (hv : (i.slots true).valid = true → (i.slots false).valid = true)
    (hr : i.fetchEntryReady = true → fetchEntryValid q = true) :
    Holds (next q i) (es.drop (popped q i) ++ pushed q i) := by
  have h2 := h.push_second hv
  have hnext : Queue.next q i =
      ⟨instrsNext q i, addrsNext q i, q.idxIs ^^ shamt q i,
        if i.fetchEntryReady then !q.idxDs else q.idxDs, pcD q i,
        q.resetAddress && !(i.slots false).valid⟩ := by
    simp [Queue.next, hf]
  rw [hnext]
  cases hready : i.fetchEntryReady with
  | false =>
      have hpop : popped q i = 0 := by simp [popped, hready]
      rw [hpop, List.drop_zero]
      refine ⟨?_, ?_⟩
      · intro b
        show (instrsNext q i (q.idxDs ^^ b)).contents = _
        rw [instrsNext_contents, h.contents, lane_pushed b q.idxDs es h.idxIs h2]
        simp [popInstr, hready]
      · show (q.idxIs ^^ shamt q i) = (q.idxDs ^^ odd (es ++ pushed q i).length)
        rw [List.length_append, odd_add, odd_length_pushed, h.idxIs, Bool.xor_assoc]
  | true =>
      have hvalid := hr hready
      have hpop : popped q i = 1 := by simp [popped, hready, hvalid]
      have hne := h.fetchEntryValid_iff.mp hvalid
      have hodd : odd (es.drop 1).length = !odd es.length := by
        cases es with
        | nil => exact absurd rfl hne
        | cons e es => rw [List.length_cons, odd_succ, Bool.not_not]; rfl
      have hidx : q.idxIs = ((!q.idxDs) ^^ odd (es.drop 1).length) := by
        rw [hodd, h.idxIs]
        cases q.idxDs <;> cases odd es.length <;> rfl
      rw [hpop]
      refine ⟨?_, ?_⟩
      · intro b
        show (instrsNext q i ((!q.idxDs) ^^ b)).contents = _
        have hk : ((!q.idxDs) ^^ b) = (q.idxDs ^^ !b) := by cases q.idxDs <;> cases b <;> rfl
        have hpopk : popInstr q i (q.idxDs ^^ !b) = b := by
          simp only [popInstr, hvalid, hready, Bool.and_true]
          cases q.idxDs <;> cases b <;> rfl
        rw [lane_pushed b (!q.idxDs) (es.drop 1) hidx h2, instrsNext_contents, hk, h.contents, hpopk,
          lane_drop_one]
      · show (q.idxIs ^^ shamt q i) = ((!q.idxDs) ^^ odd (es.drop 1 ++ pushed q i).length)
        rw [List.length_append, odd_add, odd_length_pushed, hidx, Bool.xor_assoc]

theorem holds_flush (hf : i.flush = true) : Holds (next q i) [] := by
  refine ⟨?_, ?_⟩
  · intro b
    simp [Queue.next, hf]
  · simp [Queue.next, hf, odd]

/-- The instructions of the packet up to the first predicted one. -/
def packet (i : Input) : List InstrData :=
  (if valid i false then [dataOf i false] else []) ++ if valid i true then [dataOf i true] else []

theorem Holds.replay_cases (h : Holds q es)
    (hv : (i.slots true).valid = true → (i.slots false).valid = true) :
    (replay q i = false ∧ pushed q i = packet i) ∨
      (replay q i = true ∧ valid i false = true ∧ pushed q i = [] ∧
        replayAddr q i = (i.slots false).addr) ∨
      (replay q i = true ∧ valid i false = true ∧ valid i true = true ∧
        pushed q i = [dataOf i false] ∧ replayAddr q i = (i.slots true).addr) := by
  obtain ⟨hlen, hf0, hf1⟩ := h.full
  have hv : valid i true = true → valid i false = true := by
    simp only [valid, Bool.and_eq_true, Bool.false_and, Bool.not_false, and_true]
    exact fun hv' => hv hv'.1
  obtain ⟨hp0, hp1⟩ := fifoPos_idxIs (q := q) (i := i)
  have hshamt : shamt q i = (pushInstrFifo q i q.idxIs ^^ pushInstrFifo q i (!q.idxIs)) := by
    cases q.idxIs <;> simp [shamt, Bool.xor_comm]
  have hover : instrOverflow q i =
      (((q.instrs q.idxIs).full && valid i false) || ((q.instrs (!q.idxIs)).full && valid i true)) := by
    rw [← hp0, ← hp1]
    cases q.idxIs <;> simp [instrOverflow, Bool.or_comm]
  have hpush0 : pushInstrFifo q i q.idxIs =
      (valid i false && !(q.instrs q.idxIs).full && !addressOverflow q i) := by
    rw [← hp0]
    rfl
  have hpush1 : pushInstrFifo q i (!q.idxIs) =
      (valid i true && !(q.instrs (!q.idxIs)).full && !addressOverflow q i) := by
    rw [← hp1]
    rfl
  have hfull : (q.instrs q.idxIs).full = true → (q.instrs (!q.idxIs)).full = true := by
    rw [hf0, hf1]
    omega
  have haddr : addressOverflow q i = true → valid i false = true := by
    intro ho
    simp only [addressOverflow, Bool.and_eq_true] at ho
    cases hv0 : valid i false with
    | true => rfl
    | false =>
        have hv1 : valid i true = false := by
          cases hv1 : valid i true with
          | false => rfl
          | true => simp [hv hv1] at hv0
        have hpos (k : Bool) : fifoPos q i k = false := by
          unfold fifoPos
          cases k ^^ q.idxIs <;> assumption
        simp [pushAddress, pushInstr, hpos] at ho
  simp only [replay, replayAddr, pushed, packet, hover, hshamt, hpush0, hpush1]
  cases ho : addressOverflow q i with
  | true => simp [haddr ho]
  | false =>
      cases h0 : valid i false <;> cases h1 : valid i true <;>
        cases hff0 : (q.instrs q.idxIs).full <;> cases hff1 : (q.instrs (!q.idxIs)).full <;> simp_all

/-! ## Predicted addresses -/

def predicted (e : InstrData) : Bool := e.cf != .NoCF

theorem any_predicted_pushed :
    (pushed q i).any predicted = (pushAddress q i && !q.addrs.full) := by
  obtain ⟨hd0, hd1⟩ := instrDataIn_idxIs (q := q) (i := i)
  have hpush : pushAddress q i =
      ((pushInstr q i q.idxIs && predicted (dataOf i false)) ||
        (pushInstr q i (!q.idxIs) && predicted (dataOf i true))) := by
    rw [← hd0, ← hd1]
    cases q.idxIs <;> simp [pushAddress, predicted, Bool.or_comm]
  have hany : (pushed q i).any predicted =
      ((pushInstrFifo q i q.idxIs && predicted (dataOf i false)) ||
        (pushInstrFifo q i (!q.idxIs) && predicted (dataOf i true))) := by
    unfold pushed
    cases pushInstrFifo q i q.idxIs <;> cases pushInstrFifo q i (!q.idxIs) <;> simp
  rw [hany]
  simp only [pushInstrFifo, addressOverflow]
  rw [hpush]
  cases q.addrs.full <;> cases pushInstr q i q.idxIs <;> cases pushInstr q i (!q.idxIs) <;>
    cases predicted (dataOf i false) <;> cases predicted (dataOf i true) <;> rfl

theorem addrsNext_contents :
    (addrsNext q i).contents = q.addrs.contents.drop (if popAddress q i then 1 else 0) ++
      if (pushed q i).any predicted then [i.predictAddress] else [] := by
  rw [addrsNext, Fifo.contents_step, any_predicted_pushed]
  cases q.addrs.full <;> simp

end Queue

end Cva6.Frontend
