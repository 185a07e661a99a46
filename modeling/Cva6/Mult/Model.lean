import Cva6.Mult.Serdiv
/-!
# The multiplication and division unit

`multiplier.sv` and `mult.sv` for `XLEN = 32`. A product is ready one cycle after its
operands; the divider waits with its answer while there is a product. What the M extension
defines for a division is stated beside the unit.
-/

namespace Cva6.Mult

open Cva6.Sync

structure Input where
  operator : FuOp
  operandA : XLen
  operandB : XLen
  transId : TransId
  multValid : Bool
  flush : Bool
  deriving DecidableEq, Repr, Inhabited

/-! ## The multiplier -/

def isMul : FuOp → Bool
  | .MUL | .MULH | .MULHU | .MULHSU | .MULW => true
  | _ => false

namespace Multiplier

structure Regs where
  transId : TransId
  multValid : Bool
  operator : FuOp
  multResult : BitVec 64
  deriving DecidableEq, Repr, Inhabited

def reset : Regs := ⟨0, false, .MUL, 0⟩

def signA (op : FuOp) : Bool := op == .MULH || op == .MULHSU
def signB (op : FuOp) : Bool := op == .MULH

/-- An operand with one bit in front, for a signed product of all forms. -/
def extended (sign : Bool) (x : XLen) : BitVec 33 := BitVec.ofBool (x.getLsbD 31 && sign) ++ x

def product (op : FuOp) (a b : XLen) : BitVec 64 :=
  (extended (signA op) a).signExtend 64 * (extended (signB op) b).signExtend 64

/-- `result_o`; the sign extension of `MULW` does nothing here. -/
def result (q : Regs) : XLen :=
  match q.operator with
  | .MULH | .MULHU | .MULHSU => q.multResult.extractLsb' 32 32
  | _ => q.multResult.setWidth 32

/-- `valid` is the `mult_valid_i` of the multiplier. -/
def next (i : Input) (valid : Bool) : Regs where
  transId := i.transId
  multValid := valid && isMul i.operator
  operator := i.operator
  multResult := product i.operator i.operandA i.operandB

end Multiplier

/-! ## The unit

`word_op_q` only selects a sign extension that does nothing for 32-bit registers. -/

def isDiv : FuOp → Bool
  | .DIV | .DIVU | .DIVW | .DIVUW | .REM | .REMU | .REMW | .REMUW => true
  | _ => false

def divSigned (op : FuOp) : Bool := op == .DIV || op == .DIVW || op == .REM || op == .REMW

def isRem (op : FuOp) : Bool := op == .REM || op == .REMU || op == .REMW || op == .REMUW

structure State where
  mul : Multiplier.Regs
  div : Serdiv.Regs

variable (s : State) (i : Input)

/-- The inputs of the divider. The operands are silenced when there is no division, and the
word operations are those of the full register. -/
def divIn : Serdiv.Input where
  id := i.transId
  opA := if i.multValid && isDiv i.operator then i.operandA else 0
  opB := if i.multValid && isDiv i.operator then i.operandB else 0
  opcode := BitVec.ofBool (isRem i.operator) ++ BitVec.ofBool (divSigned i.operator)
  inVld := !i.flush && i.multValid && isDiv i.operator
  flush := i.flush
  -- the multiplier cannot wait
  outRdy := !s.mul.multValid

def divValid : Bool := (Serdiv.fsm s.div (divIn s i)).outVld

def multReady : Bool := (Serdiv.fsm s.div (divIn s i)).inRdy

def multValidO : Bool := divValid s i || s.mul.multValid

def multTransId : TransId := if s.mul.multValid then s.mul.transId else s.div.id

def result : XLen :=
  if s.mul.multValid then Multiplier.result s.mul else Serdiv.resO s.div

def mult : Machine State Input where
  init := ⟨Multiplier.reset, Serdiv.reset⟩
  next s i :=
    { mul := Multiplier.next i (!i.flush && i.multValid && isMul i.operator)
      div := Serdiv.next s.div (divIn s i) }

/-! ## Division -/

/-- What the M extension defines for a division. -/
def rv32m (a b : XLen) : FuOp → XLen
  | .DIV =>
      if b = 0 then -1
      else if a = BitVec.intMin 32 ∧ b = -1 then BitVec.intMin 32
      else BitVec.ofInt 32 (a.toInt.tdiv b.toInt)
  | .DIVU => if b = 0 then BitVec.allOnes 32 else BitVec.ofNat 32 (a.toNat / b.toNat)
  | .REM =>
      if b = 0 then a
      else if a = BitVec.intMin 32 ∧ b = -1 then 0
      else BitVec.ofInt 32 (a.toInt.tmod b.toInt)
  | .REMU => if b = 0 then a else BitVec.ofNat 32 (a.toNat % b.toNat)
  | _ => 0

/-- The answer of the divider that leaves the unit in a cycle. -/
def delivered : List (TransId × XLen) :=
  if divValid s i && !s.mul.multValid then [(multTransId s, result s)] else []

/-- The division that is started in a cycle has the result `v`: for `n` cycles nothing is
valid, then the result is, with the identifier of the request, until it is delivered, and then
the divider is idle. -/
def Computes (v : XLen) : Prop :=
  ∃ n ≤ 33, ∀ ins j, (∀ k ∈ ins, k.flush = false) → j.flush = false →
    mult.logFrom delivered (mult.next s i) ins = [] →
    let t := mult.runFrom (mult.next s i) ins
    divValid t j = decide (n ≤ ins.length) ∧
      (n ≤ ins.length → t.div.id = i.transId ∧ Serdiv.resO t.div = v) ∧
      (n ≤ ins.length → t.mul.multValid = false →
        delivered t j = [(i.transId, v)] ∧ (mult.next t j).div.state = .IDLE)

/-! ## Values -/

section Values

open Serdiv (magnitude withSign select)

theorem toInt_eq (x : XLen) :
    x.toInt = if x.getLsbD 31 then -(magnitude true x : Int) else magnitude true x := by
  have hlt := x.isLt
  have hmsb := Serdiv.getLsbD_31 x
  have hx := BitVec.toInt_eq_toNat_cond x
  unfold magnitude
  by_cases h : 2 ^ 31 ≤ x.toNat
  · rw [if_neg (by omega)] at hx
    rw [hx, hmsb, decide_eq_true h]
    simp
    omega
  · rw [if_pos (by omega)] at hx
    rw [hx, hmsb, decide_eq_false h]
    simp

theorem ofInt_withSign (neg : Bool) (n : Nat) :
    BitVec.ofInt 32 (if neg then -(n : Int) else n) = withSign neg n := by
  cases neg <;> simp [withSign, BitVec.ofInt_neg]

variable (a b : XLen)

theorem ofInt_tdiv : BitVec.ofInt 32 (a.toInt.tdiv b.toInt) =
    withSign (a.getLsbD 31 != b.getLsbD 31) (magnitude true a / magnitude true b) := by
  rw [← ofInt_withSign, toInt_eq a, toInt_eq b]
  congr 1
  cases a.getLsbD 31 <;> cases b.getLsbD 31 <;> simp

theorem ofInt_tmod : BitVec.ofInt 32 (a.toInt.tmod b.toInt) =
    withSign (a.getLsbD 31) (magnitude true a % magnitude true b) := by
  rw [← ofInt_withSign, toInt_eq a, toInt_eq b]
  congr 1
  cases a.getLsbD 31 <;> cases b.getLsbD 31 <;> simp [Int.tmod_eq_emod_of_nonneg]

def isDivision (op : FuOp) : Bool := op == .DIV || op == .DIVU || op == .REM || op == .REMU

theorem division_cases {op : FuOp} (h : isDivision op = true) :
    op = .DIV ∨ op = .DIVU ∨ op = .REM ∨ op = .REMU := by
  simpa [isDivision, or_assoc] using h

variable {a b} {op : FuOp}

/-- The overflowing quotient wraps around to what is defined for it. -/
theorem rv32m_div (hb : b ≠ 0) : rv32m a b .DIV =
    withSign (a.getLsbD 31 != b.getLsbD 31) (magnitude true a / magnitude true b) := by
  rw [← ofInt_tdiv]
  simp only [rv32m, if_neg hb]
  split_ifs with hover
  · rw [hover.1, hover.2]
    rfl
  · rfl

theorem rv32m_rem (hb : b ≠ 0) : rv32m a b .REM =
    withSign (a.getLsbD 31) (magnitude true a % magnitude true b) := by
  rw [← ofInt_tmod]
  simp only [rv32m, if_neg hb]
  split_ifs with hover
  · rw [hover.1, hover.2]
    rfl
  · rfl

theorem rv32m_of_ne_zero (hop : isDivision op = true) (hb : b ≠ 0) (id : TransId) (neg : Bool) :
    select (id, isRem op, neg, divSigned op && (a.getLsbD 31 != b.getLsbD 31))
        (withSign (divSigned op && b.getLsbD 31)
          (magnitude (divSigned op) a % magnitude (divSigned op) b))
        (BitVec.ofNat 32 (magnitude (divSigned op) a / magnitude (divSigned op) b)) =
      (id, rv32m a b op) := by
  rcases division_cases hop with rfl | rfl | rfl | rfl
  · rw [rv32m_div hb]
    rfl
  · simp only [rv32m, if_neg hb]
    rfl
  · rw [rv32m_rem hb]
    simp only [select, divSigned, isRem]
    cases a.getLsbD 31 <;> cases b.getLsbD 31 <;> simp [withSign]
  · simp only [rv32m, if_neg hb]
    rfl

theorem rv32m_of_zero (hop : isDivision op = true) (id : TransId) (neg : Bool) :
    select (id, isRem op, neg, isRem op && divSigned op && a.getLsbD 31)
        (withSign false (magnitude (divSigned op) a)) (BitVec.allOnes 32) = (id, rv32m a 0 op) := by
  rcases division_cases hop with rfl | rfl | rfl | rfl
  · rfl
  · rfl
  · have hA := Serdiv.withSign_magnitude true a
    show (id, if a.getLsbD 31 then -withSign false (magnitude true a)
      else withSign false (magnitude true a)) = (id, a)
    rw [Bool.true_and] at hA
    cases ha : a.getLsbD 31 with
    | false =>
        rw [ha] at hA
        rw [if_neg Bool.false_ne_true, hA]
    | true =>
        rw [ha] at hA
        rw [if_pos rfl]
        exact congrArg _ hA
  · have hA := Serdiv.withSign_magnitude false a
    rw [Bool.false_and] at hA
    exact congrArg _ hA

end Values

/-! ## Runs -/

def divOffer (s : State) : Option (TransId × XLen) := Serdiv.offer s.div

/-- The divider's answer is taken unless there is a product. -/
def divTaken (s : State) (_ : Input) : Bool := !s.mul.multValid

section Runs

variable {s i} {n : Nat} {a : TransId × XLen}

theorem divOffer_eq (h : divOffer s = some a) : a = (s.div.id, Serdiv.resO s.div) := by
  unfold divOffer Serdiv.offer at h
  split_ifs at h
  exact (Option.some.inj h).symm

theorem divValid_eq (hf : i.flush = false) : divValid s i = (divOffer s).isSome :=
  Serdiv.outVld_eq s.div (divIn s i) hf

theorem delivered_eq (hf : i.flush = false) :
    delivered s i = Machine.taken divOffer divTaken s i := by
  unfold delivered Machine.taken divTaken
  rw [divValid_eq hf]
  cases hm : s.mul.multValid with
  | true => simp
  | false =>
      cases ho : divOffer s with
      | none => simp
      | some a => simp [multTransId, result, hm, divOffer_eq ho]

theorem logFrom_delivered (s : State) {ins : List Input} (hf : ∀ k ∈ ins, k.flush = false) :
    mult.logFrom delivered s ins =
      mult.logFrom (Machine.taken divOffer divTaken) s ins := by
  induction ins generalizing s with
  | nil => rfl
  | cons j ins ih =>
      rw [Machine.logFrom, Machine.logFrom, delivered_eq (hf j List.mem_cons_self),
        ih _ fun k hk => hf k (List.mem_cons_of_mem _ hk)]

theorem computes_of_answers (hn : n ≤ 33) {v : XLen}
    (h : mult.Answers (fun i => i.flush = false) divOffer divTaken (mult.next s i) n
      (i.transId, v)) : Computes s i v := by
  refine ⟨n, hn, ?_⟩
  intro ins j hins hj hlog
  rw [logFrom_delivered _ hins] at hlog
  have hoffer := h ins hins hlog
  generalize mult.runFrom (mult.next s i) ins = t at hoffer ⊢
  refine ⟨?_, ?_, ?_⟩
  · rw [divValid_eq hj, hoffer]
    by_cases hle : n ≤ ins.length <;> simp [hle]
  · intro hle
    rw [if_pos hle] at hoffer
    have ha := divOffer_eq hoffer
    exact ⟨(congrArg Prod.fst ha).symm, (congrArg Prod.snd ha).symm⟩
  · intro hle hmul
    rw [if_pos hle] at hoffer
    constructor
    · simp [delivered_eq hj, Machine.taken, divTaken, hmul, hoffer]
    · exact Serdiv.idle_of_taken hoffer hj (by simp [divIn, hmul])

theorem answers_of_computes {v : XLen} (h : Computes s i v) :
    ∃ n ≤ 33, mult.Answers (fun i => i.flush = false) divOffer divTaken (mult.next s i) n
      (i.transId, v) := by
  obtain ⟨n, hn, h⟩ := h
  refine ⟨n, hn, ?_⟩
  intro ins hins hlog
  rw [← logFrom_delivered _ hins] at hlog
  obtain ⟨hvalid, hres, -⟩ := h ins default hins rfl hlog
  rw [divValid_eq rfl] at hvalid
  cases ho : divOffer (mult.runFrom (mult.next s i) ins) with
  | none =>
      rw [ho, eq_comm] at hvalid
      rw [if_neg (by simpa using hvalid)]
  | some a =>
      rw [ho, eq_comm] at hvalid
      have hle : n ≤ ins.length := by simpa using hvalid
      obtain ⟨hid, hv⟩ := hres hle
      rw [if_pos hle, divOffer_eq ho, hid, hv]

theorem Computes.unique {v v' : XLen} (h : Computes s i v) (h' : Computes s i v') : v = v' := by
  obtain ⟨n, -, h⟩ := answers_of_computes h
  obtain ⟨n', -, h'⟩ := answers_of_computes h'
  exact congrArg Prod.snd (h.unique h' (i := default) rfl)

theorem waiting {P : Nat → Serdiv.Regs → Prop} (h : Serdiv.Counts P a) :
    Machine.Waiting mult (fun i => i.flush = false) divOffer divTaken a
      (fun k s => match k with
        | 0 => divOffer s = some a
        | k + 1 => P k s.div) where
  busy k s hs := h.busy k s.div hs
  closer k s i hs hi := by
    cases k with
    | zero => exact h.last s.div (divIn s i) hs hi
    | succ k => exact h.closer k s.div (divIn s i) hs hi
  offered s hs := hs
  held s i hs hi hr := by
    have hrdy : (divIn s i).outRdy = false := hr
    exact Serdiv.offer_held hs hi hrdy

end Runs

/-! ## The result of a division -/

structure Starts : Prop where
  idle : s.div.state = .IDLE
  valid : i.multValid = true
  flush : i.flush = false
  division : isDivision i.operator = true

/-- The operands for which the leading zeros of the dividend mislead the divider: -1 leaves
nothing to count, so that 1 is taken for the larger one. -/
def Misaligned (op : FuOp) (a b : XLen) : Prop := (op = .DIV ∨ op = .REM) ∧ a = -1 ∧ b = 1

instance (op : FuOp) (a b : XLen) : Decidable (Misaligned op a b) :=
  inferInstanceAs (Decidable ((_ ∨ _) ∧ _ ∧ _))

section Division

variable {s i}

theorem Starts.loads (h : Starts s i) : Serdiv.Loads s.div (divIn s i) := by
  have hdiv : isDiv i.operator = true := by
    rcases division_cases h.division with ho | ho | ho | ho <;> rw [ho] <;> rfl
  exact ⟨h.idle, by simp [divIn, h.valid, h.flush, hdiv], h.flush⟩

theorem Starts.divIn_eq (h : Starts s i) :
    (divIn s i).opA = i.operandA ∧ (divIn s i).opB = i.operandB ∧
      Serdiv.signed (divIn s i) = divSigned i.operator ∧
      (divIn s i).opcode.getLsbD 1 = isRem i.operator := by
  have hdiv : isDiv i.operator = true := by
    rcases division_cases h.division with ho | ho | ho | ho <;> rw [ho] <;> rfl
  refine ⟨by simp [divIn, h.valid, hdiv], by simp [divIn, h.valid, hdiv], ?_, ?_⟩
  · show (BitVec.ofBool (isRem i.operator) ++ BitVec.ofBool (divSigned i.operator)).getLsbD 0 = _
    cases isRem i.operator <;> cases divSigned i.operator <;> rfl
  · show (BitVec.ofBool (isRem i.operator) ++ BitVec.ofBool (divSigned i.operator)).getLsbD 1 = _
    cases isRem i.operator <;> cases divSigned i.operator <;> rfl

theorem Starts.control_eq (h : Starts s i) :
    Serdiv.control (mult.next s i).div =
      (i.transId, isRem i.operator, divSigned i.operator && i.operandB.getLsbD 31,
        (!(i.operandB == 0) || isRem i.operator) && divSigned i.operator &&
          (i.operandA.getLsbD 31 != i.operandB.getLsbD 31)) := by
  obtain ⟨hA, hB, hs, hr⟩ := h.divIn_eq
  show Serdiv.control (Serdiv.next s.div (divIn s i)) = _
  rw [h.loads.next_eq]
  simp only [Serdiv.control, Serdiv.opASign, Serdiv.opBSign, hA, hB, hs, hr]
  rfl

theorem Starts.computes_zero (h : Starts s i) (hb : i.operandB = 0) :
    Computes s i (rv32m i.operandA 0 i.operator) := by
  obtain ⟨hA, hB, hs, hr⟩ := h.divIn_eq
  have hzero := h.loads.zeroing (hB.trans hb)
  have hopA : (mult.next s i).div.opA =
      Serdiv.withSign false (Serdiv.magnitude (divSigned i.operator) i.operandA) := by
    show (Serdiv.next s.div (divIn s i)).opA = _
    rw [h.loads.next_eq]
    simp [Serdiv.opBSign, hA, hB, hs, hb]
  refine computes_of_answers le_rfl ?_
  rw [← rv32m_of_zero h.division i.transId false]
  have hctrl := h.control_eq
  have hsign : (0 : XLen).getLsbD 31 = false := rfl
  simp only [hb, beq_self_eq_true, Bool.not_true, Bool.false_or, hsign, Bool.and_false,
    Bool.bne_false] at hctrl
  exact (waiting (Serdiv.dividesZero_counts _ _)).answers (n := 33) ⟨hctrl, hopA, hzero⟩

theorem Starts.computes_aligned (h : Starts s i) (hb : i.operandB ≠ 0)
    (ha : (Serdiv.divShift (divIn s i)).getLsbD 6 = false) :
    Computes s i (rv32m i.operandA i.operandB i.operator) := by
  obtain ⟨hA, hB, hs, hr⟩ := h.divIn_eq
  have hb' : (divIn s i).opB ≠ 0 := by rwa [hB]
  have hwork := h.loads.working hb' ha
  have hle := (Serdiv.aligned_bounds hb' ha).1
  have hctrl := h.control_eq
  rw [beq_eq_false_iff_ne.mpr hb] at hctrl
  rw [hA, hB, hs] at hwork
  refine computes_of_answers (n := (Serdiv.divShift (divIn s i)).toNat + 1) (by omega) ?_
  rw [← rv32m_of_ne_zero h.division hb i.transId
    (divSigned i.operator && i.operandB.getLsbD 31)]
  exact (waiting (Serdiv.divides_counts _ _ _)).answers
    (n := (Serdiv.divShift (divIn s i)).toNat + 1) ⟨hctrl, _, hwork⟩

/-- With a negative shift the divider offers the dividend and a quotient of zero at once. -/
theorem Starts.computes_early (h : Starts s i)
    (ha : (Serdiv.divShift (divIn s i)).getLsbD 6 = true) {v : XLen}
    (hv : Serdiv.select (Serdiv.control (mult.next s i).div)
      (Serdiv.withSign (divSigned i.operator && i.operandB.getLsbD 31)
        (Serdiv.magnitude (divSigned i.operator) i.operandA)) 0 = (i.transId, v)) :
    Computes s i v := by
  obtain ⟨hA, hB, hs, hr⟩ := h.divIn_eq
  have hoffer : divOffer (mult.next s i) = some (i.transId, v) := by
    have hnext := h.loads.next_eq
    have hstate : (mult.next s i).div.state = .DIVIDE := congrArg Serdiv.Regs.state hnext
    have hzero : (mult.next s i).div.divResZero = true :=
      (congrArg Serdiv.Regs.divResZero hnext).trans ha
    have hopA : (mult.next s i).div.opA = Serdiv.withSign
        (divSigned i.operator && i.operandB.getLsbD 31)
        (Serdiv.magnitude (divSigned i.operator) i.operandA) := by
      rw [← hA, ← hB, ← hs]
      exact congrArg Serdiv.Regs.opA hnext
    have hres : (mult.next s i).div.res = 0 := congrArg Serdiv.Regs.res hnext
    rw [← hv, ← hopA, ← hres, divOffer, Serdiv.offer, if_pos (.inr ⟨hstate, hzero⟩)]
    rfl
  have hcount : Serdiv.Counts (fun _ _ => False) (i.transId, v) :=
    ⟨fun _ _ h => h.elim, fun _ _ _ h => h.elim, fun _ _ h => h.elim⟩
  exact computes_of_answers (n := 0) (by omega) ((waiting hcount).answers (n := 0) hoffer)

theorem eq_of_magnitude {x : XLen} {sign neg : Bool} (hneg : (sign && x.getLsbD 31) = neg)
    (h : Serdiv.magnitude sign x = 1) : x = if neg then -1 else 1 := by
  rw [← Serdiv.withSign_magnitude sign x, hneg, h]
  rfl

theorem Starts.computes (h : Starts s i)
    (hm : ¬Misaligned i.operator i.operandA i.operandB) :
    Computes s i (rv32m i.operandA i.operandB i.operator) := by
  by_cases hb : i.operandB = 0
  · rw [hb]
    exact h.computes_zero hb
  cases ha : (Serdiv.divShift (divIn s i)).getLsbD 6 with
  | false => exact h.computes_aligned hb ha
  | true =>
      obtain ⟨hA, hB, hs, hr⟩ := h.divIn_eq
      have hearly := Serdiv.early_bounds (i := divIn s i) (by rwa [hB]) ha
      simp only [Serdiv.opASign, Serdiv.opBSign, hA, hB, hs] at hearly
      rcases hearly with hlt | ⟨hneg, hone, hpos, hone'⟩
      · refine h.computes_early ha ?_
        rw [← rv32m_of_ne_zero h.division hb i.transId
          (divSigned i.operator && i.operandB.getLsbD 31), Nat.mod_eq_of_lt hlt,
          Nat.div_eq_of_lt hlt, h.control_eq, beq_eq_false_iff_ne.mpr hb]
        rfl
      · refine absurd ⟨?_, eq_of_magnitude hneg hone, eq_of_magnitude hpos hone'⟩ hm
        rcases division_cases h.division with ho | ho | ho | ho
        · exact .inl ho
        · simp [ho, divSigned] at hneg
        · exact .inr ho
        · simp [ho, divSigned] at hneg

/-- For -1 divided by 1 the quotient is 0 and the remainder is -1. -/
theorem Starts.computes_misaligned (h : Starts s i)
    (hm : Misaligned i.operator i.operandA i.operandB) :
    Computes s i (if isRem i.operator then -1 else 0) := by
  obtain ⟨hop, ha, hb⟩ := hm
  obtain ⟨hA, hB, hs, -⟩ := h.divIn_eq
  have hsign : divSigned i.operator = true := by
    rcases hop with ho | ho <;> rw [ho] <;> rfl
  refine h.computes_early ?_ ?_
  · have hshift : Serdiv.divShift (divIn s i) = -1 := by
      simp only [Serdiv.divShift, Serdiv.shiftA, Serdiv.lzcAInput, Serdiv.lzcBInput,
        Serdiv.opASign, Serdiv.opBSign, hs, hsign, hA, hB, ha, hb]
      decide
    rw [hshift]
    rfl
  · rw [h.control_eq, hsign, ha, hb]
    generalize i.transId = id, isRem i.operator = rem
    revert id rem
    decide

/-- The divider, as the unit drives it, computes what the M extension defines if and only if
it is not given -1 divided by 1. -/
theorem computes_rv32m_iff (h : Starts s i) :
    Computes s i (rv32m i.operandA i.operandB i.operator) ↔
      ¬Misaligned i.operator i.operandA i.operandB := by
  refine ⟨?_, h.computes⟩
  rintro hc hm
  have heq := hc.unique (h.computes_misaligned hm)
  obtain ⟨hop, ha, hb⟩ := hm
  rw [ha, hb] at heq
  revert heq
  rcases hop with ho | ho <;> rw [ho] <;> decide

/-- The smallest number divided by -1, after reset. -/
theorem computes_overflow :
    Computes mult.init ⟨.DIV, BitVec.intMin 32, -1, 5, true, false⟩ (BitVec.intMin 32) :=
  (computes_rv32m_iff (s := mult.init) (i := ⟨.DIV, BitVec.intMin 32, -1, 5, true, false⟩)
    ⟨rfl, rfl, rfl, rfl⟩).mpr (by decide)

def idleCycle : Input := ⟨.ADD, 0, 0, 0, false, false⟩

/-- -1 divided by 1 after reset: the result is valid in the next cycle, and it is 0. -/
theorem div_minus_one_by_one :
    let i : Input := ⟨.DIV, -1, 1, 5, true, false⟩
    Starts mult.init i ∧ rv32m (-1) 1 .DIV = -1 ∧
      delivered (mult.next mult.init i) idleCycle = [(5, 0)] ∧
      ¬Computes mult.init i (rv32m (-1) 1 .DIV) := by
  have hstart : Starts mult.init ⟨.DIV, -1, 1, 5, true, false⟩ := ⟨rfl, rfl, rfl, rfl⟩
  refine ⟨hstart, by decide, by decide, ?_⟩
  intro h
  exact absurd (h.unique (hstart.computes_misaligned (by decide))) (by decide)

end Division

end Cva6.Mult
