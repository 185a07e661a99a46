import Cva6.Arith.SerialDivision
import Cva6.Sync.Answer
import Cva6.Pkg
/-!
# The serial divider

`serdiv.sv` with `WIDTH = 32`. The operands are aligned by their leading zeros when they are
loaded; a negative divisor stays negative and the dividend is given its sign, so that both
shrink towards zero by subtraction.
-/

namespace Cva6.Mult.Serdiv

open Cva6.Arith.SerialDivision

inductive FsmState where
  | IDLE | DIVIDE | FINISH
  deriving DecidableEq, Repr, Inhabited

structure Regs where
  state : FsmState
  opA : XLen
  opB : XLen
  res : XLen
  cnt : BitVec 6
  id : TransId
  remSel : Bool
  compInv : Bool
  resInv : Bool
  opBZero : Bool
  divResZero : Bool
  deriving DecidableEq, Repr, Inhabited

def reset : Regs := ⟨.IDLE, 0, 0, 0, 0, 0, false, false, false, false, false⟩

structure Input where
  id : TransId
  opA : XLen
  opB : XLen
  /-- 0: udiv, 2: urem, 1: div, 3: rem. -/
  opcode : BitVec 2
  inVld : Bool
  flush : Bool
  outRdy : Bool
  deriving DecidableEq, Repr, Inhabited

/-! ## Leading zeros -/

/-- `cnt_o` of `lzc` for leading zeros. It is the last index when there is no one. -/
def lzcCnt (x : XLen) : BitVec 5 := if x = 0 then 31 else x.clz.setWidth 5

def lzcEmpty (x : XLen) : Bool := x == 0

/-! ## Alignment -/

section Load

variable (i : Input)

def signed : Bool := i.opcode.getLsbD 0

def opASign : Bool := i.opA.getLsbD 31
def opBSign : Bool := i.opB.getLsbD 31

/-- The operand shifted by one is cut to the width of the counter. -/
def lzcAInput : XLen :=
  if signed i && opASign i then ((~~~i.opA).concat false).setWidth 32 else i.opA

def lzcBInput : XLen := if signed i && opBSign i then ~~~i.opB else i.opB

def shiftA : BitVec 6 :=
  if lzcEmpty (lzcAInput i) then 32 else (lzcCnt (lzcAInput i)).setWidth 6

def divShift : BitVec 7 :=
  if lzcEmpty (lzcBInput i) then 32
  else (lzcCnt (lzcBInput i)).setWidth 7 - (shiftA i).setWidth 7

def alignedB : XLen := i.opB <<< (divShift i).toNat

end Load

/-! ## The state machine -/

/-- What the process `p_fsm` drives. -/
structure Fsm where
  state : FsmState
  inRdy : Bool
  outVld : Bool
  loadEn : Bool
  aRegEn : Bool
  bRegEn : Bool
  resRegEn : Bool
  deriving DecidableEq, Repr

variable (q : Regs) (i : Input)

def abComp : Bool :=
  (q.opA == q.opB || ((q.opB.ult q.opA) != q.compInv)) && (q.opA != 0 || q.opBZero)

def fsm : Fsm :=
  let o : Fsm := ⟨q.state, false, false, false, false, false, false⟩
  let o :=
    match q.state with
    | .IDLE =>
        let o := { o with inRdy := true }
        if i.inVld then
          { o with inRdy := false, aRegEn := true, bRegEn := true, loadEn := true, state := .DIVIDE }
        else o
    | .DIVIDE =>
        let o :=
          if !q.divResZero then { o with aRegEn := abComp q, bRegEn := true, resRegEn := true }
          else o
        if q.divResZero then
          let o := { o with outVld := true, state := .FINISH }
          if i.outRdy then { o with state := .IDLE } else o
        else if q.cnt == 0 then { o with state := .FINISH }
        else o
    | .FINISH =>
        let o := { o with outVld := true }
        if i.outRdy then { o with state := .IDLE } else o
  if i.flush then
    { o with
      inRdy := false, outVld := false, aRegEn := false, bRegEn := false, loadEn := false,
      state := .IDLE }
  else o

/-! ## Outputs -/

def outMux : XLen := if q.remSel then q.opA else q.res

def resO : XLen := if q.resInv then -outMux q else outMux q

/-! ## The registers -/

/-- `add_out`: the first operand with its new sign, or the remainder minus the divisor. -/
def addOut : XLen :=
  let load := (fsm q i).loadEn
  let pmSel := load && !(signed i && (opASign i != opBSign i))
  let addMux := if load then i.opA else q.opB
  let addTmp := if load then 0 else q.opA
  if pmSel then addTmp + addMux else addTmp - addMux

/-- `b_mux`: a negative divisor is halved by shifting in a one. -/
def bMux : XLen :=
  if (fsm q i).loadEn then alignedB i else BitVec.ofBool q.compInv ++ q.opB.extractLsb' 1 31

def next : Regs :=
  let o := fsm q i
  let opBZero := i.opB == 0
  let signsDiffer := opASign i != opBSign i
  { state := o.state
    opA := if o.aRegEn then addOut q i else q.opA
    opB := if o.bRegEn then bMux q i else q.opB
    res :=
      if o.loadEn then 0
      else if o.resRegEn then q.res.extractLsb' 0 31 ++ BitVec.ofBool (abComp q)
      else q.res
    cnt :=
      if o.loadEn then (divShift i).setWidth 6
      else if q.cnt != 0 then q.cnt - 1 else q.cnt
    id := if o.loadEn then i.id else q.id
    remSel := if o.loadEn then i.opcode.getLsbD 1 else q.remSel
    compInv := if o.loadEn then signed i && opBSign i else q.compInv
    resInv :=
      if o.loadEn then (!opBZero || i.opcode.getLsbD 1) && signed i && signsDiffer else q.resInv
    opBZero := if o.loadEn then opBZero else q.opBZero
    divResZero := if o.loadEn then (divShift i).getLsbD 6 else q.divResZero }

/-! ## Signed representatives -/

def withSign (neg : Bool) (n : Nat) : XLen :=
  if neg then -BitVec.ofNat 32 n else BitVec.ofNat 32 n

theorem toNat_withSign (neg : Bool) (n : Nat) : (withSign neg n).toNat =
    if neg then (2 ^ 32 - n % 2 ^ 32) % 2 ^ 32 else n % 2 ^ 32 := by
  cases neg <;> simp [withSign, BitVec.toNat_neg]

theorem withSign_sub (neg : Bool) {r d : Nat} (h : d ≤ r) :
    withSign neg r - withSign neg d = withSign neg (r - d) := by
  have hof : BitVec.ofNat 32 (r - d) = BitVec.ofNat 32 r - BitVec.ofNat 32 d := by
    apply BitVec.eq_of_toNat_eq
    simp
    omega
  cases neg with
  | false => simp [withSign, hof]
  | true =>
      simp only [withSign, if_true, hof]
      ring

/-- A divisor that fits: a negative one may be the power of two that is cut to zero. -/
def Fits (neg : Bool) (d : Nat) : Prop := 0 < d ∧ d ≤ 2 ^ 32 ∧ (neg = false → d < 2 ^ 32)

theorem bMux_halves {neg : Bool} {e : Nat} (h : Fits neg (2 * e)) :
    BitVec.ofBool neg ++ (withSign neg (2 * e)).extractLsb' 1 31 = withSign neg e := by
  obtain ⟨hpos, hle, hlt⟩ := h
  apply BitVec.eq_of_toNat_eq
  rw [BitVec.toNat_append, BitVec.extractLsb'_toNat, toNat_withSign, toNat_withSign,
    ← Nat.shiftLeft_add_eq_or_of_lt (by omega), Nat.shiftLeft_eq, Nat.shiftRight_eq_div_pow]
  cases neg with
  | false =>
      have := hlt rfl
      simp
      omega
  | true =>
      simp
      omega

section Step

variable {q : Regs} {i : Input} {r d : Nat}

theorem abComp_eq (ha : q.opA = withSign q.compInv r) (hb : q.opB = withSign q.compInv d)
    (hr : r < 2 ^ 32) (hd : Fits q.compInv d) (hz : q.opBZero = false) :
    abComp q = decide (d ≤ r) := by
  obtain ⟨hpos, hle, hlt⟩ := hd
  have hA := congrArg BitVec.toNat ha
  have hB := congrArg BitVec.toNat hb
  rw [toNat_withSign] at hA hB
  rw [Bool.eq_iff_iff]
  simp only [abComp, hz, BitVec.ult, Bool.or_false, Bool.and_eq_true, Bool.or_eq_true, beq_iff_eq,
    bne_iff_ne, ne_eq, decide_eq_true_eq, ← BitVec.toNat_inj]
  cases hc : q.compInv with
  | false =>
      have := hlt hc
      simp [hc] at hA hB ⊢
      omega
  | true =>
      simp [hc] at hA hB ⊢
      omega

/-- `m` is divided by `n`, and `k + 1` bits of the quotient are left. -/
structure Working (m n k : Nat) (q : Regs) (s : State) : Prop where
  state : q.state = .DIVIDE
  divResZero : q.divResZero = false
  opBZero : q.opBZero = false
  cnt : q.cnt.toNat = k
  opA : q.opA = withSign q.compInv s.remainder
  opB : q.opB = withSign q.compInv s.divisor
  res : q.res = BitVec.ofNat 32 s.quotient
  dividing : Dividing m n (k + 1) s
  fits : Fits q.compInv (n * 2 ^ k)
  dividend_lt : m < 2 ^ 32

def control (q : Regs) : TransId × Bool × Bool × Bool := (q.id, q.remSel, q.compInv, q.resInv)

theorem control_next (hs : q.state ≠ .IDLE) : control (next q i) = control q := by
  have hload : (fsm q i).loadEn = false := by
    unfold fsm
    cases hq : q.state <;> simp_all [apply_ite Fsm.loadEn]
  simp [control, next, hload]

variable {m n k : Nat} {s : State}

theorem Working.fsm_eq (h : Working m n k q s) (hf : i.flush = false) :
    fsm q i = ⟨if k = 0 then .FINISH else .DIVIDE, false, false, false, abComp q, true, true⟩ := by
  have hcnt : (q.cnt == 0) = decide (k = 0) := by
    rw [Bool.eq_iff_iff, beq_iff_eq, decide_eq_true_eq, ← h.cnt, ← BitVec.toNat_inj]
    rfl
  simp only [fsm, h.state, h.divResZero, hf, hcnt]
  by_cases hk : k = 0 <;> simp [hk]

theorem Working.abComp_eq (h : Working m n k q s) :
    abComp q = decide (s.divisor ≤ s.remainder) := by
  have hle : s.remainder ≤ m := by
    have := h.dividing.sum
    omega
  refine Serdiv.abComp_eq h.opA h.opB (by have := h.dividend_lt; omega) ?_ h.opBZero
  rw [h.dividing.divisor_eq]
  exact h.fits

/-- One cycle is one step of the serial division. -/
theorem Working.next_data (h : Working m n k q s) (hf : i.flush = false) :
    (next q i).opA = withSign q.compInv (step s).remainder ∧
      (next q i).res = BitVec.ofNat 32 (step s).quotient := by
  have hres (b : Bool) : q.res.extractLsb' 0 31 ++ BitVec.ofBool b =
      BitVec.ofNat 32 (2 * s.quotient + if b then 1 else 0) := by
    rw [h.res]
    apply BitVec.eq_of_toNat_eq
    rw [BitVec.toNat_append, ← Nat.shiftLeft_add_eq_or_of_lt (BitVec.isLt _), Nat.shiftLeft_eq]
    cases b <;> simp <;> omega
  have hfsm := h.fsm_eq hf
  have hab := h.abComp_eq
  unfold next step addOut
  simp only [hfsm, hab, hres, Bool.false_and, Bool.false_eq_true, if_false, if_true]
  by_cases hc : s.divisor ≤ s.remainder
  · simp [hc, h.opA, h.opB, withSign_sub _ hc]
  · simp [hc, h.opA]

theorem Working.next_opB (h : Working m n (k + 1) q s) (hf : i.flush = false) :
    (next q i).opB = withSign q.compInv (n * 2 ^ k) := by
  have hdiv : s.divisor = 2 * (n * 2 ^ k) := by
    rw [h.dividing.divisor_eq, Nat.pow_succ]
    ring
  have hfits := h.fits
  rw [← h.dividing.divisor_eq, hdiv] at hfits
  rw [← bMux_halves hfits, ← hdiv, ← h.opB]
  simp [next, bMux, h.fsm_eq hf]

theorem Working.next (h : Working m n (k + 1) q s) (hf : i.flush = false) :
    Working m n k (next q i) (step s) := by
  have hinv : (Serdiv.next q i).compInv = q.compInv := by
    simp [Serdiv.next, h.fsm_eq hf]
  have hnext := h.dividing.step
  have hfits := h.fits
  rw [Nat.pow_succ, ← Nat.mul_assoc] at hfits
  constructor
  · simp [Serdiv.next, h.fsm_eq hf]
  · simp [Serdiv.next, h.fsm_eq hf, h.divResZero]
  · simp [Serdiv.next, h.fsm_eq hf, h.opBZero]
  · have hcnt := h.cnt
    have hne : q.cnt ≠ 0 := by
      intro h0
      simp [h0] at hcnt
    simp only [Serdiv.next, h.fsm_eq hf, bne_iff_ne, ne_eq, hne, not_false_eq_true, if_true,
      Bool.false_eq_true, if_false]
    rw [BitVec.toNat_sub_of_le (by simp [BitVec.le_def]; omega)]
    simp
    omega
  · rw [hinv]
    exact (h.next_data hf).1
  · rw [hinv, h.next_opB hf, hnext.divisor_eq]
  · exact (h.next_data hf).2
  · exact hnext
  · rw [hinv]
    exact ⟨by have := hfits.1; omega, by have := hfits.2.1; omega, fun hi => by
      have := hfits.2.2 hi
      omega⟩
  · exact h.dividend_lt

theorem Working.finish (h : Working m n 0 q s) (hf : i.flush = false) :
    (Serdiv.next q i).state = .FINISH ∧ (Serdiv.next q i).opA = withSign q.compInv (m % n) ∧
      (Serdiv.next q i).res = BitVec.ofNat 32 (m / n) := by
  have hn : 0 < n := by
    have := h.fits.1
    simpa using this
  obtain ⟨hq, hr⟩ := h.dividing.last hn
  obtain ⟨hA, hres⟩ := h.next_data hf
  refine ⟨by simp [Serdiv.next, h.fsm_eq hf], ?_, ?_⟩
  · rw [hA, hr]
  · rw [hres, hq]

/-- A division by zero with `k + 1` cycles left: every comparison succeeds. -/
structure Zeroing (k : Nat) (q : Regs) : Prop where
  state : q.state = .DIVIDE
  divResZero : q.divResZero = false
  opBZero : q.opBZero = true
  compInv : q.compInv = false
  cnt : q.cnt.toNat = k
  opB : q.opB = 0
  res : q.res = BitVec.ofNat 32 (2 ^ (32 - k) - 1)
  le : k ≤ 32

theorem Zeroing.abComp_eq (h : Zeroing k q) : abComp q = true := by
  have hor : q.opA = 0 ∨ BitVec.ult 0 q.opA = true := by
    rw [BitVec.ult_iff_toNat_lt, ← BitVec.toNat_inj]
    simp
    omega
  simpa [abComp, h.opBZero, h.compInv, h.opB] using hor

theorem Zeroing.fsm_eq (h : Zeroing k q) (hf : i.flush = false) :
    fsm q i = ⟨if k = 0 then .FINISH else .DIVIDE, false, false, false, true, true, true⟩ := by
  have hcnt : (q.cnt == 0) = decide (k = 0) := by
    rw [Bool.eq_iff_iff, beq_iff_eq, decide_eq_true_eq, ← h.cnt, ← BitVec.toNat_inj]
    rfl
  simp only [fsm, h.state, h.divResZero, hf, hcnt, h.abComp_eq]
  by_cases hk : k = 0 <;> simp [hk]

theorem Zeroing.next_data (h : Zeroing k q) (hf : i.flush = false) :
    (Serdiv.next q i).opA = q.opA ∧
      (Serdiv.next q i).res = BitVec.ofNat 32 (2 ^ (33 - k) - 1) := by
  have hle := h.le
  refine ⟨by simp [Serdiv.next, addOut, h.fsm_eq hf, h.opB], ?_⟩
  have hpow : 2 ^ (33 - k) = 2 * 2 ^ (32 - k) := by
    rw [← Nat.pow_succ', show 33 - k = (32 - k) + 1 by omega]
  have hpos := Nat.two_pow_pos (32 - k)
  simp only [Serdiv.next, h.fsm_eq hf, h.abComp_eq, h.res, hpow, if_true, Bool.false_eq_true,
    if_false]
  apply BitVec.eq_of_toNat_eq
  rw [BitVec.toNat_append, ← Nat.shiftLeft_add_eq_or_of_lt (BitVec.isLt _), Nat.shiftLeft_eq]
  simp
  omega

theorem Zeroing.next (h : Zeroing (k + 1) q) (hf : i.flush = false) :
    Zeroing k (Serdiv.next q i) where
  state := by simp [Serdiv.next, h.fsm_eq hf]
  divResZero := by simp [Serdiv.next, h.fsm_eq hf, h.divResZero]
  opBZero := by simp [Serdiv.next, h.fsm_eq hf, h.opBZero]
  compInv := by simp [Serdiv.next, h.fsm_eq hf, h.compInv]
  cnt := by
    have hcnt := h.cnt
    have hne : q.cnt ≠ 0 := by
      intro h0
      simp [h0] at hcnt
    simp only [Serdiv.next, h.fsm_eq hf, bne_iff_ne, ne_eq, hne, not_false_eq_true, if_true,
      Bool.false_eq_true, if_false]
    rw [BitVec.toNat_sub_of_le (by simp [BitVec.le_def]; omega)]
    simp
    omega
  opB := by simp [Serdiv.next, bMux, h.fsm_eq hf, h.compInv, h.opB]
  res := by
    rw [(h.next_data hf).2]
    congr 3
    omega
  le := by
    have := h.le
    omega

/-! ## The answer -/

end Step

/-- The answer the unit offers: `id_o` and `res_o` while `out_vld_o` is up. -/
def offer (q : Regs) : Option (TransId × XLen) :=
  if q.state = .FINISH ∨ q.state = .DIVIDE ∧ q.divResZero = true then some (q.id, resO q) else none

theorem outVld_eq (hf : i.flush = false) : (fsm q i).outVld = (offer q).isSome := by
  unfold fsm offer
  cases hq : q.state <;> cases hz : q.divResZero <;> simp [hf, apply_ite Fsm.outVld]

section Offer

variable {q i} {a : TransId × XLen}

/-- While an answer is offered only the state moves: to `IDLE` when it is taken. -/
theorem next_of_offer (h : offer q = some a) (hf : i.flush = false) :
    (next q i).state = (if i.outRdy then .IDLE else .FINISH) ∧ (next q i).opA = q.opA ∧
      (next q i).res = q.res ∧ control (next q i) = control q := by
  have hstate : q.state = .FINISH ∨ q.state = .DIVIDE ∧ q.divResZero = true := by
    unfold offer at h
    by_contra hno
    simp [hno] at h
  have hfsm : fsm q i =
      ⟨if i.outRdy then .IDLE else .FINISH, false, true, false, false, false, false⟩ := by
    rcases hstate with hq | ⟨hq, hz⟩
    · simp only [fsm, hq, hf]
      cases i.outRdy <;> rfl
    · simp only [fsm, hq, hz, hf]
      cases i.outRdy <;> rfl
  simp [next, control, hfsm]

theorem resO_congr {q' : Regs} (hA : q'.opA = q.opA) (hres : q'.res = q.res)
    (hc : control q' = control q) : (q'.id, resO q') = (q.id, resO q) := by
  simp only [control, Prod.mk.injEq] at hc
  simp [resO, outMux, hA, hres, hc]

theorem offer_held (h : offer q = some a) (hf : i.flush = false) (hr : i.outRdy = false) :
    offer (next q i) = some a := by
  obtain ⟨hstate, hA, hres, hc⟩ := next_of_offer h hf
  have ha : some (q.id, resO q) = some a := by
    rw [← h, offer, if_pos]
    by_contra hno
    simp [offer, hno] at h
  rw [← ha, offer, if_pos (by simp [hstate, hr]), resO_congr hA hres hc]

theorem idle_of_taken (h : offer q = some a) (hf : i.flush = false) (hr : i.outRdy = true) :
    (next q i).state = .IDLE := by
  rw [(next_of_offer h hf).1, hr]
  rfl

end Offer

/-! ## Loading -/

def magnitude (sign : Bool) (x : XLen) : Nat :=
  if sign && x.getLsbD 31 then (-x).toNat else x.toNat

theorem magnitude_lt (sign : Bool) (x : XLen) : magnitude sign x < 2 ^ 32 := by
  unfold magnitude
  split
  · exact (-x).isLt
  · exact x.isLt

theorem getLsbD_31 (x : XLen) : x.getLsbD 31 = decide (2 ^ 31 ≤ x.toNat) := by
  rw [← BitVec.msb_eq_getLsbD_last x, BitVec.msb_eq_decide]

theorem withSign_magnitude (sign : Bool) (x : XLen) :
    withSign (sign && x.getLsbD 31) (magnitude sign x) = x := by
  unfold withSign magnitude
  split
  · rw [BitVec.ofNat_toNat, BitVec.setWidth_eq, neg_neg]
  · rw [BitVec.ofNat_toNat, BitVec.setWidth_eq]

theorem magnitude_pos (sign : Bool) {x : XLen} (hx : x ≠ 0) : 0 < magnitude sign x := by
  rw [Nat.pos_iff_ne_zero]
  intro h0
  apply hx
  rw [← withSign_magnitude sign x, h0]
  cases sign && x.getLsbD 31 <;> rfl

theorem loaded_opA :
    (if signed i && (opASign i != opBSign i) then -i.opA else i.opA) =
      withSign (signed i && opBSign i) (magnitude (signed i) i.opA) := by
  have hsign (s a b : Bool) (n : Nat) :
      (if s && (a != b) then -withSign (s && a) n else withSign (s && a) n) =
        withSign (s && b) n := by
    cases s <;> cases a <;> cases b <;> simp [withSign]
  rw [← hsign (signed i) (opASign i) (opBSign i), opASign, withSign_magnitude]

/-! ### Leading zeros -/

theorem toNat_lzcBInput : (lzcBInput i).toNat =
    if signed i && opBSign i then magnitude (signed i) i.opB - 1
    else magnitude (signed i) i.opB := by
  have hb := getLsbD_31 i.opB
  have hlt := i.opB.isLt
  unfold lzcBInput magnitude opBSign
  split_ifs with hneg
  · simp only [Bool.and_eq_true, hb, decide_eq_true_eq] at hneg
    simp
    omega
  · rfl

theorem toNat_lzcAInput : (lzcAInput i).toNat =
    if signed i && opASign i then 2 * (magnitude (signed i) i.opA - 1)
    else magnitude (signed i) i.opA := by
  have ha := getLsbD_31 i.opA
  have hlt := i.opA.isLt
  unfold lzcAInput magnitude opASign
  split_ifs with hneg
  · simp only [Bool.and_eq_true, ha, decide_eq_true_eq] at hneg
    simp [BitVec.toNat_concat]
    omega
  · rfl

theorem lzcCnt_spec {x : XLen} (hx : x ≠ 0) :
    (lzcCnt x).toNat < 32 ∧ 2 ^ (31 - (lzcCnt x).toNat) ≤ x.toNat ∧
      x.toNat < 2 ^ (32 - (lzcCnt x).toNat) := by
  have hlt : x.clz.toNat < 32 := by
    have := BitVec.clz_lt_iff_ne_zero.mpr hx
    simpa [BitVec.lt_def] using this
  have hcnt : (lzcCnt x).toNat = x.clz.toNat := by
    simp only [lzcCnt, if_neg hx, BitVec.toNat_setWidth]
    omega
  rw [hcnt]
  exact ⟨hlt, BitVec.two_pow_sub_clz_le_toNat_of_ne_zero (by decide) hx,
    BitVec.toNat_lt_two_pow_sub_clz⟩

/-- The width of the first operand as the unit sees it. It is too small for -1, of which
nothing is left to count. -/
theorem shiftA_spec : (shiftA i).toNat ≤ 32 ∧
    (magnitude (signed i) i.opA < 2 ^ (32 - (shiftA i).toNat) ∨
      (signed i && opASign i) = true ∧ magnitude (signed i) i.opA = 1 ∧
        (shiftA i).toNat = 32) := by
  have hin := toNat_lzcAInput i
  by_cases hz : lzcAInput i = 0
  · have hshift : (shiftA i).toNat = 32 := by simp [shiftA, lzcEmpty, hz]
    rw [hz] at hin
    refine ⟨hshift.le, ?_⟩
    rw [hshift]
    split_ifs at hin with hneg
    · have hpos : i.opA ≠ 0 := by
        intro h0
        simp [opASign, h0] at hneg
      have := magnitude_pos (signed i) hpos
      simp at hin
      exact .inr ⟨hneg, by omega, rfl⟩
    · left
      simp at hin
      omega
  · obtain ⟨hlt, -, hub⟩ := lzcCnt_spec hz
    have hshift : (shiftA i).toNat = (lzcCnt (lzcAInput i)).toNat := by
      have : lzcEmpty (lzcAInput i) = false := by simpa [lzcEmpty] using hz
      simp only [shiftA, this, Bool.false_eq_true, if_false, BitVec.toNat_setWidth]
      omega
    rw [hshift]
    refine ⟨hlt.le, .inl ?_⟩
    have hne : (lzcAInput i).toNat ≠ 0 := by
      intro h0
      exact hz (BitVec.eq_of_toNat_eq h0)
    split_ifs at hin with hneg
    · omega
    · omega

theorem divShift_of_empty (h : lzcBInput i = 0) : divShift i = 32 := by
  simp [divShift, lzcEmpty, h]

theorem divShift_spec (h : lzcBInput i ≠ 0) :
    (divShift i).getLsbD 6 = decide ((lzcCnt (lzcBInput i)).toNat < (shiftA i).toNat) ∧
      ((shiftA i).toNat ≤ (lzcCnt (lzcBInput i)).toNat →
        (divShift i).toNat = (lzcCnt (lzcBInput i)).toNat - (shiftA i).toNat) := by
  obtain ⟨hlt, -, -⟩ := lzcCnt_spec h
  have hle := (shiftA_spec i).1
  have hempty : lzcEmpty (lzcBInput i) = false := by simpa [lzcEmpty] using h
  have hshift : (divShift i).toNat =
      (128 - (shiftA i).toNat + (lzcCnt (lzcBInput i)).toNat) % 128 := by
    simp only [divShift, hempty, Bool.false_eq_true, if_false, BitVec.toNat_sub,
      BitVec.toNat_setWidth]
    omega
  have hmsb : (divShift i).getLsbD 6 = decide (2 ^ 6 ≤ (divShift i).toNat) := by
    rw [← BitVec.msb_eq_getLsbD_last (divShift i), BitVec.msb_eq_decide]
  constructor
  · rw [hmsb, hshift, decide_eq_decide]
    omega
  · intro hge
    omega

/-! ### The loaded registers -/

section Loaded

variable {q i}

structure Loads (q : Regs) (i : Input) : Prop where
  state : q.state = .IDLE
  inVld : i.inVld = true
  flush : i.flush = false

theorem Loads.fsm_eq (h : Loads q i) : fsm q i = ⟨.DIVIDE, false, false, true, true, true, false⟩ := by
  simp [fsm, h.state, h.inVld, h.flush]

theorem Loads.next_eq (h : Loads q i) : next q i =
    { state := .DIVIDE
      opA := withSign (signed i && opBSign i) (magnitude (signed i) i.opA)
      opB := alignedB i
      res := 0
      cnt := (divShift i).setWidth 6
      id := i.id
      remSel := i.opcode.getLsbD 1
      compInv := signed i && opBSign i
      resInv := (!(i.opB == 0) || i.opcode.getLsbD 1) && signed i && (opASign i != opBSign i)
      opBZero := i.opB == 0
      divResZero := (divShift i).getLsbD 6 } := by
  rw [← loaded_opA]
  simp only [next, addOut, bMux, h.fsm_eq, if_true, Bool.true_and]
  cases signed i && (opASign i != opBSign i) <;> simp

theorem Loads.zeroing (h : Loads q i) (hb : i.opB = 0) : Zeroing 32 (next q i) := by
  have hsign : opBSign i = false := by simp [opBSign, hb]
  have hin : lzcBInput i = 0 := by simp [lzcBInput, hsign, hb]
  rw [h.next_eq, divShift_of_empty i hin]
  constructor <;> simp [hsign, hb, alignedB]

theorem withSign_shiftLeft (neg : Bool) (n k : Nat) :
    withSign neg n <<< k = withSign neg (n * 2 ^ k) := by
  have hof : BitVec.ofNat 32 (n * 2 ^ k) = BitVec.ofNat 32 n <<< k := by
    apply BitVec.eq_of_toNat_eq
    simp [Nat.shiftLeft_eq, Nat.mod_mul_mod]
  cases neg with
  | false => simp [withSign, hof]
  | true =>
      simp only [withSign, if_true, hof]
      rw [BitVec.shiftLeft_eq_mul_twoPow, BitVec.shiftLeft_eq_mul_twoPow]
      ring

theorem magnitude_of_empty (hb : i.opB ≠ 0) (h : lzcBInput i = 0) :
    (signed i && opBSign i) = true ∧ magnitude (signed i) i.opB = 1 := by
  have hin := toNat_lzcBInput i
  have hpos := magnitude_pos (signed i) hb
  rw [h] at hin
  split_ifs at hin with hneg
  · exact ⟨hneg, by simp at hin; omega⟩
  · simp at hin
    omega

theorem magnitude_opB (h : lzcBInput i ≠ 0) :
    2 ^ (31 - (lzcCnt (lzcBInput i)).toNat) ≤ magnitude (signed i) i.opB ∧
      magnitude (signed i) i.opB ≤ 2 ^ (32 - (lzcCnt (lzcBInput i)).toNat) ∧
      ((signed i && opBSign i) = false →
        magnitude (signed i) i.opB < 2 ^ (32 - (lzcCnt (lzcBInput i)).toNat)) := by
  obtain ⟨-, hlo, hhi⟩ := lzcCnt_spec h
  have hin := toNat_lzcBInput i
  split_ifs at hin with hneg
  · rw [hin] at hlo hhi
    exact ⟨by omega, by omega, by simp [hneg]⟩
  · rw [hin] at hlo hhi
    exact ⟨hlo, hhi.le, fun _ => hhi⟩

/-- What the alignment guarantees when the shift is not negative. -/
theorem aligned_bounds (hb : i.opB ≠ 0) (ha : (divShift i).getLsbD 6 = false) :
    (divShift i).toNat ≤ 32 ∧
      magnitude (signed i) i.opA < magnitude (signed i) i.opB * 2 ^ ((divShift i).toNat + 1) ∧
      Fits (signed i && opBSign i) (magnitude (signed i) i.opB * 2 ^ (divShift i).toNat) := by
  have hpos := magnitude_pos (signed i) hb
  have hmul (k : Nat) := Nat.mul_pos hpos (Nat.two_pow_pos k)
  by_cases hz : lzcBInput i = 0
  · obtain ⟨hneg, hone⟩ := magnitude_of_empty hb hz
    have hlt := magnitude_lt (signed i) i.opA
    have hshift : (divShift i).toNat = 32 := by rw [divShift_of_empty i hz]; rfl
    rw [hshift, hone, hneg]
    exact ⟨le_rfl, by omega, by decide, by decide, by simp⟩
  · obtain ⟨hsign, hk⟩ := divShift_spec i hz
    obtain ⟨hL, -, -⟩ := lzcCnt_spec hz
    obtain ⟨hlo, hhi, hstrict⟩ := magnitude_opB hz
    rw [ha, eq_comm, decide_eq_false_iff_not, not_lt] at hsign
    have hk := hk hsign
    obtain ⟨-, hA | ⟨-, -, hfull⟩⟩ := shiftA_spec i
    swap
    · omega
    have hup : 2 ^ (32 - (lzcCnt (lzcBInput i)).toNat) * 2 ^ (divShift i).toNat ≤ 2 ^ 32 := by
      rw [← Nat.pow_add]
      exact Nat.pow_le_pow_right (by decide) (by omega)
    refine ⟨by omega, ?_, hmul _, ?_, ?_⟩
    · calc magnitude (signed i) i.opA
          < 2 ^ (32 - (shiftA i).toNat) := hA
        _ = 2 ^ (31 - (lzcCnt (lzcBInput i)).toNat) * 2 ^ ((divShift i).toNat + 1) := by
            rw [← Nat.pow_add]
            congr 1
            omega
        _ ≤ _ := Nat.mul_le_mul_right _ hlo
    · exact (Nat.mul_le_mul_right _ hhi).trans hup
    · intro hneg
      exact ((Nat.mul_lt_mul_right (Nat.two_pow_pos _)).mpr (hstrict hneg)).trans_le hup

/-- When the shift is negative the quotient is zero, except for -1 divided by 1. -/
theorem early_bounds (hb : i.opB ≠ 0) (ha : (divShift i).getLsbD 6 = true) :
    magnitude (signed i) i.opA < magnitude (signed i) i.opB ∨
      (signed i && opASign i) = true ∧ magnitude (signed i) i.opA = 1 ∧
        (signed i && opBSign i) = false ∧ magnitude (signed i) i.opB = 1 := by
  have hz : lzcBInput i ≠ 0 := by
    intro hz
    simp [divShift_of_empty i hz] at ha
  obtain ⟨hsign, -⟩ := divShift_spec i hz
  obtain ⟨hL, -, -⟩ := lzcCnt_spec hz
  obtain ⟨hlo, -, -⟩ := magnitude_opB hz
  rw [ha, eq_comm, decide_eq_true_eq] at hsign
  obtain ⟨hle, hA | ⟨hneg, hone, hfull⟩⟩ := shiftA_spec i
  · left
    refine hA.trans_le (le_trans ?_ hlo)
    exact Nat.pow_le_pow_right (by decide) (by omega)
  · by_cases hn : magnitude (signed i) i.opB = 1
    · refine .inr ⟨hneg, hone, ?_, hn⟩
      -- a divisor of -1 leaves nothing to count
      by_contra hB
      have hin := toNat_lzcBInput i
      rw [if_pos (by simpa using hB), hn] at hin
      exact hz (BitVec.eq_of_toNat_eq hin)
    · have := magnitude_pos (signed i) hb
      left
      omega

theorem Loads.working (h : Loads q i) (hb : i.opB ≠ 0) (ha : (divShift i).getLsbD 6 = false) :
    Working (magnitude (signed i) i.opA) (magnitude (signed i) i.opB) (divShift i).toNat (next q i)
      ⟨magnitude (signed i) i.opA,
        magnitude (signed i) i.opB * 2 ^ (divShift i).toNat, 0⟩ := by
  obtain ⟨hle, hlt, hfits⟩ := aligned_bounds hb ha
  have hB : alignedB i = withSign (signed i && opBSign i)
      (magnitude (signed i) i.opB * 2 ^ (divShift i).toNat) := by
    rw [← withSign_shiftLeft, opBSign, withSign_magnitude, alignedB]
  rw [h.next_eq]
  constructor
  · rfl
  · exact ha
  · simpa using hb
  · show ((divShift i).setWidth 6).toNat = _
    rw [BitVec.toNat_setWidth]
    omega
  · rfl
  · exact hB
  · rfl
  · exact dividing_init hlt
  · exact hfits
  · exact magnitude_lt _ _

end Loaded

/-! ## The cycles of a division -/

/-- `P k` holds with `k + 1` cycles to go before `a` is offered. -/
structure Counts (P : Nat → Regs → Prop) (a : TransId × XLen) : Prop where
  busy : ∀ k q, P k q → offer q = none
  closer : ∀ k q i, P (k + 1) q → i.flush = false → P k (next q i)
  last : ∀ q i, P 0 q → i.flush = false → offer (next q i) = some a

def select (c : TransId × Bool × Bool × Bool) (opA res : XLen) : TransId × XLen :=
  let o := if c.2.1 then opA else res
  (c.1, if c.2.2.2 then -o else o)

theorem offer_of_finish {q : Regs} (h : q.state = .FINISH) :
    offer q = some (select (control q) q.opA q.res) := by
  rw [offer, if_pos (.inl h)]
  rfl

def Divides (m n : Nat) (c : TransId × Bool × Bool × Bool) (k : Nat) (q : Regs) : Prop :=
  control q = c ∧ ∃ s, Working m n k q s

theorem divides_counts (m n : Nat) (c : TransId × Bool × Bool × Bool) :
    Counts (Divides m n c) (select c (withSign c.2.2.1 (m % n)) (BitVec.ofNat 32 (m / n))) where
  busy := by
    rintro k q ⟨-, s, h⟩
    simp [offer, h.state, h.divResZero]
  closer := by
    rintro k q i ⟨hc, s, h⟩ hf
    exact ⟨(control_next (by simp [h.state])).trans hc, _, h.next hf⟩
  last := by
    rintro q i ⟨hc, s, h⟩ hf
    obtain ⟨hstate, hA, hres⟩ := h.finish hf
    have hc' : control (next q i) = c := (control_next (by simp [h.state])).trans hc
    have hinv : q.compInv = c.2.2.1 := by rw [← hc]; rfl
    rw [offer_of_finish hstate, hc', hA, hres, hinv]

def DividesZero (x : XLen) (c : TransId × Bool × Bool × Bool) (k : Nat) (q : Regs) : Prop :=
  control q = c ∧ q.opA = x ∧ Zeroing k q

theorem dividesZero_counts (x : XLen) (c : TransId × Bool × Bool × Bool) :
    Counts (DividesZero x c) (select c x (BitVec.allOnes 32)) where
  busy := by
    rintro k q ⟨-, -, h⟩
    simp [offer, h.state, h.divResZero]
  closer := by
    rintro k q i ⟨hc, hA, h⟩ hf
    exact ⟨(control_next (by simp [h.state])).trans hc, ((h.next_data hf).1).trans hA, h.next hf⟩
  last := by
    rintro q i ⟨hc, hA, h⟩ hf
    have hstate : (next q i).state = .FINISH := by simp [next, h.fsm_eq hf]
    obtain ⟨hA', hres⟩ := h.next_data hf
    have hc' : control (next q i) = c := (control_next (by simp [h.state])).trans hc
    rw [offer_of_finish hstate, hc', hA', hres, hA]
    rfl

end Cva6.Mult.Serdiv
