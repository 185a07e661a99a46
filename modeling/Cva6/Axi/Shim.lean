import Cva6.Axi.Adapter
import Cva6.Sync.Machine
/-!
# The write channel of the protocol shim

`axi_shim.sv` for requests of any number of beats: the address and the beats of a request are
offered together, and each channel is accepted at its own pace. A counter of the words of a
request selects the beat.
-/

namespace Cva6.Axi.Shim

open Cva6.Sync

/-- `wr_state_q`. -/
inductive Fsm where
  | IDLE | WAIT_AW_READY | WAIT_LAST_W_READY | WAIT_LAST_W_READY_AW_READY | WAIT_AW_READY_BURST
  deriving DecidableEq, Repr

/-- The payload of a request for at most `2 ^ w` words; `blen` is the number of beats less one. -/
structure Request (w : Nat) where
  addr : BitVec 64
  data : BitVec w → BitVec 64
  be : BitVec w → BitVec 8
  blen : BitVec w
  size : BitVec 2
  id : AxiId
  lock : Bool
  atop : BitVec 6

structure Input (w : Nat) where
  wrReq : Bool
  wr : Request w
  awReady : Bool
  wReady : Bool

structure Regs (w : Nat) where
  wrState : Fsm
  wrCnt : BitVec w
  deriving DecidableEq

/-- `ariane_axi::aw_chan_t`, less the fields tied to zero. -/
structure Aw where
  addr : BitVec 64
  burst : BitVec 2
  size : BitVec 2
  len : BitVec 8
  id : AxiId
  lock : Bool
  atop : BitVec 6
  deriving DecidableEq, Repr

/-- `ariane_axi::w_chan_t`. -/
structure Beat where
  data : BitVec 64
  strb : BitVec 8
  last : Bool
  deriving DecidableEq, Repr

variable {w : Nat} (q : Regs w) (i : Input w)

def reset : Regs w := ⟨.IDLE, 0⟩

/-! ## Outputs -/

def aw (r : Request w) : Aw where
  addr := r.addr
  burst := if r.blen == 0 then 0 else 1
  size := r.size
  len := r.blen.setWidth 8
  id := r.id
  lock := r.lock
  atop := r.atop

def wrCntDone : Bool := q.wrCnt == i.wr.blen

def beat : Beat := ⟨i.wr.data q.wrCnt, i.wr.be q.wrCnt, wrCntDone q i⟩

/-- What the process `p_axi_write_fsm` drives. -/
structure Control where
  state : Fsm
  awValid : Bool
  wValid : Bool
  gnt : Bool
  cntEn : Bool
  cntClr : Bool
  deriving DecidableEq, Repr

/-- The process `p_axi_write_fsm`. -/
def fsm : Control :=
  let o : Control := ⟨q.wrState, false, false, false, false, false⟩
  match q.wrState with
  | .IDLE =>
      if i.wrReq then
        let o := { o with awValid := true, wValid := true }
        if i.wr.blen == 0 then
          let o := { o with cntClr := true, gnt := i.awReady && i.wReady }
          match i.awReady, i.wReady with
          | false, true => { o with state := .WAIT_AW_READY }
          | true, false => { o with state := .WAIT_LAST_W_READY }
          | _, _ => { o with state := .IDLE }
        else
          let o := { o with cntEn := i.wReady }
          match i.awReady, i.wReady with
          | true, true => { o with state := .WAIT_LAST_W_READY }
          | false, true => { o with state := .WAIT_LAST_W_READY_AW_READY }
          | true, false => { o with state := .WAIT_LAST_W_READY }
          | false, false => o
      else o
  | .WAIT_AW_READY | .WAIT_AW_READY_BURST =>
      let o := { o with awValid := true }
      if i.awReady then { o with state := .IDLE, gnt := true } else o
  | .WAIT_LAST_W_READY_AW_READY =>
      let o := { o with wValid := true, awValid := true }
      match i.awReady, i.wReady with
      | false, true =>
          if wrCntDone q i then { o with state := .WAIT_AW_READY_BURST, cntClr := true }
          else { o with cntEn := true }
      | true, false => { o with state := .WAIT_LAST_W_READY }
      | true, true =>
          if wrCntDone q i then { o with state := .IDLE, gnt := true, cntClr := true }
          else { o with state := .WAIT_LAST_W_READY, cntEn := true }
      | false, false => o
  | .WAIT_LAST_W_READY =>
      let o := { o with wValid := true }
      if wrCntDone q i then
        if i.wReady then { o with state := .IDLE, cntClr := true, gnt := true } else o
      else if i.wReady then { o with cntEn := true }
      else o

def next : Regs w where
  wrState := (fsm q i).state
  wrCnt :=
    if (fsm q i).cntClr then 0 else if (fsm q i).cntEn then q.wrCnt + 1 else q.wrCnt

def wrGnt : Bool := (fsm q i).gnt

/-! ## Handshakes -/

def awSent : List Aw := if (fsm q i).awValid && i.awReady then [aw i.wr] else []

def beatSent : List Beat := if (fsm q i).wValid && i.wReady then [beat q i] else []

def beats (r : Request w) : List Beat :=
  (List.range (r.blen.toNat + 1)).map fun k =>
    ⟨r.data (BitVec.ofNat w k), r.be (BitVec.ofNat w k), k == r.blen.toNat⟩

@[simp] theorem length_beats (r : Request w) : (beats r).length = r.blen.toNat + 1 := by
  simp [beats]

/-! ## Progress -/

def sent (r : Request w) : Nat :=
  match q.wrState with
  | .WAIT_AW_READY | .WAIT_AW_READY_BURST => r.blen.toNat + 1
  | .IDLE | .WAIT_LAST_W_READY | .WAIT_LAST_W_READY_AW_READY => q.wrCnt.toNat

def awsDone (r : Request w) : List Aw :=
  if q.wrState = .WAIT_LAST_W_READY then [aw r] else []

def beatsDone (r : Request w) : List Beat := (beats r).take (sent q r)

/-- The counter stands at a word of the request, and at the first one unless beats are sent. -/
def Fits (r : Request w) : Prop :=
  match q.wrState with
  | .IDLE | .WAIT_AW_READY | .WAIT_AW_READY_BURST => q.wrCnt = 0
  | .WAIT_LAST_W_READY | .WAIT_LAST_W_READY_AW_READY => q.wrCnt.toNat ≤ r.blen.toNat

theorem reset_fits (r : Request w) : Fits reset r := rfl

section Cycle

variable {q i}

theorem beatsDone_snoc (hle : q.wrCnt.toNat ≤ i.wr.blen.toNat) :
    (beats i.wr).take q.wrCnt.toNat ++ [beat q i] = (beats i.wr).take (q.wrCnt.toNat + 1) := by
  have hlt : q.wrCnt.toNat < (beats i.wr).length := by
    rw [length_beats]
    omega
  have hbeat : (beats i.wr)[q.wrCnt.toNat] = beat q i := by
    simp only [beats, List.getElem_map, List.getElem_range, beat, wrCntDone, BitVec.ofNat_toNat,
      BitVec.setWidth_eq]
    rw [Beat.mk.injEq]
    refine ⟨rfl, rfl, ?_⟩
    rw [Bool.eq_iff_iff, beq_iff_eq, beq_iff_eq, BitVec.toNat_inj]
  rw [← hbeat, List.take_append_getElem hlt]

theorem beats_full (r : Request w) : (beats r).take (r.blen.toNat + 1) = beats r := by
  rw [← length_beats, List.take_length]

theorem wrCntDone_iff : wrCntDone q i = true ↔ q.wrCnt.toNat = i.wr.blen.toNat := by
  rw [wrCntDone, beq_iff_eq, BitVec.toNat_inj]

theorem wrCnt_succ (hle : q.wrCnt.toNat ≤ i.wr.blen.toNat) (hd : wrCntDone q i = false) :
    q.wrCnt.toNat + 1 ≤ i.wr.blen.toNat ∧ (q.wrCnt + 1#w).toNat = q.wrCnt.toNat + 1 := by
  have hne : q.wrCnt.toNat ≠ i.wr.blen.toNat := by
    rw [ne_eq, ← wrCntDone_iff, hd]
    exact Bool.false_ne_true
  have hblen := i.wr.blen.isLt
  refine ⟨by omega, ?_⟩
  rw [BitVec.toNat_add, BitVec.toNat_ofNat, Nat.add_mod_mod, Nat.mod_eq_of_lt (by omega)]

/-- A cycle with a request transfers what comes next; it is granted in the cycle that transfers
the rest of it. -/
structure Cycle (q : Regs w) (i : Input w) : Prop where
  granted : wrGnt q i = true → awsDone q i.wr ++ awSent q i = [aw i.wr] ∧
    beatsDone q i.wr ++ beatSent q i = beats i.wr ∧ next q i = reset
  waiting : wrGnt q i = false → Fits (next q i) i.wr ∧
    awsDone q i.wr ++ awSent q i = awsDone (next q i) i.wr ∧
    beatsDone q i.wr ++ beatSent q i = beatsDone (next q i) i.wr

theorem cycle_idle (hstate : q.wrState = .IDLE) (h : Fits q i.wr) (hreq : i.wrReq = true) :
    Cycle q i := by
  obtain ⟨st, cnt⟩ := q
  obtain rfl : st = .IDLE := hstate
  have hzero : cnt = 0#w := h
  have hcnt : cnt.toNat = 0 := by rw [hzero]; rfl
  have hle : cnt.toNat ≤ i.wr.blen.toNat := hcnt.le.trans (Nat.zero_le _)
  have hsnoc := beatsDone_snoc (q := (⟨.IDLE, cnt⟩ : Regs w)) (i := i) hle
  simp only [hcnt, Nat.zero_add, List.take_zero, List.nil_append] at hsnoc
  by_cases hb : i.wr.blen = 0#w
  · have hblen : i.wr.blen.toNat = 0 := by rw [hb]; rfl
    have hfull := beats_full i.wr
    rw [hblen] at hfull
    cases ha : i.awReady <;> cases hw : i.wReady <;> constructor <;>
      simp [wrGnt, fsm, hreq, hb, ha, hw, awsDone, awSent, beatsDone, beatSent, next, reset, sent,
        Fits, hcnt, hsnoc, hfull]
  · have hd : wrCntDone (⟨.IDLE, cnt⟩ : Regs w) i = false := by
      rw [wrCntDone, hzero]
      exact beq_false_of_ne (Ne.symm hb)
    obtain ⟨hlt, hsucc⟩ := wrCnt_succ hle hd
    simp only [hcnt, Nat.zero_add] at hsucc hlt
    cases ha : i.awReady <;> cases hw : i.wReady <;> constructor <;>
      simp [-BitVec.toNat_add, wrGnt, fsm, hreq, hb, ha, hw, awsDone, awSent, beatsDone, beatSent,
        next, sent, Fits, hcnt, hsnoc, hsucc, hlt]
    exact hzero

theorem cycle_waitAw (hstate : q.wrState = .WAIT_AW_READY ∨ q.wrState = .WAIT_AW_READY_BURST)
    (h : Fits q i.wr) : Cycle q i := by
  obtain ⟨st, cnt⟩ := q
  have hfull := beats_full i.wr
  have hzero : cnt = 0#w := by rcases hstate with rfl | rfl <;> exact h
  rcases hstate with rfl | rfl <;> cases ha : i.awReady <;> constructor <;>
    simp [wrGnt, fsm, ha, awsDone, awSent, beatsDone, beatSent, next, reset, sent, Fits, hzero,
      hfull]

theorem cycle_waitW (hstate : q.wrState = .WAIT_LAST_W_READY) (h : Fits q i.wr) :
    Cycle q i := by
  obtain ⟨st, cnt⟩ := q
  obtain rfl : st = .WAIT_LAST_W_READY := hstate
  have hle : cnt.toNat ≤ i.wr.blen.toNat := h
  have hsnoc := beatsDone_snoc (q := (⟨.WAIT_LAST_W_READY, cnt⟩ : Regs w)) (i := i) hle
  cases hd : wrCntDone (⟨.WAIT_LAST_W_READY, cnt⟩ : Regs w) i with
  | false =>
      obtain ⟨hlt, hsucc⟩ := wrCnt_succ hle hd
      simp only at hlt hsucc hsnoc
      cases hw : i.wReady <;> constructor <;>
        simp [-BitVec.toNat_add, wrGnt, fsm, hw, hd, awsDone, awSent, beatsDone, beatSent, next,
          sent, Fits, hle, hlt, hsucc, hsnoc]
  | true =>
      have heq : cnt.toNat = i.wr.blen.toNat := wrCntDone_iff.mp hd
      simp only [heq, beats_full] at hsnoc
      cases hw : i.wReady <;> constructor <;>
        simp [wrGnt, fsm, hw, hd, awsDone, awSent, beatsDone, beatSent, next, reset, sent, Fits,
          heq, hsnoc]

theorem cycle_waitBoth (hstate : q.wrState = .WAIT_LAST_W_READY_AW_READY) (h : Fits q i.wr) :
    Cycle q i := by
  obtain ⟨st, cnt⟩ := q
  obtain rfl : st = .WAIT_LAST_W_READY_AW_READY := hstate
  have hle : cnt.toNat ≤ i.wr.blen.toNat := h
  have hsnoc := beatsDone_snoc (q := (⟨.WAIT_LAST_W_READY_AW_READY, cnt⟩ : Regs w)) (i := i) hle
  cases hd : wrCntDone (⟨.WAIT_LAST_W_READY_AW_READY, cnt⟩ : Regs w) i with
  | false =>
      obtain ⟨hlt, hsucc⟩ := wrCnt_succ hle hd
      simp only at hlt hsucc hsnoc
      cases ha : i.awReady <;> cases hw : i.wReady <;> constructor <;>
        simp [-BitVec.toNat_add, wrGnt, fsm, ha, hw, hd, awsDone, awSent, beatsDone, beatSent, next,
          sent, Fits, hle, hlt, hsucc, hsnoc]
  | true =>
      have heq : cnt.toNat = i.wr.blen.toNat := wrCntDone_iff.mp hd
      have hfull := beats_full i.wr
      simp only [heq, hfull] at hsnoc
      cases ha : i.awReady <;> cases hw : i.wReady <;> constructor <;>
        simp [wrGnt, fsm, ha, hw, hd, awsDone, awSent, beatsDone, beatSent, next, reset, sent, Fits,
          heq, hsnoc, hfull]

theorem cycle (h : Fits q i.wr) (hreq : i.wrReq = true) : Cycle q i := by
  cases hstate : q.wrState with
  | IDLE => exact cycle_idle hstate h hreq
  | WAIT_AW_READY => exact cycle_waitAw (.inl hstate) h
  | WAIT_AW_READY_BURST => exact cycle_waitAw (.inr hstate) h
  | WAIT_LAST_W_READY => exact cycle_waitW hstate h
  | WAIT_LAST_W_READY_AW_READY => exact cycle_waitBoth hstate h

end Cycle

/-! ## Held offers -/

section Offers

variable {q i}

theorem awValid_eq : (fsm q i).awValid = match q.wrState with
    | .IDLE => i.wrReq
    | .WAIT_LAST_W_READY => false
    | .WAIT_AW_READY | .WAIT_AW_READY_BURST | .WAIT_LAST_W_READY_AW_READY => true := by
  cases hs : q.wrState <;> simp only [fsm, hs] <;> split_ifs <;> (try split) <;> simp_all

theorem wValid_eq : (fsm q i).wValid = match q.wrState with
    | .IDLE => i.wrReq
    | .WAIT_LAST_W_READY | .WAIT_LAST_W_READY_AW_READY => true
    | .WAIT_AW_READY | .WAIT_AW_READY_BURST => false := by
  cases hs : q.wrState <;> simp only [fsm, hs] <;> split_ifs <;> (try split) <;> simp_all

theorem aw_held (hv : (fsm q i).awValid = true) (hr : i.awReady = false) :
    wrGnt q i = false ∧ (next q i).wrState ≠ .WAIT_LAST_W_READY := by
  rw [awValid_eq] at hv
  cases hs : q.wrState <;> simp only [hs, Bool.false_eq_true] at hv <;> cases hw : i.wReady <;>
    simp [wrGnt, next, fsm, hs, hv, hr, hw] <;> split_ifs <;> simp

theorem w_held (h : Fits q i.wr) (hv : (fsm q i).wValid = true) (hr : i.wReady = false) :
    wrGnt q i = false ∧ (next q i).wrCnt = q.wrCnt ∧
      ((next q i).wrState = .IDLE ∨ (next q i).wrState = .WAIT_LAST_W_READY ∨
        (next q i).wrState = .WAIT_LAST_W_READY_AW_READY) := by
  rw [wValid_eq] at hv
  unfold Fits at h
  cases hs : q.wrState <;> simp only [hs, Bool.false_eq_true] at hv h <;> cases ha : i.awReady <;>
    simp [wrGnt, next, fsm, hs, hv, hr, ha, h] <;> split_ifs <;> simp

end Offers

/-! ## Runs -/

/-- The shim and the request that was offered in the cycle before and not granted. -/
structure Tracked (w : Nat) where
  hw : Regs w
  held : Option (Request w)

def shim (w : Nat) : Machine (Tracked w) (Input w) where
  init := ⟨reset, none⟩
  next t i := ⟨next t.hw i, if i.wrReq && !wrGnt t.hw i then some i.wr else none⟩

/-- The requester holds what is not granted. -/
def Stable (t : Tracked w) (i : Input w) : Prop :=
  ∀ r, t.held = some r → i.wrReq = true ∧ i.wr = r

def granted (t : Tracked w) (i : Input w) : List (Request w) :=
  if wrGnt t.hw i then [i.wr] else []

structure Inv (t : Tracked w) : Prop where
  idle : t.held = none → t.hw = reset
  fits : ∀ r, t.held = some r → Fits t.hw r

/-- A request that is not granted is transferred up to some point, and not to the end. -/
def InProgress (held : Option (Request w)) (aws : List Aw) (ws : List Beat) : Prop :=
  match held with
  | none => aws = [] ∧ ws = []
  | some r => aws <+: [aw r] ∧ ws <+: beats r ∧ ¬(aws = [aw r] ∧ ws = beats r)

section Run

variable {t : Tracked w} {i j : Input w}

theorem Inv.fits_of_req (h : Inv t) (hi : Stable t i) : Fits t.hw i.wr := by
  cases hh : t.held with
  | none =>
      rw [h.idle hh]
      exact reset_fits _
  | some r =>
      rw [(hi r hh).2]
      exact h.fits r hh

theorem Inv.of_no_req (h : Inv t) (hi : Stable t i) (hreq : i.wrReq = false) :
    t.held = none ∧ wrGnt t.hw i = false ∧ next t.hw i = reset ∧ awSent t.hw i = [] ∧
      beatSent t.hw i = [] := by
  have hnone : t.held = none := by
    cases hh : t.held with
    | none => rfl
    | some r => exact Bool.noConfusion (hreq.symm.trans (hi r hh).1)
  refine ⟨hnone, ?_⟩
  rw [h.idle hnone]
  simp [wrGnt, next, awSent, beatSent, fsm, reset, hreq]

theorem Inv.next (h : Inv t) (hi : Stable t i) : Inv ((shim w).next t i) := by
  cases hreq : i.wrReq with
  | false =>
      obtain ⟨-, -, hnext, -⟩ := h.of_no_req hi hreq
      refine ⟨fun _ => hnext, fun r hr => ?_⟩
      simp [shim, hreq] at hr
  | true =>
      have hc := cycle (h.fits_of_req hi) hreq
      cases hg : wrGnt t.hw i with
      | true =>
          refine ⟨fun _ => (hc.granted hg).2.2, fun r hr => ?_⟩
          simp [shim, hg] at hr
      | false =>
          refine ⟨fun hn => ?_, fun r hr => ?_⟩
          · simp [shim, hreq, hg] at hn
          · obtain rfl : i.wr = r := by simpa [shim, hreq, hg] using hr
            exact (hc.waiting hg).1

theorem run_inv (ins : List (Input w)) (h : (shim w).Throughout Stable ins) :
    Inv ((shim w).run ins) :=
  Machine.invariant (I := Inv) ⟨fun _ => rfl, fun _ hr => absurd hr (by simp [shim])⟩
    (fun _ _ hinv hi => hinv.next hi) ins h

def heldAws (t : Tracked w) : List Aw := (t.held.map (awsDone t.hw)).getD []

def heldBeats (t : Tracked w) : List Beat := (t.held.map (beatsDone t.hw)).getD []

theorem Inv.inProgress (h : Inv t) : InProgress t.held (heldAws t) (heldBeats t) := by
  unfold InProgress heldAws heldBeats
  cases hh : t.held with
  | none => exact ⟨rfl, rfl⟩
  | some r =>
      refine ⟨?_, List.take_prefix _ _, ?_⟩
      · show awsDone t.hw r <+: [aw r]
        unfold awsDone
        split_ifs
        · exact List.prefix_refl _
        · exact List.nil_prefix
      · rintro ⟨haw, hw⟩
        have hfits := h.fits r hh
        have hstate : t.hw.wrState = .WAIT_LAST_W_READY := by
          by_contra hne
          simp [awsDone, hne] at haw
        have hlen := congrArg List.length hw
        simp only [Option.map_some, Option.getD_some, beatsDone, sent, hstate, List.length_take,
          length_beats] at hlen
        simp only [Fits, hstate] at hfits
        omega

theorem Inv.held_eq (h : Inv t) (hi : Stable t i) : heldAws t = awsDone t.hw i.wr ∧
    heldBeats t = beatsDone t.hw i.wr := by
  unfold heldAws heldBeats
  cases hh : t.held with
  | none =>
      rw [h.idle hh]
      exact ⟨rfl, rfl⟩
  | some r =>
      rw [(hi r hh).2]
      exact ⟨rfl, rfl⟩

/-- A cycle extends what is transferred; what is transferred to the end is granted. -/
theorem Inv.transfer (h : Inv t) (hi : Stable t i) :
    heldAws t ++ awSent t.hw i = (granted t i).map aw ++ heldAws ((shim w).next t i) ∧
      heldBeats t ++ beatSent t.hw i =
        (granted t i).flatMap beats ++ heldBeats ((shim w).next t i) := by
  obtain ⟨haws, hbeats⟩ := h.held_eq hi
  cases hreq : i.wrReq with
  | false =>
      obtain ⟨hnone, hg, -, haw, hw⟩ := h.of_no_req hi hreq
      simp [heldAws, heldBeats, granted, hnone, hg, haw, hw, shim, hreq]
  | true =>
      have hc := cycle (h.fits_of_req hi) hreq
      rw [haws, hbeats]
      cases hg : wrGnt t.hw i with
      | true =>
          obtain ⟨haw, hw, -⟩ := hc.granted hg
          simp [heldAws, heldBeats, granted, hg, haw, hw, shim]
      | false =>
          obtain ⟨-, haw, hw⟩ := hc.waiting hg
          simp [heldAws, heldBeats, granted, hg, haw, hw, shim, hreq]

/-- What is offered and not taken is offered in the next cycle as well. -/
def Holds (t : Tracked w) (i j : Input w) : Prop :=
  let n := next t.hw i
  ((fsm t.hw i).awValid = true → i.awReady = false →
      (fsm n j).awValid = true ∧ aw j.wr = aw i.wr) ∧
    ((fsm t.hw i).wValid = true → i.wReady = false →
      (fsm n j).wValid = true ∧ beat n j = beat t.hw i)

theorem Inv.wrReq_of_valid (h : Inv t) (hi : Stable t i)
    (hv : (fsm t.hw i).awValid = true ∨ (fsm t.hw i).wValid = true) : i.wrReq = true := by
  by_contra hne
  obtain ⟨hnone, -⟩ := h.of_no_req hi (Bool.not_eq_true _ ▸ hne)
  rw [h.idle hnone] at hv
  simp [fsm, reset, hne] at hv

theorem Inv.holds (h : Inv t) (hi : Stable t i) (hj : Stable ((shim w).next t i) j) :
    Holds t i j := by
  have hkeeps (hreq : i.wrReq = true) (hg : wrGnt t.hw i = false) :
      j.wrReq = true ∧ j.wr = i.wr := hj i.wr (by simp [shim, hreq, hg])
  constructor
  · intro hv hr
    obtain ⟨hg, hstate⟩ := aw_held hv hr
    obtain ⟨hreq, hwr⟩ := hkeeps (h.wrReq_of_valid hi (.inl hv)) hg
    rw [awValid_eq, hwr, hreq]
    refine ⟨?_, rfl⟩
    cases hs : (Shim.next t.hw i).wrState with
    | WAIT_LAST_W_READY => exact absurd hs hstate
    | _ => rfl
  · intro hv hr
    have hreq := h.wrReq_of_valid hi (.inr hv)
    obtain ⟨hg, hcnt, hstate⟩ := w_held (h.fits_of_req hi) hv hr
    obtain ⟨hreq, hwr⟩ := hkeeps hreq hg
    rw [wValid_eq, hreq]
    refine ⟨?_, ?_⟩
    · rcases hstate with hs | hs | hs <;> rw [hs]
    · rw [beat, beat, wrCntDone, wrCntDone, hcnt, hwr]

/-- The grant comes in the cycle that completes the transfers of the request. -/
theorem Inv.wrGnt_iff (h : Inv t) (hi : Stable t i) :
    wrGnt t.hw i = true ↔ i.wrReq = true ∧ heldAws t ++ awSent t.hw i = [aw i.wr] ∧
      heldBeats t ++ beatSent t.hw i = beats i.wr := by
  constructor
  · intro hg
    have hreq : i.wrReq = true := by
      by_contra hne
      obtain ⟨-, hno, -⟩ := h.of_no_req hi (Bool.not_eq_true _ ▸ hne)
      exact Bool.noConfusion (hno.symm.trans hg)
    obtain ⟨haw, hw, -⟩ := (cycle (h.fits_of_req hi) hreq).granted hg
    obtain ⟨haws, hbeats⟩ := h.held_eq hi
    rw [haws, hbeats]
    exact ⟨hreq, haw, hw⟩
  · rintro ⟨hreq, haw, hw⟩
    by_contra hne
    have hg : wrGnt t.hw i = false := Bool.not_eq_true _ ▸ hne
    obtain ⟨haw', hw'⟩ := h.transfer hi
    have hprogress := (h.next hi).inProgress
    have hheld : ((shim w).next t i).held = some i.wr := by simp [shim, hreq, hg]
    rw [hheld] at hprogress
    refine hprogress.2.2 ⟨?_, ?_⟩
    · rw [← haw, haw']
      simp [granted, hg]
    · rw [← hw, hw']
      simp [granted, hg]

end Run

/-- In every run with a requester that holds its requests, the addresses and the beats that are
transferred are those of the granted requests, in order, and of the request in progress; the
grant comes with the last transfer of a request, and an offer is held until it is taken. -/
theorem writes_exact (ins : List (Input w)) (h : (shim w).Throughout Stable ins) :
    ∃ aws ws,
      (shim w).log (fun t i => awSent t.hw i) ins = ((shim w).log granted ins).map aw ++ aws ∧
      (shim w).log (fun t i => beatSent t.hw i) ins =
        ((shim w).log granted ins).flatMap beats ++ ws ∧
      InProgress ((shim w).run ins).held aws ws ∧
      ∀ i, Stable ((shim w).run ins) i →
        (wrGnt ((shim w).run ins).hw i = true ↔
          i.wrReq = true ∧ aws ++ awSent ((shim w).run ins).hw i = [aw i.wr] ∧
            ws ++ beatSent ((shim w).run ins).hw i = beats i.wr) ∧
        ∀ j, Stable ((shim w).run (ins ++ [i])) j → Holds ((shim w).run ins) i j := by
  have hinv := run_inv ins h
  refine ⟨heldAws ((shim w).run ins), heldBeats ((shim w).run ins), ?_, ?_, hinv.inProgress, ?_⟩
  · refine Machine.run_induction (E := Stable) (P := fun ins =>
      (shim w).log (fun t i => awSent t.hw i) ins =
        ((shim w).log granted ins).map aw ++ heldAws ((shim w).run ins)) rfl ?_ ins h
    intro ins i hins ih hi
    have htransfer := ((run_inv ins hins).transfer hi).1
    rw [Machine.log_snoc, Machine.log_snoc, ih, Machine.run_snoc, List.append_assoc, htransfer,
      List.map_append, List.append_assoc]
  · refine Machine.run_induction (E := Stable) (P := fun ins =>
      (shim w).log (fun t i => beatSent t.hw i) ins =
        ((shim w).log granted ins).flatMap beats ++ heldBeats ((shim w).run ins)) rfl ?_ ins h
    intro ins i hins ih hi
    have htransfer := ((run_inv ins hins).transfer hi).2
    rw [Machine.log_snoc, Machine.log_snoc, ih, Machine.run_snoc, List.append_assoc, htransfer,
      List.flatMap_append, List.append_assoc]
  · intro i hi
    refine ⟨hinv.wrGnt_iff hi, fun j hj => hinv.holds hi ?_⟩
    rwa [Machine.run_snoc] at hj

theorem stable_of_const (r : Request w) (ins : List (Input w))
    (h : ∀ i ∈ ins, i.wrReq = true ∧ i.wr = r) : (shim w).Throughout Stable ins := by
  have hheld (pre : List (Input w)) (hpre : ∀ i ∈ pre, i.wrReq = true ∧ i.wr = r) :
      ∀ r', ((shim w).run pre).held = some r' → r' = r := by
    induction pre using List.reverseRecOn with
    | nil => exact fun _ hn => absurd hn (by simp [shim])
    | append_singleton pre i _ =>
        intro r' hr
        rw [Machine.run_snoc] at hr
        have hi := hpre i (by simp)
        change (if i.wrReq && !wrGnt ((shim w).run pre).hw i then some i.wr else none) = some r' at hr
        obtain ⟨-, heq⟩ := Option.ite_none_right_eq_some.mp hr
        exact (Option.some.inj heq).symm.trans hi.2
  rintro pre i post rfl r' hr
  have hr' := hheld pre (fun j hj => h j (List.mem_append_left _ hj)) r' hr
  rw [hr']
  exact h i (by simp)

def threeWords : Request 2 :=
  ⟨0x80000000, fun n => n.setWidth 64, fun _ => 0xff, 2, 3, 1, false, 0⟩

/-- All words are taken before the address. -/
def dataFirst : List (Input 2) :=
  [⟨true, threeWords, false, true⟩, ⟨true, threeWords, false, true⟩,
    ⟨true, threeWords, false, true⟩, ⟨true, threeWords, true, false⟩]

theorem writes_exact_dataFirst : ((shim 2).log granted dataFirst).length = 1 ∧
    ((shim 2).log (fun t i => beatSent t.hw i) dataFirst).length = 3 ∧
    ∃ aws ws, (shim 2).log (fun t i => awSent t.hw i) dataFirst =
        ((shim 2).log granted dataFirst).map aw ++ aws ∧
      (shim 2).log (fun t i => beatSent t.hw i) dataFirst =
        ((shim 2).log granted dataFirst).flatMap beats ++ ws ∧
      InProgress ((shim 2).run dataFirst).held aws ws := by
  obtain ⟨aws, ws, haw, hw, hprogress, -⟩ := writes_exact dataFirst
    (stable_of_const threeWords dataFirst (by simp [dataFirst]))
  exact ⟨by decide, by decide, aws, ws, haw, hw, hprogress⟩

/-! ## Single transfers -/

def ofWrState : WrState → Fsm
  | .IDLE => .IDLE
  | .WAIT_AW_READY => .WAIT_AW_READY
  | .WAIT_LAST_W_READY => .WAIT_LAST_W_READY

/-- The write channel of the adapter is the shim with requests of one beat. -/
theorem next_of_single {q : Axi.Regs} {a : Axi.Input} {i : Input w} (hreq : i.wrReq = Axi.wrReq q)
    (hblen : i.wr.blen = 0#w) (haw : i.awReady = a.axi.awReady) (hw : i.wReady = a.axi.wReady) :
    next ⟨ofWrState q.wrState, 0⟩ i = ⟨ofWrState (wrStateD q a), 0⟩ ∧
      wrGnt ⟨ofWrState q.wrState, 0⟩ i = Axi.wrGnt q a := by
  unfold next wrGnt wrStateD Axi.wrGnt
  rw [← hreq, ← haw, ← hw]
  cases q.wrState <;> cases hr : i.wrReq <;> cases ha : i.awReady <;> cases hd : i.wReady <;>
    simp [fsm, ofWrState, wrCntDone, hblen, hr, ha, hd]

end Cva6.Axi.Shim
