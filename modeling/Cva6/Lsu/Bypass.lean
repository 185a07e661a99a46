import Cva6.Lsu.Types
import Cva6.Sync.Ring
import Cva6.Sync.Schedule
/-!
# The request queue in front of the load and the store unit

`lsu_bypass` of `load_store_unit.sv`: two slots that hold the requests the units have
not popped yet. A request that arrives while the queue is empty is shown to the units
in the same cycle, and is stored as well in case they do not take it.
-/

namespace Cva6.Lsu.Bypass

open Cva6.Sync

abbrev Pointer := BitVec 1

structure Regs where
  mem : Pointer → LsuCtrl
  readPointer : Pointer
  writePointer : Pointer
  statusCnt : BitVec 2

def reset : Regs := ⟨fun _ => default, 0, 0, 0⟩

structure Input where
  flush : Bool
  /-- `lsu_req_i`, which holds a request when its `valid` bit is set. -/
  lsuReq : LsuCtrl
  popLd : Bool
  popSt : Bool

variable (q : Regs) (i : Input)

def empty : Bool := q.statusCnt == 0

def ready : Bool := empty q

def lsuCtrl (lsuReq : LsuCtrl) : LsuCtrl := if empty q then lsuReq else q.mem q.readPointer

def push (q : Regs) (r : LsuCtrl) : Regs :=
  { q with
    mem := Function.update q.mem q.writePointer r
    writePointer := q.writePointer + 1
    statusCnt := q.statusCnt + 1 }

/-- Invalidate the slot that was at the read pointer before this cycle. -/
def pop (slot : Pointer) (q : Regs) : Regs :=
  { q with
    mem := Function.update q.mem slot { q.mem slot with valid := false }
    readPointer := q.readPointer + 1
    statusCnt := q.statusCnt - 1 }

def next : Regs :=
  let n := if i.lsuReq.valid then push q i.lsuReq else q
  let n := if i.popLd then pop q.readPointer n else n
  let n := if i.popSt then pop q.readPointer n else n
  let n := if i.popSt && i.popLd then { n with mem := fun _ => default } else n
  if i.flush then reset else n

/-! ## The queue as a list -/

/-- The counter and the pointers describe one window, and every request in it is
valid. -/
structure Ok (q : Regs) : Prop where
  le : q.statusCnt.toNat ≤ 2
  writePointer_eq : q.writePointer = Ring.slot q.readPointer q.statusCnt.toNat
  valid : ∀ n, Ring.InWindow q.readPointer q.statusCnt.toNat n → (q.mem n).valid = true

def contents (q : Regs) : List LsuCtrl := Ring.window q.mem q.readPointer q.statusCnt.toNat

@[simp] theorem length_contents (q : Regs) : (contents q).length = q.statusCnt.toNat := by
  simp [contents]

theorem reset_ok : Ok reset where
  le := by decide
  writePointer_eq := by simp [reset]
  valid := by simp [reset]

theorem reset_contents : contents reset = [] := rfl

variable {q : Regs}

theorem empty_iff : empty q = true ↔ contents q = [] := by
  rw [← List.length_eq_zero_iff, length_contents, empty, beq_iff_eq, ← BitVec.toNat_inj]
  rfl

theorem push_statusCnt (hlt : q.statusCnt.toNat < 2) (r : LsuCtrl) :
    (push q r).statusCnt.toNat = q.statusCnt.toNat + 1 := by
  show (q.statusCnt + 1).toNat = _
  rw [BitVec.toNat_add]
  simp
  omega

theorem push_ok (h : Ok q) (hlt : q.statusCnt.toNat < 2) {r : LsuCtrl} (hr : r.valid = true) :
    Ok (push q r) where
  le := by rw [push_statusCnt hlt]; omega
  writePointer_eq := by
    rw [push_statusCnt hlt]
    show q.writePointer + 1 = Ring.slot q.readPointer _
    rw [Ring.slot_succ_right, ← h.writePointer_eq]
  valid := by
    intro n hn
    rw [push_statusCnt hlt] at hn
    show (Function.update q.mem q.writePointer r n).valid = true
    rcases Ring.inWindow_snoc.mp hn with hn | hn
    · by_cases heq : n = q.writePointer
      · rw [heq, Function.update_self]
        exact hr
      · rw [Function.update_of_ne heq]
        exact h.valid n hn
    · have heq : n = q.writePointer := hn.trans h.writePointer_eq.symm
      rw [heq, Function.update_self]
      exact hr

theorem push_contents (h : Ok q) (hlt : q.statusCnt.toNat < 2) (r : LsuCtrl) :
    contents (push q r) = contents q ++ [r] := by
  have hfresh : ¬Ring.InWindow q.readPointer q.statusCnt.toNat q.writePointer := by
    rw [h.writePointer_eq]
    exact Ring.slot_not_inWindow (by omega)
  rw [contents, push_statusCnt hlt]
  show Ring.window (Function.update q.mem q.writePointer r) q.readPointer _ = _
  rw [Ring.window_snoc, ← h.writePointer_eq, Function.update_self, contents]
  congr 1
  apply Ring.window_congr
  intro n hn
  apply Function.update_of_ne
  rintro rfl
  exact hfresh hn

theorem pop_statusCnt (hpos : 0 < q.statusCnt.toNat) (slot : Pointer) :
    (pop slot q).statusCnt.toNat = q.statusCnt.toNat - 1 := by
  show (q.statusCnt - 1).toNat = _
  rw [BitVec.toNat_sub]
  have := q.statusCnt.isLt
  simp
  omega

theorem contents_eq_cons (h : Ok q) (hpos : 0 < q.statusCnt.toNat) :
    contents q = q.mem q.readPointer :: contents (pop q.readPointer q) := by
  obtain ⟨k, hk⟩ : ∃ k, q.statusCnt.toNat = k + 1 := ⟨_, (Nat.succ_pred_eq_of_pos hpos).symm⟩
  have hle := h.le
  rw [contents, contents, pop_statusCnt hpos, hk, Ring.window_cons, Nat.add_sub_cancel]
  show _ :: _ = q.mem q.readPointer ::
    Ring.window (Function.update q.mem q.readPointer _) (q.readPointer + 1) k
  congr 1
  apply Ring.window_congr
  intro n hn
  refine (Function.update_of_ne ?_ _ _).symm
  rintro rfl
  exact Ring.head_not_inWindow (by omega) hn

theorem pop_ok (h : Ok q) (hpos : 0 < q.statusCnt.toNat) : Ok (pop q.readPointer q) where
  le := by
    rw [pop_statusCnt hpos]
    have := h.le
    omega
  writePointer_eq := by
    rw [pop_statusCnt hpos]
    show q.writePointer = Ring.slot (q.readPointer + 1) _
    rw [← Ring.slot_succ, Nat.sub_add_cancel hpos]
    exact h.writePointer_eq
  valid := by
    intro n hn
    rw [pop_statusCnt hpos] at hn
    have hle := h.le
    obtain ⟨k, hk⟩ : ∃ k, q.statusCnt.toNat = k + 1 := ⟨_, (Nat.succ_pred_eq_of_pos hpos).symm⟩
    rw [hk, Nat.add_sub_cancel] at hn
    show (Function.update q.mem q.readPointer _ n).valid = true
    rw [Function.update_of_ne]
    · apply h.valid
      rw [hk, Ring.inWindow_cons]
      exact .inr hn
    · rintro rfl
      exact Ring.head_not_inWindow (by omega) hn

/-- The request shown to the units is the oldest one, stored or arriving. -/
theorem lsuCtrl_eq (h : Ok q) {r : LsuCtrl} :
    lsuCtrl q r = ((contents q).head?).getD r := by
  unfold lsuCtrl
  cases he : empty q with
  | true =>
      rw [if_pos rfl, empty_iff.mp he]
      rfl
  | false =>
      have hpos : 0 < q.statusCnt.toNat := by
        rw [← length_contents, List.length_pos_iff]
        intro hnil
        rw [empty_iff.mpr hnil] at he
        exact Bool.false_ne_true he.symm
      rw [contents_eq_cons h hpos]
      rfl

/-- A request that arrives finds room, what is popped is there, and only one of the units
pops. -/
structure Legal (q : Regs) (i : Input) : Prop where
  room : i.lsuReq.valid = true → q.statusCnt.toNat < 2
  one : ¬(i.popLd = true ∧ i.popSt = true)
  here : (i.popLd || i.popSt) = true → i.lsuReq.valid = true ∨ 0 < q.statusCnt.toNat

/-- One clock edge: the arriving request is appended and the oldest one leaves when it is
popped. -/
theorem next_spec {i : Input} (h : Ok q) (hl : Legal q i) :
    Ok (next q i) ∧ contents (next q i) =
      if i.flush then []
      else
        let all := contents q ++ (if i.lsuReq.valid then [i.lsuReq] else [])
        if i.popLd || i.popSt then all.tail else all := by
  unfold next
  cases i.flush with
  | true => exact ⟨reset_ok, reset_contents⟩
  | false =>
      have hpushed : Ok (if i.lsuReq.valid then push q i.lsuReq else q) ∧
          contents (if i.lsuReq.valid then push q i.lsuReq else q) =
            contents q ++ (if i.lsuReq.valid then [i.lsuReq] else []) ∧
          (if i.lsuReq.valid then push q i.lsuReq else q).readPointer = q.readPointer := by
        cases hv : i.lsuReq.valid with
        | true => exact ⟨push_ok h (hl.room hv) hv, push_contents h (hl.room hv) _, rfl⟩
        | false => exact ⟨h, (List.append_nil _).symm, rfl⟩
      obtain ⟨hok, hcontents, hread⟩ := hpushed
      have hone := hl.one
      have hpos : (i.popLd || i.popSt) = true →
          0 < (if i.lsuReq.valid then push q i.lsuReq else q).statusCnt.toNat := by
        intro hp
        rw [← length_contents, hcontents, List.length_append, length_contents]
        rcases hl.here hp with hv | hv
        · simp [hv]
        · omega
      have htail := fun hp => contents_eq_cons hok (hpos hp)
      simp only [← hread, ← hcontents]
      generalize (if i.lsuReq.valid then push q i.lsuReq else q) = n at *
      cases hld : i.popLd with
      | true =>
          have hst : i.popSt = false := Bool.eq_false_iff.mpr fun hst => hone ⟨hld, hst⟩
          simp only [hld, Bool.true_or, forall_true_left] at hpos htail
          simp only [hst, Bool.or_false, Bool.false_and, Bool.false_eq_true, if_false, if_true]
          exact ⟨pop_ok hok hpos, by rw [htail]; rfl⟩
      | false =>
          cases hst : i.popSt with
          | true =>
              simp only [hst, Bool.or_true, forall_true_left] at hpos htail
              simp only [Bool.false_or, Bool.and_false, Bool.false_eq_true, if_false, if_true]
              exact ⟨pop_ok hok hpos, by rw [htail]; rfl⟩
          | false =>
              exact ⟨by simpa using hok, by simp⟩

/-! ## Valid slots -/

def Exact (q : Regs) : Prop :=
  ∀ n, (q.mem n).valid = true → Ring.InWindow q.readPointer q.statusCnt.toNat n

theorem reset_exact : Exact reset := by
  intro n hn
  exact absurd hn Bool.false_ne_true

theorem push_exact (h : Ok q) (he : Exact q) (hlt : q.statusCnt.toNat < 2) (r : LsuCtrl) :
    Exact (push q r) := by
  intro n hn
  rw [push_statusCnt hlt]
  apply Ring.inWindow_snoc.mpr
  by_cases heq : n = q.writePointer
  · exact .inr (heq.trans h.writePointer_eq)
  · change (Function.update q.mem q.writePointer r n).valid = true at hn
    rw [Function.update_of_ne heq] at hn
    exact .inl (he n hn)

theorem pop_exact (he : Exact q) (hpos : 0 < q.statusCnt.toNat) :
    Exact (pop q.readPointer q) := by
  intro n hn
  rw [pop_statusCnt hpos]
  obtain ⟨k, hk⟩ : ∃ k, q.statusCnt.toNat = k + 1 := ⟨_, (Nat.succ_pred_eq_of_pos hpos).symm⟩
  change (Function.update q.mem q.readPointer _ n).valid = true at hn
  by_cases heq : n = q.readPointer
  · rw [heq, Function.update_self] at hn
    exact absurd hn Bool.false_ne_true
  · rw [Function.update_of_ne heq] at hn
    have hin := he n hn
    rw [hk, Ring.inWindow_cons] at hin
    rw [hk, Nat.add_sub_cancel]
    exact hin.resolve_left heq

theorem next_exact {i : Input} (h : Ok q) (he : Exact q) (hl : Legal q i) : Exact (next q i) := by
  unfold next
  cases i.flush with
  | true => exact reset_exact
  | false =>
      have hpushed : Exact (if i.lsuReq.valid then push q i.lsuReq else q) ∧
          (if i.lsuReq.valid then push q i.lsuReq else q).readPointer = q.readPointer ∧
          ((i.popLd || i.popSt) = true →
            0 < (if i.lsuReq.valid then push q i.lsuReq else q).statusCnt.toNat) := by
        cases hv : i.lsuReq.valid with
        | true =>
            refine ⟨push_exact h he (hl.room hv) _, rfl, fun _ => ?_⟩
            rw [if_pos rfl, push_statusCnt (hl.room hv)]
            omega
        | false =>
            refine ⟨he, rfl, fun hp => (hl.here hp).resolve_left ?_⟩
            rw [hv]
            exact Bool.false_ne_true
      obtain ⟨hexact, hread, hpos⟩ := hpushed
      have hone := hl.one
      simp only [← hread]
      generalize (if i.lsuReq.valid then push q i.lsuReq else q) = n at *
      cases hld : i.popLd with
      | true =>
          have hst : i.popSt = false := Bool.eq_false_iff.mpr fun hst => hone ⟨hld, hst⟩
          simp only [hst, Bool.false_and, Bool.false_eq_true, if_false, if_true]
          exact pop_exact hexact (hpos (by rw [hld]; rfl))
      | false =>
          cases hst : i.popSt with
          | true =>
              simp only [Bool.and_false, Bool.false_eq_true, if_false, if_true]
              exact pop_exact hexact (hpos (by rw [hst, Bool.or_true]))
          | false => simpa using hexact

theorem count_valid (h : Ok q) (he : Exact q) :
    Ring.count (fun n => (q.mem n).valid) = q.statusCnt.toNat :=
  Ring.count_eq_of_inWindow h.le fun n => ⟨he n, h.valid n⟩

/-! ## Runs -/

/-- The queue and the `ready_o` of the cycle before, which issue has seen when it decided to
send the request that arrives now. -/
structure Tracked where
  hw : Regs
  readyBefore : Bool

def bypass : Machine Tracked Input where
  init := ⟨reset, true⟩
  next t i := ⟨next t.hw i, ready t.hw⟩

/-- Issue sends a request only after a cycle with `ready_o`; one unit at a time pops, and only
when the request shown to it is valid. -/
structure Admitted (t : Tracked) (i : Input) : Prop where
  sent : i.lsuReq.valid = true → t.readyBefore = true
  one : ¬(i.popLd = true ∧ i.popSt = true)
  presented : (i.popLd || i.popSt) = true → (lsuCtrl t.hw i.lsuReq).valid = true

instance (t : Tracked) (i : Input) : Decidable (Admitted t i) :=
  decidable_of_iff ((i.lsuReq.valid = true → t.readyBefore = true) ∧
    ¬(i.popLd = true ∧ i.popSt = true) ∧
    ((i.popLd || i.popSt) = true → (lsuCtrl t.hw i.lsuReq).valid = true))
    ⟨fun h => ⟨h.1, h.2.1, h.2.2⟩, fun h => ⟨h.sent, h.one, h.presented⟩⟩

/-- What a cycle does to the requests: the arriving one enters, the one shown leaves when it is
popped, and a flush drops the rest. -/
def events (t : Tracked) (i : Input) : List (Schedule.Event LsuCtrl) :=
  (if i.lsuReq.valid then [.accepted i.lsuReq] else []) ++
    (if i.popLd || i.popSt then [.delivered (lsuCtrl t.hw i.lsuReq)] else []) ++
    (if i.flush then [.dropped] else [])

/-- After a cycle with `ready_o` at most the request that was on its way then is stored. -/
structure Inv (t : Tracked) : Prop where
  ok : Ok t.hw
  exact : Exact t.hw
  room : t.readyBefore = true → t.hw.statusCnt.toNat < 2

variable {t : Tracked} {i : Input}

theorem Inv.legal (h : Inv t) (hi : Admitted t i) : Legal t.hw i where
  room hv := h.room (hi.sent hv)
  one := hi.one
  here hp := by
    have hshown := hi.presented hp
    rw [lsuCtrl_eq h.ok] at hshown
    cases hc : contents t.hw with
    | nil =>
        rw [hc] at hshown
        exact .inl hshown
    | cons r rest =>
        right
        rw [← length_contents, hc]
        exact Nat.succ_pos _

theorem Inv.next (h : Inv t) (hi : Admitted t i) : Inv (bypass.next t i) where
  ok := (next_spec h.ok (h.legal hi)).1
  exact := next_exact h.ok h.exact (h.legal hi)
  room hready := by
    -- an empty queue stores at most the request that arrives now
    have hnil : contents t.hw = [] := empty_iff.mp hready
    show (Bypass.next t.hw i).statusCnt.toNat < 2
    rw [← length_contents, (next_spec h.ok (h.legal hi)).2, hnil]
    cases i.flush <;> cases i.lsuReq.valid <;> cases i.popLd || i.popSt <;> simp

theorem inv_init : Inv bypass.init where
  ok := reset_ok
  exact := reset_exact
  room _ := by decide

/-- The queue holds what entered and neither left nor was dropped, in the order of entry. -/
theorem settle_events (h : Inv t) (hi : Admitted t i) :
    (events t i).foldlM Schedule.settle (contents t.hw) = some (contents (next t.hw i)) := by
  have hl := h.legal hi
  rw [(next_spec h.ok hl).2, events, lsuCtrl_eq h.ok, List.foldlM_append, List.foldlM_append]
  have hin : (if i.lsuReq.valid then [Schedule.Event.accepted i.lsuReq] else []).foldlM
      Schedule.settle (contents t.hw) =
        some (contents t.hw ++ (if i.lsuReq.valid then [i.lsuReq] else [])) := by
    cases i.lsuReq.valid <;> simp [Schedule.settle]
  have hout : (i.popLd || i.popSt) = true →
      contents t.hw ++ (if i.lsuReq.valid then [i.lsuReq] else []) =
        ((contents t.hw).head?).getD i.lsuReq ::
          (contents t.hw ++ (if i.lsuReq.valid then [i.lsuReq] else [])).tail := by
    intro hp
    cases hc : contents t.hw with
    | nil =>
        have hv := (hl.here hp).resolve_right fun hpos => by
          rw [← length_contents, hc] at hpos
          exact Nat.lt_irrefl 0 hpos
        rw [hv]
        rfl
    | cons r rest => rfl
  rw [hin]
  simp only [Option.bind_eq_bind, Option.bind_some]
  generalize contents t.hw ++ (if i.lsuReq.valid then [i.lsuReq] else []) = all at hout ⊢
  cases hp : i.popLd || i.popSt with
  | true =>
      rw [hout hp]
      cases i.flush <;> simp [Schedule.settle]
  | false => cases i.flush <;> simp [Schedule.settle]

theorem run_inv (ins : List Input) (h : bypass.Throughout Admitted ins) : Inv (bypass.run ins) :=
  Machine.invariant inv_init (fun _ _ hinv hi => hinv.next hi) ins h

/-- A request that is shown while it arrives and popped at once leaves the queue empty, so that
the next request shown is the next one to arrive. -/
theorem lsuCtrl_next_of_popped (h : Inv t) (hi : Admitted t i) (hempty : empty t.hw = true)
    (hp : (i.popLd || i.popSt) = true) (r : LsuCtrl) : lsuCtrl (next t.hw i) r = r := by
  have hl := h.legal hi
  have hnil : contents t.hw = [] := empty_iff.mp hempty
  have hnext : contents (next t.hw i) = [] := by
    rw [(next_spec h.ok hl).2, hnil, if_pos hp]
    cases i.flush <;> cases i.lsuReq.valid <;> rfl
  rw [lsuCtrl_eq (next_spec h.ok hl).1, hnext]
  rfl

/-- The queue loses, repeats and reorders nothing: what the units pop is what entered since the
last flush, oldest first, and the counter is the number of requests stored. -/
theorem requests_in_order (ins : List Input) (h : bypass.Throughout Admitted ins) :
    (bypass.log events ins).foldlM Schedule.settle [] = some (contents (bypass.run ins).hw) ∧
      Ring.count (fun n => ((bypass.run ins).hw.mem n).valid) =
        (bypass.run ins).hw.statusCnt.toNat ∧
      (bypass.run ins).hw.statusCnt.toNat ≤ 2 ∧
      ∀ i, Admitted (bypass.run ins) i → empty (bypass.run ins).hw = true →
        (i.popLd || i.popSt) = true → ∀ r, lsuCtrl (next (bypass.run ins).hw i) r = r := by
  refine ⟨?_, ?_, (run_inv ins h).ok.le, ?_⟩
  · refine Machine.run_induction (E := Admitted)
      (P := fun ins => (bypass.log events ins).foldlM Schedule.settle [] =
        some (contents (bypass.run ins).hw)) rfl ?_ ins h
    intro ins i hins ih hi
    rw [Machine.log_snoc, List.foldlM_append, ih, Machine.run_snoc]
    exact settle_events (run_inv ins hins) hi
  · exact count_valid (run_inv ins h).ok (run_inv ins h).exact
  · intro i hi hempty hp r
    exact lsuCtrl_next_of_popped (run_inv ins h) hi hempty hp r

/-- Three requests: the second arrives while the first is stored, the third is popped in the
cycle of its arrival. -/
def threeRequests : List Input :=
  let request (n : TransId) : LsuCtrl :=
    ⟨true, 0x1000, false, 0, 0xf, .LOAD, .LW, n⟩
  [⟨false, request 1, false, false⟩, ⟨false, request 2, false, false⟩,
    ⟨false, default, true, false⟩, ⟨false, default, true, false⟩, ⟨false, default, false, false⟩,
    ⟨false, request 3, true, false⟩]

theorem requests_in_order_threeRequests :
    bypass.Throughout Admitted threeRequests ∧ (bypass.log events threeRequests).length = 6 ∧
      (bypass.log events threeRequests).foldlM Schedule.settle [] =
        some (contents (bypass.run threeRequests).hw) := by
  have hrun : bypass.Throughout Admitted threeRequests := by decide
  exact ⟨hrun, by decide, (requests_in_order threeRequests hrun).1⟩

end Cva6.Lsu.Bypass
