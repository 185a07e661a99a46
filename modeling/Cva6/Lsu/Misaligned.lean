import Cva6.Lsu.Model
/-!
# Misaligned accesses

The detection of a misaligned address reaches the units through the MMU only. Without
one the exception is lost: nothing is ever written back with it, and a misaligned access
is carried out like any other.
-/

namespace Cva6.Lsu

open Cva6.Sync

variable {ni : NonIdempotent}

/-- The access is written back with the misaligned exception that was detected for it. -/
def TrapsMisaligned (ni : NonIdempotent) (ins : List Input) (c : LsuCtrl) : Prop :=
  ∃ w ∈ (loadStoreUnit ni).log writeBacks ins,
    w.transId = c.transId ∧ w.ex = misalignedException c false

/-- The assertions `addr_offset0`, `addr_offset1` and `addr_offset2` of the load unit. -/
def addrOffsetOk (q : LoadUnit.Regs) : Bool :=
  match q.loadData.operator with
  | .LW | .LWU => decide (q.loadData.addressOffset.toNat < 5)
  | .LH | .LHU => decide (q.loadData.addressOffset.toNat < 7)
  | .LB | .LBU => decide (q.loadData.addressOffset.toNat < 8)
  | _ => true

theorem misalignedException_valid {c : LsuCtrl} (hmis : dataMisaligned c = true)
    (hfu : c.fu = .LOAD ∨ c.fu = .STORE) : (misalignedException c false).valid = true := by
  rcases hfu with hfu | hfu <;> simp [misalignedException, hmis, hfu]

theorem loadPipe_ex (ins : List Input) :
    ((loadStoreUnit ni).run ins).loadPipe.ex = mmuException := by
  induction ins using List.reverseRecOn with
  | nil => rfl
  | append_singleton ins i ih =>
      rw [Machine.run_snoc]
      rfl

theorem writeBacks_no_exception (ins : List Input) (i : Input) :
    ∀ w ∈ writeBacks ((loadStoreUnit ni).run ins) i, w.ex = mmuException := by
  intro w hw
  rcases List.mem_append.mp hw with hw | hw
  · split at hw
    · rw [List.mem_singleton.mp hw]
      exact loadPipe_ex ins
    · simp at hw
  · split at hw
    · rw [List.mem_singleton.mp hw]
    · simp at hw

theorem log_writeBacks_no_exception (ins : List Input) :
    ∀ w ∈ (loadStoreUnit ni).log writeBacks ins, w.ex = mmuException := by
  induction ins using List.reverseRecOn with
  | nil => simp
  | append_singleton ins i ih =>
      intro w hw
      rw [Machine.log_snoc] at hw
      rcases List.mem_append.mp hw with hw | hw
      · exact ih w hw
      · exact writeBacks_no_exception ins i w hw

/-! ## A misaligned access is carried out -/

theorem load_carried_out (s : State) (i i' : Input) (hflush : i.flush = false)
    (hpop : (loadOut ni s i).popLd = true) :
    let s' := (loadStoreUnit ni).next s i
    (loadReq ni s' i').tagValid = true ∧ (loadReq ni s' i').killReq = false ∧
      s'.load.loadData = LoadUnit.inData (lsuCtrl s) := by
  have hstate : (LoadUnit.control s.load (loadIn ni s i)).state = .SEND_TAG :=
    (LoadUnit.loadControl_sendTag rfl).mpr ⟨hpop, hflush⟩
  intro s'
  have hstate' : s'.load.state = .SEND_TAG := hstate
  refine ⟨?_, ?_, ?_⟩
  · show (LoadUnit.loadControl s'.load.state (loadIn ni s' i')).tagValid = true
    rw [LoadUnit.loadControl_tagValid rfl, hstate']
    rfl
  · show (LoadUnit.loadControl s'.load.state (loadIn ni s' i')).killReq = false
    rw [LoadUnit.loadControl_killReq rfl, hstate']
    rfl
  · show (if (loadOut ni s i).popLd && !mmuException.valid then _ else _) = _
    rw [hpop]
    rfl

variable (ni) in
theorem store_carried_out (s : State) (i i' : Input) (hflush : i'.flush = false)
    (htaken : StoreUnit.taken s.store (storeIn s i) = true) :
    let s' := (loadStoreUnit ni).next s i
    (StoreUnit.control s'.store (storeIn s' i')).stValid = true ∧
      s'.store.unit.amoOp = amoOp (lsuCtrl s).operator ∧ s'.mmuPaddr = mmuVaddr s := by
  intro s'
  have hstate : s'.store.unit.state = .VALID_STORE := (StoreUnit.state_validStore_iff _ _).mpr htaken
  refine ⟨?_, rfl, rfl⟩
  rw [StoreUnit.control_stValid, hstate]
  simp [storeIn, hflush, mmuException]

/-- No misaligned access is ever written back with its exception. The load at hand goes to
the data cache, and a store or an atomic into the buffer from which it is committed,
whatever its address. -/
theorem misaligned_never_traps (ni : NonIdempotent) (ins : List Input) (c : LsuCtrl)
    (hmis : dataMisaligned c = true) (hfu : c.fu = .LOAD ∨ c.fu = .STORE) :
    ¬TrapsMisaligned ni ins c ∧
      ∀ i i', lsuCtrl ((loadStoreUnit ni).run ins) = c → i.flush = false → i'.flush = false →
        let s := (loadStoreUnit ni).run ins
        let s' := (loadStoreUnit ni).next s i
        ((loadOut ni s i).popLd = true →
          (loadReq ni s' i').tagValid = true ∧ (loadReq ni s' i').killReq = false ∧
            s'.load.loadData = LoadUnit.inData c) ∧
        (StoreUnit.taken s.store (storeIn s i) = true →
          (StoreUnit.control s'.store (storeIn s' i')).stValid = true ∧
            s'.store.unit.amoOp = amoOp c.operator ∧ s'.mmuPaddr = c.vaddr) := by
  constructor
  · rintro ⟨w, hw, -, hex⟩
    have hvalid := misalignedException_valid hmis hfu
    rw [← hex, log_writeBacks_no_exception ins w hw] at hvalid
    exact Bool.false_ne_true hvalid
  · rintro i i' rfl hflush hflush'
    refine ⟨load_carried_out _ i i' hflush, ?_⟩
    intro htaken
    have h := store_carried_out ni _ i i' hflush' htaken
    exact ⟨h.1, h.2.1, h.2.2.trans (if_pos hfu)⟩

/-! ## A misaligned word -/

def misalignedLoad (addr : XLen) : FuData := ⟨.LOAD, .LW, addr, 0, 0, 3⟩

def misalignedRun (addr : XLen) : List Input :=
  [{ (default : Input) with fuData := misalignedLoad addr, issueValid := true },
    { (default : Input) with loadGnt := true },
    { (default : Input) with loadRvalid := true, loadRdata := 0x8877665544332211 }]

/-- The load of the word at address 5 is detected as misaligned, returns data with an offset
that the load unit asserts away, and is written back as if nothing had happened. -/
theorem misaligned_load_returns_data :
    let m := loadStoreUnit (fun _ => false)
    let c := lsuReq true (misalignedLoad 5)
    let s := m.run ((misalignedRun 5).take 2)
    misalignedException c false = ⟨Riscv.ldAddrMisaligned, 5, true⟩ ∧
      lsuCtrl (m.run ((misalignedRun 5).take 1)) = c ∧
      LoadUnit.validO s.load (loadIn (fun _ => false) s ((misalignedRun 5).getD 2 default)) = true ∧
      addrOffsetOk s.load = false ∧
      writeBacks (m.run (misalignedRun 5)) default = [⟨c.transId, ⟨0, 0, false⟩⟩] := by
  decide

theorem misaligned_never_traps_misalignedRun :
    ¬TrapsMisaligned (fun _ => false) (misalignedRun 5) (lsuReq true (misalignedLoad 5)) :=
  (misaligned_never_traps _ _ _ (by decide) (by decide)).1

end Cva6.Lsu
