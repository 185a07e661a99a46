import Cva6.Pkg
import Cva6.Sync.Machine
import Cva6.Sync.Pair
/-!
# The control-flow integrity detector

`CFI_Mod` (`CFI.sv`) watches the acknowledged instructions for a return
(`jalr x0, x1`) whose landing instruction is the marker `addi x0, x1, imm` with
a result ending in `11`. Up to two instructions are acknowledged in a cycle,
and the twelve conditions `c0` to `c11` classify what one cycle acknowledged.
-/

namespace Cva6.Cfi

open Cva6.Sync

/-! ## The detector -/

/-- The inputs sampled by `CFI_Mod` in one cycle. The net `c0` is declared and
read but has no driver, so its value is part of the input. -/
structure Input where
  commitInstr : CommitPorts
  commitAck : CommitAck
  c0 : Bool
  deriving DecidableEq, Repr

/-- `nop_perso[i]`: the marker. -/
def nopPerso (e : ScoreboardEntry) : Bool :=
  e.op == .ADD && e.fu == .ALU && e.rs1 == 1 && e.rd == 0 && e.result.setWidth 2 == 3#2

/-- `JALR_det[i]`: the return. -/
def jalrDet (e : ScoreboardEntry) : Bool :=
  e.op == .JALR && e.fu == .CTRL_FLOW && e.rs1 == 1 && e.rd == 0

namespace Input

variable (i : Input)

/-- `commit_ack_i == 2'b01`. -/
def single : Bool := i.commitAck == ⟨true, false⟩

/-- `commit_ack_i == 2'b11`. -/
def dual : Bool := i.commitAck == ⟨true, true⟩

def jalr0 : Bool := jalrDet i.commitInstr.instr0
def jalr1 : Bool := jalrDet i.commitInstr.instr1
def nop0 : Bool := nopPerso i.commitInstr.instr0
def nop1 : Bool := nopPerso i.commitInstr.instr1

def c1 : Bool := i.single && i.jalr0
def c2 : Bool := i.single && !i.jalr0
def c3 : Bool := i.single && !i.nop0
def c4 : Bool := i.single && i.nop0
def c5 : Bool := i.dual && !i.jalr0 && !i.jalr1
def c6 : Bool := i.dual && i.jalr0 && i.nop1
def c7 : Bool := i.dual && i.jalr0 && !i.nop1
def c8 : Bool := i.dual && !i.jalr0 && i.jalr1
def c9 : Bool := i.dual && !i.nop0 && !i.jalr1
def c10 : Bool := i.dual && i.nop0
def c11 : Bool := i.dual && !i.nop0 && i.jalr1

end Input

inductive StateJalr where
  | stateJalr1
  | stateJalr2
  | stateJalr3
  deriving DecidableEq, Repr

structure State where
  stateJalr : StateJalr
  flowIntegrityViolated : Bool
  deriving DecidableEq, Repr

/-- The clocked process of `CFI_Mod`: inside a state the last assignment made
wins, and a register that is not assigned keeps its value. -/
def nextState (s : StateJalr) (i : Input) : StateJalr :=
  match s with
  | .stateJalr1 =>
      let s := if i.c2 || i.c5 || i.c7 || i.c0 then .stateJalr1 else s
      let s := if i.c1 || i.c8 || i.c11 then .stateJalr2 else s
      if i.c6 then .stateJalr3 else s
  | .stateJalr2 =>
      let s := if i.c11 || i.c0 then .stateJalr2 else s
      let s := if i.c4 || i.c10 then .stateJalr3 else s
      if i.c3 || i.c9 then .stateJalr1 else s
  | .stateJalr3 => .stateJalr3

def cfiMod : Machine State Input where
  init := ⟨.stateJalr1, false⟩
  next s i := ⟨nextState s.stateJalr i, s.stateJalr == .stateJalr3⟩

@[simp] theorem cfiMod_next_stateJalr (s : State) (i : Input) :
    (cfiMod.next s i).stateJalr = nextState s.stateJalr i := rfl

@[simp] theorem cfiMod_next_flag (s : State) (i : Input) :
    (cfiMod.next s i).flowIntegrityViolated = true ↔ s.stateJalr = .stateJalr3 := by
  simp [cfiMod]

/-! ## The committed stream -/

def stream (ins : List Input) : List ScoreboardEntry :=
  ins.flatMap fun i => acknowledged i.commitInstr i.commitAck

@[simp] theorem stream_snoc (ins : List Input) (i : Input) :
    stream (ins ++ [i]) = stream ins ++ acknowledged i.commitInstr i.commitAck := by
  simp [stream]

/-- A return of the stream is immediately followed by a marker. -/
def Violated (l : List ScoreboardEntry) : Prop :=
  Pair.Followed jalrDet nopPerso l

/-- The detector state that corresponds to a verdict of the pair scanner. -/
def ofScan : Pair.Scan → StateJalr
  | .idle => .stateJalr1
  | .armed => .stateJalr2
  | .fired => .stateJalr3

theorem ofScan_injective : Function.Injective ofScan := by
  intro a b
  cases a <;> cases b <;> simp [ofScan]

/-- A return is pending and the cycle acknowledges another return on port 0,
with nothing or with a marker on port 1. The second return is then forgotten:
`c3` (or `c9`) only asks whether port 0 holds the marker. -/
def DropsReturn (s : State) (i : Input) : Prop :=
  s.stateJalr = .stateJalr2 ∧ i.commitAck.ack0 = true ∧ i.jalr0 = true ∧
    (i.commitAck.ack1 = true → i.nop1 = true)

instance (s : State) (i : Input) : Decidable (DropsReturn s i) :=
  inferInstanceAs (Decidable (_ ∧ _ ∧ _ ∧ (_ → _)))

theorem nopPerso_of_jalrDet {e : ScoreboardEntry} (h : jalrDet e = true) :
    nopPerso e = false := by
  simp_all [jalrDet, nopPerso]

theorem jalrDet_of_nopPerso {e : ScoreboardEntry} (h : nopPerso e = true) :
    jalrDet e = false := by
  cases he : jalrDet e with
  | false => rfl
  | true => simp [nopPerso_of_jalrDet he] at h

theorem nextState_none (s : StateJalr) (i : Input) (h : i.commitAck = ⟨false, false⟩) :
    nextState s i = s := by
  cases s <;> simp [nextState, Input.c1, Input.c2, Input.c3, Input.c4, Input.c5, Input.c6,
    Input.c7, Input.c8, Input.c9, Input.c10, Input.c11, Input.single, Input.dual, h]

theorem nextState_single (s : StateJalr) (i : Input) (h : i.commitAck = ⟨true, false⟩) :
    nextState s i =
      match s with
      | .stateJalr1 => if i.jalr0 then .stateJalr2 else .stateJalr1
      | .stateJalr2 => if i.nop0 then .stateJalr3 else .stateJalr1
      | .stateJalr3 => .stateJalr3 := by
  cases s <;> cases hj : i.jalr0 <;> cases hn : i.nop0 <;>
    simp [nextState, Input.c1, Input.c2, Input.c3, Input.c4, Input.c5, Input.c6, Input.c7,
      Input.c8, Input.c9, Input.c10, Input.c11, Input.single, Input.dual, h, hj, hn]

theorem nextState_dual (s : StateJalr) (i : Input) (h : i.commitAck = ⟨true, true⟩) :
    nextState s i =
      match s with
      | .stateJalr1 =>
          if i.jalr0 && i.nop1 then .stateJalr3
          else if i.jalr1 && !(i.jalr0 && i.nop0) then .stateJalr2 else .stateJalr1
      | .stateJalr2 =>
          if i.nop0 then .stateJalr3 else if i.jalr1 then .stateJalr2 else .stateJalr1
      | .stateJalr3 => .stateJalr3 := by
  cases s <;> cases hj : i.jalr0 <;> cases hn : i.nop0 <;> cases hj1 : i.jalr1 <;>
    cases hn1 : i.nop1 <;>
    simp [nextState, Input.c1, Input.c2, Input.c3, Input.c4, Input.c5, Input.c6, Input.c7,
      Input.c8, Input.c9, Input.c10, Input.c11, Input.single, Input.dual, h, hj, hn, hj1, hn1]

/-- One cycle of the detector is the pair scanner run over what the cycle
acknowledged, except exactly when the cycle drops a pending return. -/
theorem nextState_eq_scan_iff (s : State) (v : Pair.Scan) (i : Input)
    (hs : s.stateJalr = ofScan v) (hack : i.commitAck.Legal) :
    nextState s.stateJalr i =
        ofScan ((acknowledged i.commitInstr i.commitAck).foldl
          (Pair.Scan.step jalrDet nopPerso) v) ↔
      ¬DropsReturn s i := by
  have h0 := @nopPerso_of_jalrDet i.commitInstr.instr0
  have h1 := @nopPerso_of_jalrDet i.commitInstr.instr1
  unfold DropsReturn
  rw [hs]
  rcases ha : i.commitAck with ⟨_ | _, _ | _⟩
  · rw [nextState_none _ _ ha]
    simp [acknowledged]
  · simp [CommitAck.Legal, ha] at hack
  · rw [nextState_single _ _ ha]
    by_cases hj0 : jalrDet i.commitInstr.instr0 = true <;>
    by_cases hn0 : nopPerso i.commitInstr.instr0 = true <;>
    cases v <;>
      simp_all [ofScan, Pair.Scan.step, Input.jalr0, Input.nop0, acknowledged]
  · rw [nextState_dual _ _ ha]
    by_cases hj0 : jalrDet i.commitInstr.instr0 = true <;>
    by_cases hn0 : nopPerso i.commitInstr.instr0 = true <;>
    by_cases hj1 : jalrDet i.commitInstr.instr1 = true <;>
    by_cases hn1 : nopPerso i.commitInstr.instr1 = true <;>
    cases v <;>
      simp_all [ofScan, Pair.Scan.step, Input.jalr0, Input.nop0, Input.jalr1, Input.nop1,
        acknowledged]

/-! ## Runs -/

/-- The cycles on which the detector agrees with the stream: the
acknowledgement is one the commit stage produces and no return is dropped. -/
def Exact (s : State) (i : Input) : Prop :=
  i.commitAck.Legal ∧ ¬DropsReturn s i

/-- Along cycles that drop no return, the detector state is the verdict of the
pair scanner on the committed stream. -/
theorem run_stateJalr_eq_scan :
    ∀ ins, cfiMod.Throughout Exact ins →
      (cfiMod.run ins).stateJalr = ofScan (Pair.scan jalrDet nopPerso (stream ins)) := by
  refine Machine.run_induction rfl ?_
  intro ins i _ ih hi
  rw [Machine.run_snoc, stream_snoc, Pair.scan_append]
  exact (nextState_eq_scan_iff _ _ i ih hi.1).mpr hi.2

theorem stateJalr3_stable (ins ins' : List Input)
    (h : (cfiMod.run ins).stateJalr = .stateJalr3) :
    (cfiMod.run (ins ++ ins')).stateJalr = .stateJalr3 := by
  induction ins' using List.reverseRecOn with
  | nil => simpa using h
  | append_singleton ins' i ih =>
      rw [← List.append_assoc, Machine.run_snoc, cfiMod_next_stateJalr, ih]
      rfl

/-- The flag is set exactly when an earlier cycle already held
`stateJalr3`; this needs nothing of the inputs. -/
theorem flag_iff_held (ins : List Input) :
    (cfiMod.run ins).flowIntegrityViolated = true ↔
      ∃ pre i post, ins = pre ++ i :: post ∧ (cfiMod.run pre).stateJalr = .stateJalr3 := by
  rcases List.eq_nil_or_concat ins with rfl | ⟨ins, i, rfl⟩
  · simp [cfiMod]
  · rw [List.concat_eq_append, Machine.run_snoc, cfiMod_next_flag]
    constructor
    · intro h
      exact ⟨ins, i, [], rfl, h⟩
    · rintro ⟨pre, j, post, hp, hpre⟩
      rcases Machine.cycle_snoc hp with ⟨rfl, -⟩ | ⟨post', rfl⟩
      · exact hpre
      · exact stateJalr3_stable pre _ hpre

/-- A return is pending only directly after an acknowledged return. -/
theorem pending_of_stateJalr2 (ins : List Input) (hack : ∀ i ∈ ins, i.commitAck.Legal)
    (h : (cfiMod.run ins).stateJalr = .stateJalr2) : Pair.Pending jalrDet (stream ins) := by
  induction ins using List.reverseRecOn with
  | nil => simp [cfiMod] at h
  | append_singleton ins i ih =>
      have hi : i.commitAck.Legal := hack i (by simp)
      rw [Machine.run_snoc, cfiMod_next_stateJalr] at h
      rw [stream_snoc]
      rcases ha : i.commitAck with ⟨_ | _, _ | _⟩
      · rw [nextState_none _ _ ha] at h
        have hlast := ih (fun j hj => hack j (by simp [hj])) h
        simpa [acknowledged] using hlast
      · simp [CommitAck.Legal, ha] at hi
      · rw [nextState_single _ _ ha] at h
        have hj : i.jalr0 = true := by
          revert h
          cases (cfiMod.run ins).stateJalr <;> simp
          split <;> simp
        rw [show acknowledged i.commitInstr ⟨true, false⟩ = [i.commitInstr.instr0] from rfl,
          Pair.pending_snoc]
        exact hj
      · rw [nextState_dual _ _ ha] at h
        have hj : i.jalr1 = true := by
          revert h
          cases (cfiMod.run ins).stateJalr <;> cases i.jalr1 <;> simp <;> split <;> simp
        rw [show acknowledged i.commitInstr ⟨true, true⟩ =
          [i.commitInstr.instr0] ++ [i.commitInstr.instr1] from rfl, ← List.append_assoc,
          Pair.pending_snoc]
        exact hj

/-- A cycle that acknowledges a marker first detects a violation exactly when a
return is pending or one was detected before. -/
theorem nextState_marker (s : StateJalr) (i : Input) (hack : i.commitAck.ack0 = true)
    (hnop : i.nop0 = true) :
    nextState s i = .stateJalr3 ↔ s ≠ .stateJalr1 := by
  have hj : i.jalr0 = false := jalrDet_of_nopPerso hnop
  rcases ha : i.commitAck with ⟨_ | _, _ | _⟩
  · simp [ha] at hack
  · simp [ha] at hack
  · rw [nextState_single _ _ ha]
    cases s <;> simp [hj, hnop]
  · rw [nextState_dual _ _ ha]
    cases s <;> simp [hj, hnop]
    split <;> simp

instance (l : List ScoreboardEntry) : Decidable (Violated l) :=
  decidable_of_iff _ (Pair.scan_fired_iff l)

instance (s : State) (i : Input) : Decidable (Exact s i) :=
  inferInstanceAs (Decidable (_ ∧ _))

/-- Detection is exact on the committed stream along every run that drops no
pending return: `stateJalr3` is held exactly when some return was followed by a
marker, however the stream was cut into single and dual commits, and the flag
follows one cycle later and stays. -/
theorem detection_exact (ins : List Input) (h : cfiMod.Throughout Exact ins) :
    ((cfiMod.run ins).stateJalr = .stateJalr3 ↔ Violated (stream ins)) ∧
      ((cfiMod.run ins).flowIntegrityViolated = true ↔
        ∃ pre i post, ins = pre ++ i :: post ∧ (cfiMod.run pre).stateJalr = .stateJalr3) ∧
      ∀ ins', cfiMod.Throughout Exact ins' → stream ins' = stream ins →
        (cfiMod.run ins').stateJalr = (cfiMod.run ins).stateJalr := by
  have hrun := run_stateJalr_eq_scan ins h
  refine ⟨?_, flag_iff_held ins, ?_⟩
  · rw [hrun, Violated, ← Pair.scan_fired_iff]
    exact ofScan_injective.eq_iff (b := .fired)
  · intro ins' h' hstream
    rw [run_stateJalr_eq_scan ins' h', hrun, hstream]

def returnInstr : ScoreboardEntry :=
  { (default : ScoreboardEntry) with fu := .CTRL_FLOW, op := .JALR, rs1 := 1, valid := true }

/-- `addi x0, x1, imm` whose result ends in `11`, written back. -/
def markerInstr : ScoreboardEntry :=
  { (default : ScoreboardEntry) with
    fu := .ALU, op := .ADD, rs1 := 1, result := 3, useImm := true, valid := true }

def Input.one (e : ScoreboardEntry) : Input :=
  ⟨⟨e, default⟩, ⟨true, false⟩, false⟩

def Input.two (e e' : ScoreboardEntry) : Input :=
  ⟨⟨e, e'⟩, ⟨true, true⟩, false⟩

theorem detection_exact_two_returns :
    cfiMod.Throughout Exact [.two returnInstr returnInstr, .one markerInstr] ∧
      ((cfiMod.run [.two returnInstr returnInstr, .one markerInstr]).stateJalr =
        .stateJalr3 ↔ Violated [returnInstr, returnInstr, markerInstr]) :=
  ⟨by decide, (detection_exact [.two returnInstr returnInstr, .one markerInstr]
    (by decide)).1⟩

/-- Two returns and a marker, committed one by one: the second return takes the
detector back to `stateJalr1` and the marker is missed. Committed as a pair and a
single, the same stream is detected. -/
theorem detection_misses_second_return :
    (∀ i ∈ [Input.one returnInstr, .one returnInstr, .one markerInstr], i.commitAck.Legal) ∧
      Violated (stream [.one returnInstr, .one returnInstr, .one markerInstr]) ∧
      (cfiMod.run [.one returnInstr, .one returnInstr, .one markerInstr]).stateJalr ≠
        .stateJalr3 ∧
      stream [.two returnInstr returnInstr, .one markerInstr] =
        stream [.one returnInstr, .one returnInstr, .one markerInstr] ∧
      (cfiMod.run [.two returnInstr returnInstr, .one markerInstr]).stateJalr =
        .stateJalr3 := by
  decide

end Cva6.Cfi
