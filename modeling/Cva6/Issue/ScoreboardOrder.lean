import Cva6.Issue.Window
/-!
# The scoreboard is a queue

What commit acknowledges between two flushes is what was issued, in order, with
the results that were written back to it.
-/

namespace Cva6.Issue.Scoreboard

open Cva6.Sync

variable {q : Regs} {i : Input}

/-! ## The record of a run -/

/-- An issued instruction, as it was sent to the functional units, and the
write-backs it has received since, oldest first. -/
structure Item where
  instr : ScoreboardEntry
  landed : List WbPort

def Item.land (it : Item) (p : WbPort) : Item :=
  if p.valid && p.transId == it.instr.transId then { it with landed := it.landed ++ [p] } else it

/-- What was issued and what was acknowledged since the last flush. -/
structure Record where
  items : List Item
  acked : List ScoreboardEntry

structure Tracked where
  hw : Regs
  record : Record

def ackedNow (t : Tracked) (i : Input) : List ScoreboardEntry :=
  t.record.acked ++ acknowledged (commitInstr t.hw) i.commitAck

/-- A write-back reaches the instructions that are still in flight after the cycle. -/
def itemsNext (t : Tracked) (i : Input) : List Item :=
  t.record.items.take (ackedNow t i).length ++
    (t.record.items.drop (ackedNow t i).length).map (fun it => i.wb.foldl Item.land it) ++
    if issueEn t.hw i then [⟨issueInstr t.hw i.decodedInstr, []⟩] else []

def tracked : Machine Tracked Input where
  init := ⟨reset, ⟨[], []⟩⟩
  next t i :=
    { hw := next t.hw i
      record := if i.flush then ⟨[], []⟩ else ⟨itemsNext t i, ackedNow t i⟩ }

/-- The entry `e` is what the issued instruction has become: the decoded fields
are untouched, the result is that of the last write-back, and without one the
entry is valid only if it needed none. -/
structure Carries (it : Item) (e : ScoreboardEntry) : Prop where
  decoded : { e with
    result := it.instr.result, valid := it.instr.valid, ex := it.instr.ex, bp := it.instr.bp } =
      it.instr
  result : e.result = (it.landed.getLast?.map WbPort.data).getD it.instr.result
  valid : e.valid = true → it.landed ≠ [] ∨ it.instr.valid = true ∨ it.instr.fu = .NONE
  own : ∀ p ∈ it.landed, p.valid = true ∧ p.transId = it.instr.transId

def entryAt (q : Regs) (n : TransId) : ScoreboardEntry := { (q.mem n).sbe with transId := n }

def inflight (q : Regs) : List ScoreboardEntry :=
  Ring.window (entryAt q) q.commitPointer0 q.issueCnt.toNat

structure Inv (t : Tracked) : Prop where
  ok : Ok t.hw
  acked_valid : ∀ e ∈ t.record.acked, e.valid = true
  carried : List.Forall₂ Carries t.record.items (t.record.acked ++ inflight t.hw)

/-! ## Write-backs -/

theorem Carries.fuNone {it : Item} {e : ScoreboardEntry} (h : Carries it e)
    (hfu : e.fu = .NONE) : Carries it { e with valid := true } := by
  have hinstr : it.instr.fu = .NONE := by
    rw [← h.decoded]
    exact hfu
  exact ⟨h.decoded, h.result, fun _ => .inr (.inr hinstr), h.own⟩

theorem Carries.land {it : Item} {s : Slot} {n : TransId}
    (h : Carries it { s.sbe with transId := n }) (hn : (q.mem n).issued = true) (p : WbPort) :
    Carries (it.land p) { (writeBack q i n s p).sbe with transId := n } := by
  have hid : it.instr.transId = n := by
    rw [← h.decoded]
  unfold Item.land writeBack
  rw [hid, hn, Bool.and_true]
  cases hp : p.valid && p.transId == n with
  | false => exact h
  | true =>
      rw [Bool.and_eq_true, beq_iff_eq] at hp
      refine ⟨h.decoded, by simp, by simp, ?_⟩
      intro p' hp'
      rcases List.mem_append.mp hp' with hp' | hp'
      · exact h.own p' hp'
      · obtain rfl : p' = p := by simpa using hp'
        exact ⟨hp.1, hp.2.trans hid.symm⟩

theorem Carries.foldl_land {it : Item} {s : Slot} {n : TransId}
    (h : Carries it { s.sbe with transId := n }) (hn : (q.mem n).issued = true)
    (wb : List WbPort) :
    Carries (wb.foldl Item.land it) { (wb.foldl (writeBack q i n) s).sbe with transId := n } := by
  induction wb generalizing it s with
  | nil => exact h
  | cons p wb ih => exact ih (h.land hn p)

theorem Carries.next {it : Item} {n : TransId} (h : Carries it (entryAt q n))
    (hok : Ok q) (hn : (q.mem n).issued = true) (hf : i.flush = false)
    (hack : ackedSlot q i n = false) :
    Carries (i.wb.foldl Item.land it) (entryAt (Scoreboard.next q i) n) := by
  show Carries _ { (issueFifo q i n).sbe with transId := n }
  rw [hok.issueFifo_staying hn hf hack]
  split
  · rename_i hfu
    refine Carries.foldl_land ?_ hn _
    exact h.fuNone (beq_iff_eq.mp hfu)
  · exact h.foldl_land hn _

/-! ## Order -/

/-- What is acknowledged is the head of the queue. -/
theorem Ok.inflight_eq (h : Ok q) (ha : AckLegal q i) :
    inflight q = acknowledged (commitInstr q) i.commitAck ++
      Ring.window (entryAt q) (Ring.slot q.commitPointer0 (acks i.commitAck))
        (q.issueCnt.toNat - acks i.commitAck) := by
  have hle := h.acks_le ha
  have hsplit := Ring.window_add (entryAt q) q.commitPointer0 (acks i.commitAck)
    (q.issueCnt.toNat - acks i.commitAck)
  rw [Nat.add_sub_cancel' hle] at hsplit
  rw [inflight, hsplit]
  congr 1
  unfold acks acknowledged at *
  cases ha1 : i.commitAck.ack1 with
  | false => cases ha0 : i.commitAck.ack0 <;> simp [Ring.window_cons, entryAt, commitInstr]
  | true =>
      have ha0 := (ha.2 ha1).1
      have hcp1 := h.commitPointer1_of_pos (by rw [ha0] at hle; simp at hle; omega)
      simp [ha0, Ring.window_cons, entryAt, commitInstr, hcp1]

theorem Ok.inflight_next (h : Ok q) (ha : AckLegal q i) (hf : i.flush = false) :
    inflight (Scoreboard.next q i) =
      Ring.window (entryAt (Scoreboard.next q i))
        (Ring.slot q.commitPointer0 (acks i.commitAck)) (q.issueCnt.toNat - acks i.commitAck) ++
      if issueEn q i then [issueInstr q i.decodedInstr] else [] := by
  rw [inflight, h.window_next ha hf]
  cases hen : issueEn q i with
  | false => rfl
  | true =>
      congr 1
      show [{ (issueFifo q i q.issuePointer).sbe with transId := q.issuePointer }] = _
      rw [h.issueFifo_new ha hf hen]
      rfl

theorem forall₂_map_of_mem {α β γ : Type*} {R : α → β → Prop} {f : α → α} {g g' : γ → β} :
    ∀ {l : List α} {ns : List γ}, List.Forall₂ R l (ns.map g) →
      (∀ n ∈ ns, ∀ a, R a (g n) → R (f a) (g' n)) → List.Forall₂ R (l.map f) (ns.map g')
  | [], [], _, _ => .nil
  | a :: l, n :: ns, .cons ha h, hstep =>
      .cons (hstep n (by simp) a ha)
        (forall₂_map_of_mem h fun m hm => hstep m (List.mem_cons_of_mem n hm))

theorem Inv.ackedNow_valid {t : Tracked} (h : Inv t) (ha : AckLegal t.hw i) :
    ∀ e ∈ ackedNow t i, e.valid = true := by
  intro e he
  simp only [ackedNow, acknowledged, List.mem_append, List.mem_ite_nil_right,
    List.mem_singleton] at he
  rcases he with he | ⟨ha0, rfl⟩ | ⟨ha1, rfl⟩
  · exact h.acked_valid e he
  · exact ha.1 ha0
  · exact (ha.2 ha1).2

theorem Inv.next {t : Tracked} (h : Inv t) (ha : AckLegal t.hw i) : Inv (tracked.next t i) := by
  refine ⟨h.ok.next ha, ?_, ?_⟩
  · show ∀ e ∈ (if i.flush then (⟨[], []⟩ : Record) else ⟨itemsNext t i, ackedNow t i⟩).acked, _
    cases i.flush with
    | true => simp
    | false => exact h.ackedNow_valid ha
  cases hf : i.flush with
  | true => simp [tracked, hf, inflight, Scoreboard.next]
  | false =>
      simp only [tracked, hf, Bool.false_eq_true, if_false]
      have hcarried := h.carried
      rw [h.ok.inflight_eq ha, ← List.append_assoc] at hcarried
      rw [h.ok.inflight_next ha hf, ← List.append_assoc]
      have hpre := List.forall₂_take_append _ _ _ hcarried
      have hpost := List.forall₂_drop_append _ _ _ hcarried
      refine List.rel_append (List.rel_append hpre ?_) ?_
      · simp only [Ring.window, ← Function.comp_def (entryAt _), ← List.map_map] at hpost ⊢
        refine forall₂_map_of_mem hpost ?_
        intro n hn it hit
        obtain ⟨k, hk, rfl⟩ := List.mem_map.mp hn
        obtain ⟨hissued, hack⟩ := (h.ok.staying_iff ha _).mp ⟨k, List.mem_range.mp hk, rfl⟩
        exact hit.next h.ok hissued hf hack
      · cases issueEn t.hw i with
        | false => exact .nil
        | true =>
            refine .cons ⟨rfl, rfl, fun hv => .inr (.inl hv), ?_⟩ .nil
            intro p hp
            cases hp

theorem inv_init : Inv tracked.init := ⟨reset_ok, by simp [tracked], .nil⟩

theorem inv_run {ins : List Input} (h : tracked.Throughout (fun t i => AckLegal t.hw i) ins) :
    Inv (tracked.run ins) :=
  Machine.invariant inv_init (fun _ _ hI ha => hI.next ha) ins h

/-- In every reachable state the issued slots are the window between the pointers,
and in every cycle what has been acknowledged since the last flush is what was
issued since then, in order, with the result of its last write-back. -/
theorem scoreboard_in_order (ins : List Input) (i : Input)
    (h : tracked.Throughout (fun t i => AckLegal t.hw i) (ins ++ [i])) :
    let t := tracked.run ins
    (∀ n, (t.hw.mem n).issued = true ↔
      Ring.InWindow t.hw.commitPointer0 t.hw.issueCnt.toNat n) ∧
    t.hw.issuePointer = Ring.slot t.hw.commitPointer0 t.hw.issueCnt.toNat ∧
    t.hw.issueCnt.toNat ≤ 7 ∧
    (∀ n, (t.hw.mem n).sbe.valid = true → (t.hw.mem n).issued = true) ∧
    (t.hw.issueCnt ≠ 0 → t.hw.commitPointer1 = t.hw.commitPointer0 + 1) ∧
    List.Forall₂ Carries (t.record.items.take (ackedNow t i).length) (ackedNow t i) ∧
    ∀ e ∈ ackedNow t i, e.valid = true := by
  intro t
  obtain ⟨h, ha⟩ := Machine.throughout_snoc.mp h
  have hinv : Inv t := inv_run h
  have hlt := t.hw.issueCnt.isLt
  refine ⟨hinv.ok.issued_iff, hinv.ok.issuePointer_eq, by omega, hinv.ok.valid_issued,
    hinv.ok.commitPointer1_eq, ?_, hinv.ackedNow_valid ha⟩
  have hcarried := hinv.carried
  rw [hinv.ok.inflight_eq ha, ← List.append_assoc] at hcarried
  exact List.forall₂_take_append _ _ _ hcarried

def addRun : List Input :=
  let add : ScoreboardEntry := { (default : ScoreboardEntry) with fu := .ALU, rd := 5 }
  [{ (default : Input) with decodedInstr := add, decodedInstrValid := true, issueAck := true },
    { (default : Input) with wb := [⟨0, 42, default, true⟩] }]

def ackPort0 : Input := { (default : Input) with commitAck := ⟨true, false⟩ }

theorem scoreboard_in_order_addRun :
    (ackedNow (tracked.run addRun) ackPort0).map ScoreboardEntry.result = [42] ∧
      List.Forall₂ Carries
        ((tracked.run addRun).record.items.take (ackedNow (tracked.run addRun) ackPort0).length)
        (ackedNow (tracked.run addRun) ackPort0) := by
  have h := scoreboard_in_order addRun ackPort0 (by decide +kernel)
  exact ⟨by decide +kernel, h.2.2.2.2.2.1⟩

def noneRun : List Input :=
  [{ (default : Input) with decodedInstrValid := true, issueAck := true }, default]

/-- An instruction without a functional unit is acknowledged without having been written back. -/
theorem acked_without_write_back :
    ¬∀ (ins : List Input) (i : Input),
      tracked.Throughout (fun t i => AckLegal t.hw i) (ins ++ [i]) →
        List.Forall₂ (fun it e => ∃ p ∈ it.landed, e.result = p.data)
          ((tracked.run ins).record.items.take (ackedNow (tracked.run ins) i).length)
          (ackedNow (tracked.run ins) i) := by
  intro h
  have hacked : ackedNow (tracked.run noneRun) ackPort0 ≠ [] := by decide +kernel
  have hnone : ∀ it ∈ (tracked.run noneRun).record.items, it.landed = [] := by decide +kernel
  have hall := h noneRun ackPort0 (by decide +kernel)
  obtain ⟨e, es, hes⟩ := List.exists_cons_of_ne_nil hacked
  rw [hes] at hall
  cases hitems : (tracked.run noneRun).record.items.take (e :: es).length with
  | nil =>
      rw [hitems] at hall
      cases hall
  | cons it its =>
      rw [hitems] at hall
      cases hall with
      | cons hit _ =>
          obtain ⟨p, hp, -⟩ := hit
          have hmem : it ∈ (tracked.run noneRun).record.items :=
            List.mem_of_mem_take (hitems ▸ List.mem_cons_self)
          simp [hnone it hmem] at hp

end Cva6.Issue.Scoreboard
