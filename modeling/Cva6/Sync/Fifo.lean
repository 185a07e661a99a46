import Cva6.Sync.Ring
/-!
# First-in first-out queues

A queue of `2 ^ w` slots with a read pointer, a write pointer and a fill count, as
hardware libraries have it. A push into a full queue and a pop from an empty one are
ignored. A queue that falls through shows the pushed element while it is empty, and an
element that is popped in the cycle of its push is never counted.
-/

namespace Cva6.Sync

structure Fifo (α : Type*) (w : Nat) where
  mem : BitVec w → α
  readPointer : BitVec w
  writePointer : BitVec w
  statusCnt : Nat
  statusCnt_le : statusCnt ≤ 2 ^ w
  writePointer_eq : writePointer = Ring.slot readPointer statusCnt

namespace Fifo

variable {α : Type*} {w : Nat}

/-- The state after reset, with the slots zeroed. -/
def reset (zero : α) : Fifo α w := ⟨fun _ => zero, 0, 0, 0, by simp, by simp⟩

def contents (q : Fifo α w) : List α := Ring.window q.mem q.readPointer q.statusCnt

variable (q : Fifo α w) (fallThrough push pop : Bool) (data : α)

def full : Bool := q.statusCnt == 2 ^ w

def empty : Bool := q.statusCnt == 0 && !(fallThrough && push)

def dataO : α :=
  if fallThrough && q.statusCnt == 0 && push then data else q.mem q.readPointer

/-- The queue emptied; the slots keep what they held. -/
def flush : Fifo α w := ⟨q.mem, 0, 0, 0, by simp, by simp⟩

def writes : Bool := push && !q.full

def reads : Bool := pop && !q.empty fallThrough push

/-- The element is popped in the cycle of its push. -/
def passes : Bool := fallThrough && q.statusCnt == 0 && push && pop

def memNext : BitVec w → α :=
  if q.writes push then Function.update q.mem q.writePointer data else q.mem

def cntNext : Nat :=
  q.statusCnt + (if q.writes push then 1 else 0) - if q.reads fallThrough push pop then 1 else 0

theorem writes_lt (h : q.writes push = true) : q.statusCnt < 2 ^ w := by
  have hle := q.statusCnt_le
  simp only [writes, full, Bool.and_eq_true, Bool.not_eq_true', beq_eq_false_iff_ne] at h
  omega

theorem cntNext_le : q.cntNext fallThrough push pop ≤ 2 ^ w := by
  have hle := q.statusCnt_le
  unfold cntNext
  split_ifs with hw
  · have := q.writes_lt push hw
    omega
  · have := q.writes_lt push hw
    omega
  · omega
  · omega

theorem reads_pos (hp : q.passes fallThrough push pop = false)
    (h : q.reads fallThrough push pop = true) : 0 < q.statusCnt := by
  simp only [reads, empty, passes, Bool.and_eq_true, Bool.not_eq_true', Bool.and_eq_false_iff,
    Bool.not_eq_false'] at h hp
  rcases Nat.eq_zero_or_pos q.statusCnt with h0 | h0
  · simp_all
  · exact h0

def next : Fifo α w :=
  if hp : q.passes fallThrough push pop = true then
    ⟨q.memNext push data, q.readPointer, q.writePointer, q.statusCnt, q.statusCnt_le,
      q.writePointer_eq⟩
  else
    ⟨q.memNext push data,
      Ring.slot q.readPointer (if q.reads fallThrough push pop then 1 else 0),
      Ring.slot q.writePointer (if q.writes push then 1 else 0),
      q.cntNext fallThrough push pop, q.cntNext_le fallThrough push pop, by
        have hpos := q.reads_pos fallThrough push pop (by simpa using hp)
        rw [q.writePointer_eq, Ring.slot_slot, Ring.slot_slot, cntNext]
        congr 1
        cases hr : q.reads fallThrough push pop with
        | false => simp
        | true =>
            have := hpos hr
            simp only [if_true]
            omega⟩

/-! ## Contents -/

theorem length_contents : q.contents.length = q.statusCnt := by simp [contents]

theorem full_iff : q.full = true ↔ q.contents.length = 2 ^ w := by
  simp [full, length_contents]

@[simp] theorem contents_reset (zero : α) : (reset zero : Fifo α w).contents = [] := by
  simp [contents, reset]

@[simp] theorem contents_flush : q.flush.contents = [] := by
  simp [contents, flush]

theorem window_memNext : Ring.window (q.memNext push data) q.readPointer
    (q.statusCnt + if q.writes push then 1 else 0) =
      q.contents ++ if q.writes push then [data] else [] := by
  unfold memNext
  split_ifs with hw
  · have hlt := q.writes_lt push hw
    rw [Ring.window_snoc, ← q.writePointer_eq, Function.update_self, contents]
    congr 1
    apply Ring.window_congr
    intro k hk
    apply Function.update_of_ne
    rintro rfl
    rw [q.writePointer_eq] at hk
    exact Ring.slot_not_inWindow hlt hk
  · simp [contents]

theorem contents_next_of_not_passes (hp : q.passes fallThrough push pop = false) :
    (q.next fallThrough push pop data).contents =
      (q.contents ++ if q.writes push then [data] else []).drop
        (if q.reads fallThrough push pop then 1 else 0) := by
  have hpos := q.reads_pos fallThrough push pop hp
  have hcnt : q.statusCnt + (if q.writes push then 1 else 0) =
      (if q.reads fallThrough push pop then 1 else 0) + q.cntNext fallThrough push pop := by
    unfold cntNext
    split_ifs <;> simp_all <;> omega
  have hnext : (q.next fallThrough push pop data).contents =
      Ring.window (q.memNext push data)
        (Ring.slot q.readPointer (if q.reads fallThrough push pop then 1 else 0))
        (q.cntNext fallThrough push pop) := by
    simp [contents, next, hp]
  rw [hnext, ← window_memNext, hcnt, Ring.window_add, List.drop_left']
  simp

theorem contents_next : (q.next fallThrough push pop data).contents =
    if fallThrough then (q.contents ++ if q.writes push then [data] else []).drop (if pop then 1 else 0)
    else q.contents.drop (if pop then 1 else 0) ++ if q.writes push then [data] else [] := by
  have hnil : q.statusCnt = 0 → q.contents = [] := by
    intro h
    simp [contents, h]
  cases hp : q.passes fallThrough push pop with
  | true =>
      simp only [passes, Bool.and_eq_true, beq_iff_eq] at hp
      obtain ⟨⟨⟨hft, h0⟩, hpush⟩, hpop⟩ := hp
      have hnext : (q.next fallThrough push pop data).contents = [] := by
        simp [contents, next, passes, hft, h0, hpush, hpop]
      rw [hnext, hft, hpop, hnil h0]
      cases q.writes push <;> rfl
  | false =>
      rw [q.contents_next_of_not_passes fallThrough push pop data hp]
      cases hr : q.reads fallThrough push pop with
      | true =>
          have hpos := q.reads_pos fallThrough push pop hp hr
          have hpop : pop = true := by
            simp only [reads, Bool.and_eq_true] at hr
            exact hr.1
          have hlen : 1 ≤ q.contents.length := by
            rw [length_contents]
            exact hpos
          simp only [hpop, if_true]
          rw [List.drop_append_of_le_length hlen, ite_self]
      | false =>
          cases hpop : pop with
          | false => simp
          | true =>
              simp only [reads, hpop, empty, Bool.true_and, Bool.not_eq_false', Bool.and_eq_true,
                beq_iff_eq, Bool.not_eq_true'] at hr
              rw [hnil hr.1]
              cases hft : fallThrough with
              | false => simp
              | true =>
                  have hpush : push = false := by simpa [hft] using hr.2
                  simp [writes, hpush]

theorem contents_step : (q.next false push pop data).contents =
    q.contents.drop (if pop then 1 else 0) ++ if push && !q.full then [data] else [] :=
  q.contents_next false push pop data

theorem head_contents (h : q.contents ≠ []) : q.contents.head h = q.dataO false push data := by
  have hpos : 0 < q.statusCnt := by
    rw [← length_contents]
    exact List.length_pos_of_ne_nil h
  obtain ⟨n, hn⟩ := Nat.exists_eq_add_of_lt hpos
  simp only [dataO, Bool.false_and, Bool.false_eq_true, if_false]
  have : q.contents = q.mem q.readPointer :: Ring.window q.mem (q.readPointer + 1) n := by
    rw [contents, hn, Nat.zero_add, Ring.window_cons]
  simp [this]

theorem mem_readPointer {x : α} {l : List α} (h : q.contents = x :: l) :
    q.mem q.readPointer = x := by
  have hne : q.contents ≠ [] := by simp [h]
  have hhead := q.head_contents false x hne
  simp only [h, List.head_cons, dataO, Bool.false_and, Bool.false_eq_true, if_false] at hhead
  exact hhead.symm

theorem mem_readPointer_of_head? {x : α} (h : q.contents.head? = some x) :
    q.mem q.readPointer = x := by
  obtain ⟨l, hl⟩ := List.head?_eq_some_iff.mp h
  exact q.mem_readPointer hl

theorem empty_iff : q.empty false push = true ↔ q.contents = [] := by
  rw [← List.length_eq_zero_iff, length_contents]
  simp [empty]

theorem empty_fallThrough_iff :
    q.empty true push = true ↔ q.contents ++ (if push then [data] else []) = [] := by
  have hlen := q.length_contents
  cases push with
  | false => simpa [empty, ← List.length_eq_zero_iff] using hlen.symm ▸ Iff.rfl
  | true => simp [empty]

theorem dataO_fallThrough {x : α} {l : List α}
    (h : q.contents ++ (if push then [data] else []) = x :: l) :
    q.dataO true push data = x := by
  unfold dataO
  cases hc : q.contents with
  | nil =>
      have h0 : q.statusCnt = 0 := by rw [← length_contents, hc]; rfl
      cases push with
      | false => simp [hc] at h
      | true =>
          simp only [hc, List.nil_append, if_true, List.cons.injEq] at h
          simp [h0, h.1]
  | cons y l' =>
      have hpos : q.statusCnt ≠ 0 := by rw [← length_contents, hc]; simp
      rw [hc, List.cons_append, List.cons.injEq] at h
      simp [hpos, q.mem_readPointer hc, h.1]

end Fifo

end Cva6.Sync
