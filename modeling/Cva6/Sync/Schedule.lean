import Mathlib.Data.List.Sort
import Cva6.Sync.Machine
/-!
# Schedules

Units of different latencies that share one port without a queue. What was accepted by any of
them is due in a known number of cycles; when no two are due in the same cycle, none is lost.
-/

namespace Cva6.Sync

/-- Accepted items with the number of cycles until each is due. -/
abbrev Schedule (α : Type*) := List (α × Nat)

namespace Schedule

variable {α : Type*}

def items (l : Schedule α) : List α := l.map Prod.fst

def due (l : Schedule α) : List α := items (l.filter fun e => e.2 == 0)

def tick (l : Schedule α) : Schedule α :=
  (l.filter fun e => e.2 != 0).map fun e => (e.1, e.2 - 1)

def Ordered (l : Schedule α) : Prop := l.Pairwise fun e e' => e.2 < e'.2

variable {l l' : Schedule α} {a : α} {n : Nat}

@[simp] theorem items_append : items (l ++ l') = items l ++ items l' := List.map_append

@[simp] theorem due_append : due (l ++ l') = due l ++ due l' := by simp [due]

@[simp] theorem tick_append : tick (l ++ l') = tick l ++ tick l' := by simp [tick]

@[simp] theorem due_cons_zero : due ((a, 0) :: l) = a :: due l := rfl

@[simp] theorem due_cons_succ : due ((a, n + 1) :: l) = due l := rfl

@[simp] theorem tick_cons_zero : tick ((a, 0) :: l) = tick l := rfl

@[simp] theorem tick_cons_succ : tick ((a, n + 1) :: l) = (a, n) :: tick l := rfl

theorem due_eq_nil (h : ∀ e ∈ l, 0 < e.2) : due l = [] := by
  have hfilter : l.filter (fun e => e.2 == 0) = [] := by
    rw [List.filter_eq_nil_iff]
    intro e he
    have := h e he
    simp
    omega
  rw [due, hfilter]
  rfl

theorem Ordered.pos_of_cons {e : α × Nat} (h : Ordered (e :: l)) : ∀ e' ∈ l, 0 < e'.2 := by
  intro e' he'
  have := (List.pairwise_cons.mp h).1 e' he'
  omega

theorem Ordered.length_due_le (h : Ordered l) : (due l).length ≤ 1 := by
  cases l with
  | nil => exact Nat.zero_le _
  | cons e l =>
      have hnil := due_eq_nil h.pos_of_cons
      obtain ⟨a, n⟩ := e
      cases n <;> simp [hnil]

theorem items_tick_of_pos (h : ∀ e ∈ l, 0 < e.2) : items (tick l) = items l := by
  have hfilter : l.filter (fun e => e.2 != 0) = l := by
    rw [List.filter_eq_self]
    intro e he
    have := h e he
    simp
    omega
  rw [tick, hfilter]
  simp [items]

theorem Ordered.items_eq (h : Ordered l) : items l = due l ++ items (tick l) := by
  cases l with
  | nil => rfl
  | cons e l =>
      have hpos := h.pos_of_cons
      obtain ⟨a, n⟩ := e
      cases n with
      | zero => rw [due_cons_zero, tick_cons_zero, due_eq_nil hpos, items_tick_of_pos hpos]; rfl
      | succ n =>
          rw [due_cons_succ, tick_cons_succ, due_eq_nil hpos]
          exact congrArg (a :: ·) (items_tick_of_pos hpos).symm

theorem lt_of_mem_tick {e : α × Nat} (h : ∀ e ∈ l, e.2 < n + 1) (he : e ∈ tick l) : e.2 < n := by
  obtain ⟨e', he', rfl⟩ := List.mem_map.mp he
  obtain ⟨hmem, hne⟩ := List.mem_filter.mp he'
  have := h e' hmem
  simp at hne
  show e'.2 - 1 < n
  omega

/-! ## The ledger of a port -/

inductive Event (α : Type*) where
  | accepted (a : α)
  | delivered (a : α)
  | dropped
  deriving DecidableEq, Repr

/-- What is owed after an event: only the oldest item may be delivered, everything may be
dropped. -/
def settle [DecidableEq α] : List α → Event α → Option (List α)
  | l, .accepted a => some (l ++ [a])
  | a :: l, .delivered b => if a = b then some l else none
  | [], .delivered _ => none
  | _, .dropped => some []

section Ledger

variable [DecidableEq α] (xs ys : List α)

theorem settle_delivered : ((xs.map Event.delivered).foldlM settle (xs ++ ys)) = some ys := by
  induction xs with
  | nil => rfl
  | cons x xs ih => simpa [settle] using ih

theorem settle_accepted : ((xs.map Event.accepted).foldlM settle ys) = some (ys ++ xs) := by
  induction xs generalizing ys with
  | nil => simp
  | cons x xs ih => simpa [settle] using ih (ys ++ [x])

end Ledger

end Schedule

/-! ## Machines that keep a schedule -/

namespace Machine

open Schedule

variable {σ ι α : Type*} (m : Machine σ ι) (legal : ι → Prop) (drop : ι → Bool)
  (delivers accepts : σ → ι → List α)

def portEvents (s : σ) (i : ι) : List (Event α) :=
  (delivers s i).map .delivered ++ (if drop i then [.dropped] else []) ++
    (accepts s i).map .accepted

/-- The machine delivers what is due, and nothing else; it keeps what is not, unless everything
is dropped; and what it accepts is due after all the rest. -/
structure Keeps (Holds : σ → Schedule α → Prop) : Prop where
  init : Holds m.init []
  ordered : ∀ s l, Holds s l → Ordered l
  step : ∀ s i l, Holds s l → legal i → drop i = false →
    delivers s i = due l ∧
      ∃ new, items new = accepts s i ∧ Holds (m.next s i) (tick l ++ new)
  dropping : ∀ s i l, Holds s l → legal i → drop i = true →
    delivers s i <+: items l ∧ ∃ new, items new = accepts s i ∧ Holds (m.next s i) new

variable {m legal drop delivers accepts} {Holds : σ → Schedule α → Prop}

section Replay

variable [DecidableEq α]

/-- Only the oldest item owed is ever delivered. -/
theorem Keeps.replay (h : m.Keeps legal drop delivers accepts Holds) (ins : List ι)
    (hlegal : ∀ i ∈ ins, legal i) :
    ∃ l, Holds (m.run ins) l ∧
      (m.log (portEvents drop delivers accepts) ins).foldlM settle [] = some (items l) := by
  induction ins using List.reverseRecOn with
  | nil => exact ⟨[], h.init, rfl⟩
  | append_singleton ins i ih =>
      obtain ⟨l, hl, hreplay⟩ := ih fun j hj => hlegal j (List.mem_append_left _ hj)
      have hi := hlegal i (by simp)
      rw [m.run_snoc, m.log_snoc, List.foldlM_append, hreplay]
      cases hd : drop i with
      | false =>
          obtain ⟨hout, new, hnew, hnext⟩ := h.step _ i l hl hi hd
          refine ⟨_, hnext, ?_⟩
          have hitems := (h.ordered _ l hl).items_eq
          simp [portEvents, hd, hitems, hout, settle_delivered, settle_accepted, hnew]
      | true =>
          obtain ⟨⟨rest, hrest⟩, new, hnew, hnext⟩ := h.dropping _ i l hl hi hd
          refine ⟨_, hnext, ?_⟩
          simp [portEvents, hd, ← hrest, settle_delivered, settle_accepted, hnew, settle]

end Replay

/-- What is owed is delivered in order when its time has come, if nothing is dropped. -/
theorem Keeps.delivered_of_time (h : m.Keeps legal drop delivers accepts Holds) {ins : List ι}
    (hlegal : ∀ i ∈ ins, legal i) (hdrop : ∀ i ∈ ins, drop i = false) {s : σ}
    {l l' : Schedule α} (hs : Holds s (l ++ l')) (htime : ∀ e ∈ l, e.2 < ins.length) :
    items l <+: m.logFrom delivers s ins := by
  induction ins generalizing s l l' with
  | nil =>
      have hnil : l = [] := List.eq_nil_iff_forall_not_mem.mpr fun e he => by
        simpa using htime e he
      rw [hnil]
      exact List.nil_prefix
  | cons i ins ih =>
      cases hl : l with
      | nil => exact List.nil_prefix
      | cons e rest =>
          -- nothing behind the first item is due before it
          have hord := h.ordered _ _ hs
          have hlater : due l' = [] := by
            rw [hl] at hord
            exact due_eq_nil fun e' he' => hord.pos_of_cons e' (List.mem_append_right _ he')
          obtain ⟨hout, new, -, hnext⟩ := h.step s i _ hs (hlegal i List.mem_cons_self)
            (hdrop i List.mem_cons_self)
          rw [tick_append, List.append_assoc] at hnext
          have hrest := ih (fun j hj => hlegal j (List.mem_cons_of_mem _ hj))
            (fun j hj => hdrop j (List.mem_cons_of_mem _ hj)) hnext
            fun e he => lt_of_mem_tick (by simpa using htime) he
          have hfirst : Ordered l := (List.pairwise_append.mp hord).1
          rw [← hl, hfirst.items_eq, logFrom, hout, due_append, hlater, List.append_nil]
          exact List.prefix_append_right_inj _ |>.mpr hrest

end Machine

end Cva6.Sync
