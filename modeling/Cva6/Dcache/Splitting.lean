import Cva6.Dcache.ByteStates
import Cva6.Dcache.Requests
/-!
# How the write buffer splits a word into transactions

The dirty bytes of an entry are sent by transactions of 1, 2, 4 or 8 bytes. Each takes a naturally
aligned group of dirty bytes, and marks exactly these as sent.
-/

namespace Cva6.Dcache.Wbuffer

open Cva6.Sync

/-! ## Transactions -/

/-- What the write buffer offers the miss unit: `miss_size_o`, `miss_paddr_o`, `miss_wdata_o` and
`miss_id_o`. -/
structure Transaction where
  size : BitVec 2
  paddr : Paddr
  data : Word
  tid : TxId
  deriving DecidableEq

def transaction (q : Regs) (c : Choice) : Transaction :=
  ⟨missSize q c, missPaddr q c, missWdata q c, txId q c⟩

def Transaction.memReq (t : Transaction) (nc : Bool) : MemReq where
  rtype := .STORE
  size := t.size.setWidth 3
  paddr := paddrSizeAlign t.paddr (t.size.setWidth 3)
  data := t.data
  nc := nc
  tid := t.tid
  amoOp := .NONE

theorem storeMemReq_eq (cfg : Cfg) (s : Hw) (i : Dcache.Input) :
    storeMemReq cfg s i =
      (transaction s.wbuf i.choice).memReq (missNc cfg s.wbuf i.choice (cacheEn s)) := rfl

/-- The bytes of the word that lie in the address range of the transaction. -/
def Transaction.covers (t : Transaction) (k : Lane) : Bool :=
  decide (t.paddr.lane.val ≤ k.val ∧ k.val < t.paddr.lane.val + 2 ^ t.size.toNat)

def issued (n : Ptr) (a : Audit) (i : Input) : List Transaction :=
  if dirtyRdEn a.q i && n == dirtyPtr a.q a.choice then [transaction a.q a.choice] else []

def Unwritten (cfg : Cfg) (n : Ptr) (a : Audit) (i : Input) : Prop :=
  (dataGnt cfg a.q i && n == wrPtr a.q i) = false

instance (cfg : Cfg) (n : Ptr) (a : Audit) (i : Input) : Decidable (Unwritten cfg n a i) :=
  inferInstanceAs (Decidable (_ = _))

/-! ## Offsets and sizes -/

/-- A lane that is a multiple of the size. -/
def AtSize (offset : Lane) (size : BitVec 2) : Prop :=
  alignLane offset (size.setWidth 3) = offset

instance (offset : Lane) (size : BitVec 2) : Decidable (AtSize offset size) :=
  inferInstanceAs (Decidable (_ = _))

theorem AtSize.byteEnable : ∀ {offset : Lane} {size : BitVec 2}, AtSize offset size →
    ∀ k, toByteEnable8 offset size k =
      decide (offset.val ≤ k.val ∧ k.val < offset.val + 2 ^ size.toNat) := by
  decide +kernel

theorem AtSize.dvd : ∀ {offset : Lane} {size : BitVec 2}, AtSize offset size →
    2 ^ size.toNat ∣ offset.val ∧ offset.val + 2 ^ size.toNat ≤ 8 := by
  decide +kernel

/-! ## The entry that is sent -/

/-- The entry the transactions are made of has bytes to send. -/
structure Offers (q : Regs) : Prop where
  dirty_valid : ∀ n k, (q.buffer n).dirty k = true → (q.buffer n).valid k = true
  dirtyLock : ∀ n ∈ q.dirtyLock, dirty q n = true

variable {cfg : Cfg} {a : Audit} {i : Input} {n : Ptr}

theorem reset_offers : Offers reset :=
  ⟨nofun, nofun⟩

theorem Offers.dirty_dirtyPtr (h : Offers a.q) (hen : dirtyRdEn a.q i = true) :
    dirty a.q (dirtyPtr a.q a.choice) = true :=
  Wbuffer.dirty_dirtyPtr h.dirtyLock a.chosen (of_dirtyRdEn hen).1

theorem Offers.next (h : Offers a.q) : Offers (a.next cfg i).q where
  dirty_valid n k hd := by
    rcases dirty_next.mp hd with ⟨hd, -⟩ | hs
    · exact valid_next.mpr (.inl ⟨h.dirty_valid n k hd, fun _ => hd⟩)
    · exact valid_next.mpr (.inr hs)
  dirtyLock := next_dirtyLock h.dirtyLock a.chosen

/-! ## Every run -/

structure Transaction.Splits (t : Transaction) (wtag : WordAddr) (data : Word) (m : Mask) :
    Prop where
  word : t.paddr.word = wtag
  aligned : AtSize t.paddr.lane t.size
  subset : ∀ k, t.covers k = true → m k = true
  data : ∀ k, t.covers k = true → t.data k = data k

theorem Offers.splits (h : Offers a.q) (hen : dirtyRdEn a.q i = true) :
    (transaction a.q a.choice).Splits (a.q.buffer (dirtyPtr a.q a.choice)).wtag
      (a.q.buffer (dirtyPtr a.q a.choice)).data (a.q.buffer (dirtyPtr a.q a.choice)).dirty := by
  have ht := transferOk (h.dirty_dirtyPtr hen)
  have hcovers (k : Lane) (hk : (transaction a.q a.choice).covers k = true) :
      toByteEnable8 (lzc (bdirty a.q (dirtyPtr a.q a.choice)))
        (toSize64 (bdirty a.q (dirtyPtr a.q a.choice))) k = true := by
    rw [AtSize.byteEnable ht.align]
    exact hk
  constructor
  · rfl
  · exact ht.align
  · intro k hk
    exact (bdirty_iff.mp (ht.subset k (hcovers k hk))).2.1
  · intro k hk
    exact congrArg _ (ht.lane k (hcovers k hk))

/-- The bytes of entry `n` that are marked as sent are those of the transaction. -/
theorem Offers.covers_issued (h : Offers a.q) (k : Lane) :
    (issued n a i).countP (·.covers k) = (sent a.q a.choice i n k).toNat := by
  unfold issued sent
  cases hs : dirtyRdEn a.q i && n == dirtyPtr a.q a.choice with
  | false => rfl
  | true =>
      have hen := (Bool.and_eq_true _ _ ▸ hs).1
      have hbe : txBe a.q a.choice k = (transaction a.q a.choice).covers k :=
        AtSize.byteEnable (transferOk (h.dirty_dirtyPtr hen)).align k
      rw [if_pos rfl, Bool.true_and, hbe, List.countP_cons, List.countP_nil]
      cases (transaction a.q a.choice).covers k <;> rfl

theorem Offers.dirty_split (h : Offers a.q) (hu : Unwritten cfg n a i) (k : Lane) :
    (sent a.q a.choice i n k).toNat + (((a.next cfg i).q.buffer n).dirty k).toNat =
      ((a.q.buffer n).dirty k).toNat := by
  have hstored : stored cfg a.q i n k = false := by
    rw [stored, show (dataGnt cfg a.q i && n == wrPtr a.q i) = false from hu, Bool.false_and]
  have hnext : ((a.next cfg i).q.buffer n).dirty k =
      ((a.q.buffer n).dirty k && !sent a.q a.choice i n k) := by
    show (bufferNext cfg a.q a.choice i n).dirty k = _
    rw [bufferNext_dirty, hstored, Bool.or_false]
  rw [hnext]
  cases hs : sent a.q a.choice i n k with
  | false => simp
  | true =>
      simp only [sent, Bool.and_eq_true, beq_iff_eq] at hs
      obtain ⟨⟨hen, rfl⟩, hbe⟩ := hs
      have hdirty := (bdirty_iff.mp ((transferOk (h.dirty_dirtyPtr hen)).subset k hbe)).2.1
      rw [hdirty]
      rfl

theorem Unwritten.wtag_data (hu : Unwritten cfg n a i) :
    ((a.next cfg i).q.buffer n).wtag = (a.q.buffer n).wtag ∧
      ((a.next cfg i).q.buffer n).data = (a.q.buffer n).data := by
  have hu : (dataGnt cfg a.q i && n == wrPtr a.q i) = false := hu
  constructor
  · show (bufferNext cfg a.q a.choice i n).wtag = _
    rw [bufferNext_wtag, hu, if_neg Bool.false_ne_true]
  · funext k
    show (bufferNext cfg a.q a.choice i n).data k = _
    rw [bufferNext_data, stored, hu, Bool.false_and, if_neg Bool.false_ne_true]

/-- While no store goes to the entry, each of its bytes that was dirty is still dirty or was in
exactly one transaction, and the other bytes were in none. -/
theorem Offers.split_run (h : Offers a.q) (post : List Input)
    (hu : (audited cfg).ThroughoutFrom (Unwritten cfg n) a post) :
    (∀ t ∈ (audited cfg).logFrom (issued n) a post,
      t.Splits (a.q.buffer n).wtag (a.q.buffer n).data (a.q.buffer n).dirty) ∧
    ∀ k, ((audited cfg).logFrom (issued n) a post).countP (·.covers k) +
        ((((audited cfg).runFrom a post).q.buffer n).dirty k).toNat =
      ((a.q.buffer n).dirty k).toNat := by
  induction post generalizing a with
  | nil => exact ⟨nofun, fun k => Nat.zero_add _⟩
  | cons i post ih =>
      obtain ⟨hi, hpost⟩ := hu
      obtain ⟨hsplits, hcount⟩ := ih (a := a.next cfg i) h.next hpost
      obtain ⟨hwtag, hdata⟩ := hi.wtag_data
      constructor
      · intro t ht
        rcases List.mem_append.mp ht with ht | ht
        · unfold issued at ht
          split at ht
          · rename_i hs
            rw [Bool.and_eq_true, beq_iff_eq] at hs
            rw [List.mem_singleton.mp ht, hs.2]
            exact h.splits hs.1
          · cases ht
        · obtain ⟨hword, haligned, hsubset, hd⟩ := hsplits t ht
          refine ⟨hword.trans hwtag, haligned, fun k hk => ?_, fun k hk => ?_⟩
          · have hle := h.dirty_split hi k
            rw [hsubset k hk] at hle
            cases hold : (a.q.buffer n).dirty k with
            | true => rfl
            | false => rw [hold] at hle; simp at hle
          · rw [hd k hk, hdata]
      · intro k
        have hstep := h.dirty_split hi k
        have hrest := hcount k
        have hfirst := h.covers_issued (i := i) (n := n) k
        show (issued n a i ++ (audited cfg).logFrom (issued n) (a.next cfg i) post).countP _ +
          ((((audited cfg).runFrom (a.next cfg i) post).q.buffer n).dirty k).toNat = _
        rw [List.countP_append]
        omega

theorem offers_run (cfg : Cfg) (pre : List Input) : Offers ((audited cfg).run pre).q :=
  Machine.invariant (E := fun _ _ => True) (I := fun a : Audit => Offers a.q) reset_offers
    (fun _ _ h _ => h.next) pre (fun _ _ _ _ => trivial)

end Cva6.Dcache.Wbuffer
