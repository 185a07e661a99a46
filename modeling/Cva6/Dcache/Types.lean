import Cva6.Lsu.Types
import Mathlib.Data.Fintype.Pi
import Mathlib.Data.List.FinRange
/-!
# Types of the data cache

`wt_cache_pkg.sv` and the data-cache types of `ariane_pkg.sv`, for the 32 KiB
cache with 8 ways and lines of two 64-bit words. A word is its eight byte lanes,
a byte enable one bit for each lane, and an address is kept as the fields the
cache slices out of it.
-/

namespace Cva6.Dcache

abbrev Byte := BitVec 8
abbrev Lane := Fin 8
abbrev Mask := Lane → Bool
abbrev Word := Lane → Byte
/-- The word inside a line, `off[3]`, which also selects the SRAM bank. -/
abbrev Bank := Fin 2
abbrev Line := Bank → Word
abbrev Way := Fin 8
abbrev WayMask := Way → Bool
abbrev Idx := BitVec 8
abbrev Tag := BitVec 20
/-- An entry of the write buffer. -/
abbrev Ptr := Fin 8
abbrev TxId := Fin 4

/-- The address of a 64-bit word: `wtag` of a write buffer entry. -/
structure WordAddr where
  tag : Tag
  idx : Idx
  bank : Bank
  deriving DecidableEq, Repr, Inhabited

def WordAddr.line (a : WordAddr) : Tag × Idx := (a.tag, a.idx)

structure Paddr where
  word : WordAddr
  lane : Lane
  deriving DecidableEq, Repr, Inhabited

/-- An address as the cache splits it: tag, index, bank and byte. -/
def paddrOf (a : BitVec 32) : Paddr :=
  ⟨⟨a.extractLsb' 12 20, a.extractLsb' 4 8, if a.getLsbD 3 then 1 else 0⟩,
    Fin.ofNat 8 (a.setWidth 3).toNat⟩

/-! ## Reductions and priority encoders -/

/-- The reduction `|m`. -/
def any {α : Type*} [Fintype α] (m : α → Bool) : Bool := decide (∃ k, m k = true)

theorem any_iff {α : Type*} [Fintype α] {m : α → Bool} : any m = true ↔ ∃ k, m k = true := by
  simp [any]

theorem any_eq_false {α : Type*} [Fintype α] {m : α → Bool} :
    any m = false ↔ ∀ k, m k = false := by
  simp [any]

/-- The trailing zero counter `lzc`; with no bit set it answers the last index. -/
def lzc {n : Nat} (m : Fin (n + 1) → Bool) : Fin (n + 1) :=
  ((List.finRange (n + 1)).find? m).getD (Fin.last n)

theorem lzc_of_any {n : Nat} {m : Fin (n + 1) → Bool} (h : any m = true) : m (lzc m) = true := by
  obtain ⟨k, hk⟩ := any_iff.mp h
  unfold lzc
  cases hfind : (List.finRange (n + 1)).find? m with
  | none => exact absurd hk (List.find?_eq_none.mp hfind k (List.mem_finRange k))
  | some j => exact List.find?_some hfind

/-! ## Transfer sizes -/

def lanes (m : BitVec 8) : Mask := fun k => m.getLsbD k

def toSize64 (be : Mask) : BitVec 2 :=
  if be = lanes 0xff then 3
  else if be = lanes 0x0f ∨ be = lanes 0xf0 then 2
  else if be = lanes 0xc0 ∨ be = lanes 0x30 ∨ be = lanes 0x0c ∨ be = lanes 0x03 then 1
  else 0

def toByteEnable8 (offset : Lane) (size : BitVec 2) : Mask := fun k =>
  match size with
  | 0#2 => k == offset
  | 1#2 => offset.val ≤ k.val && k.val < offset.val + 2
  | 2#2 => offset.val ≤ k.val && k.val < offset.val + 4
  | _ => true

/-- The lane that `repData64` copies to lane `k`; it wraps around where the source
would leave the word, which an aligned offset never does. -/
def repLane (offset : Lane) (size : BitVec 2) (k : Lane) : Lane :=
  match size with
  | 0#2 => offset
  | 1#2 => offset + Fin.ofNat 8 (k.val % 2)
  | 2#2 => offset + Fin.ofNat 8 (k.val % 4)
  | _ => k

def repData64 (data : Word) (offset : Lane) (size : BitVec 2) : Word := fun k =>
  data (repLane offset size k)

def alignLane (lane : Lane) (size : BitVec 3) : Lane :=
  match size with
  | 1#3 => Fin.ofNat 8 (lane.val / 2 * 2)
  | 2#3 => Fin.ofNat 8 (lane.val / 4 * 4)
  | 3#3 | 7#3 => 0
  | _ => lane

/-- `paddrSizeAlign`; a line starts at its first word. -/
def paddrSizeAlign (a : Paddr) (size : BitVec 3) : Paddr where
  word := if size = 7 then { a.word with bank := 0 } else a.word
  lane := alignLane a.lane size

theorem paddrSizeAlign_word (a : Paddr) (size : BitVec 2) :
    (paddrSizeAlign a (size.setWidth 3)).word = a.word := by
  refine if_neg ?_
  revert size
  decide

theorem setWidth_size (size : BitVec 2) : (size.setWidth 3).setWidth 2 = size := by
  revert size
  decide

/-- What is sent for the byte mask `m`: the transfer covers bytes of the mask only, puts
each into its own lane, and is aligned to its size. -/
structure TransferOk (m : Mask) : Prop where
  subset : ∀ k, toByteEnable8 (lzc m) (toSize64 m) k = true → m k = true
  lane : ∀ k, toByteEnable8 (lzc m) (toSize64 m) k = true → repLane (lzc m) (toSize64 m) k = k
  align : alignLane (lzc m) ((toSize64 m).setWidth 3) = lzc m
  nonempty : toByteEnable8 (lzc m) (toSize64 m) (lzc m) = true

theorem transferOk {m : Mask} (h : any m = true) : TransferOk m := by
  by_cases hconst : m = lanes 0xff ∨ m = lanes 0x0f ∨ m = lanes 0xf0 ∨ m = lanes 0xc0 ∨
      m = lanes 0x30 ∨ m = lanes 0x0c ∨ m = lanes 0x03
  · rcases hconst with rfl | rfl | rfl | rfl | rfl | rfl | rfl <;>
      exact ⟨by decide +kernel, by decide +kernel, by decide +kernel, by decide +kernel⟩
  · have hsize : toSize64 m = 0 := by
      simp only [not_or] at hconst
      simp only [toSize64, hconst, or_self, if_false]
    have hbe (k : Lane) : toByteEnable8 (lzc m) 0 k = (k == lzc m) := rfl
    constructor
    · intro k hk
      rw [hsize, hbe, beq_iff_eq] at hk
      rw [hk]
      exact lzc_of_any h
    · intro k hk
      rw [hsize, hbe, beq_iff_eq] at hk
      rw [hsize, hk]
      rfl
    · rw [hsize]
      rfl
    · rw [hsize, hbe, beq_self_eq_true]

/-! ## Requests and responses -/

/-- A read port or the write port, in the order of their numbers. -/
inductive Port where
  | rd (p : Fin 2)
  | wr
  deriving DecidableEq, Repr, Inhabited

/-- The lowest port of a request vector; with no request it is the last one. -/
def lowestPort (m : Port → Bool) : Port :=
  if m (.rd 0) then .rd 0 else if m (.rd 1) then .rd 1 else .wr

def anyPort (m : Port → Bool) : Bool := m (.rd 0) || m (.rd 1) || m .wr

theorem anyPort_iff {m : Port → Bool} : anyPort m = true ↔ m (lowestPort m) = true := by
  unfold anyPort lowestPort
  cases h0 : m (.rd 0) <;> cases h1 : m (.rd 1) <;> simp [h0, h1]

theorem anyPort_of {m : Port → Bool} {p : Port} (h : m p = true) : anyPort m = true := by
  rw [anyPort, Bool.or_eq_true, Bool.or_eq_true]
  cases p with
  | rd p =>
      obtain rfl | rfl : p = 0 ∨ p = 1 := by omega
      · exact .inl (.inl h)
      · exact .inl (.inr h)
  | wr => exact .inr h

/-- `dcache_req_i_t` of a read port. -/
structure LoadReq where
  idx : Idx
  bank : Bank
  lane : Lane
  tag : Tag
  dataReq : Bool
  dataSize : BitVec 2
  killReq : Bool
  tagValid : Bool
  deriving DecidableEq, Repr, Inhabited

/-- `dcache_req_i_t` of the write port. -/
structure StoreReq where
  wtag : WordAddr
  wdata : Word
  be : Mask
  dataReq : Bool
  deriving DecidableEq, Inhabited

structure AmoReq where
  req : Bool
  op : Lsu.Amo
  size : BitVec 2
  paddr : Paddr
  operandB : Word
  deriving DecidableEq, Inhabited

inductive ReqType where
  | STORE | LOAD | ATOMIC
  deriving DecidableEq, Repr, Inhabited

/-- `dcache_req_t`. -/
structure MemReq where
  rtype : ReqType
  size : BitVec 3
  paddr : Paddr
  data : Word
  nc : Bool
  tid : TxId
  amoOp : Lsu.Amo
  deriving DecidableEq, Inhabited

structure Inval where
  vld : Bool
  all : Bool
  idx : Idx
  way : Way
  deriving DecidableEq, Repr, Inhabited

inductive RtrnType where
  | INV_REQ | STORE_ACK | LOAD_ACK | ATOMIC_ACK
  deriving DecidableEq, Repr, Inhabited

/-- `dcache_rtrn_t`. -/
structure Rtrn where
  rtype : RtrnType
  data : Line
  inv : Inval
  tid : TxId
  deriving DecidableEq, Inhabited

/-- What the cache reads of `ariane_cfg_t`: the cacheable and the non-idempotent
regions, which are decided by the tag. -/
structure Cfg where
  cacheable : Tag → Bool
  nonIdempotent : Tag → Bool

/-- `dcache_way_bin2oh`. -/
def bin2oh (w : Way) : WayMask := fun j => j == w

end Cva6.Dcache
