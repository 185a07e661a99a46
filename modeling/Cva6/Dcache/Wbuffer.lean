import Cva6.Dcache.Mem
/-!
# Write buffer

`wt_dcache_wbuffer.sv`: eight words that collect stores, the transactions that send
their dirty bytes to memory, and the lookup that finds the ways to update when a
transaction returns. The process `p_buffer` is seen from one entry. The round-robin
choices are inputs; an arbiter with `LockIn` keeps its choice until it is granted.
-/

namespace Cva6.Dcache.Wbuffer

structure TxStat where
  vld : Bool
  be : Mask
  ptr : Ptr
  deriving DecidableEq, Inhabited

structure Regs where
  buffer : Ptr → Entry
  txStat : TxId → TxStat
  niPending : Ptr → Bool
  checkPtrQ : Ptr
  checkPtrQ1 : Ptr
  checkEnQ : Bool
  checkEnQ1 : Bool
  rdTagQ : Tag
  rdHitOhQ : WayMask
  wrClVldQ : Bool
  wrClIdxQ : Idx
  /-- The contents of `i_rtrn_id_fifo`. -/
  rtrnFifo : List TxId
  /-- The locked choices of `i_dirty_rr` and `i_tx_id_rr`. -/
  dirtyLock : Option Ptr
  txLock : Option TxId

def Entry.reset : Entry := ⟨default, fun _ => 0, fun _ => false, fun _ => false, fun _ => false,
  false, fun _ => false⟩

def reset : Regs where
  buffer := fun _ => Entry.reset
  txStat := fun _ => ⟨false, fun _ => false, 0⟩
  niPending := fun _ => false
  checkPtrQ := 0
  checkPtrQ1 := 0
  checkEnQ := false
  checkEnQ1 := false
  rdTagQ := 0
  rdHitOhQ := fun _ => false
  wrClVldQ := false
  wrClIdxQ := 0
  rtrnFifo := []
  dirtyLock := none
  txLock := none

/-- The choices of the arbiters. -/
structure Choice where
  dirtyPtr : Ptr
  txId : TxId
  checkPtr : Ptr
  deriving DecidableEq, Repr, Inhabited

structure Input where
  store : StoreReq
  missAck : Bool
  missRtrnVld : Bool
  missRtrnId : TxId
  rdAck : Bool
  rdHitOh : WayMask
  wrClVld : Bool
  wrClIdx : Idx
  wrAck : Bool

variable (cfg : Cfg) (q : Regs) (c : Choice) (i : Input)

/-! ## Status of the entries -/

/-- Dirty bytes that are ready for transmission: none while the word is in flight. -/
def bdirty (n : Ptr) : Mask := fun k =>
  !any (q.buffer n).txblock && (q.buffer n).dirty k && (q.buffer n).valid k

def dirty (n : Ptr) : Bool := any (bdirty q n)

def valid (n : Ptr) : Bool := any (q.buffer n).valid

def tocheck (n : Ptr) : Bool := !(q.buffer n).checked && valid q n

def emptyO : Bool := !any (valid q)

/-! ## Transactions to memory -/

def dirtyPtr : Ptr := q.dirtyLock.getD c.dirtyPtr

def txId : TxId := q.txLock.getD c.txId

def bdirtyOff : Lane := lzc (bdirty q (dirtyPtr q c))

def missSize : BitVec 2 := toSize64 (bdirty q (dirtyPtr q c))

def txBe : Mask := toByteEnable8 (bdirtyOff q c) (missSize q c)

def missPaddr : Paddr := ⟨(q.buffer (dirtyPtr q c)).wtag, bdirtyOff q c⟩

def missWdata : Word :=
  repData64 (q.buffer (dirtyPtr q c)).data (bdirtyOff q c) (missSize q c)

def freeTxSlots : Bool := any fun id => !(q.txStat id).vld

def missReq : Bool := any (dirty q) && freeTxSlots q

def dirtyRdEn : Bool := missReq q && i.missAck

/-- `miss_nc_o`, given `cache_en_i`. -/
def missNc (cacheEn : Bool) : Bool := !cacheEn || !cfg.cacheable (missPaddr q c).word.tag

/-! ## Lookup in the cache -/

def rdReq : Bool := any (tocheck q)

def rdPaddr : WordAddr := (q.buffer c.checkPtr).wtag

/-! ## Returning transactions -/

def rtrnId : TxId := q.rtrnFifo.headD 0

def rtrnPtr : Ptr := (q.txStat (rtrnId q)).ptr

def rtrnBe : Mask := (q.txStat (rtrnId q)).be

/-- `wr_data_be_o`: bytes written again while in flight stay in the buffer. -/
def wrDataBe : Mask := fun k => rtrnBe q k && !(q.buffer (rtrnPtr q)).dirty k

def rtrnReady : Bool := !q.rtrnFifo.isEmpty && (q.buffer (rtrnPtr q)).checked

/-- The returned word is in the cache and has to be updated there. -/
def rtrnHit : Bool := any (wrDataBe q) && any (q.buffer (rtrnPtr q)).hitOh

def wrReq : WayMask := fun way =>
  rtrnReady q && rtrnHit q && (q.buffer (rtrnPtr q)).hitOh way

def evict : Bool := rtrnReady q && (!rtrnHit q || i.wrAck)

/-! ## Stores -/

def wbufferHitOh : Ptr → Bool := fun n => valid q n && (q.buffer n).wtag == i.store.wtag

def full : Bool := !any fun n => !valid q n

def wrPtr : Ptr :=
  if any (wbufferHitOh q i) then lzc (wbufferHitOh q i) else lzc fun n => !valid q n

def rdy : Bool := any (wbufferHitOh q i) || !full q

def isNi : Bool := cfg.nonIdempotent i.store.wtag.tag

def niConflict : Bool := isNi cfg i && any q.niPending

def dataGnt : Bool := i.store.dataReq && rdy q i && !niConflict cfg q i

/-! ## The process `p_buffer` -/

def invalHit (n : Ptr) : Bool :=
  (i.wrClVld && valid q n && (q.buffer n).wtag.idx == i.wrClIdx) ||
    (q.wrClVldQ && valid q n && (q.buffer n).wtag.idx == q.wrClIdxQ)

def Entry.check (e : Entry) (hitOh : WayMask) : Entry :=
  { e with
    checked := e.checked || any e.valid
    hitOh := if any e.valid then hitOh else e.hitOh }

/-- A transaction with the bytes `be` is done: what is not dirty leaves the buffer. -/
def Entry.evict (e : Entry) (be : Mask) : Entry :=
  let e' := { e with
    txblock := fun k => e.txblock k && !be k
    valid := fun k => e.valid k && !(be k && !e.dirty k) }
  { e' with checked := e.checked && any e'.valid }

def Entry.send (e : Entry) (be : Mask) : Entry :=
  { e with dirty := fun k => e.dirty k && !be k, txblock := fun k => e.txblock k || be k }

def Entry.write (e : Entry) (r : StoreReq) : Entry :=
  { e with
    checked := false
    wtag := r.wtag
    valid := fun k => e.valid k || r.be k
    dirty := fun k => e.dirty k || r.be k
    data := fun k => if r.be k then r.wdata k else e.data k }

def bufferNext (n : Ptr) : Entry :=
  let e := q.buffer n
  let e := if q.checkEnQ1 && n == q.checkPtrQ1 then Entry.check e q.rdHitOhQ else e
  let e := if invalHit q i n then { e with checked := false } else e
  let e := if evict q i && n == rtrnPtr q then Entry.evict e (rtrnBe q) else e
  let e := if dirtyRdEn q i && n == dirtyPtr q c then Entry.send e (txBe q c) else e
  if dataGnt cfg q i && n == wrPtr q i then Entry.write e i.store else e

def niPendingNext (n : Ptr) : Bool :=
  if dataGnt cfg q i && n == wrPtr q i then isNi cfg i
  else if evict q i && n == rtrnPtr q &&
      !any (Entry.evict (q.buffer n) (rtrnBe q)).valid then false
  else q.niPending n

/-- The process `p_tx_stat`. -/
def txStatNext (id : TxId) : TxStat :=
  if dirtyRdEn q i && id == txId q c then ⟨true, txBe q c, dirtyPtr q c⟩
  else if evict q i && id == rtrnId q then { q.txStat id with vld := false }
  else q.txStat id

def rtrnFifoNext : List TxId :=
  let fifo := if evict q i then q.rtrnFifo.tail else q.rtrnFifo
  if i.missRtrnVld && q.rtrnFifo.length != 4 then fifo ++ [i.missRtrnId] else fifo

def next : Regs where
  buffer := bufferNext cfg q c i
  txStat := txStatNext q c i
  niPending := niPendingNext cfg q i
  checkPtrQ := c.checkPtr
  checkPtrQ1 := q.checkPtrQ
  checkEnQ := rdReq q && i.rdAck
  checkEnQ1 := q.checkEnQ
  rdTagQ := (rdPaddr q c).tag
  rdHitOhQ := i.rdHitOh
  wrClVldQ := i.wrClVld
  wrClIdxQ := i.wrClIdx
  rtrnFifo := rtrnFifoNext q i
  dirtyLock := if any (dirty q) && !dirtyRdEn q i then some (dirtyPtr q c) else none
  txLock := if freeTxSlots q && !dirtyRdEn q i then some (txId q c) else none

/-! ## What a cycle does to an entry -/

def stored (n : Ptr) : Mask := fun k => dataGnt cfg q i && n == wrPtr q i && i.store.be k

def sent (n : Ptr) : Mask := fun k => dirtyRdEn q i && n == dirtyPtr q c && txBe q c k

def returned (n : Ptr) : Mask := fun k => evict q i && n == rtrnPtr q && rtrnBe q k

theorem bufferNext_valid (n : Ptr) (k : Lane) :
    (bufferNext cfg q c i n).valid k =
      (((q.buffer n).valid k && !(returned q i n k && !(q.buffer n).dirty k)) ||
        stored cfg q i n k) := by
  unfold bufferNext returned stored Entry.check
  cases q.checkEnQ1 && n == q.checkPtrQ1 <;> cases invalHit q i n <;>
    cases evict q i && n == rtrnPtr q <;> cases dirtyRdEn q i && n == dirtyPtr q c <;>
    cases dataGnt cfg q i && n == wrPtr q i <;> simp [Entry.evict, Entry.send, Entry.write]

theorem bufferNext_dirty (n : Ptr) (k : Lane) :
    (bufferNext cfg q c i n).dirty k =
      (((q.buffer n).dirty k && !sent q c i n k) || stored cfg q i n k) := by
  unfold bufferNext sent stored Entry.check
  cases q.checkEnQ1 && n == q.checkPtrQ1 <;> cases invalHit q i n <;>
    cases evict q i && n == rtrnPtr q <;> cases dirtyRdEn q i && n == dirtyPtr q c <;>
    cases dataGnt cfg q i && n == wrPtr q i <;> simp [Entry.evict, Entry.send, Entry.write]

theorem bufferNext_txblock (n : Ptr) (k : Lane) :
    (bufferNext cfg q c i n).txblock k =
      (((q.buffer n).txblock k && !returned q i n k) || sent q c i n k) := by
  unfold bufferNext sent returned Entry.check
  cases q.checkEnQ1 && n == q.checkPtrQ1 <;> cases invalHit q i n <;>
    cases evict q i && n == rtrnPtr q <;> cases dirtyRdEn q i && n == dirtyPtr q c <;>
    cases dataGnt cfg q i && n == wrPtr q i <;> simp [Entry.evict, Entry.send, Entry.write]

theorem bufferNext_data (n : Ptr) (k : Lane) :
    (bufferNext cfg q c i n).data k =
      if stored cfg q i n k then i.store.wdata k else (q.buffer n).data k := by
  unfold bufferNext stored Entry.check
  cases q.checkEnQ1 && n == q.checkPtrQ1 <;> cases invalHit q i n <;>
    cases evict q i && n == rtrnPtr q <;> cases dirtyRdEn q i && n == dirtyPtr q c <;>
    cases dataGnt cfg q i && n == wrPtr q i <;> simp [Entry.evict, Entry.send, Entry.write]

theorem bufferNext_wtag (n : Ptr) :
    (bufferNext cfg q c i n).wtag =
      if dataGnt cfg q i && n == wrPtr q i then i.store.wtag else (q.buffer n).wtag := by
  unfold bufferNext Entry.check
  cases q.checkEnQ1 && n == q.checkPtrQ1 <;> cases invalHit q i n <;>
    cases evict q i && n == rtrnPtr q <;> cases dirtyRdEn q i && n == dirtyPtr q c <;>
    cases dataGnt cfg q i && n == wrPtr q i <;> simp [Entry.evict, Entry.send, Entry.write]

end Cva6.Dcache.Wbuffer
