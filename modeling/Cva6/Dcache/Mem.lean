import Cva6.Dcache.Types
/-!
# Memory arrays

`wt_dcache_mem.sv`: the tag and data SRAMs, the arbitration between the read ports
and the writes, tag comparison and the overlay of the write buffer. The SRAMs are
read first: an access, also a write, puts the old word into the output register.
The round-robin choice among equal read requests is an input.
-/

namespace Cva6.Dcache

structure TagLine where
  vld : Bool
  tag : Tag
  deriving DecidableEq, Repr, Inhabited

/-- `wbuffer_t`. -/
structure Entry where
  wtag : WordAddr
  data : Word
  dirty : Mask
  valid : Mask
  txblock : Mask
  checked : Bool
  hitOh : WayMask
  deriving DecidableEq, Inhabited

namespace Mem

structure Regs where
  tags : Idx → Way → TagLine
  data : Bank → Idx → Way → Word
  /-- The output registers of the tag SRAMs. -/
  tagRdata : Way → TagLine
  /-- The output registers of the data SRAMs. -/
  bankRdata : Bank → Way → Word
  bankIdxQ : Idx
  bankOffQ : Bank
  vldSelQ : Port
  cmpEnQ : Bool

/-- After reset the SRAMs hold anything. -/
def reset (tags : Idx → Way → TagLine) (data : Bank → Idx → Way → Word) : Regs where
  tags := tags
  data := data
  tagRdata := fun _ => default
  bankRdata := fun _ _ _ => 0
  bankIdxQ := 0
  bankOffQ := 0
  vldSelQ := .rd 0
  cmpEnQ := false

/-- The line write port: refills, invalidations and flushes. -/
structure LineWrite where
  vld : Bool
  nc : Bool
  we : WayMask
  tag : Tag
  idx : Idx
  off : Bank
  data : Line
  /-- `wr_cl_data_be_i`, which is all ones or all zeros. -/
  dataBe : Bool
  vldBits : WayMask

structure ReadReq where
  req : Bool
  idx : Idx
  off : Bank
  tagOnly : Bool

/-- The word write port of the write buffer. -/
structure WordWrite where
  req : WayMask
  idx : Idx
  off : Bank
  data : Word
  be : Mask

/-! ## Arbitration -/

section Arbiter

variable (cl : LineWrite) (rdReq : Port → Bool) (sel : Port)

/-- `rd_req_masked`: the write buffer reads only when no read port does. -/
def rdReqMasked (p : Port) : Bool :=
  match p with
  | .rd _ => rdReq p
  | .wr => rdReq .wr && !(rdReq (.rd 0) || rdReq (.rd 1))

def rdAck (p : Port) : Bool := rdReqMasked rdReq p && p == sel && !cl.vld

def rdAcked : Bool := anyPort rdReq && !cl.vld

end Arbiter

section Cycle

variable (q : Regs) (cl : LineWrite) (rd : Port → ReadReq) (sel : Port) (wr : WordWrite)

def rdReqs (p : Port) : Bool := (rd p).req

def clWrite : Bool := cl.vld && any cl.we

/-- `wr_ack_o`: no line is written and no word of the same bank is read. -/
def wrAck : Bool :=
  !clWrite cl && any wr.req &&
    ((rd sel).tagOnly || !(rdAck cl (rdReqs rd) sel sel && (rd sel).off == wr.off))

/-- The data word of bank `b` is read for the selected port. -/
def bankRead (b : Bank) : Bool :=
  rdAcked cl (rdReqs rd) && !(rd sel).tagOnly && b == (rd sel).off

def tagsNext : Idx → Way → TagLine := fun idx way =>
  if cl.vld && cl.we way && idx == cl.idx then ⟨cl.vldBits way, cl.tag⟩ else q.tags idx way

def dataNext : Bank → Idx → Way → Word := fun b idx way =>
  if clWrite cl then
    if idx == cl.idx && cl.we way && cl.dataBe then cl.data b else q.data b idx way
  else if wrAck cl rd sel wr && b == wr.off && idx == wr.idx && wr.req way then
    fun k => if wr.be k then wr.data k else q.data b idx way k
  else q.data b idx way

def tagRdataNext : Way → TagLine := fun way =>
  if cl.vld then if cl.we way then q.tags cl.idx way else q.tagRdata way
  else if rdAcked cl (rdReqs rd) then q.tags (rd sel).idx way
  else q.tagRdata way

def bankRdataNext : Bank → Way → Word := fun b =>
  if clWrite cl then q.data b cl.idx
  else if bankRead cl rd sel b then q.data b (rd sel).idx
  else if wrAck cl rd sel wr && b == wr.off then q.data b wr.idx
  else q.bankRdata b

def next : Regs where
  tags := tagsNext q cl
  data := dataNext q cl rd sel wr
  tagRdata := tagRdataNext q cl rd sel
  bankRdata := bankRdataNext q cl rd sel wr
  bankIdxQ := if cl.vld then cl.idx else (rd sel).idx
  bankOffQ := if cl.vld then cl.off else (rd sel).off
  vldSelQ := sel
  cmpEnQ := rdAcked cl (rdReqs rd)

end Cycle

/-! ## Tag comparison and readout -/

section Readout

variable (q : Regs) (cl : LineWrite) (rdTag : Port → Tag) (buffer : Ptr → Entry)

def rdHitOh : WayMask := fun way =>
  rdTag q.vldSelQ == (q.tagRdata way).tag && (q.tagRdata way).vld && q.cmpEnQ

def rdVldBits : WayMask := fun way => (q.tagRdata way).vld

/-- The word looked up in the write buffer, `wbuffer_cmp_addr >> 3`. -/
def wbufferCmpAddr : WordAddr :=
  if cl.vld then ⟨cl.tag, cl.idx, cl.off⟩ else ⟨rdTag q.vldSelQ, q.bankIdxQ, q.bankOffQ⟩

def wbufferHitOh (a : WordAddr) : Ptr → Bool := fun k =>
  any (buffer k).valid && (buffer k).wtag == a

/-- The bytes of `rdata` overlaid with those the write buffer holds. -/
def overlay (a : WordAddr) (rdata : Word) : Word := fun k =>
  let hit := buffer (lzc (wbufferHitOh buffer a))
  if any (wbufferHitOh buffer a) && hit.valid k then hit.data k else rdata k

/-- `rd_data_o`. A non-cacheable response has its word at offset zero. -/
def rdData : Word :=
  let rdata :=
    if cl.vld then cl.data (if cl.nc then 0 else cl.off)
    else q.bankRdata q.bankOffQ (lzc (rdHitOh q rdTag))
  overlay buffer (wbufferCmpAddr q cl rdTag) rdata

end Readout

end Mem

end Cva6.Dcache
