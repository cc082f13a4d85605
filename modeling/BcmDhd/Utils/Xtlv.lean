import BcmDhd.Lib.Bytes

/-! Records of a 16-bit id, a 16-bit length and data, packed one behind the other, each padded to
four bytes where the options say so. Pointers are addresses, the host is little-endian like the
records. -/

namespace BcmDhd.Utils

open BcmDhd.Lib

def bcmeOk : Int := 0

def bcmeBadarg : Int := -2

def bcmeBuftooshort : Int := -14

def bcmeBadlen : Int := -24

def bcmeNomem : Int := -27

def bcmXtlvOptionAlign32 : UInt16 := 0x0001

def bcmXtlvHdrSize : Nat := 4

/-- `ALIGN_SIZE`; clearing the low bits of a power of two rounds up to a multiple. -/
def alignSize (size boundary : Nat) : Nat := (size + boundary - 1) / boundary * boundary

def bcmXtlvSizeForData (dlen : Nat) (opts : UInt16) : Nat :=
  if opts &&& bcmXtlvOptionAlign32 ≠ 0 then alignSize (dlen + bcmXtlvHdrSize) 4
  else dlen + bcmXtlvHdrSize

def load16 (mem : Memory) (address : Nat) : UInt16 :=
  UInt16.ofNat (ofLittleEndian (load mem address 2))

def store16 (mem : Memory) (address : Nat) (value : UInt16) : Memory :=
  store mem address (littleEndian 2 value.toNat)

/-- Header and data of a `bcm_xtlv_t`; padding is left as it was. -/
def storeXtlv (mem : Memory) (address : Nat) (id len : UInt16) (data : List UInt8) : Memory :=
  store (store16 (store16 mem address id) (address + 2) len) (address + bcmXtlvHdrSize) data

/-- What a caller of `bcm_pack_xtlv_entry` keeps: its pointer into the buffer and
the space behind it. -/
structure XtlvCursor where
  mem : Memory
  tlvBuf : Nat
  buflen : UInt16

/-- `src` is the caller's memory from its source pointer on. -/
def bcmPackXtlvEntry (cursor : XtlvCursor) (type len : UInt16) (src : Memory) (opts : UInt16) :
    XtlvCursor × Int :=
  let size := bcmXtlvSizeForData len.toNat opts
  if size > cursor.buflen.toNat then (cursor, bcmeBadlen)
  else
    ({ mem := storeXtlv cursor.mem cursor.tlvBuf type len (load src 0 len.toNat)
       tlvBuf := cursor.tlvBuf + size
       buflen := cursor.buflen - UInt16.ofNat size }, bcmeOk)

structure BcmXtlvbuf where
  opts : UInt16
  size : UInt16
  head : Nat
  buf : Nat
  deriving DecidableEq

def bcmXtlvBufInit (buf : Nat) (len opts : UInt16) : Option BcmXtlvbuf :=
  if len = 0 then none else some { opts, size := len, head := buf, buf }

def bcmXtlvBufLen (tbuf : BcmXtlvbuf) : UInt16 := UInt16.ofNat (tbuf.buf - tbuf.head)

def bcmXtlvBufRlen (tbuf : BcmXtlvbuf) : UInt16 := tbuf.size - bcmXtlvBufLen tbuf

/-- The common body of the `bcm_xtlv_put` functions, for `dlen` bytes of data. -/
def xtlvPut (mem : Memory) (tbuf : BcmXtlvbuf) (type : UInt16) (dlen : UInt16)
    (data : List UInt8) : (Memory × BcmXtlvbuf) × Int :=
  let size := bcmXtlvSizeForData dlen.toNat tbuf.opts
  if (bcmXtlvBufRlen tbuf).toNat < size then ((mem, tbuf), bcmeNomem)
  else ((storeXtlv mem tbuf.buf type dlen data, { tbuf with buf := tbuf.buf + size }), bcmeOk)

def bcmXtlvPutData (mem : Memory) (tbuf : BcmXtlvbuf) (type : UInt16) (data : Memory)
    (dlen : UInt16) : (Memory × BcmXtlvbuf) × Int :=
  xtlvPut mem tbuf type dlen (load data 0 dlen.toNat)

def bcmXtlvPut8 (mem : Memory) (tbuf : BcmXtlvbuf) (type : UInt16) (data : Int8) :
    (Memory × BcmXtlvbuf) × Int :=
  xtlvPut mem tbuf type 1 [data.toUInt8]

def bcmXtlvPut16 (mem : Memory) (tbuf : BcmXtlvbuf) (type : UInt16) (data : Int16) :
    (Memory × BcmXtlvbuf) × Int :=
  xtlvPut mem tbuf type 2 (littleEndian 2 data.toUInt16.toNat)

def bcmXtlvPut32 (mem : Memory) (tbuf : BcmXtlvbuf) (type : UInt16) (data : Int32) :
    (Memory × BcmXtlvbuf) × Int :=
  xtlvPut mem tbuf type 4 (littleEndian 4 data.toUInt32.toNat)

theorem bcmXtlvSizeForData_ge (dlen : Nat) (opts : UInt16) :
    dlen + 4 ≤ bcmXtlvSizeForData dlen opts := by
  unfold bcmXtlvSizeForData alignSize bcmXtlvHdrSize
  split
  · omega
  · exact le_rfl

theorem remaining_shrinks {sbuflen : Int} {size : Nat} (positive : 4 ≤ size)
    (fits : ¬ sbuflen - size < 0) : (sbuflen - size).toNat < sbuflen.toNat := by
  omega

/-- The loop of `bcm_unpack_xtlv_buf`. The callback gets its context, the data,
the id and the length, and stops the loop with an error. -/
def unpackLoop {Ctx : Type} (cbfn : Ctx → List UInt8 → UInt16 → UInt16 → Ctx × Int) (mem : Memory)
    (opts : UInt16) (ctx : Ctx) (tlvBuf : Nat) (sbuflen : Int) : Ctx × Int :=
  if sbuflen ≥ bcmXtlvHdrSize then
    let len := load16 mem (tlvBuf + 2)
    let type := load16 mem tlvBuf
    let size := bcmXtlvSizeForData len.toNat opts
    if sbuflen - size < 0 then (ctx, bcmeOk)
    else
      match cbfn ctx (load mem (tlvBuf + bcmXtlvHdrSize) len.toNat) type len with
      | (ctx, res) =>
        if res ≠ bcmeOk then (ctx, res)
        else unpackLoop cbfn mem opts ctx (tlvBuf + size) (sbuflen - size)
  else (ctx, bcmeOk)
termination_by sbuflen.toNat
decreasing_by
  exact remaining_shrinks (Nat.le_of_add_left_le (bcmXtlvSizeForData_ge _ _)) ‹_›

def bcmUnpackXtlvBuf {Ctx : Type} (cbfn : Ctx → List UInt8 → UInt16 → UInt16 → Ctx × Int)
    (mem : Memory) (ctx : Ctx) (tlvBuf : Nat) (buflen opts : UInt16) : Ctx × Int :=
  unpackLoop cbfn mem opts ctx tlvBuf buflen.toNat

/-- The loop of `bcm_get_data_from_xtlv_buf`: the address of the data and its length. -/
def getDataLoop (mem : Memory) (id opts : UInt16) (tlvBuf : Nat) (sbuflen : Int) :
    Option (Nat × UInt16) :=
  if sbuflen ≥ bcmXtlvHdrSize then
    let type := load16 mem tlvBuf
    let len := load16 mem (tlvBuf + 2)
    let size := bcmXtlvSizeForData len.toNat opts
    if sbuflen - size < 0 then none
    else if id = type then some (tlvBuf + bcmXtlvHdrSize, len)
    else getDataLoop mem id opts (tlvBuf + size) (sbuflen - size)
  else none
termination_by sbuflen.toNat
decreasing_by
  exact remaining_shrinks (Nat.le_of_add_left_le (bcmXtlvSizeForData_ge _ _)) ‹_›

def bcmGetDataFromXtlvBuf (mem : Memory) (tlvBuf : Nat) (buflen id opts : UInt16) :
    Option (Nat × UInt16) :=
  getDataLoop mem id opts tlvBuf buflen.toNat

/-- The bytes copied to `dst` and the advanced pointer; an empty record is skipped
whatever its id. -/
def bcmUnpackXtlvEntry (mem : Memory) (tlvBuf : Nat) (xpctType xpctLen opts : UInt16) :
    (Nat × List UInt8) × Int :=
  let len := load16 mem (tlvBuf + 2)
  let type := load16 mem tlvBuf
  let next := tlvBuf + bcmXtlvSizeForData len.toNat opts
  if len = 0 then ((next, []), bcmeOk)
  else if type ≠ xpctType ∨ len > xpctLen then ((tlvBuf, []), bcmeBadarg)
  else ((next, load mem (tlvBuf + bcmXtlvHdrSize) len.toNat), bcmeOk)

end BcmDhd.Utils
