import CacheCoherence.CacheSize

/-!
The control registers of a controller. They are loaded through a shift chain: the fields follow each
other without gaps, first field at bit 0, and may lie across two of the four words.
-/
namespace CacheCoherence

abbrev Field := Fin 78

namespace Field

def chain : List (String × Nat) :=
  [("BcBankEnable", 1), ("BcBurstModeEnable", 1), ("BcCleanVictim", 1), ("BcClkfwdEnable", 1),
   ("BcClockOut", 1), ("BcDdmFallEn", 1), ("BcDdmfEnable", 1), ("BcDdmrEnable", 1),
   ("BcDdmRiseEn", 1), ("BcEnable", 1), ("BcFrmClk", 1), ("BcLateWriteUpper", 1),
   ("BcPentiumMode", 1), ("BcRdRdBubble", 1), ("BcRdvictim", 1), ("BcSjBankEnable", 1),
   ("BcTagDdmFallEn", 1), ("BcTagDdmRiseEn", 1), ("BcWrWrBubble", 1), ("ThirtyTwoByteIo", 1),
   ("DupTagEnable", 1), ("EnableEvict", 1), ("EnableProbeCheck", 1), ("EnableStcCommand", 1),
   ("FastModeDisable", 1), ("InitMode", 1), ("JitterCmd", 1), ("MboxBcPrbStall", 1),
   ("PrbTagOnly", 1), ("RdvicAckInhibit", 1), ("SkewedFillMode", 1), ("SpecReadEnable", 1),
   ("StcEnable", 1), ("SysbusFormat", 1), ("SysbusMbEnable", 1), ("SysClkfwdEnable", 1),
   ("SysDdmFallEn", 1), ("SysDdmfEnable", 1), ("SysDdmrEnable", 1), ("SysDdmRdFallEn", 1),
   ("SysDdmRdRiseEn", 1), ("SysDdmRiseEn", 1), ("BcClkDelay", 2), ("BcCpuClkDelay", 2),
   ("BcCpuLateWriteNum", 2), ("BcRcvMuxCntPreset", 2), ("CfrFrmclkDelay", 2), ("DataValidDly", 2),
   ("InvalToDirty", 2), ("InvalToDirtyEnable", 2), ("SysBusSize", 2), ("SysClkDelay", 2),
   ("SysCpuClkDelay", 2), ("SysRcvMuxCntPreset", 2), ("SysRcvMuxPreset", 2),
   ("BcLateWriteNum", 3), ("CfrEv6clkDelay", 3), ("SetDirtyEnable", 3), ("SysbusVicLimit", 3),
   ("BcBphaseLdVector", 4), ("BcSize", 4), ("BcWrRdBubbles", 4), ("BcWrtSts", 4),
   ("CfrGclkDelay", 4), ("MbCnt", 4), ("SysBphaseLdVector", 4), ("SysdcDelay", 4),
   ("SysbusAckLimit", 5), ("SysClkRatio", 5), ("SysFrameLdVector", 5), ("BcRdWrBubbles", 6),
   ("BcLatTagPattern", 24), ("BcFdbkEn", 8), ("DcvicThreshold", 8), ("SysFdbkEn", 8),
   ("BcClkLdVector", 16), ("SysClkLdVector", 16), ("BcLatDataPattern", 32)]

def all : List Field := List.finRange 78

def name (f : Field) : String := (chain[f]?.getD ("", 0)).1

def width (f : Field) : Nat := (chain[f]?.getD ("", 0)).2

def offset (f : Field) : Nat := ((chain.take f).map (·.2)).foldl (· + ·) 0

def maxValue (f : Field) : UInt64 :=
  if 64 ≤ f.width then 0xffffffffffffffff else ((1 : UInt64) <<< f.width.toUInt64) - 1

def totalBits : Nat := (chain.map (·.2)).foldl (· + ·) 0

def ofName? (text : String) : Option Field := all.find? (·.name == text)

def cacheEnable : Field := 9
def cacheSize : Field := 60
def duplicateTagEnable : Field := 20
def evictEnable : Field := 21
def probeCheckEnable : Field := 22

end Field

def registerWords : Nat := 4

abbrev PackedRegisters := Vector UInt64 4

structure Registers where
  values : Vector UInt64 78
  deriving DecidableEq, Repr

namespace Registers

def zero : Registers := ⟨Vector.replicate 78 0⟩

def get (r : Registers) (f : Field) : UInt64 := r.values[f]

def put (r : Registers) (f : Field) (value : UInt64) : Registers := ⟨r.values.set f value⟩

def set (r : Registers) (f : Field) (value : UInt64) : Except Fault Unit × Registers :=
  if f.maxValue < value then
    (.error (.rejected (.registerValue f.name f.width value)), r)
  else (.ok (), r.put f value)

/-- Adds the bits of `f` to the words. A field that runs past the end of its word goes on in the
next one. -/
def packField (r : Registers) (words : PackedRegisters) (f : Field) : PackedRegisters :=
  let word := f.offset / 64
  let bit := f.offset % 64
  let words := words.setIfInBounds word (words[word]?.getD 0 ||| (r.get f <<< bit.toUInt64))
  if 64 < bit + f.width then
    words.setIfInBounds (word + 1)
      (words[word + 1]?.getD 0 ||| (r.get f >>> (64 - bit).toUInt64))
  else words

def pack (r : Registers) : PackedRegisters := Field.all.foldl r.packField (Vector.replicate 4 0)

def unpackField (words : PackedRegisters) (f : Field) : UInt64 :=
  let word := f.offset / 64
  let bit := f.offset % 64
  let low := words[word]?.getD 0 >>> bit.toUInt64
  let value :=
    if 64 < bit + f.width then low ||| (words[word + 1]?.getD 0 <<< (64 - bit).toUInt64) else low
  value &&& f.maxValue

def unpack (words : PackedRegisters) : Registers := ⟨Vector.ofFn (unpackField words)⟩

def nonZero (r : Registers) : List (String × UInt64) :=
  (Field.all.filter fun f => r.get f != 0).map fun f => (f.name, r.get f)

def display (r : Registers) : String :=
  "\x7b" ++ ", ".intercalate (r.nonZero.map fun (name, value) =>
    "\"" ++ name ++ "\": " ++ toString value.toNat) ++ "\x7d"

def forCache (size : CacheSize) : Registers :=
  ((((zero.put .cacheEnable 1).put .cacheSize size.encoding).put .duplicateTagEnable 1).put
    .evictEnable 1).put .probeCheckEnable 1

end Registers
end CacheCoherence
