import CacheCoherence.Fault

namespace CacheCoherence

inductive CacheSize
  | mb1
  | mb2
  | mb4
  | mb8
  | mb16
  deriving DecidableEq, Repr

namespace CacheSize

def all : List CacheSize := [mb1, mb2, mb4, mb8, mb16]

def megabytes : CacheSize → Nat
  | mb1 => 1
  | mb2 => 2
  | mb4 => 4
  | mb8 => 8
  | mb16 => 16

def encoding : CacheSize → UInt64
  | mb1 => 0
  | mb2 => 1
  | mb4 => 3
  | mb8 => 7
  | mb16 => 15

def ofMegabytes (megabytes : Nat) : Except Fault CacheSize :=
  match all.find? (·.megabytes == megabytes) with
  | some size => .ok size
  | none => .error (.rejected (.cacheSize megabytes))

def ofEncoding (bits : UInt64) : Except Fault CacheSize :=
  match all.find? (·.encoding == bits) with
  | some size => .ok size
  | none => .error (.rejected (.cacheEncoding bits))

def megabyte : Nat := 1048576

def bytes (s : CacheSize) : Nat := s.megabytes * megabyte

def lines (s : CacheSize) : Nat := s.bytes / blockSize

def baseIndexMask : Nat := 0x3fff

def indexShift : Nat := 14

def indexMask (s : CacheSize) : Nat := (s.encoding.toNat <<< indexShift) ||| baseIndexMask

theorem ofEncoding_encoding (s : CacheSize) : ofEncoding s.encoding = .ok s := by
  cases s <;> rfl

theorem ofMegabytes_megabytes (s : CacheSize) : ofMegabytes s.megabytes = .ok s := by
  cases s <;> rfl

end CacheSize
end CacheCoherence
