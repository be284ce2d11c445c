import CacheCoherence.Text.Number

namespace CacheCoherence

def blockSize : Nat := 64

def ioBit : UInt64 := 0x80000000000

structure Address where
  raw : UInt64
  deriving DecidableEq, Repr, Inhabited

namespace Address

def toNat (a : Address) : Nat := a.raw.toNat

def block (a : Address) : Address := ⟨a.raw / 64 * 64⟩

def offset (a : Address) : Nat := a.toNat % blockSize

def aligned (a : Address) (n : UInt64) : Bool := a.raw &&& (n - 1) == 0

def isIo (a : Address) : Bool := a.raw &&& ioBit != 0

def fits (a : Address) (length : Nat) : Bool :=
  0 < length && a.offset + length ≤ blockSize

def display (a : Address) : String := Text.hex a.toNat

@[simp] theorem toNat_block (a : Address) : a.block.toNat = a.toNat / 64 * 64 := by
  have bound := a.raw.toNat_lt
  simp only [toNat, block, UInt64.toNat_mul, UInt64.toNat_div, UInt64.reduceToNat]
  omega

theorem toNat_inj {a b : Address} : a.toNat = b.toNat ↔ a = b := by
  cases a; cases b
  simp [toNat, UInt64.toNat_inj]

@[simp] theorem block_block (a : Address) : a.block.block = a.block := by
  apply toNat_inj.mp
  simp

theorem block_eq_iff (a b : Address) : a.block = b.block ↔ a.toNat / 64 = b.toNat / 64 := by
  rw [← toNat_inj, toNat_block, toNat_block]
  omega

theorem offset_lt (a : Address) : a.offset < 64 := Nat.mod_lt _ (by decide)

end Address
end CacheCoherence
