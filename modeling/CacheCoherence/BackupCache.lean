import CacheCoherence.CacheSize
import CacheCoherence.Sparse
import CacheCoherence.VictimBuffer

namespace CacheCoherence

structure CacheLine where
  tag : Nat
  addr : Address
  dirty : Bool
  shared : Bool
  data : Block
  deriving DecidableEq, Repr

def CacheLine.state (l : CacheLine) : LineState := ⟨true, l.dirty, l.shared⟩

/-- A line that `insert` pushed out, and the victim slot that keeps its data if it was dirty. -/
structure Eviction where
  addr : Address
  state : LineState
  victim : Option Slot
  deriving DecidableEq, Repr

structure BackupCache where
  size : CacheSize
  lines : Sparse CacheLine

namespace BackupCache

def tagShift : Nat := 20

def tagMask : Nat := 0xfffffffffff

def empty (size : CacheSize) : BackupCache := ⟨size, .empty⟩

def indexOf (c : BackupCache) (a : Address) : Nat := a.toNat / blockSize &&& c.size.indexMask

def tagOf (a : Address) : Nat := a.toNat >>> tagShift &&& tagMask

/-- The line at the index of `a`, whatever block it holds. -/
def occupant (c : BackupCache) (a : Address) : Option CacheLine := c.lines.get? (c.indexOf a)

def find? (c : BackupCache) (a : Address) : Option CacheLine :=
  (c.occupant a).filter fun l => l.tag == tagOf a && l.addr == a.block

def hit (c : BackupCache) (a : Address) : Bool := (c.find? a).isSome

def stateOf (c : BackupCache) (a : Address) : LineState :=
  match c.find? a with
  | some l => l.state
  | none => .invalid

def read (c : BackupCache) (a : Address) : Option Block := (c.find? a).map (·.data)

/-- Writes bytes at the offset of `a` in a block that is held; the answer says whether it is. -/
def write (c : BackupCache) (a : Address) (bytes : List UInt8) : Bool × BackupCache :=
  match c.find? a with
  | none => (false, c)
  | some l =>
    let l := { l with data := l.data.write a.offset bytes }
    (true, { c with lines := c.lines.set (c.indexOf a) l })

/-- Changes the state of a block that is held; an invalid state drops it. -/
def setState (c : BackupCache) (a : Address) (s : LineState) : Bool × BackupCache :=
  match c.find? a with
  | none => (false, c)
  | some l =>
    if s.valid then
      let l := { l with dirty := s.dirty, shared := s.shared }
      (true, { c with lines := c.lines.set (c.indexOf a) l })
    else (true, { c with lines := c.lines.erase (c.indexOf a) })

def install (c : BackupCache) (a : Address) (data : Block) (s : LineState) : BackupCache :=
  let l : CacheLine :=
    { tag := tagOf a, addr := a.block, dirty := s.dirty, shared := s.shared, data }
  { c with lines := c.lines.set (c.indexOf a) l }

/-- Installs a block. A dirty line of another block is handed to `victims`, bound for `d`; if there
is no room for it nothing changes. -/
def insert (c : BackupCache) (a : Address) (data : Block) (s : LineState)
    (victims : VictimBuffer) (d : Destination) :
    Except Fault (Option Eviction) × BackupCache × VictimBuffer :=
  match c.occupant a with
  | none => (.ok none, c.install a data s, victims)
  | some old =>
    if old.addr = a.block then (.ok none, c.install a data s, victims)
    else if old.dirty then
      match victims.allocate old.addr old.data d with
      | (.error fault, victims) => (.error fault, c, victims)
      | (.ok slot, victims) =>
        (.ok (some ⟨old.addr, old.state, some slot⟩), c.install a data s, victims)
    else (.ok (some ⟨old.addr, old.state, none⟩), c.install a data s, victims)

def drop (c : BackupCache) (a : Address) : Option (LineState × Block) × BackupCache :=
  match c.find? a with
  | none => (none, c)
  | some l => (some (l.state, l.data), { c with lines := c.lines.erase (c.indexOf a) })

end BackupCache
end CacheCoherence
