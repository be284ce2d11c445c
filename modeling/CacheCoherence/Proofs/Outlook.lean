import CacheCoherence.Proofs.Snoops
import CacheCoherence.Proofs.Runs

/-! What a run looks like from outside its controllers: the line that each CPU holds of each block,
the references that wait, the messages on their way and the open transactions. `View.Step` says once
what a move can do to them; every invariant of a run is proved from it. -/

namespace CacheCoherence

structure View where
  line : Nat → Address → Holding
  wants : Nat → Slot → Option Reference
  queue : Nat → List Request
  probes : Nat → List Probe
  txns : List Transaction
  deferred : List DeferredRead
  memory : Address → Block
  next : Nat
  value : Ledger

/-- What stays the same in a run. -/
structure Layout where
  cpus : Nat
  backed : Address → Bool
  readNext : NextState
  even : ∀ a b, a.block = b.block → backed a = backed b
  cacheable : ∀ a, backed a → a.isIo = false
  named : readNext.isReserved = false
  moves : readNext ≠ .unchanged

namespace Layout

def command (lay : Layout) : ReadKind → ProbeCommand
  | .share => ⟨.always, lay.readNext⟩
  | .modify => ⟨.always, .invalid⟩
  | .upgrade | .claim => ⟨.nothing, .invalid⟩

def others (lay : Layout) (cpu : Nat) : List Nat := (List.range lay.cpus).filter (· != cpu)

theorem usual (lay : Layout) (kind : ReadKind) : (lay.command kind).Usual := by
  cases kind with
  | share => exact ⟨.inl rfl, lay.named, lay.moves, by simp [command]⟩
  | modify => exact ⟨.inl rfl, rfl, by simp [command], by simp [command]⟩
  | upgrade | claim => exact ⟨.inr rfl, rfl, by simp [command], by simp [command]⟩

theorem mem_others (lay : Layout) (cpu k : Nat) : k ∈ lay.others cpu ↔ k < lay.cpus ∧ k ≠ cpu := by
  simp [others]

theorem others_nodup (lay : Layout) (cpu : Nat) : (lay.others cpu).Nodup :=
  List.nodup_range.filter _

end Layout

/-- A write to the I/O space is settled at once and tells the hub nothing about a reference. -/
def Request.matters : Request → Bool
  | .ioWrite .. => false
  | .read .. | .victim .. | .reply _ | .barrier _ => true

namespace View

def want (v : View) (k : Nat) (slot : Slot) (r : Option Reference) : View :=
  { v with wants := fun j i => if j = k ∧ i = slot then r else v.wants j i }

def send (v : View) (k : Nat) (sent : List Request) : View :=
  { v with queue := fun j => if j = k then v.queue j ++ sent else v.queue j }

def rest (v : View) (k : Nat) (queue : List Request) : View :=
  { v with queue := fun j => if j = k then queue else v.queue j }

def reline (v : View) (k : Nat) (line : Address → Holding) : View :=
  { v with line := fun j => if j = k then line else v.line j }

def remember (v : View) (lay : Layout) (a : Address) (data : Option Block) : View :=
  { v with
    memory := fun b => if lay.backed a ∧ b.block = a.block then data.getD (v.memory b) else v.memory b }

/-- The view after a claim of `t` that left `line` behind; any other transaction leaves the values. -/
def zeroed (v : View) (t : Transaction) (line : Address → Holding) : View :=
  { v with
    value := fun b =>
      if t.kind = .claim ∧ (line t.addr).copy.isSome ∧ b.block = t.addr then .zero else v.value b }

def written (v : View) (a : Address) (bytes : List UInt8) : View :=
  { v with
    value := fun b => if b.block = a.block then (v.value b).write a.offset bytes else v.value b }

def fill (v : View) (t : Transaction) : Block :=
  if t.kind = .claim then .zero else t.data.getD (v.memory t.addr)

def opened (v : View) (lay : Layout) (r : DeferredRead) : Transaction where
  number := v.next
  origin := r.cpu
  id := r.id
  addr := r.addr.block
  kind := r.kind
  next := (lay.command r.kind).next
  pending := (lay.others r.cpu).length

def begun (v : View) (lay : Layout) (r : DeferredRead) (deferred : List DeferredRead) : View :=
  { v with
    deferred
    txns := v.txns ++ [v.opened lay r]
    probes := fun j =>
      if j ∈ lay.others r.cpu then
        v.probes j ++ [.ofCommand v.next r.addr.block (lay.command r.kind)]
      else v.probes j
    next := v.next + 1 }

end View

def Blockwise (line : Address → Holding) : Prop := ∀ a b, a.block = b.block → line a = line b

inductive Delivered (r : Reference) (fill : Block) (before after : Address → Holding) :
    List Request → Prop
  | refused (absent : before r.addr = .absent) (same : ∀ b, after b = before b) :
      Delivered r fill before after []
  | owned (upgrade : r.access.isUpgrade) (data : Block) (copy : (before r.addr).copy = some data)
      (lines : ∀ b, after b =
        if b.block = r.addr.block then ⟨some data, true, true⟩ else before b) :
      Delivered r fill before after []
  | filled (lost : r.access.isUpgrade → before r.addr = .absent)
      (copy : (after r.addr).copy = some fill)
      (owned : r.access.needsOwnership → after r.addr = ⟨some fill, true, true⟩)
      (fresh : r.access.needsOwnership = false → before r.addr = .absent →
        after r.addr = ⟨some fill, false, false⟩)
      (sent : List Request)
      (sends : ∀ q ∈ sent, ∃ (v : Victim) (slot : Slot), q = v.request slot)
      (quiet : onBlock r.addr sent = [])
      (others : ∀ b, b.block ≠ r.addr.block → Controller.Fate b (before b) (after b) sent) :
      Delivered r fill before after sent

namespace View

inductive Called : View → Nat → Operation → View → Prop
  | ask (v : View) (k : Nat) (slot : Slot) (r : Reference) (access : Access) (kind : ReadKind)
      (free : v.wants k slot = none) (reads : access.readKind = some kind) (named : r.access ≠ .barrier)
      (place : r.addr.isIo ∧ kind = .share ∨ r.addr.isIo = false ∧
        (kind = .share ∨ kind = .modify → v.line k r.addr = .absent)) :
      Called v k (.issue r)
        ((v.want k slot (some { r with access })).send k [.read (.miss slot) r.addr kind])
  | join (v : View) (k : Nat) (slot : Slot) (old r : Reference)
      (present : v.wants k slot = some old) (access : old.access = r.access)
      (merges : r.access.merges) (block : old.addr.block = r.addr.block) :
      Called v k (.issue r) (v.want k slot (some (old.join r)))
  | hold (v : View) (k : Nat) (slot : Slot) (r : Reference) (free : v.wants k slot = none)
      (barrier : r.access = .barrier) :
      Called v k (.issue r) ((v.want k slot (some r)).send k [.barrier (.miss slot)])
  | purge (v : View) (k : Nat) (r : Reference) (line : Address → Holding) (sent : List Request)
      (access : r.access = .purge) (even : Blockwise line)
      (others : ∀ b, b.block ≠ r.addr.block → line b = v.line k b ∧ onBlock b sent = [])
      (gone : line r.addr = .absent) (fate : Controller.Fate r.addr (v.line k r.addr) .absent sent)
      (sends : ∀ q ∈ sent, ∃ (v : Victim) (slot : Slot), q = v.request slot) :
      Called v k (.issue r) ((v.reline k line).send k sent)
  | store (v : View) (k : Nat) (a : Address) (bytes : List UInt8) (line : Address → Holding)
      (even : Blockwise line) (sole : (v.line k a).sole)
      (lines : ∀ b, line b =
        if b.block = a.block then
          { v.line k a with copy := (v.line k a).copy.map (·.write a.offset bytes) }
        else v.line k b) :
      Called v k (.store a bytes) ((v.reline k line).written a bytes)
  | retire (v : View) (k : Nat) (a : Address) (data : Block) (line : Address → Holding)
      (sent : List Request) (even : Blockwise line)
      (copies : ∀ b, (line b).copy.isSome = (v.line k b).copy.isSome)
      (sends : ∀ q ∈ sent, ∃ (v : Victim) (slot : Slot), q = v.request slot) :
      Called v k (.retire a data) ((v.reline k line).send k sent)

/-- A move of the machine, seen from outside. -/
inductive Step (lay : Layout) : View → View → Prop
  | snoop (v : View) (k : Nat) (p : Probe) (later : List Probe) (reply : ProbeReply)
      (line : Address → Holding) (even : Blockwise line) (oldest : v.probes k = p :: later)
      (txn : reply.txn = p.txn) (addr : reply.addr = p.addr.block)
      (others : ∀ b, b.block ≠ p.addr.block → line b = v.line k b)
      (moved : line p.addr = (v.line k p.addr).after p.command.next)
      (held : v.line k p.addr ≠ .absent →
        reply.dirtyData = if (v.line k p.addr).dirty then (v.line k p.addr).copy else none)
      (missed : v.line k p.addr = .absent → reply.dirtyData = none ∨
        ∃ slot data, .victim slot p.addr.block data ∈ v.queue k ∧ reply.dirtyData = some data) :
      Step lay v
        { (v.reline k line).send k [.reply reply] with
          probes := fun j => if j = k then later else v.probes j }
  | defer (v : View) (k : Nat) (id : RequestId) (a : Address) (kind : ReadKind)
      (later : List Request) (head : v.queue k = .read id a kind :: later)
      (backed : lay.backed a) :
      Step lay v { v.rest k later with deferred := v.deferred ++ [⟨k, id, a, kind⟩] }
  | bypass (v : View) (k : Nat) (slot : Slot) (a : Address) (kind : ReadKind)
      (later : List Request) (head : v.queue k = .read (.miss slot) a kind :: later)
      (unbacked : lay.backed a = false) :
      Step lay v ((v.rest k later).want k slot none)
  | release (v : View) (k : Nat) (slot : Slot) (later : List Request)
      (head : v.queue k = .barrier (.miss slot) :: later) :
      Step lay v ((v.rest k later).want k slot none)
  | settle (v : View) (k : Nat) (slot : Slot) (a : Address) (data : Block) (later : List Request)
      (head : v.queue k = .victim slot a data :: later) :
      Step lay v ((v.rest k later).remember lay a (some data))
  | drop (v : View) (k : Nat) (r : ProbeReply) (later : List Request)
      (head : v.queue k = .reply r :: later) (closed : ∀ t ∈ v.txns, t.number ≠ r.txn) :
      Step lay v (v.rest k later)
  | take (v : View) (k : Nat) (r : ProbeReply) (later : List Request) (t : Transaction)
      (head : v.queue k = .reply r :: later) (isOpen : t ∈ v.txns) (number : t.number = r.txn) :
      Step lay v
        { v.rest k later with
          txns := v.txns.map fun u => if u.number = r.txn then t.take r else u }
  | begin (v : View) (r : DeferredRead) (before after : List DeferredRead)
      (waits : v.deferred = before ++ r :: after) (free : ∀ t ∈ v.txns, t.addr ≠ r.addr.block)
      (backed : lay.backed r.addr) :
      Step lay v (v.begun lay r (before ++ after))
  | finish (v : View) (t : Transaction) (slot : Slot) (r : Reference) (line : Address → Holding)
      (sent : List Request) (isOpen : t ∈ v.txns) (done : t.pending = 0) (id : t.id = .miss slot)
      (wanted : v.wants t.origin slot = some r) (even : Blockwise line)
      (delivered : Delivered r (v.fill t) (v.line t.origin) line sent) :
      Step lay v
        ((((({ v with txns := v.txns.filter (·.number != t.number) }.remember lay t.addr t.data).want
          t.origin slot none).reline t.origin line).send t.origin sent).zeroed t line)
  | turn (v : View) (r : DeferredRead) (later : List DeferredRead) (waits : v.deferred = r :: later) :
      Step lay v { v with deferred := later ++ [r] }

section fields

variable (v : View) (lay : Layout) (k j : Nat) (slot i : Slot) (r : Option Reference)
  (sent queue : List Request) (line : Address → Holding) (a b : Address) (data : Option Block)
  (t : Transaction) (bytes : List UInt8)

@[simp] theorem wants_want :
    (v.want k slot r).wants j i = if j = k ∧ i = slot then r else v.wants j i := rfl
@[simp] theorem line_want : (v.want k slot r).line = v.line := rfl
@[simp] theorem queue_want : (v.want k slot r).queue = v.queue := rfl
@[simp] theorem probes_want : (v.want k slot r).probes = v.probes := rfl
@[simp] theorem txns_want : (v.want k slot r).txns = v.txns := rfl
@[simp] theorem deferred_want : (v.want k slot r).deferred = v.deferred := rfl
@[simp] theorem memory_want : (v.want k slot r).memory = v.memory := rfl
@[simp] theorem value_want : (v.want k slot r).value = v.value := rfl

@[simp] theorem queue_send :
    (v.send k sent).queue j = if j = k then v.queue j ++ sent else v.queue j := rfl
@[simp] theorem line_send : (v.send k sent).line = v.line := rfl
@[simp] theorem wants_send : (v.send k sent).wants = v.wants := rfl
@[simp] theorem probes_send : (v.send k sent).probes = v.probes := rfl
@[simp] theorem txns_send : (v.send k sent).txns = v.txns := rfl
@[simp] theorem deferred_send : (v.send k sent).deferred = v.deferred := rfl
@[simp] theorem memory_send : (v.send k sent).memory = v.memory := rfl
@[simp] theorem value_send : (v.send k sent).value = v.value := rfl

@[simp] theorem queue_rest : (v.rest k queue).queue j = if j = k then queue else v.queue j := rfl
@[simp] theorem line_rest : (v.rest k queue).line = v.line := rfl
@[simp] theorem wants_rest : (v.rest k queue).wants = v.wants := rfl
@[simp] theorem probes_rest : (v.rest k queue).probes = v.probes := rfl
@[simp] theorem txns_rest : (v.rest k queue).txns = v.txns := rfl
@[simp] theorem deferred_rest : (v.rest k queue).deferred = v.deferred := rfl
@[simp] theorem memory_rest : (v.rest k queue).memory = v.memory := rfl
@[simp] theorem value_rest : (v.rest k queue).value = v.value := rfl

@[simp] theorem line_reline : (v.reline k line).line j = if j = k then line else v.line j := rfl
@[simp] theorem queue_reline : (v.reline k line).queue = v.queue := rfl
@[simp] theorem wants_reline : (v.reline k line).wants = v.wants := rfl
@[simp] theorem probes_reline : (v.reline k line).probes = v.probes := rfl
@[simp] theorem txns_reline : (v.reline k line).txns = v.txns := rfl
@[simp] theorem deferred_reline : (v.reline k line).deferred = v.deferred := rfl
@[simp] theorem memory_reline : (v.reline k line).memory = v.memory := rfl
@[simp] theorem value_reline : (v.reline k line).value = v.value := rfl

@[simp] theorem line_remember : (v.remember lay a data).line = v.line := rfl
@[simp] theorem queue_remember : (v.remember lay a data).queue = v.queue := rfl
@[simp] theorem wants_remember : (v.remember lay a data).wants = v.wants := rfl
@[simp] theorem txns_remember : (v.remember lay a data).txns = v.txns := rfl
@[simp] theorem deferred_remember : (v.remember lay a data).deferred = v.deferred := rfl

@[simp] theorem line_zeroed : (v.zeroed t line).line = v.line := rfl
@[simp] theorem queue_zeroed : (v.zeroed t line).queue = v.queue := rfl
@[simp] theorem wants_zeroed : (v.zeroed t line).wants = v.wants := rfl
@[simp] theorem txns_zeroed : (v.zeroed t line).txns = v.txns := rfl
@[simp] theorem deferred_zeroed : (v.zeroed t line).deferred = v.deferred := rfl

variable (u : DeferredRead) (deferred : List DeferredRead)

@[simp] theorem txns_begun : (v.begun lay u deferred).txns = v.txns ++ [v.opened lay u] := rfl
@[simp] theorem probes_begun : (v.begun lay u deferred).probes j =
    if j ∈ lay.others u.cpu then
      v.probes j ++ [.ofCommand v.next u.addr.block (lay.command u.kind)]
    else v.probes j := rfl
@[simp] theorem deferred_begun : (v.begun lay u deferred).deferred = deferred := rfl
@[simp] theorem line_begun : (v.begun lay u deferred).line = v.line := rfl
@[simp] theorem queue_begun : (v.begun lay u deferred).queue = v.queue := rfl
@[simp] theorem wants_begun : (v.begun lay u deferred).wants = v.wants := rfl
@[simp] theorem memory_begun : (v.begun lay u deferred).memory = v.memory := rfl
@[simp] theorem value_begun : (v.begun lay u deferred).value = v.value := rfl

end fields

end View
end CacheCoherence
