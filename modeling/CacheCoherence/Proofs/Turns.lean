import CacheCoherence.Proofs.Exclusion
import CacheCoherence.Proofs.Journal

/-! In which order the reads of a block have their transactions opened. A `Book` numbers the reads as they
reach the hub, which keeps no such numbers, and follows each until its transaction is opened. Reads that
wait for a block take turns. But a read that comes when the block has just become free begins at once,
although others wait for it: it is early, and such reads are all that is ever out of order. -/

namespace CacheCoherence

/-- A read, with its place among those that reached the hub. It is early if the hub began it while another
read of its block was waiting. -/
structure Ticket where
  place : Nat
  read : DeferredRead
  early : Bool
  deriving DecidableEq

def Ticket.isFor (t : Ticket) (b : Address) : Bool := t.read.addr.block == b.block

/-- How many reads came, which of them wait, as the hub queues them, and those that had a transaction
opened, in that order. -/
structure Book where
  came : Nat := 0
  waiting : List Ticket := []
  opened : List Ticket := []

def Hub.isWanted (h : Hub) (a : Address) : Bool := h.deferred.any (·.addr.block == a.block)

namespace Book

def arrive (book : Book) (h g : Hub) (r : DeferredRead) : Book where
  came := book.came + 1
  waiting :=
    if h.deferred.length < g.deferred.length then book.waiting ++ [⟨book.came, r, false⟩]
    else book.waiting
  opened :=
    if h.nextNumber < g.nextNumber then book.opened ++ [⟨book.came, r, h.isWanted r.addr⟩]
    else book.opened

def again (book : Book) (h g : Hub) : Book :=
  match book.waiting with
  | [] => book
  | ticket :: rest =>
    if h.nextNumber < g.nextNumber then
      { book with waiting := rest, opened := book.opened ++ [ticket] }
    else { book with waiting := rest ++ [ticket] }

def record (book : Book) (e : Entry) : Book :=
  match e.matter with
  | .request cpu (.read id a kind) => book.arrive e.fabric.hub e.after.hub ⟨cpu, id, a, kind⟩
  | .request _ (.ioWrite ..) | .request _ (.victim ..) | .request _ (.reply _)
  | .request _ (.barrier _) => book
  | .waiting _ => book.again e.fabric.hub e.after.hub

/-- The reads of the block of `b` in the order of their turns: those that had theirs, then those that
wait. -/
def line (book : Book) (b : Address) : List Ticket :=
  (book.opened ++ book.waiting).filter (·.isFor b)

end Book

abbrev Ascending (tickets : List Ticket) : Prop := tickets.Pairwise (·.place < ·.place)

def Fabric.book (f : Fabric) (calls : List Call) : Book := (f.journal calls).foldl Book.record {}

structure Transaction.Serves (t : Transaction) (r : DeferredRead) : Prop where
  origin : t.origin = r.cpu
  id : t.id = r.id
  addr : t.addr = r.addr.block
  kind : t.kind = r.kind

namespace Hub

variable {h g : Hub} {r : DeferredRead}

structure Opens (h : Hub) (r : DeferredRead) (g : Hub) : Prop where
  free : h.isBusy r.addr = false
  next : g.nextNumber = h.nextNumber + 1
  deferred : g.deferred = h.deferred
  transactions : ∀ t ∈ g.transactions, t ∈ h.transactions ∨ t.number = h.nextNumber ∧ t.Serves r
  backed : ∀ a, g.memory.contains a = h.memory.contains a

theorem Reads.opens (reads : h.Reads r g) (inside : h.memory.contains r.addr)
    (free : h.isBusy r.addr = false) : h.Opens r g := by
  cases reads with
  | absent outside => rw [inside] at outside; cases outside
  | waits _ busy => rw [busy] at free; cases free
  | begins _ _ pending still =>
    refine ⟨free, still.next, still.deferred, fun t isOpen => ?_, still.backed⟩
    rw [still.transactions] at isOpen
    rcases List.mem_append.mp isOpen with old | new
    · exact .inl old
    · rw [List.mem_singleton.mp new]
      exact .inr ⟨rfl, rfl, rfl, rfl, rfl⟩
  | alone _ _ still =>
    refine ⟨free, still.next, still.deferred, fun t isOpen => ?_, still.backed⟩
    rw [still.transactions] at isOpen
    exact .inl isOpen

end Hub

namespace Book

open Hub

variable {book : Book} {h g : Hub} {r : DeferredRead} {f : Fabric}

inductive Arrival (book : Book) (h : Hub) (r : DeferredRead) (g : Hub) : Book → Prop
  | absent (still : h.Still g) : Arrival book h r g { book with came := book.came + 1 }
  | waits (inside : h.memory.contains r.addr) (still : Hub.Still { h with deferred := h.deferred ++ [r] } g) :
      Arrival book h r g
        { came := book.came + 1
          waiting := book.waiting ++ [⟨book.came, r, false⟩]
          opened := book.opened }
  | opens (opens : h.Opens r g) :
      Arrival book h r g
        { came := book.came + 1
          waiting := book.waiting
          opened := book.opened ++ [⟨book.came, r, h.isWanted r.addr⟩] }

theorem arrival (book : Book) (reads : h.Reads r g) : Arrival book h r g (book.arrive h g r) := by
  have opened (inside : h.memory.contains r.addr) (free : h.isBusy r.addr = false) :
      Arrival book h r g (book.arrive h g r) := by
    have opens := reads.opens inside free
    have shape : book.arrive h g r =
        { came := book.came + 1
          waiting := book.waiting
          opened := book.opened ++ [⟨book.came, r, h.isWanted r.addr⟩] } := by
      simp [arrive, opens.next, opens.deferred]
    rw [shape]
    exact .opens opens
  cases reads with
  | absent _ still =>
    have shape : book.arrive h g r = { book with came := book.came + 1 } := by
      simp [arrive, still.next, still.deferred]
    rw [shape]
    exact .absent still
  | waits inside _ still =>
    have shape : book.arrive h g r =
        { came := book.came + 1
          waiting := book.waiting ++ [⟨book.came, r, false⟩]
          opened := book.opened } := by
      simp [arrive, still.next, still.deferred]
    rw [shape]
    exact .waits inside still
  | begins inside free => exact opened inside free
  | alone inside free => exact opened inside free

/-- The book tells what the hub holds: the reads that wait are those of its queue, and the transaction of
a number was opened for the read that had that turn. Each read is listed once, and an early one stands
before an older read of its block. -/
structure Fits (book : Book) (h : Hub) : Prop where
  waiting : book.waiting.map (·.read) = h.deferred
  opened : book.opened.length = h.nextNumber
  serves : ∀ t ∈ h.transactions, ∃ ticket, book.opened[t.number]? = some ticket ∧ t.Serves ticket.read
  backed : ∀ ticket ∈ book.waiting, h.memory.contains ticket.read.addr
  patient : ∀ ticket ∈ book.waiting, ticket.early = false
  before : ∀ ticket ∈ book.opened ++ book.waiting, ticket.place < book.came
  apart : ((book.opened ++ book.waiting).map (·.place)).Nodup
  passed : ∀ ahead t behind, book.opened = ahead ++ t :: behind → t.early →
    ∃ u ∈ behind ++ book.waiting, u.read.addr.block = t.read.addr.block ∧ u.place < t.place

theorem Fits.length (fits : book.Fits h) : book.waiting.length = h.deferred.length := by
  rw [← fits.waiting, List.length_map]

theorem Fits.still (fits : book.Fits h) (still : h.Still g) : book.Fits g where
  waiting := fits.waiting.trans still.deferred.symm
  opened := fits.opened.trans still.next.symm
  serves := by
    rw [still.transactions]
    exact fits.serves
  backed ticket member := (still.backed _).trans (fits.backed ticket member)
  patient := fits.patient
  before := fits.before
  apart := fits.apart
  passed := fits.passed

theorem Fits.precedes (fits : book.Fits h) (precedes : h.Precedes g)
    (below : ∀ t ∈ g.transactions, t.number < g.nextNumber) (next : g.nextNumber = h.nextNumber)
    (deferred : g.deferred = h.deferred) (backed : ∀ a, g.memory.contains a = h.memory.contains a) :
    book.Fits g where
  waiting := fits.waiting.trans deferred.symm
  opened := fits.opened.trans next.symm
  serves t isOpen := by
    obtain ⟨u, old, same⟩ := precedes.lasting t isOpen (next ▸ below t isOpen)
    obtain ⟨ticket, turn, serves⟩ := fits.serves u old
    exact ⟨ticket, same.number ▸ turn, same.origin.trans serves.origin, same.id.trans serves.id,
      same.addr.trans serves.addr, same.kind.trans serves.kind⟩
  backed ticket member := (backed _).trans (fits.backed ticket member)
  patient := fits.patient
  before := fits.before
  apart := fits.apart
  passed := fits.passed

theorem Fits.opens (fits : book.Fits h) {came : Nat} {ticket : Ticket} {rest : List Ticket}
    (opens : Opens { h with deferred := rest.map (·.read) } ticket.read g)
    (others : ∀ u ∈ rest, u ∈ book.waiting) (kept : ∀ u ∈ book.waiting, u = ticket ∨ u ∈ rest)
    (later : book.came ≤ came) (place : ticket.place < came)
    (apart : ((book.opened ++ ticket :: rest).map (·.place)).Nodup)
    (passed : ticket.early →
      ∃ u ∈ rest, u.read.addr.block = ticket.read.addr.block ∧ u.place < ticket.place) :
    Fits ⟨came, rest, book.opened ++ [ticket]⟩ g where
  waiting := opens.deferred.symm
  opened := by rw [List.length_append, fits.opened, opens.next, List.length_singleton]
  serves t isOpen := by
    rcases opens.transactions t isOpen with old | ⟨number, serves⟩
    · obtain ⟨before, turn, serves⟩ := fits.serves t old
      have inside := (List.getElem?_eq_some_iff.mp turn).1
      exact ⟨before, (List.getElem?_append_left inside).trans turn, serves⟩
    · refine ⟨ticket, ?_, serves⟩
      rw [number, ← fits.opened]
      exact List.getElem?_concat_length
  backed u member := (opens.backed _).trans (fits.backed u (others u member))
  patient u member := fits.patient u (others u member)
  before := by
    intro u member
    rw [List.append_assoc, List.singleton_append, List.mem_append, List.mem_cons] at member
    rcases member with old | rfl | waits
    · exact Nat.lt_of_lt_of_le (fits.before u (List.mem_append_left _ old)) later
    · exact place
    · exact Nat.lt_of_lt_of_le (fits.before u (List.mem_append_right _ (others u waits))) later
  apart := by rwa [List.append_assoc, List.singleton_append]
  passed ahead t behind split early := by
    rcases split_last split with ⟨_, rfl, _⟩ | ⟨less, earlier, rfl⟩
    · obtain ⟨u, waits, older⟩ := passed early
      exact ⟨u, List.mem_append_right _ waits, older⟩
    · obtain ⟨u, member, older⟩ := fits.passed ahead t less earlier early
      refine ⟨u, ?_, older⟩
      rw [List.append_assoc, List.singleton_append, List.mem_append, List.mem_cons]
      exact (List.mem_append.mp member).imp_right (kept u)

theorem Fits.arrival {later : Book} (fits : book.Fits h) (arrival : Arrival book h r g later) :
    later.Fits g := by
  have apart : (book.came :: (book.opened ++ book.waiting).map (·.place)).Nodup := by
    refine List.nodup_cons.mpr ⟨fun member => ?_, fits.apart⟩
    obtain ⟨u, listed, same⟩ := List.mem_map.mp member
    exact Nat.ne_of_lt (fits.before u listed) same
  cases arrival with
  | absent still =>
    refine Fits.still ?_ still
    exact { fits with before := fun u member => Nat.lt_succ_of_lt (fits.before u member) }
  | waits inside still =>
    refine Fits.still ?_ still
    refine ⟨by rw [List.map_append, fits.waiting]; rfl, fits.opened, fits.serves, ?_, ?_, ?_, ?_, ?_⟩
    · exact List.forall_mem_append.mpr ⟨fits.backed, List.forall_mem_singleton.mpr inside⟩
    · exact List.forall_mem_append.mpr ⟨fits.patient, List.forall_mem_singleton.mpr rfl⟩
    · rw [← List.append_assoc]
      exact List.forall_mem_append.mpr ⟨fun u member => Nat.lt_succ_of_lt (fits.before u member),
        List.forall_mem_singleton.mpr (Nat.lt_succ_self _)⟩
    · rw [← List.append_assoc, List.map_append]
      exact (List.perm_append_singleton ..).nodup_iff.mpr apart
    · intro ahead t behind split early
      obtain ⟨u, member, older⟩ := fits.passed ahead t behind split early
      refine ⟨u, ?_, older⟩
      rw [← List.append_assoc]
      exact List.mem_append_left _ member
  | opens opens =>
    refine fits.opens (by rw [fits.waiting]; exact opens)
      (fun _ => id) (fun _ => .inr) (Nat.le_succ _) (Nat.lt_succ_self _) ?_ ?_
    · rw [List.map_append, List.map_cons]
      rw [List.map_append] at apart
      exact List.nodup_middle.mpr apart
    · intro wanted
      obtain ⟨q, member, same⟩ := List.any_eq_true.mp wanted
      rw [← fits.waiting] at member
      obtain ⟨u, waits, rfl⟩ := List.mem_map.mp member
      exact ⟨u, waits, beq_iff_eq.mp same, fits.before u (List.mem_append_right _ waits)⟩

theorem Fits.turned {ticket : Ticket} {rest : List Ticket} (fits : book.Fits h)
    (next : book.waiting = ticket :: rest) :
    Fits { book with waiting := rest ++ [ticket] }
      { h with deferred := h.deferred.tail ++ [ticket.read] } := by
  have shuffled : (rest ++ [ticket]).Perm book.waiting := by
    rw [next]
    exact List.perm_append_singleton ..
  refine ⟨?_, fits.opened, fits.serves, ?_, ?_, ?_, ?_, ?_⟩
  · rw [← fits.waiting, next, List.map_append]
    rfl
  · exact fun u member => fits.backed u (shuffled.mem_iff.mp member)
  · exact fun u member => fits.patient u (shuffled.mem_iff.mp member)
  · exact fun u member => fits.before u ((shuffled.append_left _).mem_iff.mp member)
  · exact (((shuffled.append_left _).map _).nodup_iff).mpr fits.apart
  · intro ahead t behind split early
    obtain ⟨u, member, older⟩ := fits.passed ahead t behind split early
    exact ⟨u, (shuffled.append_left _).mem_iff.mpr member, older⟩

theorem Fits.began {ticket : Ticket} {rest : List Ticket} (fits : book.Fits h)
    (next : book.waiting = ticket :: rest)
    (opens : Opens { h with deferred := h.deferred.tail } ticket.read g) :
    Fits { book with waiting := rest, opened := book.opened ++ [ticket] } g := by
  have tail : h.deferred.tail = rest.map (·.read) := by
    rw [← fits.waiting, next]
    rfl
  have first : ticket ∈ book.waiting := by
    rw [next]
    exact List.mem_cons_self
  rw [tail] at opens
  refine fits.opens opens ?_ ?_ (Nat.le_refl _) ?_ ?_ ?_
  · intro u member
    rw [next]
    exact List.mem_cons_of_mem _ member
  · intro u member
    rw [next] at member
    exact List.mem_cons.mp member
  · exact fits.before ticket (List.mem_append_right _ first)
  · rw [← next]
    exact fits.apart
  · intro early
    rw [fits.patient ticket first] at early
    cases early

end Book

/-- The reads of the block of `b` are in the order in which they reached the hub, but for the early
ones. -/
def InTurn (b : Address) (tickets : List Ticket) : Prop :=
  Ascending (tickets.filter fun t => !t.early && t.isFor b)

namespace InTurn

variable {b : Address} {tickets opened done rest : List Ticket} {t : Ticket}

theorem concat (inTurn : InTurn b tickets) (last : ∀ u ∈ tickets, u.place < t.place) :
    InTurn b (tickets ++ [t]) := by
  rw [InTurn, List.filter_append]
  refine List.pairwise_append.mpr ⟨inTurn, List.Pairwise.filter _ (List.pairwise_singleton _ _), ?_⟩
  intro u before v new
  rw [List.mem_singleton.mp (List.mem_filter.mp new).1]
  exact last u (List.mem_filter.mp before).1

theorem advance (inTurn : InTurn b (opened ++ (done ++ t :: rest)))
    (fair : t.early = false → ∀ u ∈ done, u.read.addr.block ≠ t.read.addr.block) :
    InTurn b (opened ++ [t] ++ (done ++ rest)) := by
  have same : (opened ++ [t] ++ (done ++ rest)).filter (fun t => !t.early && t.isFor b) =
      (opened ++ (done ++ t :: rest)).filter fun t => !t.early && t.isFor b := by
    simp only [List.filter_append, List.filter_cons, List.filter_nil, List.append_assoc]
    split
    · rename_i timely
      simp only [Ticket.isFor, Bool.and_eq_true, Bool.not_eq_true', beq_iff_eq] at timely
      have passed : done.filter (fun t => !t.early && t.isFor b) = [] := by
        rw [List.filter_eq_nil_iff]
        intro u member
        have apart := fair timely.1 u member
        rw [timely.2] at apart
        simp [Ticket.isFor, apart]
      rw [passed]
      rfl
    · rfl
  rw [InTurn, same]
  exact inTurn

end InTurn

namespace Book

open Hub

variable {book later : Book} {h g : Hub} {r : DeferredRead} {f : Fabric} {b : Address}

theorem Fits.inTurn (fits : book.Fits h) (arrival : Arrival book h r g later)
    (inTurn : InTurn b (book.opened ++ book.waiting)) : InTurn b (later.opened ++ later.waiting) := by
  have joined (early : Bool) : InTurn b (book.opened ++ (book.waiting ++ [⟨book.came, r, early⟩])) := by
    rw [← List.append_assoc]
    exact inTurn.concat fits.before
  cases arrival with
  | absent => exact inTurn
  | waits => exact joined false
  | opens =>
    have advanced := (joined (h.isWanted r.addr)).advance ?_
    · rwa [List.append_nil] at advanced
    · intro unwanted u waits same
      refine List.any_eq_false.mp unwanted u.read ?_ (beq_iff_eq.mpr same)
      rw [← fits.waiting]
      exact List.mem_map_of_mem waits

/-- The book fits the hub, and the reads of the block of `b` have had their turns in order, but for the
early ones. -/
structure Kept (b : Address) (book : Book) (h : Hub) : Prop where
  fits : book.Fits h
  exclusive : h.Exclusive
  inTurn : InTurn b (book.opened ++ book.waiting)

theorem Kept.still (kept : book.Kept b h) (still : h.Still g) : book.Kept b g :=
  ⟨kept.fits.still still, kept.exclusive.of_still still, kept.inTurn⟩

theorem Kept.heard {q : ProbeReply} (kept : book.Kept b h) (hears : h.Hears q g) : book.Kept b g := by
  obtain ⟨exclusive, precedes⟩ := hears.exclusive kept.exclusive
  have unmoved : g.nextNumber = h.nextNumber ∧ g.deferred = h.deferred ∧
      ∀ a, g.memory.contains a = h.memory.contains a := by
    cases hears with
    | late still => exact ⟨still.next, still.deferred, still.backed⟩
    | more _ _ _ still => exact ⟨still.next, still.deferred, still.backed⟩
    | last _ _ _ still => exact ⟨still.next, still.deferred, still.backed⟩
  obtain ⟨next, deferred, backed⟩ := unmoved
  exact ⟨kept.fits.precedes precedes exclusive.below next deferred backed, exclusive, kept.inTurn⟩

theorem Kept.request (kept : book.Kept b f.hub) (cpu : Nat) (q : Request) :
    (book.record ⟨f, .request cpu q⟩).Kept b (f.routeCounted cpu q).hub := by
  have handles := f.routeCounted_handles kept.exclusive.below cpu q
  cases q with
  | read id a kind =>
    have arrival := book.arrival handles
    exact ⟨kept.fits.arrival arrival, (Reads.exclusive handles kept.exclusive).1,
      kept.fits.inTurn arrival kept.inTurn⟩
  | reply r => exact kept.heard handles
  | ioWrite | victim | barrier => exact kept.still handles

theorem Kept.route (cpu : Nat) (requests : List Request) (kept : book.Kept b f.hub) :
    ((Fabric.routeJournal cpu requests f).foldl record book).Kept b
      (requests.foldl (Fabric.routeCounted cpu) f).hub := by
  induction requests generalizing book f with
  | nil => exact kept
  | cons q rest ih => exact ih (kept.request cpu q)

theorem Kept.sweep (queues : List Nat) (kept : book.Kept b f.hub) :
    ((Fabric.sweepJournal queues f).foldl record book).Kept b (f.sweep Fabric.serveQueue queues).2.hub := by
  induction queues generalizing book f with
  | nil => exact kept
  | cons cpu rest ih =>
    rw [Fabric.sweepJournal, List.foldl_append]
    exact ih ((kept.still (f.still_takeRequests cpu)).route cpu _)

theorem record_blocked {t : Ticket} {rest : List Ticket} (waiting : book.waiting = t :: rest)
    (blocked : f.hub.isBusy t.read.addr) :
    book.record ⟨f, .waiting t.read⟩ = { book with waiting := rest ++ [t] } ∧
      Entry.after ⟨f, .waiting t.read⟩ =
        { f with hub := { f.hub with deferred := f.hub.deferred.tail ++ [t.read] } } := by
  have after : Entry.after ⟨f, .waiting t.read⟩ =
      { f with hub := { f.hub with deferred := f.hub.deferred.tail ++ [t.read] } } := by
    simp only [Entry.after, blocked, if_true]
  exact ⟨by simp [record, again, waiting, after], after⟩

theorem Fits.record_free {t : Ticket} {rest : List Ticket} (fits : book.Fits f.hub)
    (exclusive : f.hub.Exclusive) (waiting : book.waiting = t :: rest)
    (free : f.hub.isBusy t.read.addr = false) :
    book.record ⟨f, .waiting t.read⟩ =
        { book with waiting := rest, opened := book.opened ++ [t] } ∧
      Reads { f.hub with deferred := f.hub.deferred.tail } t.read (Entry.after ⟨f, .waiting t.read⟩).hub ∧
      Opens { f.hub with deferred := f.hub.deferred.tail } t.read
        (Entry.after ⟨f, .waiting t.read⟩).hub := by
  let popped : Fabric := { f with hub := { f.hub with deferred := f.hub.deferred.tail } }
  have after : Entry.after ⟨f, .waiting t.read⟩ = popped.routeRead t.read := by
    simp [Entry.after, free, popped]
  have inside : f.hub.memory.contains t.read.addr := by
    refine fits.backed t ?_
    rw [waiting]
    exact List.mem_cons_self
  have reads : popped.hub.Reads t.read (popped.routeRead t.read).hub :=
    popped.routeRead_reads exclusive.below t.read
  have opens := reads.opens inside free
  have next : (popped.routeRead t.read).hub.nextNumber = f.hub.nextNumber + 1 := opens.next
  rw [after]
  refine ⟨?_, reads, opens⟩
  simp [record, again, waiting, after, next]

/-- The pass over the queue. What it has looked at waits for busy blocks, and stands before the rest when
its turn comes again. -/
theorem Fits.retry (todo done : List Ticket) (fits : book.Fits f.hub) (exclusive : f.hub.Exclusive)
    (waiting : book.waiting = todo ++ done) (busy : ∀ u ∈ done, f.hub.isBusy u.read.addr)
    (inTurn : InTurn b (book.opened ++ (done ++ todo))) :
    ((Fabric.retryJournal todo.length f).foldl record book).Kept b
      (Fabric.retryReads todo.length f).2.hub := by
  -- a busy read goes to the end of `done`; a ready one opens, and no read of its block is in `done`
  induction todo generalizing done book f with
  | nil =>
    refine ⟨fits, exclusive, ?_⟩
    change InTurn b (book.opened ++ book.waiting)
    rw [List.append_nil] at inTurn
    rwa [waiting]
  | cons t rest ih =>
    have queue : f.hub.deferred = t.read :: (rest ++ done).map (·.read) := by
      rw [← fits.waiting, waiting]
      rfl
    rw [List.length_cons, Fabric.retryReads_after rest.length queue]
    simp only [Fabric.retryJournal, queue, List.foldl_cons]
    cases blocked : f.hub.isBusy t.read.addr with
    | true =>
      obtain ⟨shape, after⟩ := record_blocked waiting blocked
      rw [shape, after]
      refine ih (done ++ [t]) (fits.turned waiting) (exclusive.queued _) (List.append_assoc ..) ?_ ?_
      · exact List.forall_mem_append.mpr ⟨busy, List.forall_mem_singleton.mpr blocked⟩
      · rwa [List.append_assoc done]
    | false =>
      obtain ⟨shape, reads, opens⟩ := fits.record_free exclusive waiting blocked
      rw [shape]
      refine ih done (fits.began waiting opens) (reads.exclusive (exclusive.queued _)).1 rfl
        (fun u member => reads.isBusy (busy u member)) (inTurn.advance fun _ u member same => ?_)
      -- a read of this block that was looked at before found it busy, so it would be busy still
      have held := busy u member
      rw [isBusy, same] at held
      rw [isBusy, held] at blocked
      cases blocked

theorem Kept.poll (kept : book.Kept b f.hub) : (f.pollJournal.foldl record book).Kept b f.poll.2.hub := by
  rw [Fabric.pollJournal, List.foldl_append]
  have swept := (kept.still (Fabric.sending_still.retryParked f)).sweep
    (List.range f.retryParked.2.hub.sockets.length)
  have retried := swept.fits.retry _ [] swept.exclusive (List.append_nil _).symm
    (fun _ member => absurd member List.not_mem_nil) swept.inTurn
  rw [swept.fits.length] at retried
  exact retried

theorem Kept.run (calls : List Call) (kept : book.Kept b f.hub) :
    ((f.journal calls).foldl record book).Kept b (f.run calls).hub := by
  induction calls generalizing book f with
  | nil => exact kept
  | cons c rest ih =>
    cases c with
    | poll =>
      rw [Fabric.journal, List.foldl_append]
      exact ih kept.poll
    | operate cpu op => exact ih (kept.still (f.still_operate cpu op))
    | service cpu => exact ih (kept.still (f.still_service cpu))

theorem Fits.not_ascending {t : Ticket} (fits : book.Fits h) (member : t ∈ book.line b) (early : t.early) :
    ¬ Ascending (book.line b) := by
  obtain ⟨listed, about⟩ := List.mem_filter.mp member
  have began : t ∈ book.opened := by
    refine (List.mem_append.mp listed).resolve_right fun waits => ?_
    rw [fits.patient t waits] at early
    cases early
  obtain ⟨ahead, behind, split⟩ := List.append_of_mem began
  obtain ⟨u, later, block, older⟩ := fits.passed ahead t behind split early
  have shape : book.line b =
      ahead.filter (·.isFor b) ++ t :: (behind ++ book.waiting).filter (·.isFor b) := by
    rw [line, split, List.append_assoc, List.cons_append, List.filter_append,
      List.filter_cons_of_pos (p := fun t : Ticket => t.isFor b) about]
  have same : u.isFor b := by rwa [Ticket.isFor, block]
  intro ascending
  rw [shape] at ascending
  have passed := (List.pairwise_cons.mp (List.pairwise_append.mp ascending).2.1).1 u
    (List.mem_filter.mpr ⟨later, same⟩)
  exact Nat.lt_asymm passed older

theorem Kept.ascending_iff (kept : book.Kept b h) :
    Ascending (book.line b) ↔ ∀ t ∈ book.line b, t.early = false := by
  constructor
  · intro ascending t member
    by_contra early
    exact kept.fits.not_ascending member (by simpa using early) ascending
  · intro none_early
    have whole : (book.opened ++ book.waiting).filter (fun t => !t.early && t.isFor b) =
        book.line b := by
      refine List.filter_congr fun t member => ?_
      cases about : t.isFor b with
      | false => exact Bool.and_false _
      | true => simp [none_early t (List.mem_filter.mpr ⟨member, about⟩)]
    rw [← whole]
    exact kept.inTurn

end Book

theorem Machine.kept_of_build {σ : Type} {a : Allocator σ} {st : σ} {settings : Settings} {m : Machine}
    (built : (Machine.build a st settings).1.outcome = .ok m) (b : Address) :
    Book.Kept b {} m.fabric.hub := by
  obtain ⟨exclusive, _⟩ := Machine.exclusive_of_build built
  obtain ⟨memory, growing, _⟩ := growing_of_build built
  rw [growing.hub] at exclusive ⊢
  exact ⟨⟨rfl, rfl, nofun, nofun, nofun, nofun, List.nodup_nil, by simp⟩, exclusive, List.Pairwise.nil⟩

/-- For each block the reads that are not early have their turns in the order in which they reached the
hub, and all reads have if and only if none is early. -/
theorem turns_ascending_iff {σ : Type} {a : Allocator σ} {st : σ} {settings : Settings} {m : Machine}
    (built : (Machine.build a st settings).1.outcome = .ok m) (calls : List Call) (b : Address) :
    (m.fabric.book calls).Fits (m.fabric.run calls).hub ∧
    Ascending (((m.fabric.book calls).line b).filter (!·.early)) ∧
    (Ascending ((m.fabric.book calls).line b) ↔
      ∀ t ∈ (m.fabric.book calls).line b, t.early = false) := by
  have kept := (Machine.kept_of_build built b).run calls
  refine ⟨kept.fits, ?_, kept.ascending_iff⟩
  rw [Book.line, List.filter_filter]
  exact kept.inTurn

/-- Two CPUs write the same block, and the second waits for the first. -/
def queueing : List Call :=
  [.operate 0 (.issue (.to (.store .quad) 0)), .operate 1 (.issue (.to (.store .quad) 0)), .poll,
    .service 1, .poll]

theorem queueing_ascending :
    (Machine.build Heap.allocator {} .pair).1.outcome = .ok .pair ∧
      (Machine.pair.fabric.book queueing).Fits (Machine.pair.fabric.run queueing).hub ∧
      Ascending ((Machine.pair.fabric.book queueing).line ⟨0⟩) ∧
      ((Machine.pair.fabric.book queueing).opened.map fun t => (t.place, t.read.cpu)) =
        [(0, 0), (1, 1)] := by
  obtain ⟨fits, _, ascending⟩ := turns_ascending_iff Machine.pair_built queueing ⟨0⟩
  exact ⟨Machine.pair_built, fits, ascending.mpr (by decide +kernel), by decide +kernel⟩

/-- CPU 0 has a read of block 0 open and another one waiting. CPU 1 answers the probe of the first and asks
for the block itself, so the hub finds the block free when it turns to the read of CPU 1. -/
def overtaking : List Call :=
  [.operate 0 (.issue (.to (.store .quad) 0)), .operate 0 (.issue (.to (.load .quad) 0)), .poll,
    .service 1, .operate 1 (.issue (.to (.load .quad) 0)), .poll, .service 0, .poll]

/-- The third read has its transaction opened before the second. -/
theorem overtaking_not_ascending :
    (Machine.build Heap.allocator {} .pair).1.outcome = .ok .pair ∧
      ((Machine.pair.fabric.book overtaking).opened.map fun t => (t.place, t.read.cpu)) =
        [(0, 0), (2, 1), (1, 0)] ∧
      ¬ Ascending ((Machine.pair.fabric.book overtaking).opened.filter (·.isFor ⟨0⟩)) :=
  ⟨Machine.pair_built, by decide +kernel, by decide +kernel⟩

end CacheCoherence
