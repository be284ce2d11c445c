import CacheCoherence.Proofs.HubMoves

namespace CacheCoherence

structure Transaction.Continues (u t : Transaction) : Prop where
  number : t.number = u.number
  origin : t.origin = u.origin
  id : t.id = u.id
  addr : t.addr = u.addr
  kind : t.kind = u.kind

namespace Hub

/-- The map of busy blocks and the open transactions say the same, and every transaction has a number
of its own below the next one and a block of memory. -/
structure Exclusive (h : Hub) : Prop where
  busy : ∀ key number, h.busy.get? key = some number ↔
    ∃ t ∈ h.transactions, t.number = number ∧ t.addr.toNat = key
  numbers : (h.transactions.map (·.number)).Nodup
  below : ∀ t ∈ h.transactions, t.number < h.nextNumber
  counted : h.counters.transactions = h.nextNumber
  backed : ∀ t ∈ h.transactions, h.memory.contains t.addr ∧ t.addr.block = t.addr

variable {h g k : Hub}

theorem Exclusive.of_still (exclusive : h.Exclusive) (still : Still h g) : g.Exclusive := by
  refine ⟨?_, ?_, ?_, ?_, ?_⟩
  · intro key number
    rw [still.busy, still.transactions]
    exact exclusive.busy key number
  · rw [still.transactions]
    exact exclusive.numbers
  · rw [still.transactions, still.next]
    exact exclusive.below
  · rw [still.opened, still.next]
    exact exclusive.counted
  · intro t isOpen
    rw [still.transactions] at isOpen
    rw [still.backed]
    exact exclusive.backed t isOpen

theorem Exclusive.queued (exclusive : h.Exclusive) (list : List DeferredRead) :
    Exclusive { h with deferred := list } :=
  ⟨exclusive.busy, exclusive.numbers, exclusive.below, exclusive.counted, exclusive.backed⟩

theorem Exclusive.alone (exclusive : h.Exclusive) {t u : Transaction} (t_open : t ∈ h.transactions)
    (u_open : u ∈ h.transactions) (same : t.addr = u.addr) : t = u := by
  have first := (exclusive.busy t.addr.toNat t.number).mpr ⟨t, t_open, rfl, rfl⟩
  have second := (exclusive.busy t.addr.toNat u.number).mpr ⟨u, u_open, rfl, by rw [same]⟩
  exact txn_unique exclusive.numbers t_open u_open (Option.some.inj (first.symm.trans second))

theorem Exclusive.blocks (exclusive : h.Exclusive) : (h.transactions.map (·.addr)).Nodup := by
  refine List.Nodup.map_on ?_ (List.Nodup.of_map _ exclusive.numbers)
  exact fun t t_open u u_open same => exclusive.alone t_open u_open same

theorem Exclusive.opened (exclusive : h.Exclusive) {r : DeferredRead}
    (inside : h.memory.contains r.addr) (free : h.isBusy r.addr = false) (pending : Nat) :
    (h.openTransaction r.cpu r.id r.addr r.kind pending).Exclusive := by
  have idle : h.busy.get? r.addr.block.toNat = none :=
    Option.isNone_iff_eq_none.mp (Option.isSome_eq_false_iff.mp free)
  have shape : (h.openTransaction r.cpu r.id r.addr r.kind pending).transactions =
      h.transactions ++ [h.fresh r pending] := rfl
  refine ⟨?_, ?_, ?_, ?_, ?_⟩
  · intro key number
    simp only [shape, List.mem_append, List.mem_singleton, or_and_right, exists_or, exists_eq_left,
      ← exclusive.busy]
    simp only [openTransaction, fresh, Sparse.get?_set]
    by_cases here : r.addr.block.toNat = key
    · subst here
      simp [idle, -Address.toNat_block]
    · simp [here, -Address.toNat_block]
  · rw [shape, List.map_append, List.nodup_append]
    refine ⟨exclusive.numbers, List.nodup_singleton _, ?_⟩
    intro number old other new same
    obtain ⟨t, isOpen, rfl⟩ := List.mem_map.mp old
    obtain rfl := List.mem_singleton.mp new
    exact absurd same (Nat.ne_of_lt (exclusive.below t isOpen))
  · intro t isOpen
    rcases List.mem_append.mp (shape ▸ isOpen) with old | new
    · exact Nat.lt_succ_of_lt (exclusive.below t old)
    · rw [List.mem_singleton.mp new]
      exact Nat.lt_succ_self _
  · exact congrArg (· + 1) exclusive.counted
  · intro t isOpen
    rcases List.mem_append.mp (shape ▸ isOpen) with old | new
    · exact exclusive.backed t old
    · rw [List.mem_singleton.mp new]
      refine ⟨?_, Address.block_block _⟩
      rw [← inside]
      exact Memory.contains_congr _ (Address.block_block _)

theorem Exclusive.skipped (exclusive : h.Exclusive) :
    Exclusive { h with
      nextNumber := h.nextNumber + 1
      counters := { h.counters with transactions := h.counters.transactions + 1 } } :=
  ⟨exclusive.busy, exclusive.numbers, fun t isOpen => Nat.lt_succ_of_lt (exclusive.below t isOpen),
    congrArg (· + 1) exclusive.counted, exclusive.backed⟩

/-- The transaction that `t` becomes with a reply, and every other one as it is. -/
theorem Exclusive.continues_taken (exclusive : h.Exclusive) {t : Transaction} (isOpen : t ∈ h.transactions)
    {r : ProbeReply} (number : t.number = r.txn) {u : Transaction} (member : u ∈ h.transactions) :
    u.Continues (if u.number = r.txn then t.take r else u) := by
  split
  · rename_i here
    rw [txn_unique exclusive.numbers member isOpen (here.trans number.symm)]
    exact ⟨rfl, rfl, rfl, rfl, rfl⟩
  · exact ⟨rfl, rfl, rfl, rfl, rfl⟩

theorem Exclusive.modified (exclusive : h.Exclusive) {t : Transaction} (isOpen : t ∈ h.transactions)
    {r : ProbeReply} (number : t.number = r.txn) :
    (h.modifyTransaction r.txn fun _ => t.take r).Exclusive := by
  have continues {u : Transaction} (member : u ∈ h.transactions) :=
    exclusive.continues_taken isOpen number member
  have mem_modified (w : Transaction) :
      w ∈ (h.modifyTransaction r.txn fun _ => t.take r).transactions ↔
        ∃ u ∈ h.transactions, (if u.number = r.txn then t.take r else u) = w := List.mem_map
  refine ⟨?_, ?_, ?_, exclusive.counted, ?_⟩
  · intro key n
    refine (exclusive.busy key n).trans ⟨?_, ?_⟩
    · rintro ⟨u, member, rfl, rfl⟩
      have same := continues member
      exact ⟨_, (mem_modified _).mpr ⟨u, member, rfl⟩, same.number, by rw [same.addr]⟩
    · rintro ⟨w, member, rfl, rfl⟩
      obtain ⟨u, old, rfl⟩ := (mem_modified w).mp member
      have same := continues old
      exact ⟨u, old, same.number.symm, by rw [same.addr]⟩
  · have numbers : (h.modifyTransaction r.txn fun _ => t.take r).transactions.map (·.number) =
        h.transactions.map (·.number) := by
      simp only [modifyTransaction, List.map_map]
      exact List.map_congr_left fun u member => (continues member).number
    rw [numbers]
    exact exclusive.numbers
  · intro w member
    obtain ⟨u, old, rfl⟩ := (mem_modified w).mp member
    rw [(continues old).number]
    exact exclusive.below u old
  · intro w member
    obtain ⟨u, old, rfl⟩ := (mem_modified w).mp member
    rw [(continues old).addr]
    exact exclusive.backed u old

theorem Exclusive.dropped (exclusive : h.Exclusive) {t : Transaction} (isOpen : t ∈ h.transactions) :
    (h.dropTransaction t).Exclusive := by
  have remains (u : Transaction) : u ∈ (h.dropTransaction t).transactions ↔
      u ∈ h.transactions ∧ u.number ≠ t.number := by
    simp [dropTransaction]
  refine ⟨?_, ?_, ?_, exclusive.counted, ?_⟩
  · intro key number
    simp only [remains]
    simp only [dropTransaction, Sparse.get?_erase]
    constructor
    · intro found
      split at found
      · cases found
      rename_i apart
      obtain ⟨u, member, rfl, rfl⟩ := (exclusive.busy key number).mp found
      refine ⟨u, ⟨member, fun same => apart ?_⟩, rfl, rfl⟩
      rw [txn_unique exclusive.numbers member isOpen same]
    · rintro ⟨u, ⟨member, apart⟩, rfl, rfl⟩
      rw [if_neg]
      · exact (exclusive.busy _ _).mpr ⟨u, member, rfl, rfl⟩
      · intro same
        exact apart (congrArg (·.number) (exclusive.alone member isOpen (Address.toNat_inj.mp same.symm)))
  · exact exclusive.numbers.sublist (List.filter_sublist.map _)
  · exact fun u member => exclusive.below u ((remains u).mp member).1
  · exact fun u member => exclusive.backed u ((remains u).mp member).1

/-- No number that was handed out names another transaction later. -/
structure Precedes (h g : Hub) : Prop where
  next : h.nextNumber ≤ g.nextNumber
  lasting : ∀ t ∈ g.transactions, t.number < h.nextNumber → ∃ u ∈ h.transactions, u.Continues t

theorem Precedes.of_still (still : Still h g) : Precedes h g := by
  refine ⟨Nat.le_of_eq still.next.symm, fun t isOpen _ => ⟨t, ?_, ⟨rfl, rfl, rfl, rfl, rfl⟩⟩⟩
  rwa [still.transactions] at isOpen

theorem Precedes.refl (h : Hub) : Precedes h h := .of_still (.refl h)

theorem Precedes.trans (first : Precedes h g) (second : Precedes g k) : Precedes h k := by
  refine ⟨Nat.le_trans first.next second.next, fun t isOpen old => ?_⟩
  obtain ⟨u, between, later⟩ := second.lasting t isOpen (Nat.lt_of_lt_of_le old first.next)
  obtain ⟨w, before, earlier⟩ := first.lasting u between (later.number ▸ old)
  exact ⟨w, before, later.number.trans earlier.number, later.origin.trans earlier.origin,
    later.id.trans earlier.id, later.addr.trans earlier.addr, later.kind.trans earlier.kind⟩

theorem Precedes.of_dropped (h : Hub) (t : Transaction) : Precedes h (h.dropTransaction t) :=
  ⟨Nat.le_refl _, fun u member _ => ⟨u, (List.mem_filter.mp member).1, ⟨rfl, rfl, rfl, rfl, rfl⟩⟩⟩

theorem Reads.exclusive {r : DeferredRead} (reads : h.Reads r g) (exclusive : h.Exclusive) :
    g.Exclusive ∧ h.Precedes g := by
  cases reads with
  | absent _ still => exact ⟨exclusive.of_still still, .of_still still⟩
  | waits _ _ still =>
    have same : Precedes h { h with deferred := h.deferred ++ [r] } :=
      ⟨Nat.le_refl _, fun t isOpen _ => ⟨t, isOpen, ⟨rfl, rfl, rfl, rfl, rfl⟩⟩⟩
    exact ⟨(exclusive.queued _).of_still still, same.trans (.of_still still)⟩
  | begins inside free pending still =>
    refine ⟨(exclusive.opened inside free pending).of_still still, Precedes.trans ?_ (.of_still still)⟩
    refine ⟨Nat.le_succ _, fun t isOpen old => ?_⟩
    rcases List.mem_append.mp isOpen with before | new
    · exact ⟨t, before, ⟨rfl, rfl, rfl, rfl, rfl⟩⟩
    · rw [List.mem_singleton.mp new] at old
      exact absurd old (Nat.lt_irrefl _)
  | alone _ _ still =>
    refine ⟨exclusive.skipped.of_still still, Precedes.trans ?_ (.of_still still)⟩
    exact ⟨Nat.le_succ _, fun t isOpen _ => ⟨t, isOpen, ⟨rfl, rfl, rfl, rfl, rfl⟩⟩⟩

theorem Hears.exclusive {r : ProbeReply} (hears : h.Hears r g) (exclusive : h.Exclusive) :
    g.Exclusive ∧ h.Precedes g := by
  have taken {t : Transaction} (isOpen : t ∈ h.transactions) (number : t.number = r.txn) :
      Precedes h (h.modifyTransaction r.txn fun _ => t.take r) := by
    refine ⟨Nat.le_refl _, fun w member _ => ?_⟩
    obtain ⟨u, old, rfl⟩ := List.mem_map.mp member
    exact ⟨u, old, exclusive.continues_taken isOpen number old⟩
  cases hears with
  | late still => exact ⟨exclusive.of_still still, .of_still still⟩
  | more t isOpen number still =>
    exact ⟨(exclusive.modified isOpen number).of_still still,
      (taken isOpen number).trans (.of_still still)⟩
  | last t isOpen number still =>
    have modified := exclusive.modified isOpen number
    have remains : t.take r ∈ (h.modifyTransaction r.txn fun _ => t.take r).transactions :=
      List.mem_map.mpr ⟨t, isOpen, if_pos number⟩
    exact ⟨(modified.dropped remains).of_still still,
      ((taken isOpen number).trans (.of_dropped _ _)).trans (.of_still still)⟩

theorem Reads.isBusy {r : DeferredRead} (reads : h.Reads r g) {a : Address} (busy : h.isBusy a) :
    g.isBusy a := by
  cases reads with
  | absent _ still => rwa [still.isBusy]
  | waits _ _ still =>
    rw [still.isBusy]
    exact busy
  | begins _ _ pending still =>
    rw [still.isBusy, Hub.isBusy, openTransaction, Sparse.get?_set]
    split
    · rfl
    · exact busy
  | alone _ _ still =>
    rw [still.isBusy]
    exact busy

theorem Reads.deferred {r : DeferredRead} (reads : h.Reads r g) (free : h.isBusy r.addr = false) :
    g.deferred = h.deferred := by
  cases reads with
  | absent _ still => exact still.deferred
  | waits _ busy _ => rw [busy] at free; cases free
  | begins _ _ _ still => exact still.deferred
  | alone _ _ still => exact still.deferred

end Hub

theorem Hub.Handles.exclusive {h g : Hub} {cpu : Nat} {q : Request} (handles : h.Handles cpu q g)
    (exclusive : h.Exclusive) : g.Exclusive ∧ h.Precedes g := by
  cases q with
  | read => exact Hub.Reads.exclusive handles exclusive
  | reply => exact Hub.Hears.exclusive handles exclusive
  | ioWrite | victim | barrier => exact ⟨exclusive.of_still handles, .of_still handles⟩

abbrev Pass.Leads : Pass → Pass → Prop := Relation.ReflTransGen fun s t => ∃ mover, s.Step mover t

namespace Pass

open Hub

variable {s t : Pass} {mover : Mover}

theorem Step.exclusive (step : s.Step mover t) (exclusive : s.fabric.hub.Exclusive) :
    t.fabric.hub.Exclusive ∧ s.fabric.hub.Precedes t.fabric.hub := by
  have aside (still : Still s.fabric.hub t.fabric.hub) :
      t.fabric.hub.Exclusive ∧ s.fabric.hub.Precedes t.fabric.hub :=
    ⟨exclusive.of_still still, .of_still still⟩
  have shuffled (list : List DeferredRead) :
      s.fabric.hub.Precedes { s.fabric.hub with deferred := list } :=
    ⟨Nat.le_refl _, fun t isOpen _ => ⟨t, isOpen, ⟨rfl, rfl, rfl, rfl, rfl⟩⟩⟩
  cases step with
  | operate cpu op => exact aside (s.fabric.still_operate cpu op)
  | answer | lower => exact aside (.refl _)
  | ring => exact aside ⟨rfl, fun _ => rfl, rfl, rfl, rfl, fun _ => rfl⟩
  | resend => exact aside (Fabric.sending_still.retryParked s.fabric)
  | take cpu => exact aside (s.fabric.still_takeRequests cpu)
  | route cpu q rest next => exact (s.fabric.routeCounted_handles exclusive.below cpu q).exclusive exclusive
  | turn r rest next => exact ⟨exclusive.queued _, shuffled _⟩
  | retry r rest next =>
    let popped : Fabric := { s.fabric with hub := { s.fabric.hub with deferred := rest } }
    have reads := popped.routeRead_reads exclusive.below r
    obtain ⟨kept, later⟩ := reads.exclusive (exclusive.queued rest)
    exact ⟨kept, (shuffled rest).trans later⟩

theorem Leads.exclusive (leads : s.Leads t) (exclusive : s.fabric.hub.Exclusive) :
    t.fabric.hub.Exclusive ∧ s.fabric.hub.Precedes t.fabric.hub := by
  induction leads with
  | refl => exact ⟨exclusive, .refl _⟩
  | tail _ step ih =>
    obtain ⟨mover, step⟩ := step
    obtain ⟨kept, later⟩ := step.exclusive ih.1
    exact ⟨kept, ih.2.trans later⟩

theorem Works.leads (works : s.Works t) : s.Leads t := by
  induction works with
  | refl => exact .refl
  | tail _ step ih => exact ih.tail ⟨.machine, step⟩

theorem leads_call (f : Fabric) (c : Call) : Leads { fabric := f } { fabric := f.call c } := by
  cases c with
  | operate cpu op => exact .single ⟨_, .operate { fabric := f } cpu op⟩
  | service cpu => exact (f.works_service cpu).leads
  | poll => exact f.works_poll.leads

theorem leads_run (f : Fabric) (calls : List Call) :
    Leads { fabric := f } { fabric := f.run calls } := by
  induction calls generalizing f with
  | nil => exact .refl
  | cons c rest ih => exact (leads_call f c).trans (ih _)

end Pass

def Hub.Unstranded (h : Hub) : Prop := ∀ r ∈ h.deferred, h.isBusy r.addr

namespace Fabric

open Hub

/-- Reads that were looked at in this pass wait for a block that stays busy, so nothing that ended
before or during the pass leaves a read behind. -/
theorem unstranded_retryReads (todo done : List DeferredRead) {f : Fabric}
    (exclusive : f.hub.Exclusive) (waiting : f.hub.deferred = todo ++ done)
    (busy : ∀ r ∈ done, f.hub.isBusy r.addr) :
    (retryReads todo.length f).2.hub.Unstranded := by
  -- on the reads that are still to be looked at, with those that were put back behind them
  induction todo generalizing done f with
  | nil =>
    intro r member
    change r ∈ f.hub.deferred at member
    rw [waiting] at member
    exact busy r member
  | cons r rest ih =>
    rw [List.cons_append] at waiting
    simp only [List.length_cons, retryReads, waiting]
    split
    · rename_i still_busy
      refine ih (done ++ [r]) (exclusive.queued _) (List.append_assoc ..) ?_
      intro q member
      rcases List.mem_append.mp member with old | new
      · exact busy q old
      · rw [List.mem_singleton.mp new]
        exact still_busy
    · rename_i free
      rw [Bool.not_eq_true] at free
      let popped : Fabric := { f with hub := { f.hub with deferred := rest ++ done } }
      have reads := popped.routeRead_reads exclusive.below r
      exact ih done (reads.exclusive (exclusive.queued _)).1 (reads.deferred free)
        fun q member => reads.isBusy (busy q member)

theorem unstranded_poll {f : Fabric} (exclusive : f.hub.Exclusive) : f.poll.2.hub.Unstranded := by
  let g := (f.retryParked.2.sweep serveQueue (List.range f.retryParked.2.hub.sockets.length)).2
  have resent : Pass.Works { fabric := f } { fabric := f.retryParked.2 } := .single (.resend _)
  have swept : Pass.Leads { fabric := f } { fabric := g } :=
    Pass.Works.leads (resent.trans (works_sweep _ _))
  exact unstranded_retryReads g.hub.deferred [] (swept.exclusive exclusive).1
    (List.append_nil _).symm nofun

theorem unstranded_run (calls : List Call) {f : Fabric} (exclusive : f.hub.Exclusive)
    (unstranded : f.hub.Unstranded) : (f.run calls).hub.Unstranded := by
  induction calls generalizing f with
  | nil => exact unstranded
  | cons c rest ih =>
    have called := ((Pass.leads_call f c).exclusive exclusive).1
    have aside (still : Still f.hub (f.call c).hub) : (f.call c).hub.Unstranded := by
      intro r member
      rw [still.deferred] at member
      rw [still.isBusy]
      exact unstranded r member
    refine ih called ?_
    cases c with
    | operate cpu op => exact aside (f.still_operate cpu op)
    | service cpu => exact aside (f.still_service cpu)
    | poll => exact unstranded_poll exclusive

end Fabric

theorem Machine.exclusive_of_build {σ : Type} {a : Allocator σ} {st : σ} {settings : Settings}
    {m : Machine} (built : (Machine.build a st settings).1.outcome = .ok m) :
    m.fabric.hub.Exclusive ∧ m.fabric.hub.deferred = [] := by
  obtain ⟨memory, growing, _⟩ := growing_of_build built
  rw [growing.hub]
  refine ⟨⟨?_, ?_, ?_, rfl, ?_⟩, rfl⟩
  · simp [Hub.create]
  · exact List.nodup_nil
  · exact fun _ member => absurd member List.not_mem_nil
  · exact fun _ member => absurd member List.not_mem_nil

/-- Whatever is called, and in every state that the calls come through: the busy blocks are those of
the open transactions, one each, all of them blocks of memory; numbers are not used again; and after
each call every read that waits is one of a busy block. -/
theorem blocks_exclusive {σ : Type} {a : Allocator σ} {st : σ} {settings : Settings} {m : Machine}
    (built : (Machine.build a st settings).1.outcome = .ok m) (calls : List Call) :
    (∀ r ∈ (m.fabric.run calls).hub.deferred, (m.fabric.run calls).hub.isBusy r.addr) ∧
    ∀ s, Pass.Leads { fabric := m.fabric.run calls } s →
      s.fabric.hub.Exclusive ∧
      (s.fabric.hub.transactions.map (·.addr)).Nodup ∧
      (∀ t ∈ s.fabric.hub.transactions, t.addr.isIo = false) ∧
      ∀ t, Pass.Leads s t → s.fabric.hub.Precedes t.fabric.hub := by
  obtain ⟨exclusive, empty⟩ := Machine.exclusive_of_build built
  have started : m.fabric.hub.Unstranded := by simp [Hub.Unstranded, empty]
  refine ⟨Fabric.unstranded_run calls exclusive started, fun s leads => ?_⟩
  have kept := (Pass.Leads.exclusive ((Pass.leads_run m.fabric calls).trans leads) exclusive).1
  refine ⟨kept, kept.blocks, ?_, fun t later => (later.exclusive kept).2⟩
  exact fun t isOpen => Memory.isIo_of_contains (kept.backed t isOpen).1

/-- CPU 0 wants block 0 twice, and the second read has to wait for the first. -/
def contended : List Call :=
  [.operate 0 (.issue (.to (.store .quad) 0)), .operate 0 (.issue (.to (.load .quad) 0)), .poll]

theorem contended_exclusive :
    (Machine.build Heap.allocator {} .pair).1.outcome = .ok .pair ∧
    (∀ r ∈ (Machine.pair.fabric.run contended).hub.deferred,
      (Machine.pair.fabric.run contended).hub.isBusy r.addr) ∧
    (Machine.pair.fabric.run contended).hub.Exclusive ∧
    (Machine.pair.fabric.run contended).hub.transactions.map (·.number) = [0] ∧
    (Machine.pair.fabric.run contended).hub.deferred.length = 1 := by
  obtain ⟨waiting, states⟩ := blocks_exclusive Machine.pair_built contended
  exact ⟨Machine.pair_built, waiting, (states _ .refl).1, by decide +kernel, by decide +kernel⟩

end CacheCoherence
