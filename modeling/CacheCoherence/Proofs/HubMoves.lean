import CacheCoherence.Proofs.Frames

namespace CacheCoherence

namespace Hub

structure Still (h g : Hub) : Prop where
  transactions : g.transactions = h.transactions
  busy : ∀ key, g.busy.get? key = h.busy.get? key
  deferred : g.deferred = h.deferred
  next : g.nextNumber = h.nextNumber
  opened : g.counters.transactions = h.counters.transactions
  backed : ∀ a, g.memory.contains a = h.memory.contains a

variable {h g k : Hub}

theorem Still.refl (h : Hub) : Still h h := ⟨rfl, fun _ => rfl, rfl, rfl, rfl, fun _ => rfl⟩

theorem Still.trans (first : Still h g) (second : Still g k) : Still h k :=
  ⟨second.transactions.trans first.transactions, fun key => (second.busy key).trans (first.busy key),
    second.deferred.trans first.deferred, second.next.trans first.next,
    second.opened.trans first.opened, fun a => (second.backed a).trans (first.backed a)⟩

theorem Still.of_eq (same : g = h) : Still h g := same ▸ .refl h

theorem Still.isBusy (still : Still h g) (a : Address) : g.isBusy a = h.isBusy a := by
  rw [Hub.isBusy, still.busy]
  rfl

def fresh (h : Hub) (r : DeferredRead) (pending : Nat) : Transaction where
  number := h.nextNumber
  origin := r.cpu
  id := r.id
  addr := r.addr.block
  kind := r.kind
  next := (h.probeCommand r.kind).next
  pending := pending

/-- What the hub does with a read, when it comes and when it is looked at again. One that the hub has
nobody to probe for ends in the same turn. -/
inductive Reads (h : Hub) (r : DeferredRead) (g : Hub) : Prop
  | absent (outside : h.memory.contains r.addr = false) (still : Still h g)
  | waits (inside : h.memory.contains r.addr) (busy : h.isBusy r.addr)
      (still : Still { h with deferred := h.deferred ++ [r] } g)
  | begins (inside : h.memory.contains r.addr) (free : h.isBusy r.addr = false) (pending : Nat)
      (still : Still (h.openTransaction r.cpu r.id r.addr r.kind pending) g)
  | alone (inside : h.memory.contains r.addr) (free : h.isBusy r.addr = false)
      (still : Still { h with
        nextNumber := h.nextNumber + 1
        counters := { h.counters with transactions := h.counters.transactions + 1 } } g)

inductive Hears (h : Hub) (r : ProbeReply) (g : Hub) : Prop
  | late (still : Still h g)
  | more (t : Transaction) (isOpen : t ∈ h.transactions) (number : t.number = r.txn)
      (still : Still (h.modifyTransaction r.txn fun _ => t.take r) g)
  | last (t : Transaction) (isOpen : t ∈ h.transactions) (number : t.number = r.txn)
      (still : Still ((h.modifyTransaction r.txn fun _ => t.take r).dropTransaction (t.take r)) g)

def Handles (h : Hub) (cpu : Nat) (q : Request) (g : Hub) : Prop :=
  match q with
  | .read id a kind => h.Reads ⟨cpu, id, a, kind⟩ g
  | .reply r => h.Hears r g
  | .ioWrite .. | .victim .. | .barrier _ => Still h g

theorem Handles.uncounted {cpu : Nat} {q : Request} (counters : HubCounters)
    (opened : counters.transactions = h.counters.transactions)
    (handles : Handles { h with counters } cpu q g) : h.Handles cpu q g := by
  have plain (still : Still { h with counters } g) : Still h g :=
    ⟨still.transactions, still.busy, still.deferred, still.next, still.opened.trans opened, still.backed⟩
  cases q with
  | ioWrite | victim | barrier => exact plain handles
  | read id a kind =>
    cases handles with
    | absent outside still => exact .absent outside (plain still)
    | waits inside busy still =>
      exact .waits inside busy ⟨still.transactions, still.busy, still.deferred, still.next,
        still.opened.trans opened, still.backed⟩
    | begins inside free pending still =>
      exact .begins inside free pending ⟨still.transactions, still.busy, still.deferred, still.next,
        still.opened.trans (congrArg (· + 1) opened), still.backed⟩
    | alone inside free still =>
      exact .alone inside free ⟨still.transactions, still.busy, still.deferred, still.next,
        still.opened.trans (congrArg (· + 1) opened), still.backed⟩
  | reply r =>
    cases handles with
    | late still => exact .late (plain still)
    | more t isOpen number still =>
      exact .more t isOpen number ⟨still.transactions, still.busy, still.deferred, still.next,
        still.opened.trans opened, still.backed⟩
    | last t isOpen number still =>
      exact .last t isOpen number ⟨still.transactions, still.busy, still.deferred, still.next,
        still.opened.trans opened, still.backed⟩

end Hub

namespace Fabric

open Hub

theorem sending_still : Sending fun f g => Still f.hub g.hub where
  refl f := .refl f.hub
  trans := .trans
  deliver f cpu m := .of_eq (f.deliver_frame cpu m).1
  parks _ _ _ opened := ⟨rfl, fun _ => rfl, rfl, rfl, opened, fun _ => rfl⟩

theorem still_takeRequests (f : Fabric) (cpu : Nat) : Still f.hub (f.takeRequests cpu).2.hub := by
  unfold takeRequests
  split
  · exact .refl _
  · split <;> exact .refl _

theorem still_operate (f : Fabric) (cpu : Nat) (op : Operation) : Still f.hub (f.operate cpu op).hub := by
  unfold operate withController
  split
  · exact .refl _
  · simp only [Option.map_some, Option.getD_some]
    split
    · exact ⟨rfl, fun _ => rfl, rfl, rfl, rfl, fun _ => rfl⟩
    · exact .refl _

theorem still_service (f : Fabric) (cpu : Nat) : Still f.hub (f.service cpu).2.hub := by
  unfold service
  split
  · exact .refl _
  · simp only
    split
    · exact ⟨rfl, fun _ => rfl, rfl, rfl, rfl, fun _ => rfl⟩
    · exact .refl _

theorem still_finish {f : Fabric} {number : Nat} {t : Transaction}
    (found : f.hub.transaction? number = some t) :
    Still (f.hub.dropTransaction t) (f.finish number).hub := by
  obtain ⟨memory, counters, m, same, _, source, opened, _⟩ := finish_some found
  have ended : Still (f.hub.dropTransaction t) (f.closed t memory counters).hub :=
    ⟨rfl, fun _ => rfl, rfl, rfl, opened, Memory.contains_of_written source⟩
  rw [same]
  exact ended.trans (sending_still.complete _ t.origin m)

/-- Numbers below the next one make the transaction that has just been opened the one that is found. -/
theorem found_fresh {h : Hub} (below : ∀ t ∈ h.transactions, t.number < h.nextNumber)
    (r : DeferredRead) (pending : Nat) :
    (h.openTransaction r.cpu r.id r.addr r.kind pending).transaction? h.nextNumber =
      some (h.fresh r pending) := by
  have none_before : h.transactions.find? (·.number == h.nextNumber) = none := by
    rw [List.find?_eq_none]
    intro t member same
    exact absurd (beq_iff_eq.mp same) (Nat.ne_of_lt (below t member))
  simp only [transaction?, openTransaction, List.find?_append, none_before, Option.none_or]
  simp [fresh]

/-- A transaction that ends as it was opened leaves only its number behind. -/
theorem still_dropped {h : Hub} (below : ∀ t ∈ h.transactions, t.number < h.nextNumber)
    {r : DeferredRead} (free : h.isBusy r.addr = false) (pending : Nat) :
    Still { h with
        nextNumber := h.nextNumber + 1
        counters := { h.counters with transactions := h.counters.transactions + 1 } }
      ((h.openTransaction r.cpu r.id r.addr r.kind pending).dropTransaction (h.fresh r pending)) := by
  refine ⟨?_, ?_, rfl, rfl, rfl, fun _ => rfl⟩
  · have kept : h.transactions.filter (·.number != h.nextNumber) = h.transactions := by
      rw [List.filter_eq_self]
      intro t member
      simpa using Nat.ne_of_lt (below t member)
    simp only [dropTransaction, openTransaction, List.filter_append, fresh, kept]
    simp
  · intro key
    simp only [dropTransaction, openTransaction, fresh, Sparse.get?_erase, Sparse.get?_set]
    split
    · rename_i here
      rw [← here]
      exact (Option.isSome_eq_false_iff.mp free |> Option.isNone_iff_eq_none.mp).symm
    · rfl

theorem routeRead_reads (f : Fabric) (below : ∀ t ∈ f.hub.transactions, t.number < f.hub.nextNumber)
    (r : DeferredRead) : f.hub.Reads r (f.routeRead r).hub := by
  unfold routeRead
  split
  · rename_i io
    have outside : f.hub.memory.contains r.addr = false := by
      cases inside : f.hub.memory.contains r.addr with
      | false => rfl
      | true => exact absurd io (by simp [Memory.isIo_of_contains inside])
    exact .absent outside (sending_still.complete _ _ _)
  · split
    · rename_i inside
      split
      · rename_i busy
        exact .waits inside busy (.refl _)
      · rename_i free
        rw [Bool.not_eq_true] at free
        let pending := (f.others r.cpu).length
        let opened : Fabric :=
          { f with hub := f.hub.openTransaction r.cpu r.id r.addr r.kind pending }
        have found : opened.hub.transaction? f.hub.nextNumber = some (f.hub.fresh r pending) :=
          found_fresh below r pending
        unfold openRead
        simp only
        split
        · exact .alone inside free ((still_dropped below free pending).trans (still_finish found))
        · exact .begins inside free pending (sending_still.sendProbes _ _ opened)
    · rename_i outside
      refine .absent (by simpa using outside) (Still.trans ?_ (sending_still.complete _ _ _))
      exact ⟨rfl, fun _ => rfl, rfl, rfl, rfl, fun _ => rfl⟩

theorem found_taken {h : Hub} {r : ProbeReply} {t : Transaction}
    (found : h.transaction? r.txn = some t) :
    (h.modifyTransaction r.txn fun _ => t.take r).transaction? r.txn = some (t.take r) := by
  change h.transactions.find? (·.number == r.txn) = some t at found
  have number : t.number = r.txn := by simpa using List.find?_some found
  have numbers : ((·.number == r.txn) ∘ fun u : Transaction => if u.number = r.txn then t.take r else u) =
      (·.number == r.txn) := by
    funext u
    simp only [Function.comp_apply]
    split
    · rename_i here
      rw [here]
      exact congrArg (· == r.txn) number
    · rfl
  simp only [transaction?, modifyTransaction, List.find?_map, numbers, found, Option.map_some, number,
    if_true]

theorem routeReply_hears (f : Fabric) (cpu : Nat) (r : ProbeReply) :
    f.hub.Hears r (f.routeReply cpu r).hub := by
  cases found : f.hub.transaction? r.txn with
  | none =>
    rw [Pass.routeReply_none f cpu found]
    exact .late ⟨rfl, fun _ => rfl, rfl, rfl, rfl, fun _ => rfl⟩
  | some t =>
    have isOpen : t ∈ f.hub.transactions := List.mem_of_find?_eq_some found
    have number : t.number = r.txn := by simpa using List.find?_some found
    obtain ⟨counters, shape, _, _, opened⟩ := Pass.routeReply_some f cpu found
    have freed : (Pass.freeVictim (Pass.tookReply f r t counters) cpu r.victim).hub =
        { f.hub.modifyTransaction r.txn (fun _ => t.take r) with counters } := by
      cases r.victim with
      | none => rfl
      | some slot => exact (deliver_frame _ cpu _).1
    rw [shape]
    split
    · have present : (Pass.freeVictim (Pass.tookReply f r t counters) cpu r.victim).hub.transaction?
          r.txn = some (t.take r) := by
        rw [freed]
        exact found_taken found
      have ended := still_finish present
      rw [freed] at ended
      refine .last t isOpen number ?_
      exact ⟨ended.transactions, ended.busy, ended.deferred, ended.next, ended.opened.trans opened,
        ended.backed⟩
    · rw [freed]
      exact .more t isOpen number ⟨rfl, fun _ => rfl, rfl, rfl, opened, fun _ => rfl⟩

theorem still_routeVictim (f : Fabric) (cpu : Nat) (slot : Slot) (a : Address) (data : Block) :
    Still f.hub (f.routeVictim cpu slot a data).hub := by
  unfold routeVictim
  simp only
  refine Still.trans ?_ (sending_still.complete _ _ _)
  split
  · rename_i memory outcome
    have kept (b : Address) := Memory.contains_writeBlock f.hub.memory a b data
    rw [outcome] at kept
    exact ⟨rfl, fun _ => rfl, rfl, rfl, rfl, kept⟩
  · exact ⟨rfl, fun _ => rfl, rfl, rfl, rfl, fun _ => rfl⟩

theorem still_routeIoWrite (f : Fabric) (cpu : Nat) (id : RequestId) (a : Address)
    (data : List UInt8) (written : UInt64) :
    Still f.hub (f.routeIoWrite cpu id a data written).hub := by
  refine Still.trans ?_ (sending_still.complete _ _ _)
  exact ⟨rfl, fun _ => rfl, rfl, rfl, rfl, fun _ => rfl⟩

theorem routeCounted_handles (f : Fabric)
    (below : ∀ t ∈ f.hub.transactions, t.number < f.hub.nextNumber) (cpu : Nat) (q : Request) :
    f.hub.Handles cpu q (f.routeCounted cpu q).hub := by
  let counted := f.count fun k => { k with requests := k.requests + 1 }
  have handled : counted.hub.Handles cpu q (counted.route cpu q).hub := by
    cases q with
    | read id a kind => exact routeRead_reads counted below ⟨cpu, id, a, kind⟩
    | reply r => exact counted.routeReply_hears cpu r
    | ioWrite id a data mask written => exact counted.still_routeIoWrite cpu id a data written
    | victim slot a data => exact counted.still_routeVictim cpu slot a data
    | barrier id => exact sending_still.complete counted cpu { target := .request id }
  exact Handles.uncounted (h := f.hub) counted.hub.counters rfl handled

end Fabric
end CacheCoherence
