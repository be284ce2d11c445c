import CacheCoherence.Controller.Snooping
import CacheCoherence.Proofs.Parcels
import Mathlib.Data.List.Basic

namespace CacheCoherence

theorem Slots.filterMap_at {α : Type} (slot : Slot) (x : Option α) :
    ((List.finRange 8).filterMap fun i => if i = slot then x else none) = x.toList := by
  cases x with
  | none => simp
  | some x => exact filterMap_single slot x

namespace WriteBuffer

variable {b : WriteBuffer}

theorem parcels_unsent (b : WriteBuffer) (slot : Slot) :
    parcels (.request (.ioWrite slot)) b.unsent =
      (((b.get? slot).filter IoWrite.mergeable).map (·.parcel slot)).toList := by
  rw [parcels, unsent, List.filterMap_filterMap, ← List.filterMap_eq_filter,
    List.filterMap_filterMap, ← Slots.filterMap_at slot]
  apply List.filterMap_congr
  intro i _
  cases kept : (b.get? i).filter IoWrite.mergeable with
  | none =>
    split
    · rename_i here
      rw [← here, kept]
      rfl
    · rfl
  | some w =>
    by_cases here : i = slot
    · subst here
      simp [kept, IoWrite.request, Request.parcel?, Parcel.target, IoWrite.parcel, Option.guard]
    · simp [here, IoWrite.request, Request.parcel?, Parcel.target, Option.guard]

theorem mem_unsent {q : Request} :
    q ∈ b.unsent ↔ ∃ w slot, b.get? slot = some w ∧ w.mergeable ∧ q = w.request slot := by
  simp only [unsent, List.mem_filterMap, List.mem_finRange, true_and, Option.map_eq_some_iff,
    Option.filter_eq_some_iff]
  constructor
  · rintro ⟨slot, w, ⟨present, isOpen⟩, rfl⟩
    exact ⟨w, slot, present, isOpen, rfl⟩
  · rintro ⟨w, slot, present, isOpen, rfl⟩
    exact ⟨slot, w, ⟨present, isOpen⟩, rfl⟩

theorem filter_unsent (b : WriteBuffer) : b.unsent.filter Request.isWrite = b.unsent := by
  rw [List.filter_eq_self]
  intro q member
  obtain ⟨w, slot, _, _, rfl⟩ := mem_unsent.mp member
  rfl

theorem get?_issue (b : WriteBuffer) (i : Slot) :
    b.issue.2.get? i =
      (b.get? i).map fun w => if w.mergeable then { w with issued := true } else w :=
  Slots.get?_map _ _ _

theorem advances_issue (b : WriteBuffer) : b.Advances b.issue.2 := by
  intro i w present
  rw [get?_issue, Option.map_eq_some_iff] at present
  obtain ⟨x, before, rfl⟩ := present
  refine ⟨x, before, ?_, ?_⟩
  · split
    · exact fun _ => ‹_›
    · exact id
  · split
    · rfl
    · rfl

theorem advances_complete (b : WriteBuffer) (slot : Slot) : b.Advances (b.complete slot).2 := by
  intro i w present
  simp only [complete] at present
  split at present
  · exact ⟨w, present, id, rfl⟩
  · rename_i x before
    split at present
    · exact ⟨w, present, id, rfl⟩
    · rw [get?, Slots.get?_put] at present
      split at present
      · rename_i here
        subst here
        cases present
        exact ⟨x, before, by simp [IoWrite.mergeable], rfl⟩
      · exact ⟨w, present, id, rfl⟩

theorem unsent_issue (b : WriteBuffer) : b.issue.2.unsent = [] := by
  rw [unsent, List.filterMap_eq_nil_iff]
  intro i _
  rw [get?_issue]
  cases present : b.get? i with
  | none => rfl
  | some w =>
    cases issued : w.issued <;> cases acknowledged : w.acknowledged <;>
      simp [Option.filter, IoWrite.mergeable, issued, acknowledged]

theorem load_issue (b : WriteBuffer) (i : Slot) :
    (b.issue.2.load i).toList = (b.load i).toList ++ parcels (.request (.ioWrite i)) b.unsent := by
  rw [parcels_unsent, load, load, get?_issue]
  cases present : b.get? i with
  | none => rfl
  | some w =>
    cases issued : w.issued <;> cases acknowledged : w.acknowledged <;>
      simp [Option.filter, IoWrite.mergeable, issued, acknowledged, IoWrite.parcel, IoWrite.payload]

end WriteBuffer

/-- Between `d` and `e` the answer `x` was taken: its parcel is struck off, its reference waits no
longer, and only victims went out. -/
structure Desk.Clears (d : Desk) (x : CompletionTarget) (e : Desk) (sent : List Request) : Prop where
  sends : ∀ q ∈ sent, ∃ (v : Victim) (slot : Slot), q = v.request slot
  entries : d.writes.Advances e.writes
  due : ∀ y, (e.due y).toList = (if y = x then [] else (d.due y).toList) ++ parcels y sent
  waits : ∀ i, e.waits i = (d.waits i && x != .request (.miss i))
  unsent : (∀ i, x = .request (.ioWrite i) → (d.writes.load i).isSome) →
    e.writes.unsent = d.writes.unsent

namespace Controller

variable {c d e : Controller}

theorem foldl_sendWrite_eq (slots : List Slot) (c : Controller) :
    slots.foldl sendWrite c =
      { c with
        outbound := c.outbound ++ slots.filterMap fun i => (c.writes.get? i).map (·.request i) } := by
  induction slots generalizing c with
  | nil => simp
  | cons slot rest ih =>
    rw [List.foldl_cons, ih]
    cases present : c.writes.get? slot with
    | none => simp [sendWrite, present]
    | some w => simp [sendWrite, present, send, IoWrite.request]

theorem flush_eq (c : Controller) :
    c.flush.2 =
      { c with writes := c.writes.issue.2, outbound := c.outbound ++ c.writes.unsent } := by
  have whole : c.flush.2 =
      c.writes.issue.1.foldl sendWrite { c with writes := c.writes.issue.2 } := rfl
  have sent : (c.writes.issue.1.filterMap fun i => (c.writes.issue.2.get? i).map (·.request i)) =
      c.writes.unsent := by
    simp only [WriteBuffer.issue, Slots.select, WriteBuffer.unsent, List.filterMap_filter]
    apply List.filterMap_congr
    intro i _
    have cell := WriteBuffer.get?_issue c.writes i
    simp only [WriteBuffer.issue] at cell
    rw [cell]
    change (if (c.writes.get? i).any IoWrite.mergeable = true then _ else _) = _
    cases present : c.writes.get? i with
    | none => rfl
    | some w =>
      cases isOpen : w.mergeable with
      | true => simp [isOpen, Option.filter, IoWrite.request, IoWrite.payload]
      | false => simp [isOpen, Option.filter]
  rw [whole, foldl_sendWrite_eq, sent]

theorem mails_flush (c : Controller) : Mails c c.flush.2 c.writes.unsent := by
  rw [flush_eq]
  refine ⟨rfl, ?_, ?_, ?_⟩
  · rintro ((slot | slot) | slot)
    · rw [parcels_miss]
      rfl
    · exact c.writes.load_issue slot
    · have silent : parcels (.victim slot) c.writes.unsent = [] := by
        refine parcels_eq_nil fun q member => ?_
        obtain ⟨w, i, _, _, rfl⟩ := WriteBuffer.mem_unsent.mp member
        rw [parcels_write, if_neg (by simp)]
      rw [silent, List.append_nil]
      rfl
  · change _ ++ c.writes.issue.2.unsent = _
    rw [WriteBuffer.unsent_issue, List.append_nil, WriteBuffer.filter_unsent]
  · exact c.writes.advances_issue

def Mailed (c d : Controller) : Prop := ∃ sent, Mails c d sent

theorem Mailed.of_eq (outbound : d.outbound = c.outbound) (writes : d.writes = c.writes)
    (victims : d.victims = c.victims) : Mailed c d := ⟨[], .of_eq outbound writes victims⟩

theorem Mailed.refl (c : Controller) : Mailed c c := .of_eq rfl rfl rfl

theorem Mailed.trans (first : Mailed c d) (rest : Mailed d e) : Mailed c e := by
  obtain ⟨sent, first⟩ := first
  obtain ⟨more, rest⟩ := rest
  exact ⟨sent ++ more, first.append rest⟩

theorem Shed.mailed (shed : Shed c d) : Mailed c d := by
  obtain ⟨sent, sheds⟩ := shed
  exact ⟨sent, sheds.mails⟩

theorem mails_send {q : Request} (bare : q.parcel? = none) (plain : q.isWrite = false) :
    Mails c (c.send q) [q] := by
  refine .of_plain rfl rfl (by simpa using plain) fun i => ?_
  simp [parcels, bare, send]

theorem mailed_noteFault {α : Type} {result : Except Fault α × Controller}
    (mailed : Mailed c result.2) : Mailed c (noteFault result).2 := by
  obtain ⟨outcome, d⟩ := result
  cases outcome with
  | ok x => exact mailed
  | error fault => exact mailed.trans (.of_eq rfl rfl rfl)

theorem mailed_request (c : Controller) (r : Reference) (kind : ReadKind) :
    Mailed c (c.request r kind).2 := by
  unfold request
  split
  · exact .of_eq rfl rfl rfl
  · split
    · exact .of_eq rfl rfl rfl
    · rename_i p misses _ _
      have noted : Mailed c { c with misses, counters := countAllocation c.counters } :=
        .of_eq rfl rfl rfl
      exact noted.trans ⟨_, mails_send rfl rfl⟩

theorem mailed_answerMiss (mailed : Mailed c d) (slot : Slot) (answer : Answer) :
    Mailed c (d.answerMiss slot answer).2 :=
  mailed.trans (.of_eq rfl rfl rfl)

theorem mailed_completeLocally (c : Controller) (r : Reference) (s : LineState) :
    Mailed c (c.completeLocally r s).2 := by
  unfold completeLocally
  split
  · exact .of_eq rfl rfl rfl
  · rename_i p misses _
    simp only
    generalize ({ countAllocation c.counters with localHits := c.counters.localHits + 1 } :
      Counters) = counters
    have noted : Mailed c { c with misses, counters } := .of_eq rfl rfl rfl
    have refilled := noted.trans (shed_refillPrimary { c with misses, counters } r.addr s).mailed
    split
    · rename_i shape
      rwa [shape] at refilled
    · rename_i f shape
      rw [shape] at refilled
      have answered := mailed_answerMiss refilled p.slot
        ⟨f.cache.read r.addr, s.shared, false⟩
      split
      · rename_i shape
        rwa [shape] at answered
      · rename_i shape
        rwa [shape] at answered

theorem mailed_barrier (c : Controller) (r : Reference) : Mailed c (c.barrier r).2 := by
  unfold barrier
  split
  · exact .of_eq rfl rfl rfl
  · rename_i p misses _
    have noted : Mailed c { c with misses, counters := countAllocation c.counters } :=
      .of_eq rfl rfl rfl
    exact (noted.trans ⟨_, mails_flush _⟩).trans ⟨_, mails_send rfl rfl⟩

theorem mailed_purge (c : Controller) (r : Reference) (s : LineState) :
    Mailed c (c.purge r s).2 := by
  unfold purge
  split
  · exact .refl c
  · split
    · exact .of_eq rfl rfl rfl
    · rename_i p misses _
      have noted : Mailed c { c with misses, counters := countAllocation c.counters } :=
        .of_eq rfl rfl rfl
      have gone := noted.trans (shed_expel _ r.addr s).mailed
      split
      · rename_i shape
        rwa [shape] at gone
      · rename_i f shape
        rw [shape] at gone
        have answered := mailed_answerMiss gone p.slot ⟨none, false, false⟩
        split
        · rename_i shape
          rwa [shape] at answered
        · rename_i shape
          rwa [shape] at answered

theorem mailed_dispatch (c : Controller) (r : Reference) (s : LineState) :
    Mailed c (c.dispatch r s).2 := by
  have write (held missed : Access) : Mailed c (if s.writable then c.completeLocally r s
      else if s.valid then c.request { r with access := held } .upgrade
      else c.request { r with access := missed } .modify).2 := by
    split
    · exact mailed_completeLocally c r s
    · split
      · exact mailed_request c _ _
      · exact mailed_request c _ _
  have share : Mailed c (if s.valid then c.completeLocally r s else c.request r .share).2 := by
    split
    · exact mailed_completeLocally c r s
    · exact mailed_request c _ _
  unfold dispatch
  split
  · exact mailed_barrier c r
  · exact mailed_purge c r s
  · exact share
  · exact share
  · split
    · exact mailed_completeLocally c r s
    · exact mailed_request c _ _
  · exact write _ _
  · exact write _ _
  · exact write _ _
  · exact write _ _

theorem mailed_issue (c : Controller) (r : Reference) : Mailed c (c.issue r).2 := by
  unfold issue
  split
  · exact .refl c
  · split
    · split
      · exact mailed_dispatch c r _
      · exact .refl c
    · exact mailed_dispatch c r _

theorem mailed_store (c : Controller) (a : Address) (bytes : List UInt8) :
    Mailed c (c.store a bytes).2 := by
  unfold store
  split
  · split
    · split
      · exact .of_eq rfl rfl rfl
      · exact .of_eq rfl rfl rfl
    · exact .refl c
  · exact .refl c

theorem mailed_perform (c : Controller) {op : Operation} (other : ∀ s, op ≠ .storeIo s) :
    Mailed c (c.perform op) := by
  cases op with
  | issue r => exact mailed_noteFault (mailed_issue c r)
  | consume slot => exact .of_eq rfl rfl rfl
  | store a bytes => exact mailed_store c a bytes
  | storeIo s => exact absurd rfl (other s)
  | flush => exact ⟨_, mails_flush c⟩
  | retire a data => exact (shed_retireVictim c a data).mailed

theorem WriteBuffer.load_put_open {b : WriteBuffer} {slot : Slot} {w : IoWrite}
    (idle : b.load slot = none) (fresh : w.mergeable) (i : Slot) :
    (WriteBuffer.mk (b.slots.put slot w)).load i = b.load i := by
  have cell := Slots.get?_put b.slots slot i w
  by_cases here : slot = i
  · subst here
    rw [if_pos rfl] at cell
    simp only [IoWrite.mergeable, Bool.and_eq_true, Bool.not_eq_true'] at fresh
    rw [idle, WriteBuffer.load, WriteBuffer.get?, cell]
    simp [Option.filter, fresh.2]
  · rw [if_neg here] at cell
    rw [WriteBuffer.load, WriteBuffer.load, WriteBuffer.get?, cell]
    rfl

theorem load_allocate (b : WriteBuffer) (s : IoStore) (i : Slot) :
    (b.allocate s).2.load i = b.load i := by
  unfold WriteBuffer.allocate
  split
  · rfl
  · split
    · rename_i slot w target
      obtain ⟨present, accepts⟩ := Slots.find?_some target
      simp only [IoWrite.accepts, Bool.and_eq_true] at accepts
      have isOpen : w.mergeable := accepts.1.1.1
      refine WriteBuffer.load_put_open (w := w.join s) ?_ isOpen i
      simp only [IoWrite.mergeable, Bool.and_eq_true, Bool.not_eq_true'] at isOpen
      rw [WriteBuffer.load, WriteBuffer.get?, present]
      simp [Option.filter, isOpen.2]
    · split
      · rfl
      · rename_i slot target
        refine WriteBuffer.load_put_open ?_ rfl i
        have vacant := Slots.first?_some target
        rw [WriteBuffer.load, WriteBuffer.get?]
        cases present : b.slots.get? slot with
        | none => rfl
        | some w =>
          have done : w.acknowledged := by simpa [present] using vacant
          simp [Option.filter, done]

theorem storeIo_desk (c : Controller) (s : IoStore) :
    (c.storeIo s).2.desk = { c.desk with writes := (c.writes.allocate s).2 } ∧
      (c.storeIo s).2.outbound = c.outbound := by
  unfold storeIo
  split
  · rename_i shape
    rw [shape]
    exact ⟨rfl, rfl⟩
  · rename_i shape
    rw [shape]
    exact ⟨rfl, rfl⟩

theorem due_perform (c : Controller) (op : Operation) :
    ∃ sent, (c.perform op).outbound = c.outbound ++ sent ∧
      ∀ x, ((c.perform op).desk.due x).toList = (c.desk.due x).toList ++ parcels x sent := by
  by_cases stored : ∃ s, op = .storeIo s
  · obtain ⟨s, rfl⟩ := stored
    obtain ⟨desk, outbound⟩ := storeIo_desk c s
    refine ⟨[], outbound.trans (List.append_nil _).symm, fun x => ?_⟩
    rw [parcels_nil, List.append_nil]
    change ((c.storeIo s).2.desk.due x).toList = _
    rw [desk]
    rcases x with (slot | slot) | slot
    · rfl
    · simp only [Desk.due, load_allocate]
      rfl
    · rfl
  · obtain ⟨sent, mails⟩ := mailed_perform c fun s same => stored ⟨s, same⟩
    exact ⟨sent, mails.outbound, mails.due⟩

theorem Good.performs (good : c.Good) (op : Operation) :
    ∃ sent, Performed c op (c.perform op) sent ∧ (c.perform op).outbound = c.outbound ++ sent ∧
      ∀ x, ((c.perform op).desk.due x).toList = (c.desk.due x).toList ++ parcels x sent := by
  obtain ⟨sent, performed, outbound⟩ := good.perform op
  obtain ⟨told, same, due⟩ := due_perform c op
  obtain rfl : sent = told := List.append_cancel_left (outbound.symm.trans same)
  exact ⟨sent, performed, outbound, due⟩

theorem concludeProbe_sends (c : Controller) (p : Probe) (s : LineState) (data : Option Block)
    (victim : Option Slot) :
    ∃ r d, c.concludeProbe p s data victim = (.ok r, d) ∧ r.txn = p.txn ∧
      r.addr = p.addr.block ∧ r.data = data ∧ r.victim = victim ∧
      d.outbound = c.outbound ++ [.reply r] ∧ d.desk = c.desk := by
  refine ⟨_, _, rfl, rfl, rfl, rfl, rfl, ?_, ?_⟩
  · simp only [send]
    split
    · split
      · rfl
      · rw [applyState_frame]
    · rfl
  · simp only [desk, send]
    split
    · split
      · rfl
      · rw [applyState_frame]
    · rfl

theorem parcels_reply (x : CompletionTarget) (r : ProbeReply) :
    parcels x [.reply r] =
      ((r.victim.map (Parcel.block · r.addr r.data)).filter (·.target == x)).toList := by
  cases carried : r.victim with
  | none => simp [parcels, Request.parcel?, carried]
  | some slot =>
    simp only [parcels, Request.parcel?, carried, Option.map_some, List.filterMap_cons,
      List.filterMap_nil, Option.filter]
    split <;> simp_all

structure Replies (c : Controller) (p : Probe) (r : ProbeReply) (d : Controller) : Prop where
  txn : r.txn = p.txn
  misses : d.misses = c.misses
  writes : d.writes = c.writes
  mails : Mails c d [.reply r]

theorem replies_bare {p : Probe} {r : ProbeReply} (txn : r.txn = p.txn) (bare : r.victim = none)
    (outbound : d.outbound = c.outbound ++ [.reply r]) (desk : d.desk = c.desk) :
    Replies c p r d := by
  have misses := congrArg Desk.misses desk
  have writes := congrArg Desk.writes desk
  have victims := congrArg Desk.victims desk
  refine ⟨txn, misses, writes, .of_plain outbound writes (by simp [Request.isWrite]) fun i => ?_⟩
  rw [parcels_reply, bare]
  simp only [Controller.desk] at victims
  rw [victims]
  simp

/-- Dirty data that leaves for a probe is kept in a slot of its own until the reply is taken. -/
theorem Good.answerProbe_replies (good : c.Good) (p : Probe) (s : LineState) :
    (∃ r d, c.answerProbe p s = (.ok r, d) ∧ Replies c p r d) ∨
      ∃ fault d, c.answerProbe p s = (.error fault, d) ∧ fault.isBackpressure ∧
        d.desk = c.desk ∧ d.outbound = c.outbound ∧ c.victims.hasRoom = false := by
  have bare (data : Option Block) : ∃ r d, c.concludeProbe p s data none = (.ok r, d) ∧
      Replies c p r d := by
    obtain ⟨r, d, shape, txn, _, _, victim, outbound, desk⟩ := concludeProbe_sends c p s data none
    exact ⟨r, d, shape, replies_bare txn victim outbound desk⟩
  unfold answerProbe
  split
  · exact .inl (bare none)
  · rename_i data _
    split
    · rcases VictimBuffer.allocate_cases c.victims p.addr.block data .probe with
        ⟨full, refused⟩ | ⟨_, slot, idle, taken⟩
      · right
        rw [refused]
        exact ⟨_, _, rfl, rfl, rfl, rfl, full⟩
      · left
        rw [taken]
        simp only
        generalize stored : VictimBuffer.mk (c.victims.slots.put slot
          { addr := p.addr.block.block, data, destination := .probe }) = b
        have cell (i : Slot) : b.get? i = if slot = i then
            some { addr := p.addr.block.block, data, destination := .probe }
            else c.victims.get? i := by
          rw [← stored]
          exact VictimBuffer.get?_put c.victims.slots slot i _
        obtain ⟨r, d, shape, txn, addr, carried, victim, outbound, desk⟩ := concludeProbe_sends
          { c with victims := (b.startTransfers .probe).2, counters := countVictim c.counters .probe }
          p s (some data) (some slot)
        have misses := congrArg Desk.misses desk
        have writes := congrArg Desk.writes desk
        have victims := congrArg Desk.victims desk
        simp only [Controller.desk] at misses writes victims
        refine ⟨r, d, shape, txn, misses, writes,
          .of_plain outbound writes (by simp [Request.isWrite]) ?_⟩
        intro i
        have after := VictimBuffer.get?_startTransfers b .probe i
        rw [victims, parcels_reply, victim, addr, carried]
        by_cases here : slot = i
        · subst here
          rw [cell, if_pos rfl] at after
          rw [VictimBuffer.load_of_not_draining idle, VictimBuffer.load, after]
          simp [Option.filter, Victim.waitsFor, Victim.parcel, Parcel.target]
        · rw [cell, if_neg here] at after
          have same : (b.startTransfers .probe).2.get? i = c.victims.get? i := by
            rw [after]
            cases present : c.victims.get? i with
            | none => rfl
            | some v => simp [good.settled.not_waits present]
          rw [VictimBuffer.load_congr same]
          simp [Option.filter, Parcel.target, here]
    · exact .inl (bare (some data))

theorem Good.handleProbe_replies (good : c.Good) (p : Probe) :
    (∃ r d, c.handleProbe p = (.ok r, d) ∧ Replies c p r d) ∨
      ∃ fault d, c.handleProbe p = (.error fault, d) ∧ fault.isBackpressure ∧
        d.desk = c.desk ∧ d.outbound = c.outbound ∧ c.victims.hasRoom = false := by
  unfold handleProbe
  split
  · exact .inl ⟨_, _, rfl, replies_bare rfl rfl rfl rfl⟩
  · simp only
    split
    · split
      · exact .inl ⟨_, _, rfl, replies_bare rfl rfl rfl rfl⟩
      · exact good.answerProbe_replies p _
    · exact good.answerProbe_replies p _

theorem load_completeVictim (c : Controller) (slot i : Slot) :
    (c.completeVictim slot).2.victims.load i = if slot = i then none else c.victims.load i := by
  have finished := VictimBuffer.get?_finish c.victims slot i
  unfold completeVictim
  split
  · rename_i fault victims shape
    unfold VictimBuffer.finish at shape
    split at shape
    · rename_i vacant
      cases shape
      split
      · rename_i here
        rw [← here, VictimBuffer.load, vacant]
        rfl
      · rfl
    · cases shape
  · rename_i victims shape
    rw [shape] at finished
    simp only
    unfold VictimBuffer.release
    split
    · rename_i vacant
      split
      · rename_i here
        rw [← here, VictimBuffer.load, vacant]
        rfl
      · rename_i apart
        rw [if_neg apart] at finished
        exact VictimBuffer.load_congr finished
    · have cell := Slots.get?_clear victims.slots slot i
      change (VictimBuffer.mk (victims.slots.clear slot)).get? i = _ at cell
      split
      · rename_i here
        rw [if_pos here] at cell
        rw [VictimBuffer.load, cell]
        rfl
      · rename_i apart
        rw [if_neg apart] at cell finished
        exact VictimBuffer.load_congr (cell.trans finished)

theorem load_complete (b : WriteBuffer) (slot i : Slot) :
    (b.complete slot).2.load i = if slot = i then none else b.load i := by
  unfold WriteBuffer.complete
  split
  · rename_i vacant
    split
    · rename_i here
      rw [← here, WriteBuffer.load, vacant]
      rfl
    · rfl
  · rename_i w present
    split
    · rename_i done
      split
      · rename_i here
        rw [← here, WriteBuffer.load, present]
        simp [Option.filter, done]
      · rfl
    · have cell := Slots.get?_put b.slots slot i { w with acknowledged := true }
      split
      · rename_i here
        rw [if_pos here] at cell
        rw [WriteBuffer.load, WriteBuffer.get?, cell]
        simp [Option.filter]
      · rename_i apart
        rw [if_neg apart] at cell
        rw [WriteBuffer.load, WriteBuffer.get?, cell]
        rfl

theorem unsent_complete (b : WriteBuffer) {slot : Slot} (sent : (b.load slot).isSome) :
    (b.complete slot).2.unsent = b.unsent := by
  obtain ⟨w, present, issued⟩ : ∃ w, b.get? slot = some w ∧ w.issued := by
    simp only [WriteBuffer.load, Option.isSome_map, Option.isSome_filter, Option.any_eq_true,
      Bool.and_eq_true] at sent
    obtain ⟨w, present, issued, _⟩ := sent
    exact ⟨w, present, issued⟩
  have cell (i : Slot) : ((b.complete slot).2.get? i).filter IoWrite.mergeable =
      (b.get? i).filter IoWrite.mergeable := by
    simp only [WriteBuffer.complete, present]
    split
    · rfl
    · have put := Slots.get?_put b.slots slot i { w with acknowledged := true }
      change ((b.slots.put slot { w with acknowledged := true }).get? i).filter _ = _
      rw [put]
      split
      · rename_i here
        rw [← here, present]
        simp [Option.filter, IoWrite.mergeable, issued]
      · rfl
  simp only [WriteBuffer.unsent, cell]

/-- An answer to a reference sheds victims, and then is recorded at most. -/
theorem shed_completeMiss (c : Controller) (slot : Slot) (m : Completion) :
    ∃ d, Shed c d ∧ ((c.completeMiss slot m).2 = d ∨
      ∃ answer, (c.completeMiss slot m).2 = (d.answerMiss slot answer).2) := by
  unfold completeMiss
  split
  · exact ⟨c, .refl c, .inl rfl⟩
  · rename_i miss _
    simp only
    split
    · exact ⟨c, .refl c, .inr ⟨_, rfl⟩⟩
    · split
      · refine ⟨c.takeOwnership miss.request.addr, ?_, .inr ⟨_, rfl⟩⟩
        unfold takeOwnership
        split
        · exact .of_eq rfl rfl rfl rfl
        · exact .of_eq rfl rfl rfl rfl
      · have filled := shed_installFill c miss.request.addr m.data
          (fillState miss.request.access.needsOwnership
            (m.shared && !miss.request.access.needsOwnership))
        split
        · rename_i d shape
          rw [shape] at filled
          exact ⟨d, filled, .inl rfl⟩
        · rename_i d shape
          rw [shape] at filled
          exact ⟨d, filled, .inr ⟨_, rfl⟩⟩

/-- No other reference is answered, and one that does not wait stays as it is. -/
theorem Good.waits_completeMiss (good : c.Good) (slot : Slot) (m : Completion) (i : Slot) :
    (c.completeMiss slot m).2.desk.waits i = (c.desk.waits i && slot != i) := by
  by_cases waiting : c.desk.waits slot
  · obtain ⟨miss, occupied, waits⟩ : ∃ miss, c.misses.get? slot = some miss ∧ miss.answer = none := by
      simpa [Desk.waits, desk, Option.any_eq_true] using waiting
    obtain ⟨answer, _, misses, _⟩ := good.completeMiss occupied waits m
    simp only [Desk.waits, desk, misses, MissFile.get?_put]
    by_cases here : slot = i
    · simp [here]
    · simp [here]
  · obtain ⟨d, ⟨_, shed⟩, shape⟩ := shed_completeMiss c slot m
    have same : (c.completeMiss slot m).2.misses = c.misses := by
      rcases shape with plain | ⟨answer, recorded⟩
      · rw [plain, shed.misses]
      · rw [recorded, ← shed.misses]
        simp only [Controller.answerMiss, MissFile.complete]
        cases occupied : d.misses.get? slot with
        | none => rfl
        | some miss =>
          have answered : miss.answer.isSome := by
            rw [shed.misses] at occupied
            simpa [Desk.waits, desk, occupied, Option.isSome_iff_ne_none] using waiting
          simp [answered]
    simp only [Desk.waits, desk, same]
    by_cases here : slot = i
    · subst here
      simpa [Desk.waits, desk] using waiting
    · simp [here]

theorem completeVictim_frame (c : Controller) (slot : Slot) :
    ∃ victims, (c.completeVictim slot).2 = { c with victims } := by
  unfold Controller.completeVictim
  split
  · exact ⟨_, rfl⟩
  · exact ⟨_, rfl⟩

theorem clears_completeVictim (c : Controller) (slot : Slot) :
    (c.completeVictim slot).2.outbound = c.outbound ∧
      c.desk.Clears (.victim slot) (c.completeVictim slot).2.desk [] := by
  obtain ⟨victims, frame⟩ := completeVictim_frame c slot
  have loads := load_completeVictim c slot
  rw [frame] at loads ⊢
  refine ⟨rfl, by simp, .refl c.writes, ?_, ?_, ?_⟩
  · rintro ((i | i) | i)
    · rfl
    · simp [Desk.due, desk]
    · rw [parcels_nil, List.append_nil]
      simp only [Desk.due, desk, loads]
      by_cases here : slot = i
      · simp [here]
      · simp [here, Ne.symm here]
  · intro i
    simp [Desk.waits, desk]
  · exact fun _ => rfl

theorem clears_completeWrite (c : Controller) (slot : Slot) :
    c.desk.Clears (.request (.ioWrite slot))
      (desk { c with writes := (c.writes.complete slot).2 }) [] := by
  refine ⟨by simp, c.writes.advances_complete slot, ?_, ?_, ?_⟩
  · rintro ((i | i) | i)
    · rfl
    · rw [parcels_nil, List.append_nil]
      simp only [Desk.due, desk, load_complete]
      by_cases here : slot = i
      · simp [here]
      · simp [here, Ne.symm here]
    · simp [Desk.due, desk]
  · intro i
    simp [Desk.waits, desk]
  · exact fun sent => unsent_complete c.writes (sent slot rfl)

theorem Good.clears_completeMiss (good : c.Good) (slot : Slot) (m : Completion) :
    ∃ sent, (c.completeMiss slot m).2.outbound = c.outbound ++ sent ∧
      c.desk.Clears (.request (.miss slot)) (c.completeMiss slot m).2.desk sent := by
  obtain ⟨d, ⟨sent, shed⟩, shape⟩ := shed_completeMiss c slot m
  have same : (c.completeMiss slot m).2.outbound = d.outbound ∧
      (c.completeMiss slot m).2.victims = d.victims ∧
      (c.completeMiss slot m).2.writes = d.writes := by
    rcases shape with plain | ⟨answer, recorded⟩
    · rw [plain]
      exact ⟨rfl, rfl, rfl⟩
    · rw [recorded]
      exact ⟨rfl, rfl, rfl⟩
  have mails : Mails c (c.completeMiss slot m).2 sent := by
    simpa using shed.mails.append (.of_eq same.1 same.2.2 same.2.1)
  refine ⟨sent, mails.outbound, shed.sends, mails.entries, ?_, ?_, ?_⟩
  · intro x
    rw [mails.due]
    split
    · rename_i here
      rw [here]
      rfl
    · rfl
  · intro i
    rw [good.waits_completeMiss]
    by_cases here : slot = i
    · simp [here]
    · have other : (slot != i) = true := by simpa using here
      have aside : (CompletionTarget.request (.miss slot) != .request (.miss i)) = true := by
        simpa using here
      rw [other, aside]
  · intro _
    change (c.completeMiss slot m).2.writes.unsent = _
    rw [same.2.2, shed.writes]
    rfl

/-- An answer of the hub acknowledges one entry of the write buffer, or leaves the buffer alone. -/
theorem advances_writes_complete (c : Controller) (m : Completion) :
    c.writes.Advances (c.complete m).2.writes := by
  let counted : Controller := { c with counters.completions := c.counters.completions + 1 }
  unfold Controller.complete
  cases m.target with
  | victim slot =>
    obtain ⟨victims, frame⟩ := completeVictim_frame counted slot
    rw [show (counted.completeVictim slot).2 = _ from frame]
    exact .refl c.writes
  | request id =>
    cases id with
    | miss slot =>
      obtain ⟨d, ⟨_, shed⟩, plain | ⟨answer, recorded⟩⟩ := shed_completeMiss counted slot m
      · rw [show (counted.completeMiss slot m).2 = d from plain, shed.writes]
        exact .refl c.writes
      · rw [show (counted.completeMiss slot m).2 = _ from recorded]
        change c.writes.Advances d.writes
        rw [shed.writes]
        exact .refl c.writes
    | ioWrite slot => exact c.writes.advances_complete slot

theorem Good.clears (good : c.Good) (m : Completion) :
    ∃ sent, (c.complete m).2.outbound = c.outbound ++ sent ∧
      c.desk.Clears m.target (c.complete m).2.desk sent := by
  have counted : Controller.Good { c with counters.completions := c.counters.completions + 1 } :=
    good.of_eq rfl rfl rfl
  unfold Controller.complete
  cases target : m.target with
  | victim slot =>
    obtain ⟨outbound, clears⟩ := clears_completeVictim
      { c with counters.completions := c.counters.completions + 1 } slot
    exact ⟨[], outbound.trans (List.append_nil _).symm, clears⟩
  | request id =>
    cases id with
    | miss slot => exact counted.clears_completeMiss slot m
    | ioWrite slot =>
      exact ⟨[], (List.append_nil _).symm, clears_completeWrite
        { c with counters.completions := c.counters.completions + 1 } slot⟩

end Controller
end CacheCoherence
