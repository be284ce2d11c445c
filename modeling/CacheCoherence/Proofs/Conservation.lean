import CacheCoherence.Proofs.Traffic
import Mathlib.Data.Finset.Card

namespace CacheCoherence

def Request.answers : Request → Option Nat
  | .reply r => some r.txn
  | .read .. | .ioWrite .. | .victim .. | .barrier _ => none

theorem answers_bare {sent : List Request} (bare : ∀ r, Request.reply r ∉ sent) :
    sent.filterMap Request.answers = [] := by
  rw [List.filterMap_eq_nil_iff]
  intro q member
  cases q with
  | reply r => exact absurd member (bare r)
  | read | ioWrite | victim | barrier => rfl

namespace Traffic

variable {lay : Layout} {v w : Traffic} {k : Nat} {d : Desk} {sent later : List Request}
  {t : Transaction}

def items (v : Traffic) (k : Nat) : List Nat :=
  (v.coming k).map (·.txn) ++ (v.queue k).filterMap Request.answers

def holders (v : Traffic) (lay : Layout) (n : Nat) : Finset Nat :=
  {k ∈ Finset.range lay.cpus | n ∈ v.items k}

theorem mem_holders (v : Traffic) (lay : Layout) (n k : Nat) :
    k ∈ v.holders lay n ↔ k < lay.cpus ∧ n ∈ v.items k := by
  simp [holders]

structure Balanced (lay : Layout) (v : Traffic) : Prop where
  once : ∀ k, (v.items k).Nodup
  live : ∀ k, ∀ n ∈ v.items k, k < lay.cpus ∧ ∃ t ∈ v.txns, t.number = n ∧ t.origin ≠ k
  pending : ∀ t ∈ v.txns, t.pending = (v.holders lay t.number).card
  total : v.probesSent = v.repliesTaken + (v.txns.map (·.pending)).sum

/-- No transaction stays open when its last reply was taken. -/
structure Conserved (lay : Layout) (v : Traffic) : Prop extends Balanced lay v where
  awaited : ∀ t ∈ v.txns, t.pending ≠ 0

theorem Balanced.of_perm (balanced : v.Balanced lay) (items : ∀ k, (w.items k).Perm (v.items k))
    (txns : w.txns = v.txns) (probesSent : w.probesSent = v.probesSent)
    (repliesTaken : w.repliesTaken = v.repliesTaken) : w.Balanced lay := by
  constructor
  · exact fun k => (items k).nodup_iff.mpr (balanced.once k)
  · intro k n member
    rw [txns]
    exact balanced.live k n ((items k).mem_iff.mp member)
  · intro t member
    rw [txns] at member
    have same : w.holders lay t.number = v.holders lay t.number := by
      ext k
      rw [mem_holders, mem_holders, (items k).mem_iff]
    rw [same]
    exact balanced.pending t member
  · rw [txns, probesSent, repliesTaken]
    exact balanced.total

theorem Conserved.of_perm (conserved : v.Conserved lay) (items : ∀ k, (w.items k).Perm (v.items k))
    (txns : w.txns = v.txns) (probesSent : w.probesSent = v.probesSent)
    (repliesTaken : w.repliesTaken = v.repliesTaken) : w.Conserved lay := by
  refine ⟨conserved.toBalanced.of_perm items txns probesSent repliesTaken, ?_⟩
  rw [txns]
  exact conserved.awaited

theorem items_work (v : Traffic) (k : Nat) (d : Desk) {sent : List Request}
    (bare : ∀ r, Request.reply r ∉ sent) (j : Nat) : (v.work k d sent).items j = v.items j := by
  simp only [items, coming_work, queue_work]
  split
  · rw [List.filterMap_append, answers_bare bare, List.append_nil]
  · rfl

theorem items_rest {q : Request} (head : v.queue k = q :: later) (other : q.answers = none) (j : Nat) :
    (v.rest k later).items j = v.items j := by
  simp only [items, coming_rest, queue_rest]
  split
  · rename_i here
    rw [here, head, List.filterMap_cons_none other]
  · rfl

theorem Balanced.fresh (balanced : v.Balanced lay) (lawful : v.Lawful lay) (j : Nat) :
    v.next ∉ v.items j := by
  intro member
  obtain ⟨_, t, isOpen, number, _⟩ := balanced.live j _ member
  have below := lawful.below t isOpen
  omega

theorem Balanced.begun (balanced : v.Balanced lay) (lawful : v.Lawful lay) (r : DeferredRead)
    (deferred : List DeferredRead) : (v.begun lay r deferred).Balanced lay := by
  have items (j : Nat) : ((v.begun lay r deferred).items j).Perm
      (if j ∈ lay.others r.cpu then v.next :: v.items j else v.items j) := by
    simp only [Traffic.items, coming_begun, queue_begun]
    split
    · rw [List.map_append, List.append_assoc]
      exact List.perm_middle
    · exact .refl _
  have fresh := balanced.fresh lawful
  have mem_items (j n : Nat) : n ∈ (v.begun lay r deferred).items j ↔
      n ∈ v.items j ∨ j ∈ lay.others r.cpu ∧ n = v.next := by
    rw [(items j).mem_iff]
    split
    · rename_i probed
      simp [probed, or_comm]
    · rename_i aside
      simp [aside]
  constructor
  · intro j
    rw [(items j).nodup_iff]
    split
    · exact List.nodup_cons.mpr ⟨fresh j, balanced.once j⟩
    · exact balanced.once j
  · intro j n member
    rw [txns_begun]
    rcases (mem_items j n).mp member with old | ⟨probed, rfl⟩
    · obtain ⟨inside, t, isOpen, named⟩ := balanced.live j n old
      exact ⟨inside, t, List.mem_append_left _ isOpen, named⟩
    · obtain ⟨inside, apart⟩ := (lay.mem_others r.cpu j).mp probed
      exact ⟨inside, v.opened lay r, by simp, rfl, Ne.symm apart⟩
  · intro t member
    rw [txns_begun, List.mem_append, List.mem_singleton] at member
    rcases member with old | rfl
    · have apart : t.number ≠ v.next := Nat.ne_of_lt (lawful.below t old)
      have same : (v.begun lay r deferred).holders lay t.number = v.holders lay t.number := by
        ext j
        rw [mem_holders, mem_holders, mem_items]
        simp [apart]
      rw [same]
      exact balanced.pending t old
    · have probed : (v.begun lay r deferred).holders lay v.next = (lay.others r.cpu).toFinset := by
        ext j
        rw [mem_holders, mem_items, List.mem_toFinset, lay.mem_others]
        simp only [fresh j, false_or, and_true]
        tauto
      change (lay.others r.cpu).length = ((v.begun lay r deferred).holders lay v.next).card
      rw [probed, List.toFinset_card_of_nodup (lay.others_nodup r.cpu)]
  · rw [probesSent_begun, repliesTaken_begun, txns_begun, List.map_append, List.sum_append,
      balanced.total]
    simp only [opened, List.map_cons, List.map_nil, List.sum_singleton]
    omega

theorem items_taken {r : ProbeReply} (head : v.queue k = .reply r :: later) :
    (v.items k).Perm (r.txn :: ((v.rest k later).replied k r t d).items k) := by
  simp only [items, coming_replied, queue_replied, coming_rest, queue_rest, if_true, head]
  exact List.perm_middle

theorem items_taken_other {r : ProbeReply} {j : Nat} (apart : j ≠ k) :
    ((v.rest k later).replied k r t d).items j = v.items j := by
  simp only [items, coming_replied, queue_replied, coming_rest, queue_rest, if_neg apart]

theorem Balanced.once_taken (balanced : v.Balanced lay) {r : ProbeReply}
    (head : v.queue k = .reply r :: later) :
    r.txn ∉ ((v.rest k later).replied k r t d).items k ∧
      (((v.rest k later).replied k r t d).items k).Nodup :=
  List.nodup_cons.mp ((items_taken head).nodup_iff.mp (balanced.once k))

theorem Balanced.mem_items_taken (balanced : v.Balanced lay) {r : ProbeReply}
    (head : v.queue k = .reply r :: later) (j n : Nat) :
    n ∈ ((v.rest k later).replied k r t d).items j ↔ n ∈ v.items j ∧ ¬ (j = k ∧ n = r.txn) := by
  by_cases here : j = k
  · subst here
    rw [(items_taken head).mem_iff, List.mem_cons]
    constructor
    · intro member
      refine ⟨.inr member, fun same => ?_⟩
      rw [same.2] at member
      exact (balanced.once_taken head).1 member
    · rintro ⟨rfl | member, apart⟩
      · exact absurd ⟨rfl, rfl⟩ apart
      · exact member
  · simp [items_taken_other here, here]

/-- Only the CPU of the reply ceases to hold an item, and only for the transaction that took it. -/
theorem Balanced.holders_taken (balanced : v.Balanced lay) {r : ProbeReply}
    (head : v.queue k = .reply r :: later) (n : Nat) :
    ((v.rest k later).replied k r t d).holders lay n =
      if n = r.txn then (v.holders lay n).erase k else v.holders lay n := by
  ext j
  split
  · rename_i here
    simp only [mem_holders, Finset.mem_erase, balanced.mem_items_taken head, here]
    tauto
  · rename_i apart
    simp [mem_holders, balanced.mem_items_taken head, apart]

/-- A reply that is taken is an item less, and the transaction counts one less. -/
theorem Balanced.replied (balanced : v.Balanced lay) (lawful : v.Lawful lay) {r : ProbeReply}
    (head : v.queue k = .reply r :: later) (isOpen : t ∈ v.txns) (number : t.number = r.txn) :
    ((v.rest k later).replied k r t d).Balanced lay := by
  have held : k ∈ v.holders lay t.number := by
    have member : r.txn ∈ v.items k := (items_taken (t := t) (d := d) head).mem_iff.mpr
      List.mem_cons_self
    rw [mem_holders, number]
    exact ⟨(balanced.live k _ member).1, member⟩
  have txns : ((v.rest k later).replied k r t d).txns.Perm
      (t.take r :: v.txns.filter (·.number != t.number)) :=
    (lawful.rest head).replied_perm isOpen number
  constructor
  · intro j
    by_cases here : j = k
    · subst here
      exact (balanced.once_taken head).2
    · rw [items_taken_other here]
      exact balanced.once j
  · intro j n member
    obtain ⟨inside, u, present, named, apart⟩ :=
      balanced.live j n ((balanced.mem_items_taken head j n).mp member).1
    refine ⟨inside, if u.number = r.txn then t.take r else u, List.mem_map_of_mem present, ?_⟩
    split
    · rename_i same
      cases txn_unique lawful.numbers present isOpen (same.trans number.symm)
      exact ⟨named, apart⟩
    · exact ⟨named, apart⟩
  · intro u member
    rw [balanced.holders_taken head]
    rcases List.mem_cons.mp (txns.mem_iff.mp member) with rfl | old
    · change t.pending - 1 = _
      rw [if_pos (show (t.take r).number = r.txn from number)]
      change _ = ((v.holders lay t.number).erase k).card
      rw [Finset.card_erase_of_mem held, balanced.pending t isOpen]
    · obtain ⟨present, apart⟩ := List.mem_filter.mp old
      rw [bne_iff_ne, number] at apart
      rw [if_neg apart]
      exact balanced.pending u present
  · have one_out : t.pending ≠ 0 := by
      rw [balanced.pending t isOpen]
      exact Finset.card_ne_zero_of_mem held
    have before := ((txns_perm lawful.numbers isOpen).map (·.pending)).sum_nat
    have after := (txns.map (·.pending)).sum_nat
    have fewer : (t.take r).pending = t.pending - 1 := rfl
    rw [List.map_cons, List.sum_cons] at before after
    rw [probesSent_replied, repliesTaken_replied, probesSent_rest, repliesTaken_rest, after, fewer,
      balanced.total, before]
    omega

theorem Balanced.closed (balanced : v.Balanced lay) (lawful : v.Lawful lay) (isOpen : t ∈ v.txns)
    (last : t.pending = 0) (bare : ∀ r, Request.reply r ∉ sent) :
    (v.closed t d sent).Balanced lay := by
  have items (j : Nat) : (v.closed t d sent).items j = v.items j := items_work v t.origin d bare j
  have gone (j : Nat) : t.number ∉ v.items j := by
    intro member
    have held : j ∈ v.holders lay t.number :=
      (mem_holders ..).mpr ⟨(balanced.live j _ member).1, member⟩
    have counted := balanced.pending t isOpen
    rw [last] at counted
    exact Finset.card_ne_zero_of_mem held counted.symm
  have holders (n : Nat) : (v.closed t d sent).holders lay n = v.holders lay n := by
    ext j
    rw [mem_holders, mem_holders, items]
  constructor
  · intro j
    rw [items]
    exact balanced.once j
  · intro j n member
    rw [items] at member
    obtain ⟨inside, u, present, named, apart⟩ := balanced.live j n member
    refine ⟨inside, u, ?_, named, apart⟩
    rw [txns_closed, List.mem_filter, bne_iff_ne]
    refine ⟨present, fun same => gone j ?_⟩
    rw [← same, named]
    exact member
  · intro u member
    rw [holders]
    exact balanced.pending u (List.mem_filter.mp member).1
  · have whole := ((txns_perm lawful.numbers isOpen).map (·.pending)).sum_nat
    rw [List.map_cons, List.sum_cons, last, Nat.zero_add] at whole
    rw [probesSent_closed, repliesTaken_closed, txns_closed, ← whole]
    exact balanced.total

theorem bare_victims {sent : List Request}
    (sends : ∀ q ∈ sent, ∃ (v : Victim) (slot : Slot), q = v.request slot) (r : ProbeReply) :
    Request.reply r ∉ sent := fun member => (Controller.fair_victims sends _ member).2 r rfl

theorem Conserved.step (conserved : v.Conserved lay) (lawful : v.Lawful lay) (step : Step lay v w) :
    w.Conserved lay := by
  have balanced := conserved.toBalanced
  cases step with
  | answer k p later r d inside oldest txn replies =>
    refine conserved.of_perm (fun j => ?_) rfl rfl rfl
    simp only [items, queue_work]
    by_cases here : j = k
    · subst here
      simp only [if_true, oldest, List.map_cons, List.filterMap_append, List.cons_append, txn.symm]
      rw [← List.append_assoc]
      exact List.perm_append_singleton r.txn _
    · simp only [if_neg here, List.Perm.refl]
  | settle k q later x d sent head target clears =>
    refine conserved.of_perm (fun j => ?_) rfl rfl rfl
    have other : q.answers = none := by
      cases q with
      | reply r => cases target
      | read | ioWrite | victim | barrier => rfl
    have same := items_work (v.rest k later) k d (bare_victims clears.sends) j
    rw [items_rest head other] at same
    exact .of_eq same
  | defer k id a kind later head backed =>
    exact conserved.of_perm (fun j => .of_eq (items_rest head rfl j)) rfl rfl rfl
  | turn r later waits => exact conserved.of_perm (fun _ => .refl _) rfl rfl rfl
  | begin r before after waits free probed =>
    refine ⟨balanced.begun lawful r _, fun t member => ?_⟩
    rw [txns_begun, List.mem_append, List.mem_singleton] at member
    rcases member with old | rfl
    · exact conserved.awaited t old
    · exact fun none_probed => probed (List.eq_nil_of_length_eq_zero none_probed)
  | alone r before after d sent waits free nobody clears =>
    have opened : v.opened lay r ∈ (v.begun lay r (before ++ after)).txns := by simp
    have none_out : (v.opened lay r).pending = 0 := by simp [Traffic.opened, nobody]
    refine ⟨(balanced.begun lawful r _).closed (lawful.begun waits free) opened none_out
      (bare_victims clears.sends), fun t member => ?_⟩
    obtain ⟨present, apart⟩ := List.mem_filter.mp member
    rw [txns_begun, List.mem_append, List.mem_singleton] at present
    rcases present with old | rfl
    · exact conserved.awaited t old
    · simp at apart
  | reply k r later t d head isOpen number frees more =>
    refine ⟨balanced.replied lawful head isOpen number, fun u member => ?_⟩
    rw [txns_replied] at member
    obtain ⟨old, present, rfl⟩ := List.mem_map.mp member
    split
    · exact more
    · exact conserved.awaited old present
  | finish k r later t d e sent head isOpen number frees last clears =>
    have taken := mem_replied (v := v.rest k later) isOpen number k d
    refine ⟨(balanced.replied lawful head isOpen number).closed
      ((lawful.rest head).replied isOpen number) taken last (bare_victims clears.sends),
      fun u member => ?_⟩
    obtain ⟨present, apart⟩ := List.mem_filter.mp member
    rw [txns_replied] at present
    obtain ⟨old, inside, rfl⟩ := List.mem_map.mp present
    split
    · rename_i same
      simp [same, Transaction.take, ← number] at apart
    · exact conserved.awaited old inside
  | drop k r later head closed =>
    have named : r.txn ∈ v.items k := by
      rw [items, head]
      simp [Request.answers]
    obtain ⟨_, t, isOpen, number, _⟩ := balanced.live k _ named
    exact absurd number (closed t isOpen)

theorem Conserved.work (conserved : v.Conserved lay) (bare : ∀ r, Request.reply r ∉ sent) :
    (v.work k d sent).Conserved lay :=
  conserved.of_perm (fun j => .of_eq (items_work v k d bare j)) rfl rfl rfl

end Traffic
end CacheCoherence
