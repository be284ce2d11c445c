import CacheCoherence.Proofs.Focus
import Mathlib.Algebra.GroupWithZero.Nat

namespace CacheCoherence

def Request.isReply : Request → Bool
  | .reply _ => true
  | .read .. | .ioWrite .. | .victim .. | .barrier _ => false

open Function (update)

namespace Focus

def owes (f : Focus) (k : Nat) : Nat := (f.probes k).length + ((f.queue k).filter Request.isReply).length

/-- Every node but the origin of an open transaction owes it at most one reply, and the transaction
counts them. -/
structure Probing (lay : Layout) (f : Focus) : Prop where
  idle : f.txn = none → ∀ k, f.owes k = 0
  probes : ∀ t, f.txn = some t → ∀ k, ∀ p ∈ f.probes k,
    p.txn = t.number ∧ p.command = lay.command t.kind
  replies : ∀ t, f.txn = some t → ∀ k r, .reply r ∈ f.queue k → r.txn = t.number
  once : ∀ k, f.owes k ≤ 1
  apart : ∀ t, f.txn = some t → ∀ k, k ∉ lay.others t.origin → f.owes k = 0
  pending : ∀ t, f.txn = some t → ((lay.others t.origin).map f.owes).sum = t.pending

variable {lay : Layout} {tidy : Prop} {f g : Focus}

theorem owes_pos_of_probe {k : Nat} (probed : f.probes k ≠ []) : 0 < f.owes k :=
  Nat.add_pos_left (List.length_pos_iff.mpr probed) _

theorem owes_pos_of_reply {k : Nat} {r : ProbeReply} (member : .reply r ∈ f.queue k) :
    0 < f.owes k :=
  Nat.add_pos_right _ (List.length_pos_of_mem (List.mem_filter.mpr ⟨member, rfl⟩))

theorem not_reply_of_owes {k : Nat} (clear : f.owes k = 0) (r : ProbeReply) :
    .reply r ∉ f.queue k := by
  intro member
  have owed := owes_pos_of_reply member
  omega

theorem sum_map_change {l : List Nat} (nodup : l.Nodup) {k : Nat} (member : k ∈ l)
    (before after : Nat → Nat) (same : ∀ j, j ≠ k → after j = before j) :
    (l.map after).sum + before k = (l.map before).sum + after k := by
  have perm := List.perm_cons_erase member
  have rest : (l.erase k).map after = (l.erase k).map before := by
    refine List.map_congr_left fun j inside => same j ?_
    rintro rfl
    exact nodup.not_mem_erase inside
  rw [(perm.map after).sum_nat, (perm.map before).sum_nat, List.map_cons, List.map_cons, rest]
  simp only [List.sum_cons]
  omega

theorem owes_congr (probes : g.probes = f.probes)
    (replies : ∀ k, (g.queue k).filter Request.isReply = (f.queue k).filter Request.isReply) :
    g.owes = f.owes := by
  funext k
  rw [Focus.owes, Focus.owes, probes, replies]

theorem replies_send {queue : Nat → List Request} {q : Request} (other : q.isReply = false) (k j : Nat) :
    (update queue k (queue k ++ [q]) j).filter Request.isReply = (queue j).filter Request.isReply := by
  by_cases here : j = k
  · subst here
    simp [other]
  · simp [here]

theorem replies_rest {queue : Nat → List Request} {k : Nat} {q : Request} {later : List Request}
    (head : queue k = q :: later) (other : q.isReply = false) (j : Nat) :
    (update queue k later j).filter Request.isReply = (queue j).filter Request.isReply := by
  by_cases here : j = k
  · subst here
    simp [head, other]
  · simp [here]

namespace Probing

theorem of_same (probing : Probing lay f) (txn : g.txn = f.txn) (probes : g.probes = f.probes)
    (replies : ∀ k, (g.queue k).filter Request.isReply = (f.queue k).filter Request.isReply) :
    Probing lay g := by
  have owes : g.owes = f.owes := owes_congr probes replies
  refine ⟨?_, ?_, ?_, ?_, ?_, ?_⟩
  · rw [txn, owes]
    exact probing.idle
  · rw [txn, probes]
    exact probing.probes
  · rw [txn]
    intro t isOpen k r member
    have kept : .reply r ∈ (g.queue k).filter Request.isReply := List.mem_filter.mpr ⟨member, rfl⟩
    rw [replies] at kept
    exact probing.replies t isOpen k r (List.mem_filter.mp kept).1
  · rw [owes]
    exact probing.once
  · rw [txn, owes]
    exact probing.apart
  · rw [txn, owes]
    exact probing.pending

theorem probed (probing : Probing lay f) {k : Nat} (owed : 0 < f.owes k) :
    ∃ t, f.txn = some t ∧ k ∈ lay.others t.origin := by
  cases shown : f.txn with
  | none =>
    have clear := probing.idle shown k
    omega
  | some t =>
    refine ⟨t, rfl, ?_⟩
    by_contra outside
    have clear := probing.apart t shown k outside
    omega

theorem replied (probing : Probing lay f) {k : Nat} {r : ProbeReply} (member : .reply r ∈ f.queue k) :
    ∃ t, f.txn = some t ∧ t.number = r.txn := by
  obtain ⟨t, isOpen, _⟩ := probing.probed (owes_pos_of_reply member)
  exact ⟨t, isOpen, (probing.replies t isOpen k r member).symm⟩

theorem clear (probing : Probing lay f) {t : Transaction} (isOpen : f.txn = some t)
    (done : t.pending = 0) (k : Nat) : f.owes k = 0 := by
  have sum := probing.pending t isOpen
  rw [done, List.sum_eq_zero_iff_forall_eq_nat] at sum
  by_cases inside : k ∈ lay.others t.origin
  · exact sum _ (List.mem_map_of_mem inside)
  · exact probing.apart t isOpen k inside

theorem snooped (probing : Probing lay f) {k : Nat} {p : Probe} {later : List Probe}
    {reply : ProbeReply} (oldest : f.probes k = p :: later) (named : reply.txn = p.txn)
    (txn : g.txn = f.txn) (probes : g.probes = update f.probes k later)
    (queue : g.queue = update f.queue k (f.queue k ++ [.reply reply])) : Probing lay g := by
  have owes : g.owes = f.owes := by
    funext j
    simp only [Focus.owes, probes, queue]
    by_cases here : j = k
    · subst here
      simp only [Function.update_self, oldest, List.filter_append, List.length_append,
        List.length_cons]
      have one : ([Request.reply reply].filter Request.isReply).length = 1 := rfl
      omega
    · simp [here]
  refine ⟨?_, ?_, ?_, ?_, ?_, ?_⟩
  · rw [txn, owes]
    exact probing.idle
  · intro t isOpen j q member
    rw [txn] at isOpen
    refine probing.probes t isOpen j q ?_
    rw [probes] at member
    by_cases here : j = k
    · subst here
      rw [oldest]
      exact List.mem_cons_of_mem _ (by simpa using member)
    · simpa [here] using member
  · intro t isOpen j r member
    rw [txn] at isOpen
    rw [queue] at member
    by_cases here : j = k
    · subst here
      rw [Function.update_self, List.mem_append, List.mem_singleton] at member
      rcases member with old | new
      · exact probing.replies t isOpen j r old
      · cases new
        rw [named]
        exact (probing.probes t isOpen j p (by rw [oldest]; exact List.mem_cons_self ..)).1
    · exact probing.replies t isOpen j r (by simpa [here] using member)
  · rw [owes]
    exact probing.once
  · rw [txn, owes]
    exact probing.apart
  · rw [txn, owes]
    exact probing.pending

theorem taken (probing : Probing lay f) {k : Nat} {r : ProbeReply} {later : List Request}
    {t : Transaction} (head : f.queue k = .reply r :: later) (isOpen : f.txn = some t)
    (txn : g.txn = some (t.take r)) (probes : g.probes = f.probes)
    (queue : g.queue = update f.queue k later) : Probing lay g := by
  have owes (j : Nat) : g.owes j = if j = k then f.owes j - 1 else f.owes j := by
    simp only [Focus.owes, probes, queue]
    by_cases here : j = k
    · subst here
      have one : ((Request.reply r :: later).filter Request.isReply).length =
        (later.filter Request.isReply).length + 1 := rfl
      simp only [Function.update_self, if_true, head, one]
      omega
    · simp [here]
  have owed : 0 < f.owes k := owes_pos_of_reply (by rw [head]; exact List.mem_cons_self ..)
  refine ⟨?_, ?_, ?_, ?_, ?_, ?_⟩
  · rw [txn]
    simp
  · intro u shown j p member
    rw [txn] at shown
    cases shown
    rw [probes] at member
    exact probing.probes t isOpen j p member
  · intro u shown j q member
    rw [txn] at shown
    cases shown
    refine probing.replies t isOpen j q ?_
    rw [queue] at member
    by_cases here : j = k
    · subst here
      rw [head]
      exact List.mem_cons_of_mem _ (by simpa using member)
    · simpa [here] using member
  · intro j
    have before := probing.once j
    rw [owes]
    split <;> omega
  · intro u shown j outside
    rw [txn] at shown
    cases shown
    have before := probing.apart t isOpen j outside
    rw [owes, before, ite_self]
  · intro u shown
    rw [txn] at shown
    cases shown
    obtain ⟨_, shown, other⟩ := probing.probed owed
    obtain rfl := Option.some.inj (isOpen.symm.trans shown)
    have sum := sum_map_change (lay.others_nodup t.origin) other f.owes g.owes fun j apart => by
      rw [owes, if_neg apart]
    have counted := probing.pending t isOpen
    have here := owes k
    rw [if_pos rfl] at here
    change ((lay.others t.origin).map g.owes).sum = t.pending - 1
    omega

theorem begun (probing : Probing lay f) {t : Transaction} {a : Address} (closed : f.txn = none)
    (pending : t.pending = (lay.others t.origin).length) (txn : g.txn = some t)
    (queue : g.queue = f.queue)
    (probes : g.probes = fun j =>
      if j ∈ lay.others t.origin then
        f.probes j ++ [.ofCommand t.number a (lay.command t.kind)]
      else f.probes j) : Probing lay g := by
  have none_probed (k : Nat) : f.probes k = [] := by
    by_contra some_probed
    have owed := owes_pos_of_probe some_probed
    have clear := probing.idle closed k
    omega
  have owes (k : Nat) : g.owes k = if k ∈ lay.others t.origin then 1 else 0 := by
    have before := probing.idle closed k
    simp only [Focus.owes, probes, queue, none_probed] at before ⊢
    split
    · simp only [List.nil_append, List.length_singleton]
      simp only [List.length_nil] at before
      omega
    · exact before
  refine ⟨?_, ?_, ?_, ?_, ?_, ?_⟩
  · rw [txn]
    simp
  · intro u shown k p member
    rw [txn] at shown
    cases shown
    simp only [probes, none_probed, List.nil_append] at member
    split at member
    · rw [List.mem_singleton.mp member]
      exact ⟨rfl, ProbeCommand.decode_encode _⟩
    · cases member
  · intro u shown k r member
    rw [queue] at member
    exact absurd member (not_reply_of_owes (probing.idle closed k) r)
  · intro k
    rw [owes]
    split <;> omega
  · intro u shown k outside
    rw [txn] at shown
    cases shown
    rw [owes, if_neg outside]
  · intro u shown
    rw [txn] at shown
    cases shown
    have ones : (lay.others t.origin).map g.owes = (lay.others t.origin).map fun _ => 1 := by
      refine List.map_congr_left fun k inside => ?_
      rw [owes, if_pos inside]
    rw [ones, pending]
    simp

theorem finished (probing : Probing lay f) {t : Transaction} (isOpen : f.txn = some t)
    (done : t.pending = 0) (txn : g.txn = none) (probes : g.probes = f.probes)
    (queue : g.queue = f.queue) : Probing lay g := by
  have owes (k : Nat) : g.owes k = 0 := by
    rw [← probing.clear isOpen done k, Focus.owes, Focus.owes, probes, queue]
  refine ⟨fun _ => owes, ?_, ?_, fun k => by rw [owes]; exact Nat.zero_le 1, ?_, ?_⟩
  · rw [txn]
    simp
  · rw [txn]
    simp
  · rw [txn]
    simp
  · rw [txn]
    simp

theorem step (probing : Probing lay f) (step : Focus.Step lay tidy f g) : Probing lay g := by
  cases step with
  | ask => exact probing.of_same rfl rfl (replies_send rfl _)
  | lose | store => exact probing.of_same rfl rfl fun _ => rfl
  | evict => exact probing.of_same rfl rfl (replies_send rfl _)
  | snoop k p later reply oldest named => exact probing.snooped oldest named rfl rfl rfl
  | defer k id a kind later head => exact probing.of_same rfl rfl (replies_rest head rfl)
  | settle k slot a data later head => exact probing.of_same rfl rfl (replies_rest head rfl)
  | drop k r later head closed =>
    obtain ⟨t, isOpen, number⟩ := probing.replied (by rw [head]; exact List.mem_cons_self ..)
    exact absurd number (closed t isOpen)
  | take k r later t head isOpen => exact probing.taken head isOpen rfl rfl rfl
  | begin t slot a closed id asked moved pending => exact probing.begun closed pending rfl rfl rfl
  | finish t slot line isOpen done => exact probing.finished isOpen done rfl rfl rfl

end Probing
end Focus
end CacheCoherence
