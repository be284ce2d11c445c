import CacheCoherence.Proofs.Commands
import CacheCoherence.Proofs.IoBuffering

/-! The writes of a CPU to the I/O space, as a stream: those in its queue, and behind them those that a
flush would send. The machine only takes from the front of a stream, and among the calls of a pipeline
only a store to the I/O space adds to its end. So what the blocks will be is known from the moment of
the store, and a barrier behind the stream shows that the hub has it all. -/

namespace CacheCoherence

theorem stored_getD (b : Address) (q : Request) (io : Address → Option Block) :
    ((q.stored io) b).getD .zero = q.lay b ((io b).getD .zero) := by
  cases q with
  | ioWrite id a data mask written =>
    by_cases same : a.block = b.block
    · simp [Request.stored, Request.lay, same]
    · simp [Request.stored, Request.lay, same, Ne.symm same]
  | read | victim | reply | barrier => rfl

theorem foldl_stored_getD (b : Address) (messages : List Request) (io : Address → Option Block) :
    ((messages.foldl (fun io q => q.stored io) io) b).getD .zero =
      laid b messages ((io b).getD .zero) := by
  induction messages generalizing io with
  | nil => rfl
  | cons q rest ih => rw [List.foldl_cons, ih, stored_getD, laid_cons]

theorem laid_filter (b : Address) (messages : List Request) (image : Block) :
    laid b (messages.filter Request.isWrite) image = laid b messages image := by
  induction messages generalizing image with
  | nil => rfl
  | cons q rest ih =>
    cases q with
    | ioWrite => exact ih _
    | read | victim | reply | barrier => exact ih image

theorem writesTo_of_not_isWrite {q : Request} (plain : q.isWrite = false) (b : Address) :
    q.writesTo b = false := by
  cases q with
  | ioWrite => cases plain
  | read | victim | reply | barrier => rfl

/-- Behind each write to the block of `b` the barrier of slot `i` is still to come. -/
def Fenced (b : Address) (i : Slot) : List Request → Prop
  | [] => True
  | q :: rest => (q.writesTo b → .barrier (.miss i) ∈ rest) ∧ Fenced b i rest

section

variable {b : Address} {i : Slot} {queue sent : List Request}

theorem Fenced.behind {taken kept : List Request} (fenced : Fenced b i (taken ++ kept)) :
    Fenced b i kept := by
  induction taken with
  | nil => exact fenced
  | cons q rest ih => exact ih fenced.2

theorem Fenced.append (fenced : Fenced b i queue) (silent : ∀ q ∈ sent, q.writesTo b = false) :
    Fenced b i (queue ++ sent) := by
  induction queue with
  | nil =>
    induction sent with
    | nil => trivial
    | cons q rest ih =>
      have quiet := silent q List.mem_cons_self
      exact ⟨by simp [quiet], ih fun r member => silent r (List.mem_cons_of_mem _ member)⟩
  | cons q rest ih =>
    exact ⟨fun writes => List.mem_append_left _ (fenced.1 writes), ih fenced.2⟩

theorem fenced_barrier (queue : List Request) : Fenced b i (queue ++ [.barrier (.miss i)]) := by
  induction queue with
  | nil => exact ⟨by simp [Request.writesTo], trivial⟩
  | cons q rest ih => exact ⟨fun _ => by simp, ih⟩

theorem Fenced.silent (fenced : Fenced b i queue) (gone : .barrier (.miss i) ∉ queue) :
    ∀ q ∈ queue, q.writesTo b = false := by
  induction queue with
  | nil => simp
  | cons q rest ih =>
    have later : .barrier (.miss i) ∉ rest := fun member => gone (List.mem_cons_of_mem _ member)
    refine List.forall_mem_cons.mpr ⟨?_, ih fenced.2 later⟩
    cases writes : q.writesTo b with
    | false => rfl
    | true => exact absurd (fenced.1 writes) later

end

namespace Traffic

variable {lay : Layout} {v w : Traffic} {k : Nat} {d : Desk} {sent later : List Request}
  {t : Transaction}

def stream (v : Traffic) (k : Nat) : List Request :=
  (v.queue k).filter Request.isWrite ++ (v.desk k).writes.unsent

/-- Between `v` and `w` the hub takes `taken` from CPU `k`, and nothing new is written. -/
structure Takes (v : Traffic) (k : Nat) (taken : List Request) (w : Traffic) : Prop where
  io : w.io = taken.foldl (fun io q => q.stored io) v.io
  queue : ∀ j, ∃ kept sent, v.queue j = (if j = k then taken else []) ++ kept ∧
    w.queue j = kept ++ sent ∧ ∀ q ∈ sent, q.isWrite = false
  unsent : ∀ j, (w.desk j).writes.unsent = (v.desk j).writes.unsent
  entries : ∀ j, (v.desk j).writes.Advances (w.desk j).writes

theorem plain_victims {sent : List Request}
    (sends : ∀ q ∈ sent, ∃ (v : Victim) (slot : Slot), q = v.request slot) :
    ∀ q ∈ sent, q.isWrite = false := by
  intro q member
  obtain ⟨v, slot, rfl⟩ := sends q member
  rfl

theorem writes_frees {r : ProbeReply} {e : Desk} (frees : d.Frees r e) :
    e.writes.unsent = d.writes.unsent ∧ d.writes.Advances e.writes := by
  unfold Desk.Frees at frees
  cases named : r.victim with
  | none =>
    simp only [named] at frees
    rw [frees]
    exact ⟨rfl, .refl _⟩
  | some slot =>
    simp only [named] at frees
    exact ⟨frees.unsent (by simp), frees.entries⟩

/-- The hub takes nothing, or one request, and then ends at most one transaction. -/
theorem Takes.closed {taken : List Request} (takes : v.Takes k taken w) {slot : Slot}
    (id : t.id = .miss slot) (clears : (w.desk t.origin).Clears (.request t.id) d sent) :
    v.Takes k taken (w.closed t d sent) := by
  refine ⟨takes.io, fun j => ?_, fun j => ?_, fun j => ?_⟩
  · obtain ⟨kept, before, first, last, plain⟩ := takes.queue j
    by_cases here : j = t.origin
    · have queue : (w.closed t d sent).queue j = kept ++ (before ++ sent) := by
        rw [queue_closed, if_pos here, last, List.append_assoc]
      refine ⟨kept, before ++ sent, first, queue, fun q member => ?_⟩
      rcases List.mem_append.mp member with early | late
      · exact plain q early
      · exact plain_victims clears.sends q late
    · have queue : (w.closed t d sent).queue j = kept ++ before := by
        rw [queue_closed, if_neg here, last]
      exact ⟨kept, before, first, queue, plain⟩
  · rw [desk_closed]
    split
    · rename_i here
      rw [here, clears.unsent (by simp [id]), takes.unsent]
    · exact takes.unsent j
  · rw [desk_closed]
    split
    · rename_i here
      rw [here]
      exact (takes.entries _).trans clears.entries
    · exact takes.entries j

theorem takes_nothing (io : w.io = v.io) (queue : w.queue = v.queue) (desk : w.desk = v.desk) :
    v.Takes 0 [] w := by
  refine ⟨io, fun j => ⟨v.queue j, [], ?_, ?_, by simp⟩, fun j => by rw [desk], fun j => ?_⟩
  · rw [ite_self, List.nil_append]
  · rw [queue, List.append_nil]
  · rw [desk]
    exact .refl _

theorem queue_taken {q : Request} (head : v.queue k = q :: later) (j : Nat) :
    ∃ kept sent, v.queue j = (if j = k then [q] else []) ++ kept ∧
      (v.rest k later).queue j = kept ++ sent ∧ ∀ x ∈ sent, x.isWrite = false := by
  rw [queue_rest]
  by_cases here : j = k
  · exact ⟨later, [], by simp [here, head], by simp [here], by simp⟩
  · exact ⟨v.queue j, [], by simp [here], by simp [here], by simp⟩

theorem takes_replied {r : ProbeReply} (head : v.queue k = .reply r :: later)
    (frees : (v.desk k).Frees r d) : v.Takes k [.reply r] ((v.rest k later).replied k r t d) := by
  refine ⟨rfl, fun j => ?_, fun j => ?_, fun j => ?_⟩
  · rw [queue_replied]
    exact queue_taken head j
  · rw [desk_replied, desk_rest]
    split
    · rename_i here
      rw [here, (writes_frees frees).1]
    · rfl
  · rw [desk_replied, desk_rest]
    split
    · rename_i here
      rw [here]
      exact (writes_frees frees).2
    · exact .refl _

theorem Step.takes (step : Step lay v w) (lawful : v.Lawful lay) (accounted : v.Accounted) :
    ∃ k taken, v.Takes k taken w := by
  cases step with
  | answer k p later r d inside oldest txn replies =>
    refine ⟨0, [], rfl, fun j => ?_, fun j => ?_, fun j => ?_⟩
    · simp only [queue_work, ite_self, List.nil_append]
      by_cases here : j = k
      · exact ⟨v.queue j, [.reply r], rfl, by simp [here], by simp [Request.isWrite]⟩
      · exact ⟨v.queue j, [], rfl, by simp [here], by simp⟩
    · simp only [desk_work]
      split
      · rename_i here
        rw [here, replies.writes]
      · rfl
    · simp only [desk_work]
      split
      · rename_i here
        rw [here, replies.writes]
        exact .refl _
      · exact .refl _
  | settle k q later x d sent head target clears =>
    refine ⟨k, [q], rfl, fun j => ?_, fun j => ?_, fun j => ?_⟩
    · simp only [queue_work, queue_rest]
      by_cases here : j = k
      · exact ⟨later, sent, by simp [here, head], by simp [here], plain_victims clears.sends⟩
      · exact ⟨v.queue j, [], by simp [here], by simp [here], by simp⟩
    · simp only [desk_work, desk_rest]
      split
      · rename_i here
        rw [here]
        refine clears.unsent fun i same => ?_
        -- the write that is acknowledged is the one that is under way
        have named : parcels x [q] ≠ [] := by
          rcases asks_or_parcels (lawful.proper k q (by simp [head])) target with
            ⟨slot, miss, _⟩ | ⟨named, _⟩
          · rw [same] at miss
            cases miss
          · exact named
        have counted := accounted k x
        rw [head, parcels_cons, same] at counted
        rw [same] at named
        cases load : (v.desk k).writes.load i with
        | some p => rfl
        | none =>
          simp only [Desk.due, load, Option.toList_none, List.append_eq_nil_iff] at counted
          exact absurd counted.1 named
      · rfl
    · simp only [desk_work, desk_rest]
      split
      · rename_i here
        rw [here]
        exact clears.entries
      · exact .refl _
  | defer k id a kind later head backed =>
    exact ⟨k, [.read id a kind], rfl, queue_taken head, fun j => rfl, fun j => .refl _⟩
  | turn r later waits => exact ⟨0, [], takes_nothing rfl rfl rfl⟩
  | begin r before after waits free probed => exact ⟨0, [], takes_nothing rfl rfl rfl⟩
  | alone r before after d sent waits free nobody clears =>
    obtain ⟨slot, id⟩ := (lawful.readers r (by simp [waits])).2.2
    have begun : v.Takes 0 [] (v.begun lay r (before ++ after)) := takes_nothing rfl rfl rfl
    exact ⟨0, [], begun.closed (t := v.opened lay r) id clears⟩
  | reply k r later t d head isOpen number frees more => exact ⟨k, _, takes_replied head frees⟩
  | finish k r later t d e sent head isOpen number frees last clears =>
    obtain ⟨slot, id⟩ := lawful.ids t isOpen
    exact ⟨k, _, (takes_replied head frees).closed (t := t.take r) id clears⟩
  | drop k r later head closed =>
    exact ⟨k, [.reply r], rfl, queue_taken head, fun j => rfl, fun j => .refl _⟩

section takes

variable {taken : List Request} {b : Address} {image : Block}

theorem Takes.stream (takes : v.Takes k taken w) (j : Nat) :
    v.stream j = (if j = k then taken.filter Request.isWrite else []) ++ w.stream j := by
  obtain ⟨kept, sent, first, last, plain⟩ := takes.queue j
  rw [Traffic.stream, Traffic.stream, takes.unsent, first, last, List.filter_append,
    List.filter_append, filter_isWrite plain, List.append_nil, List.append_assoc]
  split
  · rfl
  · rfl

theorem Takes.mem (takes : v.Takes k taken w) {j : Nat} {q : Request} (member : q ∈ w.stream j) :
    q ∈ v.stream j := by
  rw [takes.stream]
  exact List.mem_append_right _ member

theorem Takes.fenced (takes : v.Takes k taken w) {j : Nat} {i : Slot}
    (fenced : Fenced b i (v.queue j)) : Fenced b i (w.queue j) := by
  obtain ⟨kept, sent, first, last, plain⟩ := takes.queue j
  rw [first] at fenced
  rw [last]
  exact fenced.behind.append fun q member => writesTo_of_not_isWrite (plain q member) b

/-- What one CPU has promised stays, when no other writes to the block. -/
theorem Takes.promised (takes : v.Takes k taken w) {j : Nat}
    (others : ∀ i ≠ j, ∀ q ∈ v.stream i, q.writesTo b = false) :
    laid b (w.stream j) ((w.io b).getD .zero) = laid b (v.stream j) ((v.io b).getD .zero) := by
  rw [takes.io, foldl_stored_getD, takes.stream j]
  by_cases here : j = k
  · rw [if_pos here, laid_append, laid_filter]
  · rw [if_neg here, List.nil_append, ← laid_filter b taken]
    congr 1
    refine laid_of_silent (fun q member => others k (Ne.symm here) q ?_) _
    rw [takes.stream, if_pos rfl]
    exact List.mem_append_left _ member

end takes

/-- What holds of CPU `k`, which joins no answer late: the hub owes it an answer for each slot that
waits. -/
structure Paced (lay : Layout) (k : Nat) (v : Traffic) : Prop where
  sound : v.Sound lay
  matched : ∀ i, ((v.desk k).waits i).toNat = v.owes k i

theorem Paced.step (paced : v.Paced lay k) (step : Step lay v w) : w.Paced lay k := by
  refine ⟨paced.sound.step step, fun i => ?_⟩
  obtain ⟨answered, owes, waits⟩ := step.owes paced.sound.lawful k i
  have before := paced.matched i
  rw [waits]
  cases answered with
  | false => simpa [owes] using before
  | true =>
    rw [owes] at before
    cases waited : (v.desk k).waits i with
    | false => simp [waited] at before
    | true =>
      simp only [waited, Bool.toNat_true] at before ⊢
      simp
      omega

/-- Once its writes are handled the block of `b` will be `image`, and nobody else writes to it. -/
structure Promised (lay : Layout) (k : Nat) (b : Address) (image : Block) (v : Traffic) : Prop where
  sound : v.Sound lay
  spanned : (v.desk k).writes.Spanned (·.OpenAt b)
  others : ∀ j ≠ k, ∀ q ∈ v.stream j, q.writesTo b = false
  promised : laid b (v.stream k) ((v.io b).getD .zero) = image

variable {b : Address} {image : Block}

theorem Promised.step (promised : v.Promised lay k b image) (step : Step lay v w) :
    w.Promised lay k b image := by
  obtain ⟨j, taken, takes⟩ := step.takes promised.sound.lawful promised.sound.accounted
  refine ⟨promised.sound.step step, promised.spanned.advance_open (takes.entries k),
    fun i apart q member => ?_, ?_⟩
  · exact promised.others i apart q (takes.mem member)
  · exact (takes.promised promised.others).trans promised.promised

structure Behind (lay : Layout) (k : Nat) (b : Address) (image : Block) (i : Slot) (v : Traffic) :
    Prop extends Promised lay k b image v where
  fenced : Fenced b i (v.queue k)
  closed : ∀ q ∈ (v.desk k).writes.unsent, q.writesTo b = false

theorem Behind.step {i : Slot} (behind : v.Behind lay k b image i) (step : Step lay v w) :
    w.Behind lay k b image i := by
  obtain ⟨j, taken, takes⟩ := step.takes behind.sound.lawful behind.sound.accounted
  refine ⟨behind.toPromised.step step, takes.fenced behind.fenced, ?_⟩
  rw [takes.unsent]
  exact behind.closed

structure Landed (lay : Layout) (k : Nat) (b : Address) (image : Block) (v : Traffic) : Prop
    extends Promised lay k b image v where
  silent : ∀ q ∈ v.stream k, q.writesTo b = false

theorem Landed.step (landed : v.Landed lay k b image) (step : Step lay v w) :
    w.Landed lay k b image := by
  obtain ⟨j, taken, takes⟩ := step.takes landed.sound.lawful landed.sound.accounted
  exact ⟨landed.toPromised.step step, fun q member => landed.silent q (takes.mem member)⟩

theorem Landed.io (landed : v.Landed lay k b image) : (v.io b).getD .zero = image := by
  rw [← landed.promised, laid_of_silent landed.silent]

theorem Paced.gone (paced : v.Paced lay k) {i : Slot} (answered : (v.desk k).waits i = false) :
    Request.barrier (.miss i) ∉ v.queue k := by
  have owed := paced.matched i
  rw [answered, Bool.toNat_false, owes] at owed
  have none_asked : (v.queue k).countP (·.asks i) = 0 := by omega
  intro member
  exact List.countP_eq_zero.mp none_asked _ member (by simp [Request.asks])

/-- When the barrier has gone, the hub has every write that was before it. -/
theorem Behind.landed {i : Slot} (behind : v.Behind lay k b image i)
    (gone : Request.barrier (.miss i) ∉ v.queue k) : v.Landed lay k b image := by
  refine ⟨behind.toPromised, fun q member => ?_⟩
  rcases List.mem_append.mp member with queued | unsent
  · exact behind.fenced.silent gone q (List.mem_filter.mp queued).1
  · exact behind.closed q unsent

end Traffic
end CacheCoherence
