import CacheCoherence.Proofs.Conservation

namespace CacheCoherence

theorem parcels_apart {q : Request} {x y : CompletionTarget} (target : q.target? = some x)
    (apart : y ≠ x) : parcels y [q] = [] := by
  cases q with
  | read | barrier => rfl
  | reply r => cases target
  | victim slot a data =>
    cases target
    simp [parcels, Request.parcel?, Parcel.target, Ne.symm apart]
  | ioWrite id a data mask written =>
    cases target
    cases id with
    | miss slot => rfl
    | ioWrite slot => simp [parcels, Request.parcel?, Parcel.target, Ne.symm apart]

/-- A request that the hub settles at once asks for a reference or carries a parcel. -/
theorem asks_or_parcels {q : Request} {x : CompletionTarget} (proper : q.Proper)
    (target : q.target? = some x) :
    (∃ slot, x = .request (.miss slot) ∧ ∀ i, q.asks i = (slot == i)) ∨
      (parcels x [q] ≠ [] ∧ (∀ i, x ≠ .request (.miss i)) ∧ ∀ i, q.asks i = false) := by
  cases q with
  | read id a kind =>
    obtain ⟨slot, rfl⟩ := proper
    cases target
    exact .inl ⟨slot, rfl, fun i => by simp [Request.asks]⟩
  | barrier id =>
    obtain ⟨slot, rfl⟩ := proper
    cases target
    exact .inl ⟨slot, rfl, fun i => by simp [Request.asks]⟩
  | reply r => cases target
  | victim slot a data =>
    cases target
    exact .inr ⟨by simp [parcels, Request.parcel?, Parcel.target], by simp, fun _ => rfl⟩
  | ioWrite id a data mask written =>
    obtain ⟨slot, rfl⟩ := proper
    cases target
    exact .inr ⟨by simp [parcels, Request.parcel?, Parcel.target], by simp, fun _ => rfl⟩

theorem parcels_victim (x : CompletionTarget) (r : ProbeReply) (slot : Slot)
    (named : r.victim = some slot) : parcels x [.reply r] = [] ↔ x ≠ .victim slot := by
  by_cases same : x = .victim slot
  · simp [parcels, Request.parcel?, Parcel.target, named, same]
  · simp [parcels, Request.parcel?, Parcel.target, named, same, Ne.symm same]

theorem parcels_plain (x : CompletionTarget) (r : ProbeReply) (plain : r.victim = none) :
    parcels x [.reply r] = [] := by
  simp [parcels, Request.parcel?, plain]

namespace Traffic

variable {lay : Layout} {v w : Traffic} {k : Nat} {d : Desk} {sent later : List Request}
  {t : Transaction}

/-- Each parcel that is under way is in its queue, once, and the queue has no other. -/
def Accounted (v : Traffic) : Prop := ∀ k x, parcels x (v.queue k) = ((v.desk k).due x).toList

theorem Accounted.behind (accounted : v.Accounted) {q : Request} (head : v.queue k = q :: later)
    (x : CompletionTarget) :
    parcels x later = if parcels x [q] = [] then ((v.desk k).due x).toList else [] := by
  have before := accounted k x
  rw [head, parcels_cons] at before
  split
  · rename_i silent
    rwa [silent, List.nil_append] at before
  · rename_i named
    have one : (parcels x [q]).length + (parcels x later).length ≤ 1 := by
      rw [← List.length_append, before]
      cases (v.desk k).due x with
      | none => exact Nat.zero_le 1
      | some p => exact Nat.le_refl 1
    have some_named := List.length_pos_iff.mpr named
    exact List.eq_nil_of_length_eq_zero (by omega)

theorem Accounted.poses (accounted : v.Accounted) (poses : (v.desk k).Poses d sent) :
    (v.work k d sent).Accounted := by
  intro j x
  rw [queue_work, desk_work]
  split
  · rename_i here
    rw [here, parcels_append, accounted, poses.due]
  · exact accounted j x

theorem Accounted.closed (accounted : v.Accounted) {slot : Slot} (id : t.id = .miss slot)
    (clears : (v.desk t.origin).Clears (.request t.id) d sent) : (v.closed t d sent).Accounted := by
  intro j x
  rw [queue_closed, desk_closed]
  split
  · rename_i here
    rw [here, parcels_append, accounted, clears.due, id]
    by_cases same : x = .request (.miss slot)
    · simp [same, Desk.due]
    · rw [if_neg same]
  · exact accounted j x

theorem Accounted.replied (accounted : v.Accounted) {r : ProbeReply}
    (head : v.queue k = .reply r :: later) (frees : (v.desk k).Frees r d) :
    ((v.rest k later).replied k r t d).Accounted := by
  intro j x
  simp only [queue_replied, queue_rest, desk_replied, desk_rest]
  split
  · rename_i here
    rw [accounted.behind head]
    unfold Desk.Frees at frees
    cases named : r.victim with
    | none =>
      simp only [named] at frees
      rw [if_pos (parcels_plain x r named), frees]
    | some slot =>
      simp only [named] at frees
      rw [frees.due, parcels_nil, List.append_nil]
      by_cases same : x = .victim slot
      · rw [if_pos same, if_neg (fun silent => (parcels_victim x r slot named).mp silent same)]
      · rw [if_neg same, if_pos ((parcels_victim x r slot named).mpr same)]
  · exact accounted j x

theorem Accounted.step (accounted : v.Accounted) (lawful : v.Lawful lay)
    (conserved : v.Conserved lay) (step : Step lay v w) : w.Accounted := by
  cases step with
  | answer k p later r d inside oldest txn replies =>
    intro j x
    simp only [queue_work, desk_work]
    split
    · rename_i here
      rw [here, parcels_append, accounted, replies.due]
    · exact accounted j x
  | settle k q later x d sent head target clears =>
    intro j y
    simp only [queue_work, queue_rest, desk_work, desk_rest]
    split
    · have proper := lawful.proper k q (by simp [head])
      rw [parcels_append, clears.due, accounted.behind head]
      by_cases same : y = x
      · subst same
        rcases asks_or_parcels proper target with ⟨slot, rfl, _⟩ | ⟨named, _⟩
        · simp [Desk.due]
        · rw [if_neg named, if_pos rfl]
      · rw [if_pos (parcels_apart target same), if_neg same]
    · exact accounted j y
  | defer k id a kind later head backed =>
    intro j x
    simp only [queue_rest, desk_rest]
    split
    · rename_i here
      rw [here, accounted.behind head]
      exact if_pos rfl
    · exact accounted j x
  | turn r later waits => exact accounted
  | begin r before after waits free probed => exact accounted
  | alone r before after d sent waits free nobody clears =>
    obtain ⟨slot, id⟩ := (lawful.readers r (by simp [waits])).2.2
    have begun : (v.begun lay r (before ++ after)).Accounted := accounted
    exact begun.closed id clears
  | reply k r later t d head isOpen number frees more => exact accounted.replied head frees
  | finish k r later t d e sent head isOpen number frees last clears =>
    obtain ⟨slot, id⟩ := lawful.ids t isOpen
    exact (accounted.replied head frees).closed (t := t.take r) id clears
  | drop k r later head closed =>
    have named : r.txn ∈ v.items k := by
      rw [items, head]
      simp [Request.answers]
    obtain ⟨_, t, isOpen, number, _⟩ := conserved.live k _ named
    exact absurd number (closed t isOpen)

end Traffic

def DeferredRead.asks (r : DeferredRead) (k : Nat) (i : Slot) : Bool := r.cpu == k && r.id == .miss i

def Transaction.asks (t : Transaction) (k : Nat) (i : Slot) : Bool := t.origin == k && t.id == .miss i

namespace Traffic

variable {lay : Layout} {v w : Traffic} {k : Nat} {d : Desk} {sent later : List Request}
  {t : Transaction}

def owes (v : Traffic) (k : Nat) (i : Slot) : Nat :=
  (v.queue k).countP (·.asks i) + v.deferred.countP (·.asks k i) + v.txns.countP (·.asks k i)

theorem owes_work (v : Traffic) (k j : Nat) (d : Desk) (sent : List Request) (i : Slot) :
    (v.work k d sent).owes j i =
      v.owes j i + if j = k then sent.countP (·.asks i) else 0 := by
  simp only [owes, queue_work, deferred_work, txns_work]
  split
  · rw [List.countP_append]
    omega
  · rfl

theorem owes_rest {q : Request} (head : v.queue k = q :: later) (j : Nat) (i : Slot) :
    v.owes j i = (v.rest k later).owes j i + if j = k ∧ q.asks i then 1 else 0 := by
  simp only [owes, queue_rest, deferred_rest, txns_rest]
  by_cases here : j = k
  · subst here
    rw [head, List.countP_cons]
    simp only [true_and, if_true]
    omega
  · simp [here]

theorem owes_begun (v : Traffic) (r : DeferredRead) (before after : List DeferredRead)
    (waits : v.deferred = before ++ r :: after) (j : Nat) (i : Slot) :
    (v.begun lay r (before ++ after)).owes j i = v.owes j i := by
  have same : (v.opened lay r).asks j i = r.asks j i := rfl
  simp only [owes, queue_begun, deferred_begun, txns_begun, waits, List.countP_append,
    List.countP_cons, List.countP_nil, same]
  omega

theorem owes_replied (lawful : v.Lawful lay) {r : ProbeReply} (isOpen : t ∈ v.txns)
    (number : t.number = r.txn) (j : Nat) (i : Slot) :
    (v.replied k r t d).owes j i = v.owes j i := by
  have parts := map_take lawful.numbers isOpen r number (·.asks j i) rfl
  have counted (txns : List Transaction) :
      txns.countP (·.asks j i) = (txns.map (·.asks j i)).countP id := by
    rw [List.countP_map]
    rfl
  simp only [owes, queue_replied, deferred_replied, txns_replied]
  rw [counted, parts, ← counted]

theorem owes_closed (lawful : v.Lawful lay) (isOpen : t ∈ v.txns)
    (sends : ∀ q ∈ sent, ∃ (v : Victim) (slot : Slot), q = v.request slot) (j : Nat) (i : Slot) :
    v.owes j i = (v.closed t d sent).owes j i + (t.asks j i).toNat := by
  have whole := (txns_perm lawful.numbers isOpen).countP_eq (·.asks j i)
  rw [List.countP_cons] at whole
  have none_asked := Controller.asks_victims sends i
  have queue : ((v.closed t d sent).queue j).countP (·.asks i) = (v.queue j).countP (·.asks i) := by
    rw [queue_closed]
    split
    · rw [List.countP_append, none_asked, Nat.add_zero]
    · rfl
  simp only [owes, queue, deferred_closed, txns_closed, whole]
  cases t.asks j i with
  | false => simp
  | true =>
    simp
    omega

theorem waits_closed (clears : (v.desk t.origin).Clears (.request t.id) d sent) (j : Nat) (i : Slot) :
    ((v.closed t d sent).desk j).waits i = ((v.desk j).waits i && !t.asks j i) := by
  rw [desk_closed]
  by_cases here : j = t.origin
  · subst here
    rw [if_pos rfl, clears.waits, Bool.eq_iff_iff]
    simp [Transaction.asks]
  · have apart : t.asks j i = false := by simp [Transaction.asks, Ne.symm here]
    rw [if_neg here, apart, Bool.not_false, Bool.and_true]

theorem waits_frees {r : ProbeReply} {e : Desk} (frees : d.Frees r e) (i : Slot) :
    e.waits i = d.waits i := by
  unfold Desk.Frees at frees
  cases named : r.victim with
  | none =>
    simp only [named] at frees
    rw [frees]
  | some slot =>
    simp only [named] at frees
    rw [frees.waits]
    simp

/-- A request that the hub settles at once is struck off, and the reference that it asks for is
answered. -/
theorem owes_settled (lawful : v.Lawful lay) {q : Request} {x : CompletionTarget}
    (head : v.queue k = q :: later) (target : q.target? = some x)
    (clears : (v.desk k).Clears x d sent) (j : Nat) (i : Slot) :
    v.owes j i = ((v.rest k later).work k d sent).owes j i +
      (j == k && x == .request (.miss i)).toNat := by
  have asked : q.asks i = (x == .request (.miss i)) := by
    rcases asks_or_parcels (lawful.proper k q (by simp [head])) target with
      ⟨slot, rfl, asks⟩ | ⟨_, other, asks⟩
    · rw [asks]
      simp
    · rw [asks]
      simp [other i]
  rw [owes_work, Controller.asks_victims clears.sends i, ite_self, Nat.add_zero, owes_rest head, asked]
  by_cases here : j = k
  · cases x == .request (.miss i) <;> simp [here]
  · simp [here]

theorem waits_settled {x : CompletionTarget} (clears : (v.desk k).Clears x d sent) (j : Nat)
    (i : Slot) :
    (((v.rest k later).work k d sent).desk j).waits i =
      ((v.desk j).waits i && !(j == k && x == .request (.miss i))) := by
  rw [desk_work, desk_rest]
  by_cases here : j = k
  · subst here
    rw [if_pos rfl, clears.waits]
    simp [bne]
  · simp [here]

theorem owes_deferred {id : RequestId} {a : Address} {kind : ReadKind}
    (head : v.queue k = .read id a kind :: later) (j : Nat) (i : Slot) :
    v.owes j i =
      owes { v.rest k later with deferred := v.deferred ++ [⟨k, id, a, kind⟩] } j i := by
  have same : (⟨k, id, a, kind⟩ : DeferredRead).asks j i =
      (decide (j = k) && (Request.read id a kind).asks i) := by
    rw [Bool.eq_iff_iff]
    simp [DeferredRead.asks, Request.asks, Eq.comm (a := k)]
  rw [owes_rest head]
  simp only [owes, deferred_rest, queue_rest, txns_rest, List.countP_append,
    List.countP_singleton, same, Bool.and_eq_true, decide_eq_true_eq]
  omega

theorem owes_taken (lawful : v.Lawful lay) {r : ProbeReply} (head : v.queue k = .reply r :: later)
    (isOpen : t ∈ v.txns) (number : t.number = r.txn) (j : Nat) (i : Slot) :
    v.owes j i = ((v.rest k later).replied k r t d).owes j i := by
  rw [owes_replied (lawful.rest head) isOpen number, owes_rest head]
  simp [Request.asks]

theorem waits_taken {r : ProbeReply} (frees : (v.desk k).Frees r d) (j : Nat) (i : Slot) :
    (((v.rest k later).replied k r t d).desk j).waits i = (v.desk j).waits i := by
  rw [desk_replied, desk_rest]
  split
  · rename_i here
    rw [waits_frees frees, here]
  · rfl

/-- A move answers a slot and strikes off that it was asked for, or does neither. -/
theorem Step.owes (step : Step lay v w) (lawful : v.Lawful lay) (j : Nat) (i : Slot) :
    ∃ answered : Bool, v.owes j i = w.owes j i + answered.toNat ∧
      (w.desk j).waits i = ((v.desk j).waits i && !answered) := by
  have neither {w : Traffic} (owes : v.owes j i = w.owes j i)
      (waits : (w.desk j).waits i = (v.desk j).waits i) : ∃ answered : Bool,
      v.owes j i = w.owes j i + answered.toNat ∧
        (w.desk j).waits i = ((v.desk j).waits i && !answered) :=
    ⟨false, owes, by rw [waits, Bool.not_false, Bool.and_true]⟩
  cases step with
  | answer k p later r d inside oldest txn replies =>
    refine neither ((owes_work v k j d [.reply r] i).trans ?_).symm ?_
    · simp [Request.asks]
    · simp only [desk_work]
      split
      · rename_i here
        simp only [Desk.waits, replies.misses, here]
      · rfl
  | settle k q later x d sent head target clears =>
    exact ⟨_, owes_settled lawful head target clears j i, waits_settled clears j i⟩
  | defer k id a kind later head backed => exact neither (owes_deferred head j i) rfl
  | turn r later waits =>
    refine neither ?_ rfl
    simp only [Traffic.owes, waits, List.countP_append, List.countP_cons, List.countP_nil]
    omega
  | begin r before after waits free probed =>
    exact neither (owes_begun v r before after waits j i).symm rfl
  | alone r before after d sent waits free nobody clears =>
    refine ⟨(v.opened lay r).asks j i, ?_, ?_⟩
    · rw [← owes_begun v r before after waits j i]
      exact owes_closed (lawful.begun waits free) (by simp) clears.sends j i
    · exact waits_closed (v := v.begun lay r (before ++ after)) (t := v.opened lay r) clears j i
  | reply k r later t d head isOpen number frees more =>
    exact neither (owes_taken lawful head isOpen number j i) (waits_taken frees j i)
  | finish k r later t d e sent head isOpen number frees last clears =>
    have taken := mem_replied (v := v.rest k later) isOpen number k d
    refine ⟨(t.take r).asks j i, ?_, ?_⟩
    · rw [owes_taken lawful head isOpen number]
      exact owes_closed ((lawful.rest head).replied isOpen number) taken clears.sends j i
    · rw [← waits_taken frees j i]
      exact waits_closed (t := t.take r) clears j i
  | drop k r later head closed =>
    refine neither ?_ rfl
    refine (owes_rest head j i).trans ?_
    simp only [Request.asks, Bool.false_eq_true, and_false, if_false]
    rfl

/-- No reference waits for an answer that nobody was asked for. -/
def Answerable (v : Traffic) : Prop := ∀ k i, ((v.desk k).waits i).toNat ≤ v.owes k i

theorem Answerable.step (answerable : v.Answerable) (lawful : v.Lawful lay) (step : Step lay v w) :
    w.Answerable := by
  intro j i
  obtain ⟨answered, owes, waits⟩ := step.owes lawful j i
  have before := answerable j i
  rw [waits]
  cases answered with
  | false =>
    rw [owes] at before
    simpa using before
  | true => simp

theorem Answerable.poses (answerable : v.Answerable) (poses : (v.desk k).Poses d sent) :
    (v.work k d sent).Answerable := by
  intro j i
  rw [owes_work, desk_work]
  by_cases here : j = k
  · subst here
    rw [if_pos rfl, if_pos rfl]
    exact (poses.waits i).trans (Nat.add_le_add_right (answerable j i) _)
  · rw [if_neg here, if_neg here]
    exact answerable j i

end Traffic
end CacheCoherence
