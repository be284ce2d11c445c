import CacheCoherence.Proofs.Endings

namespace CacheCoherence.Pass

variable {lay : Layout} {s t : Pass} {now : Ledger} {k : Nat}

structure Moved (lay : Layout) (now : Ledger) (s t : Pass) : Prop where
  steady : Steady lay t
  linked : Linked t
  ends : ∃ v, Relation.ReflTransGen (View.Step lay) (s.view now) v ∧
    v.wants = (s.view now).wants ∧ v.value = now ∧ Ending lay now s v t

theorem Moved.of_path (steady : Steady lay t) (linked : Linked t)
    (path : Relation.ReflTransGen (View.Step lay) (s.view now) (t.view now))
    (wants : (t.view now).wants = (s.view now).wants) : Moved lay now s t := by
  have silent (k : Nat) (slot : Slot) (r : Reference) (data : Block) :
      ¬ Told s.fabric t.fabric k slot r data :=
    not_told (congrFun (congrFun wants k) slot)
  have values : now.after s .machine t = now :=
    after_silent steady fun k slot r data told => absurd told (silent k slot r data)
  refine ⟨steady, linked, t.view now, path, wants, rfl, .still ?_ silent⟩
  rw [values]

theorem Moved.of_view (steady : Steady lay t) (linked : Linked t)
    (same : t.view now = s.view now) : Moved lay now s t := by
  refine .of_path steady linked ?_ (by rw [same])
  rw [same]

section pop

variable {q : Request} {rest : List (Nat × Request)}

theorem queue_pop (next : s.taken = (k, q) :: rest) (j : Nat) :
    s.queue j = if j = k then q :: Pass.queue ⟨s.fabric, rest⟩ j
      else Pass.queue ⟨s.fabric, rest⟩ j := by
  simp only [queue, next]
  by_cases here : j = k
  · simp [here]
  · simp [here, Ne.symm here]

/-- The view once the hub has turned to a request that tells it something. -/
theorem view_pop (next : s.taken = (k, q) :: rest) (matters : q.matters) (now : Ledger) :
    (s.view now).queue k = q :: (Pass.view ⟨s.fabric, rest⟩ now).queue k ∧
    Pass.view ⟨s.fabric, rest⟩ now =
      (s.view now).rest k ((Pass.view ⟨s.fabric, rest⟩ now).queue k) := by
  constructor
  · simp only [view, queue_pop next, if_true, List.filter_cons_of_pos matters]
  · have queues : (fun j => if j = k then (Pass.view ⟨s.fabric, rest⟩ now).queue k
        else (s.view now).queue j) = (Pass.view ⟨s.fabric, rest⟩ now).queue := by
      funext j
      by_cases here : j = k
      · simp [here]
      · simp only [here, if_false, view, queue_pop next]
    rw [View.rest, queues]
    rfl

theorem view_skip (next : s.taken = (k, q) :: rest) (silent : q.matters = false) (now : Ledger) :
    Pass.view ⟨s.fabric, rest⟩ now = s.view now := by
  have queues : (fun j => (Pass.queue ⟨s.fabric, rest⟩ j).filter Request.matters) =
      fun j => (s.queue j).filter Request.matters := by
    funext j
    rw [queue_pop next]
    split
    · rw [List.filter_cons_of_neg (by simp [silent])]
    · rfl
  simp only [view, queues]
  rfl

theorem Steady.pop (steady : Steady lay s) (next : s.taken = (k, q) :: rest) :
    Steady lay ⟨s.fabric, rest⟩ := by
  refine ⟨steady.nodes, steady.sockets, steady.backed, steady.readNext, steady.good, steady.rings,
    steady.parked, steady.busy, ?_, ?_⟩
  · intro j r member
    refine steady.marked j r ?_
    rw [queue_pop next]
    split
    · exact List.mem_cons_of_mem _ member
    · exact member
  · intro x member
    refine steady.known x ?_
    rw [next]
    exact List.mem_cons_of_mem _ member

theorem Linked.pop (linked : Linked s) (next : s.taken = (k, q) :: rest)
    (other : ∀ (v : Victim) (i : Slot), v.request i ≠ q) : Linked ⟨s.fabric, rest⟩ := by
  intro j c present i v found drains aside
  have member := linked j c present i v found drains aside
  rw [queue_pop next] at member
  split at member
  · rcases List.mem_cons.mp member with same | later
    · exact absurd same (other v i)
    · exact later
  · exact member

end pop

theorem unmoved_of_taken {c d : Controller} {r : Reference} {m : Completion} {answer : Answer}
    {sent : List Request} (taken : Controller.Taken c r m d answer sent)
    (uncached : m.brings = none ∨ r.addr.isIo) (unowned : r.access.isUpgrade → (c.line r.addr).copy = none) :
    (∀ b, d.line b = c.line b) ∧ sent = [] ∧ (answer.data.isSome → r.addr.isIo) := by
  cases taken with
  | aside lines _ data =>
    refine ⟨lines, rfl, fun carries => ?_⟩
    rcases uncached with none_given | io
    · rw [data, none_given] at carries
      cases carries
    · exact io
  | owned upgrade data present _ _ =>
    rw [unowned upgrade] at present
    cases present
  | filled data delivered cacheable _ _ _ _ _ _ =>
    rcases uncached with none_given | io
    · rw [none_given] at delivered
      cases delivered
    · rw [cacheable] at io
      cases io

theorem Moved.of_aside {p : Pass} (slot : Slot) {r : Reference} {m : Completion}
    (steady : Steady lay p) (linked : Linked p) (wants : (p.view now).wants = (s.view now).wants)
    (waits : (p.view now).wants k slot = some r) (target : m.target = .request (.miss slot))
    (uncached : m.brings = none ∨ r.addr.isIo)
    (unowned : r.access.isUpgrade → ((p.view now).line k r.addr).copy = none)
    (shares : r.addr.isIo → r.access ≠ .claim)
    (step : View.Step lay (s.view now) ((p.view now).want k slot none)) :
    Moved lay now s { p with fabric := p.fabric.complete k m } := by
  obtain ⟨n, present, wanted⟩ := wanted_of_view waits
  have good : n.controller.Good := steady.good _ _ (controller?_eq present)
  obtain ⟨sent, answered⟩ := good.complete_wanted wanted target
  have result : { p with fabric := p.fabric.complete k m } =
      p.seat k { n with controller := (n.controller.complete m).2 } := by
    rw [steady.complete_eq present]
    rfl
  rw [result]
  generalize (n.controller.complete m).2 = d at answered
  obtain ⟨kept, tied⟩ := steady.answered present answered
  obtain ⟨answer, recorded, taken⟩ := answered.taken
  rw [view_line present] at unowned
  obtain ⟨lines, rfl, carries⟩ := unmoved_of_taken taken uncached unowned
  have shape (later : Ledger) : (p.seat k { n with controller := d }).view later =
      (p.view later).want k slot none := by
    rw [view_answered present answered, View.send_nil, View.reline_same]
    intro b
    have shown : (p.view later).line k b = n.controller.line b := view_line present b
    rw [lines]
    exact shown.symm
  have told (j : Nat) (i : Slot) (q : Reference) (data : Block)
      (told : Told s.fabric (p.seat k { n with controller := d }).fabric j i q data) :
      q.addr.isIo ∧ q.access ≠ .claim := by
    have before : (p.view now).wants j i = some q := by
      rw [wants]
      exact told.before
    by_cases here : j = k
    · subst here
      have after := told.after
      rw [controller?_seat present, if_pos rfl, Option.bind_some] at after
      by_cases same : slot = i
      · subst same
        rw [waits] at before
        cases before
        have io : r.addr.isIo := carries (by rw [← recorded, after]; rfl)
        exact ⟨io, shares io⟩
      · have still := answered.wanted i
        rw [if_neg same, ← view_wants present i, before] at still
        rw [Controller.told_of_wanted still] at after
        cases after
    · refine absurd told (not_told ?_)
      rw [controller?_seat present, if_neg here]
      exact congrFun (congrFun wants j) i
  have values : now.after s .machine (p.seat k { n with controller := d }) = now :=
    after_silent kept fun j i q data given => .inl (told j i q data given).2
  refine ⟨kept, tied linked, s.view now, .refl, rfl, rfl, .aside ?_ ?_⟩
  · rw [values, shape]
    exact step
  · intro j i q data given
    cases backed : lay.backed q.addr with
    | false => rfl
    | true =>
      have io := (told j i q data given).1
      rw [lay.cacheable _ backed] at io
      cases io

section route

variable {rest : List (Nat × Request)}

theorem owed_head (orderly : Orderly lay (s.view now)) {q : Request} {later : List Request}
    (head : (s.view now).queue k = q :: later) {d : Duty} (asks : q.duty? = some d) :
    ∃ slot r, d.id = .miss slot ∧ (s.view now).wants k slot = some r ∧ d.Fits r := by
  refine (orderly.agrees k).fits d ?_
  refine List.mem_append_left _ (List.mem_append_left _ ?_)
  rw [head, List.mem_filterMap]
  exact ⟨q, List.mem_cons_self .., asks⟩

theorem Steady.route_ioWrite (steady : Steady lay s) (linked : Linked s) {id : RequestId}
    {a : Address} {data : List UInt8} {mask : UInt8} {written : UInt64}
    (next : s.taken = (k, .ioWrite id a data mask written) :: rest) :
    Moved lay now s ⟨s.fabric.routeCounted k (.ioWrite id a data mask written), rest⟩ := by
  have inside : k < lay.cpus := steady.known (k, _) (by rw [next]; exact List.mem_cons_self ..)
  obtain ⟨slot, rfl⟩ : ∃ slot, id = .ioWrite slot := by
    refine steady.marked k (.ioWrite id a data mask written) ?_ id a data mask written rfl
    rw [queue_pop next, if_pos rfl]
    exact List.mem_cons_self ..
  have popped := steady.pop next
  have tied := linked.pop next (by intro v i same; cases same)
  have hub (counters : HubCounters) : Steady lay
      ⟨{ s.fabric with hub := { s.fabric.hub.writeIo a data written with counters } }, rest⟩ :=
    popped.of_hub rfl (fun _ => rfl) rfl rfl steady.busy
  obtain ⟨kept, still, view⟩ :=
    (hub { s.fabric.hub.counters with requests := s.fabric.hub.counters.requests + 1
                                      ioWrites := s.fabric.hub.counters.ioWrites + 1 }).complete_aside
      inside { target := .request (.ioWrite slot) } (by simp)
  refine .of_view kept (still tied) ?_
  rw [← view_skip next rfl]
  exact view now

theorem Steady.route_barrier (steady : Steady lay s) (linked : Linked s)
    (orderly : Orderly lay (s.view now)) {id : RequestId}
    (next : s.taken = (k, .barrier id) :: rest) :
    Moved lay now s ⟨s.fabric.routeCounted k (.barrier id), rest⟩ := by
  have popped := (steady.pop next).counted fun c => { c with requests := c.requests + 1 }
  have tied := linked.pop next (by intro v i same; cases same)
  obtain ⟨head, shape⟩ := view_pop next rfl now
  obtain ⟨slot, r, same, waits, fits⟩ := owed_head orderly head rfl
  simp only at same
  subst same
  have access : r.access = .barrier := fits
  refine Moved.of_aside (p := { fabric := s.fabric.count _, taken := rest }) slot popped tied rfl
    waits rfl (.inl rfl) ?_ ?_ ?_
  · intro upgrade
    rw [access] at upgrade
    cases upgrade
  · intro _
    rw [access]
    simp
  · have step : View.Step lay (s.view now) _ := .release (s.view now) k slot _ head
    rw [← shape] at step
    exact step

/-- The hub takes a victim into memory, if memory backs its block, and acknowledges it in any case. -/
theorem routeCounted_victim (f : Fabric) (k : Nat) (slot : Slot) (a : Address) (data : Block) :
    ∃ memory counters,
      f.routeCounted k (.victim slot a data) =
        Fabric.complete { f with hub := { f.hub with memory, counters } } k { target := .victim slot } ∧
      (∀ b, memory.contains b = f.hub.memory.contains b) ∧
      ∀ b, (memory.readBlock b).getD .zero =
        if f.hub.memory.contains a ∧ b.block = a.block then data
        else (f.hub.memory.readBlock b).getD .zero := by
  have outcome := Memory.writeBlock_fst f.hub.memory a data
  have kept := (Memory.contains_writeBlock f.hub.memory a · data)
  simp only [Fabric.routeCounted, Fabric.route, Fabric.routeVictim]
  cases backed : f.hub.memory.contains a with
  | false =>
    rw [backed] at outcome
    cases written : f.hub.memory.writeBlock a data with
    | mk done memory =>
      rw [written] at outcome
      cases outcome
      simp only [Fabric.count, written]
      exact ⟨f.hub.memory, _, rfl, fun _ => rfl, by simp⟩
  | true =>
    rw [backed] at outcome
    have read := (Memory.readBlock_writeBlock f.hub.memory backed · data)
    cases written : f.hub.memory.writeBlock a data with
    | mk done memory =>
      rw [written] at outcome kept read
      cases outcome
      simp only [Fabric.count, written]
      refine ⟨memory, _, rfl, kept, fun b => ?_⟩
      rw [read]
      by_cases same : b.block = a.block
      · simp [same]
      · simp [same]

theorem Steady.route_victim (steady : Steady lay s) (linked : Linked s)
    {slot : Slot} {a : Address} {data : Block} (next : s.taken = (k, .victim slot a data) :: rest) :
    Moved lay now s ⟨s.fabric.routeCounted k (.victim slot a data), rest⟩ := by
  have inside : k < lay.cpus := steady.known (k, _) (by rw [next]; exact List.mem_cons_self ..)
  have popped := steady.pop next
  obtain ⟨head, shape⟩ := view_pop next rfl now
  obtain ⟨memory, counters, routed, contains, read⟩ := routeCounted_victim s.fabric k slot a data
  have hub : Steady lay ⟨{ s.fabric with hub := { s.fabric.hub with memory, counters } }, rest⟩ :=
    popped.of_hub rfl contains rfl rfl steady.busy
  rw [routed]
  obtain ⟨kept, _, view⟩ := hub.complete_aside inside { target := .victim slot } (by simp)
  refine .of_path kept ?_ ?_ ?_
  · refine Linked.acknowledged (q := .victim slot a data) hub inside ?_ ?_
    · intro j c present i v found drains aside
      have member := linked j c present i v found drains aside
      rw [queue_pop next] at member
      split at member
      · rename_i here
        rcases List.mem_cons.mp member with same | later
        · exact .inr ⟨here, same⟩
        · exact .inl later
      · exact .inl member
    · intro v i same
      cases same
      rfl
  · refine .single ?_
    have step : View.Step lay (s.view now) _ := .settle (s.view now) k slot a data _ head
    rw [← shape] at step
    rw [view now]
    have cells : (fun b => (memory.readBlock b).getD .zero) = fun b =>
        if lay.backed a ∧ b.block = a.block then
          (some data).getD ((s.fabric.hub.memory.readBlock b).getD .zero)
        else (s.fabric.hub.memory.readBlock b).getD .zero := by
      funext b
      rw [read, steady.backed]
      rfl
    simp only [Pass.view, cells]
    exact step
  · rw [view now]
    rfl

def tookReply (f : Fabric) (r : ProbeReply) (u : Transaction) (counters : HubCounters) : Fabric :=
  { f with hub := { f.hub.modifyTransaction r.txn (fun _ => u.take r) with counters } }

theorem Steady.tookReply (steady : Steady lay s)
    (numbers : (s.fabric.hub.transactions.map (·.number)).Nodup) {r : ProbeReply} {u : Transaction}
    (isOpen : u ∈ s.fabric.hub.transactions) (number : u.number = r.txn)
    (counters : HubCounters) : Steady lay { s with fabric := Pass.tookReply s.fabric r u counters } := by
  refine steady.of_hub rfl (fun _ => rfl) rfl rfl fun a => ?_
  have parts := map_take numbers isOpen r number (·.addr) rfl
  have same : (∃ t ∈ s.fabric.hub.transactions.map fun w =>
      if w.number = r.txn then u.take r else w, t.addr = a.block) ↔
        ∃ t ∈ s.fabric.hub.transactions, t.addr = a.block := by
    rw [← List.mem_map, parts, List.mem_map]
  exact (steady.busy a).trans same.symm

def freeVictim (f : Fabric) (cpu : Nat) : Option Slot → Fabric
  | some slot => f.complete cpu { target := .victim slot }
  | none => f

theorem Steady.freeVictim (now : Ledger) (steady : Steady lay s) (linked : Linked s) (inside : k < lay.cpus)
    (victim : Option Slot) :
    Steady lay { s with fabric := Pass.freeVictim s.fabric k victim } ∧
    Linked { s with fabric := Pass.freeVictim s.fabric k victim } ∧
    Pass.view { s with fabric := Pass.freeVictim s.fabric k victim } now = s.view now := by
  cases victim with
  | none => exact ⟨steady, linked, rfl⟩
  | some slot =>
    obtain ⟨kept, tied, view⟩ := steady.complete_aside inside { target := .victim slot } (by simp)
    exact ⟨kept, tied linked, view now⟩

theorem routeReply_none (f : Fabric) (k : Nat) {r : ProbeReply} (gone : f.hub.transaction? r.txn = none) :
    f.routeReply k r = f.count fun c => { c with probeReplies := c.probeReplies + 1 } := by
  have missing : (f.count fun c => { c with probeReplies := c.probeReplies + 1 }).hub.transaction?
      r.txn = none := gone
  simp only [Fabric.routeReply, missing]

theorem routeReply_some (f : Fabric) (k : Nat) {r : ProbeReply} {u : Transaction}
    (found : f.hub.transaction? r.txn = some u) :
    ∃ counters : HubCounters,
      (f.routeReply k r =
        if (u.take r).pending = 0 then (freeVictim (tookReply f r u counters) k r.victim).finish r.txn
        else freeVictim (tookReply f r u counters) k r.victim) ∧
      counters.probesSent = f.hub.counters.probesSent ∧
      counters.probeReplies = f.hub.counters.probeReplies + 1 ∧
      counters.transactions = f.hub.counters.transactions := by
  simp only [Fabric.routeReply]
  rw [show Hub.transaction? (Fabric.count f _).hub r.txn = some u from found]
  cases r.victim with
  | none => exact ⟨_, rfl, rfl, rfl, rfl⟩
  | some slot => exact ⟨_, rfl, rfl, rfl, rfl⟩

theorem Steady.route_reply (steady : Steady lay s) (linked : Linked s)
    (orderly : Orderly lay (s.view now)) {r : ProbeReply} (next : s.taken = (k, .reply r) :: rest) :
    Moved lay now s ⟨s.fabric.routeCounted k (.reply r), rest⟩ := by
  have inside : k < lay.cpus := steady.known (k, _) (by rw [next]; exact List.mem_cons_self ..)
  have popped := steady.pop next
  have tied := linked.pop next (by intro v i same; cases same)
  obtain ⟨head, shape⟩ := view_pop next rfl now
  simp only [Fabric.routeCounted, Fabric.route]
  cases found : s.fabric.hub.transactions.find? (·.number == r.txn) with
  | none =>
    have missing : ∀ t ∈ (s.view now).txns, t.number ≠ r.txn := by
      intro t member same
      rw [List.find?_eq_none] at found
      exact found t member (by simpa using same)
    rw [routeReply_none (s.fabric.count fun c => { c with requests := c.requests + 1 }) k (r := r) found]
    refine .of_path (popped.of_hub rfl (fun _ => rfl) rfl rfl steady.busy) tied ?_ rfl
    have step : View.Step lay (s.view now) _ := .drop (s.view now) k r _ head missing
    rw [← shape] at step
    exact .single step
  | some u =>
    have isOpen := List.mem_of_find?_eq_some found
    have number : u.number = r.txn := by simpa using List.find?_some found
    have step : View.Step lay (s.view now) _ := .take (s.view now) k r _ u head isOpen number
    have orderly_taken := orderly.step step
    obtain ⟨counters, routed, _⟩ := routeReply_some
      (s.fabric.count fun c => { c with requests := c.requests + 1 }) k (r := r) found
    have took := (popped.tookReply orderly.numbers isOpen number counters).freeVictim now tied inside
      r.victim
    have landing : Pass.view ⟨Pass.tookReply s.fabric r u counters, rest⟩ now =
        { Pass.view ⟨s.fabric, rest⟩ now with
          txns := (s.view now).txns.map fun w => if w.number = r.txn then u.take r else w } := rfl
    have present : u.take r ∈
        (s.view now).txns.map fun w => if w.number = r.txn then u.take r else w :=
      List.mem_map.mpr ⟨u, isOpen, if_pos number⟩
    rw [routed]
    change Steady lay ⟨Pass.freeVictim (Pass.tookReply s.fabric r u counters) k r.victim, rest⟩ ∧
      Linked ⟨Pass.freeVictim (Pass.tookReply s.fabric r u counters) k r.victim, rest⟩ ∧ _ at took
    change Moved lay now s
      ⟨if (u.take r).pending = 0 then
        (Pass.freeVictim (Pass.tookReply s.fabric r u counters) k r.victim).finish r.txn
      else Pass.freeVictim (Pass.tookReply s.fabric r u counters) k r.victim, rest⟩
    generalize Pass.freeVictim (Pass.tookReply s.fabric r u counters) k r.victim = g at took ⊢
    obtain ⟨kept, bound, view⟩ := took
    have seen := view.trans landing
    have path : View.Step lay (s.view now) (Pass.view ⟨g, rest⟩ now) := by
      rw [seen, shape]
      exact step
    have wants : (Pass.view ⟨g, rest⟩ now).wants = (s.view now).wants := by
      rw [seen]
      rfl
    have txns : g.hub.transactions =
        (s.view now).txns.map fun w => if w.number = r.txn then u.take r else w :=
      congrArg View.txns seen
    split
    · rename_i done
      rw [← txns] at present
      obtain ⟨ended, still, ending⟩ := kept.finish s (orderly.step path)
        (fun j i => congrFun (congrFun wants j) i) present done
      have same : (u.take r).number = r.txn := number
      rw [same] at ended still ending
      refine ⟨ended, still bound, Pass.view ⟨g, rest⟩ now, .single path, wants, ?_, ending⟩
      rfl
    · exact .of_path kept bound (.single path) wants

end route

def opening (lay : Layout) (f : Fabric) (r : DeferredRead) : Fabric :=
  { f with hub := f.hub.openTransaction r.cpu r.id r.addr r.kind (lay.others r.cpu).length }

def began (lay : Layout) (f : Fabric) (r : DeferredRead) : Fabric :=
  (lay.others r.cpu).foldl
    (fun g k => g.sendProbe k (.ofCommand f.hub.nextNumber r.addr.block (lay.command r.kind)))
    (opening lay f r)

theorem Steady.probeCommand (steady : Steady lay s) (kind : ReadKind) :
    s.fabric.hub.probeCommand kind = lay.command kind := by
  cases kind <;> simp only [Hub.probeCommand, Layout.command, steady.readNext]

theorem Steady.openRead (steady : Steady lay s) (r : DeferredRead) :
    Alike { s with fabric := opening lay s.fabric r } ⟨began lay s.fabric r, s.taken⟩ ∧
    Steady lay ⟨began lay s.fabric r, s.taken⟩ ∧
    (∀ j, Pass.coming ⟨began lay s.fabric r, s.taken⟩ j =
      if j ∈ lay.others r.cpu then
        s.coming j ++ [.ofCommand s.fabric.hub.nextNumber r.addr.block (lay.command r.kind)]
      else s.coming j) ∧
    s.fabric.openRead r =
      if (lay.others r.cpu).isEmpty then (began lay s.fabric r).finish s.fabric.hub.nextNumber
      else began lay s.fabric r := by
  have others : s.fabric.others r.cpu = lay.others r.cpu := by
    rw [Fabric.others, Layout.others, steady.sockets, List.length_range]
  have opened : Steady lay { s with fabric := opening lay s.fabric r } := by
    refine steady.of_hub rfl (fun _ => rfl) rfl rfl fun a => ?_
    have before := steady.busy a
    simp only [Hub.isBusy, Hub.openTransaction, Sparse.get?_set, Address.toNat_inj] at before ⊢
    by_cases same : r.addr.block = a.block
    · simp [same]
    · rw [if_neg same, before]
      simp [same]
  obtain ⟨alike, kept, coming⟩ := opened.sendProbes (lay.others r.cpu) (lay.others_nodup r.cpu)
    (.ofCommand s.fabric.hub.nextNumber r.addr.block (lay.command r.kind))
    fun k member => ((lay.mem_others r.cpu k).mp member).1
  refine ⟨alike, kept, coming, ?_⟩
  simp only [Fabric.openRead, others, steady.probeCommand]
  split
  · rename_i empty
    rw [List.isEmpty_iff] at empty
    rw [began, empty]
    simp only [opening, empty]
    rfl
  · rfl

theorem Steady.view_began (steady : Steady lay s) (r : DeferredRead) (now : Ledger) :
    Pass.view ⟨began lay s.fabric r, s.taken⟩ now =
      (s.view now).begun lay r s.fabric.hub.deferred := by
  obtain ⟨alike, _, coming, _⟩ := steady.openRead r
  rw [alike.view, funext coming]
  simp only [Pass.view, View.begun, View.opened, opening, Hub.openTransaction, steady.probeCommand]
  rfl

theorem Moved.of_begin {p : Pass} (steady : Steady lay p) (linked : Linked p) {v : View}
    (path : Relation.ReflTransGen (View.Step lay) (s.view now) v) (orderly : Orderly lay v)
    (wants : v.wants = (s.view now).wants) (r : DeferredRead)
    (before after : List DeferredRead) (waits : v.deferred = before ++ r :: after)
    (shape : p.view now = { v with deferred := before ++ after }) (backed : lay.backed r.addr)
    (free : p.fabric.hub.isBusy r.addr = false) : Moved lay now s ⟨p.fabric.openRead r, p.taken⟩ := by
  obtain ⟨alike, kept, _, result⟩ := steady.openRead r
  have view := steady.view_began r now
  have tied : Linked ⟨began lay p.fabric r, p.taken⟩ := alike.linked linked
  generalize began lay p.fabric r = g at kept view tied result
  have txns : p.fabric.hub.transactions = v.txns := congrArg View.txns shape
  have deferred : p.fabric.hub.deferred = before ++ after := congrArg View.deferred shape
  have next : p.fabric.hub.nextNumber = v.next := congrArg View.next shape
  have apart : ∀ t ∈ v.txns, t.addr ≠ r.addr.block := by
    rw [← txns]
    exact steady.apart free
  have step := View.Step.begin v r before after waits apart backed
  have seen : Pass.view ⟨g, p.taken⟩ now = v.begun lay r (before ++ after) := by
    rw [view, deferred, shape]
    rfl
  rw [← seen] at step
  have same_wants : (Pass.view ⟨g, p.taken⟩ now).wants = (s.view now).wants := by
    rw [seen]
    exact wants
  rw [result]
  split
  · rename_i alone
    have present : v.opened lay r ∈ g.hub.transactions := by
      have all : g.hub.transactions = v.txns ++ [v.opened lay r] := congrArg View.txns seen
      rw [all]
      simp
    have done : (v.opened lay r).pending = 0 := by
      rw [List.isEmpty_iff] at alone
      simp [View.opened, alone]
    obtain ⟨ended, still, ending⟩ := kept.finish s (orderly.step step)
      (fun j i => congrFun (congrFun same_wants j) i) present done
    have number : (v.opened lay r).number = p.fabric.hub.nextNumber := next.symm
    rw [number] at ended still ending
    exact ⟨ended, still tied, _, path.tail step, same_wants, rfl, ending⟩
  · exact .of_path kept tied (path.tail step) same_wants

theorem Steady.route_read (steady : Steady lay s) (linked : Linked s)
    (orderly : Orderly lay (s.view now)) {id : RequestId} {a : Address} {kind : ReadKind}
    {rest : List (Nat × Request)} (next : s.taken = (k, .read id a kind) :: rest) :
    Moved lay now s ⟨s.fabric.routeCounted k (.read id a kind), rest⟩ := by
  have popped := steady.pop next
  have tied := linked.pop next (by intro v i same; cases same)
  obtain ⟨head, shape⟩ := view_pop next rfl now
  obtain ⟨slot, r, same, waits, about, reads, shares⟩ := owed_head orderly head rfl
  simp only at same
  subst same
  have io : r.addr.isIo = a.isIo := by rw [← Memory.isIo_block r.addr, about, Memory.isIo_block]
  have backing : lay.backed r.addr = lay.backed a := lay.even _ _ about
  have bypass (unbacked : lay.backed a = false) :
      View.Step lay (s.view now) ((Pass.view ⟨s.fabric, rest⟩ now).want k slot none) := by
    have step : View.Step lay (s.view now) _ := .bypass (s.view now) k slot a kind _ head unbacked
    rwa [← shape] at step
  have claims (io : r.addr.isIo) : r.access ≠ .claim := by
    intro claim
    rw [claim, shares io] at reads
    cases reads
  simp only [Fabric.routeCounted, Fabric.route, Fabric.routeRead]
  have counted (change : HubCounters → HubCounters) := popped.counted change
  split
  · rename_i io_space
    have unbacked : lay.backed a = false := by
      cases backed : lay.backed a with
      | false => rfl
      | true =>
        rw [lay.cacheable a backed] at io_space
        cases io_space
    refine Moved.of_aside (p := ⟨s.fabric.count _, rest⟩) slot (counted _) tied rfl waits rfl
      (.inr (by rw [io, io_space])) ?_ claims (bypass unbacked)
    intro upgrade
    have share := shares (by rw [io, io_space])
    rw [share, Access.readKind_upgrade upgrade] at reads
    cases reads
  · split
    · rename_i backed
      have backed : lay.backed a := by
        rw [← steady.backed]
        exact backed
      have put_off : View.Step lay (s.view now) _ :=
        .defer (s.view now) k (.miss slot) a kind _ head backed
      rw [← shape] at put_off
      split
      · refine .of_path (popped.of_hub rfl (fun _ => rfl) rfl rfl steady.busy) tied (.single ?_) rfl
        exact put_off
      · rename_i free
        rw [Bool.not_eq_true] at free
        refine Moved.of_begin (p := ⟨s.fabric.count _, rest⟩) (counted _) tied (.single put_off)
          (orderly.step put_off) rfl ⟨k, .miss slot, a, kind⟩ s.fabric.hub.deferred [] rfl ?_ backed free
        rw [List.append_nil]
        rfl
    · rename_i unbacked
      have unbacked : lay.backed a = false := by
        rw [← steady.backed]
        exact Bool.eq_false_of_not_eq_true unbacked
      refine Moved.of_aside (p := ⟨(s.fabric.count _).count _, rest⟩) slot
        (popped.of_hub rfl (fun _ => rfl) rfl rfl steady.busy) tied rfl waits rfl (.inl rfl) ?_ claims
        (bypass unbacked)
      intro _
      cases copy : ((s.view now).line k r.addr).copy with
      | none => exact copy
      | some data =>
        have backed := orderly.lines k r.addr (by rw [copy]; rfl)
        rw [backing, unbacked] at backed
        cases backed

theorem view_replied {n : Node} {d : Controller} {reply : ProbeReply} {later : List Probe}
    (present : s.fabric.nodes[k]? = some n)
    (outbound : d.outbound = n.controller.outbound ++ [.reply reply])
    (wanted : ∀ slot, d.wanted slot = n.controller.wanted slot)
    (rest : n.probes.pop.2.contents = later) :
    (s.seat k { n with controller := d, probes := n.probes.pop.2 }).view now =
      { ((s.view now).reline k d.line).send k [.reply reply] with
        probes := fun j => if j = k then later ++ s.parkedFor k else (s.view now).probes j } := by
  have probes : Pass.coming (s.seat k { n with controller := d, probes := n.probes.pop.2 }) =
      fun j => if j = k then later ++ s.parkedFor k else (s.view now).probes j := by
    funext j
    rw [coming_seat present]
    split
    · rename_i here
      rw [here, rest]
    · rfl
  rw [view_seat_ring (m := { n with controller := d, probes := n.probes.pop.2 }) present outbound,
    probes, View.rewant_same]
  · rfl
  · intro slot
    exact (wanted slot).trans (view_wants present slot).symm

theorem Steady.answer (steady : Steady lay s) (linked : Linked s) (orderly : Orderly lay (s.view now))
    {n : Node} {p : Probe} (present : s.fabric.nodes[k]? = some n) (oldest : n.probes.front = some p) :
    Moved lay now s (s.seat k (n.answerOne p)) := by
  have good : n.controller.Good := steady.good _ _ (controller?_eq present)
  have formed := steady.rings k n present
  obtain ⟨later, contents⟩ := formed.oldest oldest
  have coming : (s.view now).probes k = p :: (later ++ s.parkedFor k) := by
    simp [view, Pass.coming, present, contents]
  obtain ⟨_, _, ⟨kind, command⟩, _⟩ :=
    orderly.probes k p (by rw [coming]; exact List.mem_cons_self ..)
  have usual : p.command.Usual := by
    rw [command]
    exact lay.usual kind
  unfold Node.answerOne
  rcases good.handleProbe usual with ⟨⟨fault, refused, full⟩, quiet⟩ | ⟨reply, answered, snooped⟩
  · cases outcome : n.controller.handleProbe p with
    | mk result d =>
      rw [outcome] at refused quiet
      cases refused
      simp only [full, if_true]
      have outbound : d.outbound = n.controller.outbound ++ [] := by
        rw [quiet.outbound, List.append_nil]
      refine .of_view ?_ ?_ (view_quiet present quiet rfl)
      · exact steady.seat present outbound quiet.good formed (by simp)
      · exact linked.seat present outbound fun i v found drains aside =>
          .inl (quiet.carried i v found drains aside)
  · cases outcome : n.controller.handleProbe p with
    | mk result d =>
      rw [outcome] at answered snooped
      cases answered
      simp only
      obtain ⟨popped, rest⟩ := formed.pop contents
      have marked : ∀ q ∈ [Request.reply reply], q.Marked := by simp [Request.Marked]
      refine .of_path (steady.seat present snooped.outbound snooped.good popped marked) ?_ ?_ ?_
      · exact linked.seat present snooped.outbound fun i v found drains aside =>
          .inl (snooped.carried i v found drains aside)
      · refine .single ?_
        have line (b : Address) : (s.view now).line k b = n.controller.line b := view_line present b
        have step : View.Step lay (s.view now) _ := .snoop (s.view now) k p (later ++ s.parkedFor k) reply
          d.line (blockwise d) coming snooped.txn snooped.addr
          (fun b apart => by rw [line]; exact snooped.others b apart)
          (by rw [line]; exact snooped.line)
          (by rw [line]; exact snooped.held)
          (fun absent => by
            rw [line] at absent
            rcases snooped.missed absent with none_carried | ⟨i, v, found, drains, aside, addr, data⟩
            · exact .inl none_carried
            · refine .inr ⟨i, v.data, ?_, data⟩
              have member := linked k _ (controller?_eq present) i v found drains aside
              rw [Victim.request, addr] at member
              exact List.mem_filter.mpr ⟨member, rfl⟩)
        rw [view_replied present snooped.outbound snooped.wanted rest]
        exact step
      · funext j slot
        simp only [view, controller?_seat present]
        split
        · rename_i here
          rw [here, controller?_eq present]
          exact snooped.wanted slot
        · rfl

theorem queue_emptied (empty : s.taken = []) {n m : Node} (present : s.fabric.nodes[k]? = some n)
    (silent : m.controller.outbound = []) (j : Nat) :
    Pass.queue ⟨(s.seat k m).fabric, n.controller.outbound.map (k, ·)⟩ j = s.queue j := by
  simp only [queue, controller?_seat present, empty]
  by_cases here : j = k
  · subst here
    have all : (n.controller.outbound.map (j, ·)).filter (·.1 == j) =
        n.controller.outbound.map (j, ·) := by
      rw [List.filter_eq_self]
      intro x member
      obtain ⟨q, _, rfl⟩ := List.mem_map.mp member
      simp
    simp [controller?_eq present, all, silent, List.map_map, Function.comp_def]
  · have none_left : (n.controller.outbound.map (k, ·)).filter (·.1 == j) = [] := by
      rw [List.filter_eq_nil_iff]
      intro x member
      obtain ⟨q, _, rfl⟩ := List.mem_map.mp member
      simpa using Ne.symm here
    simp [here, none_left]

theorem Steady.of_emptied (steady : Steady lay s) (empty : s.taken = []) {n m : Node}
    (present : s.fabric.nodes[k]? = some n) (ring : m.probes = n.probes)
    (silent : m.controller.outbound = []) (good : m.controller.Good) :
    Steady lay ⟨(s.seat k m).fabric, n.controller.outbound.map (k, ·)⟩ := by
  refine ⟨(List.length_set ..).trans steady.nodes, steady.sockets, steady.backed, steady.readNext,
    ?_, ?_, steady.parked, steady.busy, ?_, ?_⟩
  · intro j c at_j
    rw [controller?_seat present] at at_j
    split at at_j
    · cases at_j
      exact good
    · exact steady.good j c at_j
  · intro j p at_j
    rw [node_seat present] at at_j
    split at at_j
    · cases at_j
      rw [ring]
      exact steady.rings k n present
    · exact steady.rings j p at_j
  · intro j q member
    rw [queue_emptied empty present silent] at member
    exact steady.marked j q member
  · intro x member
    obtain ⟨q, _, rfl⟩ := List.mem_map.mp member
    exact steady.inside present

theorem Steady.emptied (steady : Steady lay s) (linked : Linked s) (empty : s.taken = [])
    {n m : Node} (present : s.fabric.nodes[k]? = some n) (ring : m.probes = n.probes)
    (silent : m.controller.outbound = []) (misses : m.controller.misses = n.controller.misses)
    (victims : m.controller.victims = n.controller.victims)
    (tags : m.controller.tags = n.controller.tags) (cache : m.controller.cache = n.controller.cache) :
    Moved lay now s ⟨(s.seat k m).fabric, n.controller.outbound.map (k, ·)⟩ := by
  have good : n.controller.Good := steady.good _ _ (controller?_eq present)
  have controllers (j : Nat) := controller?_seat present m j
  have queues := queue_emptied empty present silent
  refine .of_view (steady.of_emptied empty present ring silent (good.of_eq tags cache victims)) ?_ ?_
  · intro j c at_j i v found drains aside
    rw [controllers] at at_j
    rw [queues]
    split at at_j
    · rename_i here
      cases at_j
      rw [victims] at found
      rw [here]
      exact linked k _ (controller?_eq present) i v found drains aside
    · exact linked j c at_j i v found drains aside
  · have lines : (fun j a => (((s.seat k m).fabric.controller? j).map (·.line a)).getD .absent) =
        (s.view now).line := by
      funext j a
      rw [controllers]
      split
      · rename_i here
        rw [here, view_line present]
        exact Controller.line_of_eq tags cache a
      · rfl
    have wants : (fun j i => ((s.seat k m).fabric.controller? j).bind (·.wanted i)) =
        (s.view now).wants := by
      funext j i
      rw [controllers]
      split
      · rename_i here
        rw [here, view_wants present]
        exact Controller.wanted_of_misses misses i
      · rfl
    have queued : (fun j => (Pass.queue
          ⟨(s.seat k m).fabric, n.controller.outbound.map (k, ·)⟩ j).filter Request.matters) =
        (s.view now).queue := by
      funext j
      rw [queues]
      rfl
    have probes : (s.seat k m).coming = (s.view now).probes := by
      funext j
      rw [coming_seat present]
      split
      · rename_i here
        rw [here, ring]
        simp [view, coming, present]
      · rfl
    have shape (v : View) : v = ⟨v.line, v.wants, v.queue, v.probes, v.txns, v.deferred, v.memory,
        v.next, v.value⟩ := rfl
    rw [shape (s.view now), ← lines, ← wants, ← queued, ← probes]
    rfl

theorem Steady.take (steady : Steady lay s) (linked : Linked s) (empty : s.taken = []) (k : Nat) :
    Moved lay now s ⟨(s.fabric.takeRequests k).2, (s.fabric.takeRequests k).1.map (k, ·)⟩ := by
  unfold Fabric.takeRequests
  by_cases inside : k < lay.cpus
  · obtain ⟨n, present⟩ := steady.node inside
    rw [steady.socket, if_pos inside]
    simp only [present]
    exact steady.emptied linked empty present rfl rfl rfl rfl rfl rfl
  · rw [steady.socket, if_neg inside]
    have same : (⟨s.fabric, [].map (k, ·)⟩ : Pass) = s := by
      rw [List.map_nil, ← empty]
    simp only [same]
    exact .of_view steady linked rfl

theorem Steady.retry (steady : Steady lay s) (linked : Linked s) (orderly : Orderly lay (s.view now))
    {r : DeferredRead} {later : List DeferredRead} (waits : s.fabric.hub.deferred = r :: later) :
    Moved lay now s { s with
      fabric := { s.fabric with hub := { s.fabric.hub with deferred := later } }.routeRead r } := by
  have backed : lay.backed r.addr := by
    refine orderly.deferred r ?_
    change r ∈ s.fabric.hub.deferred
    rw [waits]
    exact List.mem_cons_self ..
  have io := lay.cacheable r.addr backed
  have contains : s.fabric.hub.memory.contains r.addr := by
    rw [steady.backed]
    exact backed
  simp only [Fabric.routeRead, io, contains, if_true]
  rw [if_neg (by simp)]
  split
  · refine .of_path (steady.of_hub rfl (fun _ => rfl) rfl rfl steady.busy) linked (.single ?_) rfl
    exact View.Step.turn (s.view now) r later waits
  · rename_i free
    rw [Bool.not_eq_true] at free
    refine Moved.of_begin
      (p := { s with fabric := { s.fabric with hub := { s.fabric.hub with deferred := later } } })
      (steady.of_hub rfl (fun _ => rfl) rfl rfl steady.busy) linked .refl orderly rfl r [] later
      waits rfl backed free

theorem Steady.machine (now : Ledger) (steady : Steady lay s) (linked : Linked s) (orderly : Orderly lay (s.view now))
    (step : s.Step .machine t) : Moved lay now s t := by
  cases step with
  | answer cpu n p present oldest => exact steady.answer linked orderly present oldest
  | lower cpu n present =>
    have outbound : n.controller.outbound = n.controller.outbound ++ [] := by simp
    have good : n.controller.Good := steady.good _ _ (controller?_eq present)
    refine .of_view (t := s.seat cpu { n with interrupt := false }) ?_ ?_ ?_
    · exact steady.seat present outbound good (steady.rings cpu n present) (by simp)
    · exact linked.seat present outbound fun i v found _ _ => .inl found
    · exact view_quiet present (good.quiet rfl rfl rfl rfl fun _ => rfl) rfl
  | ring => exact .of_view steady.rung linked rfl
  | resend =>
    obtain ⟨alike, kept, coming⟩ := steady.retryParked
    refine .of_view kept (alike.linked linked) ?_
    rw [alike.view, coming]
    rfl
  | take cpu empty => exact steady.take linked empty cpu
  | route cpu q rest next =>
    cases q with
    | read id a kind => exact steady.route_read linked orderly next
    | ioWrite id a data mask written => exact steady.route_ioWrite linked next
    | victim slot a data => exact steady.route_victim linked next
    | reply r => exact steady.route_reply linked orderly next
    | barrier id => exact steady.route_barrier linked orderly next
  | turn r rest next =>
    refine .of_path (steady.of_hub rfl (fun _ => rfl) rfl rfl steady.busy) linked (.single ?_) rfl
    exact View.Step.turn (s.view now) r rest next
  | retry r rest next => exact steady.retry linked orderly next

end CacheCoherence.Pass
