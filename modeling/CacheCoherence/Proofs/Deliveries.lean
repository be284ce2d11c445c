import CacheCoherence.Proofs.Passes

namespace CacheCoherence.Pass

variable {lay : Layout} {s t : Pass} {now : Ledger} {k : Nat} {n : Node}

theorem Steady.complete_eq (steady : Steady lay s) (present : s.fabric.nodes[k]? = some n)
    (m : Completion) :
    s.fabric.complete k m =
      (s.seat k { n with controller := (n.controller.complete m).2 }).fabric := by
  have socket := steady.socket k
  rw [if_pos (steady.inside present)] at socket
  simp only [Fabric.complete, Fabric.deliver, socket, present, Node.deliver]
  rfl

structure Wired (cpus : Nat) (s : Pass) : Prop where
  nodes : s.fabric.nodes.length = cpus
  sockets : s.fabric.hub.sockets = List.range cpus
  rings : ∀ (k : Nat) (n : Node), s.fabric.nodes[k]? = some n → n.probes.WellFormed
  parked : ∀ p ∈ s.fabric.hub.signal.parked, p.cpu < cpus

theorem Steady.wired (steady : Steady lay s) : Wired lay.cpus s :=
  ⟨steady.nodes, steady.sockets, steady.rings, steady.parked⟩

/-- Two passes that differ at most in where probes are on their way, and in what is counted. -/
structure Alike (s t : Pass) : Prop where
  taken : t.taken = s.taken
  hub : t.fabric.hub =
    { s.fabric.hub with signal := t.fabric.hub.signal, counters := t.fabric.hub.counters }
  nodes : t.fabric.nodes.length = s.fabric.nodes.length
  controllers : ∀ k, t.fabric.controller? k = s.fabric.controller? k

namespace Alike

theorem refl (s : Pass) : Alike s s := ⟨rfl, rfl, rfl, fun _ => rfl⟩

theorem trans {u : Pass} (first : Alike s t) (second : Alike t u) : Alike s u := by
  constructor
  · rw [second.taken, first.taken]
  · rw [second.hub, first.hub]
  · rw [second.nodes, first.nodes]
  · intro k
    rw [second.controllers, first.controllers]

theorem queue (alike : Alike s t) (k : Nat) : t.queue k = s.queue k := by
  rw [Pass.queue, Pass.queue, alike.taken, alike.controllers]

theorem view (alike : Alike s t) : t.view now = { s.view now with probes := t.coming } := by
  have queues : (fun k => (t.queue k).filter Request.matters) =
      fun k => (s.queue k).filter Request.matters := by
    funext k
    rw [alike.queue]
  have controllers : t.fabric.controller? = s.fabric.controller? := funext alike.controllers
  rw [Pass.view, Pass.view, queues, controllers, alike.hub]

theorem steady (alike : Alike s t) (steady : Steady lay s) (wired : Wired lay.cpus t) :
    Steady lay t := by
  refine ⟨wired.nodes, wired.sockets, ?_, ?_, ?_, wired.rings, wired.parked, ?_, ?_, ?_⟩
  · rw [alike.hub]
    exact steady.backed
  · rw [alike.hub]
    exact steady.readNext
  · intro k c present
    rw [alike.controllers] at present
    exact steady.good k c present
  · rw [alike.hub]
    exact steady.busy
  · intro k q member
    rw [alike.queue] at member
    exact steady.marked k q member
  · rw [alike.taken]
    exact steady.known

theorem linked (alike : Alike s t) (linked : Linked s) : Linked t := by
  intro k c present
  rw [alike.controllers] at present
  rw [alike.queue]
  exact linked k c present

end Alike

structure Carried (cpus : Nat) (s t : Pass) (k : Nat) (sent : List Probe) : Prop where
  alike : Alike s t
  wired : Wired cpus t
  coming : ∀ j, t.coming j = if j = k then s.coming j ++ sent else s.coming j

theorem parkedFor_nil (free : s.fabric.hub.signal.hasParked k = false) : s.parkedFor k = [] := by
  have none_left : s.fabric.hub.signal.parked.filter (·.cpu == k) = [] := by
    rw [List.filter_eq_nil_iff]
    rw [Signal.hasParked, List.any_eq_false] at free
    exact free
  rw [parkedFor, none_left]
  rfl

theorem seat_same (present : s.fabric.nodes[k]? = some n) : s.seat k n = s := by
  obtain ⟨inside, rfl⟩ := List.getElem?_eq_some_iff.mp present
  rw [seat, List.set_getElem_self inside]

theorem Steady.counted (steady : Steady lay s) (change : HubCounters → HubCounters) :
    Steady lay { s with fabric := s.fabric.count change } :=
  ⟨steady.nodes, steady.sockets, steady.backed, steady.readNext, steady.good, steady.rings,
    steady.parked, steady.busy, steady.marked, steady.known⟩

theorem Carried.of_counted {cpus : Nat} {change : HubCounters → HubCounters} {sent : List Probe}
    (carried : Carried cpus { s with fabric := s.fabric.count change } t k sent) :
    Carried cpus s t k sent :=
  ⟨⟨carried.alike.taken, carried.alike.hub, carried.alike.nodes, carried.alike.controllers⟩,
    carried.wired, carried.coming⟩

theorem parkedFor_park (change : HubCounters → HubCounters) (p : Probe) {j : Nat} (apart : j ≠ k) :
    Pass.parkedFor { s with fabric := (s.fabric.count change).parkAgain k p } j = s.parkedFor j := by
  simp [parkedFor, Fabric.parkAgain, Fabric.count, Signal.park, Ne.symm apart]

namespace Wired

variable {cpus : Nat}

theorem counted (wired : Wired cpus s) (change : HubCounters → HubCounters) :
    Wired cpus { s with fabric := s.fabric.count change } :=
  ⟨wired.nodes, wired.sockets, wired.rings, wired.parked⟩

theorem node (wired : Wired cpus s) (inside : k < cpus) : ∃ n, s.fabric.nodes[k]? = some n := by
  rw [← wired.nodes] at inside
  exact ⟨_, List.getElem?_eq_getElem inside⟩

theorem inside (wired : Wired cpus s) (present : s.fabric.nodes[k]? = some n) : k < cpus := by
  obtain ⟨inside, _⟩ := List.getElem?_eq_some_iff.mp present
  rwa [wired.nodes] at inside

theorem seat (wired : Wired cpus s) (present : s.fabric.nodes[k]? = some n) {m : Node}
    (ring : m.probes.WellFormed) : Wired cpus (s.seat k m) := by
  refine ⟨(List.length_set ..).trans wired.nodes, wired.sockets, ?_, wired.parked⟩
  intro j p at_j
  rw [node_seat present] at at_j
  split at at_j
  · cases at_j
    exact ring
  · exact wired.rings j p at_j

theorem park (wired : Wired cpus s) (inside : k < cpus) (p : Probe)
    (change : HubCounters → HubCounters) :
    Carried cpus s { s with fabric := (s.fabric.count change).parkAgain k p } k [p] := by
  refine ⟨⟨rfl, rfl, rfl, fun _ => rfl⟩, ⟨wired.nodes, wired.sockets, wired.rings, ?_⟩, ?_⟩
  · intro q member
    rcases List.mem_append.mp member with old | new
    · exact wired.parked q old
    · rw [List.mem_singleton.mp new]
      exact inside
  · intro j
    simp only [coming, parkedFor, Fabric.parkAgain, Fabric.count, Signal.park, List.filter_append,
      List.map_append]
    by_cases here : j = k
    · simp [here]
    · simp [here, Ne.symm here]

/-- A probe that is put in the ring of its node, with none parked for it. -/
theorem push (wired : Wired cpus s) (present : s.fabric.nodes[k]? = some n)
    (space : n.probes.isFull = false) (free : s.parkedFor k = []) (p : Probe) :
    Carried cpus s (s.seat k { n with probes := (n.probes.push p).2, interrupt := true }) k [p] := by
  obtain ⟨_, formed, contents⟩ := (wired.rings k n present).push space p
  refine ⟨⟨rfl, rfl, List.length_set .., ?_⟩, wired.seat present formed, ?_⟩
  · intro j
    rw [controller?_seat present]
    split
    · rename_i here
      rw [here, controller?_eq present]
    · rfl
  · intro j
    rw [coming_seat present]
    split
    · rename_i here
      rw [here, contents, free, coming, present, free]
      simp
    · rfl

theorem deliver_eq (wired : Wired cpus s) (present : s.fabric.nodes[k]? = some n) (p : Probe) :
    s.fabric.deliver k (.probe p) =
      if n.probes.isFull then (some p, (s.seat k n).fabric)
      else (none, (s.seat k { n with probes := (n.probes.push p).2, interrupt := true }).fabric) := by
  have socket : s.fabric.hub.sockets[k]? = some k := by
    rw [wired.sockets]
    exact List.getElem?_range (wired.inside present)
  simp only [Fabric.deliver, socket, present, Node.deliver]
  by_cases full : n.probes.isFull
  · rw [ProbeRing.push_full full, if_pos full]
    rfl
  · rw [Bool.not_eq_true] at full
    have room := ((wired.rings k n present).push full p).1
    rw [if_neg (by simp [full])]
    cases shape : n.probes.push p with
    | mk refused ring =>
      rw [shape] at room
      cases room
      rfl

theorem sendProbe (wired : Wired cpus s) (inside : k < cpus) (p : Probe) :
    Carried cpus s { s with fabric := s.fabric.sendProbe k p } k [p] := by
  obtain ⟨n, present⟩ := wired.node inside
  unfold Fabric.sendProbe
  generalize (fun c : HubCounters => { c with probesSent := c.probesSent + 1 }) = change
  have counted := wired.counted change
  simp only
  split
  · exact (counted.park inside p _).of_counted
  · rename_i free
    have none_parked : s.parkedFor k = [] := parkedFor_nil (by simpa [Fabric.count] using free)
    have delivered := counted.deliver_eq (k := k) present p
    simp only at delivered
    rw [delivered]
    split
    · rename_i same
      split at same
      · cases same
      · rename_i space
        cases same
        exact (counted.push (k := k) present (by simpa using space) none_parked p).of_counted
    · rename_i refused f same
      split at same
      · cases same
        have whole := seat_same (s := { s with fabric := s.fabric.count change }) (k := k) present
        have fabric := congrArg Pass.fabric whole
        simp only at fabric
        rw [fabric]
        exact (counted.park inside _ _).of_counted
      · cases same

/-- Probes that are sent again keep their order: the first refusal blocks the CPU. -/
theorem resend (todo : List ParkedProbe) (inside : ∀ p ∈ todo, p.cpu < cpus)
    (blocked : List Nat) {s : Pass} (wired : Wired cpus s)
    (clear : ∀ k, k ∉ blocked → s.parkedFor k = []) :
    Alike s { s with fabric := (Fabric.resend todo blocked s.fabric).2 } ∧
    Wired cpus { s with fabric := (Fabric.resend todo blocked s.fabric).2 } ∧
    ∀ j, Pass.coming { s with fabric := (Fabric.resend todo blocked s.fabric).2 } j =
      s.coming j ++ (todo.filter (·.cpu == j)).map (·.probe) := by
  induction todo generalizing blocked s with
  | nil => exact ⟨.refl s, wired, by simp [Fabric.resend]⟩
  | cons parked rest ih =>
    have later : ∀ p ∈ rest, p.cpu < cpus := fun p member => inside p (List.mem_cons_of_mem _ member)
    have bound : parked.cpu < cpus := inside parked (List.mem_cons_self ..)
    -- what is left to do once the first probe is in its place
    have onward (t : Pass) (blocked : List Nat) (carried : Carried cpus s t parked.cpu [parked.probe])
        (clear : ∀ k, k ∉ blocked → t.parkedFor k = []) :
        Alike s { t with fabric := (Fabric.resend rest blocked t.fabric).2 } ∧
        Wired cpus { t with fabric := (Fabric.resend rest blocked t.fabric).2 } ∧
        ∀ j, Pass.coming { t with fabric := (Fabric.resend rest blocked t.fabric).2 } j =
          s.coming j ++ ((parked :: rest).filter (·.cpu == j)).map (·.probe) := by
      obtain ⟨alike, kept, coming⟩ := ih later blocked carried.wired clear
      refine ⟨carried.alike.trans alike, kept, ?_⟩
      intro j
      rw [coming, carried.coming]
      by_cases here : j = parked.cpu
      · simp [here]
      · simp [here, Ne.symm here]
    have again (p : Probe) := wired.park bound p id
    have remains (p : Probe) (j : Nat) (apart : j ≠ parked.cpu) :=
      parkedFor_park (s := s) id p apart
    obtain ⟨n, present⟩ := wired.node bound
    unfold Fabric.resend
    split
    · rename_i stuck
      refine onward _ blocked (again parked.probe) ?_
      intro j free
      have apart : j ≠ parked.cpu := by
        rintro rfl
        exact free (by simpa using stuck)
      rw [remains parked.probe j apart]
      exact clear j free
    · rename_i free
      rw [wired.deliver_eq present]
      split
      · rename_i same
        split at same
        · cases same
        · rename_i space
          cases same
          refine onward _ blocked (wired.push present (by simpa using space) ?_ parked.probe) ?_
          · exact clear _ (by simpa using free)
          · exact clear
      · rename_i same
        split at same
        · cases same
          rw [seat_same present]
          refine onward _ (blocked ++ [parked.cpu]) (again parked.probe) ?_
          intro j free
          simp only [List.mem_append, List.mem_singleton, not_or] at free
          rw [remains parked.probe j free.2]
          exact clear j free.1
        · cases same

/-- Parked probes that are sent again stay where they are in the order. -/
theorem retryParked (wired : Wired cpus s) :
    Alike s { s with fabric := s.fabric.retryParked.2 } ∧
    Wired cpus { s with fabric := s.fabric.retryParked.2 } ∧
    Pass.coming { s with fabric := s.fabric.retryParked.2 } = s.coming := by
  have taken : Wired cpus { s with fabric.hub.signal.parked := [] } :=
    ⟨wired.nodes, wired.sockets, wired.rings, by simp⟩
  obtain ⟨alike, kept, coming⟩ :=
    taken.resend s.fabric.hub.signal.parked wired.parked [] (fun _ _ => rfl)
  refine ⟨⟨alike.taken, alike.hub, alike.nodes, alike.controllers⟩, kept, ?_⟩
  funext j
  refine (coming j).trans ?_
  simp [Pass.coming, parkedFor]

end Wired

theorem Steady.sendProbes (targets : List Nat) (nodup : targets.Nodup) (p : Probe)
    (inside : ∀ k ∈ targets, k < lay.cpus) {s : Pass} (steady : Steady lay s) :
    Alike s { s with fabric := targets.foldl (fun f k => f.sendProbe k p) s.fabric } ∧
    Steady lay { s with fabric := targets.foldl (fun f k => f.sendProbe k p) s.fabric } ∧
    ∀ j, Pass.coming { s with fabric := targets.foldl (fun f k => f.sendProbe k p) s.fabric } j =
      if j ∈ targets then s.coming j ++ [p] else s.coming j := by
  induction targets generalizing s with
  | nil => exact ⟨.refl s, steady, by simp⟩
  | cons k rest ih =>
    have carried := steady.wired.sendProbe (inside k (List.mem_cons_self ..)) p
    obtain ⟨fresh, apart⟩ := List.nodup_cons.mp nodup
    obtain ⟨alike, kept, coming⟩ :=
      ih apart (fun j member => inside j (List.mem_cons_of_mem _ member))
        (carried.alike.steady steady carried.wired)
    refine ⟨carried.alike.trans alike, kept, ?_⟩
    intro j
    have later := coming j
    rw [carried.coming] at later
    rw [List.foldl_cons]
    refine later.trans ?_
    by_cases here : j = k
    · subst here
      simp [fresh]
    · simp [here]

/-- Parked probes that are sent again stay where they are in the order. -/
theorem Steady.retryParked (steady : Steady lay s) :
    Alike s { s with fabric := s.fabric.retryParked.2 } ∧
    Steady lay { s with fabric := s.fabric.retryParked.2 } ∧
    Pass.coming { s with fabric := s.fabric.retryParked.2 } = s.coming := by
  obtain ⟨alike, wired, coming⟩ := steady.wired.retryParked
  exact ⟨alike, alike.steady steady wired, coming⟩

end CacheCoherence.Pass
