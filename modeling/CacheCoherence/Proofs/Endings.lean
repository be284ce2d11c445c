import CacheCoherence.Proofs.Deliveries
import CacheCoherence.Proofs.Pipelines

namespace CacheCoherence.Pass

variable {lay : Layout} {s t : Pass} {now : Ledger} {k : Nat} {n : Node} {slot : Slot} {r : Reference}
  {m : Completion}

theorem Steady.of_hub (steady : Steady lay s) {hub : Hub}
    (sockets : hub.sockets = s.fabric.hub.sockets)
    (memory : ∀ a, hub.memory.contains a = s.fabric.hub.memory.contains a)
    (readNext : hub.readNext = s.fabric.hub.readNext)
    (signal : hub.signal = s.fabric.hub.signal)
    (busy : ∀ a, hub.isBusy a = true ↔ ∃ t ∈ hub.transactions, t.addr = a.block) :
    Steady lay { s with fabric.hub := hub } := by
  refine ⟨steady.nodes, ?_, ?_, ?_, steady.good, steady.rings, ?_, busy, steady.marked, steady.known⟩
  · exact sockets.trans steady.sockets
  · intro a
    exact (memory a).trans (steady.backed a)
  · exact readNext.trans steady.readNext
  · change ∀ p ∈ hub.signal.parked, p.cpu < lay.cpus
    rw [signal]
    exact steady.parked

theorem Steady.complete_aside (steady : Steady lay s) (inside : k < lay.cpus) (m : Completion)
    (aside : ∀ slot, m.target ≠ .request (.miss slot)) :
    Steady lay { s with fabric := s.fabric.complete k m } ∧
    (Linked s → Linked { s with fabric := s.fabric.complete k m }) ∧
    ∀ now, Pass.view { s with fabric := s.fabric.complete k m } now = s.view now := by
  obtain ⟨n, present⟩ := steady.node inside
  have good : n.controller.Good := steady.good k _ (controller?_eq present)
  have quiet := good.complete_aside m aside
  have outbound : (n.controller.complete m).2.outbound = n.controller.outbound ++ [] := by
    rw [quiet.outbound, List.append_nil]
  rw [steady.complete_eq present]
  refine ⟨?_, fun linked => ?_, fun now => view_quiet present quiet rfl⟩
  · exact steady.seat present outbound quiet.good (steady.rings k n present) (by simp)
  · exact linked.seat present outbound fun i v found drains apart =>
      .inl (quiet.carried i v found drains apart)

/-- The slot of a victim that is acknowledged is free, so its message may leave the queue. -/
theorem Linked.acknowledged (steady : Steady lay s) (inside : k < lay.cpus) {q : Request}
    (linked : ∀ j c, s.fabric.controller? j = some c → ∀ i v, c.victims.get? i = some v →
      v.draining → v.destination ≠ .probe →
      v.request i ∈ s.queue j ∨ j = k ∧ v.request i = q)
    (names : ∀ (v : Victim) (i : Slot), v.request i = q → i = slot) :
    Linked { s with fabric := s.fabric.complete k { target := .victim slot } } := by
  obtain ⟨n, present⟩ := steady.node inside
  have good : n.controller.Good := steady.good k _ (controller?_eq present)
  have quiet := good.complete_aside { target := .victim slot } (by simp)
  have outbound : (n.controller.complete { target := .victim slot }).2.outbound =
      n.controller.outbound ++ [] := by
    rw [quiet.outbound, List.append_nil]
  rw [steady.complete_eq present]
  intro j c at_j i v found drains aside
  change (s.seat k _).fabric.controller? j = some c at at_j
  change v.request i ∈ (s.seat k _).queue j
  rw [controller?_seat present] at at_j
  rw [queue_seat present outbound, List.append_nil, ite_self]
  split at at_j
  · rename_i here
    subst here
    cases at_j
    have gone : i ≠ slot := (Controller.get?_of_completeVictim found).2
    have before := quiet.carried i v found drains aside
    rcases linked j _ (controller?_eq present) i v before drains aside with waits | ⟨_, same⟩
    · exact waits
    · exact absurd (names v i same) gone
  · rename_i apart
    rcases linked j c at_j i v found drains aside with waits | ⟨here, _⟩
    · exact waits
    · exact absurd here apart

theorem view_answered (present : s.fabric.nodes[k]? = some n) {d : Controller}
    {sent : List Request} (answered : Controller.Answered n.controller slot r m d sent) (now : Ledger) :
    (s.seat k { n with controller := d }).view now =
      (((s.view now).want k slot none).reline k d.line).send k sent := by
  have seated : (s.seat k { n with controller := d }).view now =
      (((s.view now).rewant k d.wanted).reline k d.line).send k (sent.filter Request.matters) :=
    view_seat present answered.outbound rfl
  have all : sent.filter Request.matters = sent := by
    rw [List.filter_eq_self]
    intro q member
    obtain ⟨v, i, rfl⟩ := answered.sends q member
    rfl
  have one (i : Slot) : d.wanted i = if slot = i then none else (s.view now).wants k i := by
    rw [view_wants present]
    exact answered.wanted i
  rw [seated, all, View.rewant_one one]

theorem Steady.answered (steady : Steady lay s) (present : s.fabric.nodes[k]? = some n)
    {d : Controller} {sent : List Request}
    (answered : Controller.Answered n.controller slot r m d sent) :
    Steady lay (s.seat k { n with controller := d }) ∧
      (Linked s → Linked (s.seat k { n with controller := d })) := by
  have marked : ∀ q ∈ sent, q.Marked := by
    intro q member id a data mask written same
    obtain ⟨v, i, rfl⟩ := answered.sends q member
    cases same
  exact ⟨steady.seat present answered.outbound answered.good (steady.rings k n present) marked,
    fun linked => linked.seat present answered.outbound answered.carried⟩

theorem wanted_of_view (waits : (s.view now).wants k slot = some r) :
    ∃ n, s.fabric.nodes[k]? = some n ∧ n.controller.wanted slot = some r := by
  simp only [view, Fabric.controller?, Option.bind_eq_some_iff, Option.map_eq_some_iff] at waits
  obtain ⟨_, ⟨n, present, rfl⟩, wanted⟩ := waits
  exact ⟨n, present, wanted⟩

theorem find_txn {txns : List Transaction} (numbers : (txns.map (·.number)).Nodup) {t : Transaction}
    (member : t ∈ txns) : txns.find? (·.number == t.number) = some t := by
  cases found : txns.find? (·.number == t.number) with
  | none =>
    rw [List.find?_eq_none] at found
    exact absurd (beq_self_eq_true _) (found t member)
  | some u =>
    have same : u.number = t.number := by simpa using List.find?_some found
    rw [txn_unique numbers (List.mem_of_find?_eq_some found) member same]

theorem writeBack_eq (f : Fabric) (t : Transaction) :
    ∃ memory counters, f.writeBack t = { f with hub := { f.hub with memory, counters } } ∧
      (∀ a, memory.contains a = f.hub.memory.contains a) ∧
      ∀ b, (memory.readBlock b).getD .zero =
        if f.hub.memory.contains t.addr ∧ b.block = t.addr.block then
          t.data.getD ((f.hub.memory.readBlock b).getD .zero)
        else (f.hub.memory.readBlock b).getD .zero := by
  unfold Fabric.writeBack
  cases t.data with
  | none => exact ⟨f.hub.memory, f.hub.counters, rfl, fun _ => rfl, by simp⟩
  | some data =>
    have outcome := Memory.writeBlock_fst f.hub.memory t.addr data
    have kept := (Memory.contains_writeBlock f.hub.memory t.addr · data)
    cases backed : f.hub.memory.contains t.addr with
    | false =>
      rw [backed] at outcome
      cases shape : f.hub.memory.writeBlock t.addr data with
      | mk done memory =>
        rw [shape] at outcome
        cases outcome
        simp only [shape]
        exact ⟨f.hub.memory, f.hub.counters, rfl, fun _ => rfl, by simp⟩
    | true =>
      rw [backed] at outcome
      have read := (Memory.readBlock_writeBlock f.hub.memory backed · data)
      cases shape : f.hub.memory.writeBlock t.addr data with
      | mk done memory =>
        rw [shape] at outcome kept read
        cases outcome
        simp only [shape]
        refine ⟨memory, _, rfl, kept, fun b => ?_⟩
        rw [read]
        by_cases same : b.block = t.addr.block
        · simp [same]
        · simp [same]

theorem fillFor_eq (f : Fabric) (t : Transaction) :
    (f.fillFor t).1 =
        (if t.kind = .claim then .zero
        else t.data.getD ((f.hub.memory.readBlock t.addr).getD .zero)) ∧
      ∃ counters, (f.fillFor t).2 = { f with hub := { f.hub with counters } } := by
  unfold Fabric.fillFor
  split
  · exact ⟨rfl, _, rfl⟩
  · cases t.data with
    | none => exact ⟨rfl, _, rfl⟩
    | some data => exact ⟨rfl, _, rfl⟩

/-- The hub after a transaction has ended, before its reader is answered. -/
theorem Steady.dropped (steady : Steady lay s)
    (numbers : (s.fabric.hub.transactions.map (·.number)).Nodup)
    (blocks : (s.fabric.hub.transactions.map (·.addr)).Nodup) {t : Transaction}
    (isOpen : t ∈ s.fabric.hub.transactions) {memory : Memory} {counters : HubCounters}
    (kept : ∀ a, memory.contains a = s.fabric.hub.memory.contains a) :
    Steady lay { s with fabric.hub := { s.fabric.hub.dropTransaction t with memory, counters } } := by
  refine steady.of_hub rfl kept rfl rfl fun a => ?_
  have before := steady.busy a
  have erased : Hub.isBusy { s.fabric.hub.dropTransaction t with memory, counters } a =
      if t.addr = a.block then false else s.fabric.hub.isBusy a := by
    simp only [Hub.isBusy, Hub.dropTransaction, Sparse.get?_erase, Address.toNat_inj]
    split
    · rfl
    · rfl
  rw [erased]
  constructor
  · intro busy
    split at busy
    · cases busy
    · rename_i apart
      obtain ⟨u, inside, addr⟩ := before.mp busy
      refine ⟨u, List.mem_filter.mpr ⟨inside, ?_⟩, addr⟩
      have other : u.number ≠ t.number := by
        intro same
        rw [txn_unique numbers inside isOpen same] at addr
        exact apart addr
      simpa using other
  · rintro ⟨u, inside, addr⟩
    obtain ⟨old, other⟩ := List.mem_filter.mp inside
    rw [if_neg, before]
    · exact ⟨u, old, addr⟩
    · intro same
      have equal : u = t := List.inj_on_of_nodup_map blocks old isOpen (addr.trans same.symm)
      simp [equal] at other

structure Told (f g : Fabric) (k : Nat) (slot : Slot) (r : Reference) (data : Block) : Prop where
  before : (f.controller? k).bind (·.wanted slot) = some r
  after : (g.controller? k).bind (·.told slot) = some data

theorem claimed_iff (c d : Controller) (b : Address) :
    c.claimed d b = true ↔ ∃ slot r data, c.wanted slot = some r ∧ d.told slot = some data ∧
      r.access = .claim ∧ r.addr.block = b.block ∧ (d.lookup b).valid := by
  simp only [Controller.claimed, List.any_eq_true, List.mem_finRange, true_and]
  constructor
  · rintro ⟨slot, held⟩
    split at held
    · rename_i before after present later
      simp only [Bool.and_eq_true, Option.isNone_iff_eq_none, beq_iff_eq, Option.any_eq_true] at held
      obtain ⟨⟨⟨⟨waits, access⟩, block⟩, answer, answered, some_data⟩, valid⟩ := held
      obtain ⟨data, carries⟩ := Option.isSome_iff_exists.mp some_data
      refine ⟨slot, before.request, data, ?_, ?_, access, block, valid⟩
      · exact (Controller.wanted_eq_some_iff c slot _).mpr ⟨before, present, waits, rfl⟩
      · simp [Controller.told, later, answered, carries]
    · cases held
  · rintro ⟨slot, r, data, wanted, told, access, block, valid⟩
    obtain ⟨before, present, waits, rfl⟩ := (Controller.wanted_eq_some_iff c slot _).mp wanted
    simp only [Controller.told, Option.bind_eq_some_iff] at told
    obtain ⟨answer, ⟨after, later, answered⟩, carries⟩ := told
    refine ⟨slot, ?_⟩
    simp [present, later, waits, access, block, answered, carries, valid]

theorem fabric_claimed_iff (now : Ledger) (steady : Steady lay t) (b : Address) :
    s.fabric.claimed t.fabric b = true ↔ ∃ k slot r data, Told s.fabric t.fabric k slot r data ∧
      r.access = .claim ∧ r.addr.block = b.block ∧ ((t.view now).line k b).copy.isSome := by
  have held (k : Nat) (d : Controller) (present : t.fabric.controller? k = some d) :
      ((t.view now).line k b).copy.isSome = (d.lookup b).valid := by
    rw [← (steady.good k d present).toLevels.copy_isSome]
    simp only [view, present, Option.map_some, Option.getD_some]
  simp only [Fabric.claimed, List.any_eq_true, List.mem_range]
  constructor
  · rintro ⟨k, _, held_there⟩
    split at held_there
    · rename_i c d before after
      obtain ⟨slot, r, data, wanted, told, access, block, valid⟩ := (claimed_iff c d b).mp held_there
      refine ⟨k, slot, r, data, ⟨?_, ?_⟩, access, block, ?_⟩
      · rw [before, Option.bind_some, wanted]
      · rw [after, Option.bind_some, told]
      · rw [held k d after, valid]
    · cases held_there
  · rintro ⟨k, slot, r, data, ⟨wanted, told⟩, access, block, copy⟩
    obtain ⟨c, before, wanted⟩ := Option.bind_eq_some_iff.mp wanted
    obtain ⟨d, after, told⟩ := Option.bind_eq_some_iff.mp told
    refine ⟨k, ?_, ?_⟩
    · simp only [Fabric.controller?, Option.map_eq_some_iff] at before
      obtain ⟨n, present, _⟩ := before
      exact (List.getElem?_eq_some_iff.mp present).1
    · simp only [before, after]
      rw [claimed_iff]
      exact ⟨slot, r, data, wanted, told, access, block, by rw [← held k d after, copy]⟩

theorem not_told {f g : Fabric} {data : Block}
    (waits : (g.controller? k).bind (·.wanted slot) = (f.controller? k).bind (·.wanted slot)) :
    ¬ Told f g k slot r data := by
  rintro ⟨before, after⟩
  rw [before] at waits
  obtain ⟨d, present, wanted⟩ := Option.bind_eq_some_iff.mp waits
  rw [present, Option.bind_some, Controller.told_of_wanted wanted] at after
  cases after

theorem after_silent (steady : Steady lay t)
    (silent : ∀ k slot r data, Told s.fabric t.fabric k slot r data → r.access ≠ .claim ∨
      ((t.view now).line k r.addr).copy = none) : now.after s .machine t = now := by
  funext b
  simp only [Ledger.after]
  rw [if_neg]
  intro claimed
  obtain ⟨k, slot, r, data, told, access, block, copy⟩ := (fabric_claimed_iff now steady b).mp claimed
  rcases silent k slot r data told with other | missing
  · exact other access
  · have same : (t.view now).line k b = (t.view now).line k r.addr := by
      simp only [view]
      cases t.fabric.controller? k with
      | none => rfl
      | some d => exact d.line_congr block.symm
    rw [same, missing] at copy
    cases copy

theorem delivered_of_taken {c d : Controller} (levels : c.Levels) {answer : Answer} {fill : Block}
    {sent : List Request} (taken : Controller.Taken c r m d answer sent) (brings : m.brings = some fill)
    (cacheable : r.addr.isIo = false)
    (sends : ∀ q ∈ sent, ∃ (v : Victim) (i : Slot), q = v.request i) :
    Delivered r fill c.line d.line sent := by
  cases taken with
  | aside lines unfilled data =>
    refine .refused ?_ lines
    rcases unfilled with empty | io | absent
    · rw [brings] at empty
      cases empty
    · rw [cacheable] at io
      cases io
    · exact absent
  | owned upgrade data present answered lines => exact .owned upgrade data present lines
  | filled data delivered _ lost answered line _ quiet others =>
    rw [brings] at delivered
    cases delivered
    refine .filled lost ?_ ?_ ?_ sent sends quiet others
    · rw [line]
      rfl
    · intro owns
      rw [line]
      simp [Controller.lineOf, owns]
    · intro shares absent
      have gone := (levels.absent_iff r.addr).mp absent
      rw [line, levels.invalid_of_not_hit gone]
      simp [Controller.lineOf, shares, LineState.isDirty, LineState.invalid]

/-- The data of an answer: what was delivered, or the copy that was there. -/
theorem told_of_taken {c d : Controller} {answer : Answer} {fill data : Block}
    {sent : List Request} (taken : Controller.Taken c r m d answer sent) (brings : m.brings = some fill)
    (cacheable : r.addr.isIo = false) (told : answer.data = some data) :
    data = fill ∧ (r.access.isUpgrade → c.line r.addr = .absent) ∨ (c.line r.addr).copy = some data := by
  cases taken with
  | aside lines unfilled given =>
    rw [told, brings] at given
    cases given
    refine .inl ⟨rfl, fun _ => ?_⟩
    rcases unfilled with empty | io | absent
    · rw [brings] at empty
      cases empty
    · rw [cacheable] at io
      cases io
    · exact absent
  | owned upgrade own present answered lines =>
    rw [told] at answered
    cases answered
    exact .inr present
  | filled given delivered _ lost answered line _ quiet others =>
    rw [told] at answered
    cases answered
    rw [brings] at delivered
    cases delivered
    exact .inl ⟨rfl, lost⟩

/-- How a move of the machine from `s` to `t` ends, after moves that led to the view `v`. -/
inductive Ending (lay : Layout) (now : Ledger) (s : Pass) (v : View) (t : Pass) : Prop
  | still (same : t.view (now.after s .machine t) = v)
      (silent : ∀ k slot r data, ¬ Told s.fabric t.fabric k slot r data)
  | aside (step : View.Step lay v (t.view (now.after s .machine t)))
      (silent : ∀ k slot r data, Told s.fabric t.fabric k slot r data → lay.backed r.addr = false)
  | finish (u : Transaction) (isOpen : u ∈ v.txns) (done : u.pending = 0)
      (step : View.Step lay v (t.view (now.after s .machine t)))
      (told : ∀ k slot r data, Told s.fabric t.fabric k slot r data →
        k = u.origin ∧ r.addr.block = u.addr ∧ r.access.readKind = some u.kind ∧
        (data = v.fill u ∧ (r.access.isUpgrade → v.line k r.addr = .absent) ∨
          (v.line k r.addr).copy = some data))

theorem Steady.finish_eq (steady : Steady lay s) (orderly : Orderly lay (s.view now)) {u : Transaction}
    (isOpen : u ∈ s.fabric.hub.transactions) :
    ∃ p : Pass, Steady lay p ∧ p.taken = s.taken ∧ p.fabric.nodes = s.fabric.nodes ∧
      (∀ later, p.view later =
        { s.view later with txns := (s.view later).txns.filter (·.number != u.number) }.remember lay
          u.addr u.data) ∧
      s.fabric.finish u.number = p.fabric.complete u.origin
        { target := .request u.id, data := some ((s.view now).fill u)
          shared := u.shared && u.kind == .share } := by
  obtain ⟨memory, counters, written, contains, read⟩ :=
    writeBack_eq { s.fabric with hub := s.fabric.hub.dropTransaction u } u
  obtain ⟨filled, counted, kept⟩ :=
    fillFor_eq { s.fabric with hub := { s.fabric.hub.dropTransaction u with memory, counters } } u
  refine ⟨{ s with fabric.hub := { s.fabric.hub.dropTransaction u with memory, counters := counted } },
    steady.dropped orderly.numbers orderly.blocks isOpen contains, rfl, rfl, fun later => ?_, ?_⟩
  · have cells : (fun a => (memory.readBlock a).getD .zero) =
        fun b => if lay.backed u.addr ∧ b.block = u.addr.block then
          u.data.getD ((s.fabric.hub.memory.readBlock b).getD .zero)
        else (s.fabric.hub.memory.readBlock b).getD .zero := by
      funext b
      rw [← steady.backed]
      exact read b
    simp only [view, cells, View.remember]
    rfl
  · have found : s.fabric.hub.transaction? u.number = some u := find_txn orderly.numbers isOpen
    have fill : (if u.kind = .claim then Block.zero
        else u.data.getD ((memory.readBlock u.addr).getD .zero)) = (s.view now).fill u := by
      rw [View.fill]
      split
      · rfl
      · rw [read]
        cases u.data with
        | none =>
          simp only [Option.getD_none, ite_self]
          rfl
        | some data => rfl
    simp only [Fabric.finish, found]
    have shape : Fabric.writeBack { s.fabric with hub := s.fabric.hub.dropTransaction u } u =
        { s.fabric with hub := { s.fabric.hub.dropTransaction u with memory, counters } } := written
    rw [shape]
    cases given : Fabric.fillFor
        { s.fabric with hub := { s.fabric.hub.dropTransaction u with memory, counters } } u with
    | mk data g =>
      rw [given] at filled kept
      simp only at filled kept
      rw [filled, fill, kept]

theorem controller?_congr (nodes : t.fabric.nodes = s.fabric.nodes) (k : Nat) :
    t.fabric.controller? k = s.fabric.controller? k := by
  rw [Fabric.controller?, Fabric.controller?, nodes]

theorem Linked.of_nodes (linked : Linked s) (nodes : t.fabric.nodes = s.fabric.nodes)
    (taken : t.taken = s.taken) : Linked t := by
  intro k c present
  rw [controller?_congr nodes] at present
  rw [queue, taken, controller?_congr nodes]
  exact linked k c present

/-- The reference that was answered is told its data, and no other is told anything. -/
theorem told_answered {f : Fabric} {n : Node} {d : Controller} {sent : List Request}
    (present : t.fabric.nodes[k]? = some n) (answered : Controller.Answered n.controller slot r m d sent)
    (waits : n.controller.wanted slot = some r)
    (wants : ∀ j i, (t.fabric.controller? j).bind (·.wanted i) = (f.controller? j).bind (·.wanted i))
    {j : Nat} {i : Slot} {q : Reference} {data : Block}
    (told : Told f (t.seat k { n with controller := d }).fabric j i q data) :
    j = k ∧ i = slot ∧ q = r ∧ d.told slot = some data := by
  by_cases here : j = k
  · subst here
    obtain ⟨before, after⟩ := told
    have now_there := answered.wanted i
    rw [← wants, controller?_eq present, Option.bind_some] at before
    rw [controller?_seat present, if_pos rfl, Option.bind_some] at after
    by_cases same : slot = i
    · subst same
      rw [waits] at before
      cases before
      exact ⟨rfl, rfl, rfl, after⟩
    · rw [if_neg same, before] at now_there
      rw [Controller.told_of_wanted now_there] at after
      cases after
  · refine absurd told (not_told ?_)
    rw [controller?_seat present, if_neg here, wants]

/-- A block is claimed by an answer if the reference is a claim of it and its line is there then. -/
theorem claimed_answered (now : Ledger) {n : Node} {d : Controller} {sent : List Request}
    (steady : Steady lay (t.seat k { n with controller := d })) (present : t.fabric.nodes[k]? = some n)
    (answered : Controller.Answered n.controller slot r m d sent)
    (waits : n.controller.wanted slot = some r)
    (wants : ∀ j i, (t.fabric.controller? j).bind (·.wanted i) =
      (s.fabric.controller? j).bind (·.wanted i))
    (filled : ∃ data, d.told slot = some data) (b : Address) :
    s.fabric.claimed (t.seat k { n with controller := d }).fabric b = true ↔
      r.access = .claim ∧ (d.line r.addr).copy.isSome ∧ b.block = r.addr.block := by
  have line : ((t.seat k { n with controller := d }).view now).line k b = d.line b := by
    rw [view_answered present answered]
    simp
  rw [fabric_claimed_iff now steady]
  constructor
  · rintro ⟨j, i, q, data, told, access, block, copy⟩
    obtain ⟨rfl, rfl, rfl, _⟩ := told_answered present answered waits wants told
    rw [line, d.line_congr block.symm] at copy
    exact ⟨access, copy, block.symm⟩
  · rintro ⟨access, copy, same⟩
    obtain ⟨data, told⟩ := filled
    refine ⟨k, slot, r, data, ⟨?_, ?_⟩, access, same.symm, ?_⟩
    · rw [← wants, controller?_eq present, Option.bind_some, waits]
    · rw [controller?_seat present, if_pos rfl, Option.bind_some]
      exact told
    · rw [line, d.line_congr same]
      exact copy

/-- A transaction without replies to come ends, and its reader is answered. -/
theorem Steady.finish (s₀ : Pass) (steady : Steady lay s) (orderly : Orderly lay (s.view now))
    (wants : ∀ k slot, (s.fabric.controller? k).bind (·.wanted slot) =
      (s₀.fabric.controller? k).bind (·.wanted slot))
    {u : Transaction} (isOpen : u ∈ s.fabric.hub.transactions) (done : u.pending = 0) :
    Steady lay { s with fabric := s.fabric.finish u.number } ∧
    (Linked s → Linked { s with fabric := s.fabric.finish u.number }) ∧
    Ending lay now s₀ (s.view now) { s with fabric := s.fabric.finish u.number } := by
  obtain ⟨slot, r, id, wanted, about, kind⟩ := orderly.fits (v := s.view now) isOpen
  obtain ⟨n, present, waits⟩ := wanted_of_view wanted
  have good : n.controller.Good := steady.good _ _ (controller?_eq present)
  have cacheable : r.addr.isIo = false := by
    apply lay.cacheable
    rw [lay.even r.addr u.addr (by rw [about, orderly.aligned u isOpen])]
    exact orderly.backed u isOpen
  obtain ⟨p, dropped, taken, nodes, seen, shape⟩ := steady.finish_eq orderly isOpen
  generalize message : ({ target := .request u.id, data := some ((s.view now).fill u), shared := _ } :
    Completion) = m at shape
  have target : m.target = .request (.miss slot) := by rw [← message, id]
  have brings : m.brings = some ((s.view now).fill u) := by rw [← message]; rfl
  obtain ⟨sent, answered⟩ := good.complete_wanted waits target
  rw [← nodes] at present
  have result : { s with fabric := s.fabric.finish u.number } =
      p.seat u.origin { n with controller := (n.controller.complete m).2 } := by
    rw [shape, dropped.complete_eq present, ← taken]
    rfl
  rw [result]
  generalize (n.controller.complete m).2 = d at answered
  obtain ⟨kept, tied⟩ := dropped.answered present answered
  refine ⟨kept, fun linked => tied (linked.of_nodes nodes taken), ?_⟩
  obtain ⟨answer, recorded, change⟩ := answered.taken
  have lines : (s.view now).line u.origin = n.controller.line := by
    funext b
    rw [nodes] at present
    exact view_line present b
  have waiting (k : Nat) (i : Slot) : (p.fabric.controller? k).bind (·.wanted i) =
      (s₀.fabric.controller? k).bind (·.wanted i) := by
    rw [controller?_congr nodes, wants]
  have aligned : u.addr.block = u.addr := orderly.aligned u isOpen
  have told : ∃ data, d.told slot = some data := by
    rw [recorded]
    cases change with
    | aside lines unfilled given => exact ⟨_, given.trans brings⟩
    | owned _ _ _ given => exact ⟨_, given⟩
    | filled _ _ _ _ given => exact ⟨_, given⟩
  have claims (b : Address) :
      s₀.fabric.claimed (p.seat u.origin { n with controller := d }).fabric b = true ↔
        u.kind = .claim ∧ (d.line u.addr).copy.isSome ∧ b.block = u.addr := by
    have claim : r.access = .claim ↔ u.kind = .claim := by
      rw [← Access.readKind_claim_iff, kind, Option.some.injEq]
    have line : d.line r.addr = d.line u.addr := d.line_congr (about.trans aligned.symm)
    rw [claimed_answered now kept present answered waits waiting told, claim, line, about]
  have values : now.after s₀ .machine (p.seat u.origin { n with controller := d }) = fun b =>
      if u.kind = .claim ∧ (d.line u.addr).copy.isSome ∧ b.block = u.addr then .zero else now b := by
    funext b
    simp only [Ledger.after, claims]
  refine .finish u isOpen done ?_ ?_
  · rw [values, view_answered present answered, seen]
    refine .finish (s.view now) u slot r d.line sent isOpen done id wanted (blockwise d) ?_
    rw [lines]
    exact delivered_of_taken good.toLevels change brings cacheable answered.sends
  · intro k i q data filled
    obtain ⟨rfl, rfl, rfl, given⟩ := told_answered present answered waits waiting filled
    refine ⟨rfl, about, kind, ?_⟩
    rw [lines]
    exact told_of_taken change brings cacheable (recorded.symm.trans given)

end CacheCoherence.Pass
