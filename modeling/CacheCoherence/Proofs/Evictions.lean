import CacheCoherence.Proofs.Custody
import Mathlib.Data.List.Induction
import Mathlib.Data.Nat.Find

/-! Evictions on their way to the hub, in the order in which they set out. Slots are reused, so the
order is not that of the slots: an eviction is as old as the action that put it in its slot. No
action evicts one block twice, so the evictions of a block have different ages and one of them is the
newest. A probe of a block that the caches have given up is answered from the lowest slot that drains
the block, which is the right one only if nothing older drains below. -/

namespace CacheCoherence

namespace Controller

variable {c d : Controller}

/-- What was evicted into slot `i` and has not been accepted. Data put aside for a probe do not count. -/
def eviction (c : Controller) (i : Slot) : Option Victim :=
  (c.victims.get? i).filter fun v => v.draining && v.destination != .probe

theorem eviction_eq_some_iff {i : Slot} {v : Victim} :
    c.eviction i = some v ↔
      c.victims.get? i = some v ∧ v.draining = true ∧ v.destination ≠ .probe := by
  simp [eviction, Option.filter_eq_some_iff]

theorem eviction_of_victims (same : d.victims = c.victims) (i : Slot) : d.eviction i = c.eviction i := by
  rw [eviction, eviction, same]

@[simp] theorem eviction_shelve (c : Controller) (i : Slot) : c.shelve.eviction i = c.eviction i := by
  rw [eviction, eviction, victims_shelve, VictimBuffer.get?_shelved]
  cases c.victims.get? i with
  | none => rfl
  | some v =>
    by_cases probed : v.destination = .probe
    · simp [Option.filter, probed]
    · have rests : v.waitsFor .probe = false := by simp [Victim.waitsFor, probed]
      simp [Victim.shelved, rests]

/-- How evictions pass from one state to the next: a slot that goes on draining keeps what it has, and
no block is evicted into two slots. -/
structure Succeeds (c d : Controller) : Prop where
  same : ∀ i v w, c.eviction i = some v → d.eviction i = some w → v = w
  alone : ∀ i j v w, c.eviction i = none → c.eviction j = none → d.eviction i = some v →
    d.eviction j = some w → v.addr = w.addr → i = j

theorem Succeeds.of_kept (kept : ∀ i v, d.eviction i = some v → c.eviction i = some v) :
    Succeeds c d := by
  constructor
  · intro i v w before after
    exact Option.some.inj (before.symm.trans (kept i w after))
  · intro i j v w vacant _ after
    rw [kept i v after] at vacant
    cases vacant

theorem Succeeds.of_carried
    (carried : ∀ i v, d.victims.get? i = some v → v.draining → v.destination ≠ .probe →
      c.victims.get? i = some v) : Succeeds c d := by
  refine .of_kept fun i v after => ?_
  obtain ⟨present, draining, aside⟩ := eviction_eq_some_iff.mp after
  exact eviction_eq_some_iff.mpr ⟨carried i v present draining aside, draining, aside⟩

theorem Succeeds.of_slot {slot : Slot} (vacant : c.eviction slot = none)
    (others : ∀ i, i ≠ slot → d.victims.get? i = c.victims.get? i) : Succeeds c d := by
  have elsewhere (i : Slot) (apart : i ≠ slot) : d.eviction i = c.eviction i := by
    rw [eviction, eviction, others i apart]
  have here (i : Slot) (v : Victim) (empty : c.eviction i = none) (after : d.eviction i = some v) :
      i = slot := by
    by_contra apart
    rw [elsewhere i apart, empty] at after
    cases after
  constructor
  · intro i v w before after
    have apart : i ≠ slot := by
      rintro rfl
      rw [vacant] at before
      cases before
    rw [elsewhere i apart, before] at after
    exact Option.some.inj after
  · intro i j v w empty vacated after later _
    rw [here i v empty after, here j w vacated later]

/-- Evictions that set out have sent their data, and the messages about a block are one at most. -/
theorem Good.succeeds_sent (good : c.Good) {sent : List Request}
    (carried : ∀ i v, d.victims.get? i = some v → v.draining → v.destination ≠ .probe →
      c.victims.get? i = some v ∨ v.request i ∈ sent)
    (loads : ∀ i, (d.victims.load i).toList = (c.victims.load i).toList ++ parcels (.victim i) sent)
    (single : ∀ b, (onBlock b sent).length ≤ 1) : Succeeds c d := by
  constructor
  · intro i v w before after
    obtain ⟨old, moving, _⟩ := eviction_eq_some_iff.mp before
    obtain ⟨present, draining, aside⟩ := eviction_eq_some_iff.mp after
    rcases carried i w present draining aside with stays | told
    · exact Option.some.inj (old.symm.trans stays)
    · -- a slot that was under way is not sent again
      have loaded : c.victims.load i = some (v.parcel i) := by
        rw [good.settled.load_eq, old]
        simp [Option.filter, moving]
      have under_way : w.parcel i ∈ parcels (.victim i) sent := by
        simp only [parcels, List.mem_filter, List.mem_filterMap]
        exact ⟨⟨_, told, rfl⟩, by simp [Victim.parcel, Parcel.target]⟩
      have count := congrArg List.length (loads i)
      have more := List.length_pos_of_mem under_way
      rw [loaded, List.length_append] at count
      have most : (d.victims.load i).toList.length ≤ 1 := by
        cases d.victims.load i <;> simp
      simp only [Option.toList_some, List.length_singleton] at count
      omega
  · intro i j v w vacant empty after later same
    have told (k : Slot) (u : Victim) (before : c.eviction k = none) (now : d.eviction k = some u) :
        u.request k ∈ sent := by
      obtain ⟨present, draining, aside⟩ := eviction_eq_some_iff.mp now
      rcases carried k u present draining aside with stays | told
      · rw [eviction_eq_some_iff.mpr ⟨stays, draining, aside⟩] at before
        cases before
      · exact told
    have about : v.request i ∈ onBlock v.addr sent :=
      List.mem_filter.mpr ⟨told i v vacant after, by simp [Victim.request, Request.block?]⟩
    have also : w.request j ∈ onBlock v.addr sent :=
      List.mem_filter.mpr ⟨told j w empty later, by simp [Victim.request, Request.block?, same]⟩
    have one := single v.addr
    rcases shape : onBlock v.addr sent with _ | ⟨q, _ | _⟩
    · rw [shape] at about
      cases about
    · rw [shape, List.mem_singleton] at about also
      have whole := about.trans also.symm
      simp only [Victim.request, Request.victim.injEq] at whole
      exact whole.1
    · rw [shape] at one
      simp at one

theorem get?_drainToCache (c : Controller) {slot i : Slot} (apart : i ≠ slot) :
    (c.drainToCache slot).victims.get? i = c.victims.get? i := by
  unfold drainToCache
  split
  · rfl
  · split
    · rw [VictimBuffer.get?_finish, if_neg (Ne.symm apart)]
    · rfl

theorem get?_foldl_drainToCache (picked : List Slot) (c : Controller) {i : Slot} (apart : i ∉ picked) :
    (picked.foldl drainToCache c).victims.get? i = c.victims.get? i := by
  induction picked generalizing c with
  | nil => rfl
  | cons slot rest ih =>
    obtain ⟨here, later⟩ := not_or.mp (List.mem_cons.not.mp apart)
    rw [List.foldl_cons, ih _ later, get?_drainToCache c here]

theorem get?_transferVictims {i : Slot}
    (rests : ∀ v d, c.victims.get? i = some v → v.waitsFor d = false) :
    c.transferVictims.victims.get? i = c.victims.get? i := by
  have left (b : VictimBuffer) (same : b.get? i = c.victims.get? i) (d : Destination) :
      (b.startTransfers d).2.get? i = c.victims.get? i ∧ i ∉ (b.startTransfers d).1 := by
    rw [VictimBuffer.get?_startTransfers, VictimBuffer.mem_startTransfers, same]
    cases present : c.victims.get? i with
    | none => simp
    | some v => simp [rests v d present]
  let start : Controller := { c with victims := (c.victims.startTransfers .cache).2 }
  let middle := (c.victims.startTransfers .cache).1.foldl drainToCache start
  obtain ⟨first, idle⟩ := left c.victims rfl .cache
  have halfway : middle.victims.get? i = c.victims.get? i :=
    (get?_foldl_drainToCache _ start idle).trans first
  simp only [transferVictims, foldl_sendVictim]
  exact (left middle.victims halfway .memory).1

theorem Good.succeeds_allocateVictim (good : c.Good) (a : Address) (data : Block) (d : Destination) :
    Succeeds c (c.allocateVictim a data d).2 := by
  rcases VictimBuffer.allocate_cases c.victims a data d with ⟨_, refused⟩ | ⟨_, slot, idle, taken⟩
  · simp only [Controller.allocateVictim, refused]
    exact .of_kept fun i v after => after
  · have vacant : c.eviction slot = none := by
      cases known : c.eviction slot with
      | none => rfl
      | some v =>
        obtain ⟨present, draining, _⟩ := eviction_eq_some_iff.mp known
        rw [idle v present] at draining
        cases draining
    refine .of_slot vacant fun i apart => ?_
    have cell : (VictimBuffer.mk (c.victims.slots.put slot
        { addr := a.block, data, destination := d })).get? i = c.victims.get? i := by
      rw [VictimBuffer.get?_put, if_neg (Ne.symm apart)]
    simp only [Controller.allocateVictim, taken]
    refine (get?_transferVictims ?_).trans cell
    intro v bound present
    exact good.settled.not_waits (cell.symm.trans present) bound

theorem Good.succeeds_retireVictim (good : c.Good) (a : Address) (data : Block) :
    Succeeds c (c.retireVictim a data).2 := by
  have taken := good.succeeds_allocateVictim a data .cache
  unfold Controller.retireVictim
  split
  · exact .of_kept fun i v after => after
  · split
    · rename_i shape
      rwa [shape] at taken
    · rename_i shape
      rw [shape] at taken
      exact ⟨taken.same, taken.alone⟩

theorem onBlock_length_le {b : Address} {before after : Holding} {sent : List Request}
    (fate : Fate b before after sent) : (onBlock b sent).length ≤ 1 := by
  cases fate with
  | kept _ quiet | clean _ _ quiet => simp [quiet]
  | dirty _ _ _ _ _ left => simp [left]

theorem Good.succeeds_perform (good : c.Good) (op : Operation) : Succeeds c (c.perform op) := by
  obtain ⟨sent, performed, _, due⟩ := good.performs op
  generalize after : c.perform op = d at performed due
  cases performed with
  | quiet _ _ quiet _ => exact .of_carried quiet.carried
  | issued r _ _ _ issued =>
    cases issued with
    | refused _ _ quiet => exact .of_carried quiet.carried
    | asked _ _ _ _ held => exact .of_carried held.carried
    | joined _ _ _ held => exact .of_carried held.carried
    | hit _ _ _ held => exact .of_carried held.carried
    | late _ _ _ held => exact .of_carried held.carried
    | barrier _ _ held => exact .of_carried held.carried
    | purged _ _ _ _ _ _ others _ fate _ carried =>
      refine good.succeeds_sent carried (fun i => due (.victim i)) fun b => ?_
      by_cases here : b.block = r.addr.block
      · exact onBlock_length_le (Fate.congr here fate)
      · simp [(others b here).2]
  | stored _ _ _ _ _ _ _ _ carried => exact .of_carried carried
  | flushed _ held => exact .of_carried held.carried
  | retired a bytes =>
    rw [← after]
    exact good.succeeds_retireVictim a bytes

theorem Good.succeeds_completeMiss (good : c.Good) (slot : Slot) (m : Completion) :
    Succeeds c (c.completeMiss slot m).2 := by
  unfold Controller.completeMiss
  split
  · exact .of_kept fun i v after => after
  · rename_i miss occupied
    simp only
    split
    · exact .of_kept fun i v after => after
    · rename_i present
      split
      · have victims : (c.takeOwnership miss.request.addr).victims = c.victims := by
          unfold takeOwnership
          split <;> rfl
        exact .of_kept fun i v after => (eviction_of_victims victims i).symm.trans after
      · rename_i unready
        have lost (upgrade : miss.request.access.isUpgrade) : c.line miss.request.addr = .absent := by
          apply good.toLevels.absent_of_invalid
          simpa only [upgrade, Bool.true_and, Bool.not_eq_true] using unready
        obtain ⟨sent, e, done, moved, sheds, taken⟩ := good.fills miss.request m present lost
        rw [done]
        have single (b : Address) : (onBlock b sent).length ≤ 1 := by
          cases taken with
          | aside | owned => simp
          | filled _ _ _ _ _ _ _ quiet others =>
            by_cases here : b.block = miss.request.addr.block
            · simp only [onBlock, here] at quiet ⊢
              simp [quiet]
            · exact onBlock_length_le (others b here)
        have next := good.succeeds_sent moved.carried sheds.loads single
        exact ⟨next.same, next.alone⟩

theorem Good.succeeds_complete (good : c.Good) (m : Completion) : Succeeds c (c.complete m).2 := by
  obtain ⟨target, bytes, shared, absent⟩ := m
  cases target with
  | victim slot => exact .of_carried (good.complete_aside _ (by simp)).carried
  | request id =>
    cases id with
    | ioWrite slot => exact .of_carried (good.complete_aside _ (by simp)).carried
    | miss slot =>
      have counted : Good { c with counters.completions := c.counters.completions + 1 } :=
        good.of_eq rfl rfl rfl
      have next := counted.succeeds_completeMiss slot ⟨.request (.miss slot), bytes, shared, absent⟩
      exact ⟨next.same, next.alone⟩

theorem eviction_concludeProbe (c : Controller) (p : Probe) (s : LineState) (found : Option Block)
    (victim : Option Slot) (i : Slot) :
    (c.concludeProbe p s found victim).2.eviction i = c.eviction i := by
  obtain ⟨r, d, shape, _, _, _, _, _, desk⟩ := c.concludeProbe_sends p s found victim
  rw [shape]
  exact eviction_of_victims (congrArg Desk.victims desk) i

theorem Good.succeeds_answerProbe (good : c.Good) (p : Probe) (s : LineState) :
    Succeeds c (c.answerProbe p s).2 := by
  unfold Controller.answerProbe
  split
  · exact .of_kept fun i v after => by rwa [eviction_concludeProbe] at after
  · rename_i bytes _
    split
    · rcases VictimBuffer.allocate_cases c.victims p.addr.block bytes .probe with
        ⟨_, refused⟩ | ⟨_, slot, _, taken⟩
      · simp only [refused]
        exact .of_kept fun i v after => after
      · simp only [taken]
        refine .of_kept fun i v after => ?_
        rw [eviction_concludeProbe] at after
        obtain ⟨present, draining, aside⟩ := eviction_eq_some_iff.mp after
        obtain ⟨_, kept⟩ := good.settled.probed slot p.addr.block.block bytes i v present
        exact eviction_eq_some_iff.mpr ⟨kept aside, draining, aside⟩
    · exact .of_kept fun i v after => by rwa [eviction_concludeProbe] at after

theorem Good.succeeds_handleProbe (good : c.Good) (p : Probe) : Succeeds c (c.handleProbe p).2 := by
  unfold Controller.handleProbe
  split
  · exact .of_kept fun i v after => after
  · simp only
    split
    · split
      · exact .of_kept fun i v after => after
      · exact good.succeeds_answerProbe p _
    · exact good.succeeds_answerProbe p _

theorem Good.succeeds_act (good : c.Good) (x : Action) : Succeeds c (c.act x) := by
  cases x with
  | operate op => exact good.succeeds_perform op
  | evict a bytes d => exact good.succeeds_allocateVictim a bytes d
  | snoop p => exact good.succeeds_handleProbe p
  | complete m => exact good.succeeds_complete m
  | drain => exact .of_kept fun i v after => after

theorem Succeeds.of_shelve {x : Action} (next : Succeeds c.shelve (c.shelve.act x)) :
    Succeeds c (c.act x) := by
  have after (i : Slot) : (c.shelve.act x).eviction i = (c.act x).eviction i := by
    rw [← eviction_shelve, shelve_act, eviction_shelve]
  constructor
  · intro i v w before later
    exact next.same i v w (by rwa [eviction_shelve]) ((after i).trans later)
  · intro i j v w vacant empty first second
    rw [← eviction_shelve] at vacant empty
    exact next.alone i j v w vacant empty ((after i).trans first) ((after j).trans second)

theorem succeeds_follow (good : c.shelve.Good) (actions : List Action) (x : Action) :
    Succeeds (c.follow actions) ((c.follow actions).act x) :=
  ((good_follow actions good).succeeds_act x).of_shelve

section order

variable (actions : List Action)

structure Arrived (c : Controller) (actions : List Action) (i : Slot) (v : Victim) (t : Nat) : Prop where
  inside : t < actions.length
  before : (c.follow (actions.take t)).eviction i = none
  since : ∀ n, t < n → n ≤ actions.length → (c.follow (actions.take n)).eviction i = some v

/-- `v` is the block of `b` as it was evicted last. -/
def Newest (c : Controller) (actions : List Action) (b : Address) (v : Victim) : Prop :=
  ∃ i t, Arrived c actions i v t ∧ v.addr = b.block ∧
    ∀ j w s, Arrived c actions j w s → w.addr = b.block → s ≤ t

variable {actions} {i j : Slot} {v w : Victim} {t : Nat}

theorem Arrived.eviction (arrived : Arrived c actions i v t) :
    (c.follow actions).eviction i = some v := by
  have last := arrived.since actions.length arrived.inside le_rfl
  rwa [List.take_length] at last

theorem Arrived.append (arrived : Arrived c actions i v t) {x : Action}
    (stays : ((c.follow actions).act x).eviction i = some v) : Arrived c (actions ++ [x]) i v t := by
  have inside := arrived.inside
  constructor
  · rw [List.length_append]
    omega
  · rw [List.take_append_of_le_length inside.le]
    exact arrived.before
  · intro n after within
    rw [List.length_append, List.length_singleton] at within
    by_cases earlier : n ≤ actions.length
    · rw [List.take_append_of_le_length earlier]
      exact arrived.since n after earlier
    · rw [List.take_of_length_le (by simp; omega), follow, List.foldl_append]
      exact stays

theorem arrived_of_eviction (good : c.shelve.Good) (fresh : c.eviction i = none)
    (present : (c.follow actions).eviction i = some v) : ∃ t, Arrived c actions i v t := by
  -- on the last action: the eviction set out with it, or was there before and is the same
  induction actions using List.reverseRecOn generalizing v with
  | nil =>
    rw [follow, List.foldl_nil, fresh] at present
    cases present
  | append_singleton earlier x ih =>
    have last : ((c.follow earlier).act x).eviction i = some v := by
      rwa [follow, List.foldl_append] at present
    cases known : (c.follow earlier).eviction i with
    | none =>
      refine ⟨earlier.length, by simp, by simpa using known, fun n after within => ?_⟩
      rw [List.take_of_length_le (by simpa [Nat.succ_le_iff] using after)]
      exact present
    | some w =>
      obtain rfl := (succeeds_follow good earlier x).same i w v known last
      obtain ⟨t, arrived⟩ := ih known
      exact ⟨t, arrived.append last⟩

theorem Arrived.unique (good : c.shelve.Good) (first : Arrived c actions i v t)
    (second : Arrived c actions j w t) (same : v.addr = w.addr) : v = w := by
  have inside := first.inside
  have step : c.follow (actions.take (t + 1)) = (c.follow (actions.take t)).act actions[t] := by
    rw [← List.take_append_getElem inside, follow, List.foldl_append]
    rfl
  have here := first.since (t + 1) (Nat.lt_succ_self t) inside
  have there := second.since (t + 1) (Nat.lt_succ_self t) inside
  rw [step] at here there
  obtain rfl := (succeeds_follow good _ _).alone i j v w first.before second.before here there same
  exact Option.some.inj (first.eviction.symm.trans second.eviction)

theorem Newest.unique {b : Address} (good : c.shelve.Good) (first : c.Newest actions b v)
    (second : c.Newest actions b w) : v = w := by
  obtain ⟨i, t, arrived, about, last⟩ := first
  obtain ⟨j, s, later, same, final⟩ := second
  obtain rfl : s = t := le_antisymm (last j w s later same) (final i v t arrived about)
  exact arrived.unique good later (about.trans same.symm)

theorem exists_newest {b : Address} (good : c.shelve.Good) (fresh : c.eviction i = none)
    (present : (c.follow actions).eviction i = some v) (about : v.addr = b.block) :
    ∃ w, c.Newest actions b w := by
  classical
  let due (t : Nat) : Prop := ∃ j w, Arrived c actions j w t ∧ w.addr = b.block
  obtain ⟨t, arrived⟩ := arrived_of_eviction good fresh present
  obtain ⟨j, w, latest, same⟩ : due (Nat.findGreatest due actions.length) :=
    Nat.findGreatest_spec arrived.inside.le ⟨i, v, arrived, about⟩
  refine ⟨w, j, _, latest, same, fun k u s other alike => ?_⟩
  exact Nat.le_findGreatest other.inside.le ⟨k, u, other, alike⟩

end order

/-- `i` is the lowest slot that drains the block of `b`, and holds `v`. -/
structure Foremost (c : Controller) (b : Address) (i : Slot) (v : Victim) : Prop where
  present : c.victims.get? i = some v
  draining : v.draining
  about : v.addr = b.block
  first : ∀ j < i, ∀ w, c.victims.get? j = some w → w.draining → w.addr ≠ b.block

theorem foremost_iff {b : Address} {i : Slot} {v : Victim} :
    c.victims.findDraining b = some (i, v) ↔ Foremost c b i v := by
  constructor
  · intro found
    obtain ⟨present, drains⟩ := Slots.find?_some found
    simp only [Bool.and_eq_true, beq_iff_eq] at drains
    refine ⟨present, drains.1, drains.2, fun j lower w at_j draining about => ?_⟩
    have refused := Slots.find?_least found lower at_j
    simp [draining, about] at refused
  · intro foremost
    cases found : c.victims.findDraining b with
    | none =>
      have refused := Slots.find?_eq_none.mp found i v foremost.present
      simp [foremost.draining, foremost.about] at refused
    | some hit =>
      obtain ⟨j, w⟩ := hit
      obtain ⟨present, drains⟩ := Slots.find?_some found
      simp only [Bool.and_eq_true, beq_iff_eq] at drains
      rcases Nat.lt_trichotomy i j with lower | same | lower
      · have refused := Slots.find?_least found lower foremost.present
        simp [foremost.draining, foremost.about] at refused
      · obtain rfl : i = j := Fin.ext same
        rw [Option.some.inj (present.symm.trans foremost.present)]
      · exact absurd drains.2 (foremost.first j lower w present drains.1)

/-- What an eviction obliges a controller to answer about a block that its caches have given up: the
data that were evicted last, and a miss if the hub has accepted everything. -/
inductive Honest (c : Controller) (actions : List Action) (b : Address) (r : ProbeReply) : Prop
  | gone (accepted : ∀ i v, (c.follow actions).eviction i = some v → v.addr ≠ b.block)
      (status : r.status = .miss) (data : r.data = none)
  | kept (v : Victim) (newest : c.Newest actions b v) (status : r.status = .hitDirty)
      (data : r.data = some v.data)

theorem answerProbe_lost (c : Controller) (p : Probe) {s : LineState} (lost : s.valid = false) :
    ∃ r d, c.answerProbe p s = (.ok r, d) ∧ r.status = .miss ∧ r.data = none ∧ d.tags = c.tags ∧
      d.cache = c.cache ∧ d.victims = c.victims := by
  have missed : p.command.movement.isHit s = false :=
    Bool.eq_false_of_not_eq_true fun hit => by simp [DataMovement.valid_of_isHit hit] at lost
  have silent : p.command.movement.returnsData s = false :=
    Bool.eq_false_of_not_eq_true fun asks => by simp [DataMovement.valid_of_returnsData asks] at lost
  have nothing_found : c.probedBlock p s = none := by simp [probedBlock, missed, silent]
  refine ⟨_, _, by rw [answerProbe, nothing_found]; rfl, ?_⟩
  simp [probeStatus, missed, send]

theorem eviction_ofRegisters {cpu : Nat} {registers : Registers}
    (built : ofRegisters cpu registers = .ok c) (i : Slot) : c.eviction i = none := by
  unfold ofRegisters at built
  split at built
  · cases built
  · cases built
    simp [eviction, VictimBuffer.empty, VictimBuffer.get?]

section answers

variable {actions : List Action} {b : Address}

/-- No older data of the block of `b` drain in a slot below what was evicted last. -/
def Exposed (c : Controller) (actions : List Action) (b : Address) : Prop :=
  ∀ v, c.Newest actions b v →
    ∃ i w, Foremost (c.follow actions) b i w ∧ w.destination ≠ .probe ∧ w.data = v.data

theorem evictedBlock_eq_some_iff {data : Block} :
    c.evictedBlock b = some data ↔
      ∃ i v, Foremost c b i v ∧ v.destination ≠ .probe ∧ v.data = data := by
  simp only [evictedBlock, ← foremost_iff]
  rcases c.victims.findDraining b with _ | ⟨i, v⟩
  · simp
  · simp

theorem exposed_iff : c.Exposed actions b ↔
    ∀ v, c.Newest actions b v → (c.follow actions).evictedBlock b = some v.data := by
  simp only [Exposed, evictedBlock_eq_some_iff]

theorem Newest.eviction {v : Victim} (newest : c.Newest actions b v) :
    ∃ i, (c.follow actions).eviction i = some v ∧ v.addr = b.block := by
  obtain ⟨i, t, arrived, about, _⟩ := newest
  exact ⟨i, arrived.eviction, about⟩

theorem honest_hit_iff (good : c.shelve.Good) (fresh : ∀ i, c.eviction i = none) {data : Block}
    (offered : (c.follow actions).evictedBlock b = some data) {r : ProbeReply}
    (status : r.status = .hitDirty) (carried : r.data = some data) :
    Honest c actions b r ↔ c.Exposed actions b := by
  rw [exposed_iff]
  constructor
  · intro honest v newest
    cases honest with
    | gone _ miss => cases status.symm.trans miss
    | kept w last _ told => rw [offered, ← carried, told, newest.unique good last]
  · intro exposed
    obtain ⟨i, w, foremost, aside, _⟩ := evictedBlock_eq_some_iff.mp offered
    have present := eviction_eq_some_iff.mpr ⟨foremost.present, foremost.draining, aside⟩
    obtain ⟨v, newest⟩ := exists_newest good (fresh i) present foremost.about
    exact .kept v newest status (by rw [carried, ← offered, exposed v newest])

theorem honest_miss_iff (good : c.shelve.Good) (fresh : ∀ i, c.eviction i = none)
    (silent : (c.follow actions).evictedBlock b = none) {r : ProbeReply} (status : r.status = .miss)
    (data : r.data = none) : Honest c actions b r ↔ c.Exposed actions b := by
  rw [exposed_iff, silent]
  constructor
  · intro honest v newest
    cases honest with
    | gone accepted =>
      obtain ⟨i, present, about⟩ := newest.eviction
      exact absurd about (accepted i v present)
    | kept _ _ hit => cases status.symm.trans hit
  · intro exposed
    refine .gone (fun i v present about => ?_) status data
    obtain ⟨w, newest⟩ := exists_newest good (fresh i) present about
    cases exposed w newest

/-- It makes no difference which eviction is found if all of them have the same data. -/
theorem exposed_of_alike {data : Block} (offered : (c.follow actions).evictedBlock b = some data)
    (alike : ∀ i, ((c.follow actions).eviction i).all (·.data == data)) : c.Exposed actions b := by
  rw [exposed_iff]
  intro v newest
  obtain ⟨i, present, _⟩ := newest.eviction
  have same := alike i
  rw [present, Option.all_some, beq_iff_eq] at same
  rw [offered, same]

end answers

/-- A probe of a block that the caches have given up moves nothing, and it is answered as it should
be exactly when what was evicted last is the first of the block to drain. -/
theorem honest_follow_iff {cpu : Nat} {registers : Registers}
    (built : ofRegisters cpu registers = .ok c) (actions : List Action) (p : Probe)
    (live : p.command.next.isReserved = false) (asks : p.command.movement ≠ .nothing)
    (lost : ((c.follow actions).lookup p.addr.block).valid = false) :
    ∃ r d, (c.follow actions).handleProbe p = (.ok r, d) ∧ d.tags = (c.follow actions).tags ∧
      d.cache = (c.follow actions).cache ∧ d.victims = (c.follow actions).victims ∧
      (Honest c actions p.addr.block r ↔ c.Exposed actions p.addr.block) := by
  have start := good_ofRegisters built
  have good : c.shelve.Good := by rwa [start.shelve_eq]
  have fresh := eviction_ofRegisters built
  have taken : !((c.follow actions).lookup p.addr.block).valid && p.command.movement != .nothing := by
    simp [lost, asks]
  unfold Controller.handleProbe
  simp only [live, taken, if_true]
  cases offered : (c.follow actions).evictedBlock p.addr.block with
  | some data =>
    exact ⟨_, _, rfl, rfl, rfl, rfl, honest_hit_iff good fresh offered rfl rfl⟩
  | none =>
    obtain ⟨r, d, answered, status, data, tags, cache, victims⟩ :=
      (c.follow actions).answerProbe_lost p lost
    exact ⟨r, d, answered, tags, cache, victims, honest_miss_iff good fresh offered status data⟩

/-- Block 0 is stored to and evicted. -/
def evicting : List Action :=
  owning ++ [.operate (.store ⟨0⟩ [0x5a]), .operate (.issue (.to .purge 0))]

/-- The probe is given what was stored. -/
theorem honest_evicting :
    ∃ c r d, ofSize 0 .mb1 = .ok c ∧
      (c.follow evicting).handleProbe ⟨7, ⟨0⟩, ProbeCommand.encode ⟨.always, .invalid⟩⟩ = (.ok r, d) ∧
      Honest c evicting ⟨0⟩ r ∧ r.data = some (Block.zero.write 0 [0x5a]) := by
  have built : ofRegisters 0 (.forCache .mb1) = .ok _ := rfl
  obtain ⟨r, d, answered, _, _, _, judged⟩ := honest_follow_iff built evicting
    ⟨7, ⟨0⟩, ProbeCommand.encode ⟨.always, .invalid⟩⟩ (by decide) (by decide) (by decide +kernel)
  have told := congrArg Prod.fst answered
  refine ⟨_, r, d, built, answered, judged.mpr (exposed_of_alike
    (show evictedBlock _ ⟨0⟩ = some (Block.zero.write 0 [0x5a]) from ?_) ?_), ?_⟩
  · decide +kernel
  · decide +kernel
  · have whole : (.ok r : Except Fault ProbeReply) = .ok
        { txn := 7, addr := ⟨0⟩, status := .hitDirty, data := some (Block.zero.write 0 [0x5a]) } := by
      refine told.symm.trans ?_
      decide +kernel
    cases whole
    rfl

/-- A probe takes block 0, which is then stored to again and evicted, before the hub has accepted
what the probe took. -/
def shadowing : List Action :=
  owning ++ [.operate (.store ⟨0⟩ [0x5a]), .snoop ⟨6, ⟨0⟩, ProbeCommand.encode ⟨.always, .invalid⟩⟩] ++
    owning ++ [.operate (.store ⟨0⟩ [0x77]), .operate (.issue (.to .purge 0))]

def shadowed : Victim :=
  { addr := ⟨0⟩, data := Block.zero.write 0 [0x77], destination := .memory, phase := .inTransfer }

/-- The eviction drains in slot 1, yet a probe is told that nothing is there. -/
theorem not_honest_shadowing :
    ∃ c r, ofSize 0 .mb1 = .ok c ∧ ((c.follow shadowing).lookup ⟨0⟩).valid = false ∧
      (c.follow shadowing).eviction 1 = some shadowed ∧
      ((c.follow shadowing).handleProbe ⟨7, ⟨0⟩, ProbeCommand.encode ⟨.always, .invalid⟩⟩).1 = .ok r ∧
      r.status = .miss ∧ ¬ Honest c shadowing ⟨0⟩ r := by
  have built : ofRegisters 0 (.forCache .mb1) = .ok _ := rfl
  have unfair {c : Controller} {r : ProbeReply}
      (present : (c.follow shadowing).eviction 1 = some shadowed) (status : r.status = .miss) :
      ¬ Honest c shadowing ⟨0⟩ r := by
    intro honest
    cases honest with
    | gone accepted => exact accepted 1 shadowed present rfl
    | kept _ _ hit => cases status.symm.trans hit
  refine ⟨_, { txn := 7, addr := ⟨0⟩, status := .miss }, built, ?_, ?_, ?_, rfl, unfair ?_ rfl⟩
  · decide +kernel
  · decide +kernel
  · decide +kernel
  · decide +kernel

end Controller
end CacheCoherence
