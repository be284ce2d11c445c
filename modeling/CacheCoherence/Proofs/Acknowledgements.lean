import CacheCoherence.Proofs.Commands

namespace CacheCoherence

namespace Request

def carries (i : Slot) : Request → Option (Address × Option Block)
  | .victim slot a data => if slot = i then some (a, some data) else none
  | .reply r => if r.victim = some i then some (r.addr, r.data) else none
  | .read .. | .ioWrite .. | .barrier _ => none

def names (i : Slot) : Request → Bool
  | .ioWrite id _ _ _ _ => id == .ioWrite i
  | .read .. | .victim .. | .reply _ | .barrier _ => false

end Request

theorem parcels_carries (i : Slot) (messages : List Request) :
    parcels (.victim i) messages =
      (messages.filterMap (·.carries i)).map fun x => .block i x.1 x.2 := by
  induction messages with
  | nil => rfl
  | cons q rest ih =>
    have split : (q :: rest).filterMap (·.carries i) =
        [q].filterMap (·.carries i) ++ rest.filterMap (·.carries i) := by
      rw [← List.filterMap_append, List.singleton_append]
    rw [parcels_cons, ih, split, List.map_append]
    congr 1
    cases q with
    | read | ioWrite | barrier => cases ‹RequestId› <;> rfl
    | victim slot a data =>
      by_cases here : slot = i
      · simp [parcels, Request.parcel?, Parcel.target, Request.carries, here]
      · simp [parcels, Request.parcel?, Parcel.target, Request.carries, here]
    | reply r =>
      cases named : r.victim with
      | none => simp [parcels, Request.parcel?, Request.carries, named]
      | some slot =>
        by_cases here : slot = i
        · simp [parcels, Request.parcel?, Parcel.target, Request.carries, named, here]
        · simp [parcels, Request.parcel?, Parcel.target, Request.carries, named, here]

theorem parcels_names (i : Slot) (messages : List Request) :
    (parcels (.request (.ioWrite i)) messages).length = messages.countP (·.names i) := by
  induction messages with
  | nil => rfl
  | cons q rest ih =>
    rw [parcels_cons, List.length_append, ih, List.countP_cons, Nat.add_comm]
    congr 1
    cases q with
    | read | barrier => rfl
    | victim slot a data => simp [parcels, Request.parcel?, Parcel.target, Request.names]
    | reply r =>
      cases named : r.victim <;>
        simp [parcels, Request.parcel?, Parcel.target, Request.names, named]
    | ioWrite id a data mask written =>
      cases id with
      | miss slot => rfl
      | ioWrite slot =>
        by_cases here : slot = i
        · simp [parcels, Request.parcel?, Parcel.target, Request.names, here]
        · simp [parcels, Request.parcel?, Parcel.target, Request.names, here]

/-- Of the messages in `queue`, one names each slot that is under way, and none names another slot. -/
structure Controller.Owed (c : Controller) (queue : List Request) : Prop where
  victims : ∀ i, queue.filterMap (·.carries i) =
    ((c.victims.get? i).filter Victim.draining).toList.map fun v => (v.addr, some v.data)
  writes : ∀ i, queue.countP (·.names i) =
    if (c.writes.get? i).any fun w => w.issued && !w.acknowledged then 1 else 0

/-- Also in the middle of a pass, where part of the queue is with the hub. -/
theorem Pass.Sound.owed {lay : Layout} {s : Pass} (sound : Pass.Sound lay s) {k : Nat} {c : Controller}
    (present : s.fabric.controller? k = some c) : c.Owed (s.queue k) := by
  have desk : s.traffic.desk k = c.desk := by simp [Pass.traffic, present]
  have accounted (x : CompletionTarget) : parcels x (s.queue k) = (c.desk.due x).toList := by
    rw [← desk]
    exact sound.traffic.accounted k x
  constructor
  · intro i
    have settled := (sound.steady.good k c present).settled
    have named := accounted (.victim i)
    rw [parcels_carries] at named
    simp only [Desk.due, Controller.desk, settled.load_eq i] at named
    have apart : Function.Injective fun x : Address × Option Block => Parcel.block i x.1 x.2 := by
      rintro ⟨a, data⟩ ⟨b, other⟩ same
      cases same
      rfl
    refine apart.list_map (named.trans ?_)
    cases (c.victims.get? i).filter Victim.draining <;> rfl
  · intro i
    have named := congrArg List.length (accounted (.request (.ioWrite i)))
    rw [parcels_names] at named
    rw [named]
    simp only [Desk.due, Controller.desk, WriteBuffer.load]
    cases present : c.writes.get? i with
    | none => rfl
    | some w => cases under_way : w.issued && !w.acknowledged <;> simp [Option.filter, under_way]

/-- Whatever is commanded, each slot that is under way is owed one acknowledgement: between commands,
and at any moment of the pass that comes next. -/
theorem acknowledged_once {σ : Type} {a : Allocator σ} {st : σ} {settings : Settings} {m : Machine}
    (built : (Machine.build a st settings).1.outcome = .ok m) (commands : List Command) :
    (∀ k c, (m.fabric.obey commands).controller? k = some c → c.Owed c.outbound) ∧
    ∀ s, Pass.Works { fabric := m.fabric.obey commands } s →
      ∀ k c, s.fabric.controller? k = some c → c.Owed (s.queue k) := by
  obtain ⟨lay, sound⟩ := Machine.sound_of_obey built commands
  constructor
  · intro k c present
    have owed := sound.owed present
    simpa [Pass.queue, present] using owed
  · intro s works k c present
    exact (sound.works works).owed present

/-- CPU 0 sends a victim, a write to the I/O space and a barrier. -/
def deposits : List Command :=
  [.evict 0 ⟨0x40⟩ .zero .memory (by decide),
    .call (.operate 0 (.storeIo (.ofBytes ⟨ioBit⟩ [1] []))),
    .call (.operate 0 (.issue (.to .barrier 0)))]

theorem deposits_acknowledged :
    (Machine.build Heap.allocator {} .pair).1.outcome = .ok .pair ∧
      (∀ k c, (Machine.pair.fabric.obey deposits).controller? k = some c → c.Owed c.outbound) ∧
      ((Machine.pair.fabric.obey deposits).controller? 0).map
        (fun c => (c.outbound.filterMap (·.carries 0), c.outbound.countP (·.names 0))) =
          some ([(⟨0x40⟩, some .zero)], 1) :=
  ⟨Machine.pair_built, (acknowledged_once Machine.pair_built deposits).1, by decide +kernel⟩

end CacheCoherence
