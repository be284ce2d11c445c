import CacheCoherence.Proofs.Gathering
import CacheCoherence.Proofs.Keeping

namespace CacheCoherence

/-- The store as a CPU makes it, with the lane mask of its bytes. -/
def IoStore.Derived (s : IoStore) : Prop := ∃ a data waiters, s = .ofBytes a data waiters

def WriteBuffer.Laned (b : WriteBuffer) : Prop := ∀ slot w, b.get? slot = some w → Lanes w.mask w.written

/-- The masks of a run of bytes, and that no shift on the way to them is by a whole word. -/
structure MasksAgree (offset length : Nat) : Prop where
  bytes : ∀ n, (byteMask offset length).toNat.testBit n = true ↔ offset ≤ n ∧ n < offset + length ∧ n < 64
  lanes : Lanes (laneMask offset length) (byteMask offset length)
  byteShifts : byteMask? offset length = some (byteMask offset length)
  laneShifts : laneMask? offset length = some (laneMask offset length)

theorem masksAgree (offset length : Nat) : MasksAgree offset length where
  bytes n := by rw [testBit_byteMask, decide_eq_true_eq]
  lanes := lanes_laneMask offset length
  byteShifts := byteMask?_eq offset length
  laneShifts := laneMask?_eq offset length

theorem IoStore.Derived.lanes {s : IoStore} (derived : s.Derived) :
    Lanes s.mask (byteMask s.addr.offset s.length) := by
  obtain ⟨a, data, waiters, rfl⟩ := derived
  exact lanes_laneMask a.offset data.length

theorem IoWrite.lanes_join {w : IoWrite} {s : IoStore} (agree : Lanes w.mask w.written)
    (derived : s.Derived) : Lanes (w.join s).mask (w.join s).written := by
  have joined : Lanes (w.mask ||| s.mask) (w.written ||| byteMask s.addr.offset s.length) :=
    agree.or derived.lanes
  exact joined

namespace WriteBuffer.Laned

variable {b d : WriteBuffer}

theorem advance (laned : b.Laned) (advances : b.Advances d) : d.Laned := by
  intro slot w present
  obtain ⟨x, before, _, same⟩ := advances slot w present
  rw [same]
  exact laned slot x before

theorem put (laned : b.Laned) {w : IoWrite} (agree : Lanes w.mask w.written) (slot : Slot) :
    Laned ⟨b.slots.put slot w⟩ := by
  intro i x present
  rw [get?, Slots.get?_put] at present
  split at present
  · cases present
    exact agree
  · exact laned i x present

theorem allocate (laned : b.Laned) {s : IoStore} (derived : s.Derived) : (b.allocate s).2.Laned := by
  rcases allocate_cases b s with
    ⟨fault, refused⟩ | ⟨slot, w, _, present, _, joined⟩ | ⟨slot, _, alone⟩
  · rw [refused]
    exact laned
  · have agree := IoWrite.lanes_join (laned slot w present) derived
    rw [joined]
    exact laned.put agree slot
  · have agree : Lanes (IoWrite.ofStore s).mask (IoWrite.ofStore s).written := derived.lanes
    rw [alone]
    exact laned.put agree slot

theorem empty : Laned .empty := by
  intro slot w present
  rw [WriteBuffer.empty, get?, Slots.get?_empty] at present
  cases present

theorem run {calls : List Call} (derived : ∀ s, .store s ∈ calls → s.Derived) :
    (Ledger.run calls).buffer.Laned := by
  induction calls using List.reverseRecOn with
  | nil => exact empty
  | append_singleton earlier x ih =>
    have before := ih fun s member => derived s (List.mem_append_left _ member)
    rw [Ledger.run, List.foldl_append]
    cases x with
    | store s => exact before.allocate (derived s (List.mem_append_right _ List.mem_cons_self))
    | issue => exact before.advance (advances_issue _)
    | complete slot => exact before.advance (advances_complete _ slot)

end WriteBuffer.Laned

namespace Controller

def Laned (c : Controller) : Prop := c.Good ∧ c.writes.Laned

variable {c : Controller}

theorem Good.writes_handleProbe (good : c.Good) (p : Probe) :
    (c.handleProbe p).2.writes = c.writes := by
  rcases good.handleProbe_replies p with ⟨r, d, outcome, replies⟩ | ⟨fault, d, outcome, _, desk, _⟩
  · rw [outcome]
    exact replies.writes
  · rw [outcome]
    exact congrArg Desk.writes desk

theorem laned_stable : Stable Laned where
  complete {c} m laned := ⟨laned.1.complete m, laned.2.advance (c.advances_writes_complete m)⟩
  handleProbe {c} p laned := by
    refine ⟨laned.1.handleProbe_good p, ?_⟩
    rw [laned.1.writes_handleProbe p]
    exact laned.2
  takeRequests laned := ⟨laned.1.of_eq rfl rfl rfl, laned.2⟩

theorem Laned.perform (laned : c.Laned) {op : Operation} (derived : ∀ s, op = .storeIo s → s.Derived) :
    (c.perform op).Laned := by
  refine ⟨laned.1.of_perform op, ?_⟩
  by_cases stores : ∃ s, op = .storeIo s
  · obtain ⟨s, rfl⟩ := stores
    rw [show (c.perform (.storeIo s)).writes = _ from congrArg Desk.writes (storeIo_desk c s).1]
    exact laned.2.allocate (derived s rfl)
  · obtain ⟨sent, mails⟩ := mailed_perform c fun s same => stores ⟨s, same⟩
    exact laned.2.advance mails.entries

theorem Laned.allocateVictim (laned : c.Laned) (a : Address) (data : Block) {d : Destination}
    (outward : d ≠ .probe) : (c.allocateVictim a data d).2.Laned := by
  obtain ⟨_, posing⟩ := Pass.posing_allocateVictim laned.1 a data outward
  obtain ⟨_, shed⟩ := shed_allocateVictim c a data d
  refine ⟨posing.good, ?_⟩
  rw [shed.writes]
  exact laned.2

end Controller

/-- The masks of a run of bytes agree, clipped to the block. So they do in every entry of a write buffer whose
stores have the lane masks of their bytes, and in every entry of every CPU of a machine all of whose stores
to the I/O space have them, after any commands. -/
theorem masks_agree_run {σ : Type} {a : Allocator σ} {st : σ} {settings : Settings} {m : Machine}
    (built : (Machine.build a st settings).1.outcome = .ok m) {commands : List Command}
    (derived : ∀ cpu s, .call (.operate cpu (.storeIo s)) ∈ commands → s.Derived) :
    (∀ offset length, MasksAgree offset length) ∧
      (∀ calls : List WriteBuffer.Call, (∀ s, .store s ∈ calls → s.Derived) →
        (WriteBuffer.Ledger.run calls).buffer.Laned) ∧
      ∀ k c, (m.fabric.obey commands).controller? k = some c → c.writes.Laned := by
  obtain ⟨_, growing, _⟩ := Machine.growing_of_build built
  have start : m.fabric.Each Controller.Laned := by
    intro n member
    have blank := growing.nodes n member
    refine ⟨blank.good, ?_⟩
    rw [blank.writes]
    exact .empty
  have legal (cpu : Nat) (op : Operation) (member : .call (.operate cpu op) ∈ commands) (s : IoStore)
      (same : op = .storeIo s) : s.Derived := derived cpu s (same ▸ member)
  have reached := Fabric.Each.obey Controller.laned_stable (fun _ _ legal laned => laned.perform legal)
    (fun _ a data _ outward laned => laned.allocateVictim a data outward) start legal
  refine ⟨masksAgree, fun _ => WriteBuffer.Laned.run, fun k c present => ?_⟩
  obtain ⟨n, there, rfl⟩ := Option.map_eq_some_iff.mp present
  exact (reached.node there).2

/-- CPU 0 stores a byte, and another byte two lanes further on. -/
def twoLanes : List Command :=
  [.call (.operate 0 (.storeIo (.ofBytes ⟨ioBit + 3⟩ [1] []))),
    .call (.operate 0 (.storeIo (.ofBytes ⟨ioBit + 19⟩ [2] [])))]

theorem twoLanes_agree :
    (Machine.build Heap.allocator {} .pair).1.outcome = .ok .pair ∧
      (∀ cpu s, .call (.operate cpu (.storeIo s)) ∈ twoLanes → s.Derived) ∧
      ((Machine.pair.fabric.obey twoLanes).controller? 0).any (fun c =>
        (c.writes.get? 0).any fun w => w.mask == 5 && w.written == 0x80008) ∧
      ∀ k c, (Machine.pair.fabric.obey twoLanes).controller? k = some c → c.writes.Laned := by
  have derived (cpu : Nat) (s : IoStore) (member : .call (.operate cpu (.storeIo s)) ∈ twoLanes) :
      s.Derived := by
    simp only [twoLanes, List.mem_cons, List.not_mem_nil, Command.call.injEq, Call.operate.injEq,
      Operation.storeIo.injEq, or_false] at member
    rcases member with ⟨_, same⟩ | ⟨_, same⟩
    · exact ⟨_, _, _, same⟩
    · exact ⟨_, _, _, same⟩
  refine ⟨Machine.pair_built, derived, ?_, (masks_agree_run Machine.pair_built derived).2.2⟩
  decide +kernel

end CacheCoherence
