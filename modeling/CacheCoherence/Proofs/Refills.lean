import CacheCoherence.Proofs.Keeping
import CacheCoherence.Proofs.Ownership

namespace CacheCoherence

def Fabric.Sound (f : Fabric) : Prop := f.Each Controller.Good

theorem Controller.good_stable : Controller.Stable Controller.Good where
  complete m good := good.complete m
  handleProbe p good := good.handleProbe_good p
  takeRequests good := good.of_eq rfl rfl rfl

theorem Fabric.Sound.step {s t : Pass} {mover : Mover} (sound : s.fabric.Sound) (step : s.Step mover t) :
    t.fabric.Sound := by
  cases mover with
  | pipeline cpu op =>
    cases step
    exact Fabric.Each.withController sound cpu fun c good => Controller.Good.of_perform good op
  | machine => exact Fabric.Each.machine Controller.good_stable sound step

theorem Reaches.sound {d : Discipline} {start : Fabric} {values now : Ledger} {s : Pass}
    (sound : start.Sound) (reached : Reaches d start values s now) : s.fabric.Sound := by
  induction reached with
  | start => exact sound
  | step _ _ moves ih => exact ih.step moves

theorem Machine.sound_of_build {σ : Type} {a : Allocator σ} {st : σ} {settings : Settings}
    {m : Machine} (built : (Machine.build a st settings).1.outcome = .ok m) : m.fabric.Sound := by
  obtain ⟨_, growing, _⟩ := growing_of_build built
  exact fun n member => (growing.nodes n member).good

namespace Controller

variable {c : Controller} {slot : Slot} {r : Reference} {m : Completion}

/-- An answer leaves a dirty line alone if it raises the line or fills nothing. Any other answer must
bring the data that the line has, and the line stays dirty if the reference is a store, or if the
duplicate tags keep their dirty copy because the victim buffer is full. -/
theorem Good.keeps_dirty_iff (good : c.Good) (waits : c.wanted slot = some r)
    (dirty : (c.lookup r.addr).isDirty) (target : m.target = .request (.miss slot)) :
    ((c.complete m).2.lookup r.addr).isDirty ∧
        (c.complete m).2.cache.read r.addr = c.cache.read r.addr ↔
      r.access.isUpgrade ∨ m.brings = none ∨ r.addr.isIo ∨ c.cache.read r.addr = m.brings ∧
        (r.access.needsOwnership ∨
          c.victims.hasRoom = false ∧ (c.tags.stateOf r.addr).isDirty) := by
  have held : (c.line r.addr).dirty := dirty
  have present : c.line r.addr ≠ .absent := by
    intro absent
    rw [absent] at held
    cases held
  obtain ⟨sent, answered⟩ := good.complete_wanted waits target
  obtain ⟨answer, _, taken⟩ := answered.taken
  generalize (c.complete m).2 = d at taken
  change ((d.line r.addr).dirty ∧ (d.line r.addr).copy = (c.line r.addr).copy) ↔
    r.access.isUpgrade ∨ m.brings = none ∨ r.addr.isIo ∨ (c.line r.addr).copy = m.brings ∧ _
  cases taken with
  | aside lines unfilled =>
    rw [lines]
    refine ⟨fun _ => ?_, fun _ => ⟨held, rfl⟩⟩
    rcases unfilled with empty | io | absent
    · exact .inr (.inl empty)
    · exact .inr (.inr (.inl io))
    · exact absurd absent present
  | owned upgrade own copy _ lines =>
    rw [lines, if_pos rfl, copy]
    simp [upgrade]
  | filled data delivered cacheable lost _ line =>
    have lower : ¬ r.access.isUpgrade := fun upgrade => present (lost upgrade)
    have bytes : (some data = (c.line r.addr).copy) ↔ (c.line r.addr).copy = some data := eq_comm
    have state : (⟨!c.victims.hasRoom, (c.tags.stateOf r.addr).isDirty, false⟩ : LineState).isDirty =
        (!c.victims.hasRoom && (c.tags.stateOf r.addr).isDirty) := rfl
    simp only [line, lineOf, state, bytes, lower, delivered, cacheable, Bool.false_eq_true, false_or,
      Bool.or_eq_true, Bool.and_eq_true, Bool.not_eq_true', reduceCtorEq]
    constructor
    · rintro ⟨kept | owns, same⟩
      · exact ⟨same, .inr kept⟩
      · exact ⟨same, .inl owns⟩
    · rintro ⟨same, owns | kept⟩
      · exact ⟨.inr owns, same⟩
      · exact ⟨.inl kept, same⟩

end Controller

/-- Any call may be made. -/
def Free : Discipline := fun _ _ _ => True

instance (f : Fabric) (cpu : Nat) (op : Operation) : Decidable (Free f cpu op) := isTrue trivial

/-- Wherever a run is, an answer that meets a dirty line leaves it dirty with its data exactly when it
raises the line, or fills nothing, or brings the same data and is for a store, or finds the victim
buffer full and the line dirty in the duplicate tags. -/
theorem answer_keeps_dirty_iff {σ : Type} {a : Allocator σ} {st : σ} {settings : Settings}
    {m : Machine} (built : (Machine.build a st settings).1.outcome = .ok m) {values now : Ledger}
    {s : Pass} (reached : Reaches Free m.fabric values s now) {k : Nat} {c : Controller}
    (present : s.fabric.controller? k = some c) {slot : Slot} {r : Reference}
    (waits : c.wanted slot = some r) (dirty : (c.lookup r.addr).isDirty) {answer : Completion}
    (target : answer.target = .request (.miss slot)) :
    ((c.complete answer).2.lookup r.addr).isDirty ∧
        (c.complete answer).2.cache.read r.addr = c.cache.read r.addr ↔
      r.access.isUpgrade ∨ answer.brings = none ∨ r.addr.isIo ∨
        c.cache.read r.addr = answer.brings ∧
          (r.access.needsOwnership ∨
            c.victims.hasRoom = false ∧ (c.tags.stateOf r.addr).isDirty) := by
  have sound := reached.sound (Machine.sound_of_build built)
  obtain ⟨n, at_k, rfl⟩ := Option.map_eq_some_iff.mp present
  exact (Fabric.Each.node sound at_k).keeps_dirty_iff waits dirty target

/-- No answer undoes a store of a careful run: what asks to read or to modify a block has no line of it. -/
theorem careful_answer_keeps_dirty {σ : Type} {a : Allocator σ} {st : σ} {settings : Settings}
    {m : Machine} (built : (Machine.build a st settings).1.outcome = .ok m) {values now : Ledger}
    {s : Pass} (reached : Reaches Careful m.fabric values s now) {k : Nat} {c : Controller}
    (present : s.fabric.controller? k = some c) {slot : Slot} {r : Reference}
    (waits : c.wanted slot = some r) {kind : ReadKind} (reads : r.access.readKind = some kind)
    (other : kind ≠ .claim) (dirty : (c.lookup r.addr).isDirty) {answer : Completion}
    (target : answer.target = .request (.miss slot)) :
    ((c.complete answer).2.lookup r.addr).isDirty ∧
      (c.complete answer).2.cache.read r.addr = c.cache.read r.addr := by
  obtain ⟨lay, started⟩ := Machine.started_of_build built
  have held := reached.owned started
  have good := held.steady.good k c present
  have aligned := Address.block_block r.addr
  obtain ⟨own, copy⟩ := good.toLevels.copy_of_dirty (a := r.addr) dirty
  have asks : ((s.view now).focus r.addr.block).asks k slot = some kind := by
    have wanted : (s.view now).wants k slot = some r := by
      simp only [Pass.view, present, Option.bind_some, waits]
    rw [View.asks_eq, wanted, Option.bind_some, Reference.asksFor, aligned, if_pos rfl, reads]
  have filled (fills : kind = .share ∨ kind = .modify) : False := by
    have safe := held.holds _ aligned (held.backed present copy)
    have gone : (s.view now).line k r.addr.block = .absent := safe.fresh k slot kind asks fills
    rw [← Pass.line_controller present, gone] at copy
    cases copy
  have upgrade : r.access.isUpgrade := by
    cases kind with
    | share => exact (filled (.inl rfl)).elim
    | modify => exact (filled (.inr rfl)).elim
    | claim => exact absurd rfl other
    | upgrade => exact Access.upgrade_of_readKind reads
  exact (good.keeps_dirty_iff waits dirty target).mpr (.inl upgrade)

/-- CPU 0 has two stores to one block under way. When the first is answered it writes, and then the
second is answered from memory. -/
def twoStores : List Call :=
  [.operate 0 (.issue (.to (.store .quad) 0)), .operate 0 (.issue (.to (.store .quad) 8)), .poll,
    .service 1, .poll, .operate 0 (.store ⟨0⟩ [1, 2, 3, 4, 5, 6, 7, 8]), .service 1, .poll]

def twoStoresHolds (c : Controller) : Bool :=
  (c.lookup ⟨0⟩).isDirty && (c.cache.read ⟨0⟩).any (· != .zero) &&
    (c.wanted 1).any (fun r => r == .to (.store .quad) 8)

theorem answer_undoes_twoStores :
    ∃ now c, (Machine.build Heap.allocator {} .pair).1.outcome = .ok .pair ∧
      Reaches Free Machine.pair.fabric Machine.pair.fabric.stored
        { fabric := Machine.pair.fabric.run (twoStores.take 7) } now ∧
      (Machine.pair.fabric.run (twoStores.take 7)).controller? 0 = some c ∧ twoStoresHolds c ∧
      ¬ (((c.complete { target := .request (.miss 1), data := some .zero }).2.lookup ⟨8⟩).isDirty ∧
        (c.complete { target := .request (.miss 1), data := some .zero }).2.cache.read ⟨8⟩ =
          c.cache.read ⟨8⟩) := by
  have free : Obeys Free Machine.pair.fabric (twoStores.take 7) := by decide +kernel
  obtain ⟨now, reached⟩ :=
    Reaches.of_run (twoStores.take 7) .start free
  have seen : ((Machine.pair.fabric.run (twoStores.take 7)).controller? 0).any twoStoresHolds := by
    decide +kernel
  obtain ⟨c, present, holds⟩ := (Option.any_eq_true _ _).mp seen
  refine ⟨now, c, Machine.pair_built, reached, present, holds, ?_⟩
  simp only [twoStoresHolds, Bool.and_eq_true, Option.any_eq_true, bne_iff_ne, beq_iff_eq] at holds
  obtain ⟨⟨dirty, data, read, written⟩, r, waits, rfl⟩ := holds
  have same : (⟨8⟩ : Address).block = (⟨0⟩ : Address).block := by decide
  have dirty_there : (c.lookup ⟨8⟩).isDirty := by rwa [c.lookup_congr same]
  have read_there : c.cache.read ⟨8⟩ = some data := by
    rw [BackupCache.read_eq, BackupCache.find?_congr _ same, ← BackupCache.read_eq, read]
  intro kept
  have needs := (answer_keeps_dirty_iff Machine.pair_built reached present waits dirty_there rfl).mp kept
  rcases needs with raises | none_brought | io | ⟨zero, _⟩
  · cases raises
  · cases none_brought
  · exact absurd io (by decide)
  · exact written (Option.some.inj (read_there.symm.trans zero))

/-- What CPU 0 has written is gone. -/
theorem twoStores_lost :
    (Machine.build Heap.allocator {} .pair).1.outcome = .ok .pair ∧
      ((Machine.pair.fabric.run (twoStores.take 7)).controller? 0).any twoStoresHolds ∧
      ((Machine.pair.fabric.run twoStores).controller? 0).bind (·.cache.read ⟨0⟩) =
        some Block.zero := by
  refine ⟨Machine.pair_built, ?_, ?_⟩
  · decide +kernel
  · decide +kernel

end CacheCoherence
