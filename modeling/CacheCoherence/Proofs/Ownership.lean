import CacheCoherence.Proofs.Probing
import CacheCoherence.Proofs.Starts

/-! A single writer. Lines only go down, except at the origin of a transaction that ends; by then every
other node has answered its probe, and holds nothing that the origin's new line excludes. -/

namespace CacheCoherence

open Function (update)

structure Holding.Lowers (before after : Holding) : Prop where
  absent : before = .absent → after = .absent
  sole : after.sole → before.sole

theorem Holding.lowers_after (l : Holding) (next : NextState) : l.Lowers (l.after next) := by
  constructor
  · rintro rfl
    exact Holding.absent_after next
  · cases next <;> simp [Holding.after, Holding.absent]

theorem Holding.not_sole_after (l : Holding) {next : NextState} (named : next.isReserved = false)
    (moves : next ≠ .unchanged) : (l.after next).sole = false := by
  cases next <;> simp_all [Holding.after, Holding.absent, NextState.isReserved]

theorem Holding.not_absent_of_sole {l : Holding} (sole : l.sole) : l ≠ .absent := by
  rintro rfl
  cases sole

namespace Focus

inductive Change (f g : Focus) (k : Nat) : Prop
  | lowers (down : (f.line k).Lowers (g.line k))
  | fills (t : Transaction) (slot : Slot) (isOpen : f.txn = some t) (origin : t.origin = k)
      (done : t.pending = 0) (asked : f.asks k slot = some t.kind) (filled : f.Filled t (g.line k))
      (answered : g.asks k slot = none) (closed : g.txn = none) (queue : g.queue = f.queue)

section step

variable {lay : Layout} {tidy : Prop} {f g : Focus}

theorem Step.change (step : Step lay tidy f g) (k : Nat) : Change f g k := by
  have still : (f.line k).Lowers (f.line k) := ⟨fun absent => absent, fun sole => sole⟩
  have gone (j : Nat) : (f.line k).Lowers (update f.line j .absent k) := by
    by_cases here : k = j
    · subst here
      rw [Function.update_self]
      exact ⟨fun _ => rfl, fun sole => by cases sole⟩
    · simpa only [Function.update_of_ne here]
  cases step with
  | ask | defer | settle | drop | take | begin => exact .lowers still
  | lose j => exact .lowers (gone j)
  | evict j => exact .lowers (gone j)
  | store j offset bytes sole =>
    refine .lowers ?_
    by_cases here : k = j
    · subst here
      refine ⟨fun absent => ?_, fun _ => sole⟩
      exact absurd absent (Holding.not_absent_of_sole sole)
    · simpa only [Function.update_of_ne here]
  | snoop j p later reply =>
    refine .lowers ?_
    by_cases here : k = j
    · subst here
      simp only [Function.update_self]
      exact Holding.lowers_after _ _
    · simpa only [Function.update_of_ne here]
  | finish t slot line isOpen done id asked filled =>
    by_cases here : k = t.origin
    · subst here
      refine .fills t slot isOpen rfl done asked ?_ ?_ rfl rfl
      · simpa only [Function.update_self]
      · simp only [Function.update_self]
    · refine .lowers ?_
      simpa only [Function.update_of_ne here]

theorem Step.asks (step : Step lay tidy f g) {k : Nat} {slot : Slot} {kind : ReadKind}
    (asks : g.asks k slot = some kind) :
    f.asks k slot = some kind ∨
      k < lay.cpus ∧ (∀ i, f.asks k i = none) ∧
        (kind = .share ∨ kind = .modify → f.line k = .absent) ∧
        ∃ a, g.queue k = f.queue k ++ [.read (.miss slot) a kind] := by
  cases step with
  | ask j i a raised inside free place =>
    by_cases here : k = j
    · subst here
      simp only [Function.update_self] at asks
      by_cases there : slot = i
      · subst there
        simp only [Function.update_self, Option.some.injEq] at asks
        subst asks
        exact .inr ⟨inside, free, place, a, Function.update_self ..⟩
      · simp only [Function.update_of_ne there] at asks
        exact .inl asks
    · simp only [Function.update_of_ne here] at asks
      exact .inl asks
  | finish t i line =>
    by_cases here : k = t.origin
    · subst here
      simp only [Function.update_self] at asks
      by_cases there : slot = i
      · subst there
        simp only [Function.update_self] at asks
        cases asks
      · simp only [Function.update_of_ne there] at asks
        exact .inl asks
    · simp only [Function.update_of_ne here] at asks
      exact .inl asks
  | lose | evict | store | snoop | defer | settle | drop | take | begin => exact .inl asks

end step

/-- What keeps a writer alone. A reference that asks for a share or to modify starts without a line,
and a node that has answered the probe of an open transaction has given up what that probe takes. -/
structure Safe (lay : Layout) (f : Focus) : Prop extends Probing lay f where
  single : View.Single f
  fresh : ∀ k slot kind, f.asks k slot = some kind → kind = .share ∨ kind = .modify →
    f.line k = .absent
  inside : ∀ k, lay.cpus ≤ k → f.line k = .absent ∧ (∀ slot, f.asks k slot = none) ∧ f.queue k = []
  alone : ∀ o, (f.line o).sole → ∀ k, k ≠ o → f.line k = .absent
  answered : ∀ t, f.txn = some t → ∀ k ∈ lay.others t.origin, f.probes k = [] →
    (t.kind = .share → (f.line k).sole = false) ∧ (t.kind ≠ .share → f.line k = .absent)

namespace Safe

variable {lay : Layout} {tidy : Prop} {f g : Focus}

theorem single_step (safe : Safe lay f) (step : Step lay tidy f g) : View.Single g := by
  intro k slot i first second
  cases step with
  | ask j new a kind inside free place =>
    by_cases here : k = j
    · subst here
      have only (i : Slot) (asks : (update (f.asks k) new (some kind) i).isSome) : i = new := by
        by_contra apart
        rw [Function.update_of_ne apart, free] at asks
        cases asks
      simp only [Function.update_self] at first second
      rw [only slot first, only i second]
    · simp only [Function.update_of_ne here] at first second
      exact safe.single k slot i first second
  | finish t done line =>
    have kept {i : Slot} (asks : (update f.asks t.origin
        (update (f.asks t.origin) done none) k i).isSome) : (f.asks k i).isSome := by
      by_cases here : k = t.origin
      · subst here
        simp only [Function.update_self] at asks
        by_cases there : i = done
        · subst there
          simp only [Function.update_self] at asks
          cases asks
        · simpa only [Function.update_of_ne there] using asks
      · simpa only [Function.update_of_ne here] using asks
    exact safe.single k slot i (kept first) (kept second)
  | lose | evict | store | snoop | defer | settle | drop | take | begin =>
    exact safe.single k slot i first second

theorem fresh_step (safe : Safe lay f) (step : Step lay tidy f g) {k : Nat} {slot : Slot}
    {kind : ReadKind} (asks : g.asks k slot = some kind) (fills : kind = .share ∨ kind = .modify) :
    g.line k = .absent := by
  have before := step.asks asks
  cases step.change k with
  | lowers down =>
    refine down.absent ?_
    rcases before with old | ⟨_, _, place, _⟩
    · exact safe.fresh k slot kind old fills
    · exact place fills
  | fills t i isOpen origin done asked filled answered =>
    rcases before with old | ⟨_, free, _⟩
    · have same : slot = i := safe.single k slot i (by rw [old]; rfl) (by rw [asked]; rfl)
      rw [same, answered] at asks
      cases asks
    · rw [free] at asked
      cases asked

/-- Any other node has given up what the probe of an ending transaction takes. -/
theorem given_up (safe : Safe lay f) {t : Transaction} (isOpen : f.txn = some t)
    (done : t.pending = 0) {k : Nat} (apart : k ≠ t.origin) :
    (t.kind = .share → (f.line k).sole = false) ∧ (t.kind ≠ .share → f.line k = .absent) := by
  by_cases inside : k < lay.cpus
  · have silent : f.probes k = [] := by
      by_contra probed
      have owed := owes_pos_of_probe probed
      have clear := safe.clear isOpen done k
      omega
    exact safe.answered t isOpen k ((lay.mem_others t.origin k).mpr ⟨inside, apart⟩) silent
  · have absent := (safe.inside k (by omega)).1
    rw [absent]
    exact ⟨fun _ => rfl, fun _ => rfl⟩

/-- A transaction that leaves its origin as sole holder was not for a share. -/
theorem not_share_of_sole (safe : Safe lay f) {t : Transaction} {line : Holding} (filled : f.Filled t line)
    {slot : Slot} (asked : f.asks t.origin slot = some t.kind) (sole : line.sole) :
    t.kind ≠ .share := by
  intro share
  have absent : f.line t.origin = .absent := safe.fresh t.origin slot t.kind asked (.inl share)
  cases filled with
  | refused => cases sole
  | owned kind =>
    rw [share] at kind
    cases kind
  | filled lost line copy owned fresh =>
    rw [fresh share absent] at sole
    cases sole

theorem alone_step (safe : Safe lay f) (step : Step lay tidy f g) {o : Nat} (sole : (g.line o).sole)
    {k : Nat} (apart : k ≠ o) : g.line k = .absent := by
  cases step.change o with
  | lowers down =>
    have before := down.sole sole
    cases step.change k with
    | lowers fell => exact fell.absent (safe.alone o before k apart)
    | fills t slot isOpen origin done =>
      -- the transaction has left no sole holder
      obtain ⟨shared, gone⟩ := safe.given_up isOpen done (k := o) (by rw [origin]; exact Ne.symm apart)
      by_cases share : t.kind = .share
      · rw [shared share] at before
        cases before
      · exact absurd (gone share) (Holding.not_absent_of_sole before)
  | fills t slot isOpen origin done asked filled =>
    subst origin
    have exclusive := safe.not_share_of_sole filled asked sole
    have gone := (safe.given_up isOpen done apart).2 exclusive
    cases step.change k with
    | lowers fell => exact fell.absent gone
    | fills u i shown there =>
      obtain rfl := Option.some.inj (isOpen.symm.trans shown)
      exact absurd there.symm apart

theorem inside_step (safe : Safe lay f) (step : Step lay tidy f g) {k : Nat}
    (outside : lay.cpus ≤ k) :
    g.line k = .absent ∧ (∀ slot, g.asks k slot = none) ∧ g.queue k = [] := by
  obtain ⟨absent, unasked, silent⟩ := safe.inside k outside
  refine ⟨?_, ?_, ?_⟩
  · cases step.change k with
    | lowers down => exact down.absent absent
    | fills t slot isOpen origin done asked =>
      rw [unasked] at asked
      cases asked
  · intro slot
    cases asks : g.asks k slot with
    | none => rfl
    | some kind =>
      rcases step.asks asks with old | ⟨inside, _⟩
      · rw [unasked] at old
        cases old
      · omega
  · have other {j : Nat} {q : Request} {later : List Request} (head : f.queue j = q :: later) :
        k ≠ j := by
      rintro rfl
      rw [silent] at head
      cases head
    cases step with
    | ask j slot a kind inside =>
      have apart : k ≠ j := by omega
      simpa only [Function.update_of_ne apart]
    | evict j slot a data dirty =>
      have apart : k ≠ j := by
        rintro rfl
        rw [absent] at dirty
        cases dirty
      simpa only [Function.update_of_ne apart]
    | snoop j p later reply oldest =>
      have apart : k ≠ j := by
        rintro rfl
        obtain ⟨t, _, inside⟩ := safe.probed (owes_pos_of_probe (k := k) (by rw [oldest]; simp))
        have below := ((lay.mem_others t.origin k).mp inside).1
        omega
      simpa only [Function.update_of_ne apart]
    | defer j id a kind later head => simpa only [Function.update_of_ne (other head)]
    | settle j slot a data later head => simpa only [Function.update_of_ne (other head)]
    | drop j r later head => simpa only [Function.update_of_ne (other head)]
    | take j r later t head => simpa only [Function.update_of_ne (other head)]
    | lose | store | begin | finish => exact silent

theorem answered_step (safe : Safe lay f) (step : Step lay tidy f g) {t : Transaction}
    (isOpen : g.txn = some t) {k : Nat} (other : k ∈ lay.others t.origin) (silent : g.probes k = []) :
    (t.kind = .share → (g.line k).sole = false) ∧ (t.kind ≠ .share → g.line k = .absent) := by
  have kept {u : Transaction} (shown : f.txn = some u) (origin : u.origin = t.origin)
      (kind : u.kind = t.kind) (quiet : f.probes k = []) (down : (f.line k).Lowers (g.line k)) :
      (t.kind = .share → (g.line k).sole = false) ∧ (t.kind ≠ .share → g.line k = .absent) := by
    have before := safe.answered u shown k (by rwa [origin]) quiet
    rw [kind] at before
    refine ⟨fun share => ?_, fun exclusive => down.absent (before.2 exclusive)⟩
    by_contra sole
    have raised := down.sole (by simpa using sole)
    rw [before.1 share] at raised
    cases raised
  cases step.change k with
  | fills u slot shown origin done asked filled answered closed =>
    rw [closed] at isOpen
    cases isOpen
  | lowers down =>
    cases step with
    | ask | lose | evict | store | defer | settle | drop => exact kept isOpen rfl rfl silent down
    | take j r later u head shown =>
      cases isOpen
      exact kept shown rfl rfl silent down
    | snoop j p later reply oldest =>
      by_cases here : k = j
      · subst here
        have command := (safe.probes t isOpen k p (by rw [oldest]; exact List.mem_cons_self ..)).2
        simp only [Function.update_self, command]
        refine ⟨fun share => ?_, fun exclusive => ?_⟩
        · rw [share]
          exact Holding.not_sole_after _ lay.named lay.moves
        · cases kind : t.kind with
          | share => exact absurd kind exclusive
          | modify | upgrade | claim => rfl
      · refine kept isOpen rfl rfl ?_ down
        simpa only [Function.update_of_ne here] using silent
    | begin u slot a closed =>
      cases isOpen
      simp only [if_pos other, List.append_eq_nil_iff] at silent
      exact absurd silent.2 (by simp)
    | finish => cases isOpen

theorem step (safe : Safe lay f) (step : Step lay tidy f g) : Safe lay g where
  toProbing := safe.toProbing.step step
  single := safe.single_step step
  fresh _ _ _ asks fills := safe.fresh_step step asks fills
  inside _ outside := safe.inside_step step outside
  alone _ sole _ apart := safe.alone_step step sole apart
  answered _ isOpen _ other silent := safe.answered_step step isOpen other silent

end Safe
end Focus

theorem Reference.of_asksFor {b : Address} {r : Reference} (asks : (r.asksFor b).isSome) :
    r.addr.block = b.block ∧ r.access ≠ .barrier := by
  unfold Reference.asksFor at asks
  split at asks
  · rename_i about
    refine ⟨about, fun barrier => ?_⟩
    rw [barrier] at asks
    cases asks
  · cases asks

def View.Owned (lay : Layout) (v : View) : Prop :=
  ∀ b : Address, b.block = b → lay.backed b → (v.focus b).Safe lay

section run

variable {lay : Layout} {v w : View} {f : Fabric}

theorem View.Initial.focus {v : View} (initial : v.Initial) (b : Address) :
    v.focus b = ⟨fun _ => .absent, fun _ _ => none, fun _ => [], fun _ => [], none, v.memory b, v.value b⟩ := by
  refine Focus.ext ?_ ?_ ?_ ?_ ?_ rfl rfl
  · funext k
    exact initial.line k b
  · funext k slot
    simp [View.focus, initial.wants]
  · funext k
    simp [View.focus, initial.queue]
  · funext k
    simp [View.focus, initial.probes]
  · simp [View.focus, initial.txns]

theorem View.Initial.owned (initial : v.Initial) (lay : Layout) : v.Owned lay := by
  intro b _ _
  rw [initial.focus]
  refine ⟨⟨?_, ?_, ?_, ?_, ?_, ?_⟩, ?_, ?_, ?_, ?_, ?_⟩
  · simp [Focus.owes]
  · simp
  · simp
  · simp [Focus.owes]
  · simp
  · simp
  · intro k slot i asks
    cases asks
  · simp
  · simp
  · simp
  · simp

theorem View.Owned.step (owned : v.Owned lay) (orderly : Orderly lay v) (step : View.Step lay v w) :
    w.Owned lay := by
  intro b aligned backed
  have safe := owned b aligned backed
  have follows : View.Follows lay False (v.focus b) (w.focus b) :=
    View.Step.follows orderly aligned backed safe.single False.elim step
  rcases follows with same | moved
  · rw [same]
    exact safe
  · exact safe.step moved

/-- A pipeline that retires no line and refers to no block that a reference of its CPU waits for. -/
def Careful : Discipline := fun f cpu op =>
  match op with
  | .issue r => r.access ≠ .barrier → ∀ slot, ∀ q ∈ f.waiting cpu slot, q.access ≠ .barrier →
      q.addr.block ≠ r.addr.block
  | .retire .. => False
  | .consume _ | .store .. | .storeIo _ | .flush => True

instance (f : Fabric) (cpu : Nat) : ∀ op, Decidable (Careful f cpu op)
  | .issue r => inferInstanceAs (Decidable (r.access ≠ .barrier → ∀ slot, ∀ q ∈ f.waiting cpu slot,
      q.access ≠ .barrier → q.addr.block ≠ r.addr.block))
  | .retire .. => isFalse nofun
  | .consume _ | .store .. | .storeIo _ | .flush => isTrue trivial

theorem Fabric.waiting_of_late {k : Nat} {op : Operation} (late : f.joinsLate k op) :
    ∃ r c slot q, op = .issue r ∧ f.controller? k = some c ∧ (c.lookup r.addr).valid ∧
      f.waiting k slot = some q ∧ q.access = r.access ∧ r.access.merges ∧
      q.addr.block = r.addr.block := by
  simp only [Fabric.joinsLate, Option.any_eq_true] at late
  obtain ⟨c, present, joins⟩ := late
  cases op with
  | consume | store | storeIo | flush | retire => cases joins
  | issue r =>
    simp only [Controller.joinsLate, Bool.and_eq_true, Option.isSome_iff_exists] at joins
    obtain ⟨⟨_, valid⟩, ⟨slot, m⟩, target⟩ := joins
    obtain ⟨merges, occupied, unanswered, access, block⟩ := MissFile.mergeTarget_some target
    refine ⟨r, c, slot, m.request, rfl, present, valid, ?_, access, merges, block⟩
    rw [Fabric.waiting, present, Option.bind_some]
    exact (Controller.wanted_eq_some_iff _ _ _).mpr ⟨m, occupied, unanswered, rfl⟩

theorem Careful.punctual {k : Nat} {op : Operation} (careful : Careful f k op) :
    f.joinsLate k op = false := by
  cases late : f.joinsLate k op with
  | false => rfl
  | true =>
    obtain ⟨r, c, slot, q, rfl, _, _, waits, access, merges, block⟩ := Fabric.waiting_of_late late
    have named : r.access ≠ .barrier := by
      intro barrier
      rw [barrier] at merges
      cases merges
    exact absurd block (careful named slot q waits (by rwa [access]))

theorem View.Owned.called {s : Pass} {now : Ledger} (owned : (s.view now).Owned lay)
    (orderly : Orderly lay (s.view now)) {k : Nat} {op : Operation} (careful : Careful s.fabric k op)
    (inside : k < lay.cpus) (called : View.Called (s.view now) k op w) : w.Owned lay := by
  intro b aligned backed
  have safe := owned b aligned backed
  have free (r : Reference) (slot : Slot) (q : Reference) (issues : op = .issue r)
      (named : r.access ≠ .barrier) (same : q.addr = r.addr) (asks : q.asksFor b ≠ none) (i : Slot) :
      ((s.view now).focus b).asks k i = none := by
    subst issues
    by_contra waits
    rw [← Option.isSome_iff_ne_none] at asks
    rw [← ne_eq, ← Option.isSome_iff_ne_none, View.asks_eq, Option.isSome_bind] at waits
    obtain ⟨old, waiting, about⟩ := (Option.any_eq_true _ _).mp waits
    obtain ⟨here, _⟩ := Reference.of_asksFor asks
    obtain ⟨there, other⟩ := Reference.of_asksFor about
    refine careful named i old waiting other ?_
    rw [there, ← here, same]
  have follows : View.Follows lay False ((s.view now).focus b) (w.focus b) := by
    refine View.Called.follows orderly called backed inside ?_ False.elim ?_
    · exact fun r slot q issues named _ _ same asks i => free r slot q issues named same asks i
    · cases op with
      | retire => exact careful.elim
      | issue | consume | store | storeIo | flush => rfl
  rcases follows with same | moved
  · rw [same]
    exact safe
  · exact safe.step moved

theorem Reaches.owned {start : Fabric} (started : Started lay start) {values now : Ledger} {s : Pass}
    (reached : Reaches Careful start values s now) : Holds lay (View.Owned lay) s now := by
  refine reached.holds started ((started.initial _).owned lay) ?_ ?_ ?_
  · exact fun _ _ _ _ _ obeys => Careful.punctual obeys
  · exact fun s now held k op w obeys inside called _ =>
      held.holds.called held.orderly obeys inside called
  · exact fun v w orderly owned step => owned.step orderly step

end run

/-- A CPU that may write a block is the only one that holds it. -/
theorem single_writer {σ : Type} {a : Allocator σ} {st : σ} {settings : Settings} {m : Machine}
    (built : (Machine.build a st settings).1.outcome = .ok m) {calls : List Call}
    (careful : Obeys Careful m.fabric calls) {o k : Nat} {c d : Controller} (apart : k ≠ o)
    (owner : (m.fabric.run calls).controller? o = some c)
    (other : (m.fabric.run calls).controller? k = some d) {b : Address}
    (writable : (c.lookup b).writable) : (d.lookup b).valid = false := by
  obtain ⟨lay, started⟩ := Machine.started_of_build built
  obtain ⟨now, reached⟩ := Reaches.of_run calls (.start : Reaches Careful m.fabric m.fabric.stored _ _) careful
  have held := reached.owned started
  have levels := (held.steady.good o c owner).toLevels
  have sole := levels.sole_of_writable writable
  obtain ⟨data, copy⟩ := levels.copy_of_dirty (Controller.dirty_of_sole b sole)
  have safe := held.holds b.block (Address.block_block b) (held.backed owner copy)
  have line (j : Nat) (e : Controller) (present : (m.fabric.run calls).controller? j = some e) :
      (Pass.view { fabric := m.fabric.run calls } now).line j b.block = e.line b :=
    Pass.line_controller present b
  have absent : d.line b = .absent := by
    rw [← line k d other]
    refine safe.alone o ?_ k apart
    change ((Pass.view { fabric := m.fabric.run calls } now).line o b.block).sole
    rwa [line o c owner]
  rw [← (held.steady.good k d other).toLevels.copy_isSome, absent]
  rfl

/-- CPU 1 loads a block, then CPU 0 stores in it. -/
def handOver : List Call :=
  [.operate 1 (.issue (.to (.load .quad) 0)), .poll, .service 0, .poll,
    .operate 0 (.issue (.to (.store .quad) 0)), .poll, .service 1, .poll]

theorem single_writer_handOver :
    ∃ c d, (Machine.build Heap.allocator {} .pair).1.outcome = .ok .pair ∧
      Obeys Careful Machine.pair.fabric handOver ∧
      (Machine.pair.fabric.run handOver).controller? 0 = some c ∧
      (Machine.pair.fabric.run handOver).controller? 1 = some d ∧ (c.lookup ⟨0⟩).writable ∧
      (d.lookup ⟨0⟩).valid = false := by
  have careful : Obeys Careful Machine.pair.fabric handOver := by decide +kernel
  have first : ((Machine.pair.fabric.run handOver).controller? 0).any
      (fun c => (c.lookup ⟨0⟩).writable) := by decide +kernel
  have second : ((Machine.pair.fabric.run handOver).controller? 1).isSome := by decide +kernel
  obtain ⟨c, owner, writable⟩ := (Option.any_eq_true _ _).mp first
  obtain ⟨d, other⟩ := Option.isSome_iff_exists.mp second
  exact ⟨c, d, Machine.pair_built, careful, owner, other, writable,
    single_writer Machine.pair_built careful (by decide) owner other writable⟩

end CacheCoherence
