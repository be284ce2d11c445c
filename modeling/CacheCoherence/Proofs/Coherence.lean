import CacheCoherence.Proofs.Values

/-! Data coherence of pipelines that wait. As long as no CPU purges dirty data of a block that it asks
for, every copy of a block has its value, every reference that is answered gets it, and memory has it
when nothing else does. -/

namespace CacheCoherence

def Fabric.Blocking (f : Fabric) : Prop :=
  ∀ k i j, (f.waiting k i).isSome → (f.waiting k j).isSome → i = j

instance (f : Fabric) : Decidable f.Blocking :=
  decidable_of_iff
    (∀ k < f.nodes.length, ∀ i j, (f.waiting k i).isSome → (f.waiting k j).isSome → i = j) <| by
    refine ⟨fun each k i j first second => ?_, fun blocking k _ => blocking k⟩
    by_cases inside : k < f.nodes.length
    · exact each k inside i j first second
    · have outside : f.nodes[k]? = none := List.getElem?_eq_none (by omega)
      simp [Fabric.waiting, Fabric.controller?, outside] at first

/-- The call purges dirty data of a block that a reference of its CPU waits for. -/
def Fabric.purgesAsked (f : Fabric) (k : Nat) : Operation → Prop
  | .issue r => r.access = .purge ∧ (f.controller? k).any (fun c => (c.lookup r.addr).isDirty) ∧
      ∃ slot, ∃ q ∈ f.waiting k slot, q.addr.block = r.addr.block
  | .consume _ | .store .. | .storeIo _ | .flush | .retire .. => False

instance (f : Fabric) (k : Nat) : ∀ op, Decidable (f.purgesAsked k op)
  | .issue r => inferInstanceAs (Decidable (r.access = .purge ∧
      (f.controller? k).any (fun c => (c.lookup r.addr).isDirty) ∧
      ∃ slot, ∃ q ∈ f.waiting k slot, q.addr.block = r.addr.block))
  | .consume _ | .store .. | .storeIo _ | .flush | .retire .. => isFalse nofun

/-- A pipeline that waits for each reference and retires no line. -/
def Waits : Discipline := fun f cpu op => (f.operate cpu op).Blocking ∧ op.retires = false

/-- A pipeline that waits, and purges no dirty data of a block that it asks for. -/
def Tidy : Discipline := fun f cpu op => Waits f cpu op ∧ ¬ f.purgesAsked cpu op

instance (f : Fabric) (cpu : Nat) (op : Operation) : Decidable (Waits f cpu op) :=
  inferInstanceAs (Decidable (_ ∧ _))

instance (f : Fabric) (cpu : Nat) (op : Operation) : Decidable (Tidy f cpu op) :=
  inferInstanceAs (Decidable (_ ∧ _))

/-- The reference `r` is answered from the caches of CPU `k`. -/
def Fabric.Hits (f : Fabric) (k : Nat) (r : Reference) (data : Block) : Prop :=
  ∃ c d slot, f.controller? k = some c ∧ c.allocateMiss r = (.ok slot, d) ∧ d.told slot = some data

namespace Pass

/-- A move answers the reference `r` of CPU `k` with data. -/
inductive Answers (s : Pass) : Mover → Pass → Nat → Reference → Block → Prop
  | told (t : Pass) (k : Nat) (slot : Slot) (r : Reference) (data : Block)
      (told : Told s.fabric t.fabric k slot r data) : Answers s .machine t k r data
  | hit (t : Pass) (k : Nat) (r : Reference) (data : Block) (hits : s.fabric.Hits k r data) :
      Answers s (.pipeline k (.issue r)) t k r data

/-- Nothing about the block of `b` is on its way to memory. -/
structure Settled (s : Pass) (b : Address) : Prop where
  clean : ∀ k c, s.fabric.controller? k = some c → (c.lookup b).isDirty = false
  queues : ∀ k, ∀ q ∈ s.queue k, q.block? = some b.block → q.isVictim = false ∧ q.isReply = false
  txns : ∀ t ∈ s.fabric.hub.transactions, t.addr ≠ b.block

/-- Copies, answers and settled memory have the values of the ledger. -/
structure Coherent (s : Pass) (now : Ledger) : Prop where
  copies : ∀ k c b data, s.fabric.controller? k = some c → (c.lookup b).valid →
    c.cache.read b = some data → data = now b.block
  answers : ∀ mover t k r kind data, s.Step mover t → s.Answers mover t k r data →
    r.access.readKind = some kind → kind ≠ .claim → s.fabric.hub.memory.contains r.addr →
    data = now.after s mover t r.addr.block
  memory : ∀ b, s.fabric.hub.memory.contains b → s.Settled b →
    s.fabric.hub.memory.readBlock b = some (now b.block)

end Pass

namespace View

structure Right (lay : Layout) (v : View) : Prop where
  blocking : ∀ k i j, (v.wants k i).isSome → (v.wants k j).isSome → i = j
  current : ∀ b : Address, b.block = b → lay.backed b → (v.focus b).Current lay

variable {lay : Layout} {v w : View}

theorem Initial.right (initial : v.Initial) (lay : Layout)
    (stored : ∀ b, b.block = b → v.memory b = v.value b) : v.Right lay := by
  refine ⟨fun k i j asks => ?_, fun b aligned backed => ?_⟩
  · rw [initial.wants] at asks
    cases asks
  · have safe := initial.owned lay b aligned backed
    rw [initial.focus] at safe ⊢
    refine ⟨safe, ?_, ?_, ?_, ?_, ?_, ?_, ?_, ?_, .inl (stored b aligned)⟩
    · exact fun _ => Holding.sound_absent
    · nofun
    · intro data afloat
      cases afloat with
      | queued k q there => cases there
      | gathered t isOpen => cases isOpen
    · nofun
    · nofun
    · nofun
    · nofun
    · nofun

theorem Step.wants (step : Step lay v w) {k : Nat} {slot : Slot} (waits : (w.wants k slot).isSome) :
    (v.wants k slot).isSome := by
  have cleared {u : View} {j : Nat} {i : Slot} (waits : ((u.want j i none).wants k slot).isSome) :
      (u.wants k slot).isSome := by
    rw [wants_want] at waits
    split at waits
    · cases waits
    · exact waits
  cases step with
  | snoop | defer | settle | drop | take | begin | turn => exact waits
  | bypass | release => exact cleared waits
  | finish => exact cleared waits

theorem Called.wants {k : Nat} {op : Operation} (called : Called v k op w) {slot : Slot}
    (waits : (v.wants k slot).isSome) : (w.wants k slot).isSome := by
  have kept {u : View} {j : Nat} {i : Slot} {r : Reference} (waits : (u.wants k slot).isSome) :
      ((u.want j i (some r)).wants k slot).isSome := by
    rw [wants_want]
    split
    · rfl
    · exact waits
  cases called with
  | ask | hold => exact kept waits
  | join => exact kept waits
  | purge | store | retire => exact waits

theorem wanted_of_asks {b : Address} {k : Nat} {slot : Slot} (asks : ((v.focus b).asks k slot).isSome) :
    ∃ r, v.wants k slot = some r ∧ r.addr.block = b.block := by
  rw [asks_eq, Option.isSome_bind] at asks
  obtain ⟨r, wanted, about⟩ := (Option.any_eq_true _ _).mp asks
  exact ⟨r, wanted, (Reference.of_asksFor about).1⟩

theorem Right.step (right : v.Right lay) (orderly : Orderly lay v) (step : Step lay v w) :
    w.Right lay := by
  refine ⟨fun k i j first second => right.blocking k i j (step.wants first) (step.wants second), ?_⟩
  intro b aligned backed
  have current := right.current b aligned backed
  have idle (k : Nat) (slot : Slot) (r : Reference) (wanted : v.wants k slot = some r)
      (apart : r.addr.block ≠ b) (i : Slot) : (v.focus b).asks k i = none := by
    by_contra asks
    obtain ⟨q, also, block⟩ := wanted_of_asks (Option.isSome_iff_ne_none.mpr asks)
    have same := right.blocking k slot i (by rw [wanted]; rfl) (by rw [also]; rfl)
    rw [← same, wanted] at also
    cases also
    exact apart (block.trans aligned)
  have follows : Follows lay True (v.focus b) (w.focus b) :=
    step.follows orderly aligned backed current.single fun _ => idle
  rcases follows with same | moved
  · rw [same]
    exact current
  · exact current.step moved

theorem Right.called {s : Pass} {now : Ledger} (right : (s.view now).Right lay)
    (orderly : Orderly lay (s.view now)) {k : Nat} {op : Operation} (tidy : Tidy s.fabric k op)
    (inside : k < lay.cpus) (called : Called (s.view now) k op w)
    (waiting : ∀ j slot, w.wants j slot = (s.fabric.operate k op).waiting j slot) : w.Right lay := by
  obtain ⟨⟨blocking, stays⟩, untouched⟩ := tidy
  have after (j : Nat) (i i' : Slot) (first : (w.wants j i).isSome) (second : (w.wants j i').isSome) :
      i = i' := by
    rw [waiting] at first second
    exact blocking j i i' first second
  refine ⟨after, fun b aligned backed => ?_⟩
  have current := right.current b aligned backed
  have free (r : Reference) (slot : Slot) (q : Reference) (vacant : (s.view now).wants k slot = none)
      (taken : w.wants k slot = some q) (i : Slot) : ((s.view now).focus b).asks k i = none := by
    by_contra asks
    obtain ⟨old, wanted, _⟩ := wanted_of_asks (Option.isSome_iff_ne_none.mpr asks)
    have still : (w.wants k i).isSome := called.wants (by rw [wanted]; rfl)
    have same := after k i slot still (by rw [taken]; rfl)
    rw [same, vacant] at wanted
    cases wanted
  have idle (r : Reference) (issues : op = .issue r) (purge : r.access = .purge)
      (about : r.addr.block = b.block) (dirty : ((s.view now).line k b).dirty) (i : Slot) :
      ((s.view now).focus b).asks k i = none := by
    by_contra asks
    obtain ⟨q, waits, block⟩ := wanted_of_asks (Option.isSome_iff_ne_none.mpr asks)
    obtain ⟨c, present, _⟩ := Option.bind_eq_some_iff.mp waits
    subst issues
    refine untouched ⟨purge, ?_, i, q, waits, block.trans about.symm⟩
    simp only [Pass.view, present, Option.map_some, Option.getD_some] at dirty
    rw [present, Option.any_some, c.lookup_congr about]
    exact dirty
  have follows : Follows lay True ((s.view now).focus b) (w.focus b) := by
    refine called.follows orderly backed inside ?_ (fun _ => idle) stays
    exact fun r slot q _ _ vacant taken _ _ => free r slot q vacant taken
  rcases follows with same | moved
  · rw [same]
    exact current
  · exact current.step moved

end View

section run

variable {lay : Layout} {s t : Pass} {now : Ledger} {mover : Mover}

/-- No reference of a tidy run joins an answer late: what waits for a share has no line. -/
theorem Holds.punctual (held : Holds lay (View.Right lay) s now) (k : Nat) (op : Operation) :
    s.fabric.joinsLate k op = false := by
  cases late : s.fabric.joinsLate k op with
  | false => rfl
  | true =>
    obtain ⟨r, c, slot, q, rfl, present, valid, waits, access, merges, block⟩ :=
      Fabric.waiting_of_late late
    have aligned := Address.block_block r.addr
    obtain ⟨data, copy⟩ := Option.isSome_iff_exists.mp
      (((held.steady.good k c present).toLevels.copy_isSome r.addr).trans valid)
    have share : q.access.readKind = some .share := by
      rw [access]
      cases form : r.access <;> simp_all [Access.merges, Access.readKind]
    have asks : ((s.view now).focus r.addr.block).asks k slot = some .share := by
      have wanted : (s.view now).wants k slot = some q := waits
      rw [View.asks_eq, wanted, Option.bind_some, Reference.asksFor, aligned, if_pos block, share]
    have current := held.holds.current _ aligned (held.backed present copy)
    have gone : (s.view now).line k r.addr.block = .absent := current.fresh k slot .share asks (.inl rfl)
    rw [← Pass.line_controller present, gone] at copy
    cases copy

theorem Reaches.right {start : Fabric} (started : Started lay start)
    (reached : Reaches Tidy start start.stored s now) : Holds lay (View.Right lay) s now := by
  refine reached.holds started ?_ ?_ ?_ ?_
  · refine (started.initial _).right lay fun b _ => ?_
    rw [started.stored]
    rfl
  · exact fun s now held k op _ => held.punctual k op
  · exact fun s now held k op w tidy inside called waiting =>
      held.holds.called held.orderly tidy inside called waiting
  · exact fun v w orderly right step => right.step orderly step

theorem Holds.copies (held : Holds lay (View.Right lay) s now) {k : Nat} {c : Controller}
    (present : s.fabric.controller? k = some c) {b : Address} {data : Block}
    (copy : (c.line b).copy = some data) : data = now b.block := by
  have current := held.holds.current b.block (Address.block_block b) (held.backed present copy)
  refine current.copies k data ?_
  change ((s.view now).line k b.block).copy = some data
  rw [Pass.line_controller present, copy]

theorem Holds.told (held : Holds lay (View.Right lay) s now) (step : s.Step .machine t) {k : Nat}
    {slot : Slot} {r : Reference} {data : Block} (told : Pass.Told s.fabric t.fabric k slot r data)
    {kind : ReadKind} (reads : r.access.readKind = some kind) (other : kind ≠ .claim)
    (backed : lay.backed r.addr) : data = now.after s .machine t r.addr.block := by
  obtain ⟨steady, linked, v, path, _, value, ending⟩ :=
    held.steady.machine now held.linked held.orderly step
  obtain ⟨orderly, right⟩ := View.Step.path (fun v w orderly right step => right.step orderly step)
    held.orderly held.holds path
  cases ending with
  | still _ silent => exact absurd told (silent k slot r data)
  | aside _ silent =>
    rw [silent k slot r data told] at backed
    cases backed
  | finish u isOpen done _ tells =>
    obtain ⟨rfl, about, same, given⟩ := tells k slot r data told
    obtain rfl : u.kind = kind := Option.some.inj (same.symm.trans reads)
    have aligned := orderly.aligned u isOpen
    have current := right.current u.addr aligned (orderly.backed u isOpen)
    have shown := View.txn_focus orderly.toSerial isOpen rfl
    have line : (v.focus u.addr).line u.origin = v.line u.origin r.addr :=
      orderly.even u.origin u.addr r.addr (aligned.trans about.symm)
    have worth : data = now u.addr := by
      rw [← value]
      rcases given with ⟨rfl, lost⟩ | copy
      · refine current.delivers shown done other fun upgrade => ?_
        rw [line]
        refine lost ?_
        rw [upgrade] at same
        exact Access.upgrade_of_readKind same
      · refine current.copies u.origin data ?_
        rwa [line]
    have unclaimed : s.fabric.claimed t.fabric u.addr = false := by
      rw [Bool.eq_false_iff]
      intro claimed
      obtain ⟨j, i, q, zero, also, claim, _⟩ :=
        (Pass.fabric_claimed_iff now steady u.addr).mp claimed
      obtain ⟨_, _, raised, _⟩ := tells j i q zero also
      rw [claim] at raised
      exact other (Option.some.inj raised).symm
    rw [about]
    simp only [Ledger.after, unclaimed, Bool.false_eq_true, if_false]
    exact worth

theorem Pass.hits_copy {f : Fabric} {k : Nat} {r : Reference} {data : Block}
    (good : ∀ k c, f.controller? k = some c → c.Good)
    (punctual : f.joinsLate k (.issue r) = false) (hits : f.Hits k r data) {kind : ReadKind}
    (reads : r.access.readKind = some kind) :
    ∃ c, f.controller? k = some c ∧ (c.line r.addr).copy = some data := by
  obtain ⟨c, d, slot, present, issued, told⟩ := hits
  refine ⟨c, present, ?_⟩
  obtain ⟨sent, went, _⟩ := (good k c present).issue r
  have same : c.issue r = (.ok slot, d) := by
    unfold Controller.allocateMiss Controller.noteFault at issued
    split at issued
    · rename_i shape
      rw [shape]
      exact issued
    · cases issued
  rw [same] at went
  have waits (q : Reference) (wanted : d.wanted slot = some q) : False := by
    rw [Controller.told_of_wanted wanted] at told
    cases told
  cases went with
  | asked _ access kind _ held free reads named wanted =>
    exact (waits _ ((wanted slot).trans (if_pos rfl))).elim
  | joined _ old _ held found access merges block missing wanted =>
    exact (waits _ ((wanted slot).trans (if_pos rfl))).elim
  | barrier _ _ held free access wanted =>
    exact (waits _ ((wanted slot).trans (if_pos rfl))).elim
  | hit _ answer _ held free answered copy =>
    simp only [Controller.told, answered, Option.bind_some] at told
    rw [← copy, told]
  | late _ m _ held checked cacheable valid target =>
    simp [Fabric.joinsLate, present, Controller.joinsLate, checked, cacheable, valid, target,
      Except.isOk, Except.toBool] at punctual
  | purged _ _ kept access =>
    rw [access] at reads
    cases reads

theorem Holds.stored (held : Holds lay (View.Right lay) s now) {b : Address}
    (backed : s.fabric.hub.memory.contains b) (settled : s.Settled b) :
    s.fabric.hub.memory.readBlock b = some (now b.block) := by
  have aligned := Address.block_block b
  have kept : lay.backed b.block := by
    rw [lay.even b.block b aligned, ← held.steady.backed]
    exact backed
  have current := held.holds.current b.block aligned kept
  have closed : ((s.view now).focus b.block).txn = none := by
    simp only [View.focus, List.find?_eq_none, beq_iff_eq]
    exact settled.txns
  have clean (k : Nat) : ((s.view now).line k b.block).dirty = false := by
    simp only [Pass.view]
    cases present : s.fabric.controller? k with
    | none => rfl
    | some c =>
      rw [Option.map_some, Option.getD_some, c.line_congr aligned]
      exact settled.clean k c present
  have dry (k : Nat) : ¬ feeds (onBlock b.block ((s.queue k).filter Request.matters)) := by
    intro fed
    have none_there (q : Request) (member : q ∈ onBlock b.block ((s.queue k).filter Request.matters)) :
        q.isVictim = false ∧ q.isReply = false := by
      obtain ⟨queued, about⟩ := List.mem_filter.mp member
      refine settled.queues k q (List.mem_filter.mp queued).1 ?_
      rw [beq_iff_eq] at about
      rw [about, aligned]
    rcases of_feeds fed with ⟨slot, a, data, member⟩ | ⟨r, member⟩
    · cases (none_there _ member).1
    · cases (none_there _ member).2
  have stored : ((s.view now).focus b.block).memory = now b.block := by
    refine current.source.resolve_right fun source => ?_
    simp only [Focus.Source, closed] at source
    obtain ⟨k, dirty | fed⟩ := source
    · have held : ((s.view now).line k b.block).dirty := dirty
      rw [clean] at held
      cases held
    · exact dry k fed
  have read : (s.fabric.hub.memory.readBlock b).isSome := by
    rw [Memory.readBlock_isSome]
    exact backed
  obtain ⟨data, found⟩ := Option.isSome_iff_exists.mp read
  rw [found, ← stored]
  simp only [View.focus, Pass.view, Memory.readBlock_congr _ aligned, found, Option.getD_some]

end run

/-- The data of a tidy run are coherent. -/
theorem coherent_of_tidy {σ : Type} {a : Allocator σ} {st : σ} {settings : Settings} {m : Machine}
    (built : (Machine.build a st settings).1.outcome = .ok m) {s : Pass} {now : Ledger}
    (reached : Reaches Tidy m.fabric m.fabric.stored s now) : s.Coherent now := by
  obtain ⟨lay, started⟩ := Machine.started_of_build built
  have held := reached.right started
  refine ⟨?_, ?_, fun b backed settled => held.stored backed settled⟩
  · intro k c b data present _ copy
    exact held.copies present copy
  · intro mover t k r kind data step answers reads other backed
    cases answers with
    | told _ _ slot _ _ told =>
      refine held.told step told reads other ?_
      rw [← held.steady.backed]
      exact backed
    | hit _ _ _ _ hits =>
      obtain ⟨c, present, copy⟩ :=
        Pass.hits_copy held.steady.good (held.punctual k (.issue r)) hits reads
      rw [held.copies present copy]
      simp [Ledger.after, present, Controller.stores]

def pairAccess (k : Nat) (access : Access) (raw : UInt64) : List Call :=
  [.operate k (.issue (.to access raw)), .poll, .service (1 - k), .poll, .operate k (.consume 0)]

def otherBlocks : List UInt64 := [0x40, 0x80, 0xc0, 0x100, 0x140, 0x180, 0x1c0, 0x200]

/-- CPU 1 claims a block that it holds shared, while its victim buffer is full. The block is left dirty
in the backup cache and shared in the duplicate tags, and memory has an older value. Then CPU 1 asks
to store in the block, and CPU 0 answers the probe. -/
def sharedClaim : List Call :=
  pairAccess 0 (.store .quad) 0 ++ [.operate 0 (.store ⟨0⟩ [1, 2, 3, 4, 5, 6, 7, 8])] ++
    pairAccess 1 (.load .quad) 0 ++ otherBlocks.flatMap (pairAccess 1 (.store .quad)) ++
    [.operate 1 (.issue (.to .claim 0)), .poll, .service 0] ++
    otherBlocks.flatMap (fun a => [.operate 1 (.issue (.to .purge a)), .operate 1 (.consume 1)]) ++
    [.poll, .operate 1 (.consume 0), .operate 1 (.issue (.to (.store .quad) 0)), .poll, .service 0]

theorem sharedClaim_tidy : Obeys Tidy Machine.pair.fabric sharedClaim := by decide +kernel

theorem coherent_sharedClaim :
    ∃ now, (Machine.build Heap.allocator {} .pair).1.outcome = .ok .pair ∧
      Reaches Tidy Machine.pair.fabric Machine.pair.fabric.stored
        { fabric := Machine.pair.fabric.run sharedClaim } now ∧
      Pass.Coherent { fabric := Machine.pair.fabric.run sharedClaim } now := by
  obtain ⟨now, reached⟩ :=
    Reaches.of_run sharedClaim (.start) sharedClaim_tidy
  exact ⟨now, Machine.pair_built, reached, coherent_of_tidy Machine.pair_built reached⟩

section

variable {d e : Discipline} {start : Fabric} {values now : Ledger} {s t : Pass}

theorem Reaches.mono (weaker : ∀ f k op, d f k op → e f k op) (reached : Reaches d start values s now) :
    Reaches e start values s now := by
  induction reached with
  | start => exact .start
  | @step s _ mover _ _ allowed moves ih =>
    have still : e.allows s.fabric mover := by
      cases mover with
      | pipeline cpu op => exact weaker s.fabric cpu op allowed
      | machine => trivial
    exact ih.step still moves

/-- A block whose value is zero keeps it while only the machine moves. -/
theorem Reaches.works_zero {b : Address} (reached : Reaches d start values s now) (zero : now b = .zero)
    (works : s.Works t) : ∃ later, Reaches d start values t later ∧ later b = .zero := by
  induction works with
  | refl => exact ⟨now, reached, zero⟩
  | @tail middle last _ move ih =>
    obtain ⟨later, between, still⟩ := ih
    have allowed : d.allows middle.fabric .machine := trivial
    refine ⟨_, between.step allowed move, ?_⟩
    simp only [Ledger.after, still, ite_self]

end

/-- If CPU 1 now purges the block, its store is answered with the older value from memory. -/
theorem sharedClaim_not_coherent :
    ∃ s now, (Machine.build Heap.allocator {} .pair).1.outcome = .ok .pair ∧
      Reaches Waits Machine.pair.fabric Machine.pair.fabric.stored s now ∧ ¬ s.Coherent now := by
  obtain ⟨now, reached⟩ :=
    Reaches.of_run sharedClaim (.start) sharedClaim_tidy
  have zeroed : ((Machine.pair.fabric.run sharedClaim).controller? 1).any
      (fun c => c.cache.read ⟨0⟩ == some .zero) := by decide +kernel
  have waits : Waits (Machine.pair.fabric.run sharedClaim) 1 (.issue (.to .purge 0)) := by
    decide +kernel
  have stale : (((Machine.pair.fabric.run sharedClaim).operate 1
      (.issue (.to .purge 0))).poll.2.controller? 1).any
      (fun c => (c.lookup ⟨0⟩).valid && (c.cache.read ⟨0⟩).any (· != .zero)) := by decide +kernel
  generalize Machine.pair.fabric.run sharedClaim = f at reached zeroed waits stale
  obtain ⟨lay, started⟩ := Machine.started_of_build Machine.pair_built
  have held := reached.right started
  obtain ⟨c, present, copy⟩ := (Option.any_eq_true _ _).mp zeroed
  have zero : now ⟨0⟩ = .zero := (held.copies present (beq_iff_eq.mp copy)).symm
  have allowed : Discipline.allows Waits f (.pipeline 1 (.issue (.to .purge 0))) := waits
  have purged := (reached.mono fun _ _ _ tidy => tidy.1).step allowed
    (.operate _ 1 (.issue (.to .purge 0)))
  have silent : now.after { fabric := f } (.pipeline 1 (.issue (.to .purge 0)))
      { fabric := f.operate 1 (.issue (.to .purge 0)) } = now := by
    simp [Ledger.after, present, Controller.stores]
  rw [silent] at purged
  obtain ⟨later, last, still⟩ := purged.works_zero zero (Fabric.works_poll _)
  refine ⟨_, later, Machine.pair_built, last, fun coherent => ?_⟩
  obtain ⟨d, there, other⟩ := (Option.any_eq_true _ _).mp stale
  simp only [Bool.and_eq_true, Option.any_eq_true, bne_iff_ne] at other
  obtain ⟨valid, data, read, apart⟩ := other
  exact apart ((coherent.copies 1 d ⟨0⟩ data there valid read).trans still)

end CacheCoherence
