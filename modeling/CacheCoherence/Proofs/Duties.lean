import CacheCoherence.Proofs.Outlook
import Mathlib.Data.List.Nodup
import Mathlib.Data.List.Perm.Basic

namespace CacheCoherence

/-- An answer that is owed. A barrier is about no block. -/
structure Duty where
  id : RequestId
  about : Option (Address × ReadKind)
  deriving DecidableEq

def Duty.Fits (d : Duty) (r : Reference) : Prop :=
  match d.about with
  | none => r.access = .barrier
  | some (block, kind) =>
    r.addr.block = block ∧ r.access.readKind = some kind ∧ (r.addr.isIo → kind = .share)

def Request.duty? : Request → Option Duty
  | .read id a kind => some ⟨id, some (a.block, kind)⟩
  | .barrier id => some ⟨id, none⟩
  | .ioWrite .. | .victim .. | .reply _ => none

def DeferredRead.duty (r : DeferredRead) : Duty := ⟨r.id, some (r.addr.block, r.kind)⟩

def Transaction.duty (t : Transaction) : Duty := ⟨t.id, some (t.addr, t.kind)⟩

def duties (queue : List Request) (deferred : List DeferredRead) (txns : List Transaction) (k : Nat) :
    List Duty :=
  queue.filterMap Request.duty? ++ (deferred.filter (·.cpu == k)).map DeferredRead.duty ++
    (txns.filter (·.origin == k)).map Transaction.duty

def View.duties (v : View) (k : Nat) : List Duty :=
  CacheCoherence.duties (v.queue k) v.deferred v.txns k

/-- Every waiting reference is owed one answer, and every answer that is owed has its reference. -/
structure Agrees (owed : List Duty) (wants : Slot → Option Reference) : Prop where
  count : ∀ slot, owed.countP (·.id == .miss slot) = if (wants slot).isSome then 1 else 0
  fits : ∀ d ∈ owed, ∃ slot r, d.id = .miss slot ∧ wants slot = some r ∧ d.Fits r

namespace Agrees

variable {owed : List Duty} {wants : Slot → Option Reference}

theorem perm (agrees : Agrees owed wants) {others : List Duty} (same : owed.Perm others) :
    Agrees others wants := by
  constructor
  · intro slot
    rw [← same.countP_eq]
    exact agrees.count slot
  · intro d member
    exact agrees.fits d (same.mem_iff.mpr member)

theorem add (agrees : Agrees owed wants) {slot : Slot} (free : wants slot = none) {d : Duty}
    (id : d.id = .miss slot) {r : Reference} (fits : d.Fits r) :
    Agrees (d :: owed) (fun i => if i = slot then some r else wants i) := by
  constructor
  · intro i
    have before := agrees.count i
    rw [List.countP_cons, id]
    by_cases here : i = slot
    · subst here
      rw [free] at before
      simp [before]
    · simp [here, before, Ne.symm here]
  · intro e member
    rcases List.mem_cons.mp member with rfl | old
    · exact ⟨slot, r, id, if_pos rfl, fits⟩
    · obtain ⟨i, s, named, present, fits⟩ := agrees.fits e old
      refine ⟨i, s, named, ?_, fits⟩
      rw [if_neg]
      · exact present
      · rintro rfl
        rw [free] at present
        cases present

theorem absent_of_head {d : Duty} (agrees : Agrees (d :: owed) wants) {slot : Slot}
    (id : d.id = .miss slot) : ∀ e ∈ owed, e.id ≠ .miss slot := by
  have count := agrees.count slot
  rw [List.countP_cons, id] at count
  have none_left : owed.countP (·.id == .miss slot) = 0 := by
    simp only [beq_self_eq_true, if_true] at count
    split at count <;> omega
  rw [List.countP_eq_zero] at none_left
  intro e member
  simpa using none_left e member

theorem apart {first second : List Duty} (agrees : Agrees (first ++ second) wants) {d e : Duty}
    (here : d ∈ first) (there : e ∈ second) {slot : Slot} (id : d.id = .miss slot) :
    e.id ≠ .miss slot := by
  obtain ⟨before, after, rfl⟩ := List.append_of_mem here
  have moved : ((before ++ d :: after) ++ second).Perm (d :: (before ++ after ++ second)) := by
    rw [List.append_assoc, List.cons_append, List.append_assoc]
    exact List.perm_middle
  exact (agrees.perm moved).absent_of_head id e (List.mem_append_right _ there)

theorem drop {d : Duty} (agrees : Agrees (d :: owed) wants) {slot : Slot} (id : d.id = .miss slot) :
    Agrees owed (fun i => if i = slot then none else wants i) := by
  have gone := agrees.absent_of_head id
  constructor
  · intro i
    by_cases here : i = slot
    · subst here
      have zero : owed.countP (·.id == .miss i) = 0 := by
        rw [List.countP_eq_zero]
        intro e member
        simpa using gone e member
      simp [zero]
    · have before := agrees.count i
      rw [List.countP_cons, id] at before
      have apart : (RequestId.miss slot == RequestId.miss i) = false := by
        simpa using Ne.symm here
      simpa [here, apart] using before
  · intro e member
    obtain ⟨i, r, named, present, fits⟩ := agrees.fits e (List.mem_cons_of_mem _ member)
    refine ⟨i, r, named, ?_, fits⟩
    rw [if_neg]
    · exact present
    · rintro rfl
      exact gone e member named

theorem join (agrees : Agrees owed wants) {slot : Slot} {old : Reference}
    (present : wants slot = some old) (later : Reference) :
    Agrees owed (fun i => if i = slot then some (old.join later) else wants i) := by
  constructor
  · intro i
    rw [agrees.count i]
    by_cases here : i = slot
    · simp [here, present]
    · simp [here]
  · intro d member
    obtain ⟨i, r, named, found, fits⟩ := agrees.fits d member
    by_cases here : i = slot
    · subst here
      rw [present] at found
      cases found
      exact ⟨i, _, named, if_pos rfl, fits⟩
    · exact ⟨i, r, named, by rw [if_neg here]; exact found, fits⟩

theorem of_wants (agrees : Agrees owed wants) {other : Slot → Option Reference}
    (same : ∀ slot, other slot = wants slot) : Agrees owed other := by
  have equal : other = wants := funext same
  rwa [equal]

end Agrees

structure Serial (lay : Layout) (v : View) : Prop where
  numbers : (v.txns.map (·.number)).Nodup
  below : ∀ t ∈ v.txns, t.number < v.next
  blocks : (v.txns.map (·.addr)).Nodup
  aligned : ∀ t ∈ v.txns, t.addr.block = t.addr
  backed : ∀ t ∈ v.txns, lay.backed t.addr
  next : ∀ t ∈ v.txns, t.next = (lay.command t.kind).next

structure Labelled (lay : Layout) (v : View) : Prop where
  probes : ∀ k, ∀ p ∈ v.probes k, p.txn < v.next ∧ p.addr.block = p.addr ∧
    (∃ kind, p.command = lay.command kind) ∧
    ∀ t ∈ v.txns, t.number = p.txn → p.addr = t.addr ∧ p.command = lay.command t.kind
  replies : ∀ k r, .reply r ∈ v.queue k → r.txn < v.next ∧ r.addr.block = r.addr ∧
    ∀ t ∈ v.txns, t.number = r.txn → r.addr = t.addr
  lines : ∀ k a, (v.line k a).copy.isSome → lay.backed a
  even : ∀ k, Blockwise (v.line k)
  inside : ∀ k, lay.cpus ≤ k → (∀ a, v.line k a = .absent) ∧ ∀ slot, v.wants k slot = none
  deferred : ∀ r ∈ v.deferred, lay.backed r.addr

structure Orderly (lay : Layout) (v : View) : Prop extends Serial lay v, Labelled lay v where
  agrees : ∀ k, Agrees (v.duties k) (v.wants k)

theorem txn_unique {txns : List Transaction} (numbers : (txns.map (·.number)).Nodup)
    {t u : Transaction} (first : t ∈ txns) (second : u ∈ txns) (same : t.number = u.number) : t = u :=
  List.inj_on_of_nodup_map numbers first second same

theorem txns_perm {txns : List Transaction} (numbers : (txns.map (·.number)).Nodup)
    {t : Transaction} (member : t ∈ txns) :
    txns.Perm (t :: txns.filter (·.number != t.number)) := by
  induction txns with
  | nil => cases member
  | cons u rest ih =>
    simp only [List.map_cons, List.nodup_cons] at numbers
    rcases List.mem_cons.mp member with rfl | later
    · have kept : rest.filter (·.number != t.number) = rest := by
        rw [List.filter_eq_self]
        intro w inside
        have apart : w.number ≠ t.number := by
          intro same
          exact numbers.1 (List.mem_map.mpr ⟨w, inside, same⟩)
        simpa using apart
      rw [List.filter_cons_of_neg (by simp), kept]
    · have apart : u.number ≠ t.number := by
        intro same
        exact numbers.1 (List.mem_map.mpr ⟨t, later, same.symm⟩)
      rw [List.filter_cons_of_pos (by simpa using apart)]
      exact ((ih numbers.2 later).cons u).trans (List.Perm.swap _ _ _)

theorem map_take {α : Type} {txns : List Transaction} (numbers : (txns.map (·.number)).Nodup)
    {t : Transaction} (member : t ∈ txns) (r : ProbeReply) (number : t.number = r.txn)
    (part : Transaction → α) (kept : part (t.take r) = part t) :
    (txns.map fun u => if u.number = r.txn then t.take r else u).map part = txns.map part := by
  rw [List.map_map]
  apply List.map_congr_left
  intro u inside
  simp only [Function.comp_apply]
  split
  · rename_i same
    rw [txn_unique numbers inside member (same.trans number.symm), kept]
  · rfl

theorem filterMap_victims {sent : List Request}
    (sends : ∀ q ∈ sent, ∃ (v : Victim) (slot : Slot), q = v.request slot) :
    sent.filterMap Request.duty? = [] := by
  rw [List.filterMap_eq_nil_iff]
  intro q member
  obtain ⟨v, slot, rfl⟩ := sends q member
  rfl

theorem reply_not_sent {sent : List Request}
    (sends : ∀ q ∈ sent, ∃ (v : Victim) (slot : Slot), q = v.request slot) (r : ProbeReply) :
    .reply r ∉ sent := by
  intro member
  obtain ⟨v, slot, same⟩ := sends _ member
  cases same

variable {lay : Layout} {v w : View}

/-- A reply that is waiting after victims were sent was waiting before. -/
theorem View.reply_waited (v : View) {k j : Nat} {sent : List Request} {r : ProbeReply}
    (sends : ∀ q ∈ sent, ∃ (v : Victim) (slot : Slot), q = v.request slot)
    (member : .reply r ∈ (v.send k sent).queue j) : .reply r ∈ v.queue j := by
  by_cases here : j = k
  · simpa [here, reply_not_sent sends r] using member
  · simpa [here] using member

theorem Serial.of_same (serial : Serial lay v) (txns : w.txns = v.txns) (next : w.next = v.next) :
    Serial lay w := by
  refine ⟨?_, ?_, ?_, ?_, ?_, ?_⟩
  · rw [txns]
    exact serial.numbers
  · rw [txns, next]
    exact serial.below
  · rw [txns]
    exact serial.blocks
  · rw [txns]
    exact serial.aligned
  · rw [txns]
    exact serial.backed
  · rw [txns]
    exact serial.next

/-- The transactions are as they were, and probes, replies and lines are none that were not there. -/
theorem Orderly.of_same (orderly : Orderly lay v) (txns : w.txns = v.txns) (next : w.next = v.next)
    (probes : w.probes = v.probes) (replies : ∀ k r, .reply r ∈ w.queue k → .reply r ∈ v.queue k)
    (even : ∀ k, Blockwise (w.line k))
    (lines : ∀ k a, (w.line k a).copy.isSome → (v.line k a).copy.isSome)
    (inside : ∀ k, lay.cpus ≤ k → (∀ a, w.line k a = .absent) ∧ ∀ slot, w.wants k slot = none)
    (deferred : ∀ r ∈ w.deferred, lay.backed r.addr)
    (agrees : ∀ k, Agrees (w.duties k) (w.wants k)) : Orderly lay w := by
  refine ⟨orderly.toSerial.of_same txns next, ⟨?_, ?_, ?_, even, inside, deferred⟩, agrees⟩
  · rw [txns, next, probes]
    exact orderly.probes
  · rw [txns, next]
    intro k r member
    exact orderly.replies k r (replies k r member)
  · intro k a held
    exact orderly.lines k a (lines k a held)

theorem Orderly.agrees_send (orderly : Orderly lay v) (k : Nat) {sent : List Request}
    (quiet : sent.filterMap Request.duty? = []) (j : Nat) :
    Agrees ((v.send k sent).duties j) (v.wants j) := by
  have same : (v.send k sent).duties j = v.duties j := by
    simp only [View.duties, duties, View.queue_send, View.deferred_send, View.txns_send]
    by_cases here : j = k
    · simp [here, quiet]
    · simp [here]
  rw [same]
  exact orderly.agrees j

theorem Orderly.even_reline (orderly : Orderly lay v) {k : Nat} {line : Address → Holding}
    (even : Blockwise line) (j : Nat) : Blockwise ((v.reline k line).line j) := by
  rw [View.line_reline]
  split
  · exact even
  · exact orderly.even j

theorem Fate.copy {a : Address} {before after : Holding} {sent : List Request}
    (fate : Controller.Fate a before after sent) (held : after.copy.isSome) :
    before.copy.isSome := by
  cases fate with
  | kept same _ => rwa [same] at held
  | clean gone _ _ =>
    rw [gone] at held
    cases held
  | dirty gone _ _ _ _ _ =>
    rw [gone] at held
    cases held

/-- A reference comes to wait in a free slot, and the hub is asked for its answer. -/
theorem Orderly.asked (orderly : Orderly lay v) {k : Nat} (inside : k < lay.cpus) {slot : Slot}
    {r : Reference} {q : Request} {d : Duty} (free : v.wants k slot = none) (named : q.duty? = some d)
    (id : d.id = .miss slot) (fits : d.Fits r) :
    Orderly lay ((v.want k slot (some r)).send k [q]) := by
  refine orderly.of_same rfl rfl rfl ?_ orderly.even (fun _ _ held => held) ?_ orderly.deferred ?_
  · intro j s member
    have other : Request.reply s ≠ q := by
      rintro rfl
      cases named
    by_cases here : j = k
    · simpa [here, other] using member
    · simpa [here] using member
  · intro j outside
    have apart : j ≠ k := by omega
    simpa [apart] using orderly.inside j outside
  · intro j
    have before := orderly.agrees j
    by_cases here : j = k
    · subst here
      refine ((before.add free id fits).perm ?_).of_wants ?_
      · have last : [q].filterMap Request.duty? = [d] := by simp [named]
        simp only [View.duties, duties, View.queue_send, View.queue_want, if_true,
          List.filterMap_append, last, View.deferred_send, View.deferred_want, View.txns_send,
          View.txns_want, List.append_assoc]
        exact List.perm_middle.symm
      · intro i
        simp
    · have same : ((v.want k slot (some r)).send k [q]).duties j = v.duties j := by
        simp [View.duties, duties, here]
      rw [same]
      refine before.of_wants fun i => ?_
      simp [here]

/-- Lines of a CPU change, no block comes to be held, and the victims that this sends are named by no duty. -/
theorem Orderly.relined (orderly : Orderly lay v) {k : Nat} (inside : k < lay.cpus)
    {line : Address → Holding} {sent : List Request} (even : Blockwise line)
    (copies : ∀ b, (line b).copy.isSome → (v.line k b).copy.isSome)
    (sends : ∀ q ∈ sent, ∃ (v : Victim) (slot : Slot), q = v.request slot) :
    Orderly lay ((v.reline k line).send k sent) := by
  refine orderly.of_same rfl rfl rfl ?_ (orderly.even_reline even) ?_ ?_ orderly.deferred ?_
  · exact fun j q => (v.reline k line).reply_waited sends
  · intro j b held
    by_cases here : j = k
    · subst here
      simp only [View.line_send, View.line_reline, if_true] at held
      exact copies b held
    · simpa [here] using held
  · intro j outside
    have apart : j ≠ k := by omega
    simpa [apart] using orderly.inside j outside
  · exact orderly.agrees_send k (filterMap_victims sends)

/-- A call keeps order, unless it answers a reference that the hub was asked for. -/
theorem Orderly.called (orderly : Orderly lay v) {k : Nat} (inside : k < lay.cpus) {op : Operation}
    (called : View.Called v k op w) : Orderly lay w := by
  have apart {j : Nat} (outside : lay.cpus ≤ j) : j ≠ k := by omega
  cases called with
  | ask slot r access kind free reads named place =>
    have fits : (⟨.miss slot, some (r.addr.block, kind)⟩ : Duty).Fits { r with access } := by
      refine ⟨rfl, reads, fun io => ?_⟩
      rcases place with ⟨_, share⟩ | ⟨memory, _⟩
      · exact share
      · rw [memory] at io
        cases io
    exact orderly.asked inside free rfl rfl fits
  | join slot old r present access merges block =>
    refine orderly.of_same rfl rfl rfl (fun _ _ member => member) orderly.even (fun _ _ held => held)
      ?_ orderly.deferred ?_
    · intro j outside
      simpa [apart outside] using orderly.inside j outside
    intro j
    have before := orderly.agrees j
    by_cases here : j = k
    · subst here
      refine (before.join present r).of_wants fun i => ?_
      simp
    · refine before.of_wants fun i => ?_
      simp [here]
  | hold slot r free barrier =>
    have fits : (⟨.miss slot, none⟩ : Duty).Fits r := barrier
    exact orderly.asked inside free rfl rfl fits
  | purge r line sent access even others gone fate sends =>
    refine orderly.relined inside even (fun b held => ?_) sends
    by_cases same : b.block = r.addr.block
    · rw [even b r.addr same, gone] at held
      cases held
    · rwa [(others b same).1] at held
  | store a bytes line even sole lines =>
    have held (b : Address) (held : (line b).copy.isSome) : (v.line k b).copy.isSome := by
      rw [lines] at held
      split at held
      · rename_i same
        rw [orderly.even k b a same]
        simpa using held
      · exact held
    have relined : Orderly lay ((v.reline k line).send k []) :=
      orderly.relined inside even held (by simp)
    refine relined.of_same rfl rfl rfl ?_ (orderly.even_reline even) (fun _ _ held => held)
      relined.inside orderly.deferred orderly.agrees
    intro j r member
    have old : .reply r ∈ v.queue j := member
    simpa using old
  | retire a data line sent even copies sends =>
    exact orderly.relined inside even (fun b held => by rwa [copies] at held) sends

theorem Orderly.agrees_of_same (orderly : Orderly lay v)
    (queue : ∀ k, (w.queue k).filterMap Request.duty? = (v.queue k).filterMap Request.duty?)
    (deferred : w.deferred = v.deferred) (txns : w.txns = v.txns) (wants : w.wants = v.wants)
    (k : Nat) : Agrees (w.duties k) (w.wants k) := by
  have same : w.duties k = v.duties k := by
    simp only [View.duties, CacheCoherence.duties, queue, deferred, txns]
  rw [same, wants]
  exact orderly.agrees k

theorem Orderly.settled (orderly : Orderly lay v) {k : Nat} {q : Request} {later : List Request}
    (head : v.queue k = q :: later) (quiet : q.duty? = none) : Orderly lay (v.rest k later) := by
  refine orderly.of_same rfl rfl rfl ?_ orderly.even (fun _ _ held => held) orderly.inside
    orderly.deferred ?_
  · intro j r member
    by_cases here : j = k
    · subst here
      rw [head]
      exact List.mem_cons_of_mem _ (by simpa using member)
    · simpa [here] using member
  · refine orderly.agrees_of_same (fun i => ?_) rfl rfl rfl
    by_cases here : i = k
    · simp [here, head, quiet]
    · simp [here]

/-- A message that the hub answers at once leaves the queue, and its reference waits no longer. -/
theorem Orderly.answered (orderly : Orderly lay v) {k : Nat} {q : Request} {d : Duty}
    {later : List Request} (head : v.queue k = q :: later) (asks : q.duty? = some d) {slot : Slot}
    (id : d.id = .miss slot) : Orderly lay ((v.rest k later).want k slot none) := by
  refine orderly.of_same rfl rfl rfl ?_ orderly.even (fun _ _ held => held) ?_ orderly.deferred ?_
  · intro j r member
    by_cases here : j = k
    · subst here
      rw [head]
      exact List.mem_cons_of_mem _ (by simpa using member)
    · simpa [here] using member
  · intro j outside
    refine ⟨(orderly.inside j outside).1, fun i => ?_⟩
    simp only [View.wants_want, View.wants_rest]
    split
    · rfl
    · exact (orderly.inside j outside).2 i
  · intro j
    have before := orderly.agrees j
    by_cases here : j = k
    · subst here
      have owed : v.duties j = d :: ((v.rest j later).want j slot none).duties j := by
        simp [View.duties, duties, head, asks]
      rw [owed] at before
      exact (before.drop id).of_wants fun i => by simp
    · have same : ((v.rest k later).want k slot none).duties j = v.duties j := by
        simp [View.duties, duties, here]
      rw [same]
      exact before.of_wants fun i => by simp [here]

theorem Holding.after_copy {l : Holding} {next : NextState} (held : (l.after next).copy.isSome) :
    l.copy.isSome := by
  cases next <;> simp_all [Holding.after, Holding.absent]

theorem Holding.absent_after (next : NextState) : Holding.absent.after next = .absent := by
  cases next <;> rfl

theorem Orderly.snooped (orderly : Orderly lay v) {k : Nat} {p : Probe} {later : List Probe}
    {reply : ProbeReply} {line : Address → Holding} (even : Blockwise line)
    (oldest : v.probes k = p :: later) (txn : reply.txn = p.txn) (addr : reply.addr = p.addr.block)
    (others : ∀ b, b.block ≠ p.addr.block → line b = v.line k b)
    (moved : line p.addr = (v.line k p.addr).after p.command.next) :
    Orderly lay
      { (v.reline k line).send k [.reply reply] with
        probes := fun j => if j = k then later else v.probes j } := by
  have label := orderly.probes k p (by rw [oldest]; exact List.mem_cons_self ..)
  have lines (b : Address) (held : (line b).copy.isSome) : (v.line k b).copy.isSome := by
    by_cases same : b.block = p.addr.block
    · rw [even b p.addr same, moved] at held
      rw [orderly.even k b p.addr same]
      exact Holding.after_copy held
    · rwa [others b same] at held
  refine ⟨orderly.toSerial.of_same rfl rfl,
    ⟨?_, ?_, ?_, orderly.even_reline even, ?_, orderly.deferred⟩, ?_⟩
  · intro j q member
    by_cases here : j = k
    · subst here
      refine orderly.probes j q ?_
      rw [oldest]
      exact List.mem_cons_of_mem _ (by simpa using member)
    · exact orderly.probes j q (by simpa [here] using member)
  · intro j r member
    simp only [View.queue_send, View.queue_reline] at member
    split at member
    · rename_i here
      rcases List.mem_append.mp member with old | new
      · exact orderly.replies j r (by simpa [here] using old)
      · cases List.mem_singleton.mp new
        obtain ⟨below, aligned, _, named⟩ := label
        refine ⟨by rw [txn]; exact below, by rw [addr, Address.block_block], ?_⟩
        intro t member number
        rw [addr, aligned]
        exact (named t member (number.trans txn)).1
    · exact orderly.replies j r member
  · intro j b held
    simp only [View.line_send, View.line_reline] at held
    split at held
    · rename_i here
      rw [here] at *
      exact orderly.lines k b (lines b held)
    · exact orderly.lines j b held
  · intro j outside
    refine ⟨fun b => ?_, (orderly.inside j outside).2⟩
    simp only [View.line_send, View.line_reline]
    split
    · rename_i here
      have absent := (orderly.inside j outside).1
      rw [here] at absent
      by_cases same : b.block = p.addr.block
      · rw [even b p.addr same, moved, absent, Holding.absent_after]
      · rw [others b same, absent]
    · exact (orderly.inside j outside).1 b
  · refine orderly.agrees_of_same (fun i => ?_) rfl rfl rfl
    by_cases here : i = k
    · simp [here, Request.duty?]
    · simp [here]

theorem Orderly.put_off (orderly : Orderly lay v) {k : Nat} {id : RequestId} {a : Address}
    {kind : ReadKind} {later : List Request} (head : v.queue k = .read id a kind :: later)
    (backed : lay.backed a) :
    Orderly lay { v.rest k later with deferred := v.deferred ++ [⟨k, id, a, kind⟩] } := by
  refine orderly.of_same rfl rfl rfl ?_ orderly.even (fun _ _ held => held) orderly.inside ?_ ?_
  · intro j r member
    by_cases here : j = k
    · subst here
      rw [head]
      exact List.mem_cons_of_mem _ (by simpa using member)
    · simpa [here] using member
  · intro r member
    rcases List.mem_append.mp member with old | new
    · exact orderly.deferred r old
    · rw [List.mem_singleton.mp new]
      exact backed
  · intro j
    refine (orderly.agrees j).perm ?_
    by_cases here : j = k
    · subst here
      simp only [View.duties, duties, View.queue_rest, if_true, head, List.filterMap_cons,
        Request.duty?, List.filter_append, List.map_append, View.txns_rest, List.append_assoc]
      refine (List.perm_middle.symm.trans ?_)
      refine List.Perm.append_left _ ?_
      simpa [DeferredRead.duty] using
        (List.perm_middle (a := (⟨id, some (a.block, kind)⟩ : Duty))).symm
    · simp [View.duties, duties, here, Ne.symm here]

theorem mem_take {txns : List Transaction} {t : Transaction} (member : t ∈ txns) {r : ProbeReply}
    {u : Transaction}
    (inside : u ∈ txns.map fun w => if w.number = r.txn then t.take r else w) :
    ∃ w ∈ txns, u = w ∨ u = w.take r := by
  obtain ⟨w, old, rfl⟩ := List.mem_map.mp inside
  by_cases same : w.number = r.txn
  · rw [if_pos same]
    exact ⟨t, member, .inr rfl⟩
  · rw [if_neg same]
    exact ⟨w, old, .inl rfl⟩

theorem Orderly.taken (orderly : Orderly lay v) {k : Nat} {r : ProbeReply} {later : List Request}
    (head : v.queue k = .reply r :: later) {t : Transaction} (isOpen : t ∈ v.txns)
    (number : t.number = r.txn) :
    Orderly lay
      { v.rest k later with
        txns := v.txns.map fun u => if u.number = r.txn then t.take r else u } := by
  have settled := orderly.settled head rfl
  have same (part : Transaction → Nat) (kept : part (t.take r) = part t) :=
    map_take orderly.numbers isOpen r number part kept
  have old {u : Transaction} := @mem_take _ _ isOpen r u
  refine ⟨⟨?_, ?_, ?_, ?_, ?_, ?_⟩, ⟨?_, ?_, settled.lines, settled.even,
    settled.inside, settled.deferred⟩, ?_⟩
  · rw [same (·.number) rfl]
    exact orderly.numbers
  · intro u inside
    obtain ⟨w, member, rfl | rfl⟩ := old inside
    · exact orderly.below u member
    · exact orderly.below w member
  · rw [map_take orderly.numbers isOpen r number (·.addr) rfl]
    exact orderly.blocks
  · intro u inside
    obtain ⟨w, member, rfl | rfl⟩ := old inside
    · exact orderly.aligned u member
    · exact orderly.aligned w member
  · intro u inside
    obtain ⟨w, member, rfl | rfl⟩ := old inside
    · exact orderly.backed u member
    · exact orderly.backed w member
  · intro u inside
    obtain ⟨w, member, rfl | rfl⟩ := old inside
    · exact orderly.toSerial.next u member
    · exact orderly.toSerial.next w member
  · intro j p member
    obtain ⟨below, aligned, usual, named⟩ := orderly.probes j p member
    refine ⟨below, aligned, usual, fun u inside => ?_⟩
    obtain ⟨w, member, rfl | rfl⟩ := old inside
    · exact named u member
    · exact named w member
  · intro j q member
    obtain ⟨below, aligned, named⟩ := settled.replies j q member
    refine ⟨below, aligned, fun u inside => ?_⟩
    obtain ⟨w, member, rfl | rfl⟩ := old inside
    · exact named u member
    · exact named w member
  · intro j
    have owed : ((v.txns.map fun u => if u.number = r.txn then t.take r else u).filter
        (·.origin == j)).map Transaction.duty = (v.txns.filter (·.origin == j)).map Transaction.duty := by
      have parts := map_take orderly.numbers isOpen r number (fun u => (u.origin, u.duty)) rfl
      have filtered (txns : List Transaction) : (txns.filter (·.origin == j)).map Transaction.duty =
          ((txns.map fun u => (u.origin, u.duty)).filter (·.1 == j)).map (·.2) := by
        rw [List.filter_map, List.map_map]
        rfl
      rw [filtered, filtered, parts]
    have before := settled.agrees j
    simp only [View.duties, duties, View.queue_rest, View.deferred_rest, View.txns_rest] at before ⊢
    rw [owed]
    exact before

section begun

variable {r : DeferredRead} {before after : List DeferredRead}

theorem forall_mem_begun {P : Transaction → Prop} (old : ∀ t ∈ v.txns, P t) (new : P (v.opened lay r)) :
    ∀ t ∈ (v.begun lay r before).txns, P t := by
  intro t member
  rw [View.txns_begun] at member
  rcases List.mem_append.mp member with earlier | last
  · exact old t earlier
  · rw [List.mem_singleton.mp last]
    exact new

/-- The new transaction has a new number, and no transaction was open for its block. -/
theorem Serial.begun (serial : Serial lay v) (free : ∀ t ∈ v.txns, t.addr ≠ r.addr.block)
    (backed : lay.backed r.addr) : Serial lay (v.begun lay r before) := by
  constructor
  · rw [View.txns_begun, List.map_append, List.nodup_append]
    refine ⟨serial.numbers, by simp, ?_⟩
    intro number member other last
    obtain ⟨t, inside, rfl⟩ := List.mem_map.mp member
    cases List.mem_singleton.mp last
    exact Nat.ne_of_lt (serial.below t inside)
  · exact forall_mem_begun (fun t member => Nat.lt_succ_of_lt (serial.below t member))
      (Nat.lt_succ_self _)
  · rw [View.txns_begun, List.map_append, List.nodup_append]
    refine ⟨serial.blocks, by simp, ?_⟩
    intro block member other last
    obtain ⟨t, inside, rfl⟩ := List.mem_map.mp member
    cases List.mem_singleton.mp last
    exact free t inside
  · exact forall_mem_begun serial.aligned (Address.block_block _)
  · refine forall_mem_begun serial.backed ?_
    change lay.backed r.addr.block = true
    rw [lay.even _ r.addr (Address.block_block _)]
    exact backed
  · exact forall_mem_begun serial.next rfl

theorem Orderly.labelled_probe (orderly : Orderly lay v) {j : Nat} {p : Probe} (member : p ∈ v.probes j) :
    p.txn < v.next + 1 ∧ p.addr.block = p.addr ∧ (∃ kind, p.command = lay.command kind) ∧
      ∀ t ∈ (v.begun lay r before).txns, t.number = p.txn →
        p.addr = t.addr ∧ p.command = lay.command t.kind := by
  obtain ⟨below, aligned, usual, named⟩ := orderly.probes j p member
  refine ⟨Nat.lt_succ_of_lt below, aligned, usual, forall_mem_begun named ?_⟩
  intro number
  have impossible : v.next = p.txn := number
  omega

theorem Orderly.labelled_new (orderly : Orderly lay v) :
    let p := Probe.ofCommand v.next r.addr.block (lay.command r.kind)
    p.txn < v.next + 1 ∧ p.addr.block = p.addr ∧ (∃ kind, p.command = lay.command kind) ∧
      ∀ t ∈ (v.begun lay r before).txns, t.number = p.txn →
        p.addr = t.addr ∧ p.command = lay.command t.kind := by
  have command : (Probe.ofCommand v.next r.addr.block (lay.command r.kind)).command =
      lay.command r.kind := ProbeCommand.decode_encode _
  refine ⟨Nat.lt_succ_self _, Address.block_block _, ⟨r.kind, command⟩, ?_⟩
  refine forall_mem_begun (fun t member number => ?_) fun _ => ⟨rfl, command⟩
  have impossible : t.number = v.next := number
  have below := orderly.below t member
  omega

theorem Orderly.labelled_begun (orderly : Orderly lay v) (waits : v.deferred = before ++ r :: after) :
    Labelled lay (v.begun lay r (before ++ after)) := by
  refine ⟨?_, ?_, orderly.lines, orderly.even, orderly.inside, ?_⟩
  · intro j p member
    simp only [View.probes_begun] at member
    split at member
    · rcases List.mem_append.mp member with old | new
      · exact orderly.labelled_probe old
      · cases List.mem_singleton.mp new
        exact orderly.labelled_new
    · exact orderly.labelled_probe member
  · intro j q member
    obtain ⟨below, aligned, named⟩ := orderly.replies j q member
    refine ⟨Nat.lt_succ_of_lt below, aligned, forall_mem_begun named ?_⟩
    intro number
    have impossible : v.next = q.txn := number
    omega
  · intro u member
    refine orderly.deferred u ?_
    rw [waits]
    exact List.perm_middle.mem_iff.mpr (List.mem_cons_of_mem _ member)

theorem Orderly.agrees_begun (orderly : Orderly lay v) (waits : v.deferred = before ++ r :: after)
    (j : Nat) : Agrees ((v.begun lay r (before ++ after)).duties j)
      ((v.begun lay r (before ++ after)).wants j) := by
  refine (orderly.agrees j).perm ?_
  simp only [View.duties, duties, waits, View.queue_begun, View.deferred_begun, View.txns_begun,
    List.filter_append, List.map_append, List.append_assoc,
    List.filter_cons]
  refine List.Perm.append_left _ (List.Perm.append_left _ ?_)
  by_cases here : r.cpu = j
  · have opened : (v.opened lay r).origin = j := here
    simp only [here, opened, beq_self_eq_true, if_true, List.map_cons, List.cons_append,
      List.filter_nil, List.map_nil]
    refine List.perm_middle.symm.trans (List.Perm.append_left _ ?_)
    exact (List.perm_append_singleton _ _).symm
  · have opened : ((v.opened lay r).origin == j) = false := by simpa [View.opened] using here
    simp [here, opened]

theorem Orderly.begun (orderly : Orderly lay v) (waits : v.deferred = before ++ r :: after)
    (free : ∀ t ∈ v.txns, t.addr ≠ r.addr.block) (backed : lay.backed r.addr) :
    Orderly lay (v.begun lay r (before ++ after)) :=
  ⟨orderly.toSerial.begun free backed, orderly.labelled_begun waits, orderly.agrees_begun waits⟩

end begun

theorem Delivered.sends {r : Reference} {fill : Block} {before after : Address → Holding}
    {sent : List Request} (delivered : Delivered r fill before after sent) :
    ∀ q ∈ sent, ∃ (v : Victim) (slot : Slot), q = v.request slot := by
  cases delivered with
  | refused | owned => simp
  | filled _ _ _ _ _ sends => exact sends

theorem Delivered.copies {r : Reference} {fill : Block} {before after : Address → Holding}
    {sent : List Request} (delivered : Delivered r fill before after sent) {b : Address}
    (apart : b.block ≠ r.addr.block) (held : (after b).copy.isSome) : (before b).copy.isSome := by
  cases delivered with
  | refused _ same => rwa [same] at held
  | owned _ _ _ lines => rwa [lines, if_neg apart] at held
  | filled _ _ _ _ _ _ _ others => exact Fate.copy (others b apart) held

theorem Orderly.fits (orderly : Orderly lay v) {t : Transaction} (isOpen : t ∈ v.txns) :
    ∃ slot r, t.id = .miss slot ∧ v.wants t.origin slot = some r ∧ r.addr.block = t.addr ∧
      r.access.readKind = some t.kind := by
  have member : t.duty ∈ v.duties t.origin := by
    refine List.mem_append_right _ (List.mem_map_of_mem ?_)
    exact List.mem_filter.mpr ⟨isOpen, by simp⟩
  obtain ⟨slot, r, id, wanted, fits⟩ := (orderly.agrees t.origin).fits _ member
  exact ⟨slot, r, id, wanted, fits.1, fits.2.1⟩

theorem Orderly.finished (orderly : Orderly lay v) {t : Transaction} {slot : Slot} {r : Reference}
    {line : Address → Holding} {sent : List Request} (isOpen : t ∈ v.txns) (id : t.id = .miss slot)
    (wanted : v.wants t.origin slot = some r) (even : Blockwise line)
    (delivered : Delivered r (v.fill t) (v.line t.origin) line sent) :
    Orderly lay
      ((((({ v with txns := v.txns.filter (·.number != t.number) }.remember lay t.addr t.data).want
        t.origin slot none).reline t.origin line).send t.origin sent).zeroed t line) := by
  have perm := txns_perm orderly.numbers isOpen
  have kept : (v.txns.filter (·.number != t.number)).Sublist v.txns := List.filter_sublist
  have about : r.addr.block = t.addr := by
    obtain ⟨i, s, same, present, block, _⟩ := orderly.fits isOpen
    rw [id] at same
    cases same
    rw [wanted] at present
    cases present
    exact block
  have known : t.origin < lay.cpus := by
    by_contra outside
    have free := (orderly.inside t.origin (by omega)).2 slot
    rw [wanted] at free
    cases free
  refine ⟨⟨?_, ?_, ?_, ?_, ?_, ?_⟩, ⟨?_, ?_, ?_, ?_, ?_, orderly.deferred⟩, ?_⟩
  · exact orderly.numbers.sublist (kept.map _)
  · exact fun u member => orderly.below u (kept.subset member)
  · exact orderly.blocks.sublist (kept.map _)
  · exact fun u member => orderly.aligned u (kept.subset member)
  · exact fun u member => orderly.backed u (kept.subset member)
  · exact fun u member => orderly.toSerial.next u (kept.subset member)
  · intro j p member
    obtain ⟨below, aligned, usual, named⟩ := orderly.probes j p member
    exact ⟨below, aligned, usual, fun u inside => named u (kept.subset inside)⟩
  · intro j q member
    have old : .reply q ∈ v.queue j := by
      by_cases here : j = t.origin
      · subst here
        simpa [reply_not_sent delivered.sends q] using member
      · simpa [here] using member
    obtain ⟨below, aligned, named⟩ := orderly.replies j q old
    exact ⟨below, aligned, fun u inside => named u (kept.subset inside)⟩
  · intro j b held
    simp only [View.line_zeroed, View.line_send, View.line_reline] at held
    split at held
    · rename_i here
      by_cases same : b.block = r.addr.block
      · rw [lay.even b t.addr (by rw [same, about, orderly.aligned t isOpen])]
        exact orderly.backed t isOpen
      · exact orderly.lines t.origin b (delivered.copies same held)
    · exact orderly.lines j b held
  · intro j
    rw [View.line_zeroed, View.line_send, View.line_reline]
    split
    · exact even
    · exact orderly.even j
  · intro j outside
    have apart : j ≠ t.origin := by omega
    simpa [apart] using orderly.inside j outside
  · intro j
    have owed := (orderly.agrees j).perm
      (((perm.filter (·.origin == j)).map Transaction.duty).append_left _)
    by_cases here : j = t.origin
    · subst here
      rw [List.filter_cons_of_pos (by simp)] at owed
      have first := owed.perm List.perm_middle
      refine (first.drop id).perm ?_ |>.of_wants ?_
      · simp [View.duties, duties, filterMap_victims delivered.sends]
      · intro i
        simp
    · rw [List.filter_cons_of_neg (by simpa using Ne.symm here)] at owed
      refine (owed.perm ?_).of_wants ?_
      · simp [View.duties, duties, here]
      · intro i
        simp [here]

theorem Orderly.step (orderly : Orderly lay v) (step : View.Step lay v w) : Orderly lay w := by
  cases step with
  | snoop k p later reply line even oldest txn addr others moved =>
    exact orderly.snooped even oldest txn addr others moved
  | defer k id a kind later head backed => exact orderly.put_off head backed
  | bypass k slot a kind later head => exact orderly.answered head rfl rfl
  | release k slot later head => exact orderly.answered head rfl rfl
  | settle k slot a data later head =>
    have settled := orderly.settled head rfl
    exact settled.of_same rfl rfl rfl (fun _ _ member => member) settled.even
      (fun _ _ held => held) settled.inside settled.deferred settled.agrees
  | drop k r later head => exact orderly.settled head rfl
  | take k r later t head isOpen number => exact orderly.taken head isOpen number
  | begin r before after waits free backed => exact orderly.begun waits free backed
  | finish t slot r line sent isOpen done id wanted even delivered =>
    exact orderly.finished isOpen id wanted even delivered
  | turn r later waits =>
    refine orderly.of_same rfl rfl rfl (fun _ _ member => member) orderly.even
      (fun _ _ held => held) orderly.inside ?_ fun j => (orderly.agrees j).perm ?_
    · intro u member
      refine orderly.deferred u ?_
      rw [waits]
      exact (List.perm_append_singleton r later).mem_iff.mp member
    simp only [View.duties, duties, waits]
    refine List.Perm.append_right _ (List.Perm.append_left _ (List.Perm.map _ ?_))
    exact (List.perm_append_singleton r later).symm.filter _

end CacheCoherence
