import CacheCoherence.Proofs.Duties
import Mathlib.Data.List.Find
import Mathlib.Logic.Function.Basic

namespace CacheCoherence

@[ext]
structure Focus where
  line : Nat → Holding
  asks : Nat → Slot → Option ReadKind
  queue : Nat → List Request
  probes : Nat → List Probe
  txn : Option Transaction
  memory : Block
  value : Block

theorem Access.owns_of_readKind {a : Access} {kind : ReadKind} (reads : a.readKind = some kind) :
    a.needsOwnership = (kind != .share) := by
  cases a <;> cases reads <;> rfl

def Reference.asksFor (b : Address) (r : Reference) : Option ReadKind :=
  if r.addr.block = b.block then r.access.readKind else none

def View.focus (v : View) (b : Address) : Focus where
  line k := v.line k b
  asks k slot := (v.wants k slot).bind (Reference.asksFor b)
  queue k := onBlock b (v.queue k)
  probes k := (v.probes k).filter (·.addr == b)
  txn := v.txns.find? (·.addr == b)
  memory := v.memory b
  value := v.value b

namespace Focus

def fill (f : Focus) (t : Transaction) : Block := if t.kind = .claim then .zero else t.data.getD f.memory

inductive Filled (f : Focus) (t : Transaction) : Holding → Prop
  | refused (absent : f.line t.origin = .absent) : Filled f t .absent
  | owned (kind : t.kind = .upgrade) (data : Block) (copy : (f.line t.origin).copy = some data) :
      Filled f t ⟨some data, true, true⟩
  | filled (lost : t.kind = .upgrade → f.line t.origin = .absent) (line : Holding)
      (copy : line.copy = some (f.fill t))
      (owned : t.kind ≠ .share → line = ⟨some (f.fill t), true, true⟩)
      (fresh : t.kind = .share → f.line t.origin = .absent →
        line = ⟨some (f.fill t), false, false⟩) : Filled f t line

open Function (update)

/-- What can happen to a block. In a `tidy` run no node gives up dirty data while it asks for the
block. -/
inductive Step (lay : Layout) (tidy : Prop) (f : Focus) : Focus → Prop
  | ask (k : Nat) (slot : Slot) (a : Address) (kind : ReadKind) (inside : k < lay.cpus)
      (free : ∀ i, f.asks k i = none)
      (place : kind = .share ∨ kind = .modify → f.line k = .absent) :
      Step lay tidy f
        { f with
          asks := update f.asks k (update (f.asks k) slot (some kind))
          queue := update f.queue k (f.queue k ++ [.read (.miss slot) a kind]) }
  | lose (k : Nat) (clean : (f.line k).dirty = false) :
      Step lay tidy f { f with line := update f.line k .absent }
  | evict (k : Nat) (slot : Slot) (a : Address) (data : Block) (dirty : (f.line k).dirty)
      (copy : (f.line k).copy = some data) (idle : tidy → ∀ i, f.asks k i = none) :
      Step lay tidy f
        { f with
          line := update f.line k .absent
          queue := update f.queue k (f.queue k ++ [.victim slot a data]) }
  | store (k : Nat) (offset : Nat) (bytes : List UInt8) (sole : (f.line k).sole) :
      Step lay tidy f
        { f with
          line := update f.line k
            { f.line k with copy := (f.line k).copy.map (·.write offset bytes) }
          value := f.value.write offset bytes }
  | snoop (k : Nat) (p : Probe) (later : List Probe) (reply : ProbeReply)
      (oldest : f.probes k = p :: later) (txn : reply.txn = p.txn)
      (held : f.line k ≠ .absent →
        reply.dirtyData = if (f.line k).dirty then (f.line k).copy else none)
      (missed : f.line k = .absent → reply.dirtyData = none ∨
        ∃ slot a data, .victim slot a data ∈ f.queue k ∧ reply.dirtyData = some data) :
      Step lay tidy f
        { f with
          line := update f.line k ((f.line k).after p.command.next)
          queue := update f.queue k (f.queue k ++ [.reply reply])
          probes := update f.probes k later }
  | defer (k : Nat) (id : RequestId) (a : Address) (kind : ReadKind) (later : List Request)
      (head : f.queue k = .read id a kind :: later) :
      Step lay tidy f { f with queue := update f.queue k later }
  | settle (k : Nat) (slot : Slot) (a : Address) (data : Block) (later : List Request)
      (head : f.queue k = .victim slot a data :: later) :
      Step lay tidy f { f with queue := update f.queue k later, memory := data }
  | drop (k : Nat) (r : ProbeReply) (later : List Request) (head : f.queue k = .reply r :: later)
      (closed : ∀ t, f.txn = some t → t.number ≠ r.txn) :
      Step lay tidy f { f with queue := update f.queue k later }
  | take (k : Nat) (r : ProbeReply) (later : List Request) (t : Transaction)
      (head : f.queue k = .reply r :: later) (isOpen : f.txn = some t) (number : t.number = r.txn) :
      Step lay tidy f { f with queue := update f.queue k later, txn := some (t.take r) }
  | begin (t : Transaction) (slot : Slot) (a : Address) (closed : f.txn = none)
      (id : t.id = .miss slot) (asked : f.asks t.origin slot = some t.kind)
      (moved : ∀ id a kind, .read id a kind ∉ f.queue t.origin)
      (pending : t.pending = (lay.others t.origin).length) (empty : t.data = none) :
      Step lay tidy f
        { f with
          txn := some t
          probes := fun j =>
            if j ∈ lay.others t.origin then
              f.probes j ++ [.ofCommand t.number a (lay.command t.kind)]
            else f.probes j }
  | finish (t : Transaction) (slot : Slot) (line : Holding) (isOpen : f.txn = some t)
      (done : t.pending = 0) (id : t.id = .miss slot) (asked : f.asks t.origin slot = some t.kind)
      (filled : f.Filled t line) :
      Step lay tidy f
        { f with
          txn := none
          memory := t.data.getD f.memory
          asks := update f.asks t.origin (update (f.asks t.origin) slot none)
          line := update f.line t.origin line
          value := if t.kind = .claim ∧ line.copy.isSome then .zero else f.value }

end Focus

namespace View

open Function (update)

section focus

variable (v : View) (b : Address) (k : Nat)

theorem focus_reline (line : Address → Holding) :
    (v.reline k line).focus b = { v.focus b with line := update (v.focus b).line k (line b) } := by
  refine Focus.ext ?_ rfl rfl rfl rfl rfl rfl
  funext j
  by_cases here : j = k
  · simp [focus, here]
  · simp [focus, here]

theorem focus_want (slot : Slot) (r : Option Reference) :
    (v.want k slot r).focus b =
      { v.focus b with
        asks := update (v.focus b).asks k
          (update ((v.focus b).asks k) slot (r.bind (Reference.asksFor b))) } := by
  refine Focus.ext rfl ?_ rfl rfl rfl rfl rfl
  funext j i
  by_cases here : j = k
  · by_cases there : i = slot
    · simp [focus, here, there]
    · simp [focus, here, there]
  · simp [focus, here]

theorem focus_send (sent : List Request) :
    (v.send k sent).focus b =
      { v.focus b with
        queue := update (v.focus b).queue k ((v.focus b).queue k ++ onBlock b sent) } := by
  refine Focus.ext rfl rfl ?_ rfl rfl rfl rfl
  funext j
  by_cases here : j = k
  · simp [focus, here]
  · simp [focus, here]

theorem focus_rest (later : List Request) :
    (v.rest k later).focus b =
      { v.focus b with queue := update (v.focus b).queue k (onBlock b later) } := by
  refine Focus.ext rfl rfl ?_ rfl rfl rfl rfl
  funext j
  by_cases here : j = k
  · simp [focus, here]
  · simp [focus, here]

theorem focus_remember (lay : Layout) (a : Address) (data : Option Block) :
    (v.remember lay a data).focus b =
      { v.focus b with
        memory :=
          if lay.backed a ∧ b.block = a.block then data.getD (v.memory b) else v.memory b } := rfl

theorem focus_zeroed (t : Transaction) (line : Address → Holding) :
    (v.zeroed t line).focus b =
      { v.focus b with
        value :=
          if t.kind = .claim ∧ (line t.addr).copy.isSome ∧ b.block = t.addr then .zero
          else v.value b } := rfl

theorem focus_written (a : Address) (bytes : List UInt8) :
    (v.written a bytes).focus b =
      { v.focus b with
        value := if b.block = a.block then (v.value b).write a.offset bytes else v.value b } := rfl

theorem focus_want_same {v : View} {b : Address} {k : Nat} {slot : Slot} {r : Option Reference}
    (same : r.bind (Reference.asksFor b) = (v.focus b).asks k slot) :
    (v.want k slot r).focus b = v.focus b := by
  rw [focus_want, same, Function.update_eq_self, Function.update_eq_self]

theorem focus_send_other {v : View} {b : Address} {k : Nat} {sent : List Request}
    (other : onBlock b sent = []) : (v.send k sent).focus b = v.focus b := by
  rw [focus_send, other, List.append_nil, Function.update_eq_self]

theorem focus_rest_other {v : View} {b : Address} {k : Nat} {q : Request} {later : List Request}
    (head : v.queue k = q :: later) (other : q.block? ≠ some b.block) :
    (v.rest k later).focus b = v.focus b := by
  have same : onBlock b later = (v.focus b).queue k := by
    simp [focus, head, other]
  rw [focus_rest, same, Function.update_eq_self]

end focus

variable {lay : Layout} {v w : View} {b : Address} {tidy : Prop}

abbrev Follows (lay : Layout) (tidy : Prop) (f g : Focus) : Prop :=
  g = f ∨ Focus.Step lay tidy f g

theorem head_about {k : Nat} {q : Request} {later : List Request} (head : v.queue k = q :: later)
    (about : q.block? = some b.block) :
    (v.focus b).queue k = q :: onBlock b later := by
  simp [focus, head, about]

theorem Fate.follows {k : Nat} {line : Address → Holding} {sent : List Request} {f : Focus}
    (fate : Controller.Fate b (f.line k) (line b) sent)
    (idle : tidy → (f.line k).dirty → ∀ i, f.asks k i = none) :
    Follows lay tidy f
      { f with
        line := update f.line k (line b)
        queue := update f.queue k (f.queue k ++ onBlock b sent) } := by
  cases fate with
  | kept same quiet =>
    refine .inl ?_
    rw [same, quiet, List.append_nil, Function.update_eq_self, Function.update_eq_self]
  | clean gone clean quiet =>
    refine .inr ?_
    rw [gone, quiet, List.append_nil, Function.update_eq_self]
    exact .lose k clean
  | dirty gone dirty slot data copy left =>
    refine .inr ?_
    rw [gone, left]
    exact .evict k slot b.block data dirty copy fun neat => idle neat dirty

theorem asksFor_other {r : Reference} (apart : r.addr.block ≠ b.block) : r.asksFor b = none :=
  if_neg apart

theorem asks_eq (v : View) (b : Address) (k : Nat) (slot : Slot) :
    (v.focus b).asks k slot = (v.wants k slot).bind (Reference.asksFor b) := rfl

theorem Called.follows (orderly : Orderly lay v) {k : Nat} {op : Operation}
    (called : View.Called v k op w) (backed : lay.backed b) (inside : k < lay.cpus)
    (free : ∀ r slot q, op = .issue r → r.access ≠ .barrier → v.wants k slot = none →
      w.wants k slot = some q → q.addr = r.addr → q.asksFor b ≠ none →
      ∀ i, (v.focus b).asks k i = none)
    (idle : tidy → ∀ r, op = .issue r → r.access = .purge → r.addr.block = b.block →
      (v.line k b).dirty → ∀ i, (v.focus b).asks k i = none)
    (stays : op.retires = false) : Follows lay tidy (v.focus b) (w.focus b) := by
  cases called with
  | ask slot r access kind vacant reads named place =>
    by_cases about : r.addr.block = b.block
    · have asks : Reference.asksFor b { r with access } = some kind := by
        rw [Reference.asksFor, if_pos about, reads]
      have quiet := free r slot { r with access } rfl named vacant (by simp) rfl (by rw [asks]; simp)
      have sent : onBlock b [.read (.miss slot) r.addr kind] = [.read (.miss slot) r.addr kind] := by
        simp [Request.block?, about]
      rw [focus_send, focus_want, sent, Option.bind_some, asks]
      refine .inr (.ask k slot r.addr kind inside quiet fun fills => ?_)
      rcases place with ⟨io, _⟩ | ⟨_, absent⟩
      · rw [lay.cacheable r.addr (by rw [lay.even _ _ about]; exact backed)] at io
        cases io
      · exact (orderly.even k b r.addr about.symm).trans (absent fills)
    · refine .inl ?_
      rw [focus_send_other, focus_want_same]
      · rw [asks_eq, vacant]
        exact asksFor_other about
      · simp [Request.block?, about]
  | join slot old r present access merges block =>
    refine .inl (focus_want_same ?_)
    rw [asks_eq, present]
    rfl
  | hold slot r vacant barrier =>
    refine .inl ?_
    rw [focus_send_other, focus_want_same]
    · rw [asks_eq, vacant]
      simp [Reference.asksFor, barrier, Access.readKind]
    · simp [Request.block?]
  | purge r line sent access even others gone fate sends =>
    rw [focus_send, focus_reline]
    by_cases about : b.block = r.addr.block
    · have here : line b = .absent := (even b r.addr about).trans gone
      have before : (v.focus b).line k = v.line k r.addr := orderly.even k b r.addr about
      have moved : Controller.Fate b ((v.focus b).line k) (line b) sent := by
        have same : onBlock b sent = onBlock r.addr sent := by rw [onBlock, onBlock, about]
        rw [here, before]
        cases fate with
        | kept kept quiet => exact .kept kept (same.trans quiet)
        | clean gone clean quiet => exact .clean gone clean (same.trans quiet)
        | dirty gone dirty slot data copy left =>
          exact .dirty gone dirty slot data copy (by rw [same, left, about])
      exact Fate.follows moved fun neat dirty => idle neat r rfl access about.symm dirty
    · refine .inl ?_
      have same : line b = (v.focus b).line k := (others b about).1
      rw [(others b about).2, same, List.append_nil, Function.update_eq_self,
        Function.update_eq_self]
  | store a bytes line even sole lines =>
    rw [focus_written, focus_reline]
    by_cases about : b.block = a.block
    · have before : v.line k a = (v.focus b).line k := orderly.even k a b about.symm
      rw [if_pos about, lines, if_pos about, before]
      rw [before] at sole
      exact .inr (.store k a.offset bytes sole)
    · have same : line b = (v.focus b).line k := by
        rw [lines, if_neg about]
        rfl
      rw [if_neg about, same, Function.update_eq_self]
      exact .inl rfl
  | retire a data => cases stays

theorem txn_focus (serial : Serial lay v) {t : Transaction} (isOpen : t ∈ v.txns) (about : t.addr = b) :
    (v.focus b).txn = some t := by
  cases found : v.txns.find? (·.addr == b) with
  | none =>
    rw [List.find?_eq_none] at found
    exact absurd about (by simpa using found t isOpen)
  | some u =>
    have same : u.addr = b := by simpa using List.find?_some found
    have equal : u = t := List.inj_on_of_nodup_map serial.blocks
      (List.mem_of_find?_eq_some found) isOpen (same.trans about.symm)
    rw [← equal]
    exact found

theorem of_txn_focus {t : Transaction} (shown : (v.focus b).txn = some t) :
    t ∈ v.txns ∧ t.addr = b :=
  ⟨List.mem_of_find?_eq_some shown, by simpa using List.find?_some shown⟩

/-- The reference that a duty of a CPU is owed to, as the focus shows it. -/
theorem asks_of_duty (orderly : Orderly lay v) (aligned : b.block = b) {k : Nat} {d : Duty}
    {kind : ReadKind} (owed : d ∈ v.duties k) (about : d.about = some (b, kind)) :
    ∃ slot, d.id = .miss slot ∧ (v.focus b).asks k slot = some kind := by
  obtain ⟨slot, r, id, wanted, fits⟩ := (orderly.agrees k).fits d owed
  simp only [Duty.Fits, about] at fits
  refine ⟨slot, id, ?_⟩
  rw [asks_eq, wanted, Option.bind_some, Reference.asksFor, aligned, if_pos fits.1, fits.2.1]

theorem follows_snoop (orderly : Orderly lay v) (aligned : b.block = b) {k : Nat} {p : Probe}
    {later : List Probe} {reply : ProbeReply} {line : Address → Holding}
    (oldest : v.probes k = p :: later) (txn : reply.txn = p.txn) (addr : reply.addr = p.addr.block)
    (others : ∀ b, b.block ≠ p.addr.block → line b = v.line k b)
    (moved : line p.addr = (v.line k p.addr).after p.command.next)
    (held : v.line k p.addr ≠ .absent →
      reply.dirtyData = if (v.line k p.addr).dirty then (v.line k p.addr).copy else none)
    (missed : v.line k p.addr = .absent → reply.dirtyData = none ∨
      ∃ slot data, .victim slot p.addr.block data ∈ v.queue k ∧ reply.dirtyData = some data) :
    Follows lay tidy (v.focus b)
      (View.focus { (v.reline k line).send k [.reply reply] with
        probes := fun j => if j = k then later else v.probes j } b) := by
  have block : p.addr.block = p.addr :=
    (orderly.probes k p (by rw [oldest]; exact List.mem_cons_self ..)).2.1
  have shape : View.focus { (v.reline k line).send k [.reply reply] with
        probes := fun j => if j = k then later else v.probes j } b =
      { ((v.reline k line).send k [.reply reply]).focus b with
        probes := update (v.focus b).probes k (later.filter (·.addr == b)) } := by
    refine Focus.ext rfl rfl rfl ?_ rfl rfl rfl
    funext j
    by_cases here : j = k
    · simp [focus, here]
    · simp [focus, here]
  have about : reply.addr.block = p.addr := by rw [addr, Address.block_block, block]
  rw [shape, focus_send, focus_reline]
  by_cases here : p.addr = b
  · subst here
    have sent : onBlock p.addr [.reply reply] = [.reply reply] := by
      simp [Request.block?, about, block]
    have first : (v.focus p.addr).probes k = p :: later.filter (·.addr == p.addr) := by
      simp [focus, oldest]
    rw [sent, moved]
    refine .inr (.snoop k p _ reply first txn held fun absent => ?_)
    rcases missed absent with none_carried | ⟨slot, data, member, carried⟩
    · exact .inl none_carried
    · refine .inr ⟨slot, p.addr.block, data, ?_, carried⟩
      exact List.mem_filter.mpr ⟨member, by simp [Request.block?, Address.block_block]⟩
  · have sent : onBlock b [.reply reply] = [] := by
      simp [Request.block?, about, aligned, here]
    have same : line b = (v.focus b).line k := others b (by rw [aligned, block]; exact Ne.symm here)
    have kept : later.filter (·.addr == b) = (v.focus b).probes k := by
      simp [focus, oldest, here]
    rw [sent, same, kept, List.append_nil, Function.update_eq_self, Function.update_eq_self,
      Function.update_eq_self]
    exact .inl rfl

theorem follows_take (orderly : Orderly lay v) (aligned : b.block = b) {k : Nat} {r : ProbeReply}
    {later : List Request} {t : Transaction} (head : v.queue k = .reply r :: later)
    (isOpen : t ∈ v.txns) (number : t.number = r.txn) :
    Follows lay tidy (v.focus b)
      (View.focus { v.rest k later with
        txns := v.txns.map fun u => if u.number = r.txn then t.take r else u } b) := by
  obtain ⟨_, block, named⟩ := orderly.replies k r (by rw [head]; exact List.mem_cons_self ..)
  have about := named t isOpen number
  have shape : View.focus { v.rest k later with
        txns := v.txns.map fun u => if u.number = r.txn then t.take r else u } b =
      { (v.rest k later).focus b with
        txn := ((v.focus b).txn).map fun u => if u.number = r.txn then t.take r else u } := by
    refine Focus.ext rfl rfl rfl rfl ?_ rfl rfl
    simp only [focus, List.find?_map]
    congr 1
    refine List.find?_congr fun u inside => ?_
    simp only [Function.comp_apply]
    split
    · rename_i same
      rw [txn_unique orderly.numbers inside isOpen (same.trans number.symm)]
      rfl
    · rfl
  rw [shape]
  by_cases here : r.addr = b
  · have shown : (v.focus b).txn = some t := txn_focus orderly.toSerial isOpen (about.symm.trans here)
    have first : (v.focus b).queue k = .reply r :: onBlock b later :=
      head_about head (by simp [Request.block?, aligned, here])
    rw [focus_rest, shown, Option.map_some, if_pos number]
    exact .inr (.take k r _ t first shown number)
  · have other : (v.rest k later).focus b = v.focus b := by
      apply focus_rest_other head
      simp [Request.block?, block, aligned, here]
    refine .inl ?_
    rw [other]
    refine Focus.ext rfl rfl rfl rfl ?_ rfl rfl
    cases shown : (v.focus b).txn with
    | none => rfl
    | some u =>
      obtain ⟨inside, addr⟩ := of_txn_focus shown
      have apart : u.number ≠ r.txn := by
        intro same
        have equal := txn_unique orderly.numbers inside isOpen (same.trans number.symm)
        rw [equal, ← about] at addr
        exact here addr
      simp [apart]

def Single (f : Focus) : Prop :=
  ∀ k slot i, (f.asks k slot).isSome → (f.asks k i).isSome → slot = i

theorem follows_begin (orderly : Orderly lay v) (aligned : b.block = b) (single : Single (v.focus b))
    {r : DeferredRead} {before after : List DeferredRead} (waits : v.deferred = before ++ r :: after)
    (free : ∀ t ∈ v.txns, t.addr ≠ r.addr.block) :
    Follows lay tidy (v.focus b) ((v.begun lay r (before ++ after)).focus b) := by
  have member : r.duty ∈ v.duties r.cpu := by
    refine List.mem_append_left _ (List.mem_append_right _ (List.mem_map_of_mem ?_))
    rw [waits]
    simp
  have shape : (v.begun lay r (before ++ after)).focus b =
      { v.focus b with
        txn := (v.focus b).txn.or (if r.addr.block = b then some (v.opened lay r) else none)
        probes := fun j =>
          if j ∈ lay.others r.cpu ∧ r.addr.block = b then
            (v.focus b).probes j ++ [.ofCommand v.next r.addr.block (lay.command r.kind)]
          else (v.focus b).probes j } := by
    refine Focus.ext rfl rfl rfl ?_ ?_ rfl rfl
    · funext j
      by_cases other : j ∈ lay.others r.cpu
      · by_cases about : r.addr.block = b
        · simp [focus, other, about, Probe.ofCommand]
        · simp [focus, other, about, Probe.ofCommand]
      · simp [focus, other]
    · by_cases about : r.addr.block = b
      · simp [focus, about, opened, List.find?_append]
      · simp [focus, about, opened, List.find?_append]
  rw [shape]
  by_cases about : r.addr.block = b
  · have closed : (v.focus b).txn = none := by
      simp only [focus, List.find?_eq_none, beq_iff_eq]
      rw [← about]
      exact free
    obtain ⟨slot, id, asked⟩ := asks_of_duty orderly aligned member (by rw [DeferredRead.duty, about])
    have moved (id' : RequestId) (a : Address) (kind : ReadKind) :
        .read id' a kind ∉ (v.focus b).queue r.cpu := by
      intro waiting
      obtain ⟨queued, block⟩ := List.mem_filter.mp waiting
      have owed : (⟨id', some (a.block, kind)⟩ : Duty) ∈ (v.queue r.cpu).filterMap Request.duty? :=
        List.mem_filterMap.mpr ⟨_, queued, rfl⟩
      have there : a.block = b := by simpa [Request.block?, aligned] using block
      obtain ⟨i, named, also⟩ := asks_of_duty orderly aligned
        (List.mem_append_left _ (List.mem_append_left _ owed)) (by rw [there])
      have same : slot = i := single r.cpu slot i (by rw [asked]; rfl) (by rw [also]; rfl)
      -- one slot would be owed two answers
      have agrees := orderly.agrees r.cpu
      rw [View.duties, CacheCoherence.duties, List.append_assoc] at agrees
      refine agrees.apart owed (List.mem_append_left _ (List.mem_map_of_mem ?_)) (named.trans ?_) id
      · rw [waits]
        simp
      · rw [same]
    rw [closed, Option.none_or, if_pos about]
    simp only [about, and_true]
    refine .inr ?_
    have opens : Focus.Step lay tidy (v.focus b) _ := .begin (v.opened lay r) slot b closed id asked moved rfl rfl
    exact opens
  · refine .inl ?_
    simp only [about, and_false, if_false, Option.or_none]

theorem txn_finished (serial : Serial lay v) {t : Transaction} (isOpen : t ∈ v.txns) :
    (v.txns.filter (·.number != t.number)).find? (·.addr == b) =
      if t.addr = b then none else (v.focus b).txn := by
  rw [List.find?_filter]
  split
  · rename_i about
    rw [List.find?_eq_none]
    intro u inside found
    simp only [decide_eq_true_eq, bne_iff_ne, beq_iff_eq] at found
    have same : u = t :=
      List.inj_on_of_nodup_map serial.blocks inside isOpen (found.2.trans about.symm)
    exact found.1 (congrArg Transaction.number same)
  · rename_i apart
    refine List.find?_congr fun u inside => ?_
    by_cases there : u.addr = b
    · have other : u.number ≠ t.number := by
        intro same
        rw [txn_unique serial.numbers inside isOpen same] at there
        exact apart there
      simp [there, other]
    · simp [there]

theorem filled_of_delivered {t : Transaction} {r : Reference} {line : Address → Holding}
    {sent : List Request} (orderly : Orderly lay v) (aligned : b.block = b) (about : t.addr = b)
    (block : r.addr.block = b) (reads : r.access.readKind = some t.kind) (even : Blockwise line)
    (delivered : Delivered r (v.fill t) (v.line t.origin) line sent) :
    (v.focus b).Filled t (line b) ∧ onBlock b sent = [] := by
  have before : v.line t.origin r.addr = (v.focus b).line t.origin :=
    orderly.even t.origin r.addr b (block.trans aligned.symm)
  have after : line r.addr = line b := even r.addr b (block.trans aligned.symm)
  have fill : v.fill t = (v.focus b).fill t := by
    rw [View.fill, Focus.fill, about]
    rfl
  have owns := Access.owns_of_readKind reads
  cases delivered with
  | refused absent same =>
    rw [before] at absent
    have gone : line b = .absent := (same b).trans absent
    rw [gone]
    exact ⟨.refused absent, rfl⟩
  | owned upgrade data copy lines =>
    rw [Access.readKind_upgrade upgrade] at reads
    rw [before] at copy
    have here : line b = ⟨some data, true, true⟩ := by rw [lines, if_pos (aligned.trans block.symm)]
    rw [here]
    exact ⟨.owned (Option.some.inj reads).symm data copy, rfl⟩
  | filled lost copy owned fresh _ sends quiet others =>
    rw [after, fill] at copy owned fresh
    rw [before] at lost fresh
    refine ⟨.filled (fun raise => lost ?_) (line b) copy (fun other => owned ?_) (fun share absent =>
      fresh ?_ absent), ?_⟩
    · rw [raise] at reads
      exact Access.upgrade_of_readKind reads
    · rw [owns]
      simpa using other
    · rw [owns, share]
      rfl
    · rw [onBlock, block] at quiet
      rwa [onBlock, aligned]

theorem follows_finish (orderly : Orderly lay v) (aligned : b.block = b) {t : Transaction}
    {slot : Slot} {r : Reference} {line : Address → Holding} {sent : List Request} (isOpen : t ∈ v.txns)
    (done : t.pending = 0) (id : t.id = .miss slot) (wanted : v.wants t.origin slot = some r)
    (even : Blockwise line) (delivered : Delivered r (v.fill t) (v.line t.origin) line sent)
    (idle : tidy → r.addr.block ≠ b → ∀ i, (v.focus b).asks t.origin i = none) :
    Follows lay tidy (v.focus b)
      (View.focus ((((({ v with txns := v.txns.filter (·.number != t.number) }.remember lay t.addr
        t.data).want t.origin slot none).reline t.origin line).send t.origin sent).zeroed t line) b) := by
  obtain ⟨i, q, named, present, block, reads⟩ := orderly.fits isOpen
  obtain rfl : slot = i := by simpa [id] using named
  obtain rfl : r = q := by simpa [wanted] using present
  have shape : { v with txns := v.txns.filter (·.number != t.number) }.focus b =
      { v.focus b with txn := if t.addr = b then none else (v.focus b).txn } :=
    Focus.ext rfl rfl rfl rfl (txn_finished orderly.toSerial isOpen) rfl rfl
  rw [focus_zeroed, focus_send, focus_reline, focus_want, focus_remember, shape]
  by_cases about : t.addr = b
  · have asked : (v.focus b).asks t.origin slot = some t.kind := by
      rw [asks_eq, wanted, Option.bind_some, Reference.asksFor, aligned, if_pos (block.trans about),
        reads]
    obtain ⟨filled, quiet⟩ :=
      filled_of_delivered orderly aligned about (block.trans about) reads even delivered
    have finishes : Focus.Step lay tidy (v.focus b) _ := .finish t slot (line b)
      (txn_focus orderly.toSerial isOpen about) done id asked filled
    refine .inr ?_
    have backed : lay.backed t.addr := orderly.backed t isOpen
    rw [about] at backed
    simp only [about, backed, aligned, quiet, List.append_nil, Function.update_eq_self, if_true,
      and_true, Option.bind_none]
    exact finishes
  · have apart : r.addr.block ≠ b := by rwa [block]
    have fate : Controller.Fate b ((v.focus b).line t.origin) (line b) sent := by
      cases delivered with
      | refused _ same => exact .kept (same b) rfl
      | owned _ data _ lines =>
        refine .kept ?_ rfl
        rw [lines, if_neg (by rw [aligned]; exact Ne.symm apart)]
        rfl
      | filled _ _ _ _ _ _ _ others => exact others b (by rw [aligned]; exact Ne.symm apart)
    have asks : (none : Option ReadKind) = (v.focus b).asks t.origin slot := by
      rw [asks_eq, wanted]
      exact (asksFor_other (by rwa [aligned])).symm
    have aligned' : t.addr.block = t.addr := orderly.aligned t isOpen
    simp only [about, aligned, aligned', Ne.symm about, and_false, if_false, Option.bind_none]
    rw [asks, Function.update_eq_self, Function.update_eq_self]
    exact Fate.follows fate fun neat _ => idle neat apart

theorem focus_answered_other {k : Nat} {slot : Slot} {r : Reference} {q : Request} {later : List Request}
    (head : v.queue k = q :: later) (other : q.block? ≠ some b.block)
    (wanted : v.wants k slot = some r) (silent : r.asksFor b = none) :
    ((v.rest k later).want k slot none).focus b = v.focus b := by
  have rested := focus_rest_other head other
  rw [← rested]
  refine focus_want_same ?_
  rw [rested, asks_eq, wanted]
  exact silent.symm

theorem focus_bypass (orderly : Orderly lay v) (backed : lay.backed b) {k : Nat} {slot : Slot}
    {a : Address} {kind : ReadKind} {later : List Request}
    (head : v.queue k = .read (.miss slot) a kind :: later) (unbacked : lay.backed a = false) :
    ((v.rest k later).want k slot none).focus b = v.focus b := by
  obtain ⟨i, r, named, wanted, fits⟩ := (orderly.agrees k).fits ⟨.miss slot, some (a.block, kind)⟩
    (by simp [View.duties, CacheCoherence.duties, head, Request.duty?])
  cases named
  have apart : a.block ≠ b.block := by
    intro same
    rw [lay.even a b same, backed] at unbacked
    cases unbacked
  exact focus_answered_other head (by simpa [Request.block?] using apart) wanted
    (asksFor_other (by rwa [fits.1]))

theorem focus_release (orderly : Orderly lay v) {k : Nat} {slot : Slot} {later : List Request}
    (head : v.queue k = .barrier (.miss slot) :: later) :
    ((v.rest k later).want k slot none).focus b = v.focus b := by
  obtain ⟨i, r, named, wanted, fits⟩ := (orderly.agrees k).fits ⟨.miss slot, none⟩
    (by simp [View.duties, CacheCoherence.duties, head, Request.duty?])
  cases named
  have barrier : r.access = .barrier := fits
  exact focus_answered_other head (by simp [Request.block?]) wanted
    (by simp [Reference.asksFor, barrier, Access.readKind])

theorem follows_settle (aligned : b.block = b) (backed : lay.backed b) {k : Nat} {slot : Slot}
    {a : Address} {data : Block} {later : List Request} (head : v.queue k = .victim slot a data :: later) :
    Follows lay tidy (v.focus b) (((v.rest k later).remember lay a (some data)).focus b) := by
  rw [focus_remember, focus_rest]
  by_cases about : a.block = b
  · have kept : lay.backed a := by rwa [lay.even a b (about.trans aligned.symm)]
    have shows := head_about (b := b) head (by simp [Request.block?, about, aligned])
    refine .inr ?_
    simp only [kept, about, aligned, and_self, if_true, Option.getD_some]
    exact .settle k slot a data _ shows
  · refine .inl ?_
    have other : (v.rest k later).focus b = v.focus b :=
      focus_rest_other head (by simp [Request.block?, about, aligned])
    rw [focus_rest] at other
    simp only [aligned, Ne.symm about, and_false, if_false]
    exact other

theorem follows_drop (orderly : Orderly lay v) (aligned : b.block = b) {k : Nat} {r : ProbeReply}
    {later : List Request} (head : v.queue k = .reply r :: later)
    (closed : ∀ t ∈ v.txns, t.number ≠ r.txn) :
    Follows lay tidy (v.focus b) ((v.rest k later).focus b) := by
  obtain ⟨_, block, _⟩ := orderly.replies k r (by rw [head]; exact List.mem_cons_self ..)
  by_cases about : r.addr = b
  · have shows := head_about (b := b) head (by simp [Request.block?, aligned, about])
    rw [focus_rest]
    refine .inr (.drop k r _ shows fun t shown => closed t (of_txn_focus shown).1)
  · refine .inl (focus_rest_other head ?_)
    simp [Request.block?, block, aligned, about]

theorem Step.follows (orderly : Orderly lay v) (aligned : b.block = b) (backed : lay.backed b)
    (single : Single (v.focus b))
    (idle : tidy → ∀ k slot r, v.wants k slot = some r → r.addr.block ≠ b →
      ∀ i, (v.focus b).asks k i = none)
    (step : View.Step lay v w) : Follows lay tidy (v.focus b) (w.focus b) := by
  cases step with
  | snoop k p later reply line even oldest txn addr others moved held missed =>
    exact follows_snoop orderly aligned oldest txn addr others moved held missed
  | defer k id a kind later head kept =>
    by_cases about : a.block = b
    · have shows := head_about (b := b) head (by simp [Request.block?, about, aligned])
      change Follows lay tidy (v.focus b) ((v.rest k later).focus b)
      rw [focus_rest]
      exact .inr (.defer k id a kind _ shows)
    · refine .inl ?_
      exact focus_rest_other head (by simp [Request.block?, about, aligned])
  | bypass k slot a kind later head unbacked =>
    exact .inl (focus_bypass orderly backed head unbacked)
  | release k slot later head => exact .inl (focus_release orderly head)
  | settle k slot a data later head => exact follows_settle aligned backed head
  | drop k r later head closed => exact follows_drop orderly aligned head closed
  | take k r later t head isOpen number => exact follows_take orderly aligned head isOpen number
  | begin r before after waits free => exact follows_begin orderly aligned single waits free
  | finish t slot r line sent isOpen done id wanted even delivered =>
    exact follows_finish orderly aligned isOpen done id wanted even delivered
      fun neat apart => idle neat t.origin slot r wanted apart
  | turn => exact .inl rfl

end View
end CacheCoherence
