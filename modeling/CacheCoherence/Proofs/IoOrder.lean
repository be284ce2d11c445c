import CacheCoherence.Proofs.Circulation
import CacheCoherence.Proofs.IoStreams
import CacheCoherence.Proofs.Obligations

/-! What a block of the I/O space holds after a memory barrier. Stores of one width gather in one entry
of the write buffer, entries go out in slot order, and a later store may join an entry before that of
an earlier one. So the last store that covers a byte is seen there unless, when it was made, an open
entry in a higher slot held the byte already. -/

namespace CacheCoherence

/-- Which bytes of a store to a slot stay hidden. -/
abbrev Hiding := WriteBuffer → Slot → Address → Nat → Bool

def Operation.storesTo (b : Address) : Operation → Bool
  | .storeIo s => s.addr.block == b.block
  | .issue _ | .consume _ | .store .. | .flush | .retire .. => false

/-- A store has an end: address and length have a sum. -/
def Operation.Bounded : Operation → Prop
  | .storeIo s => s.Bounded
  | .issue _ | .consume _ | .store .. | .flush | .retire .. => True

instance Operation.Bounded.decidable : (op : Operation) → Decidable op.Bounded
  | .storeIo s => inferInstanceAs (Decidable s.Bounded)
  | .issue _ | .consume _ | .store .. | .flush | .retire .. => isTrue trivial

/-- The block of `b` as a call of the pipeline leaves it. A store that is refused changes nothing. -/
def Controller.seen (hidden : Hiding) (b : Address) (c : Controller) (op : Operation) (image : Block) :
    Block :=
  match op with
  | .storeIo s =>
    match (c.storeIo s).1 with
    | .ok p => s.over b (hidden c.writes p.slot b) image
    | .error _ => image
  | .issue _ | .consume _ | .store .. | .flush | .retire .. => image

namespace Fabric

def seen (hidden : Hiding) (k : Nat) (b : Address) (f : Fabric) (call : Call) (image : Block) : Block :=
  match call with
  | .operate cpu op =>
    if cpu = k then ((f.controller? k).map fun c => c.seen hidden b op image).getD image else image
  | .service _ | .poll => image

/-- The block of `b` as the stores of CPU `k` in a run leave it, in the order they are made. -/
def images (hidden : Hiding) (k : Nat) (b : Address) : Fabric → Block → List Call → Block
  | _, image, [] => image
  | f, image, call :: rest => images hidden k b (f.call call) (f.seen hidden k b call image) rest

/-- No store to the block of `b` is under way, nor would one be after a flush. -/
def quietAt (f : Fabric) (b : Address) : Bool :=
  f.nodes.all fun n => (n.controller.outbound ++ n.controller.writes.unsent).all (!·.writesTo b)

def issues (f : Fabric) (k : Nat) (r : Reference) (slot : Slot) : Bool :=
  (f.controller? k).any fun c => (c.allocateMiss r).1.toOption == some slot

/-- The hub has taken the message of the barrier in `slot` of CPU `k`, and with that answered it. -/
def Answers (f : Fabric) (k : Nat) (slot : Slot) : Prop :=
  Request.barrier (.miss slot) ∉ f.outgoing k

instance (f : Fabric) (k : Nat) (slot : Slot) : Decidable (f.Answers k slot) :=
  inferInstanceAs (Decidable (¬ _))

/-- The block of `b` in the I/O space, zero until it is first written. -/
def ioImage (f : Fabric) (b : Address) : Block := (f.hub.ioBlock b).getD .zero

end Fabric

/-- CPU `k` joins no answer late. -/
abbrev Timely (k : Nat) : Discipline := fun f cpu op => cpu = k → f.joinsLate cpu op = false

/-- Only CPU `k` stores in the block of `b`, and each of these stores has an end. -/
abbrev Sole (k : Nat) (b : Address) : Discipline := fun _ cpu op =>
  op.storesTo b → cpu = k ∧ op.Bounded

abbrev Still (b : Address) : Discipline := fun _ _ op => op.storesTo b = false

theorem Controller.storeIo_fst (c : Controller) (s : IoStore) :
    (c.storeIo s).1 = (c.writes.allocate s).1 := by
  unfold storeIo
  split
  · rename_i shape
    rw [shape]
    rfl
  · rename_i shape
    rw [shape]

theorem Controller.laid_storeIo {c : Controller} {s : IoStore} {b : Address}
    (spanned : c.writes.Spanned (·.OpenAt b)) (bounded : s.addr.block = b.block → s.Bounded)
    (image : Block) :
    laid b (c.writes.allocate s).2.unsent image =
      c.seen WriteBuffer.hides b (.storeIo s) (laid b c.writes.unsent image) := by
  simp only [Controller.seen, Controller.storeIo_fst]
  cases outcome : c.writes.allocate s with
  | mk result after =>
    cases result with
    | ok p => exact WriteBuffer.laid_allocate outcome spanned bounded image
    | error fault => rw [WriteBuffer.allocate_error outcome]

/-- A barrier that is accepted goes out behind everything that was open. -/
theorem Controller.barrier_sends {c : Controller} {r : Reference} (barrier : r.access = .barrier)
    {slot : Slot} (issued : (c.allocateMiss r).1.toOption = some slot) :
    (c.perform (.issue r)).outbound =
        c.outbound ++ (c.writes.unsent ++ [.barrier (.miss slot)]) ∧
      (c.perform (.issue r)).writes.unsent = [] := by
  have accepted {d : Controller} {p : Slot} (shape : c.barrier r = (.ok p, d)) :
      d.outbound = c.outbound ++ (c.writes.unsent ++ [.barrier (.miss p)]) ∧
        d.writes.unsent = [] := by
    cases outcome : c.misses.allocate r with
    | mk result misses =>
      cases result with
      | error fault => simp [Controller.barrier, outcome] at shape
      | ok placed =>
        have whole : c.barrier r = (.ok placed.slot,
            (flush { c with misses, counters := countAllocation c.counters }).2.send
              (.barrier (.miss placed.slot))) := by
          simp only [Controller.barrier, outcome]
        rw [whole, flush_eq] at shape
        cases shape
        exact ⟨List.append_assoc .., WriteBuffer.unsent_issue _⟩
  have dispatched (s : LineState) : c.dispatch r s = c.barrier r := by
    simp only [dispatch, barrier]
  have issue : c.issue r = c.barrier r ∨ ∃ fault, c.issue r = (.error fault, c) := by
    unfold Controller.issue
    split
    · exact .inr ⟨_, rfl⟩
    · split
      · simp only [barrier, Access.allowsIo, if_true]
        exact .inl (dispatched _)
      · exact .inl (dispatched _)
  rw [perform]
  unfold allocateMiss at issued ⊢
  rcases issue with same | ⟨fault, refused⟩
  · cases shape : c.barrier r with
    | mk outcome d =>
      rw [same, shape] at issued ⊢
      cases outcome with
      | ok p =>
        obtain rfl : p = slot := Option.some.inj issued
        exact accepted shape
      | error fault => cases issued
  · rw [refused] at issued
    cases issued

namespace Traffic

variable {lay : Layout} {f : Fabric} {k : Nat} {b : Address} {image : Block} {cpu : Nat}
  {op : Operation} {w : Traffic}

inductive Operated (f : Fabric) (cpu : Nat) : Operation → Traffic → Prop
  | absent (op : Operation) (missing : f.controller? cpu = none) :
      Operated f cpu op (Pass.traffic { fabric := f })
  | plain (op : Operation) (c : Controller) (d : Desk) (sent : List Request)
      (present : f.controller? cpu = some c) (other : ∀ s, op ≠ .storeIo s)
      (mails : sent.filter Request.isWrite ++ d.writes.unsent = c.writes.unsent)
      (entries : c.writes.Advances d.writes)
      (asks : f.joinsLate cpu op = false → ∀ i,
        (d.waits i).toNat = (c.desk.waits i).toNat + sent.countP (·.asks i)) :
      Operated f cpu op ((Pass.traffic { fabric := f }).work cpu d sent)
  | stores (s : IoStore) (c : Controller) (d : Desk) (present : f.controller? cpu = some c)
      (writes : d.writes = (c.writes.allocate s).2) (asks : ∀ i, d.waits i = c.desk.waits i) :
      Operated f cpu (.storeIo s) ((Pass.traffic { fabric := f }).work cpu d [])

theorem traffic_operate {n : Node} (present : f.nodes[cpu]? = some n) {sent : List Request}
    (outbound : (n.controller.perform op).outbound = n.controller.outbound ++ sent) :
    Pass.traffic { fabric := f.operate cpu op } =
      (Pass.traffic { fabric := f }).work cpu (n.controller.perform op).desk sent := by
  have seated := Pass.traffic_seat (s := { fabric := f })
    (m := { n with controller := n.controller.perform op }) present outbound rfl
  rcases Pass.operate_eq (s := { fabric := f }) present op with plain | rung
  · rw [show f.operate cpu op = _ from plain]
    exact seated
  · rw [show f.operate cpu op = _ from rung]
    exact seated

theorem operated (good : ∀ k c, f.controller? k = some c → c.Good) (cpu : Nat) (op : Operation) :
    Operated f cpu op (Pass.traffic { fabric := f.operate cpu op }) := by
  cases present : f.nodes[cpu]? with
  | none =>
    rw [Pass.operate_none (s := { fabric := f }) present]
    exact .absent op (by rw [Fabric.controller?, present]; rfl)
  | some n =>
    have there : f.controller? cpu = some n.controller :=
      Pass.controller?_eq (s := { fabric := f }) present
    obtain ⟨sent, outbound, _, asks⟩ := (good cpu _ there).poses op
    have timely (punctual : f.joinsLate cpu op = false) : n.controller.joinsLate op = false := by
      simpa [Fabric.joinsLate, there] using punctual
    rw [traffic_operate present outbound]
    by_cases stored : ∃ s, op = .storeIo s
    · obtain ⟨s, rfl⟩ := stored
      obtain ⟨desk, silent⟩ := n.controller.storeIo_desk s
      obtain rfl : sent = [] :=
        List.append_cancel_left (outbound.symm.trans (silent.trans (List.append_nil _).symm))
      have shape : (n.controller.perform (.storeIo s)).desk =
          { n.controller.desk with writes := (n.controller.writes.allocate s).2 } := desk
      refine .stores s _ _ there ?_ fun i => ?_
      · rw [shape]
      · rw [shape]
        rfl
    · have other (s : IoStore) : op ≠ .storeIo s := fun same => stored ⟨s, same⟩
      obtain ⟨also, mails⟩ := Controller.mailed_perform n.controller other
      obtain rfl : sent = also := List.append_cancel_left (outbound.symm.trans mails.outbound)
      exact .plain op _ _ sent there other mails.unsent mails.entries
        fun punctual => asks (timely punctual)

theorem stream_work (v : Traffic) (k : Nat) (d : Desk) (sent : List Request)
    (mails : sent.filter Request.isWrite ++ d.writes.unsent = (v.desk k).writes.unsent) (j : Nat) :
    (v.work k d sent).stream j = v.stream j := by
  rw [stream, stream, queue_work, desk_work]
  split
  · rename_i here
    rw [List.filter_append, List.append_assoc, mails, here]
  · rfl

theorem stream_stores (v : Traffic) (cpu j : Nat) (d : Desk) :
    (v.work cpu d []).stream j =
      if j = cpu then (v.queue cpu).filter Request.isWrite ++ d.writes.unsent else v.stream j := by
  rw [stream, queue_work, desk_work]
  split
  · rename_i here
    rw [List.append_nil, here]
  · rfl

theorem desk_present {c : Controller} (present : f.controller? cpu = some c) :
    (Pass.traffic { fabric := f }).desk cpu = c.desk := by
  simp [Pass.traffic, present]

/-- A call asks the hub for what then waits, unless it joins an answer late. -/
theorem Operated.matched (operated : Operated f cpu op w) (timely : Timely k f cpu op)
    (matched : ∀ i, (((Pass.traffic { fabric := f }).desk k).waits i).toNat =
      (Pass.traffic { fabric := f }).owes k i) (i : Slot) :
    ((w.desk k).waits i).toNat = w.owes k i := by
  have before := matched i
  cases operated with
  | absent => exact before
  | plain op c d sent present other mails entries asks =>
    rw [owes_work, desk_work]
    by_cases here : k = cpu
    · subst here
      rw [if_pos rfl, if_pos rfl, asks (timely rfl), ← before, desk_present present]
    · rw [if_neg here, if_neg here]
      exact before
  | stores s c d present writes asks =>
    rw [owes_work, desk_work]
    by_cases here : k = cpu
    · subst here
      rw [if_pos rfl, if_pos rfl, asks, ← before, desk_present present]
      rfl
    · rw [if_neg here, if_neg here]
      exact before

theorem mem_stream_of_unsent {c : Controller} (present : f.controller? cpu = some c) {q : Request}
    (unsent : q ∈ c.writes.unsent) : q ∈ (Pass.traffic { fabric := f }).stream cpu := by
  refine List.mem_append_right _ ?_
  rw [desk_present present]
  exact unsent

/-- A write that a call adds to a stream is in the write buffer after a store. -/
theorem Operated.mem (operated : Operated f cpu op w) {j : Nat} {q : Request}
    (member : q ∈ w.stream j) :
    q ∈ (Pass.traffic { fabric := f }).stream j ∨ j = cpu ∧ ∃ s c,
      op = .storeIo s ∧ f.controller? cpu = some c ∧ q ∈ (c.writes.allocate s).2.unsent := by
  cases operated with
  | absent => exact .inl member
  | plain op c d sent present other mails =>
    rw [stream_work _ _ _ _ (by rw [desk_present present]; exact mails)] at member
    exact .inl member
  | stores s c d present writes asks =>
    rw [stream_stores] at member
    split at member
    · rename_i here
      subst here
      rcases List.mem_append.mp member with queued | unsent
      · exact .inl (List.mem_append_left _ queued)
      · rw [writes] at unsent
        exact .inr ⟨rfl, s, c, rfl, present, unsent⟩
    · exact .inl member

theorem Paced.operated (paced : (Pass.traffic { fabric := f }).Paced lay k)
    (operated : Operated f cpu op w) (sound : w.Sound lay) (timely : Timely k f cpu op) :
    w.Paced lay k :=
  ⟨sound, operated.matched timely paced.matched⟩

/-- Whatever is called, the entries of CPU `k` stay as they are, or it makes a store. -/
theorem Operated.entries (operated : Operated f cpu op w) :
    ((Pass.traffic { fabric := f }).desk k).writes.Advances (w.desk k).writes ∨ cpu = k ∧ ∃ s,
      op = .storeIo s ∧
      (w.desk k).writes = (((Pass.traffic { fabric := f }).desk k).writes.allocate s).2 := by
  cases operated with
  | absent => exact .inl (.refl _)
  | plain op c d sent present other mails entries =>
    refine .inl ?_
    rw [desk_work]
    split
    · rename_i here
      rw [here, desk_present present]
      exact entries
    · exact .refl _
  | stores s c d present writes asks =>
    rw [desk_work]
    split
    · rename_i here
      refine .inr ⟨here.symm, s, rfl, ?_⟩
      rw [writes, here, desk_present present]
      rfl
    · exact .inl (.refl _)

theorem Operated.silent (operated : Operated f cpu op w) (still : op.storesTo b = false) {j : Nat}
    (silent : ∀ q ∈ (Pass.traffic { fabric := f }).stream j, q.writesTo b = false) :
    ∀ q ∈ w.stream j, q.writesTo b = false := by
  intro q member
  rcases operated.mem member with old | ⟨rfl, s, c, rfl, present, unsent⟩
  · exact silent q old
  · have apart : s.addr.block ≠ b.block := by simpa [Operation.storesTo] using still
    refine WriteBuffer.silent_allocate s apart (fun r before => ?_) q unsent
    exact silent r (mem_stream_of_unsent present before)

theorem Promised.operated (promised : (Pass.traffic { fabric := f }).Promised lay k b image)
    (operated : Operated f cpu op w) (sound : w.Sound lay) (sole : Sole k b f cpu op) :
    w.Promised lay k b (f.seen WriteBuffer.hides k b (.operate cpu op) image) := by
  have bounded {s : IoStore} (same : op = .storeIo s) (block : s.addr.block = b.block) : s.Bounded := by
    subst same
    exact (sole (by simpa [Operation.storesTo] using block)).2
  refine ⟨sound, ?_, fun j apart => ?_, ?_⟩
  · rcases operated.entries with advances | ⟨_, s, same, writes⟩
    · exact promised.spanned.advance_open advances
    · rw [writes]
      exact promised.spanned.store (bounded same)
  · by_cases here : cpu = k
    · intro q member
      rcases operated.mem member with old | ⟨rfl, _⟩
      · exact promised.others j apart q old
      · exact absurd here apart
    · refine operated.silent ?_ (promised.others j apart)
      exact Bool.eq_false_iff.mpr fun stores => here (sole stores).1
  have kept {image' : Block} (same : image' = image)
      (stream : laid b (w.stream k) ((w.io b).getD .zero) =
        laid b ((Pass.traffic { fabric := f }).stream k)
          (((Pass.traffic { fabric := f }).io b).getD .zero)) :
      laid b (w.stream k) ((w.io b).getD .zero) = image' := by
    rw [stream, same, promised.promised]
  cases operated with
  | absent op missing =>
    refine kept ?_ rfl
    simp only [Fabric.seen]
    split
    · rename_i here
      rw [← here, missing]
      rfl
    · rfl
  | plain op c d sent present other mails =>
    refine kept ?_ ?_
    · simp only [Fabric.seen]
      split
      · rename_i here
        rw [← here, present, Option.map_some, Option.getD_some]
        cases op with
        | storeIo s => exact absurd rfl (other s)
        | issue | consume | store | flush | retire => rfl
      · rfl
    · rw [stream_work _ _ _ _ (by rw [desk_present present]; exact mails)]
      rfl
  | stores s c d present writes asks =>
    by_cases here : cpu = k
    · subst here
      have spanned := promised.spanned
      rw [desk_present present] at spanned
      have before := promised.promised
      rw [stream, desk_present present, laid_append] at before
      simp only [Fabric.seen, if_true, present, Option.map_some, Option.getD_some]
      rw [stream_stores, if_pos rfl, laid_append, writes, ← before]
      exact Controller.laid_storeIo spanned (bounded rfl) _
    · refine kept ?_ ?_
      · simp only [Fabric.seen, if_neg here]
      · rw [stream_stores, if_neg (Ne.symm here)]
        rfl

/-- A call that does not store in the block leaves it as it was promised. -/
theorem seen_still (hidden : Hiding) (f : Fabric) (k : Nat) (still : op.storesTo b = false)
    (image : Block) : f.seen hidden k b (.operate cpu op) image = image := by
  simp only [Fabric.seen]
  split
  · cases f.controller? k with
    | none => rfl
    | some c =>
      rw [Option.map_some, Option.getD_some]
      cases op with
      | storeIo s =>
        have apart : s.addr.block ≠ b.block := by simpa [Operation.storesTo] using still
        simp only [Controller.seen]
        split
        · exact if_neg apart
        · rfl
      | issue | consume | store | flush | retire => rfl
  · rfl

theorem Promised.still (promised : (Pass.traffic { fabric := f }).Promised lay k b image)
    (operated : Operated f cpu op w) (sound : w.Sound lay) (still : op.storesTo b = false) :
    w.Promised lay k b image := by
  have after := promised.operated operated sound fun stores => absurd stores (by simp [still])
  rwa [seen_still WriteBuffer.hides f k still] at after

theorem Behind.operated {i : Slot} (behind : (Pass.traffic { fabric := f }).Behind lay k b image i)
    (operated : Operated f cpu op w) (sound : w.Sound lay) (still : op.storesTo b = false) :
    w.Behind lay k b image i := by
  refine ⟨behind.toPromised.still operated sound still, ?_, ?_⟩
  · cases operated with
    | absent => exact behind.fenced
    | plain op c d sent present other mails =>
      rw [queue_work]
      split
      · rename_i here
        subst here
        refine behind.fenced.append fun q member => ?_
        cases write : q.isWrite with
        | false => exact writesTo_of_not_isWrite write b
        | true =>
          refine behind.closed q ?_
          rw [desk_present present]
          change q ∈ c.writes.unsent
          rw [← mails]
          exact List.mem_append_left _ (List.mem_filter.mpr ⟨member, write⟩)
      · exact behind.fenced
    | stores s c d present writes asks =>
      rw [queue_work, List.append_nil, ite_self]
      exact behind.fenced
  · cases operated with
    | absent => exact behind.closed
    | plain op c d sent present other mails =>
      rw [desk_work]
      split
      · rename_i here
        subst here
        intro q unsent
        refine behind.closed q ?_
        rw [desk_present present]
        change q ∈ c.writes.unsent
        rw [← mails]
        exact List.mem_append_right _ unsent
      · exact behind.closed
    | stores s c d present writes asks =>
      rw [desk_work]
      split
      · rename_i here
        subst here
        have closed := behind.closed
        rw [desk_present present] at closed
        have apart : s.addr.block ≠ b.block := by simpa [Operation.storesTo] using still
        rw [writes]
        exact WriteBuffer.silent_allocate s apart closed
      · exact behind.closed

theorem Landed.operated (landed : (Pass.traffic { fabric := f }).Landed lay k b image)
    (operated : Operated f cpu op w) (sound : w.Sound lay) (still : op.storesTo b = false) :
    w.Landed lay k b image :=
  ⟨landed.toPromised.still operated sound still, operated.silent still landed.silent⟩

theorem Sound.promised (sound : (Pass.traffic { fabric := f }).Sound lay) (k : Nat)
    (quiet : f.quietAt b) : (Pass.traffic { fabric := f }).Promised lay k b (f.ioImage b) := by
  have silent (j : Nat) : ∀ q ∈ (Pass.traffic { fabric := f }).stream j, q.writesTo b = false := by
    intro q member
    cases present : f.nodes[j]? with
    | none =>
      have absent : f.controller? j = none := by rw [Fabric.controller?, present]; rfl
      simp [stream, Pass.traffic, Pass.queue, absent, Desk.empty, WriteBuffer.unsent,
        WriteBuffer.empty, WriteBuffer.get?] at member
    | some n =>
      have there : f.controller? j = some n.controller :=
        Pass.controller?_eq (s := { fabric := f }) present
      have none_writes := List.all_eq_true.mp quiet n (List.mem_of_getElem? present)
      have listed : q ∈ n.controller.outbound ++ n.controller.writes.unsent := by
        rw [stream, desk_present there] at member
        rcases List.mem_append.mp member with queued | unsent
        · refine List.mem_append_left _ ?_
          simpa [Pass.traffic, Pass.queue, there] using (List.mem_filter.mp queued).1
        · exact List.mem_append_right _ unsent
      simpa using List.all_eq_true.mp none_writes q listed
  refine ⟨sound, fun slot w present counts => ?_, fun j _ => silent j, ?_⟩
  · have written : w.request slot ∈ (Pass.traffic { fabric := f }).stream k :=
      List.mem_append_right _ (WriteBuffer.mem_unsent.mpr ⟨w, slot, present, counts.1, rfl⟩)
    have other := silent k _ written
    simp [IoWrite.request, Request.writesTo, counts.2] at other
  · rw [laid_of_silent (silent k)]
    rfl

end Traffic

theorem Traffic.Promised.behind {lay : Layout} {f : Fabric} {k : Nat} {b : Address} {image : Block}
    (promised : (Pass.traffic { fabric := f }).Promised lay k b image)
    (sound : Pass.Sound lay { fabric := f }) {r : Reference} {slot : Slot}
    (barrier : r.access = .barrier) (issued : f.issues k r slot) :
    (Pass.traffic { fabric := f.operate k (.issue r) }).Behind lay k b image slot := by
  obtain ⟨c, there, accepted⟩ := (Option.any_eq_true _ _).mp issued
  obtain ⟨n, present, rfl⟩ := Option.map_eq_some_iff.mp there
  obtain ⟨outbound, closed⟩ :=
    n.controller.barrier_sends barrier (beq_iff_eq.mp accepted)
  have after := sound.command (.call (.operate k (.issue r)))
  have moved := Traffic.traffic_operate (f := f) present outbound
  refine ⟨promised.still (Traffic.operated sound.steady.good k _) after.traffic rfl, ?_, ?_⟩
  · rw [moved, Traffic.queue_work, if_pos rfl, ← List.append_assoc]
    exact fenced_barrier _
  · rw [moved, Traffic.desk_work, if_pos rfl]
    simp only [Controller.desk, closed]
    simp

namespace Pass.Sound

variable {lay : Layout} {f : Fabric} {s t : Pass} {P Q : Traffic → Prop}

theorem keeps (sound : Sound lay s) (holds : P s.traffic)
    (stepped : ∀ v w, P v → Traffic.Step lay v w → P w) (works : s.Works t) : P t.traffic := by
  have path {v w : Traffic} (before : P v) (path : Relation.ReflTransGen (Traffic.Step lay) v w) :
      P w := by
    induction path with
    | refl => exact before
    | tail _ step ih => exact stepped _ _ ih step
  have both : Sound lay t ∧ P t.traffic := by
    induction works with
    | refl => exact ⟨sound, holds⟩
    | tail _ step ih =>
      exact ⟨ih.1.machine step, path ih.2 (ih.1.steady.flows ih.1.traffic.lawful step).path⟩
  exact both.2

theorem called (sound : Sound lay { fabric := f }) (holds : P (Pass.traffic { fabric := f }))
    (stepped : ∀ v w, P v → Traffic.Step lay v w → P w) (c : Call)
    (aside : (∀ cpu op, c ≠ .operate cpu op) → ∀ w, P w → Q w)
    (operated : ∀ cpu op w, c = .operate cpu op → Traffic.Operated f cpu op w → w.Sound lay → Q w) :
    Q (Pass.traffic { fabric := f.call c }) := by
  cases c with
  | operate cpu op =>
    exact operated cpu op _ rfl (Traffic.operated sound.steady.good cpu op)
      (sound.command (.call (.operate cpu op))).traffic
  | service cpu =>
    refine aside ?_ _ (sound.keeps holds stepped (f.works_service cpu))
    rintro k op ⟨⟩
  | poll =>
    refine aside ?_ _ (sound.keeps holds stepped f.works_poll)
    rintro k op ⟨⟩

theorem run {d : Discipline} (stepped : ∀ v w, P v → Traffic.Step lay v w → P w)
    (operated : ∀ f cpu op w, P (Pass.traffic { fabric := f }) → d f cpu op →
      Traffic.Operated f cpu op w → w.Sound lay → P w)
    (sound : Sound lay { fabric := f }) (holds : P (Pass.traffic { fabric := f })) (calls : List Call)
    (obeys : Obeys d f calls) :
    Sound lay { fabric := f.run calls } ∧ P (Pass.traffic { fabric := f.run calls }) := by
  induction calls generalizing f with
  | nil => exact ⟨sound, holds⟩
  | cons c rest ih =>
    refine ih (sound.command (.call c)) ?_ obeys.2
    exact sound.called holds stepped c (fun _ _ same => same) fun cpu op w same =>
      operated f cpu op w holds (obeys.1 cpu op same)

theorem promised {k : Nat} {b : Address} {image : Block} (sound : Sound lay { fabric := f })
    (promised : (Pass.traffic { fabric := f }).Promised lay k b image) (calls : List Call)
    (sole : Obeys (Sole k b) f calls) :
    Sound lay { fabric := f.run calls } ∧ (Pass.traffic { fabric := f.run calls }).Promised lay k b
      (f.images WriteBuffer.hides k b image calls) := by
  induction calls generalizing f image with
  | nil => exact ⟨sound, promised⟩
  | cons c rest ih =>
    refine ih (sound.command (.call c)) ?_ sole.2
    refine sound.called promised (fun _ _ => Traffic.Promised.step) c ?_ ?_
    · intro other w same
      cases c with
      | operate cpu op => exact absurd rfl (other cpu op)
      | service | poll => exact same
    · rintro cpu op w rfl moved after
      exact promised.operated moved after (sole.1 cpu op rfl)

end Pass.Sound

theorem Traffic.Blank.paced {lay : Layout} {v : Traffic} (blank : v.Blank lay) (k : Nat) :
    v.Paced lay k := by
  refine ⟨blank.sound, fun i => ?_⟩
  simp [blank.waits, Traffic.owes, blank.queue, blank.deferred, blank.txns]

theorem Obeys.drop {d : Discipline} {calls : List Call} {f : Fabric} (obeys : Obeys d f calls)
    (n : Nat) : Obeys d (f.run (calls.take n)) (calls.drop n) := by
  induction calls generalizing f n with
  | nil =>
    rw [List.drop_nil]
    trivial
  | cons c rest ih =>
    cases n with
    | zero => exact obeys
    | succ n => exact ih obeys.2 n

theorem Fabric.run_append (f : Fabric) (first rest : List Call) :
    f.run (first ++ rest) = (f.run first).run rest := List.foldl_append

end CacheCoherence
