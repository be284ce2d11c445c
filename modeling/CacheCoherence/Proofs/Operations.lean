import CacheCoherence.Proofs.References

namespace CacheCoherence

inductive Operation
  | issue (r : Reference)
  | consume (slot : Slot)
  | store (a : Address) (bytes : List UInt8)
  | storeIo (s : IoStore)
  | flush
  | retire (a : Address) (data : Block)
  deriving DecidableEq

def Operation.retires : Operation → Bool
  | .retire .. => true
  | .issue _ | .consume _ | .store .. | .storeIo _ | .flush => false

namespace Controller

def perform (c : Controller) : Operation → Controller
  | .issue r => (c.allocateMiss r).2
  | .consume slot => (c.consume slot).2
  | .store a bytes => (c.store a bytes).2
  | .storeIo s => (c.storeIo s).2
  | .flush => c.flush.2
  | .retire a data => (c.retireVictim a data).2

def stores (c : Controller) : Operation → Option (Address × List UInt8)
  | .store a bytes =>
    match (c.store a bytes).1 with
    | .ok () => some (a, bytes)
    | .error _ => none
  | _ => none

inductive Performed (c : Controller) : Operation → Controller → List Request → Prop
  | quiet (op : Operation) (d : Controller) (quiet : Quiet c d) (idle : c.stores op = none) :
      Performed c op d []
  | issued (r : Reference) (result : Except Fault Slot) (d : Controller) (sent : List Request)
      (issued : Issued c r result d sent) : Performed c (.issue r) d sent
  | stored (a : Address) (bytes : List UInt8) (d : Controller) (good : d.Good)
      (accepted : c.stores (.store a bytes) = some (a, bytes)) (sole : (c.line a).sole)
      (wanted : ∀ slot, d.wanted slot = c.wanted slot)
      (lines : ∀ b, d.line b =
        if b.block = a.block then
          { c.line a with copy := (c.line a).copy.map (·.write a.offset bytes) }
        else c.line b)
      (carried : ∀ i v, d.victims.get? i = some v → v.draining → v.destination ≠ .probe →
        c.victims.get? i = some v) : Performed c (.store a bytes) d []
  | flushed (d : Controller) (held : Held c d) (wanted : ∀ slot, d.wanted slot = c.wanted slot)
      (writes : List Request)
      (only : ∀ w ∈ writes, ∃ slot a data mask written, w = .ioWrite (.ioWrite slot) a data mask written) :
      Performed c .flush d writes
  | retired (a : Address) (data : Block) (d : Controller) (good : d.Good)
      (wanted : ∀ slot, d.wanted slot = c.wanted slot)
      (copies : ∀ b, (d.line b).copy.isSome = (c.line b).copy.isSome) (sent : List Request)
      (sends : ∀ q ∈ sent, ∃ (v : Victim) (slot : Slot), q = v.request slot)
      (carried : ∀ i v, d.victims.get? i = some v → v.draining → v.destination ≠ .probe →
        c.victims.get? i = some v ∨ v.request i ∈ sent) :
      Performed c (.retire a data) d sent

variable {c : Controller}

theorem Good.consume (good : c.Good) (slot : Slot) : Quiet c (c.consume slot).2 := by
  refine good.quiet rfl rfl rfl rfl fun i => ?_
  rw [wanted, wanted]
  change ((c.misses.consume slot).2.get? i).bind _ = _
  unfold MissFile.consume
  split
  · rfl
  · rename_i m occupied
    split
    · rfl
    · rename_i answer answered
      have cell := Slots.get?_clear c.misses.slots slot i
      have freed : ((MissFile.mk (c.misses.slots.clear slot)).get? i).bind
          (fun m => if m.answer.isNone then some m.request else none) =
          (c.misses.get? i).bind fun m => if m.answer.isNone then some m.request else none := by
        rw [MissFile.get?, cell]
        split
        · rename_i here
          rw [← here, occupied]
          simp [answered]
        · rfl
      simp only
      split
      · exact freed
      · exact freed

theorem Good.storeIo (good : c.Good) (s : IoStore) : Quiet c (c.storeIo s).2 := by
  unfold Controller.storeIo
  split
  · exact good.quiet rfl rfl rfl rfl fun _ => rfl
  · exact good.quiet rfl rfl rfl rfl fun _ => rfl

theorem Good.store (good : c.Good) (a : Address) (bytes : List UInt8) :
    Performed c (.store a bytes) (c.store a bytes).2 [] := by
  have refused (fault : Fault) (shape : c.store a bytes = (.error fault, c)) :
      Performed c (.store a bytes) (c.store a bytes).2 [] := by
    rw [shape]
    refine .quiet _ _ (good.quiet rfl rfl rfl rfl fun _ => rfl) ?_
    simp only [stores, shape]
  by_cases fits : a.fits bytes.length
  · by_cases writable : (c.lookup a).writable
    · have hit : c.cache.hit a := by
        simp only [LineState.writable, Bool.and_eq_true] at writable
        rw [← good.toLevels.lookup_valid]
        exact LineState.valid_of_isDirty writable.1
      have shape : c.store a bytes = (.ok (), { c with cache := (c.cache.write a bytes).2 }) := by
        have written : (c.cache.write a bytes).1 = true := by rw [BackupCache.write_fst, hit]
        simp only [Controller.store, fits, writable, if_true]
        split
        · rename_i cache same
          rw [same]
        · rename_i cache same
          rw [same] at written
          cases written
      have lines := (BackupCache.find?_write c.cache a · bytes)
      rw [shape]
      refine .stored a bytes _ ?_ ?_ (good.toLevels.sole_of_writable writable) (fun _ => rfl) ?_ ?_
      · refine ⟨⟨good.tags, good.cache.write a bytes, ?_⟩, good.settled⟩
        intro b held
        have present := good.included b held
        change ((c.cache.write a bytes).2.find? b).isSome
        rw [lines]
        split
        · rw [Option.isSome_map]
          exact hit
        · exact present
      · simp only [stores, shape]
      · intro b
        rw [line_eq]
        change lineOf (c.tags.stateOf b) ((c.cache.write a bytes).2.find? b) = _
        rw [lines]
        obtain ⟨l, found⟩ := Option.isSome_iff_exists.mp hit
        split
        · rename_i same
          rw [line_eq, DuplicateTags.stateOf_congr c.tags same, found]
          rfl
        · rw [line_eq]
      · intro i v found _ _
        exact found
    · exact refused (.rejected (.notOwned a.block))
        (by simp only [Controller.store, fits, if_true]; rw [if_neg writable])
  · exact refused (.rejected (.spansBlock a bytes.length))
      (by simp only [Controller.store]; rw [if_neg fits])

theorem Good.retire (good : c.Good) (a : Address) (data : Block) :
    ∃ sent, Performed c (.retire a data) (c.retireVictim a data).2 sent ∧
      (c.retireVictim a data).2.outbound = c.outbound ++ sent := by
  unfold Controller.retireVictim
  split
  · refine ⟨[], .quiet _ _ (good.quiet rfl rfl rfl rfl fun _ => rfl) rfl, by simp⟩
  · rcases good.allocateVictim a data (d := .cache) (by simp) with
      ⟨⟨fault, refused⟩, _, quiet⟩ | ⟨slot, sent, taken, kept, moved, tags, hit, _⟩
    · split
      · rename_i shape
        rw [shape] at quiet
        exact ⟨[], .quiet _ _ quiet rfl, by simpa using quiet.outbound⟩
      · rename_i shape
        rw [shape] at refused
        cases refused
    · split
      · rename_i shape
        rw [shape] at taken
        cases taken
      · rename_i d shape
        rw [shape] at kept moved tags hit
        have frame : d = _ := moved.frame
        have misses : d.misses = c.misses := by rw [frame]
        refine ⟨sent, ?_, by simp only; rw [frame]⟩
        refine .retired a data _ ?_ ?_ ?_ sent moved.sends moved.carried
        · refine ⟨⟨kept.tags.drop a, kept.cache, ?_⟩, kept.settled⟩
          intro b held
          change ((d.tags.drop a).2.stateOf b).valid at held
          rw [DuplicateTags.stateOf_drop kept.tags] at held
          split at held
          · cases held
          · exact kept.included b held
        · exact wanted_of_misses misses
        · intro b
          rw [← hit_iff_copy, ← hit_iff_copy]
          exact hit b

theorem Good.perform (good : c.Good) (op : Operation) :
    ∃ sent, Performed c op (c.perform op) sent ∧ (c.perform op).outbound = c.outbound ++ sent := by
  cases op with
  | issue r =>
    obtain ⟨sent, issued, outbound⟩ := good.issue r
    simp only [Controller.perform, allocateMiss]
    cases shape : c.issue r with
    | mk result d =>
      rw [shape] at issued outbound
      cases result with
      | ok slot => exact ⟨sent, .issued r _ _ _ issued, outbound⟩
      | error fault =>
        cases issued with
        | refused _ _ quiet =>
          refine ⟨[], .quiet _ _ ?_ rfl, outbound⟩
          exact ⟨quiet.good.of_eq rfl rfl rfl, quiet.wanted, quiet.outbound,
            fun b => (line_of_eq rfl rfl b).trans (quiet.lines b), quiet.carried⟩
  | consume slot =>
    have quiet := good.consume slot
    exact ⟨[], .quiet _ _ quiet rfl, quiet.outbound.trans (List.append_nil _).symm⟩
  | store a bytes =>
    have stored := good.store a bytes
    refine ⟨[], stored, ?_⟩
    change (c.store a bytes).2.outbound = _
    unfold Controller.store
    split
    · split
      · split
        · simp
        · simp
      · simp
    · simp
  | storeIo s =>
    have quiet := good.storeIo s
    exact ⟨[], .quiet _ _ quiet rfl, quiet.outbound.trans (List.append_nil _).symm⟩
  | flush =>
    obtain ⟨writes, buffer, shape, only⟩ := flush_spec c
    simp only [Controller.perform, shape]
    refine ⟨writes, .flushed _ ?_ ?_ writes only, rfl⟩
    · exact good.held rfl rfl rfl
    · intro slot
      rfl
  | retire a data => exact good.retire a data

theorem Good.of_perform (good : c.Good) (op : Operation) : (c.perform op).Good := by
  obtain ⟨sent, performed, _⟩ := good.perform op
  cases performed with
  | quiet _ _ quiet _ => exact quiet.good
  | issued r result d sent issued =>
    cases issued with
    | refused _ _ quiet => exact quiet.good
    | asked _ _ _ _ held => exact held.good
    | joined _ _ _ held => exact held.good
    | hit _ _ _ held => exact held.good
    | late _ _ _ held => exact held.good
    | barrier _ _ held => exact held.good
    | purged _ _ good => exact good
  | stored _ _ _ good => exact good
  | flushed _ held => exact held.good
  | retired _ _ _ good => exact good

end Controller
end CacheCoherence
