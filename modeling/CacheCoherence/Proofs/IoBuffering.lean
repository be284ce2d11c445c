import CacheCoherence.Proofs.Handovers
import CacheCoherence.Proofs.Masks

/-! What a flush makes of a block of the I/O space. The entries of a block go out in slot order and lie
over one another, so of the open entries that hold a byte the one in the highest slot is seen. A store
is therefore seen except where an entry in a higher slot holds the byte already. -/

namespace CacheCoherence

namespace Request

def writesTo (b : Address) : Request → Bool
  | .ioWrite _ a _ _ _ => a.block == b.block
  | .read .. | .victim .. | .reply _ | .barrier _ => false

/-- The block of `b` once the request is handled. -/
def lay (b : Address) (q : Request) (image : Block) : Block :=
  match q with
  | .ioWrite _ a data _ written =>
    if a.block = b.block then image.overlay a.offset data written else image
  | .read .. | .victim .. | .reply _ | .barrier _ => image

theorem lay_of_not_writesTo {b : Address} {q : Request} (other : q.writesTo b = false)
    (image : Block) : q.lay b image = image := by
  cases q with
  | ioWrite id a data mask written =>
    have apart : a.block ≠ b.block := by simpa [writesTo] using other
    simp only [lay, if_neg apart]
  | read | victim | reply | barrier => rfl

end Request

def laid (b : Address) (messages : List Request) (image : Block) : Block :=
  messages.foldl (fun image q => q.lay b image) image

theorem laid_cons (b : Address) (q : Request) (rest : List Request) (image : Block) :
    laid b (q :: rest) image = laid b rest (q.lay b image) := rfl

theorem laid_append (b : Address) (first rest : List Request) (image : Block) :
    laid b (first ++ rest) image = laid b rest (laid b first image) := List.foldl_append

theorem laid_of_silent {b : Address} {messages : List Request}
    (silent : ∀ q ∈ messages, q.writesTo b = false) (image : Block) :
    laid b messages image = image := by
  induction messages with
  | nil => rfl
  | cons q rest ih =>
    rw [laid_cons, Request.lay_of_not_writesTo (silent q List.mem_cons_self)]
    exact ih fun r member => silent r (List.mem_cons_of_mem _ member)

/-- Address and length have a sum, which is a word. -/
def IoStore.Bounded (s : IoStore) : Prop := s.addr.toNat + s.length < 2 ^ 64

instance (s : IoStore) : Decidable s.Bounded := inferInstanceAs (Decidable (_ < _))

namespace IoWrite

def covers (w : IoWrite) (b : Address) (i : Nat) : Bool :=
  w.mergeable && w.addr.block == b.block && w.written.toNat.testBit i

def OpenAt (b : Address) (w : IoWrite) : Prop := w.mergeable ∧ w.addr.block = b.block

/-- Byte `i` was stored, and the write hands it over. -/
def brings (w : IoWrite) (i : Nat) : Bool :=
  w.written.toNat.testBit i && decide (w.addr.offset ≤ i ∧ i < w.addr.offset + w.length)

structure Spans (w : IoWrite) : Prop where
  below : w.addr.toNat + w.length < 2 ^ 64
  whole : ∀ i < 64, w.written.toNat.testBit i → w.addr.offset ≤ i ∧ i < w.addr.offset + w.length

theorem brings_eq {w : IoWrite} {i : Nat}
    (whole : w.written.toNat.testBit i → w.addr.offset ≤ i ∧ i < w.addr.offset + w.length) :
    w.brings i = w.written.toNat.testBit i := by
  cases stored : w.written.toNat.testBit i with
  | false => simp [brings, stored]
  | true => simp [brings, stored, whole stored]

end IoWrite

theorem Block.getElem?_slice (b : Block) (offset length i : Nat) :
    (b.slice offset length)[i]? = if i < length then b[offset + i]? else none := by
  rw [Block.slice, List.getElem?_take, List.getElem?_drop, Vector.getElem?_toList]

theorem getElem_overlay_payload (w : IoWrite) (image : Block) (i : Nat) (bound : i < 64) :
    (image.overlay w.addr.offset w.payload w.written)[i] =
      if w.brings i then w.data[i] else image[i] := by
  rw [Block.getElem_overlay]
  by_cases low : w.addr.offset ≤ i
  · have handed : w.payload[i - w.addr.offset]?.getD image[i] =
        if i < w.addr.offset + w.length then w.data[i] else image[i] := by
      rw [IoWrite.payload, Block.getElem?_slice, Nat.add_sub_cancel' low,
        Vector.getElem?_eq_getElem bound]
      by_cases inside : i < w.addr.offset + w.length
      · rw [if_pos (by omega), if_pos inside, Option.getD_some]
      · rw [if_neg (by omega), if_neg inside, Option.getD_none]
    cases stored : w.written.toNat.testBit i with
    | false => simp [IoWrite.brings, stored]
    | true => simp [IoWrite.brings, stored, low, handed]
  · simp [IoWrite.brings, low]

/-- The byte is seen through the write where the entry does not hold it. -/
theorem getElem_lay_request {w : IoWrite} {b : Address} (spans : w.addr.block = b.block → w.Spans)
    (slot : Slot) (isOpen : w.mergeable) (image : Block) (i : Nat) (bound : i < 64) :
    ((w.request slot).lay b image)[i] = if w.covers b i then w.data[i] else image[i] := by
  by_cases same : w.addr.block = b.block
  · have covers : w.covers b i = w.brings i := by
      rw [IoWrite.brings_eq ((spans same).whole i bound)]
      simp [IoWrite.covers, isOpen, same]
    simp only [Request.lay, IoWrite.request, if_pos same, covers]
    exact getElem_overlay_payload w image i bound
  · simp [Request.lay, IoWrite.request, IoWrite.covers, same]

namespace WriteBuffer

def byte? (buffer : WriteBuffer) (b : Address) (i : Fin 64) (slot : Slot) : Option UInt8 :=
  ((buffer.get? slot).filter (·.covers b i)).map (·.data.get i)

def Spanned (on : IoWrite → Prop) (buffer : WriteBuffer) : Prop :=
  ∀ slot w, buffer.get? slot = some w → on w → w.Spans

/-- A higher slot than `slot` holds byte `i` of the block of `b`. -/
def hides (buffer : WriteBuffer) (slot : Slot) (b : Address) (i : Nat) : Bool :=
  (List.finRange 8).any fun j => slot < j && (buffer.get? j).any (·.covers b i)

theorem isSome_byte? (buffer : WriteBuffer) (b : Address) (i : Fin 64) (slot : Slot) :
    (buffer.byte? b i slot).isSome = (buffer.get? slot).any (·.covers b i) := by
  rw [byte?]
  cases buffer.get? slot with
  | none => rfl
  | some w => cases covers : w.covers b i <;> simp [Option.filter, covers]

theorem getElem_laid_unsent {buffer : WriteBuffer} {b : Address} (spanned : buffer.Spanned (·.OpenAt b))
    (image : Block) (i : Fin 64) :
    (laid b buffer.unsent image).get i =
      (List.finRange 8).foldl (fun x slot => (buffer.byte? b i slot).getD x) (image.get i) := by
  rw [unsent]
  -- both sides go through the slots in order, so the claim holds of any list of slots
  generalize List.finRange 8 = slots
  induction slots generalizing image with
  | nil => rfl
  | cons slot rest ih =>
    rw [List.foldl_cons, List.filterMap_cons]
    cases present : buffer.get? slot with
    | none =>
      rw [show buffer.byte? b i slot = none by rw [byte?, present]; rfl]
      exact ih image
    | some w =>
      cases isOpen : w.mergeable with
      | false =>
        have covers : w.covers b i = false := by simp [IoWrite.covers, isOpen]
        rw [show buffer.byte? b i slot = none by simp [byte?, present, Option.filter, covers]]
        simpa [Option.filter, isOpen] using ih image
      | true =>
        have laid_here : ((w.request slot).lay b image).get i =
            if w.covers b i then w.data.get i else image.get i :=
          getElem_lay_request (fun same => spanned slot w present ⟨isOpen, same⟩) slot isOpen image i
            i.isLt
        have seen : (buffer.byte? b i slot).getD (image.get i) =
            ((w.request slot).lay b image).get i := by
          rw [laid_here, byte?, present]
          cases covers : w.covers b i <;> simp [Option.filter, covers]
        rw [seen, ← ih]
        simp only [Option.filter, isOpen, if_true, Option.map_some, laid_cons]

theorem foldl_getD_start (slots : List Slot) (held : Slot → Option UInt8) (x y : UInt8) :
    slots.foldl (fun x j => (held j).getD x) y =
      if slots.any fun j => (held j).isSome then slots.foldl (fun x j => (held j).getD x) x else y := by
  induction slots generalizing x y with
  | nil => rfl
  | cons j rest ih =>
    rw [List.foldl_cons, List.foldl_cons, List.any_cons]
    cases here : held j with
    | none => exact ih x y
    | some z => simp

/-- A byte that one more slot holds is seen, unless a higher slot hides it. -/
theorem foldl_getD_of_one {slots : List Slot} (sorted : slots.Pairwise (· < ·))
    {before after : Slot → Option UInt8} {slot : Slot} (member : slot ∈ slots) {y : UInt8}
    (here : after slot = some y) (others : ∀ j ≠ slot, after j = before j) (x : UInt8) :
    slots.foldl (fun x j => (after j).getD x) x =
      if slots.any fun j => slot < j && (before j).isSome then
        slots.foldl (fun x j => (before j).getD x) x
      else y := by
  induction slots generalizing x with
  | nil => cases member
  | cons first rest ih =>
    obtain ⟨least, sorted⟩ := List.pairwise_cons.mp sorted
    rw [List.foldl_cons, List.foldl_cons, List.any_cons]
    by_cases same : first = slot
    · subst same
      have rest_same : rest.foldl (fun x j => (after j).getD x) y =
          rest.foldl (fun x j => (before j).getD x) y := by
        refine List.foldl_ext _ _ _ fun x j inside => ?_
        rw [others j (Fin.ne_of_gt (least j inside))]
      have above : (rest.any fun j => first < j && (before j).isSome) =
          rest.any fun j => (before j).isSome := by
        rw [Bool.eq_iff_iff, List.any_eq_true, List.any_eq_true]
        refine exists_congr fun j => and_congr_right fun inside => ?_
        simp [least j inside]
      rw [here, Option.getD_some, rest_same, above, decide_eq_false (Fin.lt_irrefl first),
        Bool.false_and, Bool.false_or]
      exact foldl_getD_start rest before _ y
    · have inside : slot ∈ rest := (List.mem_cons.mp member).resolve_left (Ne.symm same)
      have below : ¬ slot < first := Fin.not_lt.mpr (Fin.le_of_lt (least slot inside))
      rw [others first same, ih sorted inside, decide_eq_false below, Bool.false_and, Bool.false_or]

end WriteBuffer

def IoStore.covers (s : IoStore) (i : Nat) : Bool :=
  s.addr.offset ≤ i && i < s.addr.offset + s.length

def IoStore.over (s : IoStore) (b : Address) (hidden : Nat → Bool) (image : Block) : Block :=
  if s.addr.block = b.block then
    Vector.ofFn fun i => if hidden i then image.get i else (image.write s.addr.offset s.data).get i
  else image

structure IoStore.Accepted (s : IoStore) : Prop where
  touched : 0 < s.length
  whole : s.data.length = s.length
  fits : s.addr.offset + s.length ≤ 64

theorem IoStore.accepted_of_check {s : IoStore} (checked : s.check = .ok ()) : s.Accepted := by
  unfold IoStore.check at checked
  split at checked
  · cases checked
  split at checked
  · cases checked
  rename_i whole
  split at checked
  · cases checked
  rename_i fits
  simp only [Address.fits, Bool.not_eq_false, Bool.and_eq_true] at fits
  exact ⟨of_decide_eq_true fits.1, Decidable.not_not.mp whole, of_decide_eq_true fits.2⟩

theorem IoStore.Accepted.getElem_write {s : IoStore} (accepted : s.Accepted) (image : Block) (i : Nat)
    (bound : i < 64) (y : UInt8) :
    (image.write s.addr.offset s.data)[i] =
      if s.covers i then s.data[i - s.addr.offset]?.getD y else image[i] := by
  rw [Block.getElem_write]
  by_cases low : s.addr.offset ≤ i
  · by_cases high : i < s.addr.offset + s.length
    · have inside : i - s.addr.offset < s.data.length := by
        rw [accepted.whole]
        omega
      simp [IoStore.covers, low, high, inside]
    · have outside : s.data.length ≤ i - s.addr.offset := by
        rw [accepted.whole]
        omega
      simp [IoStore.covers, low, high, outside]
  · simp [IoStore.covers, low]

theorem IoStore.testBit_covers (s : IoStore) (i : Nat) (bound : i < 64) :
    (byteMask s.addr.offset s.length).toNat.testBit i = s.covers i := by
  rw [testBit_byteMask, IoStore.covers, Bool.decide_and, Bool.decide_and, decide_eq_true bound, Bool.and_true]

namespace IoWrite

theorem toNat_min (x y : UInt64) : (min x y).toNat = min x.toNat y.toNat := by
  change (if x ≤ y then x else y).toNat = _
  simp only [apply_ite UInt64.toNat, UInt64.le_iff_toNat_le, Nat.min_def]

theorem toNat_max (x y : UInt64) : (max x y).toNat = max x.toNat y.toNat := by
  change (if x ≤ y then y else x).toNat = _
  simp only [apply_ite UInt64.toNat, UInt64.le_iff_toNat_le, Nat.max_def]

theorem toNat_addr_join (w : IoWrite) (s : IoStore) :
    (w.join s).addr.toNat = min w.addr.toNat s.addr.toNat := toNat_min ..

theorem toNat_stop {a : Address} {length : Nat} (below : a.toNat + length < 2 ^ 64) :
    (a.raw + length.toUInt64).toNat = a.toNat + length := by
  simp only [Address.toNat] at below ⊢
  rw [UInt64.toNat_add, Nat.toUInt64, UInt64.toNat_ofNat', Nat.add_mod_mod, Nat.mod_eq_of_lt below]

theorem stop_join {w : IoWrite} {s : IoStore} (below : w.addr.toNat + w.length < 2 ^ 64)
    (bounded : s.Bounded) : (w.join s).addr.toNat + (w.join s).length =
      max (w.addr.toNat + w.length) (s.addr.toNat + s.length) := by
  have first : (min w.addr.raw s.addr.raw).toNat = min w.addr.toNat s.addr.toNat := toNat_min ..
  have last : (max (w.addr.raw + w.length.toUInt64) (s.addr.raw + s.length.toUInt64)).toNat =
      max (w.addr.toNat + w.length) (s.addr.toNat + s.length) := by
    rw [toNat_max, toNat_stop below, toNat_stop bounded]
  have length : (w.join s).length =
      max (w.addr.toNat + w.length) (s.addr.toNat + s.length) - min w.addr.toNat s.addr.toNat := by
    rw [← first, ← last]
    refine UInt64.toNat_sub_of_le _ _ ?_
    rw [UInt64.le_iff_toNat_le, first, last]
    omega
  rw [toNat_addr_join, length]
  omega

theorem spans_ofStore {s : IoStore} (bounded : s.Bounded) : (ofStore s).Spans := by
  refine ⟨bounded, fun i bound stored => ?_⟩
  have covered : s.covers i := by rwa [← s.testBit_covers i bound]
  simp only [IoStore.covers, Bool.and_eq_true, decide_eq_true_eq] at covered
  exact covered

/-- The widened span has the bytes of the entry and those of the store. -/
theorem Spans.join {w : IoWrite} {s : IoStore} (spans : w.Spans) (bounded : s.Bounded)
    (same : w.addr.block = s.addr.block) : (w.join s).Spans := by
  have start := toNat_addr_join w s
  have stop := stop_join spans.below bounded
  have block := (Address.block_eq_iff w.addr s.addr).mp same
  constructor
  · have below := spans.below
    rw [stop]
    exact Nat.max_lt.mpr ⟨below, bounded⟩
  · intro i bound stored
    have held : w.addr.offset ≤ i ∧ i < w.addr.offset + w.length ∨
        s.addr.offset ≤ i ∧ i < s.addr.offset + s.length := by
      simp only [IoWrite.join, UInt64.toNat_or, Nat.testBit_or, Bool.or_eq_true] at stored
      rcases stored with old | new
      · exact .inl (spans.whole i bound old)
      · rw [s.testBit_covers i bound] at new
        exact .inr (by simpa [IoStore.covers] using new)
    simp only [Address.offset, blockSize] at held ⊢
    omega

theorem covers_ofStore (s : IoStore) (b : Address) (i : Nat) (bound : i < 64) :
    (ofStore s).covers b i = (s.addr.block == b.block && s.covers i) := by
  rw [covers, ← s.testBit_covers i bound]
  rfl

theorem block_join {w : IoWrite} {s : IoStore} (same : w.addr.block = s.addr.block) :
    (w.join s).addr.block = s.addr.block := by
  have start := toNat_addr_join w s
  rw [Address.block_eq_iff] at same ⊢
  omega

theorem covers_join {w : IoWrite} {s : IoStore} (isOpen : w.mergeable)
    (same : w.addr.block = s.addr.block) (b : Address) (i : Nat) (bound : i < 64) :
    (w.join s).covers b i = (w.covers b i || (s.addr.block == b.block && s.covers i)) := by
  have stays : (w.join s).mergeable = true := isOpen
  have named : (w.join s).written.toNat.testBit i =
      (w.written.toNat.testBit i || s.covers i) := by
    simp only [join, UInt64.toNat_or, Nat.testBit_or, s.testBit_covers i bound]
  rw [covers, covers, stays, isOpen, block_join same, same, named, Bool.true_and,
    Bool.and_or_distrib_left]

end IoWrite

namespace WriteBuffer

variable {buffer : WriteBuffer}

/-- An accepted store goes to one slot: it joins the open entry there, or nothing open was there. -/
theorem allocate_ok {s : IoStore} {p : Placement} {after : WriteBuffer}
    (outcome : buffer.allocate s = (.ok p, after)) :
    s.Accepted ∧ ∃ w, after = ⟨buffer.slots.put p.slot w⟩ ∧
      ((∃ old, buffer.get? p.slot = some old ∧ old.mergeable ∧ old.addr.block = s.addr.block ∧
          w = old.join s) ∨
        (∀ old, buffer.get? p.slot = some old → old.mergeable = false) ∧ w = .ofStore s) := by
  unfold allocate at outcome
  split at outcome
  · cases outcome
  rename_i checked
  refine ⟨s.accepted_of_check checked, ?_⟩
  split at outcome
  · rename_i slot old target
    cases outcome
    obtain ⟨present, accepts⟩ := Slots.find?_some target
    simp only [IoWrite.accepts, Bool.and_eq_true, beq_iff_eq] at accepts
    exact ⟨_, rfl, .inl ⟨old, present, accepts.1.1.1, accepts.1.2, rfl⟩⟩
  · split at outcome
    · cases outcome
    rename_i slot target
    cases outcome
    refine ⟨_, rfl, .inr ⟨fun old present => ?_, rfl⟩⟩
    have vacant := Slots.first?_some target
    rw [show buffer.slots.get? slot = some old from present] at vacant
    simp only [Option.all_some] at vacant
    simp [IoWrite.mergeable, vacant]

theorem allocate_error {s : IoStore} {fault : Fault} {after : WriteBuffer}
    (outcome : buffer.allocate s = (.error fault, after)) : after = buffer := by
  unfold allocate at outcome
  split at outcome
  · cases outcome
    rfl
  · split at outcome
    · cases outcome
    · split at outcome
      · cases outcome
        rfl
      · cases outcome

/-- A store whose end is a word leaves no entry with more than its span holds. -/
theorem spanned_allocate {on : IoWrite → Prop} {s : IoStore} (spanned : buffer.Spanned on)
    (joins : ∀ w, w.mergeable → w.addr.block = s.addr.block → on (w.join s) → on w)
    (bounded : ∀ w, w.addr.block = s.addr.block → on w → s.Bounded) :
    (buffer.allocate s).2.Spanned on := by
  rcases outcome : buffer.allocate s with ⟨result, after⟩
  cases result with
  | error fault =>
    rw [allocate_error outcome]
    exact spanned
  | ok p =>
    obtain ⟨_, w, rfl, entry⟩ := allocate_ok outcome
    intro slot u present counts
    rw [get?, Slots.get?_put] at present
    split at present
    · obtain rfl := Option.some.inj present
      rcases entry with ⟨old, there, was_open, same, rfl⟩ | ⟨_, rfl⟩
      · have before := spanned p.slot old there (joins old was_open same counts)
        exact before.join (bounded (old.join s) (IoWrite.block_join same) counts) same
      · exact IoWrite.spans_ofStore (bounded (.ofStore s) rfl counts)
    · exact spanned slot u present counts

theorem Spanned.advance {on : IoWrite → Prop} {after : WriteBuffer} (spanned : buffer.Spanned on)
    (advances : buffer.Advances after)
    (on_before : ∀ w issued acknowledged, (IoWrite.mergeable { w with issued, acknowledged } →
      w.mergeable) → on { w with issued, acknowledged } → on w) : after.Spanned on := by
  intro slot w present counts
  obtain ⟨x, before, opened, same⟩ := advances slot w present
  rw [same] at opened counts ⊢
  have spans := spanned slot x before (on_before x _ _ opened counts)
  exact ⟨spans.below, spans.whole⟩

theorem silent_allocate (s : IoStore) {b : Address} (apart : s.addr.block ≠ b.block)
    (silent : ∀ q ∈ buffer.unsent, q.writesTo b = false) :
    ∀ q ∈ (buffer.allocate s).2.unsent, q.writesTo b = false := by
  rcases outcome : buffer.allocate s with ⟨result, after⟩
  cases result with
  | error fault =>
    rw [allocate_error outcome]
    exact silent
  | ok p =>
    obtain ⟨_, entry, rfl, placed⟩ := allocate_ok outcome
    intro q member
    obtain ⟨u, slot, there, isOpen, rfl⟩ := mem_unsent.mp member
    rw [get?, Slots.get?_put] at there
    split at there
    · obtain rfl := Option.some.inj there
      have block : entry.addr.block = s.addr.block := by
        rcases placed with ⟨old, _, _, same, rfl⟩ | ⟨_, rfl⟩
        · exact IoWrite.block_join same
        · rfl
      simpa [IoWrite.request, Request.writesTo, block] using apart
    · exact silent _ (mem_unsent.mpr ⟨u, slot, there, isOpen, rfl⟩)

theorem byte?_allocate {s : IoStore} {p : Placement} {after : WriteBuffer}
    (outcome : buffer.allocate s = (.ok p, after)) (b : Address) (i : Fin 64) (slot : Slot) :
    after.byte? b i slot =
      if slot = p.slot ∧ s.addr.block = b.block ∧ s.covers i then
        some (s.data[i.val - s.addr.offset]?.getD 0)
      else buffer.byte? b i slot := by
  obtain ⟨accepted, w, rfl, entry⟩ := allocate_ok outcome
  by_cases here : slot = p.slot
  · subst here
    have cell : (WriteBuffer.mk (buffer.slots.put p.slot w)).get? p.slot = some w := by
      rw [get?, Slots.get?_put, if_pos rfl]
    simp only [byte?, cell, true_and]
    have written (image : Block) := accepted.getElem_write image i i.isLt 0
    rcases entry with ⟨old, there, was_open, same, rfl⟩ | ⟨vacant, rfl⟩
    · have covers := IoWrite.covers_join was_open same b i i.isLt
      have data : (old.join s).data.get i = if s.covers i then
          s.data[i.val - s.addr.offset]?.getD 0 else old.data.get i := written old.data
      rw [there]
      by_cases block : s.addr.block = b.block
      · cases covered : s.covers i with
        | false => simp [Option.filter, covers, covered, data]
        | true => simp [Option.filter, covers, covered, block, data]
      · have apart : old.covers b i = false := by simp [IoWrite.covers, same, block]
        simp [Option.filter, covers, block, apart]
    · have covers := IoWrite.covers_ofStore s b i i.isLt
      have data : (IoWrite.ofStore s).data.get i = if s.covers i then
          s.data[i.val - s.addr.offset]?.getD 0 else Block.zero.get i := written Block.zero
      have none_open : (buffer.get? p.slot).filter (·.covers b i) = none := by
        rw [Option.filter_eq_none_iff]
        intro old there
        simp [IoWrite.covers, vacant old there]
      rw [none_open]
      by_cases block : s.addr.block = b.block
      · cases covered : s.covers i with
        | false => simp [Option.filter, covers, covered]
        | true => simp [Option.filter, covers, covered, block, data]
      · simp [Option.filter, covers, block]
  · have cell : (WriteBuffer.mk (buffer.slots.put p.slot w)).get? slot = buffer.get? slot := by
      rw [get?, Slots.get?_put, if_neg (Ne.symm here)]
      rfl
    simp only [byte?, cell, here, false_and, if_false]

theorem Spanned.advance_open {b : Address} {after : WriteBuffer} (spanned : buffer.Spanned (·.OpenAt b))
    (advances : buffer.Advances after) : after.Spanned (·.OpenAt b) :=
  spanned.advance advances fun _ _ _ opened counts => ⟨opened counts.1, counts.2⟩

theorem Spanned.store {s : IoStore} {b : Address} (spanned : buffer.Spanned (·.OpenAt b))
    (bounded : s.addr.block = b.block → s.Bounded) : (buffer.allocate s).2.Spanned (·.OpenAt b) := by
  refine spanned_allocate spanned (fun w isOpen same counts => ?_) fun w same counts => ?_
  · exact ⟨isOpen, by rw [same, ← IoWrite.block_join same, counts.2]⟩
  · exact bounded (by rw [← same, counts.2])

/-- An accepted store is seen after the next flush, but for the bytes that a higher slot hides. -/
theorem laid_allocate {s : IoStore} {p : Placement} {after : WriteBuffer} {b : Address}
    (outcome : buffer.allocate s = (.ok p, after)) (spanned : buffer.Spanned (·.OpenAt b))
    (bounded : s.addr.block = b.block → s.Bounded) (image : Block) :
    laid b after.unsent image = s.over b (buffer.hides p.slot b) (laid b buffer.unsent image) := by
  have accepted := (allocate_ok outcome).1
  have bytes := byte?_allocate outcome b
  apply Vector.ext
  intro i bound
  have before : (laid b buffer.unsent image)[i] = (List.finRange 8).foldl
      (fun x slot => (buffer.byte? b ⟨i, bound⟩ slot).getD x) image[i] :=
    getElem_laid_unsent spanned image ⟨i, bound⟩
  have after_spanned := spanned.store bounded
  rw [outcome] at after_spanned
  have later : (laid b after.unsent image)[i] = (List.finRange 8).foldl
      (fun x slot => (after.byte? b ⟨i, bound⟩ slot).getD x) image[i] :=
    getElem_laid_unsent after_spanned image ⟨i, bound⟩
  have unchanged (aside : ¬ (s.addr.block = b.block ∧ s.covers i)) :
      (laid b after.unsent image)[i] = (laid b buffer.unsent image)[i] := by
    refine later.trans (Eq.trans ?_ before.symm)
    refine List.foldl_ext _ _ _ fun x slot _ => ?_
    rw [bytes, if_neg fun both => aside both.2]
  by_cases block : s.addr.block = b.block
  · rw [IoStore.over, if_pos block, Vector.getElem_ofFn]
    change _ = if buffer.hides p.slot b i then (laid b buffer.unsent image)[i] else
      ((laid b buffer.unsent image).write s.addr.offset s.data)[i]
    rw [accepted.getElem_write _ i bound 0]
    by_cases covered : s.covers i
    · have one := foldl_getD_of_one (by decide : (List.finRange 8).Pairwise (· < ·))
        (List.mem_finRange p.slot) ((bytes ⟨i, bound⟩ p.slot).trans (if_pos ⟨rfl, block, covered⟩))
        (fun j apart => (bytes ⟨i, bound⟩ j).trans (if_neg fun both => apart both.1)) image[i]
      have hidden : ((List.finRange 8).any fun j =>
          p.slot < j && (buffer.byte? b ⟨i, bound⟩ j).isSome) = buffer.hides p.slot b i := by
        simp only [isSome_byte?, hides]
      rw [hidden] at one
      rw [if_pos covered]
      rw [later, one, before]
    · rw [if_neg covered, ite_self]
      exact unchanged fun both => covered both.2
  · rw [IoStore.over, if_neg block]
    exact unchanged fun both => block both.1

end WriteBuffer
end CacheCoherence
