import CacheCoherence.BackupCache

namespace CacheCoherence.BackupCache

variable {c : BackupCache}

structure WellPlaced (c : BackupCache) : Prop where
  block : ∀ i l, c.lines.get? i = some l → l.addr.block = l.addr
  index : ∀ i l, c.lines.get? i = some l → c.indexOf l.addr = i
  tag : ∀ i l, c.lines.get? i = some l → l.tag = tagOf l.addr

theorem wellPlaced_empty (size : CacheSize) : (empty size).WellPlaced := by
  constructor <;> simp [empty]

theorem tagOf_congr {a b : Address} (same : a.block = b.block) : tagOf a = tagOf b := by
  have blocks := (Address.block_eq_iff a b).mp same
  have high (n : Nat) : n / 2 ^ tagShift = n / 64 / 2 ^ 14 := by
    simp only [tagShift]
    omega
  simp only [tagOf, Nat.shiftRight_eq_div_pow, high, blocks]

theorem indexOf_congr (c : BackupCache) {a b : Address} (same : a.block = b.block) :
    c.indexOf a = c.indexOf b := by
  have blocks := (Address.block_eq_iff a b).mp same
  simp only [indexOf, blockSize, blocks]

@[simp] theorem indexOf_block (c : BackupCache) (a : Address) : c.indexOf a.block = c.indexOf a :=
  indexOf_congr c (Address.block_block a)

@[simp] theorem tagOf_block (a : Address) : tagOf a.block = tagOf a :=
  tagOf_congr (Address.block_block a)

theorem occupant_congr (c : BackupCache) {a b : Address} (same : a.block = b.block) :
    c.occupant a = c.occupant b := by
  simp only [occupant, indexOf_congr c same]

theorem find?_congr (c : BackupCache) {a b : Address} (same : a.block = b.block) :
    c.find? a = c.find? b := by
  simp only [find?, occupant_congr c same, tagOf_congr same, same]

@[simp] theorem find?_block (c : BackupCache) (a : Address) : c.find? a.block = c.find? a :=
  find?_congr c (Address.block_block a)

theorem find?_eq_some_iff (placed : c.WellPlaced) (a : Address) (l : CacheLine) :
    c.find? a = some l ↔ c.occupant a = some l ∧ l.addr = a.block := by
  simp only [find?, Option.filter_eq_some_iff, Bool.and_eq_true, beq_iff_eq]
  constructor
  · rintro ⟨present, _, same⟩
    exact ⟨present, same⟩
  · rintro ⟨present, same⟩
    refine ⟨present, ?_, same⟩
    rw [placed.tag _ _ present, same, tagOf_block]

theorem addr_of_find? {a : Address} {l : CacheLine} (found : c.find? a = some l) :
    l.addr = a.block := by
  simp only [find?, Option.filter_eq_some_iff, Bool.and_eq_true, beq_iff_eq] at found
  exact found.2.2

theorem tag_of_find? {a : Address} {l : CacheLine} (found : c.find? a = some l) :
    l.tag = tagOf a := by
  simp only [find?, Option.filter_eq_some_iff, Bool.and_eq_true, beq_iff_eq] at found
  exact found.2.1

theorem occupant_of_find? {a : Address} {l : CacheLine} (found : c.find? a = some l) :
    c.occupant a = some l := by
  simp only [find?, Option.filter_eq_some_iff] at found
  exact found.1

theorem find?_of_occupant (placed : c.WellPlaced) {a : Address} {l : CacheLine}
    (present : c.occupant a = some l) : c.find? l.addr = some l := by
  rw [find?_eq_some_iff placed]
  refine ⟨?_, (placed.block _ _ present).symm⟩
  simp only [occupant, placed.index _ _ present]
  exact present

theorem find?_eq_none_of_occupant (placed : c.WellPlaced) {a : Address} {l : CacheLine}
    (present : c.occupant a = some l) (apart : l.addr ≠ a.block) : c.find? a = none := by
  cases found : c.find? a with
  | none => rfl
  | some m =>
    have holds := (find?_eq_some_iff placed a m).mp found
    rw [present] at holds
    cases holds.1
    exact absurd holds.2 apart

def put (c : BackupCache) (a : Address) (l : CacheLine) : BackupCache :=
  { c with lines := c.lines.set (c.indexOf a) l }

def remove (c : BackupCache) (a : Address) : BackupCache :=
  { c with lines := c.lines.erase (c.indexOf a) }

theorem WellPlaced.put (placed : c.WellPlaced) {a : Address} {l : CacheLine}
    (addr : l.addr = a.block) (tag : l.tag = tagOf a) : (c.put a l).WellPlaced := by
  have cell (i : Nat) : (c.put a l).lines.get? i =
      if c.indexOf a = i then some l else c.lines.get? i := Sparse.get?_set _ _ _ _
  constructor
  · intro i m present
    rw [cell] at present
    split at present
    · cases present
      rw [addr, Address.block_block]
    · exact placed.block i m present
  · intro i m present
    rw [cell] at present
    change c.indexOf m.addr = i
    split at present
    · rename_i here
      cases present
      rw [addr, indexOf_block, here]
    · exact placed.index i m present
  · intro i m present
    rw [cell] at present
    split at present
    · cases present
      rw [tag, addr, tagOf_block]
    · exact placed.tag i m present

theorem find?_put {a : Address} {l : CacheLine} (addr : l.addr = a.block) (tag : l.tag = tagOf a)
    (b : Address) :
    (c.put a l).find? b =
      if b.block = a.block then some l
      else if c.indexOf b = c.indexOf a then none else c.find? b := by
  have cell : (c.put a l).occupant b =
      if c.indexOf a = c.indexOf b then some l else c.occupant b := Sparse.get?_set _ _ _ _
  simp only [find?, cell]
  by_cases same : b.block = a.block
  · rw [if_pos (indexOf_congr c same).symm, if_pos same]
    simp [Option.filter, addr, tag, same, tagOf_congr same]
  · rw [if_neg same]
    by_cases here : c.indexOf b = c.indexOf a
    · rw [if_pos here, if_pos here.symm]
      simp [Option.filter, addr, Ne.symm same]
    · rw [if_neg here, if_neg (Ne.symm here)]

theorem WellPlaced.remove (placed : c.WellPlaced) (a : Address) : (c.remove a).WellPlaced := by
  have kept (i : Nat) (m : CacheLine) (present : (c.remove a).lines.get? i = some m) :
      c.lines.get? i = some m := by
    have cell : (c.remove a).lines.get? i =
        if c.indexOf a = i then none else c.lines.get? i := Sparse.get?_erase _ _ _
    rw [cell] at present
    split at present
    · cases present
    · exact present
  constructor
  · intro i m present
    exact placed.block i m (kept i m present)
  · intro i m present
    exact placed.index i m (kept i m present)
  · intro i m present
    exact placed.tag i m (kept i m present)

theorem find?_remove (a b : Address) :
    (c.remove a).find? b = if c.indexOf b = c.indexOf a then none else c.find? b := by
  have cell : (c.remove a).occupant b =
      if c.indexOf a = c.indexOf b then none else c.occupant b := Sparse.get?_erase _ _ _
  simp only [find?, cell]
  by_cases here : c.indexOf b = c.indexOf a
  · rw [if_pos here, if_pos here.symm]
    rfl
  · rw [if_neg here, if_neg (Ne.symm here)]

theorem find?_eq_none_of_found {a b : Address} {l : CacheLine} (found : c.find? a = some l)
    (here : c.indexOf b = c.indexOf a) (apart : b.block ≠ a.block) : c.find? b = none := by
  have present : c.occupant b = some l := by
    simp only [occupant, here]
    exact occupant_of_find? found
  simp only [find?, present, Option.filter_eq_none_iff]
  intro m same
  cases same
  simp [addr_of_find? found, Ne.symm apart]

theorem find?_put_found {a : Address} {l m : CacheLine} (found : c.find? a = some l)
    (addr : m.addr = a.block) (tag : m.tag = tagOf a) (b : Address) :
    (c.put a m).find? b = if b.block = a.block then some m else c.find? b := by
  rw [find?_put addr tag]
  split
  · rfl
  · rename_i apart
    split
    · rename_i here
      exact (find?_eq_none_of_found found here apart).symm
    · rfl

theorem find?_remove_found {a : Address} {l : CacheLine} (found : c.find? a = some l)
    (b : Address) : (c.remove a).find? b = if b.block = a.block then none else c.find? b := by
  rw [find?_remove]
  split
  · rename_i here
    split
    · rfl
    · rename_i apart
      exact (find?_eq_none_of_found found here apart).symm
  · rename_i apart
    rw [if_neg]
    intro same
    exact apart (indexOf_congr c same)

theorem write_eq (c : BackupCache) (a : Address) (bytes : List UInt8) :
    c.write a bytes =
      match c.find? a with
      | none => (false, c)
      | some l => (true, c.put a { l with data := l.data.write a.offset bytes }) := rfl

theorem setState_eq (c : BackupCache) (a : Address) (s : LineState) :
    c.setState a s =
      match c.find? a with
      | none => (false, c)
      | some l =>
        (true, if s.valid then c.put a { l with dirty := s.dirty, shared := s.shared }
          else c.remove a) := by
  unfold setState
  split
  · simp_all
  · split <;> simp_all [put, remove]

theorem drop_eq (c : BackupCache) (a : Address) :
    c.drop a =
      match c.find? a with
      | none => (none, c)
      | some l => (some (l.state, l.data), c.remove a) := rfl

theorem write_fst (c : BackupCache) (a : Address) (bytes : List UInt8) :
    (c.write a bytes).1 = c.hit a := by
  rw [write_eq, hit]
  cases c.find? a <;> rfl

theorem WellPlaced.write (placed : c.WellPlaced) (a : Address) (bytes : List UInt8) :
    (c.write a bytes).2.WellPlaced := by
  rw [write_eq]
  cases found : c.find? a with
  | none => exact placed
  | some l =>
    have addr := addr_of_find? found
    have tag := tag_of_find? found
    apply WellPlaced.put placed
    · exact addr
    · exact tag

theorem find?_write (c : BackupCache) (a b : Address) (bytes : List UInt8) :
    (c.write a bytes).2.find? b =
      if b.block = a.block then
        (c.find? a).map fun l => { l with data := l.data.write a.offset bytes }
      else c.find? b := by
  rw [write_eq]
  cases found : c.find? a with
  | none =>
    by_cases same : b.block = a.block
    · rw [if_pos same]
      exact (find?_congr c same).trans found
    · rw [if_neg same]
  | some l =>
    have addr := addr_of_find? found
    have tag := tag_of_find? found
    apply find?_put_found found
    · exact addr
    · exact tag

theorem WellPlaced.setState (placed : c.WellPlaced) (a : Address) (s : LineState) :
    (c.setState a s).2.WellPlaced := by
  rw [setState_eq]
  cases found : c.find? a with
  | none => exact placed
  | some l =>
    have addr := addr_of_find? found
    have tag := tag_of_find? found
    by_cases valid : s.valid = true
    · simp only [valid, if_true]
      apply WellPlaced.put placed
      · exact addr
      · exact tag
    · simp only [valid]
      exact placed.remove a

theorem find?_setState (c : BackupCache) (a b : Address) (s : LineState) :
    (c.setState a s).2.find? b =
      if b.block = a.block then
        if s.valid then (c.find? a).map fun l => { l with dirty := s.dirty, shared := s.shared }
        else none
      else c.find? b := by
  rw [setState_eq]
  cases found : c.find? a with
  | none =>
    by_cases same : b.block = a.block
    · simpa [same] using (find?_congr c same).trans found
    · rw [if_neg same]
  | some l =>
    have addr := addr_of_find? found
    have tag := tag_of_find? found
    by_cases valid : s.valid = true
    · simp only [valid, if_true]
      apply find?_put_found found
      · exact addr
      · exact tag
    · simp only [valid]
      exact find?_remove_found found b

theorem WellPlaced.drop (placed : c.WellPlaced) (a : Address) : (c.drop a).2.WellPlaced := by
  rw [drop_eq]
  cases c.find? a with
  | none => exact placed
  | some l => exact placed.remove a

theorem find?_drop (c : BackupCache) (a b : Address) :
    (c.drop a).2.find? b = if b.block = a.block then none else c.find? b := by
  rw [drop_eq]
  cases found : c.find? a with
  | none =>
    by_cases same : b.block = a.block
    · rw [if_pos same]
      exact (find?_congr c same).trans found
    · rw [if_neg same]
  | some l => exact find?_remove_found found b

theorem drop_fst (c : BackupCache) (a : Address) :
    (c.drop a).1 = (c.find? a).map fun l => (l.state, l.data) := by
  rw [drop_eq]
  cases c.find? a <;> rfl

theorem WellPlaced.install (placed : c.WellPlaced) (a : Address) (data : Block) (s : LineState) :
    (c.install a data s).WellPlaced :=
  placed.put rfl rfl

theorem find?_install (c : BackupCache) (a b : Address) (data : Block) (s : LineState) :
    (c.install a data s).find? b =
      if b.block = a.block then
        some { tag := tagOf a, addr := a.block, dirty := s.dirty, shared := s.shared, data := data }
      else if c.indexOf b = c.indexOf a then none else c.find? b :=
  find?_put rfl rfl b

theorem stateOf_eq (c : BackupCache) (a : Address) :
    c.stateOf a = ((c.find? a).map (·.state)).getD .invalid := by
  unfold stateOf
  cases c.find? a <;> rfl

theorem hit_eq (c : BackupCache) (a : Address) : c.hit a = (c.stateOf a).valid := by
  rw [stateOf_eq, hit]
  cases c.find? a <;> rfl

end CacheCoherence.BackupCache
