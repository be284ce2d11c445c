import CacheCoherence.DuplicateTags

namespace CacheCoherence.DuplicateTags

theorem block_eq_iff_set_tag (a b : Address) :
    a.block = b.block ↔ setOf a = setOf b ∧ tagOf a = tagOf b := by
  rw [Address.block_eq_iff]
  simp only [setOf, tagOf, blockSize, sets, tagShift, Nat.shiftRight_eq_div_pow]
  omega

theorem setOf_block (a : Address) : setOf a.block = setOf a :=
  ((block_eq_iff_set_tag a.block a).mp (Address.block_block a)).1

theorem tagOf_block (a : Address) : tagOf a.block = tagOf a :=
  ((block_eq_iff_set_tag a.block a).mp (Address.block_block a)).2

structure WellPlaced (t : DuplicateTags) : Prop where
  set : ∀ i, (t.line i).state.valid → i / ways = setOf (t.line i).addr
  tag : ∀ i, (t.line i).state.valid → (t.line i).tag = tagOf (t.line i).addr
  block : ∀ i, (t.line i).state.valid → (t.line i).addr.block = (t.line i).addr
  single : ∀ i j, (t.line i).state.valid → (t.line j).state.valid →
    (t.line i).addr = (t.line j).addr → i = j
  settled : ∀ i, (t.line i).state.settled = (t.line i).state

@[simp] theorem line_empty (i : Nat) : empty.line i = { partner := i } := by
  simp [line, empty]

theorem wellPlaced_empty : empty.WellPlaced := by
  constructor <;> simp [LineState.invalid, LineState.settled]

theorem mem_set_iff (a : Address) (i : Nat) :
    i ∈ List.range' (baseOf a) ways ↔ i / ways = setOf a := by
  simp only [List.mem_range'_1, baseOf, ways]
  omega

variable {t : DuplicateTags}

theorem find?_eq_some_iff (placed : t.WellPlaced) (a : Address) (i : Nat) :
    t.find? a = some i ↔ (t.line i).state.valid ∧ (t.line i).addr = a.block := by
  constructor
  · intro found
    have holds := List.find?_some found
    have member := (mem_set_iff a i).mp (List.mem_of_find?_eq_some found)
    simp only [Bool.and_eq_true, beq_iff_eq] at holds
    refine ⟨holds.1, ?_⟩
    rw [← placed.block i holds.1, block_eq_iff_set_tag]
    exact ⟨(placed.set i holds.1).symm.trans member, (placed.tag i holds.1).symm.trans holds.2⟩
  · rintro ⟨valid, same⟩
    have member : i ∈ List.range' (baseOf a) ways := by
      rw [mem_set_iff, placed.set i valid, same, setOf_block]
    have tag : (t.line i).tag = tagOf a := by rw [placed.tag i valid, same, tagOf_block]
    cases found : t.find? a with
    | none =>
      have refused := List.find?_eq_none.mp found i member
      simp [valid, tag] at refused
    | some j =>
      have holds := List.find?_some found
      have inside := (mem_set_iff a j).mp (List.mem_of_find?_eq_some found)
      simp only [Bool.and_eq_true, beq_iff_eq] at holds
      have at_j : (t.line j).addr = a.block := by
        rw [← placed.block j holds.1, block_eq_iff_set_tag]
        exact ⟨(placed.set j holds.1).symm.trans inside, (placed.tag j holds.1).symm.trans holds.2⟩
      rw [placed.single i j valid holds.1 (same.trans at_j.symm)]

theorem find?_eq_none_iff (placed : t.WellPlaced) (a : Address) :
    t.find? a = none ↔ ∀ i, (t.line i).state.valid → (t.line i).addr ≠ a.block := by
  rw [Option.eq_none_iff_forall_not_mem]
  simp only [Option.mem_def, find?_eq_some_iff placed, not_and, ne_eq]

theorem find?_block (t : DuplicateTags) (a : Address) : t.find? a.block = t.find? a := by
  simp only [find?, baseOf, setOf_block, tagOf_block]

@[simp] theorem stateOf_block (t : DuplicateTags) (a : Address) : t.stateOf a.block = t.stateOf a := by
  simp only [stateOf, find?_block]

theorem stateOf_congr (t : DuplicateTags) {a b : Address} (same : a.block = b.block) :
    t.stateOf a = t.stateOf b := by
  rw [← stateOf_block, same, stateOf_block]

theorem stateOf_eq_line (placed : t.WellPlaced) {a : Address} {i : Nat}
    (valid : (t.line i).state.valid) (same : (t.line i).addr = a.block) :
    t.stateOf a = (t.line i).state := by
  have found := (find?_eq_some_iff placed a i).mpr ⟨valid, same⟩
  simp only [stateOf, found]

theorem stateOf_eq_invalid (placed : t.WellPlaced) {a : Address}
    (absent : ∀ i, (t.line i).state.valid → (t.line i).addr ≠ a.block) :
    t.stateOf a = .invalid := by
  have missing := (find?_eq_none_iff placed a).mpr absent
  simp only [stateOf, missing]

theorem valid_of_find? {a : Address} {i : Nat} (found : t.find? a = some i) :
    (t.stateOf a).valid := by
  have holds := List.find?_some found
  simp only [Bool.and_eq_true] at holds
  simpa only [stateOf, found] using holds.1

theorem find?_isSome (t : DuplicateTags) (a : Address) :
    (t.find? a).isSome = (t.stateOf a).valid := by
  cases found : t.find? a with
  | none => simp [stateOf, found, LineState.invalid]
  | some i => simpa using (valid_of_find? found).symm

theorem hit_eq (t : DuplicateTags) (a : Address) : t.hit a = (t.stateOf a).valid :=
  find?_isSome t a

theorem settled_stateOf (placed : t.WellPlaced) (a : Address) :
    (t.stateOf a).settled = t.stateOf a := by
  unfold stateOf
  split
  · exact placed.settled _
  · rfl

theorem line_write (t : DuplicateTags) (i j : Nat) (a : Address) (s : LineState) :
    (t.write i a s).line j =
      if i = j then
        { tag := tagOf a, addr := a.block, partner := (t.line i).partner, state := s.settled }
      else t.line j := by
  simp only [write, line, Sparse.get?_set]
  split <;> rfl

/-- A line may be written for a block of its set that no other line holds. -/
theorem WellPlaced.write (placed : t.WellPlaced) {i : Nat} {a : Address} (s : LineState)
    (inside : i / ways = setOf a)
    (alone : ∀ j, j ≠ i → (t.line j).state.valid → (t.line j).addr ≠ a.block) :
    (t.write i a s).WellPlaced := by
  constructor
  · intro j
    rw [line_write]
    split
    · rename_i same
      intro _
      rw [← same, setOf_block]
      exact inside
    · exact placed.set j
  · intro j
    rw [line_write]
    split
    · intro _
      exact (tagOf_block a).symm
    · exact placed.tag j
  · intro j
    rw [line_write]
    split
    · intro _
      exact Address.block_block a
    · exact placed.block j
  · intro j k
    rw [line_write, line_write]
    split <;> split
    · rename_i first second
      intros
      rw [← first, ← second]
    · rename_i first second
      intro _ valid same
      exact absurd same.symm (alone k (Ne.symm second) valid)
    · rename_i first second
      intro valid _ same
      exact absurd same (alone j (Ne.symm first) valid)
    · exact placed.single j k
  · intro j
    rw [line_write]
    split
    · exact LineState.settled_settled s
    · exact placed.settled j

theorem line_write_here (t : DuplicateTags) (i : Nat) (a : Address) (s : LineState) :
    (t.write i a s).line i =
      { tag := tagOf a, addr := a.block, partner := (t.line i).partner, state := s.settled } := by
  rw [line_write, if_pos rfl]

theorem line_write_elsewhere (t : DuplicateTags) {i j : Nat} (a : Address) (s : LineState)
    (apart : j ≠ i) : (t.write i a s).line j = t.line j := by
  rw [line_write, if_neg (Ne.symm apart)]

section write

variable {i : Nat} {a : Address}

theorem stateOf_write_here (placed : t.WellPlaced) (s : LineState) (inside : i / ways = setOf a)
    (alone : ∀ j, j ≠ i → (t.line j).state.valid → (t.line j).addr ≠ a.block) {b : Address}
    (same : b.block = a.block) : (t.write i a s).stateOf b = s.settled := by
  have after := placed.write s inside alone
  have at_i := line_write_here t i a s
  by_cases valid : s.settled.valid
  · have held : ((t.write i a s).line i).state.valid := by rw [at_i]; exact valid
    rw [stateOf_eq_line after held (by rw [at_i, same]), at_i]
  · have gone : s.settled = .invalid := by
      cases s with
      | mk v d h => simp [LineState.settled] at valid; simp [LineState.settled, valid, LineState.invalid]
    rw [gone]
    apply stateOf_eq_invalid after
    intro j held
    by_cases at_j : j = i
    · subst at_j
      rw [at_i] at held
      exact absurd held valid
    · rw [line_write_elsewhere t a s at_j] at held ⊢
      rw [same]
      exact alone j at_j held

/-- A block that was not in line `i` keeps its state, whatever else is written there. -/
theorem stateOf_write_elsewhere (placed : t.WellPlaced) (s : LineState) (inside : i / ways = setOf a)
    (alone : ∀ j, j ≠ i → (t.line j).state.valid → (t.line j).addr ≠ a.block) {b : Address}
    (apart : b.block ≠ a.block) (free : ¬ ((t.line i).state.valid ∧ (t.line i).addr = b.block)) :
    (t.write i a s).stateOf b = t.stateOf b := by
  have after := placed.write s inside alone
  cases found : t.find? b with
  | none =>
    have absent := (find?_eq_none_iff placed b).mp found
    rw [stateOf_eq_invalid placed absent]
    apply stateOf_eq_invalid after
    intro j held same
    by_cases at_j : j = i
    · subst at_j
      rw [line_write_here] at same
      exact apart same.symm
    · rw [line_write_elsewhere t a s at_j] at held same
      exact absent j held same
  | some k =>
    obtain ⟨held, same⟩ := (find?_eq_some_iff placed b k).mp found
    have other : k ≠ i := by
      rintro rfl
      exact free ⟨held, same⟩
    have kept := line_write_elsewhere t a s other
    rw [stateOf_eq_line placed held same, ← kept]
    apply stateOf_eq_line after
    · rw [kept]
      exact held
    · rw [kept]
      exact same

theorem stateOf_write (placed : t.WellPlaced) (s : LineState) (inside : i / ways = setOf a)
    (alone : ∀ j, j ≠ i → (t.line j).state.valid → (t.line j).addr ≠ a.block) (b : Address) :
    (t.write i a s).stateOf b =
      if b.block = a.block then s.settled
      else if (t.line i).state.valid ∧ (t.line i).addr = b.block then .invalid
      else t.stateOf b := by
  split
  · rename_i same
    exact stateOf_write_here placed s inside alone same
  · rename_i apart
    split
    · rename_i old
      apply stateOf_eq_invalid (placed.write s inside alone)
      intro j held same
      by_cases at_j : j = i
      · subst at_j
        rw [line_write_here] at same
        exact apart same.symm
      · rw [line_write_elsewhere t a s at_j] at held same
        exact at_j (placed.single j i held old.1 (same.trans old.2.symm))
    · rename_i free
      exact stateOf_write_elsewhere placed s inside alone apart free

end write

theorem alone_of_find? (placed : t.WellPlaced) {a : Address} {i : Nat} (found : t.find? a = some i) :
    i / ways = setOf a ∧
      ∀ j, j ≠ i → (t.line j).state.valid → (t.line j).addr ≠ a.block := by
  obtain ⟨valid, same⟩ := (find?_eq_some_iff placed a i).mp found
  refine ⟨?_, ?_⟩
  · rw [placed.set i valid, same, setOf_block]
  · intro j apart held at_j
    exact apart (placed.single j i held valid (at_j.trans same.symm))

/-- Writing the line that holds a block changes the state of that block only. -/
theorem stateOf_write_found (placed : t.WellPlaced) {a : Address} {i : Nat}
    (found : t.find? a = some i) (s : LineState) (b : Address) :
    (t.write i a s).stateOf b = if b.block = a.block then s.settled else t.stateOf b := by
  obtain ⟨inside, alone⟩ := alone_of_find? placed found
  obtain ⟨_, same⟩ := (find?_eq_some_iff placed a i).mp found
  rw [stateOf_write placed s inside alone]
  split
  · rfl
  · rename_i apart
    rw [if_neg]
    rintro ⟨_, at_b⟩
    exact apart (at_b.symm.trans same)

theorem wellPlaced_write_found (placed : t.WellPlaced) {a : Address} {i : Nat}
    (found : t.find? a = some i) (s : LineState) : (t.write i a s).WellPlaced := by
  obtain ⟨inside, alone⟩ := alone_of_find? placed found
  exact placed.write s inside alone

theorem setState_fst (t : DuplicateTags) (a : Address) (s : LineState) :
    (t.setState a s).1 = (t.stateOf a).valid := by
  rw [← find?_isSome]
  unfold setState
  split <;> simp_all

theorem WellPlaced.setState (placed : t.WellPlaced) (a : Address) (s : LineState) :
    (t.setState a s).2.WellPlaced := by
  unfold DuplicateTags.setState
  split
  · rename_i found
    exact wellPlaced_write_found placed found s
  · exact placed

theorem stateOf_setState (placed : t.WellPlaced) (a b : Address) (s : LineState) :
    (t.setState a s).2.stateOf b =
      if b.block = a.block ∧ (t.stateOf a).valid then s.settled else t.stateOf b := by
  unfold setState
  split
  · rename_i found
    have valid := valid_of_find? found
    simp only [stateOf_write_found placed found, valid, and_true]
  · rename_i missing
    have invalid : t.stateOf a = .invalid := by simp only [stateOf, missing]
    simp [invalid, LineState.invalid]

theorem WellPlaced.drop (placed : t.WellPlaced) (a : Address) : (t.drop a).2.WellPlaced := by
  unfold DuplicateTags.drop
  split
  · rename_i found
    exact wellPlaced_write_found placed found .invalid
  · exact placed

theorem stateOf_drop (placed : t.WellPlaced) (a b : Address) :
    (t.drop a).2.stateOf b = if b.block = a.block then .invalid else t.stateOf b := by
  unfold drop
  split
  · rename_i found
    rw [stateOf_write_found placed found]
    rfl
  · rename_i missing
    split
    · rename_i same
      rw [stateOf_congr t same]
      simp only [stateOf, missing]
    · rfl

theorem drop_fst (t : DuplicateTags) (a : Address) :
    (t.drop a).1 = if (t.stateOf a).valid then some (t.stateOf a) else none := by
  unfold drop
  split
  · rename_i found
    rw [if_pos (valid_of_find? found)]
    simp only [stateOf, found]
  · rename_i missing
    have invalid : t.stateOf a = .invalid := by simp only [stateOf, missing]
    simp [invalid, LineState.invalid]

theorem line_placeFor (t : DuplicateTags) (a : Address) (j : Nat) :
    (t.placeFor a).2.line j = t.line j := by
  unfold placeFor
  split <;> rfl

theorem placeFor_inside (t : DuplicateTags) (a : Address) : (t.placeFor a).1 / ways = setOf a := by
  unfold placeFor
  split
  · rename_i found
    exact (mem_set_iff a _).mp (List.mem_of_find?_eq_some found)
  · rw [← mem_set_iff, List.mem_range'_1]
    have way : (t.nextWay.get? (setOf a)).getD 0 % ways < ways := Nat.mod_lt _ (by decide)
    exact ⟨Nat.le_add_right _ _, Nat.add_lt_add_left way _⟩

theorem WellPlaced.of_lines {u : DuplicateTags} (placed : t.WellPlaced)
    (same : ∀ i, u.line i = t.line i) : u.WellPlaced := by
  constructor
  · intro i
    rw [same i]
    exact placed.set i
  · intro i
    rw [same i]
    exact placed.tag i
  · intro i
    rw [same i]
    exact placed.block i
  · intro i j
    rw [same i, same j]
    exact placed.single i j
  · intro i
    rw [same i]
    exact placed.settled i

theorem stateOf_of_lines {u : DuplicateTags} (same : ∀ i, u.line i = t.line i) (a : Address) :
    u.stateOf a = t.stateOf a := by
  simp only [stateOf, find?, same]

theorem fill_missing {a : Address} (missing : t.find? a = none) (s : LineState) :
    t.fill a s =
      (if (t.line (t.placeFor a).1).state.valid then
        some ⟨(t.line (t.placeFor a).1).addr, (t.line (t.placeFor a).1).state⟩ else none,
       (t.placeFor a).2.write (t.placeFor a).1 a s) := by
  simp only [DuplicateTags.fill, missing, line_placeFor]

structure Filled (t : DuplicateTags) (a : Address) (s : LineState) : Prop where
  placed : (t.fill a s).2.WellPlaced
  displaced : ∀ d, (t.fill a s).1 = some d →
    d.addr.block = d.addr ∧ d.addr ≠ a.block ∧ d.state = t.stateOf d.addr ∧ d.state.valid
  state : ∀ b, (t.fill a s).2.stateOf b =
    if b.block = a.block then s.settled
    else if (t.fill a s).1.map (·.addr) = some b.block then .invalid
    else t.stateOf b

theorem WellPlaced.fill (placed : t.WellPlaced) (a : Address) (s : LineState) : t.Filled a s := by
  cases found : t.find? a with
  | some i =>
    have shape : t.fill a s = (none, t.write i a s) := by simp only [DuplicateTags.fill, found]
    constructor
    · rw [shape]
      exact wellPlaced_write_found placed found s
    · intro d answer
      rw [shape] at answer
      cases answer
    · intro b
      rw [shape]
      simpa using stateOf_write_found placed found s b
  | none =>
    have absent := (find?_eq_none_iff placed a).mp found
    have lines := line_placeFor t a
    have moved : (t.placeFor a).2.WellPlaced := placed.of_lines lines
    have inside := placeFor_inside t a
    have alone : ∀ j, j ≠ (t.placeFor a).1 → ((t.placeFor a).2.line j).state.valid →
        ((t.placeFor a).2.line j).addr ≠ a.block := by
      intro j _ valid
      rw [lines] at valid ⊢
      exact absent j valid
    have shape := fill_missing found s
    constructor
    · rw [shape]
      exact moved.write s inside alone
    · intro d answer
      rw [shape] at answer
      simp only [Option.ite_none_right_eq_some, Option.some.injEq] at answer
      obtain ⟨valid, rfl⟩ := answer
      have aligned := placed.block _ valid
      exact ⟨aligned, absent _ valid, (stateOf_eq_line placed valid aligned.symm).symm, valid⟩
    · intro b
      rw [shape]
      simp only
      rw [stateOf_write moved s inside alone, stateOf_of_lines lines, lines]
      by_cases valid : (t.line (t.placeFor a).1).state.valid
      · simp [valid]
      · simp [valid]

end CacheCoherence.DuplicateTags
