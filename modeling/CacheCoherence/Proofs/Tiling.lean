import CacheCoherence.Proofs.Layout
import CacheCoherence.Proofs.Storage
import Mathlib.Data.List.Induction

namespace CacheCoherence.Memory

inductive Call
  | read (a : Address)
  | write (a : Address) (data : Block)

def call (m : Memory) : Call → Memory
  | .read _ => m
  | .write a data => (m.writeBlock a data).2

def run (regions : List Region) (calls : List Call) : Memory := calls.foldl call (contiguous regions)

def lastWrite (a : Address) (calls : List Call) : Option Block :=
  calls.reverse.findSome? fun
    | .write b data => if b.block = a.block then some data else none
    | .read _ => none

def Backs (m : Memory) (a : Address) (k : Nat) : Prop :=
  ∃ array, m.arrays[k]? = some array ∧ array.base ≤ a.block.toNat ∧
    a.block.toNat + blockSize ≤ array.base + array.size

structure Laid (m : Memory) (sizes : List Nat) : Prop where
  size : m.arrays.map (·.size) = sizes
  base : ∀ k array, m.arrays[k]? = some array → array.base = Layout.start sizes k

variable {m : Memory} {sizes : List Nat} {regions : List Region} {calls : List Call} {a b : Address}
  {j k : Nat}

theorem getElem?_arraysFrom (base : Nat) (regions : List Region) (k : Nat) :
    (arraysFrom base regions)[k]? =
      regions[k]?.map fun region => ⟨base + Layout.start (regions.map (·.size)) k, region⟩ := by
  induction regions generalizing base k with
  | nil => simp [arraysFrom]
  | cons region rest ih =>
    cases k with
    | zero => simp [arraysFrom, Layout.start]
    | succ k => simp [arraysFrom, ih, Layout.start, Nat.add_assoc]

theorem laid_contiguous (regions : List Region) : (contiguous regions).Laid (regions.map (·.size)) := by
  constructor
  · apply List.ext_getElem?
    intro k
    rw [List.getElem?_map, contiguous, getElem?_arraysFrom, Option.map_map, List.getElem?_map]
    rfl
  · intro k array present
    rw [contiguous, getElem?_arraysFrom, Option.map_eq_some_iff] at present
    obtain ⟨region, _, rfl⟩ := present
    exact Nat.zero_add _

theorem Laid.getElem?_sizes (laid : m.Laid sizes) {array : MemoryArray} (present : m.arrays[k]? = some array) :
    sizes[k]? = some array.size := by
  rw [← laid.size, List.getElem?_map, present, Option.map_some]

theorem Laid.holds (laid : m.Laid sizes) (backs : m.Backs a k) {n : Nat} (low : a.block.toNat ≤ n)
    (high : n < a.block.toNat + blockSize) : Layout.Holds sizes k n := by
  obtain ⟨array, present, first, last⟩ := backs
  rw [laid.base k array present] at first last
  exact ⟨array.size, laid.getElem?_sizes present, by omega, by omega⟩

theorem Laid.backs_unique (laid : m.Laid sizes) (first : m.Backs a j) (second : m.Backs a k) : j = k :=
  (laid.holds first (Nat.le_refl _) (Nat.lt_add_of_pos_right (by decide))).unique
    (laid.holds second (Nat.le_refl _) (Nat.lt_add_of_pos_right (by decide)))

theorem backs_iff (m : Memory) (a : Address) (k : Nat) :
    m.Backs a k ↔ ∃ array, m.arrays[k]? = some array ∧ array.contains a := by
  simp [Backs, MemoryArray.contains]

theorem Laid.route_iff (laid : m.Laid sizes) (a : Address) (k : Nat) :
    m.route a = some k ↔ a.isIo = false ∧ m.Backs a k := by
  unfold route
  split
  · rename_i io
    simp [io]
  · rename_i memory
    have ordinary : a.isIo = false := by simpa using memory
    rw [List.findIdx?_eq_some_iff_getElem]
    constructor
    · rintro ⟨inside, holds, _⟩
      exact ⟨ordinary, (backs_iff m a k).mpr ⟨_, List.getElem?_eq_getElem inside, holds⟩⟩
    · rintro ⟨_, backs⟩
      obtain ⟨array, present, holds⟩ := (backs_iff m a k).mp backs
      obtain ⟨inside, rfl⟩ := List.getElem?_eq_some_iff.mp present
      refine ⟨inside, holds, fun j lower earlier => ?_⟩
      have also : m.Backs a j := (backs_iff m a j).mpr ⟨_, List.getElem?_eq_getElem _, earlier⟩
      exact absurd (laid.backs_unique also backs) (Nat.ne_of_lt lower)

theorem Laid.tiles (laid : m.Laid sizes) {n : Nat} (inside : n < sizes.sum) :
    ∃! k : Nat, ∃ array : MemoryArray, m.arrays[k]? = some array ∧ array.base ≤ n ∧
      n < array.base + array.size := by
  have same (k : Nat) :
      (∃ array, m.arrays[k]? = some array ∧ array.base ≤ n ∧ n < array.base + array.size) ↔
        Layout.Holds sizes k n := by
    constructor
    · rintro ⟨array, present, low, high⟩
      rw [laid.base k array present] at low high
      exact ⟨array.size, laid.getElem?_sizes present, low, high⟩
    · rintro ⟨size, piece, low, high⟩
      rw [← laid.size, List.getElem?_map, Option.map_eq_some_iff] at piece
      obtain ⟨array, present, rfl⟩ := piece
      rw [← laid.base k array present] at low high
      exact ⟨array, present, low, high⟩
  obtain ⟨k, holds⟩ := Layout.exists_holds inside
  exact ⟨k, (same k).mpr holds, fun j other => ((same j).mp other).unique holds⟩

/-- The block of an address outside the I/O space ends below the last address. -/
theorem block_end_lt (memory : a.isIo = false) : a.block.toNat + blockSize < 2 ^ 64 := by
  have bound : a.toNat < 2 ^ 64 := a.raw.toNat_lt
  rw [isIo_eq_testBit, Nat.testBit_eq_decide_div_mod_eq, decide_eq_false_iff_not] at memory
  rw [Address.toNat_block, blockSize]
  omega

def overwrite (a : Address) (data : Block) (array : MemoryArray) : MemoryArray :=
  { array with region := array.region.writeBlock (array.offset a) data }

theorem size_overwrite (a : Address) (data : Block) (array : MemoryArray) :
    (overwrite a data array).size = array.size :=
  Region.size_writeBlock ..

theorem base_overwrite (a : Address) (data : Block) (array : MemoryArray) :
    (overwrite a data array).base = array.base := by
  simp only [overwrite]

theorem writeBlock_refused (refused : m.route a = none) (data : Block) : m.writeBlock a data = (false, m) := by
  simp only [writeBlock, refused]

theorem getElem?_writeBlock (m : Memory) (a : Address) (data : Block) (k : Nat) :
    (m.writeBlock a data).2.arrays[k]? =
      m.arrays[k]?.map fun array => if m.route a = some k then overwrite a data array else array := by
  cases found : m.route a with
  | none => simp [writeBlock_refused found]
  | some i =>
    simp only [writeBlock, found, List.getElem?_modify, Option.some.injEq]
    by_cases here : i = k
    · simp [here, overwrite]
    · simp [here]

theorem Laid.writeBlock (laid : m.Laid sizes) (a : Address) (data : Block) :
    (m.writeBlock a data).2.Laid sizes := by
  constructor
  · rw [← laid.size]
    apply List.ext_getElem?
    intro k
    rw [List.getElem?_map, List.getElem?_map, getElem?_writeBlock, Option.map_map]
    congr 1
    funext array
    simp only [Function.comp_apply]
    split
    · exact size_overwrite a data array
    · rfl
  · intro k array present
    rw [getElem?_writeBlock, Option.map_eq_some_iff] at present
    obtain ⟨old, present, rfl⟩ := present
    have same := laid.base k old present
    split
    · rw [base_overwrite, same]
    · exact same

theorem run_append (regions : List Region) (calls : List Call) (x : Call) :
    run regions (calls ++ [x]) = (run regions calls).call x := List.foldl_append

theorem laid_run (regions : List Region) (calls : List Call) :
    (run regions calls).Laid (regions.map (·.size)) := by
  induction calls using List.reverseRecOn with
  | nil => exact laid_contiguous regions
  | append_singleton earlier x ih =>
    rw [run_append]
    cases x with
    | read a => exact ih
    | write a data => exact ih.writeBlock a data

theorem contains_run (regions : List Region) (calls : List Call) (a : Address) :
    (run regions calls).contains a = (contiguous regions).contains a := by
  induction calls using List.reverseRecOn with
  | nil => rfl
  | append_singleton earlier x ih =>
    rw [run_append]
    cases x with
    | read a => exact ih
    | write b data => rw [call, contains_writeBlock, ih]

@[simp] theorem lastWrite_read (a b : Address) (calls : List Call) :
    lastWrite a (calls ++ [.read b]) = lastWrite a calls := by
  simp [lastWrite]

theorem lastWrite_write (a b : Address) (data : Block) (calls : List Call) :
    lastWrite a (calls ++ [.write b data]) =
      if b.block = a.block then some data else lastWrite a calls := by
  simp only [lastWrite, List.reverse_append, List.reverse_singleton, List.singleton_append,
    List.findSome?_cons]
  split <;> simp_all

theorem readBlock_run (regions : List Region) (calls : List Call) (a : Address) :
    (run regions calls).readBlock a =
      ((contiguous regions).readBlock a).map fun old => (lastWrite a calls).getD old := by
  induction calls using List.reverseRecOn with
  | nil => simp [run, lastWrite]
  | append_singleton earlier x ih =>
    rw [run_append]
    cases x with
    | read b => rw [call, ih, lastWrite_read]
    | write b data =>
      rw [call, lastWrite_write]
      by_cases backed : (run regions earlier).contains b
      · rw [readBlock_writeBlock _ backed, ih]
        by_cases same : b.block = a.block
        · have held : ((contiguous regions).readBlock a).isSome := by
            rw [readBlock_isSome, ← contains_congr _ same, ← contains_run regions earlier]
            exact backed
          obtain ⟨old, present⟩ := Option.isSome_iff_exists.mp held
          simp [same, present]
        · simp [same, Ne.symm same]
      · have missing : (run regions earlier).route b = none := by simpa [contains] using backed
        rw [writeBlock_refused missing, ih]
        by_cases same : b.block = a.block
        · have absent : (contiguous regions).readBlock a = none := by
            rw [← Option.isSome_eq_false_iff.trans Option.isNone_iff_eq_none, readBlock_isSome,
              ← contains_congr _ same, ← contains_run regions earlier]
            simpa using backed
          rw [absent]
          rfl
        · rw [if_neg same]

/-- Region `k` after the calls: still the same, and each of its bytes as the last write to its block left it, or
as it was if the block is not backed or was not written. -/
structure Carries (regions : List Region) (calls : List Call) (k : Nat) (region after : Region) : Prop where
  id : after.id = region.id
  use : after.use = region.use
  byte : ∀ j < region.size, ∀ a : Address, a.toNat = Layout.start (regions.map (·.size)) k + j →
    after.get j =
      if (contiguous regions).contains a then
        ((lastWrite a calls).map (·.get ⟨a.offset, a.offset_lt⟩)).getD (region.get j)
      else region.get j

/-- An array that is not written to is not concerned, whichever block it was. -/
theorem Carries.write_elsewhere {region after : Region} (carries : Carries regions calls k region after)
    (apart : ∀ j < region.size, ∀ b : Address, b.toNat = Layout.start (regions.map (·.size)) k + j →
      (contiguous regions).contains b → a.block ≠ b.block) (data : Block) :
    Carries regions (calls ++ [.write a data]) k region after := by
  refine ⟨carries.id, carries.use, fun j inside b place => ?_⟩
  rw [carries.byte j inside b place]
  split
  · rename_i backed
    rw [lastWrite_write, if_neg (apart j inside b place backed)]
  · rfl

theorem Carries.write_here {region : Region} {array : MemoryArray}
    (carries : Carries regions calls k region array.region)
    (base : array.base = Layout.start (regions.map (·.size)) k) (holds : array.contains a)
    (backed : (contiguous regions).contains a) (data : Block) :
    Carries regions (calls ++ [.write a data]) k region (overwrite a data array).region := by
  obtain ⟨use, id⟩ := array.region.identity_writeBlock (array.offset a) data
  simp only [overwrite]
  refine ⟨id.trans carries.id, use.trans carries.use, fun j inside b place => ?_⟩
  simp only [MemoryArray.contains, Bool.and_eq_true, decide_eq_true_eq] at holds
  have offset : array.offset a + array.base = a.block.toNat := Nat.sub_add_cancel holds.1
  have window : (array.offset a ≤ j ∧ j < array.offset a + 64) ↔ a.block = b.block := by
    rw [Address.block_eq_iff]
    rw [Address.toNat_block] at offset
    omega
  rw [Region.get_writeBlock]
  by_cases same : a.block = b.block
  · have position : j - array.offset a = b.offset := by
      have low := (window.mpr same).1
      have number := (Address.block_eq_iff a b).mp same
      rw [Address.toNat_block] at offset
      simp only [Address.offset, blockSize]
      omega
    have also : (contiguous regions).contains b := by rwa [← contains_congr _ same]
    rw [dif_pos (window.mpr same), lastWrite_write, if_pos same, if_pos also, Option.map_some, Option.getD_some]
    simp only [position]
  · rw [dif_neg (mt window.mp same), carries.byte j inside b place, lastWrite_write, if_neg same]

theorem carries_run (calls : List Call) {k : Nat} {region : Region} (present : regions[k]? = some region) :
    ∃ array, (run regions calls).arrays[k]? = some array ∧ Carries regions calls k region array.region := by
  induction calls using List.reverseRecOn with
  | nil =>
    refine ⟨_, by rw [run, List.foldl_nil, contiguous, getElem?_arraysFrom, present]; rfl, rfl, rfl, ?_⟩
    intro j _ a _
    simp [lastWrite]
  | append_singleton earlier x ih =>
    obtain ⟨array, standing, carries⟩ := ih
    rw [run_append]
    cases x with
    | read a => exact ⟨array, standing, carries.id, carries.use, by simpa using carries.byte⟩
    | write a data =>
      have laid := laid_run regions earlier
      rw [call, getElem?_writeBlock, standing, Option.map_some]
      refine ⟨_, rfl, ?_⟩
      split
      · rename_i found
        obtain ⟨_, same, holds⟩ := (backs_iff _ a k).mp ((laid.route_iff a k).mp found).2
        rw [standing, Option.some.injEq] at same
        subst same
        apply carries.write_here (laid.base k array standing) holds
        rw [← contains_run regions earlier, contains, found, Option.isSome_some]
      · rename_i elsewhere
        apply carries.write_elsewhere
        intro j inside b place backed same
        -- the byte lies in array `k`, and so would the whole block that is written
        have written : (run regions earlier).contains a := by
          rw [contains_run, contains_congr _ same]
          exact backed
        obtain ⟨i, found⟩ := Option.isSome_iff_exists.mp written
        have number := (Address.block_eq_iff a b).mp same
        have there : Layout.Holds (regions.map (·.size)) i b.toNat := by
          apply laid.holds ((laid.route_iff a i).mp found).2
          · rw [Address.toNat_block]
            omega
          · rw [Address.toNat_block, blockSize]
            omega
        have here : Layout.Holds (regions.map (·.size)) k b.toNat := by
          refine ⟨region.size, by rw [List.getElem?_map, present, Option.map_some], ?_, ?_⟩
          · omega
          · omega
        rw [there.unique here] at found
        exact elsewhere found

/-- Memory is a map from blocks to data, kept in the regions that it was laid over. -/
structure Faithful (regions : List Region) (calls : List Call) (m : Memory) : Prop where
  laid : m.Laid (regions.map (·.size))
  tiles : ∀ n < (regions.map (·.size)).sum, ∃! k : Nat, ∃ array : MemoryArray,
    m.arrays[k]? = some array ∧ array.base ≤ n ∧ n < array.base + array.size
  small : ∀ array ∈ m.arrays, array.base + array.size < 2 ^ 64
  low : ∀ a : Address, a.isIo = false → a.block.toNat + blockSize < 2 ^ 64
  route : ∀ a k, m.route a = some k ↔ a.isIo = false ∧ m.Backs a k
  single : ∀ a j k, m.Backs a j → m.Backs a k → j = k
  inside : ∀ a k array, m.route a = some k → m.arrays[k]? = some array →
    array.base ≤ a.block.toNat ∧ array.offset a + blockSize ≤ array.size
  reads : ∀ a, (m.readBlock a).isSome = (m.route a).isSome
  writes : ∀ a data, (m.writeBlock a data).1 = (m.route a).isSome
  stored : ∀ a data, (m.writeBlock a data).1 = true → ∀ b,
    (m.writeBlock a data).2.readBlock b = if b.block = a.block then some data else m.readBlock b
  refused : ∀ a data, (m.writeBlock a data).1 = false → (m.writeBlock a data).2 = m
  read : ∀ a, m.readBlock a = ((contiguous regions).readBlock a).map fun old => (lastWrite a calls).getD old
  count : m.takeRegions.1.length = regions.length
  taken : ∀ k region, regions[k]? = some region →
    ∃ after, m.takeRegions.1[k]? = some after ∧ Carries regions calls k region after
  emptied : m.takeRegions.2.arrays = []

/-- So it is over any regions whose sizes add up to an address, and after any reads and writes. -/
theorem faithful_run_regions (regions : List Region) (calls : List Call)
    (fits : (regions.map (·.size)).sum < 2 ^ 64) : Faithful regions calls (run regions calls) := by
  have laid := laid_run regions calls
  constructor
  · exact laid
  · intro n
    exact laid.tiles
  · intro array member
    obtain ⟨k, present⟩ := List.getElem?_of_mem member
    rw [laid.base k array present]
    exact Nat.lt_of_le_of_lt (Layout.end_le_sum (laid.getElem?_sizes present)) fits
  · intro a
    exact block_end_lt
  · exact laid.route_iff
  · intro a j k
    exact laid.backs_unique
  · intro a k array found present
    obtain ⟨_, same, first, last⟩ := ((laid.route_iff a k).mp found).2
    rw [present, Option.some.injEq] at same
    subst same
    refine ⟨first, ?_⟩
    simp only [MemoryArray.offset]
    omega
  · exact readBlock_isSome _
  · exact writeBlock_fst _
  · intro a data done b
    rw [writeBlock_fst] at done
    exact readBlock_writeBlock _ done b data
  · intro a data refused
    rw [writeBlock_fst, contains, Option.isSome_eq_false_iff, Option.isNone_iff_eq_none] at refused
    rw [writeBlock_refused refused]
  · exact readBlock_run regions calls
  · have sizes := congrArg List.length laid.size
    simpa [takeRegions] using sizes
  · intro k region present
    obtain ⟨array, standing, carries⟩ := carries_run calls present
    exact ⟨array.region, by simp [takeRegions, standing], carries⟩
  · rfl

/-- Arrays of 100, 0 and 156 bytes, so the second block lies across a bound. -/
def uneven : List Region :=
  [.zeroed 0 (.memoryArray 0 100), .zeroed 1 (.memoryArray 1 0), .zeroed 2 (.memoryArray 2 156)]

def unevenCalls : List Call := [.write ⟨0x88⟩ (Vector.replicate 64 7), .write ⟨0x40⟩ .zero, .read ⟨0xbf⟩]

theorem faithful_run_uneven :
    (uneven.map (·.size)).sum < 2 ^ 64 ∧ Faithful uneven unevenCalls (run uneven unevenCalls) ∧
      [0, 0x40, 0x80, 0xc0, 0x100].map (fun a => (run uneven unevenCalls).route ⟨a⟩) =
        [some 0, none, some 2, some 2, none] :=
  ⟨by decide, faithful_run_regions uneven unevenCalls (by decide), by decide⟩

end CacheCoherence.Memory
