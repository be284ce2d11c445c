import CacheCoherence.Memory
import Mathlib.Data.Nat.Bitwise

namespace CacheCoherence

namespace Region

/-- A byte after bytes of the block are set: the place that it stands at, if it is among them. -/
theorem get_foldl_set (offset : Nat) (data : Block) (places : List (Fin 64)) (r : Region) (j : Nat) :
    (places.foldl (fun r (i : Fin 64) => r.set (offset + i) (data.get i)) r).get j =
      ((places.find? fun i => offset + i.val == j).map data.get).getD (r.get j) := by
  induction places generalizing r with
  | nil => rfl
  | cons i rest ih =>
    rw [List.foldl_cons, ih, get_set, List.find?_cons]
    by_cases here : offset + i.val = j
    · rw [if_pos here, beq_iff_eq.mpr here]
      cases later : rest.find? fun k => offset + k.val == j with
      | none => rfl
      | some k =>
        have there : offset + k.val = j := by simpa using List.find?_some later
        obtain rfl : k = i := Fin.ext (by omega)
        rfl
    · rw [if_neg here, beq_eq_false_iff_ne.mpr here]

theorem get_writeBlock (r : Region) (offset : Nat) (data : Block) (j : Nat) :
    (r.writeBlock offset data).get j =
      if inside : offset ≤ j ∧ j < offset + 64 then data.get ⟨j - offset, by omega⟩ else r.get j := by
  rw [writeBlock, get_foldl_set]
  cases found : (List.finRange 64).find? fun i => offset + i.val == j with
  | none =>
    have outside : ¬ (offset ≤ j ∧ j < offset + 64) := by
      rintro ⟨low, high⟩
      have missed := List.find?_eq_none.mp found ⟨j - offset, by omega⟩ (List.mem_finRange _)
      exact missed (beq_iff_eq.mpr (Nat.add_sub_cancel' low))
    rw [dif_neg outside]
    rfl
  | some i =>
    have here : offset + i.val = j := by simpa using List.find?_some found
    have place : j - offset = i.val := by omega
    rw [dif_pos ⟨by omega, by omega⟩]
    simp only [place]
    rfl

theorem identity_writeBlock (r : Region) (offset : Nat) (data : Block) :
    (r.writeBlock offset data).use = r.use ∧ (r.writeBlock offset data).id = r.id := by
  have kept (places : List (Fin 64)) (r : Region) :
      (places.foldl (fun r (i : Fin 64) => r.set (offset + i) (data.get i)) r).use = r.use ∧
        (places.foldl (fun r (i : Fin 64) => r.set (offset + i) (data.get i)) r).id = r.id := by
    induction places generalizing r with
    | nil => exact ⟨rfl, rfl⟩
    | cons i rest ih => exact ih (r.set (offset + i) (data.get i))
  exact kept _ r

theorem size_writeBlock (r : Region) (offset : Nat) (data : Block) :
    (r.writeBlock offset data).size = r.size := by
  rw [size, size, (r.identity_writeBlock offset data).1]

theorem readBlock_writeBlock_same (r : Region) (offset : Nat) (data : Block) :
    (r.writeBlock offset data).readBlock offset = data := by
  apply Vector.ext
  intro i bound
  simp only [readBlock, get_writeBlock, Vector.getElem_ofFn, Nat.le_add_right, Nat.add_lt_add_iff_left,
    bound, and_self, dite_true, Nat.add_sub_cancel_left]
  rfl

theorem readBlock_writeBlock_apart (r : Region) {offset other : Nat} (data : Block)
    (apart : offset + 64 ≤ other ∨ other + 64 ≤ offset) :
    (r.writeBlock offset data).readBlock other = r.readBlock other := by
  apply Vector.ext
  intro i bound
  have outside : ¬ (offset ≤ other + i ∧ other + i < offset + 64) := by omega
  simp [readBlock, get_writeBlock, outside]

end Region

theorem findIdx?_modify {α : Type} (p : α → Bool) (f : α → α) (kept : ∀ x, p (f x) = p x)
    (xs : List α) (i : Nat) : (xs.modify i f).findIdx? p = xs.findIdx? p := by
  induction xs generalizing i with
  | nil => cases i <;> rfl
  | cons x rest ih =>
    cases i with
    | zero => simp [List.findIdx?_cons, kept]
    | succ i => simp [List.findIdx?_cons, ih]

namespace Memory

variable {m : Memory}

theorem writeBlock_fst (m : Memory) (a : Address) (data : Block) :
    (m.writeBlock a data).1 = m.contains a := by
  unfold writeBlock contains
  cases m.route a <;> rfl

theorem route_writeBlock (m : Memory) (a b : Address) (data : Block) :
    (m.writeBlock a data).2.route b = m.route b := by
  unfold writeBlock
  split
  · rfl
  · unfold route
    split
    · rfl
    · apply findIdx?_modify
      intro array
      simp [MemoryArray.contains, MemoryArray.size, Region.size_writeBlock]

theorem contains_writeBlock (m : Memory) (a b : Address) (data : Block) :
    (m.writeBlock a data).2.contains b = m.contains b := by
  simp only [contains, route_writeBlock]

theorem isIo_eq_testBit (a : Address) : a.isIo = a.toNat.testBit 43 := by
  have masked : (a.raw &&& ioBit).toNat = (a.toNat.testBit 43).toNat * 2 ^ 43 := by
    rw [UInt64.toNat_and, ← Nat.and_two_pow]
    rfl
  cases bit : a.toNat.testBit 43 with
  | false =>
    have zero : a.raw &&& ioBit = 0 := UInt64.toNat_inj.mp (by rw [masked, bit]; rfl)
    simp [Address.isIo, zero]
  | true =>
    have other : a.raw &&& ioBit ≠ 0 := by
      intro zero
      rw [bit, zero] at masked
      cases masked
    simp [Address.isIo, other]

theorem isIo_block (a : Address) : a.block.isIo = a.isIo := by
  have shifted : a.toNat / 64 * 64 = a.toNat / 2 ^ 6 * 2 ^ 6 := rfl
  rw [isIo_eq_testBit, isIo_eq_testBit, Address.toNat_block, shifted, Nat.testBit_mul_two_pow,
    Nat.testBit_div_two_pow]
  simp

theorem route_congr (m : Memory) {a b : Address} (same : a.block = b.block) :
    m.route a = m.route b := by
  have io : a.isIo = b.isIo := by rw [← isIo_block a, same, isIo_block]
  simp only [route, io, MemoryArray.contains, same]

theorem contains_congr (m : Memory) {a b : Address} (same : a.block = b.block) :
    m.contains a = m.contains b := by
  simp only [contains, route_congr m same]

theorem readBlock_congr (m : Memory) {a b : Address} (same : a.block = b.block) :
    m.readBlock a = m.readBlock b := by
  simp only [readBlock, route_congr m same, MemoryArray.offset, same]

theorem isIo_of_contains {a : Address} (backed : m.contains a) : a.isIo = false := by
  cases io : a.isIo with
  | false => rfl
  | true => simp [contains, route, io] at backed

theorem readBlock_isSome (m : Memory) (a : Address) : (m.readBlock a).isSome = m.contains a := by
  unfold readBlock contains
  cases found : m.route a with
  | none => rfl
  | some i =>
    simp only [route] at found
    split at found
    · cases found
    · obtain ⟨inside, _⟩ := List.findIdx?_eq_some_iff_getElem.mp found
      simp [List.getElem?_eq_getElem inside]

theorem blocks_apart {a b : Address} (apart : b.block ≠ a.block) :
    a.block.toNat + 64 ≤ b.block.toNat ∨ b.block.toNat + 64 ≤ a.block.toNat := by
  have other : b.block.toNat ≠ a.block.toNat := fun same => apart (Address.toNat_inj.mp same)
  rw [Address.toNat_block, Address.toNat_block] at other ⊢
  omega

theorem readBlock_writeBlock (m : Memory) {a : Address} (backed : m.contains a) (b : Address)
    (data : Block) :
    (m.writeBlock a data).2.readBlock b = if b.block = a.block then some data else m.readBlock b := by
  obtain ⟨i, found⟩ := Option.isSome_iff_exists.mp backed
  have shape : (m.writeBlock a data).2.arrays = m.arrays.modify i fun array =>
      { array with region := array.region.writeBlock (array.offset a) data } := by
    simp only [writeBlock, found]
  have place (c : Address) (j : Nat) (at_j : m.route c = some j) :
      ∃ array, m.arrays[j]? = some array ∧ array.base ≤ c.block.toNat := by
    simp only [route] at at_j
    split at at_j
    · cases at_j
    · obtain ⟨inside, holds, _⟩ := List.findIdx?_eq_some_iff_getElem.mp at_j
      refine ⟨m.arrays[j], List.getElem?_eq_getElem inside, ?_⟩
      simp only [MemoryArray.contains, Bool.and_eq_true, decide_eq_true_eq] at holds
      exact holds.1
  simp only [readBlock, route_writeBlock, shape]
  by_cases same : b.block = a.block
  · rw [if_pos same, route_congr m same, found]
    obtain ⟨array, present, _⟩ := place a i found
    simp only [List.getElem?_modify, present, if_true, Option.map_eq_map, Option.map_some]
    have here : MemoryArray.offset
        { array with region := array.region.writeBlock (array.offset a) data } b =
        array.offset a := by
      simp only [MemoryArray.offset, same]
    rw [here, Region.readBlock_writeBlock_same]
  · rw [if_neg same]
    cases other : m.route b with
    | none => rfl
    | some j =>
      obtain ⟨array, present, low⟩ := place b j other
      simp only [List.getElem?_modify, present]
      by_cases here : i = j
      · subst here
        obtain ⟨_, standing, base⟩ := place a i found
        rw [present] at standing
        cases standing
        have far : array.offset a + 64 ≤ array.offset b ∨ array.offset b + 64 ≤ array.offset a := by
          have gap := blocks_apart same
          simp only [MemoryArray.offset]
          omega
        have there : MemoryArray.offset
            { array with region := array.region.writeBlock (array.offset a) data } b =
            array.offset b := by
          simp only [MemoryArray.offset]
        simp only [if_true, Option.map_eq_map, Option.map_some]
        rw [there, Region.readBlock_writeBlock_apart array.region data far]
      · simp [here]

end Memory
end CacheCoherence
