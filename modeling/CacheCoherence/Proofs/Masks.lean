import CacheCoherence.Block
import Mathlib.Data.Nat.Bitwise

namespace CacheCoherence

def shiftLeft? (x : UInt64) (n : Nat) : Option UInt64 := if n < 64 then some (x <<< n.toUInt64) else none

def shiftRight? (x : UInt64) (n : Nat) : Option UInt64 := if n < 64 then some (x >>> n.toUInt64) else none

def shiftLane? (x : UInt8) (n : Nat) : Option UInt8 := if n < 8 then some (x <<< n.toUInt8) else none

def byteMask? (offset length : Nat) : Option UInt64 :=
  if length = 0 ∨ blockSize ≤ offset then some 0
  else do
    let width := clippedEnd offset length - offset
    let ones ← if width = blockSize then some 0xffffffffffffffff else (shiftLeft? 1 width).map (· - 1)
    shiftLeft? ones offset

def laneMask? (offset length : Nat) : Option UInt8 :=
  if length = 0 ∨ blockSize ≤ offset then some 0
  else
    let first := offset / laneSize
    let last := (clippedEnd offset length - 1) / laneSize
    (List.range' first (last + 1 - first)).foldlM
      (fun mask lane => (shiftLane? 1 lane).map (mask ||| ·)) 0

/-- `mask` names the lanes of the bytes that `written` names. -/
def Lanes (mask : UInt8) (written : UInt64) : Prop :=
  ∀ l, mask.toNat.testBit l = true ↔ ∃ n, 8 * l ≤ n ∧ n ≤ 8 * l + 7 ∧ written.toNat.testBit n = true

theorem lt_of_testBit {x n j : Nat} (small : x < 2 ^ n) (set : x.testBit j) : j < n :=
  (Nat.pow_lt_pow_iff_right (by decide)).mp (Nat.lt_of_le_of_lt (Nat.ge_two_pow_of_testBit set) small)

theorem toNat_toUInt64_mod {n : Nat} (small : n < 64) : n.toUInt64.toNat % 64 = n := by
  rw [Nat.toUInt64, UInt64.toNat_ofNat', Nat.mod_mod_of_dvd _ (by decide)]
  exact Nat.mod_eq_of_lt small

theorem testBit_shiftLeft (x : UInt64) {n : Nat} (small : n < 64) (j : Nat) :
    (x <<< n.toUInt64).toNat.testBit j = (decide (j < 64) && decide (n ≤ j) && x.toNat.testBit (j - n)) := by
  rw [UInt64.toNat_shiftLeft, toNat_toUInt64_mod small, Nat.testBit_mod_two_pow, Nat.testBit_shiftLeft,
    Bool.and_assoc]

theorem testBit_shiftRight (x : UInt64) {n : Nat} (small : n < 64) (j : Nat) :
    (x >>> n.toUInt64).toNat.testBit j = x.toNat.testBit (n + j) := by
  rw [UInt64.toNat_shiftRight, toNat_toUInt64_mod small, Nat.testBit_shiftRight]

theorem toNat_ones {width : Nat} (bound : width < 64) :
    ((1 <<< width.toUInt64) - 1 : UInt64).toNat = 2 ^ width - 1 := by
  have power : (1 <<< width.toUInt64 : UInt64).toNat = 2 ^ width := by
    rw [UInt64.toNat_shiftLeft, toNat_toUInt64_mod bound, Nat.shiftLeft_eq, UInt64.toNat_one,
      Nat.one_mul, Nat.mod_eq_of_lt (Nat.pow_lt_pow_right (by decide) bound)]
  rw [UInt64.toNat_sub_of_le]
  · rw [power, UInt64.toNat_one]
  · rw [UInt64.le_iff_toNat_le, power, UInt64.toNat_one]
    exact Nat.one_le_two_pow

theorem testBit_byteMask (offset length i : Nat) :
    (byteMask offset length).toNat.testBit i = decide (offset ≤ i ∧ i < offset + length ∧ i < 64) := by
  unfold byteMask
  split
  · rename_i outside
    rw [UInt64.toNat_zero, Nat.zero_testBit, eq_comm, decide_eq_false_iff_not]
    simp only [blockSize] at outside
    omega
  · rename_i inside
    simp only [blockSize, not_or, Nat.not_le] at inside
    have width : clippedEnd offset length - offset = min length (64 - offset) := by
      simp only [clippedEnd, blockSize]
      omega
    have ones : (if min length (64 - offset) = blockSize then 0xffffffffffffffff
        else (1 <<< (min length (64 - offset)).toUInt64) - 1 : UInt64).toNat =
          2 ^ min length (64 - offset) - 1 := by
      split
      · rename_i whole
        rw [whole]
        rfl
      · rename_i part
        exact toNat_ones (by simp only [blockSize] at part; omega)
    simp only [width]
    rw [testBit_shiftLeft _ inside.2, ones, Nat.testBit_two_pow_sub_one, ← Bool.decide_and,
      ← Bool.decide_and, decide_eq_decide]
    omega

theorem testBit_shiftLane {lane : Nat} (small : lane < 8) (l : Nat) :
    ((1 : UInt8) <<< lane.toUInt8).toNat.testBit l = decide (lane = l) := by
  have power : ((1 : UInt8) <<< lane.toUInt8).toNat = 2 ^ lane := by
    have low : lane.toUInt8.toNat % 8 = lane := by
      rw [Nat.toUInt8, UInt8.toNat_ofNat', Nat.mod_mod_of_dvd _ (by decide)]
      exact Nat.mod_eq_of_lt small
    rw [UInt8.toNat_shiftLeft, low, Nat.shiftLeft_eq, UInt8.toNat_one, Nat.one_mul,
      Nat.mod_eq_of_lt (Nat.pow_lt_pow_right (by decide) small)]
  rw [power, Nat.testBit_two_pow]

theorem testBit_foldl_lanes {lanes : List Nat} (few : ∀ lane ∈ lanes, lane < 8) (mask : UInt8) (l : Nat) :
    (lanes.foldl (fun mask lane => mask ||| ((1 : UInt8) <<< lane.toUInt8)) mask).toNat.testBit l =
      (mask.toNat.testBit l || decide (l ∈ lanes)) := by
  induction lanes generalizing mask with
  | nil => simp
  | cons lane rest ih =>
    rw [List.foldl_cons, ih fun x member => few x (List.mem_cons_of_mem _ member), UInt8.toNat_or,
      Nat.testBit_or, testBit_shiftLane (few lane List.mem_cons_self), Bool.or_assoc, ← Bool.decide_or]
    simp only [List.mem_cons, eq_comm]

theorem mem_lanes {offset length : Nat} (inside : ¬ (length = 0 ∨ blockSize ≤ offset)) (l : Nat) :
    l ∈ List.range' (offset / laneSize)
        ((clippedEnd offset length - 1) / laneSize + 1 - offset / laneSize) ↔
      offset / 8 ≤ l ∧ 8 * l < offset + length ∧ l < 8 := by
  simp only [blockSize, not_or, Nat.not_le] at inside
  simp only [List.mem_range'_1, clippedEnd, blockSize, laneSize]
  omega

theorem testBit_laneMask (offset length l : Nat) :
    (laneMask offset length).toNat.testBit l =
      decide (0 < length ∧ offset / 8 ≤ l ∧ 8 * l < offset + length ∧ l < 8) := by
  unfold laneMask
  split
  · rename_i outside
    rw [UInt8.toNat_zero, Nat.zero_testBit, eq_comm, decide_eq_false_iff_not]
    simp only [blockSize] at outside
    omega
  · rename_i inside
    have lane := mem_lanes inside
    simp only
    rw [testBit_foldl_lanes fun l member => ((lane l).mp member).2.2, UInt8.toNat_zero, Nat.zero_testBit,
      Bool.false_or, decide_eq_decide, lane]
    simp only [not_or] at inside
    omega

theorem lanes_laneMask (offset length : Nat) : Lanes (laneMask offset length) (byteMask offset length) := by
  intro l
  simp only [testBit_laneMask, testBit_byteMask, decide_eq_true_eq]
  constructor
  · intro touched
    exact ⟨max offset (8 * l), by omega⟩
  · rintro ⟨n, first, last, named⟩
    omega

theorem byteMask?_eq (offset length : Nat) : byteMask? offset length = some (byteMask offset length) := by
  unfold byteMask? byteMask
  split
  · rfl
  · rename_i inside
    simp only [blockSize, not_or, Nat.not_le] at inside
    have start (x : UInt64) : shiftLeft? x offset = some (x <<< offset.toUInt64) := if_pos inside.2
    simp only [start]
    split
    · rfl
    · rename_i part
      have narrow : clippedEnd offset length - offset < 64 := by
        simp only [clippedEnd, blockSize] at part ⊢
        omega
      rw [shiftLeft?, if_pos narrow]
      rfl

theorem laneMask?_eq (offset length : Nat) : laneMask? offset length = some (laneMask offset length) := by
  have folds (lanes : List Nat) (few : ∀ lane ∈ lanes, lane < 8) (mask : UInt8) :
      lanes.foldlM (fun mask lane => (shiftLane? 1 lane).map (mask ||| ·)) mask =
        some (lanes.foldl (fun mask lane => mask ||| ((1 : UInt8) <<< lane.toUInt8)) mask) := by
    induction lanes generalizing mask with
    | nil => rfl
    | cons lane rest ih =>
      rw [List.foldlM_cons, shiftLane?, if_pos (few lane List.mem_cons_self)]
      exact ih (fun x member => few x (List.mem_cons_of_mem _ member)) _
  unfold laneMask? laneMask
  split
  · rfl
  · rename_i inside
    exact folds _ (fun l member => ((mem_lanes inside l).mp member).2.2) 0

theorem Lanes.or {mask other : UInt8} {written more : UInt64} (first : Lanes mask written)
    (rest : Lanes other more) : Lanes (mask ||| other) (written ||| more) := by
  intro l
  simp only [UInt8.toNat_or, UInt64.toNat_or, Nat.testBit_or, Bool.or_eq_true, first l, rest l]
  constructor
  · rintro (⟨n, low, high, named⟩ | ⟨n, low, high, named⟩)
    · exact ⟨n, low, high, .inl named⟩
    · exact ⟨n, low, high, .inr named⟩
  · rintro ⟨n, low, high, named | named⟩
    · exact .inl ⟨n, low, high, named⟩
    · exact .inr ⟨n, low, high, named⟩

end CacheCoherence
