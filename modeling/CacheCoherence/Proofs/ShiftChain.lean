import CacheCoherence.Proofs.Layout
import CacheCoherence.Proofs.Masks
import CacheCoherence.Registers

/-! The shift chain as a string of bits. The fields lie end to end from bit 0, so every bit before the end
of the chain belongs to one field. Packing puts the bits of a field's value in the place of the field, and
unpacking takes them from there, also where a field goes on in the next word. -/

namespace CacheCoherence

namespace Field

def widths : List Nat := chain.map (·.2)

def covers (f : Field) (i : Nat) : Bool := f.offset ≤ i && i < f.offset + f.width

theorem covers_iff (f : Field) (i : Nat) :
    f.covers i = true ↔ f.offset ≤ i ∧ i < f.offset + f.width := by
  simp [covers]

theorem offset_eq (f : Field) : f.offset = Layout.start widths f := by
  rw [offset, Layout.start, widths, ← List.map_take, List.sum_eq_foldl_nat]

theorem totalBits_eq : totalBits = widths.sum := by
  rw [totalBits, widths, List.sum_eq_foldl_nat]

theorem getElem?_widths (f : Field) : widths[f.val]? = some f.width := by
  have inside : f.val < chain.length := f.isLt
  have present : chain[f]? = some chain[f.val] := List.getElem?_eq_getElem inside
  rw [width, present, widths, List.getElem?_map, List.getElem?_eq_getElem inside]
  rfl

theorem covers_iff_holds (f : Field) (i : Nat) : f.covers i = true ↔ Layout.Holds widths f i := by
  simp [covers_iff, Layout.Holds, offset_eq, getElem?_widths]

theorem end_le_totalBits (f : Field) : f.offset + f.width ≤ totalBits := by
  rw [offset_eq, totalBits_eq]
  exact Layout.end_le_sum f.getElem?_widths

theorem exists_covers {i : Nat} (inside : i < totalBits) : ∃ f : Field, f.covers i := by
  rw [totalBits_eq] at inside
  obtain ⟨k, holds⟩ := Layout.exists_holds inside
  obtain ⟨_, present, _⟩ := id holds
  have few : k < 78 := (List.getElem?_eq_some_iff.mp present).1
  exact ⟨⟨k, few⟩, (covers_iff_holds _ i).mpr holds⟩

theorem covers_unique {f g : Field} {i : Nat} (first : f.covers i) (second : g.covers i) : f = g :=
  Fin.ext (((covers_iff_holds f i).mp first).unique ((covers_iff_holds g i).mp second))

theorem width_lt (f : Field) : f.width < 64 := by
  revert f
  decide

theorem width_pos (f : Field) : 0 < f.width := by
  revert f
  decide

theorem totalBits_le : totalBits ≤ 64 * registerWords := by decide

theorem word_lt (f : Field) : f.offset / 64 < registerWords := by
  have last := Nat.le_trans f.end_le_totalBits totalBits_le
  have wide := f.width_pos
  omega

theorem nextWord_lt (f : Field) (runsOn : 64 < f.offset % 64 + f.width) :
    f.offset / 64 + 1 < registerWords := by
  have last := Nat.le_trans f.end_le_totalBits totalBits_le
  omega

/-- The largest value, unless finding it takes a shift by a whole word. -/
def maxValue? (f : Field) : Option UInt64 :=
  if 64 ≤ f.width then some 0xffffffffffffffff else (shiftLeft? 1 f.width).map (· - 1)

theorem maxValue?_eq (f : Field) : f.maxValue? = some f.maxValue := by
  have narrow := f.width_lt
  simp [maxValue?, maxValue, shiftLeft?, narrow, Nat.not_le.mpr narrow]

theorem toNat_maxValue (f : Field) : f.maxValue.toNat = 2 ^ f.width - 1 := by
  revert f
  decide

end Field

namespace PackedRegisters

def bit (words : PackedRegisters) (i : Nat) : Bool := (words[i / 64]?.getD 0).toNat.testBit (i % 64)

def before (words : PackedRegisters) (n : Nat) : PackedRegisters :=
  Vector.ofFn fun k => UInt64.ofNat (words[k].toNat % 2 ^ (n - 64 * k))

theorem ext_bit {words other : PackedRegisters} (same : ∀ i, words.bit i = other.bit i) :
    words = other := by
  apply Vector.ext
  intro k inside
  apply UInt64.toNat_inj.mp
  apply Nat.eq_of_testBit_eq
  intro j
  rcases Nat.lt_or_ge j 64 with low | high
  · have here := same (64 * k + j)
    have word : (64 * k + j) / 64 = k := by omega
    have place : (64 * k + j) % 64 = j := by omega
    simpa [bit, word, place, inside] using here
  · have past (x : UInt64) : x.toNat.testBit j = false := by
      rw [Bool.eq_false_iff]
      exact fun set => Nat.not_lt.mpr high (lt_of_testBit x.toNat_lt set)
    rw [past, past]

theorem bit_before (words : PackedRegisters) (n i : Nat) :
    (words.before n).bit i = (decide (i < n) && words.bit i) := by
  rcases Nat.lt_or_ge (i / 64) 4 with inside | outside
  · have size : words[i / 64].toNat % 2 ^ (n - 64 * (i / 64)) < UInt64.size :=
      Nat.lt_of_le_of_lt (Nat.mod_le _ _) words[i / 64].toNat_lt
    have word : ((words.before n)[i / 64]?.getD 0).toNat = words[i / 64].toNat % 2 ^ (n - 64 * (i / 64)) := by
      rw [before, Vector.getElem?_eq_getElem inside, Vector.getElem_ofFn, Option.getD_some]
      exact UInt64.toNat_ofNat_of_lt' size
    have place : (i % 64 < n - 64 * (i / 64)) ↔ i < n := by omega
    rw [bit, word, Nat.testBit_mod_two_pow, bit, Vector.getElem?_eq_getElem inside, Option.getD_some]
    simp only [place]
  · simp [bit, Vector.getElem?_eq_none outside]

theorem bit_merge (words : PackedRegisters) (k : Nat) (x : UInt64) (i : Nat) :
    bit (words.setIfInBounds k (words[k]?.getD 0 ||| x)) i =
      (words.bit i || (decide (i / 64 = k ∧ k < registerWords) && x.toNat.testBit (i % 64))) := by
  rw [bit, bit, Vector.getElem?_setIfInBounds]
  by_cases here : k = i / 64
  · subst here
    by_cases inside : i / 64 < 4
    · simp [inside, registerWords]
    · simp [inside, registerWords]
  · simp [here, Ne.symm here]

end PackedRegisters

/-- A value is added at its field, as far as it goes into the word where the field begins. -/
theorem PackedRegisters.bit_mergeLow (words : PackedRegisters) (f : Field) (x : UInt64) (i : Nat) :
    bit (words.setIfInBounds (f.offset / 64)
        (words[f.offset / 64]?.getD 0 ||| x <<< (f.offset % 64).toUInt64)) i =
      (words.bit i || (decide (i / 64 = f.offset / 64 ∧ f.offset ≤ i) && x.toNat.testBit (i - f.offset))) := by
  have start := f.word_lt
  have within : i % 64 < 64 := Nat.mod_lt _ (by decide)
  rw [bit_merge, testBit_shiftLeft x (Nat.mod_lt _ (by decide))]
  congr 1
  by_cases here : i / 64 = f.offset / 64
  · have place : i % 64 - f.offset % 64 = i - f.offset := by omega
    have order : f.offset % 64 ≤ i % 64 ↔ f.offset ≤ i := by omega
    simp [here, start, within, place, order]
  · simp [here]

theorem PackedRegisters.bit_mergeHigh (words : PackedRegisters) {f : Field}
    (runsOn : 64 < f.offset % 64 + f.width) (x : UInt64) (i : Nat) :
    bit (words.setIfInBounds (f.offset / 64 + 1)
        (words[f.offset / 64 + 1]?.getD 0 ||| x >>> (64 - f.offset % 64).toUInt64)) i =
      (words.bit i || (decide (i / 64 = f.offset / 64 + 1) && x.toNat.testBit (i - f.offset))) := by
  have narrow := f.width_lt
  have next := f.nextWord_lt runsOn
  rw [bit_merge, testBit_shiftRight x (by omega)]
  congr 1
  by_cases there : i / 64 = f.offset / 64 + 1
  · have place : 64 - f.offset % 64 + i % 64 = i - f.offset := by omega
    simp [there, next, place]
  · simp [there]

namespace Registers

open PackedRegisters

/-- Every value has the width of its field. -/
def Fits (r : Registers) : Prop := ∀ f, r.get f ≤ f.maxValue

theorem Fits.testBit_inside {r : Registers} (fits : r.Fits) {f : Field} {k : Nat}
    (set : (r.get f).toNat.testBit k) : k < f.width := by
  have bound : (r.get f).toNat < 2 ^ f.width := by
    have least := Nat.two_pow_pos f.width
    have most := UInt64.le_iff_toNat_le.mp (fits f)
    rw [Field.toNat_maxValue] at most
    omega
  exact lt_of_testBit bound set

theorem bit_packField {r : Registers} (fits : r.Fits) (words : PackedRegisters) (f : Field) (i : Nat) :
    (r.packField words f).bit i =
      (words.bit i || (f.covers i && (r.get f).toNat.testBit (i - f.offset))) := by
  have narrow := f.width_lt
  have wide := f.width_pos
  -- only the bits inside the field are set, so it is enough to know in which words those are
  have placed (p : Bool) (same : i - f.offset < f.width → (p = true ↔ f.covers i = true)) :
      (p && (r.get f).toNat.testBit (i - f.offset)) =
        (f.covers i && (r.get f).toNat.testBit (i - f.offset)) := by
    cases set : (r.get f).toNat.testBit (i - f.offset) with
    | false => rw [Bool.and_false, Bool.and_false]
    | true => rw [Bool.eq_iff_iff.mpr (same (fits.testBit_inside set))]
  unfold packField
  simp only
  split
  · rename_i runsOn
    rw [bit_mergeHigh _ runsOn, bit_mergeLow, Bool.or_assoc, ← Bool.and_or_distrib_right, placed]
    intro inside
    rw [Field.covers_iff, Bool.or_eq_true, decide_eq_true_eq, decide_eq_true_eq]
    omega
  · rename_i stops
    rw [bit_mergeLow, placed]
    intro inside
    rw [Field.covers_iff, decide_eq_true_eq]
    omega

theorem bit_pack {r : Registers} (fits : r.Fits) (i : Nat) :
    r.pack.bit i = Field.all.any fun f => f.covers i && (r.get f).toNat.testBit (i - f.offset) := by
  have added (fields : List Field) (words : PackedRegisters) :
      (fields.foldl r.packField words).bit i =
        (words.bit i || fields.any fun f => f.covers i && (r.get f).toNat.testBit (i - f.offset)) := by
    induction fields generalizing words with
    | nil => simp
    | cons f rest ih => rw [List.foldl_cons, ih, bit_packField fits, List.any_cons, Bool.or_assoc]
  have blank : PackedRegisters.bit (Vector.replicate 4 0) i = false := by
    rcases Nat.lt_or_ge (i / 64) 4 with inside | outside
    · simp [bit, inside]
    · simp [bit, Vector.getElem?_eq_none outside]
  rw [pack, added, blank, Bool.false_or]

theorem bit_pack_inside {r : Registers} (fits : r.Fits) {f : Field} {i : Nat} (inside : f.covers i) :
    r.pack.bit i = (r.get f).toNat.testBit (i - f.offset) := by
  rw [bit_pack fits, Bool.eq_iff_iff, List.any_eq_true]
  constructor
  · rintro ⟨g, _, held⟩
    rw [Bool.and_eq_true] at held
    rw [Field.covers_unique inside held.1]
    exact held.2
  · intro set
    exact ⟨f, List.mem_finRange f, by rw [inside, set]; rfl⟩

theorem bit_pack_past {r : Registers} (fits : r.Fits) {i : Nat} (past : Field.totalBits ≤ i) :
    r.pack.bit i = false := by
  rw [bit_pack fits, List.any_eq_false]
  intro f _ held
  rw [Bool.and_eq_true, Field.covers_iff] at held
  have last := f.end_le_totalBits
  omega

theorem testBit_lowWord (words : PackedRegisters) (f : Field) (k : Nat) :
    (words[f.offset / 64]?.getD 0 >>> (f.offset % 64).toUInt64).toNat.testBit k =
      (decide (f.offset % 64 + k < 64) && words.bit (f.offset + k)) := by
  rw [testBit_shiftRight _ (Nat.mod_lt _ (by decide))]
  by_cases here : f.offset % 64 + k < 64
  · have word : (f.offset + k) / 64 = f.offset / 64 := by omega
    have place : (f.offset + k) % 64 = f.offset % 64 + k := by omega
    simp [here, bit, word, place]
  · rw [decide_eq_false here, Bool.false_and, Bool.eq_false_iff]
    exact fun set => here (lt_of_testBit (UInt64.toNat_lt _) set)

theorem testBit_highWord (words : PackedRegisters) {f : Field} (runsOn : 64 < f.offset % 64 + f.width)
    {k : Nat} (small : k < 64) :
    (words[f.offset / 64 + 1]?.getD 0 <<< (64 - f.offset % 64).toUInt64).toNat.testBit k =
      (decide (64 ≤ f.offset % 64 + k) && words.bit (f.offset + k)) := by
  have narrow := f.width_lt
  rw [testBit_shiftLeft _ (by omega)]
  by_cases there : 64 ≤ f.offset % 64 + k
  · have word : (f.offset + k) / 64 = f.offset / 64 + 1 := by omega
    have place : (f.offset + k) % 64 = k - (64 - f.offset % 64) := by omega
    have after : 64 - f.offset % 64 ≤ k := by omega
    simp [there, bit, word, place, after, small]
  · have before : ¬ 64 - f.offset % 64 ≤ k := by omega
    simp [there, before]

theorem testBit_unpackField (words : PackedRegisters) (f : Field) (k : Nat) :
    (unpackField words f).toNat.testBit k = (decide (k < f.width) && words.bit (f.offset + k)) := by
  have narrow := f.width_lt
  have masked (x : UInt64) :
      (x &&& f.maxValue).toNat.testBit k = (decide (k < f.width) && x.toNat.testBit k) := by
    rw [UInt64.toNat_and, Nat.testBit_and, Field.toNat_maxValue, Nat.testBit_two_pow_sub_one, Bool.and_comm]
  unfold unpackField
  simp only
  rw [masked]
  rcases Nat.lt_or_ge k f.width with inside | outside
  · congr 1
    split
    · rename_i runsOn
      have either : (decide (f.offset % 64 + k < 64) || decide (64 ≤ f.offset % 64 + k)) = true := by
        rw [Bool.or_eq_true, decide_eq_true_eq, decide_eq_true_eq]
        omega
      rw [UInt64.toNat_or, Nat.testBit_or, testBit_lowWord, testBit_highWord words runsOn (by omega),
        ← Bool.and_or_distrib_right, either, Bool.true_and]
    · rename_i stops
      rw [testBit_lowWord, decide_eq_true (by omega), Bool.true_and]
  · rw [decide_eq_false (Nat.not_lt.mpr outside), Bool.false_and, Bool.false_and]

theorem get_unpack (words : PackedRegisters) (f : Field) :
    (unpack words).get f = unpackField words f := by
  simp [unpack, get]

theorem fits_unpack (words : PackedRegisters) : (unpack words).Fits := by
  intro f
  rw [get_unpack, unpackField]
  exact UInt64.and_le_right

theorem ext_get {r s : Registers} (same : ∀ f, r.get f = s.get f) : r = s := by
  cases r; cases s
  congr 1
  apply Vector.ext
  intro k inside
  exact same ⟨k, inside⟩

theorem unpack_pack {r : Registers} (fits : r.Fits) : unpack r.pack = r := by
  apply ext_get
  intro f
  apply UInt64.toNat_inj.mp
  apply Nat.eq_of_testBit_eq
  intro k
  rw [get_unpack, testBit_unpackField]
  rcases Nat.lt_or_ge k f.width with inside | outside
  · have here : f.covers (f.offset + k) := by
      rw [Field.covers_iff]
      omega
    rw [bit_pack_inside fits here, Nat.add_sub_cancel_left, decide_eq_true inside, Bool.true_and]
  · rw [decide_eq_false (Nat.not_lt.mpr outside), Bool.false_and, eq_comm, Bool.eq_false_iff]
    intro set
    exact absurd (fits.testBit_inside set) (Nat.not_lt.mpr outside)

theorem pack_unpack (words : PackedRegisters) : (unpack words).pack = words.before Field.totalBits := by
  apply ext_bit
  intro i
  rw [bit_before]
  rcases Nat.lt_or_ge i Field.totalBits with inside | past
  · obtain ⟨f, here⟩ := Field.exists_covers inside
    have place := (Field.covers_iff f i).mp here
    have width : i - f.offset < f.width := by omega
    rw [bit_pack_inside (fits_unpack words) here, get_unpack, testBit_unpackField,
      Nat.add_sub_cancel' place.1, decide_eq_true width, decide_eq_true inside]
  · rw [bit_pack_past (fits_unpack words) past, decide_eq_false (Nat.not_lt.mpr past), Bool.false_and]

theorem get_put (r : Registers) (f g : Field) (value : UInt64) :
    (r.put f value).get g = if f = g then value else r.get g := by
  simp [put, get, Vector.getElem_set, Fin.ext_iff]

theorem fits_zero : zero.Fits := by
  intro f
  simp [zero, get]

theorem Fits.put {r : Registers} (fits : r.Fits) {f : Field} {value : UInt64}
    (small : value ≤ f.maxValue) : (r.put f value).Fits := by
  intro g
  rw [get_put]
  split
  · rename_i same
    rw [← same]
    exact small
  · exact fits g

theorem Fits.set {r : Registers} (fits : r.Fits) (f : Field) (value : UInt64) :
    (r.set f value).2.Fits := by
  unfold Registers.set
  split
  · exact fits
  · rename_i small
    exact fits.put (UInt64.not_lt.mp small)

/-- A field that is written takes its own bits of the chain and no other. -/
theorem bit_pack_put {r : Registers} (fits : r.Fits) {f : Field} {value : UInt64}
    (small : value ≤ f.maxValue) (i : Nat) :
    (r.put f value).pack.bit i =
      if f.covers i then value.toNat.testBit (i - f.offset) else r.pack.bit i := by
  have after := fits.put small
  cases here : f.covers i with
  | true => rw [bit_pack_inside after here, get_put, if_pos rfl, if_pos rfl]
  | false =>
    rw [bit_pack after, bit_pack fits, if_neg Bool.false_ne_true]
    congr 1
    funext g
    rw [get_put]
    by_cases same : f = g
    · rw [← same, here, Bool.false_and, Bool.false_and]
    · rw [if_neg same]

/-- What a controller may do to its registers: write a field, or load them all through the chain. -/
inductive Loading
  | field (f : Field) (value : UInt64)
  | chain (words : PackedRegisters)

def load (r : Registers) : Loading → Registers
  | .field f value => (r.set f value).2
  | .chain words => unpack words

def loaded (steps : List Loading) : Registers := steps.foldl load zero

theorem Fits.load {r : Registers} (fits : r.Fits) (step : Loading) : (r.load step).Fits := by
  cases step with
  | field f value => exact fits.set f value
  | chain words => exact fits_unpack words

theorem fits_loaded (steps : List Loading) : (loaded steps).Fits := by
  have kept (r : Registers) (fits : r.Fits) : (steps.foldl Registers.load r).Fits := by
    induction steps generalizing r with
    | nil => exact fits
    | cons step rest ih => exact ih (r.load step) (fits.load step)
  exact kept zero fits_zero

/-- `packField`, if all its shifts are shifts of a word and all its words are there. -/
def packField? (r : Registers) (words : PackedRegisters) (f : Field) : Option PackedRegisters := do
  let word := f.offset / 64
  let bit := f.offset % 64
  let low ← words[word]?
  let part ← shiftLeft? (r.get f) bit
  let words := words.setIfInBounds word (low ||| part)
  if 64 < bit + f.width then
    let high ← words[word + 1]?
    let rest ← shiftRight? (r.get f) (64 - bit)
    return words.setIfInBounds (word + 1) (high ||| rest)
  return words

def pack? (r : Registers) : Option PackedRegisters :=
  Field.all.foldlM r.packField? (Vector.replicate 4 0)

def unpackField? (words : PackedRegisters) (f : Field) : Option UInt64 := do
  let word := f.offset / 64
  let bit := f.offset % 64
  let low ← shiftRight? (← words[word]?) bit
  let most ← f.maxValue?
  if 64 < bit + f.width then
    let high ← shiftLeft? (← words[word + 1]?) (64 - bit)
    return (low ||| high) &&& most
  return low &&& most

theorem packField?_eq (r : Registers) (words : PackedRegisters) (f : Field) :
    r.packField? words f = some (r.packField words f) := by
  have low : f.offset % 64 < 64 := Nat.mod_lt _ (by decide)
  have narrow := f.width_lt
  have start : f.offset / 64 < 4 := f.word_lt
  by_cases runsOn : 64 < f.offset % 64 + f.width
  · have next : f.offset / 64 + 1 < 4 := f.nextWord_lt runsOn
    have rest : 64 - f.offset % 64 < 64 := by omega
    simp [packField?, packField, shiftLeft?, shiftRight?, low, start, runsOn, next, rest]
  · simp [packField?, packField, shiftLeft?, low, start, runsOn]

theorem pack?_eq (r : Registers) : r.pack? = some r.pack := by
  have folded (fields : List Field) (words : PackedRegisters) :
      fields.foldlM r.packField? words = some (fields.foldl r.packField words) := by
    induction fields generalizing words with
    | nil => rfl
    | cons f rest ih =>
      rw [List.foldlM_cons, packField?_eq, List.foldl_cons]
      exact ih (r.packField words f)
  exact folded Field.all _

theorem unpackField?_eq (words : PackedRegisters) (f : Field) :
    unpackField? words f = some (unpackField words f) := by
  have low : f.offset % 64 < 64 := Nat.mod_lt _ (by decide)
  have narrow := f.width_lt
  have start : f.offset / 64 < 4 := f.word_lt
  by_cases runsOn : 64 < f.offset % 64 + f.width
  · have next : f.offset / 64 + 1 < 4 := f.nextWord_lt runsOn
    have rest : 64 - f.offset % 64 < 64 := by omega
    simp [unpackField?, unpackField, shiftLeft?, shiftRight?, Field.maxValue?_eq, low, start, runsOn, next,
      rest]
  · simp [unpackField?, unpackField, shiftRight?, Field.maxValue?_eq, low, start, runsOn]

/-- Registers that were loaded in any way come back through the chain as they were. Words that are taken in
give values that fit, and come back without what stood behind the chain. A field that is written changes
its own bits of the chain to those of the value, or is refused. All of it needs no shift by a whole word and
no fifth word. -/
theorem chain_faithful (steps : List Loading) (words : PackedRegisters) (f : Field) (value : UInt64) :
    unpack (loaded steps).pack = loaded steps ∧
      ((unpack words).get f ≤ f.maxValue ∧ (unpack words).pack = words.before Field.totalBits) ∧
      (if value ≤ f.maxValue then
        ((loaded steps).set f value).1 = .ok () ∧
          ∀ i, ((loaded steps).set f value).2.pack.bit i =
            if f.offset ≤ i ∧ i < f.offset + f.width then value.toNat.testBit (i - f.offset)
            else (loaded steps).pack.bit i
      else (loaded steps).set f value =
        (.error (.rejected (.registerValue f.name f.width value)), loaded steps)) ∧
      (loaded steps).pack? = some (loaded steps).pack ∧
        unpackField? words f = some (unpackField words f) ∧ f.maxValue? = some f.maxValue := by
  have fits := fits_loaded steps
  refine ⟨unpack_pack fits, ⟨fits_unpack words f, pack_unpack words⟩, ?_, pack?_eq _,
    unpackField?_eq words f, f.maxValue?_eq⟩
  split
  · rename_i small
    have written : (loaded steps).set f value = (.ok (), (loaded steps).put f value) := by
      rw [set, if_neg (UInt64.not_lt.mpr small)]
    rw [written]
    refine ⟨rfl, fun i => ?_⟩
    rw [bit_pack_put fits small]
    simp only [Field.covers_iff]
  · rename_i large
    rw [set, if_pos (UInt64.not_le.mp large)]

end Registers
end CacheCoherence
