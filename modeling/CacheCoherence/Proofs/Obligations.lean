import CacheCoherence.Proofs.Starts

/-! Requests and answers match. Whatever the order of calls, a slot that waits is owed one answer and
any other slot none, until a call joins an answer late: a reference that hits joins an entry whose
read the hub still has, and answers it. -/

namespace CacheCoherence

namespace Fabric

/-- The answers that the hub owes to a CPU, between two passes. -/
def owed (f : Fabric) (cpu : Nat) : List Duty :=
  duties (((f.controller? cpu).map (·.outbound)).getD []) f.hub.deferred f.hub.transactions cpu

/-- Every slot that waits is owed one answer, every other none, and each answer that is owed fits
the reference that waits in its slot. -/
def Matched (f : Fabric) : Prop := ∀ cpu, Agrees (f.owed cpu) (f.waiting cpu)

end Fabric

theorem filterMap_matters (queue : List Request) :
    (queue.filter Request.matters).filterMap Request.duty? = queue.filterMap Request.duty? := by
  rw [List.filterMap_filter]
  congr 1
  funext q
  cases q <;> rfl

theorem matched_of_orderly {lay : Layout} {f : Fabric} {now : Ledger}
    (orderly : Orderly lay (Pass.view { fabric := f } now)) : f.Matched := by
  intro cpu
  have same : f.owed cpu = View.duties (Pass.view { fabric := f } now) cpu := by
    simp only [Fabric.owed, View.duties, duties, Pass.view, Pass.queue, List.filter_nil, List.map_nil,
      List.nil_append, filterMap_matters]
  rw [same]
  exact orderly.agrees cpu

section

variable {d : Discipline}

/-- A discipline is kept by every call of a run, each in its own state. -/
theorem obeys_iff (calls : List Call) (f : Fabric) :
    Obeys d f calls ↔
      ∀ (k : Nat) cpu op, calls[k]? = some (.operate cpu op) → d (f.run (calls.take k)) cpu op := by
  induction calls generalizing f with
  | nil => simp [Obeys]
  | cons call rest ih =>
    rw [Obeys, ih]
    constructor
    · rintro ⟨first, later⟩ k cpu op at_k
      cases k with
      | zero => exact first cpu op (by simpa using at_k)
      | succ k => exact later k cpu op (by simpa using at_k)
    · intro each
      refine ⟨fun cpu op same => each 0 cpu op (by simpa using same), fun k cpu op at_k => ?_⟩
      exact each (k + 1) cpu op (by simpa using at_k)

theorem Obeys.take {calls : List Call} {f : Fabric} (obeys : Obeys d f calls) (k : Nat) :
    Obeys d f (calls.take k) := by
  induction calls generalizing f k with
  | nil => simpa using obeys
  | cons call rest ih =>
    cases k with
    | zero => trivial
    | succ k => exact ⟨obeys.1, ih obeys.2 k⟩

end

theorem not_matched_of_late {f : Fabric} {cpu : Nat} {op : Operation}
    (good : ∀ k c, f.controller? k = some c → c.Good) (matched : f.Matched)
    (late : f.joinsLate cpu op) : ¬ (f.operate cpu op).Matched := by
  simp only [Fabric.joinsLate, Option.any_eq_true] at late
  obtain ⟨c, at_cpu, joins⟩ := late
  obtain ⟨n, present, rfl⟩ := Option.map_eq_some_iff.mp at_cpu
  cases op with
  | consume | store | storeIo | flush | retire => cases joins
  | issue r =>
    simp only [Controller.joinsLate, Bool.and_eq_true, Bool.not_eq_true',
      Option.isSome_iff_exists] at joins
    obtain ⟨⟨⟨checked, cacheable⟩, valid⟩, ⟨slot, m⟩, target⟩ := joins
    have accepted : r.check = .ok () := by
      cases outcome : r.check with
      | ok => rfl
      | error fault =>
        rw [outcome] at checked
        cases checked
    obtain ⟨_, occupied, unanswered, _, _⟩ := MissFile.mergeTarget_some target
    have waited : n.controller.wanted slot = some m.request :=
      (Controller.wanted_eq_some_iff _ _ _).mpr ⟨m, occupied, unanswered, rfl⟩
    obtain ⟨outbound, wanted⟩ := (good cpu _ at_cpu).issue_late accepted cacheable valid target
    have result : (n.controller.perform (.issue r)).outbound = n.controller.outbound ∧
        (n.controller.perform (.issue r)).wanted slot = none := by
      simp only [Controller.perform, Controller.allocateMiss]
      have free := wanted slot
      rw [if_pos rfl] at free
      cases shape : n.controller.issue r with
      | mk outcome d =>
        rw [shape] at outbound free
        cases outcome with
        | ok => exact ⟨outbound, free⟩
        | error fault => exact ⟨outbound, free⟩
    -- the hub is as it was, and so is the queue
    have after : (f.operate cpu (.issue r)).controller? cpu =
          some (n.controller.perform (.issue r)) ∧
        (f.operate cpu (.issue r)).owed cpu = f.owed cpu := by
      have there := Pass.controller?_seat (s := { fabric := f }) present
        { n with controller := n.controller.perform (.issue r) } cpu
      rw [if_pos rfl] at there
      have queue : (Pass.seat { fabric := f } cpu
          { n with controller := n.controller.perform (.issue r) }).fabric.owed cpu = f.owed cpu := by
        simp only [Fabric.owed, there, at_cpu, Option.map_some, Option.getD_some, result.1]
        rfl
      rcases Pass.operate_eq (s := { fabric := f }) present (.issue r) with plain | rung
      · rw [show f.operate cpu (.issue r) = _ from plain]
        exact ⟨there, queue⟩
      · rw [show f.operate cpu (.issue r) = _ from rung]
        exact ⟨there, queue⟩
    intro later
    have before := (matched cpu).count slot
    have now_there := (later cpu).count slot
    rw [after.2, before] at now_there
    simp [Fabric.waiting, at_cpu, after.1, waited, result.2] at now_there

def Punctual : Discipline := fun f cpu op => f.joinsLate cpu op = false

instance (f : Fabric) (cpu : Nat) (op : Operation) : Decidable (Punctual f cpu op) :=
  inferInstanceAs (Decidable (_ = _))

theorem holds_of_punctual {lay : Layout} {f : Fabric} (started : Started lay f) {calls : List Call}
    (punctual : Obeys Punctual f calls) :
    ∃ now, Holds lay (fun _ => True) { fabric := f.run calls } now := by
  obtain ⟨now, reached⟩ := Reaches.of_run calls (.start : Reaches Punctual f f.stored _ _) punctual
  exact ⟨now, reached.holds started trivial (fun _ _ _ _ _ timely => timely)
    (fun _ _ _ _ _ _ _ _ _ _ => trivial) (fun _ _ _ _ _ => trivial)⟩

theorem run_take_succ {calls : List Call} {f : Fabric} {k : Nat} {call : Call}
    (at_k : calls[k]? = some call) :
    f.run (calls.take (k + 1)) = (f.run (calls.take k)).call call := by
  rw [Fabric.run, List.take_add_one, at_k, Option.toList_some, List.foldl_append]
  rfl

/-- Requests and answers match throughout a run exactly when no call joins an answer late. -/
theorem matched_iff_punctual {σ : Type} {a : Allocator σ} {st : σ} {settings : Settings}
    {m : Machine} (built : (Machine.build a st settings).1.outcome = .ok m) (calls : List Call) :
    (∀ k, (m.fabric.run (calls.take k)).Matched) ↔
      ∀ (k : Nat) cpu op, calls[k]? = some (.operate cpu op) →
        (m.fabric.run (calls.take k)).joinsLate cpu op = false := by
  obtain ⟨lay, started⟩ := Machine.started_of_build built
  constructor
  · intro matched k
    -- up to the first late call the run is punctual, and that call leaves it unmatched
    induction k using Nat.strong_induction_on with
    | _ k earlier =>
      intro cpu op at_k
      have punctual : Obeys Punctual m.fabric (calls.take k) := by
        rw [obeys_iff]
        intro j cpu op at_j
        rw [List.getElem?_take] at at_j
        split at at_j
        · rename_i before
          rw [List.take_take, Nat.min_eq_left (Nat.le_of_lt before)]
          exact earlier j before cpu op at_j
        · cases at_j
      obtain ⟨now, held⟩ := holds_of_punctual started punctual
      cases late : (m.fabric.run (calls.take k)).joinsLate cpu op with
      | false => rfl
      | true =>
        have broken := not_matched_of_late held.steady.good (matched k) late
        have next := matched (k + 1)
        rw [run_take_succ at_k] at next
        exact absurd next broken
  · intro timely k
    have punctual : Obeys Punctual m.fabric calls := (obeys_iff calls m.fabric).mpr timely
    obtain ⟨now, held⟩ := holds_of_punctual started (punctual.take k)
    exact matched_of_orderly held.orderly

/-- CPU 0 stores and loads in one block. When the store is answered a second load hits, and answers
the first one too. -/
def lateJoin : List Call :=
  [.operate 0 (.issue (.to (.store .quad) 0)), .operate 0 (.issue (.to (.load .quad) 0)), .poll,
    .service 1, .poll, .operate 0 (.issue (.to (.load .quad) 0))]

theorem matched_before_lateJoin :
    (Machine.build Heap.allocator {} .pair).1.outcome = .ok .pair ∧
      ∀ k, (Machine.pair.fabric.run ((lateJoin.take 5).take k)).Matched := by
  have punctual : Obeys Punctual Machine.pair.fabric (lateJoin.take 5) := by decide +kernel
  exact ⟨Machine.pair_built, (matched_iff_punctual Machine.pair_built (lateJoin.take 5)).mpr
    ((obeys_iff (lateJoin.take 5) Machine.pair.fabric).mp punctual)⟩

/-- The hub still owes an answer to a slot of which nobody waits. -/
theorem lateJoin_not_matched :
    (Machine.build Heap.allocator {} .pair).1.outcome = .ok .pair ∧
      ¬ (Machine.pair.fabric.run lateJoin).Matched := by
  refine ⟨Machine.pair_built, fun matched => ?_⟩
  have counted := (matched 0).count 1
  have owed : ((Machine.pair.fabric.run lateJoin).owed 0).countP (·.id == .miss 1) = 1 := by
    decide +kernel
  have answered : (Machine.pair.fabric.run lateJoin).waiting 0 1 = none := by decide +kernel
  rw [owed, answered] at counted
  cases counted

end CacheCoherence
