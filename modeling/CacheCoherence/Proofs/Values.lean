import CacheCoherence.Proofs.Ownership

/-! The value of a block. In a tidy run every copy of a block has its value, and so has what is afloat
about it: victims, replies and what a transaction has gathered. Memory has the value too, unless a
dirty line or something afloat is about to bring it. -/

namespace CacheCoherence

open Function (update)

def Request.isVictim : Request → Bool
  | .victim .. => true
  | .read .. | .ioWrite .. | .reply _ | .barrier _ => false

def Request.isRead : Request → Bool
  | .read .. => true
  | .victim .. | .ioWrite .. | .reply _ | .barrier _ => false

def Request.bears : Request → Option Block
  | .victim _ _ data => some data
  | .reply r => r.dirtyData
  | .read .. | .ioWrite .. | .barrier _ => none

def Followed (mark : Request → Bool) : List Request → Prop
  | [] => True
  | q :: later => (q.isVictim → later.any mark) ∧ Followed mark later

namespace Followed

variable {mark : Request → Bool} {queue : List Request}

theorem later {q : Request} (followed : Followed mark (q :: queue)) : Followed mark queue := followed.2

theorem send (followed : Followed mark queue) {q : Request} (other : q.isVictim = false) :
    Followed mark (queue ++ [q]) := by
  induction queue with
  | nil => exact ⟨fun victim => by simp [other] at victim, trivial⟩
  | cons p rest ih =>
    refine ⟨fun victim => ?_, ih followed.2⟩
    change (rest ++ [q]).any mark = true
    rw [List.any_append, followed.1 victim, Bool.true_or]

theorem mark_last (queue : List Request) {q : Request} (marked : mark q) (other : q.isVictim = false) :
    Followed mark (queue ++ [q]) := by
  induction queue with
  | nil => exact ⟨fun victim => by simp [other] at victim, trivial⟩
  | cons p rest ih =>
    refine ⟨fun _ => ?_, ih⟩
    simp [marked]

theorem no_victim (followed : Followed mark queue) (unmarked : ∀ q ∈ queue, mark q = false) :
    ∀ q ∈ queue, q.isVictim = false := by
  induction queue with
  | nil => simp
  | cons p rest ih =>
    intro q member
    rcases List.mem_cons.mp member with rfl | inside
    · cases victim : q.isVictim with
      | false => rfl
      | true =>
        obtain ⟨r, behind, marked⟩ := List.any_eq_true.mp (followed.1 victim)
        rw [unmarked r (List.mem_cons_of_mem _ behind)] at marked
        cases marked
    · exact ih followed.2 (fun r behind => unmarked r (List.mem_cons_of_mem _ behind)) q inside

end Followed

/-- The queue will bring data: a victim comes before any reply, or the first reply has dirty data. -/
def feeds : List Request → Bool
  | [] => false
  | .victim .. :: _ => true
  | .reply r :: _ => r.dirtyData.isSome
  | .read .. :: later | .ioWrite .. :: later | .barrier _ :: later => feeds later

section feeds

variable {queue : List Request}

theorem feeds_append (fed : feeds queue) (more : List Request) : feeds (queue ++ more) := by
  induction queue with
  | nil => cases fed
  | cons q rest ih =>
    cases q with
    | victim | reply => exact fed
    | read | ioWrite | barrier => exact ih fed

theorem feeds_victim (unanswered : ∀ r, .reply r ∉ queue) (slot : Slot) (a : Address) (data : Block) :
    feeds (queue ++ [.victim slot a data]) := by
  induction queue with
  | nil => rfl
  | cons q rest ih =>
    have later := ih fun r member => unanswered r (List.mem_cons_of_mem _ member)
    cases q with
    | victim => rfl
    | reply r => exact absurd (List.mem_cons_self ..) (unanswered r)
    | read | ioWrite | barrier => exact later

theorem feeds_reply (unanswered : ∀ r, .reply r ∉ queue) {r : ProbeReply} (dirty : r.dirtyData.isSome) :
    feeds (queue ++ [.reply r]) := by
  induction queue with
  | nil => exact dirty
  | cons q rest ih =>
    have later := ih fun r member => unanswered r (List.mem_cons_of_mem _ member)
    cases q with
    | victim => rfl
    | reply p => exact absurd (List.mem_cons_self ..) (unanswered p)
    | read | ioWrite | barrier => exact later

theorem of_feeds (fed : feeds queue) :
    (∃ slot a data, .victim slot a data ∈ queue) ∨ ∃ r, .reply r ∈ queue := by
  induction queue with
  | nil => cases fed
  | cons q rest ih =>
    have deeper (fed : feeds rest) : (∃ slot a data, .victim slot a data ∈ q :: rest) ∨
        ∃ r, .reply r ∈ q :: rest := by
      rcases ih fed with ⟨slot, a, data, member⟩ | ⟨r, member⟩
      · exact .inl ⟨slot, a, data, List.mem_cons_of_mem _ member⟩
      · exact .inr ⟨r, List.mem_cons_of_mem _ member⟩
    cases q with
    | victim slot a data => exact .inl ⟨slot, a, data, List.mem_cons_self ..⟩
    | reply r => exact .inr ⟨r, List.mem_cons_self ..⟩
    | read | ioWrite | barrier => exact deeper fed

end feeds

structure Holding.Sound (l : Holding) : Prop where
  copy : l.dirty → l.copy.isSome
  dirty : l.sole → l.dirty

theorem Holding.sound_absent : Holding.absent.Sound := ⟨nofun, nofun⟩

theorem Holding.Sound.after {l : Holding} (sound : l.Sound) (next : NextState) : (l.after next).Sound := by
  cases next with
  | invalid => exact sound_absent
  | clean | cleanShared => exact ⟨nofun, nofun⟩
  | dirtyShared => exact ⟨fun dirty => dirty, nofun⟩
  | unchanged | transient3 | transient1 | reserved => exact sound

theorem Holding.copy_after {l : Holding} {next : NextState} {data : Block}
    (copy : (l.after next).copy = some data) : l.copy = some data := by
  cases next with
  | invalid => cases copy
  | clean | cleanShared | dirtyShared | unchanged | transient3 | transient1 | reserved => exact copy

namespace Focus

inductive Afloat (f : Focus) (data : Block) : Prop
  | queued (k : Nat) (q : Request) (there : q ∈ f.queue k) (bears : q.bears = some data)
  | gathered (t : Transaction) (isOpen : f.txn = some t) (held : t.data = some data)

/-- Where the value comes from when memory does not have it. While a transaction is open a node can
bring it only as long as it owes a reply. -/
def Source (f : Focus) : Prop :=
  match f.txn with
  | none => ∃ k, (f.line k).dirty ∨ feeds (f.queue k)
  | some t => t.data.isSome ∨ (f.line t.origin).dirty ∨
      ∃ k, f.probes k ≠ [] ∧ (f.line k).dirty ∨ f.owes k ≠ 0 ∧ feeds (f.queue k)

theorem Source.mono {f g : Focus} (source : f.Source) (txn : g.txn = f.txn) (probes : g.probes = f.probes)
    (owes : g.owes = f.owes) (dirty : ∀ k, (f.line k).dirty → (g.line k).dirty)
    (fed : ∀ k, feeds (f.queue k) → feeds (g.queue k)) : g.Source := by
  unfold Source at source ⊢
  rw [txn, probes, owes]
  cases shown : f.txn with
  | none =>
    rw [shown] at source
    exact source.imp fun k => Or.imp (dirty k) (fed k)
  | some t =>
    rw [shown] at source
    exact source.imp_right (Or.imp (dirty t.origin)
      (Exists.imp fun k => Or.imp (And.imp_right (dirty k)) (And.imp_right (fed k))))

/-- What keeps the data of a block right. No victim is behind the read of a node that asks, nor behind
the reply to a probe that takes the line away. -/
structure Current (lay : Layout) (f : Focus) : Prop extends Safe lay f where
  sound : ∀ k, (f.line k).Sound
  copies : ∀ k data, (f.line k).copy = some data → data = f.value
  worth : ∀ data, f.Afloat data → data = f.value
  lone : ∀ o, (f.line o).sole → ∀ data, ¬ f.Afloat data
  asked : ∀ t, f.txn = some t → ∃ slot, f.asks t.origin slot = some t.kind
  moved : ∀ t, f.txn = some t → ∀ q ∈ f.queue t.origin, q.isRead = false
  behind : ∀ k slot, (f.asks k slot).isSome → Followed Request.isRead (f.queue k)
  last : ∀ t, f.txn = some t → t.kind ≠ .share → ∀ k ∈ lay.others t.origin, f.probes k = [] →
    Followed Request.isReply (f.queue k)
  source : f.memory = f.value ∨ f.Source

section queues

variable {queue : Nat → List Request} {j k : Nat} {q new : Request}

theorem mem_send (member : q ∈ update queue j (queue j ++ [new]) k) : q ∈ queue k ∨ k = j ∧ q = new := by
  by_cases here : k = j
  · subst here
    rw [Function.update_self, List.mem_append, List.mem_singleton] at member
    exact member.imp_right fun last => ⟨rfl, last⟩
  · rw [Function.update_of_ne here] at member
    exact .inl member

theorem mem_rest {later : List Request} (head : queue j = new :: later)
    (member : q ∈ update queue j later k) : q ∈ queue k := by
  by_cases here : k = j
  · subst here
    rw [Function.update_self] at member
    rw [head]
    exact List.mem_cons_of_mem _ member
  · rwa [Function.update_of_ne here] at member

end queues

/-- The value changes where a sole holder writes and where a claim is filled. Otherwise a copy is one
from before, or what a transaction has delivered. -/
theorem Step.worth {lay : Layout} {tidy : Prop} {f g : Focus} (step : Step lay tidy f g) :
    (g.value = f.value ∧ ∀ k data, (g.line k).copy = some data → (f.line k).copy = some data ∨
      ∃ t, f.txn = some t ∧ t.pending = 0 ∧ t.kind ≠ .claim ∧
        (t.kind = .upgrade → f.line t.origin = .absent) ∧ data = f.fill t) ∨
    (∃ k offset bytes, (f.line k).sole ∧ g.value = f.value.write offset bytes ∧ g.queue = f.queue ∧
      g.txn = f.txn ∧ g.line = update f.line k
        { f.line k with copy := (f.line k).copy.map (·.write offset bytes) }) ∨
    ∃ t line, f.txn = some t ∧ t.pending = 0 ∧ t.kind = .claim ∧ f.Filled t line ∧
      line.copy.isSome ∧ g.value = .zero ∧ g.queue = f.queue ∧ g.txn = none ∧
      g.line = update f.line t.origin line := by
  have gone {j k : Nat} {data : Block} (copy : (update f.line j .absent k).copy = some data) :
      (f.line k).copy = some data := by
    by_cases here : k = j
    · subst here
      rw [Function.update_self] at copy
      cases copy
    · rwa [Function.update_of_ne here] at copy
  cases step with
  | ask | defer | settle | drop | take | begin => exact .inl ⟨rfl, fun _ _ copy => .inl copy⟩
  | lose | evict => exact .inl ⟨rfl, fun _ _ copy => .inl (gone copy)⟩
  | snoop j p later reply =>
    refine .inl ⟨rfl, fun k data copy => .inl ?_⟩
    by_cases here : k = j
    · subst here
      simp only [Function.update_self] at copy
      exact Holding.copy_after copy
    · simpa only [Function.update_of_ne here] using copy
  | store k offset bytes sole => exact .inr (.inl ⟨k, offset, bytes, sole, rfl, rfl, rfl, rfl⟩)
  | finish t slot line isOpen done id asked filled =>
    by_cases zeroed : t.kind = .claim ∧ line.copy.isSome
    · refine .inr (.inr ⟨t, line, isOpen, done, zeroed.1, filled, zeroed.2, ?_, rfl, rfl, rfl⟩)
      simp only [if_pos zeroed]
    · refine .inl ⟨by simp only [if_neg zeroed], fun k data copy => ?_⟩
      by_cases here : k = t.origin
      · subst here
        simp only [Function.update_self] at copy
        cases filled with
        | refused => cases copy
        | owned _ own present => exact .inl (present.trans copy)
        | filled lost _ given =>
          rw [given] at copy zeroed
          have reads : t.kind ≠ .claim := fun claim => zeroed ⟨claim, rfl⟩
          exact .inr ⟨t, isOpen, done, reads, lost, (Option.some.inj copy).symm⟩
      · exact .inl (by simpa only [Function.update_of_ne here] using copy)

namespace Current

variable {lay : Layout} {f g : Focus}

theorem landed (current : Current lay f) {t : Transaction} (isOpen : f.txn = some t)
    (done : t.pending = 0) (exclusive : t.kind ≠ .share) (k : Nat) :
    ∀ q ∈ f.queue k, q.isVictim = false ∧ q.isReply = false := by
  have clear := current.clear isOpen done k
  have unanswered (q : Request) (member : q ∈ f.queue k) : q.isReply = false := by
    cases q with
    | reply r => exact absurd member (not_reply_of_owes clear r)
    | read | ioWrite | victim | barrier => rfl
  intro q member
  refine ⟨?_, unanswered q member⟩
  by_cases here : k = t.origin
  · subst here
    obtain ⟨slot, asked⟩ := current.asked t isOpen
    refine (current.behind t.origin slot ?_).no_victim (current.moved t isOpen) q member
    rw [asked]
    rfl
  · by_cases inside : k < lay.cpus
    · have silent : f.probes k = [] := by
        by_contra probed
        have owed := owes_pos_of_probe probed
        omega
      have other := (lay.mem_others t.origin k).mpr ⟨inside, here⟩
      exact (current.last t isOpen exclusive k other silent).no_victim unanswered q member
    · rw [(current.inside k (by omega)).2.2] at member
      cases member

theorem not_afloat (current : Current lay f) {t : Transaction} (isOpen : f.txn = some t)
    (done : t.pending = 0) (exclusive : t.kind ≠ .share) (closed : g.txn = none)
    (queue : g.queue = f.queue) (data : Block) : ¬ g.Afloat data := by
  intro afloat
  cases afloat with
  | queued k q there bears =>
    rw [queue] at there
    obtain ⟨victim, reply⟩ := current.landed isOpen done exclusive k q there
    cases q with
    | victim => cases victim
    | reply => cases reply
    | read | ioWrite | barrier => cases bears
  | gathered u shown =>
    rw [closed] at shown
    cases shown

theorem delivers (current : Current lay f) {t : Transaction} (isOpen : f.txn = some t)
    (done : t.pending = 0) (reads : t.kind ≠ .claim)
    (lost : t.kind = .upgrade → f.line t.origin = .absent) : f.fill t = f.value := by
  rw [Focus.fill, if_neg reads]
  cases held : t.data with
  | some data => exact current.worth data (.gathered t isOpen held)
  | none =>
    rcases current.source with stored | source
    · exact stored
    · simp only [Source, isOpen, held, Option.isSome_none, Bool.false_eq_true, false_or] at source
      have absent : f.line t.origin = .absent := by
        obtain ⟨slot, asked⟩ := current.asked t isOpen
        cases kind : t.kind with
        | share => exact current.fresh t.origin slot _ asked (.inl kind)
        | modify => exact current.fresh t.origin slot _ asked (.inr kind)
        | upgrade => exact lost kind
        | claim => exact absurd kind reads
      rcases source with dirty | ⟨k, ⟨probed, _⟩ | ⟨owed, _⟩⟩
      · rw [absent] at dirty
        cases dirty
      · have owed := owes_pos_of_probe probed
        have clear := current.clear isOpen done k
        omega
      · exact absurd (current.clear isOpen done k) owed

theorem sound_step (current : Current lay f) (step : Focus.Step lay True f g) (k : Nat) :
    (g.line k).Sound := by
  have before := current.sound k
  have gone (j : Nat) : (update f.line j .absent k).Sound := by
    by_cases here : k = j
    · subst here
      rw [Function.update_self]
      exact Holding.sound_absent
    · rwa [Function.update_of_ne here]
  cases step with
  | ask | defer | settle | drop | take | begin => exact before
  | lose j => exact gone j
  | evict j => exact gone j
  | store j offset bytes sole =>
    by_cases here : k = j
    · subst here
      simp only [Function.update_self]
      refine ⟨fun dirty => ?_, before.dirty⟩
      rw [Option.isSome_map]
      exact before.copy dirty
    · simpa only [Function.update_of_ne here]
  | snoop j p later reply =>
    by_cases here : k = j
    · subst here
      simp only [Function.update_self]
      exact before.after _
    · simpa only [Function.update_of_ne here]
  | finish t slot line isOpen done id asked filled =>
    by_cases here : k = t.origin
    · subst here
      simp only [Function.update_self]
      cases filled with
      | refused => exact Holding.sound_absent
      | owned => exact ⟨fun _ => rfl, fun _ => rfl⟩
      | filled lost _ copy owned fresh =>
        by_cases share : t.kind = .share
        · rw [fresh share (current.fresh t.origin slot _ asked (.inl share))]
          exact ⟨nofun, nofun⟩
        · rw [owned share]
          exact ⟨fun _ => rfl, fun _ => rfl⟩
    · simpa only [Function.update_of_ne here]

/-- What a move sets afloat is the dirty data of a node that is no sole holder any more. -/
theorem afloat_step (current : Current lay f) (step : Focus.Step lay True f g) {data : Block}
    (afloat : g.Afloat data) :
    f.Afloat data ∨ ∃ k, (f.line k).dirty ∧ (f.line k).copy = some data ∧ (g.line k).sole = false := by
  cases afloat with
  | queued k q there bears =>
    have old (member : q ∈ f.queue k) : f.Afloat data := .queued k q member bears
    cases step with
    | lose | store | begin | finish => exact .inl (old there)
    | defer j id a kind later head => exact .inl (old (mem_rest head there))
    | settle j slot a data later head => exact .inl (old (mem_rest head there))
    | drop j r later head => exact .inl (old (mem_rest head there))
    | take j r later t head => exact .inl (old (mem_rest head there))
    | ask j slot a kind =>
      rcases mem_send there with before | ⟨_, rfl⟩
      · exact .inl (old before)
      · cases bears
    | evict j slot a victim dirty copy =>
      rcases mem_send there with before | ⟨rfl, rfl⟩
      · exact .inl (old before)
      · cases bears
        exact .inr ⟨k, dirty, copy, by simp [Holding.absent]⟩
    | snoop j p later reply oldest named held missed =>
      rcases mem_send there with before | ⟨rfl, rfl⟩
      · exact .inl (old before)
      · obtain ⟨t, isOpen, _⟩ := current.probed (owes_pos_of_probe (k := k) (by rw [oldest]; simp))
        have command := (current.probes t isOpen k p (by rw [oldest]; exact List.mem_cons_self ..)).2
        have carried : reply.dirtyData = some data := bears
        by_cases absent : f.line k = .absent
        · rcases missed absent with none_carried | ⟨slot, a, victim, waiting, same⟩
          · rw [none_carried] at carried
            cases carried
          · rw [same] at carried
            exact .inl (.queued k _ waiting carried)
        · have usual := lay.usual t.kind
          rw [held absent] at carried
          split at carried
          · rename_i dirty
            refine .inr ⟨k, dirty, carried, ?_⟩
            simp only [Function.update_self, command]
            exact Holding.not_sole_after _ usual.next usual.moves
          · cases carried
  | gathered t isOpen held =>
    cases step with
    | take k r later u head shown =>
      cases isOpen
      change r.dirtyData.or u.data = some data at held
      cases carried : r.dirtyData with
      | none =>
        rw [carried, Option.none_or] at held
        exact .inl (.gathered u shown held)
      | some dirty =>
        rw [carried, Option.some_or] at held
        have there : .reply r ∈ f.queue k := by
          rw [head]
          exact List.mem_cons_self ..
        exact .inl (.queued k _ there (carried.trans held))
    | begin u slot a closed id asked moved pending empty =>
      cases isOpen
      rw [empty] at held
      cases held
    | finish => cases isOpen
    | ask | lose | evict | store | snoop | defer | settle | drop => exact .inl (.gathered t isOpen held)

theorem lone_step (current : Current lay f) (step : Focus.Step lay True f g) {o : Nat}
    (sole : (g.line o).sole) (data : Block) : ¬ g.Afloat data := by
  intro afloat
  cases step.change o with
  | lowers down =>
    have before := down.sole sole
    rcases current.afloat_step step afloat with old | ⟨k, dirty, _, lost⟩
    · exact current.lone o before data old
    · by_cases here : k = o
      · rw [here, sole] at lost
        cases lost
      · rw [current.alone o before k here] at dirty
        cases dirty
  | fills t slot isOpen origin done asked filled answered closed queue =>
    subst origin
    have exclusive := current.not_share_of_sole filled asked sole
    exact current.not_afloat isOpen done exclusive closed queue data afloat

theorem worth_step (current : Current lay f) (step : Focus.Step lay True f g) {data : Block}
    (afloat : g.Afloat data) : data = g.value := by
  have before : data = f.value := by
    rcases current.afloat_step step afloat with old | ⟨k, _, copy, _⟩
    · exact current.worth data old
    · exact current.copies k data copy
  rcases step.worth with ⟨same, _⟩ | ⟨k, offset, bytes, sole, _, queue, txn, line⟩ |
    ⟨t, line, isOpen, done, claim, _, _, _, queue, closed, _⟩
  · rw [same]
    exact before
  · refine absurd afloat (current.lone_step step (o := k) ?_ data)
    rw [line, Function.update_self]
    exact sole
  · refine absurd afloat (current.not_afloat isOpen done ?_ closed queue data)
    rw [claim]
    nofun

theorem copies_step (current : Current lay f) (step : Focus.Step lay True f g) {k : Nat} {data : Block}
    (copy : (g.line k).copy = some data) : data = g.value := by
  rcases step.worth with ⟨same, kept⟩ | ⟨j, offset, bytes, sole, value, _, _, line⟩ |
    ⟨t, line, isOpen, done, claim, filled, held, value, _, _, lines⟩
  · rw [same]
    rcases kept k data copy with old | ⟨t, isOpen, done, reads, lost, rfl⟩
    · exact current.copies k data old
    · exact current.delivers isOpen done reads lost
  · rw [line] at copy
    by_cases here : k = j
    · subst here
      rw [Function.update_self, Option.map_eq_some_iff] at copy
      obtain ⟨old, present, rfl⟩ := copy
      rw [value, current.copies k old present]
    · rw [Function.update_of_ne here, current.alone j sole k here] at copy
      cases copy
  · rw [lines] at copy
    by_cases here : k = t.origin
    · subst here
      rw [Function.update_self] at copy
      cases filled with
      | refused => cases copy
      | owned kind =>
        rw [claim] at kind
        cases kind
      | filled lost _ given =>
        rw [given, Focus.fill, if_pos claim] at copy
        rw [value]
        exact (Option.some.inj copy).symm
    · have taken : t.kind ≠ .share := by
        rw [claim]
        decide
      rw [Function.update_of_ne here, (current.given_up isOpen done here).2 taken] at copy
      cases copy

/-- The node that a transaction serves asks for the block, so it gives up no dirty data. -/
theorem asked_step (current : Current lay f) (step : Focus.Step lay True f g) {t : Transaction}
    (isOpen : g.txn = some t) : ∃ slot, g.asks t.origin slot = some t.kind := by
  cases step with
  | ask k slot a kind inside free =>
    obtain ⟨i, asked⟩ := current.asked t isOpen
    have apart : t.origin ≠ k := by
      rintro rfl
      rw [free] at asked
      cases asked
    exact ⟨i, by simpa only [Function.update_of_ne apart] using asked⟩
  | take k r later u head shown =>
    cases isOpen
    exact current.asked u shown
  | begin u slot a closed id asked =>
    cases isOpen
    exact ⟨slot, asked⟩
  | finish => cases isOpen
  | lose | evict | store | snoop | defer | settle | drop => exact current.asked t isOpen

theorem moved_step (current : Current lay f) (step : Focus.Step lay True f g) {t : Transaction}
    (isOpen : g.txn = some t) : ∀ q ∈ g.queue t.origin, q.isRead = false := by
  intro q member
  cases step with
  | ask k slot a kind inside free =>
    rcases mem_send member with old | ⟨rfl, _⟩
    · exact current.moved t isOpen q old
    · obtain ⟨i, asked⟩ := current.asked t isOpen
      rw [free] at asked
      cases asked
  | evict k slot a data =>
    rcases mem_send member with old | ⟨_, rfl⟩
    · exact current.moved t isOpen q old
    · rfl
  | snoop k p later reply =>
    rcases mem_send member with old | ⟨_, rfl⟩
    · exact current.moved t isOpen q old
    · rfl
  | defer k id a kind later head => exact current.moved t isOpen q (mem_rest head member)
  | settle k slot a data later head => exact current.moved t isOpen q (mem_rest head member)
  | drop k r later head => exact current.moved t isOpen q (mem_rest head member)
  | take k r later u head shown =>
    cases isOpen
    exact current.moved u shown q (mem_rest head member)
  | begin u slot a closed id asked moved =>
    cases isOpen
    cases q with
    | read id a kind => exact absurd member (moved id a kind)
    | ioWrite | victim | reply | barrier => rfl
  | finish => cases isOpen
  | lose | store => exact current.moved t isOpen q member

theorem behind_step (current : Current lay f) (step : Focus.Step lay True f g) {k : Nat} {slot : Slot}
    (asks : (g.asks k slot).isSome) : Followed Request.isRead (g.queue k) := by
  obtain ⟨kind, asking⟩ := Option.isSome_iff_exists.mp asks
  rcases step.asks asking with old | ⟨_, _, _, a, queue⟩
  · have before := current.behind k slot (by rw [old]; rfl)
    have popped {j : Nat} {q : Request} {later : List Request} (head : f.queue j = q :: later) :
        Followed Request.isRead (update f.queue j later k) := by
      by_cases here : k = j
      · subst here
        rw [head] at before
        rw [Function.update_self]
        exact before.later
      · rwa [Function.update_of_ne here]
    cases step with
    | ask j i a raised inside free =>
      have apart : k ≠ j := by
        rintro rfl
        rw [free] at old
        cases old
      simpa only [Function.update_of_ne apart]
    | evict j i a data dirty copy idle =>
      have apart : k ≠ j := by
        rintro rfl
        rw [idle trivial] at old
        cases old
      simpa only [Function.update_of_ne apart]
    | snoop j p later reply =>
      by_cases here : k = j
      · subst here
        simp only [Function.update_self]
        exact before.send rfl
      · simpa only [Function.update_of_ne here]
    | defer j id a kind later head => exact popped head
    | settle j i a data later head => exact popped head
    | drop j r later head => exact popped head
    | take j r later t head => exact popped head
    | lose | store | begin | finish => exact before
  · rw [queue]
    exact Followed.mark_last _ rfl rfl

theorem last_step (current : Current lay f) (step : Focus.Step lay True f g) {t : Transaction}
    (isOpen : g.txn = some t) (exclusive : t.kind ≠ .share) {k : Nat} (other : k ∈ lay.others t.origin)
    (silent : g.probes k = []) : Followed Request.isReply (g.queue k) := by
  have popped {j : Nat} {q : Request} {later : List Request} (head : f.queue j = q :: later)
      (before : Followed Request.isReply (f.queue k)) :
      Followed Request.isReply (update f.queue j later k) := by
    by_cases here : k = j
    · subst here
      rw [head] at before
      rw [Function.update_self]
      exact before.later
    · rwa [Function.update_of_ne here]
  cases step with
  | ask j i a kind =>
    have before := current.last t isOpen exclusive k other silent
    by_cases here : k = j
    · subst here
      simp only [Function.update_self]
      exact before.send rfl
    · simpa only [Function.update_of_ne here]
  | evict j i a data dirty =>
    have before := current.last t isOpen exclusive k other silent
    have apart : k ≠ j := by
      rintro rfl
      rw [(current.answered t isOpen k other silent).2 exclusive] at dirty
      cases dirty
    simpa only [Function.update_of_ne apart]
  | snoop j p later reply =>
    by_cases here : k = j
    · subst here
      simp only [Function.update_self]
      exact Followed.mark_last _ rfl rfl
    · simp only [Function.update_of_ne here] at silent ⊢
      exact current.last t isOpen exclusive k other silent
  | defer j id a kind later head =>
    exact popped head (current.last t isOpen exclusive k other silent)
  | settle j i a data later head =>
    exact popped head (current.last t isOpen exclusive k other silent)
  | drop j r later head => exact popped head (current.last t isOpen exclusive k other silent)
  | take j r later u head shown =>
    cases isOpen
    exact popped head (current.last u shown exclusive k other silent)
  | begin u slot a =>
    cases isOpen
    simp only [if_pos other, List.append_eq_nil_iff] at silent
    exact absurd silent.2 (by simp)
  | finish => cases isOpen
  | lose | store => exact current.last t isOpen exclusive k other silent

theorem unanswered (current : Current lay f) {k : Nat} (probed : f.probes k ≠ []) (r : ProbeReply) :
    .reply r ∉ f.queue k := by
  intro member
  have probe := List.length_pos_iff.mpr probed
  have reply := List.length_pos_of_mem
    (List.mem_filter.mpr ⟨member, rfl⟩ : .reply r ∈ (f.queue k).filter Request.isReply)
  have once := current.once k
  unfold Focus.owes at once
  omega

theorem source_evicted (current : Current lay f) {k : Nat} {slot : Slot} {a : Address} {data : Block}
    (idle : ∀ i, f.asks k i = none) (txn : g.txn = f.txn) (probes : g.probes = f.probes)
    (line : g.line = update f.line k .absent)
    (queue : g.queue = update f.queue k (f.queue k ++ [.victim slot a data])) (source : f.Source) :
    g.Source := by
  have owes : g.owes = f.owes := by
    refine owes_congr probes ?_
    rw [queue]
    exact replies_send rfl k
  have fed (j : Nat) (before : feeds (f.queue j)) : feeds (g.queue j) := by
    rw [queue]
    by_cases here : j = k
    · subst here
      rw [Function.update_self]
      exact feeds_append before _
    · rwa [Function.update_of_ne here]
  have leaves (unanswered : ∀ r, .reply r ∉ f.queue k) : feeds (g.queue k) := by
    rw [queue, Function.update_self]
    exact feeds_victim unanswered slot a data
  unfold Source at source ⊢
  rw [txn, probes, owes, line]
  cases shown : f.txn with
  | none => exact ⟨k, .inr (leaves (not_reply_of_owes (current.idle shown k)))⟩
  | some t =>
    rw [shown] at source
    have apart : t.origin ≠ k := by
      rintro rfl
      obtain ⟨i, asked⟩ := current.asked t shown
      rw [idle] at asked
      cases asked
    rcases source with gathered | own | ⟨j, ⟨probed, dirty⟩ | ⟨owed, before⟩⟩
    · exact .inl gathered
    · refine .inr (.inl ?_)
      rwa [Function.update_of_ne apart]
    · refine .inr (.inr ⟨j, ?_⟩)
      by_cases here : j = k
      · subst here
        have owed := owes_pos_of_probe probed
        exact .inr ⟨by omega, leaves (current.unanswered probed)⟩
      · refine .inl ⟨probed, ?_⟩
        rwa [Function.update_of_ne here]
    · exact .inr (.inr ⟨j, .inr ⟨owed, fed j before⟩⟩)

theorem source_of_sole (current : Current lay f) {k : Nat} (sole : (f.line k).sole) : f.Source := by
  have dirty := (current.sound k).dirty sole
  unfold Source
  cases shown : f.txn with
  | none => exact ⟨k, .inl dirty⟩
  | some t =>
    by_cases here : k = t.origin
    · rw [here] at dirty
      exact .inr (.inl dirty)
    · refine .inr (.inr ⟨k, .inl ⟨fun silent => ?_, dirty⟩⟩)
      have inside : k < lay.cpus := by
        by_contra outside
        exact Holding.not_absent_of_sole sole (current.inside k (by omega)).1
      obtain ⟨shared, gone⟩ :=
        current.answered t shown k ((lay.mem_others t.origin k).mpr ⟨inside, here⟩) silent
      by_cases share : t.kind = .share
      · rw [shared share] at sole
        cases sole
      · exact Holding.not_absent_of_sole sole (gone share)

theorem source_snooped (current : Current lay f) {k : Nat} {p : Probe} {later : List Probe}
    {reply : ProbeReply} (oldest : f.probes k = p :: later)
    (held : f.line k ≠ .absent →
      reply.dirtyData = if (f.line k).dirty then (f.line k).copy else none)
    (txn : g.txn = f.txn) (probes : g.probes = update f.probes k later)
    (line : g.line = update f.line k ((f.line k).after p.command.next))
    (queue : g.queue = update f.queue k (f.queue k ++ [.reply reply])) (source : f.Source) :
    g.Source := by
  have probed : f.probes k ≠ [] := by
    rw [oldest]
    nofun
  obtain ⟨t, shown, other⟩ := current.probed (owes_pos_of_probe probed)
  have apart : k ≠ t.origin := ((lay.mem_others t.origin k).mp other).2
  have owed : g.owes k ≠ 0 := by
    have sent : .reply reply ∈ g.queue k := by
      rw [queue, Function.update_self]
      simp
    have owes := owes_pos_of_reply sent
    omega
  have elsewhere (j : Nat) (away : j ≠ k) : g.owes j = f.owes j := by
    rw [Focus.owes, Focus.owes, probes, queue, Function.update_of_ne away, Function.update_of_ne away]
  unfold Source at source ⊢
  rw [shown] at source
  rw [txn, shown]
  rcases source with gathered | own | ⟨j, ⟨waits, dirty⟩ | ⟨owes, fed⟩⟩
  · exact .inl gathered
  · refine .inr (.inl ?_)
    rwa [line, Function.update_of_ne apart.symm]
  · refine .inr (.inr ⟨j, ?_⟩)
    by_cases here : j = k
    · subst here
      refine .inr ⟨owed, ?_⟩
      have there : f.line j ≠ .absent := by
        intro absent
        rw [absent] at dirty
        cases dirty
      rw [queue, Function.update_self]
      refine feeds_reply (current.unanswered probed) ?_
      rw [held there, if_pos dirty]
      exact (current.sound j).copy dirty
    · refine .inl ⟨?_, ?_⟩
      · rwa [probes, Function.update_of_ne here]
      · rwa [line, Function.update_of_ne here]
  · refine .inr (.inr ⟨j, .inr ?_⟩)
    by_cases here : j = k
    · subst here
      refine ⟨owed, ?_⟩
      rw [queue, Function.update_self]
      exact feeds_append fed _
    · rw [elsewhere j here, queue, Function.update_of_ne here]
      exact ⟨owes, fed⟩

theorem source_taken {k : Nat} {r : ProbeReply} {later : List Request} {t : Transaction}
    (head : f.queue k = .reply r :: later) (isOpen : f.txn = some t) (txn : g.txn = some (t.take r))
    (probes : g.probes = f.probes) (line : g.line = f.line)
    (queue : g.queue = update f.queue k later) (source : f.Source) : g.Source := by
  have gathers : (t.take r).data = r.dirtyData.or t.data := rfl
  unfold Source at source ⊢
  rw [isOpen] at source
  rw [txn, probes, line]
  rcases source with gathered | own | ⟨j, waits | ⟨owes, fed⟩⟩
  · refine .inl ?_
    rw [gathers, Option.isSome_or, gathered, Bool.or_true]
  · exact .inr (.inl own)
  · exact .inr (.inr ⟨j, .inl waits⟩)
  · by_cases here : j = k
    · subst here
      rw [head] at fed
      refine .inl ?_
      rw [gathers, Option.isSome_or]
      exact Bool.or_eq_true_iff.mpr (.inl fed)
    · refine .inr (.inr ⟨j, .inr ?_⟩)
      have same : g.owes j = f.owes j := by
        rw [Focus.owes, Focus.owes, probes, queue, Function.update_of_ne here]
      rw [same, queue, Function.update_of_ne here]
      exact ⟨owes, fed⟩

theorem source_begun (current : Current lay f) {t : Transaction} {slot : Slot} {a : Address}
    (closed : f.txn = none) (asked : f.asks t.origin slot = some t.kind)
    (moved : ∀ id a kind, .read id a kind ∉ f.queue t.origin) (txn : g.txn = some t)
    (probes : g.probes = fun j =>
      if j ∈ lay.others t.origin then f.probes j ++ [.ofCommand t.number a (lay.command t.kind)]
      else f.probes j)
    (line : g.line = f.line) (queue : g.queue = f.queue) (source : f.Source) : g.Source := by
  have probed {k : Nat} (apart : k ≠ t.origin) (inside : k < lay.cpus) : g.probes k ≠ [] := by
    rw [probes]
    simp only [if_pos ((lay.mem_others t.origin k).mpr ⟨inside, apart⟩)]
    simp
  unfold Source at source ⊢
  rw [closed] at source
  rw [txn, line]
  obtain ⟨k, dirty | fed⟩ := source
  · by_cases here : k = t.origin
    · rw [here] at dirty
      exact .inr (.inl dirty)
    · have inside : k < lay.cpus := by
        by_contra outside
        rw [(current.inside k (by omega)).1] at dirty
        cases dirty
      exact .inr (.inr ⟨k, .inl ⟨probed here inside, dirty⟩⟩)
  · by_cases here : k = t.origin
    · -- the read has left the queue of the origin, and no victim was behind it
      subst here
      have unread (q : Request) (member : q ∈ f.queue t.origin) : q.isRead = false := by
        cases q with
        | read id a kind => exact absurd member (moved id a kind)
        | ioWrite | victim | reply | barrier => rfl
      have clean := (current.behind t.origin slot (by rw [asked]; rfl)).no_victim unread
      rcases of_feeds fed with ⟨i, b, data, member⟩ | ⟨r, member⟩
      · cases clean _ member
      · exact absurd member (not_reply_of_owes (current.idle closed t.origin) r)
    · have inside : k < lay.cpus := by
        by_contra outside
        rw [(current.inside k (by omega)).2.2] at fed
        cases fed
      have owed := owes_pos_of_probe (probed here inside)
      refine .inr (.inr ⟨k, .inr ⟨by omega, ?_⟩⟩)
      rwa [queue]

/-- The line that a transaction leaves at its origin is dirty if it was, or if it is exclusive. -/
theorem dirty_of_filled (current : Current lay f) {t : Transaction} {line : Holding} {slot : Slot}
    (asked : f.asks t.origin slot = some t.kind) (filled : f.Filled t line)
    (held : (f.line t.origin).dirty ∨ t.kind ≠ .share ∧ line.copy.isSome) : line.dirty := by
  cases filled with
  | refused absent =>
    rcases held with dirty | ⟨_, copy⟩
    · rw [absent] at dirty
      cases dirty
    · cases copy
  | owned => rfl
  | filled lost line copy owned fresh =>
    by_cases share : t.kind = .share
    · have absent := current.fresh t.origin slot _ asked (.inl share)
      rcases held with dirty | ⟨exclusive, _⟩
      · rw [absent] at dirty
        cases dirty
      · exact absurd share exclusive
    · rw [owned share]

theorem source_finished (current : Current lay f) {t : Transaction} {slot : Slot} {line : Holding}
    (isOpen : f.txn = some t) (done : t.pending = 0) (asked : f.asks t.origin slot = some t.kind)
    (filled : f.Filled t line) (txn : g.txn = none) (memory : g.memory = t.data.getD f.memory)
    (lines : g.line = update f.line t.origin line)
    (value : g.value = if t.kind = .claim ∧ line.copy.isSome then .zero else f.value) :
    g.memory = g.value ∨ g.Source := by
  have supplies (dirty : line.dirty) : g.Source := by
    unfold Source
    rw [txn]
    refine ⟨t.origin, .inl ?_⟩
    rwa [lines, Function.update_self]
  by_cases zeroed : t.kind = .claim ∧ line.copy.isSome
  · have exclusive : t.kind ≠ .share := by
      rw [zeroed.1]
      nofun
    exact .inr (supplies (current.dirty_of_filled asked filled (.inr ⟨exclusive, zeroed.2⟩)))
  · rw [memory, value, if_neg zeroed]
    cases held : t.data with
    | some data => exact .inl (current.worth data (.gathered t isOpen held))
    | none =>
      rcases current.source with stored | source
      · exact .inl stored
      · simp only [Source, isOpen, held, Option.isSome_none, Bool.false_eq_true, false_or] at source
        rcases source with own | ⟨k, ⟨probed, _⟩ | ⟨owed, _⟩⟩
        · exact .inr (supplies (current.dirty_of_filled asked filled (.inl own)))
        · have owed := owes_pos_of_probe probed
          have clear := current.clear isOpen done k
          omega
        · exact absurd (current.clear isOpen done k) owed

theorem source_step (current : Current lay f) (step : Focus.Step lay True f g) :
    g.memory = g.value ∨ g.Source := by
  have still (k : Nat) (dirty : (f.line k).dirty) : (f.line k).dirty := dirty
  cases step with
  | ask k slot a kind =>
    refine current.source.imp_right fun source => source.mono rfl rfl (owes_congr rfl
      (replies_send rfl k)) still fun j fed => ?_
    by_cases here : j = k
    · subst here
      simp only [Function.update_self]
      exact feeds_append fed _
    · simpa only [Function.update_of_ne here]
  | lose k clean =>
    refine current.source.imp_right fun source => source.mono rfl rfl rfl (fun j dirty => ?_)
      fun _ fed => fed
    have apart : j ≠ k := by
      rintro rfl
      rw [clean] at dirty
      cases dirty
    simpa only [Function.update_of_ne apart]
  | evict k slot a data dirty copy idle =>
    exact current.source.imp_right (current.source_evicted (idle trivial) rfl rfl rfl rfl)
  | store k offset bytes sole =>
    refine .inr ((current.source_of_sole sole).mono rfl rfl rfl (fun j dirty => ?_) fun _ fed => fed)
    by_cases here : j = k
    · subst here
      simpa only [Function.update_self]
    · simpa only [Function.update_of_ne here]
  | snoop k p later reply oldest named held =>
    exact current.source.imp_right (current.source_snooped oldest held rfl rfl rfl rfl)
  | defer k id a kind later head =>
    refine current.source.imp_right fun source => source.mono rfl rfl (owes_congr rfl
      (replies_rest head rfl)) still fun j fed => ?_
    by_cases here : j = k
    · subst here
      rw [head] at fed
      simp only [Function.update_self]
      exact fed
    · simpa only [Function.update_of_ne here]
  | settle k slot a data later head =>
    refine .inl (current.worth data (.queued k (.victim slot a data) ?_ rfl))
    rw [head]
    exact List.mem_cons_self ..
  | drop k r later head closed =>
    obtain ⟨t, isOpen, number⟩ := current.replied (k := k) (r := r) (by rw [head]; exact List.mem_cons_self ..)
    exact absurd number (closed t isOpen)
  | take k r later t head isOpen =>
    exact current.source.imp_right (source_taken head isOpen rfl rfl rfl rfl)
  | begin t slot a closed id asked moved =>
    exact current.source.imp_right (current.source_begun closed asked moved rfl rfl rfl rfl)
  | finish t slot line isOpen done id asked filled =>
    exact current.source_finished isOpen done asked filled rfl rfl rfl rfl

theorem step (current : Current lay f) (step : Focus.Step lay True f g) : Current lay g where
  toSafe := current.toSafe.step step
  sound := current.sound_step step
  copies _ _ copy := current.copies_step step copy
  worth _ afloat := current.worth_step step afloat
  lone _ sole data := current.lone_step step sole data
  asked _ isOpen := current.asked_step step isOpen
  moved _ isOpen := current.moved_step step isOpen
  behind _ _ asks := current.behind_step step asks
  last _ isOpen exclusive _ other silent := current.last_step step isOpen exclusive other silent
  source := current.source_step step

end Current
end Focus
end CacheCoherence
