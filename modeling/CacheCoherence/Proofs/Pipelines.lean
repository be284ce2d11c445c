import CacheCoherence.Proofs.Passes

namespace CacheCoherence

/-- A reference that is answered from the caches, with the answer to an entry that waits. -/
def Controller.joinsLate (c : Controller) : Operation → Bool
  | .issue r =>
    r.check.isOk && !r.addr.isIo && (c.lookup r.addr).valid && (c.misses.mergeTarget r).isSome
  | _ => false

def Fabric.joinsLate (f : Fabric) (cpu : Nat) (op : Operation) : Bool :=
  (f.controller? cpu).any (·.joinsLate op)

namespace Pass

variable {lay : Layout} {s : Pass} {now : Ledger} {k : Nat} {n : Node}

theorem operate_eq (present : s.fabric.nodes[k]? = some n) (op : Operation) :
    let t := s.seat k { n with controller := n.controller.perform op }
    s.fabric.operate k op = t.fabric ∨ s.fabric.operate k op = t.fabric.ringDoorbell := by
  simp only [Fabric.operate, Fabric.withController, present, Option.map_some, Option.getD_some]
  split
  · exact .inr rfl
  · exact .inl rfl

theorem operate_none (missing : s.fabric.nodes[k]? = none) (op : Operation) :
    s.fabric.operate k op = s.fabric := by
  simp only [Fabric.operate, Fabric.withController, missing, Option.map_none, Option.getD_none]

theorem Steady.rung (steady : Steady lay s) :
    Steady lay { s with fabric := s.fabric.ringDoorbell } :=
  ⟨steady.nodes, steady.sockets, steady.backed, steady.readNext, steady.good, steady.rings,
    steady.parked, steady.busy, steady.marked, steady.known⟩

theorem filter_writes {writes : List Request}
    (only : ∀ w ∈ writes, ∃ slot a data mask written, w = .ioWrite (.ioWrite slot) a data mask written) :
    writes.filter Request.matters = [] := by
  rw [List.filter_eq_nil_iff]
  intro w member
  obtain ⟨slot, a, data, mask, written, rfl⟩ := only w member
  simp [Request.matters]

theorem marked_writes {writes : List Request}
    (only : ∀ w ∈ writes, ∃ slot a data mask written, w = .ioWrite (.ioWrite slot) a data mask written) :
    ∀ w ∈ writes, w.Marked := by
  intro w member id a data mask written same
  obtain ⟨slot, _, _, _, _, rfl⟩ := only w member
  cases same
  exact ⟨slot, rfl⟩

theorem filter_victims {sent : List Request}
    (sends : ∀ q ∈ sent, ∃ (v : Victim) (slot : Slot), q = v.request slot) :
    sent.filter Request.matters = sent := by
  rw [List.filter_eq_self]
  intro q member
  obtain ⟨v, slot, rfl⟩ := sends q member
  rfl

theorem marked_victims {sent : List Request}
    (sends : ∀ q ∈ sent, ∃ (v : Victim) (slot : Slot), q = v.request slot) :
    ∀ q ∈ sent, q.Marked := by
  intro q member id a data mask written same
  obtain ⟨v, slot, rfl⟩ := sends q member
  cases same

/-- The lines of a controller are the same for all addresses of a block. -/
theorem blockwise (c : Controller) : Blockwise c.line := fun _ _ same => c.line_congr same

theorem after_idle (present : s.fabric.nodes[k]? = some n) {op : Operation}
    (idle : n.controller.stores op = none) (t : Pass) : now.after s (.pipeline k op) t = now := by
  simp only [Ledger.after, controller?_eq present, Option.bind_some, idle]

theorem after_stored (present : s.fabric.nodes[k]? = some n) {op : Operation} {a : Address}
    {bytes : List UInt8} (stored : n.controller.stores op = some (a, bytes)) (t : Pass) :
    now.after s (.pipeline k op) t =
      fun b => if b.block = a.block then (now b).write a.offset bytes else now b := by
  simp only [Ledger.after, controller?_eq present, Option.bind_some, stored]

section seated

variable {d : Controller} {sent : List Request}

theorem view_seated (present : s.fabric.nodes[k]? = some n)
    (outbound : d.outbound = n.controller.outbound ++ sent) (w : Ledger) :
    (s.seat k { n with controller := d }).view w =
      (((s.view w).rewant k d.wanted).reline k d.line).send k (sent.filter Request.matters) :=
  view_seat present outbound rfl

theorem reline_held (present : s.fabric.nodes[k]? = some n) (held : Controller.Held n.controller d) :
    (s.view now).reline k d.line = s.view now := by
  apply View.reline_same
  intro b
  rw [held.lines, view_line present]

theorem reline_want (present : s.fabric.nodes[k]? = some n) (held : Controller.Held n.controller d)
    (slot : Slot) (r : Option Reference) :
    ((s.view now).want k slot r).reline k d.line = (s.view now).want k slot r := by
  apply View.reline_same
  intro b
  have here : (s.view now).line k b = n.controller.line b := view_line present b
  rw [held.lines]
  exact here.symm

theorem rewant_kept (present : s.fabric.nodes[k]? = some n)
    (kept : ∀ slot, d.wanted slot = n.controller.wanted slot) :
    (s.view now).rewant k d.wanted = s.view now := by
  apply View.rewant_same
  intro slot
  rw [kept, view_wants present]

theorem rewant_one (present : s.fabric.nodes[k]? = some n) {slot : Slot} {r : Option Reference}
    (one : ∀ i, d.wanted i = if slot = i then r else n.controller.wanted i) :
    (s.view now).rewant k d.wanted = (s.view now).want k slot r := by
  apply View.rewant_one
  intro i
  rw [one, view_wants present]

theorem called_issued (present : s.fabric.nodes[k]? = some n) {r : Reference}
    (punctual : n.controller.joinsLate (.issue r) = false) {result : Except Fault Slot}
    (issued : Controller.Issued n.controller r result d sent)
    (outbound : d.outbound = n.controller.outbound ++ sent) :
    (s.seat k { n with controller := d }).view now = s.view now ∨
      View.Called (s.view now) k (.issue r) ((s.seat k { n with controller := d }).view now) := by
  have seated := view_seated (s := s) present outbound now
  have wants (slot : Slot) : (s.view now).wants k slot = n.controller.wanted slot :=
    view_wants present slot
  cases issued with
  | refused fault _ quiet => exact .inl (view_quiet present quiet rfl)
  | asked slot access kind _ held free reads named wanted place =>
    rw [seated, rewant_one present wanted, reline_want present held]
    refine .inr (.ask _ k slot r access kind ?_ reads named ?_)
    · rw [wants, free]
    · rw [view_line present]
      exact place
  | joined slot old _ held found access merges block missing wanted =>
    rw [seated, rewant_one present wanted, reline_want present held,
      List.filter_nil, View.send_nil]
    refine .inr (.join _ k slot old r ?_ access merges block)
    rw [wants, found]
  | hit slot answer _ held _ _ _ wanted =>
    rw [seated, rewant_kept present wanted, reline_held present held,
      List.filter_nil, View.send_nil]
    exact .inl rfl
  | late slot m _ held checked cacheable valid target wanted =>
    simp [Controller.joinsLate, checked, cacheable, valid, target, Except.isOk,
      Except.toBool] at punctual
  | barrier slot _ held free access wanted writes only =>
    have tail : (writes ++ [Request.barrier (.miss slot)]).filter Request.matters =
        [.barrier (.miss slot)] := by
      rw [List.filter_append, filter_writes only]
      rfl
    rw [seated, rewant_one present wanted, reline_want present held, tail]
    refine .inr (.hold _ k slot r ?_ access)
    rw [wants, free]
  | purged slot _ good access wanted _ others gone fate sends carried =>
    rw [seated, rewant_kept present wanted, filter_victims sends]
    refine .inr (.purge _ k r d.line sent access (blockwise d) ?_ gone ?_ sends)
    · intro b apart
      rw [view_line present]
      exact others b apart
    · rw [view_line present]
      exact fate

theorem called_stored (present : s.fabric.nodes[k]? = some n) {a : Address} {bytes : List UInt8}
    (outbound : d.outbound = n.controller.outbound ++ [])
    (sole : (n.controller.line a).sole) (wanted : ∀ slot, d.wanted slot = n.controller.wanted slot)
    (moved : ∀ b, d.line b =
      if b.block = a.block then
        { n.controller.line a with copy := (n.controller.line a).copy.map (·.write a.offset bytes) }
      else n.controller.line b) :
    View.Called (s.view now) k (.store a bytes) ((s.seat k { n with controller := d }).view
      fun b => if b.block = a.block then (now b).write a.offset bytes else now b) := by
  rw [view_seated present outbound]
  have shape : (((s.view fun b => if b.block = a.block then (now b).write a.offset bytes else now b
      ).rewant k d.wanted).reline k d.line).send k (List.filter Request.matters []) =
      ((s.view now).reline k d.line).written a bytes := by
    rw [List.filter_nil, View.send_nil, View.rewant_same]
    · rfl
    · intro slot
      rw [wanted]
      exact (view_wants present slot).symm
  rw [shape]
  refine .store _ k a bytes d.line (blockwise d) ?_ ?_
  · rw [view_line present]
    exact sole
  · intro b
    rw [view_line present, view_line present]
    exact moved b

theorem called (present : s.fabric.nodes[k]? = some n) {op : Operation}
    (punctual : n.controller.joinsLate op = false)
    (performed : Controller.Performed n.controller op d sent)
    (outbound : d.outbound = n.controller.outbound ++ sent) (t : Pass) :
    (s.seat k { n with controller := d }).view (now.after s (.pipeline k op) t) = s.view now ∨
      View.Called (s.view now) k op
        ((s.seat k { n with controller := d }).view (now.after s (.pipeline k op) t)) := by
  cases performed with
  | quiet _ _ quiet none_stored =>
    rw [after_idle present none_stored]
    exact .inl (view_quiet present quiet rfl)
  | issued r result d sent issued =>
    rw [after_idle present rfl]
    exact called_issued present punctual issued outbound
  | stored a bytes d good accepted sole wanted moved carried =>
    rw [after_stored present accepted t]
    exact .inr (called_stored present outbound sole wanted moved)
  | flushed d held wanted writes only =>
    rw [after_idle present rfl, view_seated present outbound, rewant_kept present wanted,
      reline_held present held, filter_writes only, View.send_nil]
    exact .inl rfl
  | retired a data d good wanted copies sent sends carried =>
    rw [after_idle present rfl, view_seated present outbound, rewant_kept present wanted,
      filter_victims sends]
    refine .inr (.retire _ k a data d.line sent (blockwise d) ?_ sends)
    intro b
    rw [view_line present]
    exact copies b

end seated

theorem Steady.perform (steady : Steady lay s) (linked : Linked s)
    (present : s.fabric.nodes[k]? = some n) (op : Operation) :
    Steady lay (s.seat k { n with controller := n.controller.perform op }) ∧
      Linked (s.seat k { n with controller := n.controller.perform op }) := by
  have good := steady.good k _ (controller?_eq present)
  obtain ⟨sent, performed, outbound⟩ := good.perform op
  have fair : (∀ q ∈ sent, q.Marked) ∧
      ∀ i v, (n.controller.perform op).victims.get? i = some v → v.draining →
        v.destination ≠ .probe → n.controller.victims.get? i = some v ∨ v.request i ∈ sent := by
    generalize n.controller.perform op = d at performed outbound ⊢
    have same {e : Controller}
        (carried : ∀ i v, e.victims.get? i = some v → v.draining → v.destination ≠ .probe →
          n.controller.victims.get? i = some v) (i : Slot) (v : Victim)
        (found : e.victims.get? i = some v) (drains : v.draining) (aside : v.destination ≠ .probe) :
        n.controller.victims.get? i = some v ∨ v.request i ∈ sent :=
      .inl (carried i v found drains aside)
    cases performed with
    | quiet _ _ quiet _ => exact ⟨by simp, same quiet.carried⟩
    | issued r result d sent issued =>
      cases issued with
      | refused _ _ quiet => exact ⟨by simp, same quiet.carried⟩
      | asked _ _ _ _ held => exact ⟨by simp [Request.Marked], same held.carried⟩
      | joined _ _ _ held => exact ⟨by simp, same held.carried⟩
      | hit _ _ _ held => exact ⟨by simp, same held.carried⟩
      | late _ _ _ held => exact ⟨by simp, same held.carried⟩
      | barrier _ _ held _ _ _ writes only =>
        refine ⟨?_, same held.carried⟩
        intro q member
        rcases List.mem_append.mp member with write | last
        · exact marked_writes only q write
        · rw [List.mem_singleton.mp last]
          simp [Request.Marked]
      | purged _ _ _ _ _ _ _ _ _ sends carried => exact ⟨marked_victims sends, carried⟩
    | stored _ _ _ _ _ _ _ _ carried => exact ⟨by simp, same carried⟩
    | flushed _ held _ writes only => exact ⟨marked_writes only, same held.carried⟩
    | retired _ _ _ _ _ _ _ sends carried => exact ⟨marked_victims sends, carried⟩
  exact ⟨steady.seat present outbound (good.of_perform op) (steady.rings k n present) fair.1,
    linked.seat present outbound fair.2⟩

/-- Every call keeps a pass steady and linked, and one that joins no answer late is a call on the
view. -/
theorem Steady.operate (steady : Steady lay s) (linked : Linked s) (k : Nat) (op : Operation) :
    Steady lay { s with fabric := s.fabric.operate k op } ∧
    Linked { s with fabric := s.fabric.operate k op } ∧
    (s.fabric.joinsLate k op = false → ∀ now t,
      Pass.view { s with fabric := s.fabric.operate k op } (now.after s (.pipeline k op) t) =
          s.view now ∨
        k < lay.cpus ∧ View.Called (s.view now) k op
          (Pass.view { s with fabric := s.fabric.operate k op } (now.after s (.pipeline k op) t))) := by
  cases present : s.fabric.nodes[k]? with
  | none =>
    rw [operate_none present]
    refine ⟨steady, linked, fun _ now t => .inl ?_⟩
    simp only [Ledger.after, Fabric.controller?, present, Option.map_none, Option.bind_none]
  | some n =>
    obtain ⟨kept, tied⟩ := steady.perform linked present op
    obtain ⟨sent, performed, outbound⟩ := (steady.good k _ (controller?_eq present)).perform op
    have view (punctual : s.fabric.joinsLate k op = false) (now : Ledger) (t : Pass) :
        Pass.view (s.seat k { n with controller := n.controller.perform op })
            (now.after s (.pipeline k op) t) = s.view now ∨
          k < lay.cpus ∧ View.Called (s.view now) k op
            (Pass.view (s.seat k { n with controller := n.controller.perform op })
              (now.after s (.pipeline k op) t)) := by
      have timely : n.controller.joinsLate op = false := by
        simpa [Fabric.joinsLate, controller?_eq present] using punctual
      rcases called present timely performed outbound t with same | moved
      · exact .inl same
      · exact .inr ⟨steady.inside present, moved⟩
    rcases operate_eq present op with plain | rung
    · rw [plain]
      exact ⟨kept, tied, view⟩
    · rw [rung]
      exact ⟨kept.rung, tied, view⟩

end Pass
end CacheCoherence
