import Mathlib.Data.List.Find
import Expiry.Proofs.Safety

/-!
# Operations that can be interchanged

Two stores may have come about in different ways, with their nodes in different slots and their
lanes opened and closed at different times, and still answer all questions alike from then on. What
matters is less than the agenda that a store follows. Timers with different times to live may stand
in any order on it: each lane has its own order, and which lane comes first is a matter of deadlines
and of digits. So two agendas are alike if they agree on each time to live, and stores that follow
agendas that are alike cannot be told apart by any run.

This gives laws for operations. Restarting a timer is the same as cancelling it and starting it
anew. Timers for different identifiers and with different times to live can be started in either
order, and a timer can be cancelled before or after another one is started. With the same time to
live the order matters, as it decides which timer is ahead in the lane.

## Main definitions

* `SameByTtl` — the same timers of each time to live, in the same order
* `Agenda.Alike` — agendas that differ only in how timers with different times to live are mixed
* `Store.Indistinguishable` — stores that answer every run alike
* `Store.Interchangeable` — runs that leave indistinguishable stores

## Main results

* `Agenda.Alike.answer_eq`, `Agenda.Alike.perform` — alike agendas answer alike, and stay alike
* `Store.Follows.indistinguishable` — stores that follow them cannot be told apart
* `Store.Reachable.restart_interchangeable` — to restart is to cancel and to start
* `Store.Reachable.updates_interchangeable` — updates of different timers commute
-/

namespace Expiry

/-! ### Lists that agree on each time to live -/

/-- The lists have the same timers of each time to live, in the same order. How timers with
different times to live are mixed is left open. -/
def SameByTtl (l l' : List Timer) : Prop :=
  ∀ ttl, l.filter (·.ttl = ttl) = l'.filter (·.ttl = ttl)

namespace SameByTtl

variable {l l' : List Timer} {t : Timer}

theorem refl (l : List Timer) : SameByTtl l l := fun _ => rfl

theorem symm (h : SameByTtl l l') : SameByTtl l' l := fun ttl => (h ttl).symm

theorem perm (h : SameByTtl l l') : l.Perm l' :=
  @perm_of_filter_ttl_eq _ (fun t => t) _ _ _ h

theorem filter (h : SameByTtl l l') (keep : Timer → Bool) :
    SameByTtl (l.filter keep) (l'.filter keep) := fun ttl => by
  rw [List.filter_comm, h, List.filter_comm]

theorem append {m m' : List Timer} (h : SameByTtl l l') (hm : SameByTtl m m') :
    SameByTtl (l ++ m) (l' ++ m') := fun ttl => by
  rw [List.filter_append, List.filter_append, h, hm]

/-- Timers with different times to live can change places. -/
theorem swap {u : Timer} (apart : t.ttl ≠ u.ttl) : SameByTtl [t, u] [u, t] := fun ttl => by
  by_cases ht : t.ttl = ttl
  · have hu : u.ttl ≠ ttl := fun hu => apart (ht.trans hu.symm)
    simp [ht, hu]
  · simp [List.filter_cons, ht]

/-- The soonest is the first of its lane that nothing is before. -/
theorem soonest?_eq_find? (ht : t ∈ l) (least : ∀ u ∈ l, t.before u = true) :
    soonest? (fun t => t) l =
      (l.filter (·.ttl = t.ttl)).find? fun u => l.all fun v => u.before v := by
  rw [soonest?, List.find?_filter]
  refine List.find?_congr fun u hu => ?_
  -- What nothing is before is before `t`, and so in the lane of `t`.
  cases hall : l.all fun v => u.before v with
  | false => simp
  | true =>
    have hut : u.before t = true := List.all_eq_true.mp hall t ht
    simp [(Timer.before_antisymm hut (least u hu)).2]

theorem soonest?_eq (h : SameByTtl l l') :
    soonest? (fun t => t) l = soonest? (fun t => t) l' := by
  cases hsoonest : soonest? (fun t => t) l with
  | none =>
    rw [soonest?_eq_none] at hsoonest
    subst hsoonest
    exact (soonest?_eq_none.mpr h.perm.symm.eq_nil).symm
  | some t =>
    obtain ⟨ht, least⟩ := soonest?_eq_some hsoonest
    have least' : ∀ u ∈ l', t.before u = true := fun u hu => least u (h.perm.mem_iff.mpr hu)
    rw [← hsoonest, soonest?_eq_find? ht least,
      soonest?_eq_find? (h.perm.mem_iff.mp ht) least', h]
    exact List.find?_congr fun u _ => h.perm.all_eq

theorem dueBy_eq (h : SameByTtl l l') (horizon : Instant) :
    dueBy (fun t => t) horizon l = dueBy (fun t => t) horizon l' :=
  eq_dueBy (dueBy_sorted _ _ _) fun ttl =>
    (filter_dueBy _ _ _ ttl).trans (h.filter (·.deadline ≤ horizon) ttl)

theorem min?_deadline_eq (h : SameByTtl l l') :
    (l.map (·.deadline)).min? = (l'.map (·.deadline)).min? := by
  have hleast : ∀ l : List Timer,
      (soonest? (fun t => t) l).map (·.deadline) = (l.map (·.deadline)).min? :=
    fun _ => deadline_soonest?
  rw [← hleast, ← hleast, h.soonest?_eq]

/-- Because identifiers are unique, there is no other timer to be found first. -/
theorem find?_id_eq (h : SameByTtl l l') (distinct : (l.map (·.id)).Nodup) (id : Bytes) :
    l.find? (·.id = id) = l'.find? (·.id = id) := by
  refine List.find?_eq_find?_of_perm h.perm fun t ht u hu => ?_
  obtain ⟨ht, hid⟩ := ht
  obtain ⟨hu, hid'⟩ := hu
  exact List.inj_on_of_nodup_map distinct ht hu
    ((of_decide_eq_true hid).trans (of_decide_eq_true hid').symm)

end SameByTtl

/-! ### Agendas that are alike -/

namespace Agenda

variable {a b : Agenda} {reading : Instant} {op : Operation} {id id' : Bytes} {ttl ttl' : UInt64}

/-- Agendas that agree on the time, and on the timers of each time to live. -/
structure Alike (a b : Agenda) : Prop where
  timers : SameByTtl a.timers b.timers
  tolerance : a.tolerance = b.tolerance
  latest : a.latest = b.latest

namespace Alike

theorem of_eq (h : a = b) : a.Alike b := h ▸ ⟨.refl _, rfl, rfl⟩

theorem now_eq (h : a.Alike b) (reading : Instant) : a.now reading = b.now reading := by
  rw [now, now, h.latest]

/-- Agendas that are alike give the same answer. -/
theorem answer_eq (h : a.Alike b) (distinct : (a.timers.map (·.id)).Nodup) (reading : Instant)
    (op : Operation) : (a.perform reading op).1 = (b.perform reading op).1 := by
  cases op with
  | set | cancel | clear => rfl
  | deadline id => simp only [Agenda.perform, h.timers.find?_id_eq distinct]
  | contains id => simp only [Agenda.perform, h.timers.perm.any_eq]
  | size => simp only [Agenda.perform, h.timers.perm.length_eq]
  | isEmpty => simp only [Agenda.perform, h.timers.perm.isEmpty_eq]
  | laneCount => simp only [Agenda.perform, (h.timers.perm.map _).dedup.length_eq]
  | nextDeadline => simp only [Agenda.perform, nextDeadline?, h.timers.min?_deadline_eq]
  | timeLeft =>
    simp only [Agenda.perform, timeLeft?, nextDeadline?, h.timers.min?_deadline_eq, h.now_eq]
  | popSoonest =>
    simp only [Agenda.perform, popSoonest, h.timers.soonest?_eq]
    split <;> rfl
  | harvest =>
    simp only [Agenda.perform, Agenda.harvest, h.now_eq, h.tolerance, h.timers.dueBy_eq]

/-- Agendas that are alike stay so. -/
theorem perform (h : a.Alike b) (reading : Instant) (op : Operation) :
    (a.perform reading op).2.Alike (b.perform reading op).2 := by
  cases op with
  | set id ttl =>
    refine ⟨?_, h.tolerance, h.now_eq reading⟩
    simp only [Agenda.perform, start, h.now_eq]
    exact (h.timers.filter _).append (.refl _)
  | cancel id => exact ⟨h.timers.filter _, h.tolerance, h.latest⟩
  | clear => exact ⟨.refl _, h.tolerance, h.latest⟩
  | popSoonest =>
    simp only [Agenda.perform, popSoonest, h.timers.soonest?_eq]
    split
    · exact ⟨h.timers.filter _, h.tolerance, h.latest⟩
    · exact h
  | harvest =>
    refine ⟨?_, h.tolerance, h.now_eq reading⟩
    simp only [Agenda.perform, Agenda.harvest, h.now_eq, h.tolerance]
    exact h.timers.filter _
  | _ => exact h

end Alike

/-! ### Laws of agendas -/

/-- What is dropped before a timer is started for its identifier would be dropped anyway. -/
theorem start_without (a : Agenda) (reading : Instant) (id : Bytes) (ttl : UInt64) :
    (a.without id).start reading id ttl = a.start reading id ttl := by
  simp [start, without, now]

theorem without_comm (a : Agenda) (id id' : Bytes) :
    (a.without id).without id' = (a.without id').without id := by
  simp only [without, List.filter_comm]

theorem without_start (apart : id ≠ id') (a : Agenda) (reading : Instant) (ttl : UInt64) :
    (a.start reading id' ttl).without id = (a.without id).start reading id' ttl := by
  simp [start, without, now, List.filter_append, apart.symm, Bool.and_comm]

/-- At the same reading a second timer is started at the same instant as the first. -/
theorem start_start (apart : id ≠ id') (a : Agenda) (reading : Instant) (ttl ttl' : UInt64) :
    (a.start reading id ttl).start reading id' ttl' = { a with
      timers := ((a.without id).without id').timers ++
        [⟨id, ttl, (a.now reading).after ttl⟩, ⟨id', ttl', (a.now reading).after ttl'⟩]
      latest := a.now reading } := by
  have hnow : (a.start reading id ttl).now reading = a.now reading := by
    rw [now, start, now, ← Instant.max_assoc, Instant.max_self]
  rw [start, hnow, without_start apart.symm, without_comm]
  simp [start, now, without]

/-- Two timers with different times to live can be started in either order. -/
theorem start_start_alike (apart : id ≠ id') (apart' : ttl ≠ ttl') (a : Agenda)
    (reading : Instant) : ((a.start reading id ttl).start reading id' ttl').Alike
      ((a.start reading id' ttl').start reading id ttl) := by
  rw [start_start apart, start_start apart.symm, without_comm]
  exact ⟨(SameByTtl.refl _).append (.swap apart'), rfl, rfl⟩

end Agenda

/-! ### Stores that answer alike -/

namespace Store

variable {s s' : Store} {a b : Agenda} {steps steps' : List (Instant × Operation)}

/-- Whatever is asked of the stores, and whatever the clock shows, they give the same answers. -/
def Indistinguishable (s s' : Store) : Prop :=
  ∀ steps, ∃ answers t t', s.run steps = .ok (answers, t) ∧ s'.run steps = .ok (answers, t')

/-- After either run all that is asked is answered alike. -/
def Interchangeable (s : Store) (steps steps' : List (Instant × Operation)) : Prop :=
  ∃ answers t answers' t', s.run steps = .ok (answers, t) ∧ s.run steps' = .ok (answers', t') ∧
    t.Indistinguishable t'

/-- Neither slots nor lanes show, but only the agenda, and of that only what is alike. -/
theorem Follows.indistinguishable (h : s.Follows a) (h' : s'.Follows b) (alike : a.Alike b) :
    s.Indistinguishable s' := by
  intro steps
  induction steps generalizing s s' a b with
  | nil => exact ⟨[], s, s', rfl, rfl⟩
  | cons step steps ih =>
    obtain ⟨reading, op⟩ := step
    obtain ⟨s₁, notes, hperform, h₁⟩ := h.perform reading op
    obtain ⟨s₁', notes', hperform', h₁'⟩ := h'.perform reading op
    obtain ⟨answers, t, t', hrun, hrun'⟩ := ih h₁ h₁' (alike.perform reading op)
    refine ⟨(a.perform reading op).1 :: answers, t, t', ?_, ?_⟩
    · simp [Store.run, hperform, hrun]
    · simp [Store.run, hperform', hrun', alike.answer_eq h.ids_nodup]

theorem Follows.interchangeable (h : s.Follows a)
    (alike : (a.run steps).2.Alike (a.run steps').2) : s.Interchangeable steps steps' := by
  obtain ⟨t, hrun, ht⟩ := h.run steps
  obtain ⟨t', hrun', ht'⟩ := h.run steps'
  exact ⟨_, t, _, t', hrun, hrun', ht.indistinguishable ht' alike⟩

/-- The timer that is popped is due no later than any other that is running, and of those due at
once it has the first time to live in the order of digits. -/
theorem Keeps.before_of_popSoonest {ledger : Ledger} (h : s.Keeps ledger) {timer : Timer}
    (hpop : s.popSoonest = .ok (some timer, s')) {id : Bytes} {slot : Slot} {node : Node}
    (hslot : s.slots[id]? = some slot) (hnode : s.pool.get? slot = some node) :
    timer.before node.toTimer = true := by
  obtain ⟨e, he, -, rfl⟩ := h.indexed.slot_iff.mp hslot
  obtain ⟨prev, next, hget⟩ := h.filed.exists_node (List.mem_append_left [] he)
  obtain rfl : node = e.node prev next := Option.some.inj (hnode.symm.trans hget)
  obtain ⟨t, hpop', -⟩ := h.popSoonest
  rw [hpop, Except.ok.injEq, Prod.mk.injEq] at hpop'
  obtain ⟨first, hfirst, rfl⟩ := Option.map_eq_some_iff.mp hpop'.1.symm
  exact (soonest?_eq_some hfirst).2 e he

namespace Reachable

/-- Restarting a timer is the same as cancelling it, whatever the clock shows then, and starting it
anew. -/
theorem restart_interchangeable (h : s.Reachable) (reading reading' : Instant) (id : Bytes)
    (ttl : UInt64) :
    s.Interchangeable [(reading, .set id ttl)]
      [(reading', .cancel id), (reading, .set id ttl)] := by
  obtain ⟨a, ha⟩ := h.exists_follows
  exact ha.interchangeable (.of_eq (a.start_without reading id ttl).symm)

/-- A timer in the middle of a lane is restarted in that lane. -/
theorem restart_interchangeable_middle : ∃ s : Store, s.Reachable ∧ s.contains [2] = true ∧
    s.Interchangeable [(2, .set [2] 5)] [(2, .cancel [2]), (2, .set [2] 5)] := by
  obtain ⟨s, hrun, hs⟩ :=
    (Follows.empty 1).run [(0, .set [1] 5), (1, .set [2] 5), (2, .set [3] 5)]
  have hreachable : s.Reachable := ⟨1, _, _, hrun⟩
  exact ⟨s, hreachable, (hs.contains_eq [2]).trans (by decide +kernel),
    hreachable.restart_interchangeable 2 2 [2] 5⟩

/-- Timers with different identifiers and different times to live can be started in either order,
and a timer can be cancelled before or after another one is started. Of timers that are due at once
and have different times to live it is the digits that say which is popped first. -/
theorem updates_interchangeable (h : s.Reachable) {id id' : Bytes} (apart : id ≠ id')
    (reading : Instant) :
    (∀ ttl ttl', ttl ≠ ttl' → s.Interchangeable
      [(reading, .set id ttl), (reading, .set id' ttl')]
      [(reading, .set id' ttl'), (reading, .set id ttl)]) ∧
    (∀ ttl, s.Interchangeable
      [(reading, .cancel id), (reading, .set id' ttl)]
      [(reading, .set id' ttl), (reading, .cancel id)]) ∧
    ∀ timer s', s.popSoonest = .ok (some timer, s') → ∀ (other : Bytes) (slot : Slot) (node : Node),
      s.slots[other]? = some slot → s.pool.get? slot = some node →
      timer.before node.toTimer = true := by
  obtain ⟨a, ha⟩ := h.exists_follows
  refine ⟨fun ttl ttl' apart' => ?_, fun ttl => ?_, fun timer s' hpop other slot node => ?_⟩
  · exact ha.interchangeable (a.start_start_alike apart apart' reading)
  · exact ha.interchangeable (.of_eq (a.without_start apart reading ttl).symm)
  · obtain ⟨ledger, hkeeps, -⟩ := ha
    exact hkeeps.before_of_popSoonest hpop

/-- With the same time to live the order of the starts shows. -/
example :
    ((Store.empty 1).run [(0, .set [1] 5), (0, .set [2] 5), (0, .popSoonest)]).map (·.1) =
        .ok [.done, .done, .popped (some [1])] ∧
      ((Store.empty 1).run [(0, .set [2] 5), (0, .set [1] 5), (0, .popSoonest)]).map (·.1) =
        .ok [.done, .done, .popped (some [2])] := by
  decide +kernel

/-- Both timers are running, each in the lane that the other one is started in. The clock shows the
last instant, so that both are due at once afterwards. -/
theorem updates_interchangeable_saturated : ∃ s : Store, s.Reachable ∧ ([1] : Bytes) ≠ [2] ∧
    (9 : UInt64) ≠ 10 ∧ s.contains [1] = true ∧ s.contains [2] = true ∧
    s.Interchangeable
      [(Instant.last, .set [1] 9), (Instant.last, .set [2] 10)]
      [(Instant.last, .set [2] 10), (Instant.last, .set [1] 9)] ∧
    s.Interchangeable
      [(Instant.last, .cancel [1]), (Instant.last, .set [2] 10)]
      [(Instant.last, .set [2] 10), (Instant.last, .cancel [1])] ∧
    ∃ timer s', s.popSoonest = .ok (some timer, s') ∧ timer.id = [1] ∧
      ∀ (other : Bytes) (slot : Slot) (node : Node), s.slots[other]? = some slot →
        s.pool.get? slot = some node → timer.before node.toTimer = true := by
  obtain ⟨s, hrun, hs⟩ := (Follows.empty 1).run [(0, .set [1] 10), (1, .set [2] 9)]
  have hreachable : s.Reachable := ⟨1, _, _, hrun⟩
  have apart : ([1] : Bytes) ≠ [2] := by decide
  obtain ⟨hset, hcancel, hpop⟩ := hreachable.updates_interchangeable apart Instant.last
  obtain ⟨s', hpopped, -⟩ := hs.popSoonest
  exact ⟨s, hreachable, apart, by decide, (hs.contains_eq [1]).trans (by decide +kernel),
    (hs.contains_eq [2]).trans (by decide +kernel), hset 9 10 (by decide), hcancel 10,
    ⟨[1], 10, 10⟩, s', hpopped, rfl, hpop _ s' hpopped⟩

end Reachable

end Store

end Expiry
