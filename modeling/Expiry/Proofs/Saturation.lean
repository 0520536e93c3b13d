import Expiry.Proofs.Timekeeping

/-!
# What saturation leaves of arithmetic

Instants come to an end, and so does the number of milliseconds by which one can be moved. A
deadline beyond the last instant is the last instant, and so is a horizon; a difference that is no
instant is cut as well. Deadlines and horizons are cut at the upper end, differences at either, so
it is not plain that they still fit together.

They do, because no timer was started later than the latest instant that its store has acted at.
From there its deadline is never further away than an instant can be moved. So the time left is
exact, a horizon reaches a deadline that it ought to reach, and the time left tells what a harvest
will find. All that is lost is that a timer may be harvested too early if its own deadline is out of
range.

Times are those of the store. A clock that was set back can go on for a while without moving them.

## Main definitions

* `Operation.started?` — the identifier that an operation starts a timer for

## Main results

* `Agenda.exists_start_of_mem_run` — every timer was started by the last operation of a run that
  started one for its identifier
* `Agenda.harvest_ne_nil_iff`, `Store.Follows.timeLeft?_eq_some` — the two ways to look ahead
* `Store.run_harvest_in_range` — harvests are never late, and early only out of range
* `Store.Reachable.timeLeft_exact` — the time left is the exact difference
* `Store.run_harvests_iff_left_le` — a harvest finds something if no more than the tolerance is left
-/

namespace Expiry

/-- The identifier that an operation starts a timer for. -/
def Operation.started? : Operation → Option Bytes
  | .set id _ => some id
  | _ => none

namespace Agenda

variable {a : Agenda} {t : Timer} {reading : Instant} {op : Operation}
variable {steps : List (Instant × Operation)}

/-! ### Where timers come from -/

/-- A timer that is there after an operation was there before it, or was started by it. -/
theorem mem_or_started_of_mem_perform (ht : t ∈ (a.perform reading op).2.timers) :
    (t ∈ a.timers ∧ op.started? ≠ some t.id) ∨
      (op = .set t.id t.ttl ∧ t.deadline = (a.now reading).after t.ttl) := by
  cases op with
  | set id ttl =>
    rcases List.mem_append.mp ht with hold | hnew
    · obtain ⟨hold, hne⟩ := List.mem_filter.mp hold
      have hne : t.id ≠ id := of_decide_eq_true hne
      exact .inl ⟨hold, fun hsame => hne (Option.some.inj hsame).symm⟩
    · obtain rfl := List.mem_singleton.mp hnew
      exact .inr ⟨rfl, rfl⟩
  | cancel id => exact .inl ⟨(List.mem_filter.mp ht).1, (Option.some_ne_none _).symm⟩
  | clear => cases ht
  | popSoonest =>
    refine .inl ⟨?_, (Option.some_ne_none _).symm⟩
    simp only [perform, popSoonest] at ht
    split at ht
    · exact (List.mem_filter.mp ht).1
    · exact ht
  | harvest => exact .inl ⟨(List.mem_filter.mp ht).1, (Option.some_ne_none _).symm⟩
  | _ => exact .inl ⟨ht, (Option.some_ne_none _).symm⟩

/-- A timer that is there after a run was there before it, or the last operation that started a
timer for its identifier has started it, at an instant that the agenda has acted at. -/
theorem exists_start_of_mem_run (ht : t ∈ (a.run steps).2.timers) :
    (t ∈ a.timers ∧ ∀ step ∈ steps, step.2.started? ≠ some t.id) ∨
      ∃ before reading between, steps = before ++ (reading, .set t.id t.ttl) :: between ∧
        (∀ step ∈ between, step.2.started? ≠ some t.id) ∧
        t.deadline = ((a.run before).2.now reading).after t.ttl ∧
        (a.run before).2.now reading ≤ (a.run steps).2.latest := by
  induction steps generalizing a with
  | nil => exact .inl ⟨ht, by simp⟩
  | cons step steps ih =>
    obtain ⟨reading, op⟩ := step
    rcases ih ht with ⟨hafter, hspared⟩ | ⟨before, reading', between, rfl, hlast⟩
    · rcases mem_or_started_of_mem_perform hafter with ⟨hbefore, hspares⟩ | ⟨rfl, hdeadline⟩
      · exact .inl ⟨hbefore, List.forall_mem_cons.mpr ⟨hspares, hspared⟩⟩
      · refine .inr ⟨[], reading, steps, rfl, hspared, hdeadline, ?_⟩
        exact latest_le_run (a.start reading t.id t.ttl) steps
    · exact .inr ⟨(reading, op) :: before, reading', between, rfl, hlast⟩

theorem tolerance_perform (a : Agenda) (reading : Instant) (op : Operation) :
    (a.perform reading op).2.tolerance = a.tolerance := by
  cases op with
  | popSoonest =>
    simp only [perform, popSoonest]
    split <;> rfl
  | _ => rfl

theorem tolerance_run (a : Agenda) (steps : List (Instant × Operation)) :
    (a.run steps).2.tolerance = a.tolerance := by
  induction steps generalizing a with
  | nil => rfl
  | cons step steps ih => exact (ih _).trans (a.tolerance_perform step.1 step.2)

/-! ### Looking ahead -/

/-- Because identifiers are unique, one is harvested only if its timer is due. -/
theorem id_mem_harvest_iff (distinct : (a.timers.map (·.id)).Nodup) (ht : t ∈ a.timers)
    (reading : Instant) : t.id ∈ (a.harvest reading).1.map (·.id) ↔
      t.deadline ≤ (a.now reading).after a.tolerance := by
  constructor
  · intro hid
    obtain ⟨u, hdue, hid⟩ := List.mem_map.mp hid
    obtain ⟨hu, hle⟩ := mem_dueBy.mp hdue
    obtain rfl := List.inj_on_of_nodup_map distinct hu ht hid
    exact hle
  · intro hle
    exact List.mem_map_of_mem (mem_dueBy.mpr ⟨ht, hle⟩)

theorem nextDeadline?_eq_some_iff {next : Instant} : a.nextDeadline? = some next ↔
    (∃ t ∈ a.timers, t.deadline = next) ∧ ∀ t ∈ a.timers, next ≤ t.deadline := by
  rw [nextDeadline?, List.min?_eq_some_iff, List.mem_map, List.forall_mem_map]

/-- A harvest finds something exactly if the next deadline is due. -/
theorem harvest_ne_nil_iff : (a.harvest reading).1 ≠ [] ↔
    ∃ next, a.nextDeadline? = some next ∧ next ≤ (a.now reading).after a.tolerance := by
  constructor
  · intro hne
    obtain ⟨t, hdue⟩ := List.exists_mem_of_ne_nil _ hne
    obtain ⟨ht, hle⟩ := mem_dueBy.mp hdue
    cases hnext : a.nextDeadline? with
    | none =>
      rw [nextDeadline?, List.min?_eq_none_iff, List.map_eq_nil_iff] at hnext
      exact absurd (hnext ▸ ht) List.not_mem_nil
    | some next =>
      exact ⟨next, rfl, Int64.le_trans ((nextDeadline?_eq_some_iff.mp hnext).2 t ht) hle⟩
  · rintro ⟨next, hnext, hle⟩
    obtain ⟨⟨t, ht, rfl⟩, -⟩ := nextDeadline?_eq_some_iff.mp hnext
    exact List.ne_nil_of_mem (mem_dueBy.mpr ⟨ht, hle⟩)

end Agenda

namespace Store

variable {s : Store} {a : Agenda}

/-- No deadline is further from an instant that the store can act at than the time to live, nor than
milliseconds can move an instant. -/
theorem Follows.toInt_sub_le (h : s.Follows a) {t : Timer} (ht : t ∈ a.timers)
    (reading : Instant) :
    t.deadline.toInt - (a.now reading).toInt ≤ t.ttl.toNat ∧
      t.deadline.toInt - (a.now reading).toInt ≤ Instant.last.toInt := by
  obtain ⟨ledger, hkeeps, htimers, -, hlatest⟩ := h
  obtain ⟨e, he, rfl⟩ := List.mem_map.mp (htimers ▸ ht)
  have hnow : s.latest ≤ a.now reading := by
    rw [Agenda.now, hlatest]
    exact Instant.le_max_right _ _
  have htimely := hkeeps.timely.mono hnow
  exact ⟨Int.le_trans (htimely.toInt_sub_le_reach he) (Int.min_le_left _ _),
    htimely.toInt_sub_le he⟩

/-- The index leads from the identifier of a running timer to the node that has the timer. -/
theorem Follows.exists_node (h : s.Follows a) {id : Bytes} (hid : s.contains id = true) :
    ∃ slot node, s.slots[id]? = some slot ∧ s.pool.get? slot = some node ∧
      node.toTimer ∈ a.timers := by
  obtain ⟨ledger, hkeeps, htimers, -⟩ := h
  rw [hkeeps.contains_eq, List.any_eq_true] at hid
  obtain ⟨e, he, hid⟩ := hid
  obtain rfl := of_decide_eq_true hid
  obtain ⟨prev, next, hget⟩ := hkeeps.filed.exists_node (List.mem_append_left [] he)
  refine ⟨e.slot, _, hkeeps.indexed.slot_iff.mpr ⟨e, he, rfl, rfl⟩, hget, ?_⟩
  exact htimers ▸ List.mem_map_of_mem he

/-- The time left is the exact difference to the next deadline, and the difference is an instant. -/
theorem Follows.timeLeft?_eq_some (h : s.Follows a) {next : Instant}
    (hnext : a.nextDeadline? = some next) (reading : Instant) :
    ∃ left : UInt64, a.timeLeft? reading = some left ∧
      (left.toNat : Int) = max 0 (next.toInt - (a.now reading).toInt) ∧
      next.toInt - (a.now reading).toInt ≤ Instant.last.toInt := by
  obtain ⟨⟨t, ht, rfl⟩, -⟩ := Agenda.nextDeadline?_eq_some_iff.mp hnext
  have hle := (h.toInt_sub_le ht reading).2
  have hsize : (t.deadline.toInt - (a.now reading).toInt).toNat < UInt64.size := by
    rw [Int64.toInt_maxValue] at hle
    rw [UInt64.size]
    omega
  refine ⟨_, by rw [Agenda.timeLeft?, hnext, Option.map_some], ?_, hle⟩
  rw [UInt64.toNat_ofNat_of_lt' hsize]
  omega

/-- The time left is at most the tolerance exactly if the next deadline is due. -/
theorem Follows.left_le_iff (h : s.Follows a) (reading : Instant) :
    (∃ left, a.timeLeft? reading = some left ∧ left ≤ a.tolerance) ↔
      ∃ next, a.nextDeadline? = some next ∧ next ≤ (a.now reading).after a.tolerance := by
  have hiff : ∀ {next left}, (left.toNat : Int) = max 0 (next.toInt - (a.now reading).toInt) →
      next.toInt - (a.now reading).toInt ≤ Instant.last.toInt →
      (left ≤ a.tolerance ↔ next ≤ (a.now reading).after a.tolerance) := by
    intro next left hexact hle
    rw [Instant.le_after_iff hle, UInt64.le_iff_toNat_le]
    omega
  constructor
  · rintro ⟨left, hleft, hle⟩
    obtain ⟨next, hnext, -⟩ := Option.map_eq_some_iff.mp hleft
    obtain ⟨left', hleft', hexact, hrange⟩ := h.timeLeft?_eq_some hnext reading
    obtain rfl := Option.some.inj (hleft.symm.trans hleft')
    exact ⟨next, hnext, (hiff hexact hrange).mp hle⟩
  · rintro ⟨next, hnext, hle⟩
    obtain ⟨left, hleft, hexact, hrange⟩ := h.timeLeft?_eq_some hnext reading
    exact ⟨left, hleft, (hiff hexact hrange).mpr hle⟩

/-! ### Harvests -/

/-- Of every timer that is running after a run, the operation that started it is the last one that
started a timer for its identifier. A harvest takes the timer if, in exact numbers, its start and
its time to live come to no more than the instant of the harvest and the tolerance. If it takes it
otherwise, the time to live or the exact deadline is beyond the last instant. -/
theorem run_harvest_in_range (tolerance : UInt64) (steps : List (Instant × Operation))
    (reading : Instant) :
    ∃ answers s due s' notes, (Store.empty tolerance).run steps = .ok (answers, s) ∧
      s.harvest reading = .ok (due, s', notes) ∧
      ∀ id, s.contains id = true → ∃ before reading₀ ttl between answers₀ s₀,
        steps = before ++ (reading₀, .set id ttl) :: between ∧
        (∀ step ∈ between, step.2.started? ≠ some id) ∧
        (Store.empty tolerance).run before = .ok (answers₀, s₀) ∧
        let started := (s₀.instant reading₀).toInt
        let now := (s.instant reading).toInt
        (started + ttl.toNat ≤ now + tolerance.toNat → id ∈ due.map (·.id)) ∧
        (id ∈ due.map (·.id) → started + ttl.toNat ≤ now + tolerance.toNat ∨
          Instant.last.toInt < ttl.toNat ∨ Instant.last.toInt < started + ttl.toNat) := by
  obtain ⟨s, hrun, hs⟩ := (Follows.empty tolerance).run steps
  obtain ⟨s', notes, hharvest, -⟩ := hs.harvest reading
  refine ⟨_, s, _, s', notes, hrun, hharvest, fun id hid => ?_⟩
  rw [hs.contains_eq, List.any_eq_true] at hid
  obtain ⟨t, ht, hid⟩ := hid
  obtain rfl := of_decide_eq_true hid
  have hdue := Agenda.id_mem_harvest_iff hs.ids_nodup ht reading
  -- No timer was there at first.
  rcases Agenda.exists_start_of_mem_run ht with
    ⟨hnone, -⟩ | ⟨before, reading₀, between, rfl, hspared, hdeadline, hlatest⟩
  · cases hnone
  obtain ⟨s₀, hbefore, hs₀⟩ := (Follows.empty tolerance).run before
  refine ⟨before, reading₀, t.ttl, between, _, s₀, rfl, hspared, hbefore, ?_⟩
  rw [hdeadline, Agenda.tolerance_run] at hdue
  rw [hs₀.instant_eq, hs.instant_eq]
  constructor
  · intro hle
    have hstarted := Int64.le_trans hlatest (Instant.le_max_right reading _)
    exact hdue.mpr (Instant.after_le_after_of_add_le hstarted hle)
  · intro htaken
    exact Instant.add_le_add_of_after_le (hdue.mp htaken)

/-! ### The time left -/

/-- With a timer running, the time left is the exact difference from the instant that the clock
reading stands for to the next deadline, and zero if that has passed. Saturation does not cut a
difference that is not negative. The time left is no longer than milliseconds can move an instant,
and than the time to live of any running timer. -/
theorem Reachable.timeLeft_exact (h : s.Reachable) (running : s.isEmpty = false)
    (reading : Instant) :
    let now := (max reading s.latest).toInt
    ∃ next left, s.nextDeadline? = .ok (some next) ∧ s.timeLeft? reading = .ok (some left) ∧
      (left.toNat : Int) = max 0 (next.toInt - now) ∧
      (0 ≤ next.toInt - now → (Instant.clamp (next.toInt - now)).toInt = next.toInt - now) ∧
      (left.toNat : Int) ≤ Instant.last.toInt ∧
      ∀ id, s.contains id = true → ∃ slot node, s.slots[id]? = some slot ∧
        s.pool.get? slot = some node ∧ left ≤ node.ttl := by
  intro now
  obtain ⟨a, hs⟩ := h.exists_follows
  have hnow : (a.now reading).toInt = now := by rw [← hs.instant_eq]; rfl
  have hnone : a.nextDeadline? ≠ none := by
    rw [hs.isEmpty_eq, List.isEmpty_eq_false_iff] at running
    rwa [Agenda.nextDeadline?, ne_eq, List.min?_eq_none_iff, List.map_eq_nil_iff]
  obtain ⟨next, hnext⟩ := Option.ne_none_iff_exists'.mp hnone
  obtain ⟨left, hleft, hexact, hrange⟩ := hs.timeLeft?_eq_some hnext reading
  have hleast := (Agenda.nextDeadline?_eq_some_iff.mp hnext).2
  refine ⟨next, left, hs.nextDeadline?_eq.trans (by rw [hnext]),
    (hs.timeLeft?_eq reading).trans (by rw [hleft]), hnow ▸ hexact, ?_, ?_, ?_⟩
  · intro hpositive
    rw [Instant.toInt_clamp, Int64.toInt_minValue]
    omega
  · rw [Int64.toInt_maxValue] at hrange ⊢
    omega
  · intro id hid
    obtain ⟨slot, node, hslot, hget, hnode⟩ := hs.exists_node hid
    refine ⟨slot, node, hslot, hget, ?_⟩
    have hsub := (hs.toInt_sub_le hnode reading).1
    have hle := Int64.le_iff_toInt_le.mp (hleast _ hnode)
    rw [UInt64.le_iff_toNat_le]
    omega

/-- A timer that is to run as long as it can is started at the first instant. The time left is then
as long as milliseconds can move an instant, though the deadline is a negative number. -/
theorem Reachable.timeLeft_exact_first : ∃ (s : Store) (next : Instant) (left : UInt64),
    s.Reachable ∧ s.isEmpty = false ∧ s.contains [1] = true ∧
      s.nextDeadline? = .ok (some next) ∧ s.timeLeft? Instant.first = .ok (some left) ∧
      next.toInt = -1 ∧ (left.toNat : Int) = Instant.last.toInt ∧
      ∃ (slot : Slot) (node : Node), s.slots[([1] : Bytes)]? = some slot ∧
        s.pool.get? slot = some node ∧ left ≤ node.ttl := by
  obtain ⟨s, hrun, hs⟩ := (Follows.empty 1).run [(Instant.first, .set [1] (-1))]
  have hreachable : s.Reachable := ⟨1, _, _, hrun⟩
  have hrunning : s.isEmpty = false := hs.isEmpty_eq
  have hcontains : s.contains [1] = true := (hs.contains_eq [1]).trans (by decide +kernel)
  have hnow : max Instant.first s.latest = Instant.first := by
    refine (hs.instant_eq Instant.first).trans ?_
    decide +kernel
  obtain ⟨next, left, hnext, hleft, hexact, -, -, hshort⟩ :=
    hreachable.timeLeft_exact hrunning Instant.first
  have hvalue : next.toInt = -1 := by
    rw [hs.nextDeadline?_eq] at hnext
    rw [← Option.some.inj (Except.ok.inj hnext)]
    decide +kernel
  have hlong : (left.toNat : Int) = Instant.last.toInt := by
    rw [hexact, hvalue, hnow]
    decide +kernel
  exact ⟨s, next, left, hreachable, hrunning, hcontains, hnext, hleft, hvalue, hlong,
    hshort [1] hcontains⟩

/-! ### Harvests and the time left -/

/-- A harvest finds something exactly if the time left is no more than the tolerance. So nothing is
harvested early by one who is told that more time is left; and who lets the time pass that is left
does not harvest in vain, whatever the clock shows then. -/
theorem run_harvests_iff_left_le (tolerance : UInt64) (steps : List (Instant × Operation))
    (reading : Instant) :
    ∃ answers s left due s' notes, (Store.empty tolerance).run steps = .ok (answers, s) ∧
      s.timeLeft? reading = .ok left ∧ s.harvest reading = .ok (due, s', notes) ∧
      (due ≠ [] ↔ ∃ ms, left = some ms ∧ ms ≤ tolerance) ∧
      ∀ ms, left = some ms → ∀ reading' : Instant,
        (s.instant reading).toInt + ms.toNat ≤ (s.instant reading').toInt →
        ∃ due' s'' notes', s.harvest reading' = .ok (due', s'', notes') ∧ due' ≠ [] := by
  obtain ⟨s, hrun, hs⟩ := (Follows.empty tolerance).run steps
  have htolerance := (Agenda.empty tolerance).tolerance_run steps
  obtain ⟨s', notes, hharvest, -⟩ := hs.harvest reading
  refine ⟨_, s, _, _, s', notes, hrun, hs.timeLeft?_eq reading, hharvest, ?_, ?_⟩
  · rw [Agenda.harvest_ne_nil_iff, ← hs.left_le_iff, htolerance]
    rfl
  · intro ms hleft reading' hlater
    obtain ⟨next, hnext, -⟩ := Option.map_eq_some_iff.mp hleft
    obtain ⟨ms', hms', hexact, -⟩ := hs.timeLeft?_eq_some hnext reading
    obtain rfl := Option.some.inj (hleft.symm.trans hms')
    obtain ⟨s'', notes', hharvest', -⟩ := hs.harvest reading'
    refine ⟨_, s'', notes', hharvest', Agenda.harvest_ne_nil_iff.mpr ⟨next, hnext, ?_⟩⟩
    -- The deadline has passed by then, so it is due with any tolerance.
    rw [hs.instant_eq, hs.instant_eq] at hlater
    refine Int64.le_trans ?_ (Instant.le_after _ _)
    rw [Int64.le_iff_toInt_le]
    omega

end Store

end Expiry
