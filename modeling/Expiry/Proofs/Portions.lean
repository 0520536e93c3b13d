import Expiry.Proofs.Interchange
import Expiry.Proofs.Saturation

/-!
# Harvests in portions

What is due can be taken out of a store in one harvest, in several harvests one after the other, or
timer by timer. It is the same timers each time, and those with the same time to live come out in
the same order. Only how timers with different times to live are mixed depends on the portions. One
harvest goes through the store lane by lane; popping takes the timers in the order of their
deadlines.

Harvests leave nothing behind that tells in how many portions they were made. A clock that is set
back in between makes no difference either, as the store acts at the latest of the readings. Popping
does not move the time of the store, but leaves it with the same timers in the same lanes.

## Main definitions

* `Store.PopsDue` — popping for as long as the next timer is due
* `Store.harvestEach` — one harvest after the other
* `Store.SameTimers` — stores with the same timers in the same lanes

## Main results

* `Agenda.harvest_harvest`, `Agenda.harvest_append_harvest` — two harvests are one at the later
  instant
* `Store.Follows.popsDue`, `Store.PopsDue.unique` — popping what is due comes to an end, and to only
  one
* `Store.Reachable.popsDue_harvest` — it takes out what a harvest takes out
* `Store.Reachable.harvestEach_harvest` — so do several harvests
-/

namespace Expiry

/-! ### Cutting lists in two -/

/-- Where nothing passes a test after a failure, what passes comes before what fails. -/
theorem filter_append_filter_not {α : Type} {l : List α} {test : α → Bool}
    (sorted : l.Pairwise fun a b => test b = true → test a = true) :
    l.filter test ++ l.filter (!test ·) = l := by
  obtain ⟨htake, hdrop⟩ := takeWhile_eq_filter sorted
  rw [← htake, ← hdrop, List.takeWhile_append_dropWhile]

namespace SameByTtl

variable {l before after : List Timer} {t : Timer} {horizon horizon' : Instant}

theorem trans {l' l'' : List Timer} (h : SameByTtl l l') (h' : SameByTtl l' l'') :
    SameByTtl l l'' := fun ttl => (h ttl).trans (h' ttl)

/-- A timer can be moved to the front past timers with other times to live. -/
theorem cons_append (first : ∀ u ∈ before, u.ttl ≠ t.ttl) (after : List Timer) :
    SameByTtl (t :: (before ++ after)) (before ++ t :: after) := by
  intro ttl
  by_cases httl : t.ttl = ttl
  · have hnone : before.filter (·.ttl = ttl) = [] := by
      simpa [← httl] using first
    simp [List.filter_append, hnone, httl]
  · simp [List.filter_append, httl]

theorem of_dueBy (horizon : Instant) (l : List Timer) :
    SameByTtl (dueBy (fun t => t) horizon l) (l.filter (·.deadline ≤ horizon)) :=
  filter_dueBy (fun t => t) horizon l

/-- What is due first, and then what is due later, is what is due later in all. -/
theorem due_append (ordered : l.Pairwise fun t u => t.ttl = u.ttl → t.deadline ≤ u.deadline)
    (later : horizon ≤ horizon') :
    SameByTtl (l.filter (·.deadline ≤ horizon) ++
        (l.filter (horizon < ·.deadline)).filter (·.deadline ≤ horizon'))
      (l.filter (·.deadline ≤ horizon')) := by
  intro ttl
  -- Within the time to live nothing that is due follows anything that is not.
  have hsorted : ((l.filter (·.deadline ≤ horizon')).filter (·.ttl = ttl)).Pairwise fun t u =>
      decide (u.deadline ≤ horizon) = true → decide (t.deadline ≤ horizon) = true := by
    refine ((ordered.filter _).filter _).imp_of_mem fun {t u} ht hu hle hdue => ?_
    have hsame : t.ttl = u.ttl := (of_decide_eq_true (List.mem_filter.mp ht).2).trans
      (of_decide_eq_true (List.mem_filter.mp hu).2).symm
    exact decide_eq_true (Int64.le_trans (hle hsame) (of_decide_eq_true hdue))
  rw [← filter_append_filter_not hsorted, List.filter_append]
  simp only [List.filter_filter]
  congr 1
  · refine List.filter_congr fun t _ => ?_
    have hle : t.deadline ≤ horizon → t.deadline ≤ horizon' := fun hle => Int64.le_trans hle later
    by_cases hdue : t.deadline ≤ horizon <;> simp [hdue, hle]
  · refine List.filter_congr fun t _ => ?_
    have hlate : (!decide (t.deadline ≤ horizon)) = decide (horizon < t.deadline) := by
      rw [← decide_not, decide_eq_decide, Int64.not_le]
    rw [hlate, ← Bool.and_assoc, Bool.and_comm]

end SameByTtl

/-! ### One harvest after the other -/

namespace Agenda

variable {a : Agenda} {t : Timer} {reading reading' : Instant}

/-- Of two timers with the same time to live the one ahead is due no later. -/
def Ordered (a : Agenda) : Prop :=
  a.timers.Pairwise fun t u => t.ttl = u.ttl → t.deadline ≤ u.deadline

theorem now_harvest (a : Agenda) (reading reading' : Instant) :
    (a.harvest reading).2.now reading' = a.now (max reading reading') := by
  show max reading' (max reading a.latest) = max (max reading reading') a.latest
  rw [← Instant.max_assoc, Instant.max_comm reading' reading]

theorem horizon_le_horizon (a : Agenda) (reading reading' : Instant) :
    (a.now reading).after a.tolerance ≤ (a.now (max reading reading')).after a.tolerance := by
  refine Instant.after_le_after ?_ a.tolerance
  rw [now, now, Instant.max_le_iff]
  exact ⟨Int64.le_trans (Instant.le_max_left _ _) (Instant.le_max_left _ _),
    Instant.le_max_right _ _⟩

/-- Two harvests leave what one at the later instant leaves. -/
theorem harvest_harvest (a : Agenda) (reading reading' : Instant) :
    ((a.harvest reading).2.harvest reading').2 = (a.harvest (max reading reading')).2 := by
  have hle := a.horizon_le_horizon reading reading'
  rw [harvest, now_harvest]
  simp only [harvest, List.filter_filter, mk.injEq, and_true]
  refine List.filter_congr fun t _ => ?_
  refine Bool.and_eq_left_iff_imp.mpr fun hlate => decide_eq_true ?_
  exact Int64.lt_of_le_of_lt hle (of_decide_eq_true hlate)

/-- Two harvests take out what one at the later instant takes out. -/
theorem harvest_append_harvest (ordered : a.Ordered) (reading reading' : Instant) :
    SameByTtl ((a.harvest reading).1 ++ ((a.harvest reading).2.harvest reading').1)
      (a.harvest (max reading reading')).1 := by
  have hdue : ∀ (a : Agenda) reading, SameByTtl (a.harvest reading).1
      (a.timers.filter (·.deadline ≤ (a.now reading).after a.tolerance)) := fun a reading =>
    .of_dueBy _ _
  refine ((hdue _ _).append (hdue _ _)).trans (.trans ?_ (hdue _ _).symm)
  rw [now_harvest]
  exact .due_append ordered (a.horizon_le_horizon reading reading')

/-- A harvest leaves nothing for another one at the same reading. -/
theorem harvest_harvest_self (ordered : a.Ordered) (reading : Instant) :
    ((a.harvest reading).2.harvest reading).1 = [] := by
  have hperm := (harvest_append_harvest ordered reading reading).perm
  rw [Instant.max_self] at hperm
  have hlength := hperm.length_eq
  rw [List.length_append] at hlength
  exact List.length_eq_zero_iff.mp (by omega)

/-- One harvest after the other, each with what the clock shows then: all that comes out, and the
agenda afterwards. -/
def harvestEach (a : Agenda) : List Instant → List Timer × Agenda
  | [] => ([], a)
  | reading :: readings =>
    let (due, a) := a.harvest reading
    let (dues, a) := a.harvestEach readings
    (due ++ dues, a)

/-- Harvests are one harvest at the latest of their readings. -/
theorem harvestEach_cons (ordered : a.Ordered) (reading : Instant) (readings : List Instant) :
    (a.harvestEach (reading :: readings)).2 = (a.harvest (readings.foldl max reading)).2 ∧
      SameByTtl (a.harvestEach (reading :: readings)).1
        (a.harvest (readings.foldl max reading)).1 := by
  induction readings generalizing reading with
  | nil =>
    refine ⟨rfl, ?_⟩
    show SameByTtl ((a.harvest reading).1 ++ []) _
    rw [List.append_nil]
    exact .refl _
  | cons reading' readings ih =>
    -- The first two harvests are one at the later reading, and what follows them is the same.
    obtain ⟨hleft, hdues⟩ := ih (max reading reading')
    simp only [harvestEach, harvest_harvest] at hleft hdues ⊢
    refine ⟨hleft, ?_⟩
    rw [← List.append_assoc]
    exact .trans ((harvest_append_harvest ordered reading reading').append (.refl _)) hdues

/-! ### The soonest timer -/

/-- Among timers there is a soonest one, and it is due no later than the others. -/
theorem exists_soonest {u : Timer} (hu : u ∈ a.timers) :
    ∃ t, soonest? (fun t => t) a.timers = some t ∧ ∀ v ∈ a.timers, t.deadline ≤ v.deadline := by
  cases hsoonest : soonest? (fun t => t) a.timers with
  | none => simp [soonest?_eq_none.mp hsoonest] at hu
  | some t =>
    obtain ⟨-, least⟩ := soonest?_eq_some hsoonest
    exact ⟨t, rfl, fun v hv => Timer.deadline_le_of_before (least v hv)⟩

/-- The soonest timer is the first of its lane. Taking it out leaves what is before and after it. -/
theorem exists_split_soonest (ordered : a.Ordered) (distinct : (a.timers.map (·.id)).Nodup)
    (hsoonest : soonest? (fun t => t) a.timers = some t) :
    ∃ before after, a.timers = before ++ t :: after ∧
      (a.without t.id).timers = before ++ after ∧ ∀ u ∈ before, u.ttl ≠ t.ttl := by
  obtain ⟨hleast, before, after, hsplit, hbefore⟩ := List.find?_eq_some_iff_append.mp hsoonest
  refine ⟨before, after, hsplit, ?_, fun u hu httl => ?_⟩
  · rw [without, hsplit]
    exact filter_id_ne (fun t : Timer => t.id) (hsplit ▸ distinct)
  · -- A timer ahead of `t` in its lane would be no later, and so be found first.
    rw [Ordered, hsplit] at ordered
    have hle := (List.pairwise_append.mp ordered).2.2 u hu t List.mem_cons_self httl
    have hut := Timer.before_of_deadline_le hle (Timer.ttlLe_of_ttl_eq httl)
    have hall : (a.timers.all fun v => u.before v) = true := List.all_eq_true.mpr fun v hv =>
      Timer.before_trans hut (List.all_eq_true.mp hleast v hv)
    simpa [hall] using hbefore u hu

end Agenda

/-! ### Stores -/

/-- The timers of a lane, from the head along the links. -/
def Lane.timers (lane : Lane) (pool : Pool) : Except Fault (List Timer) := do
  (← lane.slots pool).mapM fun slot => return (← pool.read slot).toTimer

theorem Lane.Holds.timers_eq {lane : Lane} {pool : Pool} {chain : Ledger}
    (h : lane.Holds pool chain) : lane.timers pool = .ok (chain.map Entry.toTimer) := by
  rw [timers, h.slots_eq, Fault.ok_bind, List.mapM_map]
  refine Fault.mapM_eq_ok fun e he => ?_
  obtain ⟨prev, next, hget⟩ := h.linked.exists_node he
  simp [Pool.read_eq_ok_iff.mpr hget, Entry.node]

namespace Store

variable {s s' s'' : Store} {a b : Agenda} {t : Timer} {timers timers' : List Timer}
  {horizon : Instant}

/-- The timers in the lane for `ttl`, from its head to its tail. -/
def inLane (s : Store) (ttl : UInt64) : Except Fault (List Timer) :=
  match laneOf s.lanes ttl with
  | some lane => lane.timers s.pool
  | none => .ok []

/-- The same timers are running in the stores: they are found with the same deadlines, and stand in
the same order in the same lanes. -/
structure SameTimers (s s' : Store) : Prop where
  deadline : ∀ id, ∃ deadline, s.deadline? id = .ok deadline ∧ s'.deadline? id = .ok deadline
  inLane : ∀ ttl, ∃ timers, s.inLane ttl = .ok timers ∧ s'.inLane ttl = .ok timers
  laneCount : s.laneCount = s'.laneCount

/-- As long as the next timer is due by `horizon` it is popped. This pops `timers`, and then comes
to an end at `s'`. -/
inductive PopsDue (horizon : Instant) : Store → List Timer → Store → Prop where
  | stop {s : Store} {next : Option Instant} (hnext : s.nextDeadline? = .ok next)
      (later : ∀ t ∈ next, horizon < t) : PopsDue horizon s [] s
  | pop {s s₁ s' : Store} {next : Instant} {timer : Timer} {timers : List Timer}
      (hnext : s.nextDeadline? = .ok (some next)) (due : next ≤ horizon)
      (hpop : s.popSoonest = .ok (some timer, s₁)) (rest : PopsDue horizon s₁ timers s') :
      PopsDue horizon s (timer :: timers) s'

/-- What is popped, and what is left, is determined. -/
theorem PopsDue.unique (h : PopsDue horizon s timers s') (h' : PopsDue horizon s timers' s'') :
    timers = timers' ∧ s' = s'' := by
  induction h generalizing timers' with
  | stop hnext later =>
    cases h' with
    | stop => exact ⟨rfl, rfl⟩
    | pop hnext' due =>
      rw [hnext, Except.ok.injEq] at hnext'
      exact absurd due (Int64.not_le.mpr (later _ hnext'))
  | pop hnext due hpop rest ih =>
    cases h' with
    | stop hnext' later =>
      rw [hnext, Except.ok.injEq] at hnext'
      exact absurd due (Int64.not_le.mpr (later _ hnext'.symm))
    | pop hnext' due' hpop' rest' =>
      rw [hpop, Except.ok.injEq, Prod.mk.injEq, Option.some.injEq] at hpop'
      obtain ⟨rfl, rfl⟩ := hpop'
      obtain ⟨rfl, rfl⟩ := ih rest'
      exact ⟨rfl, rfl⟩

/-- One harvest after the other, each with what the clock shows then: all that comes out, and the
store afterwards. -/
def harvestEach (s : Store) : List Instant → Except Fault (List Timer × Store)
  | [] => .ok ([], s)
  | reading :: readings => do
    let (due, s, _) ← s.harvest reading
    let (dues, s) ← s.harvestEach readings
    return (due ++ dues, s)

namespace Follows

theorem ordered (h : s.Follows a) : a.Ordered := by
  obtain ⟨ledger, hkeeps, htimers, -⟩ := h
  rw [Agenda.Ordered, htimers]
  exact List.pairwise_map.mpr hkeeps.timely.ordered

theorem horizon_eq (h : s.Follows a) (reading : Instant) :
    s.horizon (s.instant reading) = (a.now reading).after a.tolerance := by
  rw [h.instant_eq]
  obtain ⟨ledger, -, -, htolerance, -⟩ := h
  rw [htolerance]
  rfl

/-- The lane for a time to live has the timers of the agenda that have it, in the same order. -/
theorem inLane_eq (h : s.Follows a) (ttl : UInt64) :
    s.inLane ttl = .ok (a.timers.filter (·.ttl = ttl)) := by
  obtain ⟨ledger, hkeeps, htimers, -⟩ := h
  have hfilter : a.timers.filter (·.ttl = ttl) = (ledger.ofTtl ttl).map Entry.toTimer := by
    rw [htimers, List.filter_map]
    rfl
  rw [hfilter, inLane]
  cases hlane : laneOf s.lanes ttl with
  | none =>
    rw [hkeeps.filed.absent hlane]
    rfl
  | some lane => exact (hkeeps.filed.present hlane).2.2.timers_eq

theorem sameTimers (h : s.Follows a) (h' : s'.Follows b) (same : SameByTtl a.timers b.timers) :
    s.SameTimers s' where
  deadline id := ⟨_, h.deadline?_eq id, by rw [h'.deadline?_eq, same.find?_id_eq h.ids_nodup]⟩
  inLane ttl := ⟨_, h.inLane_eq ttl, by rw [h'.inLane_eq, same]⟩
  laneCount := by rw [h.laneCount_eq, h'.laneCount_eq, (same.perm.map _).dedup.length_eq]

/-- The next timer that is due is the one that is popped. -/
theorem popSoonest_soonest (h : s.Follows a) (hsoonest : soonest? (fun t => t) a.timers = some t) :
    ∃ s₁, s.nextDeadline? = .ok (some t.deadline) ∧ s.popSoonest = .ok (some t, s₁) ∧
      s₁.Follows (a.without t.id) := by
  obtain ⟨s₁, hpop, hs₁⟩ := h.popSoonest
  have hpopped : a.popSoonest = (some t, a.without t.id) := by rw [Agenda.popSoonest, hsoonest]
  rw [hpopped] at hpop hs₁
  refine ⟨s₁, ?_, hpop, hs₁⟩
  rw [h.nextDeadline?_eq, Agenda.nextDeadline?, ← deadline_soonest?, hsoonest]
  rfl

/-- With nothing due, popping what is due comes to an end at once. -/
theorem popsDue_nil (h : s.Follows a) (later : ∀ t ∈ a.timers, horizon < t.deadline) :
    s.PopsDue horizon [] s := by
  refine .stop h.nextDeadline?_eq fun next hnext => ?_
  obtain ⟨⟨t, ht, rfl⟩, -⟩ := Agenda.nextDeadline?_eq_some_iff.mp hnext
  exact later t ht

/-- Popping what is due comes to an end. It takes out what is due, in the order of the deadlines,
and leaves the rest. -/
theorem popsDue (h : s.Follows a) (horizon : Instant) :
    ∃ popped s', s.PopsDue horizon popped s' ∧
      s'.Follows { a with timers := a.timers.filter (horizon < ·.deadline) } ∧
      (popped.Pairwise fun t u => t.deadline ≤ u.deadline) ∧
      SameByTtl popped (a.timers.filter (·.deadline ≤ horizon)) := by
  -- Every turn takes out one of the timers that are due.
  induction hsize : (a.timers.filter (·.deadline ≤ horizon)).length generalizing s a with
  | zero =>
    have hnone := List.length_eq_zero_iff.mp hsize
    have later : ∀ t ∈ a.timers, horizon < t.deadline := by
      simpa [List.filter_eq_nil_iff] using hnone
    have hall : a.timers.filter (horizon < ·.deadline) = a.timers :=
      List.filter_eq_self.mpr fun t ht => decide_eq_true (later t ht)
    exact ⟨[], s, h.popsDue_nil later, by rw [hall]; exact h, .nil, by rw [hnone]; exact .refl _⟩
  | succ n ih =>
    obtain ⟨u, hu⟩ := List.exists_mem_of_length_eq_add_one hsize
    obtain ⟨hu, hdue⟩ := List.mem_filter.mp hu
    obtain ⟨t, hsoonest, least⟩ := Agenda.exists_soonest hu
    have ht : t.deadline ≤ horizon := Int64.le_trans (least u hu) (of_decide_eq_true hdue)
    obtain ⟨before, after, hsplit, hrest, hfirst⟩ :=
      Agenda.exists_split_soonest h.ordered h.ids_nodup hsoonest
    obtain ⟨s₁, hnext, hpop, hs₁⟩ := h.popSoonest_soonest hsoonest
    have hfront := (SameByTtl.cons_append hfirst after).filter (·.deadline ≤ horizon)
    rw [List.filter_cons_of_pos (by simpa using ht), ← hsplit, ← hrest] at hfront
    obtain ⟨popped, s', hpops, hs', hsorted, hsame⟩ := ih hs₁ (by
      have hlength := hfront.perm.length_eq
      rw [List.length_cons] at hlength
      omega)
    have hlate : (a.without t.id).timers.filter (horizon < ·.deadline) =
        a.timers.filter (horizon < ·.deadline) := by
      simp [hrest, hsplit, List.filter_append, Int64.not_lt.mpr ht]
    refine ⟨t :: popped, s', .pop hnext ht hpop hpops, hlate ▸ hs', ?_,
      .trans ((SameByTtl.refl [t]).append hsame) hfront⟩
    refine List.pairwise_cons.mpr ⟨fun v hv => least v ?_, hsorted⟩
    have hv := hfront.perm.mem_iff.mp (List.mem_cons_of_mem t (hsame.perm.mem_iff.mp hv))
    exact (List.mem_filter.mp hv).1

theorem harvestEach (h : s.Follows a) (readings : List Instant) :
    ∃ s', s.harvestEach readings = .ok ((a.harvestEach readings).1, s') ∧
      s'.Follows (a.harvestEach readings).2 := by
  induction readings generalizing s a with
  | nil => exact ⟨s, rfl, h⟩
  | cons reading readings ih =>
    obtain ⟨s₁, notes, hharvest, h₁⟩ := h.harvest reading
    obtain ⟨s', hrest, h'⟩ := ih h₁
    refine ⟨s', ?_, h'⟩
    simp [Store.harvestEach, hharvest, hrest, Agenda.harvestEach]

end Follows

namespace Reachable

/-- Popping timer by timer what a harvest would take comes to an end. The timers are those of the
harvest and come out in the order of their deadlines, with the same time to live in the same order
as in the harvest. The same timers are left. -/
theorem popsDue_harvest (h : s.Reachable) (reading : Instant) :
    ∃ due s₁ notes popped s₂, s.harvest reading = .ok (due, s₁, notes) ∧
      s.PopsDue (s.horizon (s.instant reading)) popped s₂ ∧ popped.Perm due ∧
      (popped.Pairwise fun t u => t.deadline ≤ u.deadline) ∧ SameByTtl popped due ∧
      s₁.SameTimers s₂ := by
  obtain ⟨a, ha⟩ := h.exists_follows
  obtain ⟨s₁, notes, hharvest, hs₁⟩ := ha.harvest reading
  obtain ⟨popped, s₂, hpops, hs₂, hsorted, hpopped⟩ :=
    ha.popsDue ((a.now reading).after a.tolerance)
  have hsame : SameByTtl popped (a.harvest reading).1 :=
    hpopped.trans (SameByTtl.of_dueBy _ _).symm
  exact ⟨_, s₁, notes, popped, s₂, hharvest, ha.horizon_eq reading ▸ hpops, hsame.perm, hsorted,
    hsame, hs₁.sameTimers hs₂ (.refl _)⟩

/-- Two lanes are due in part, and their deadlines interleave. The harvest goes through the lane for
10 before the lane for 9, as its digits come first, and the order of the deadlines is another. -/
theorem popsDue_harvest_interleaved : ∃ s : Store, s.Reachable ∧
    ∃ due s₁ notes popped s₂, s.harvest 14 = .ok (due, s₁, notes) ∧
      s.PopsDue (s.horizon (s.instant 14)) popped s₂ ∧ popped.Perm due ∧
      due.map (·.id) = [[1], [3], [2]] ∧ popped ≠ due ∧
      (popped.Pairwise fun t u => t.deadline ≤ u.deadline) ∧ SameByTtl popped due ∧
      s₁.SameTimers s₂ := by
  obtain ⟨s, hrun, hs⟩ := (Follows.empty 1).run
    [(0, .set [1] 10), (4, .set [3] 10), (4, .set [2] 9), (4, .set [4] 100)]
  have hreachable : s.Reachable := ⟨1, _, _, hrun⟩
  obtain ⟨due, s₁, notes, popped, s₂, hharvest, hpops, hperm, hsorted, hsame, hleft⟩ :=
    hreachable.popsDue_harvest 14
  obtain ⟨s₁', notes', hharvest', -⟩ := hs.harvest 14
  rw [hharvest, Except.ok.injEq, Prod.mk.injEq] at hharvest'
  have hdue : due = [⟨[1], 10, 10⟩, ⟨[3], 10, 14⟩, ⟨[2], 9, 13⟩] :=
    hharvest'.1.trans ((dueBy_eq_filter (by decide +kernel)).trans (by decide +kernel))
  refine ⟨s, hreachable, due, s₁, notes, popped, s₂, hharvest, hpops, hperm, by rw [hdue]; rfl,
    fun hpopped => ?_, hsorted, hsame, hleft⟩
  rw [hpopped, hdue] at hsorted
  exact absurd hsorted (by decide +kernel)

/-- However many harvests there are, and in whatever order the clock shows their readings, they take
out what one harvest at the latest reading takes out, each timer once and those with the same time
to live in the same order. What they leave cannot be told from what that leaves. After it another
harvest at the same reading finds nothing. -/
theorem harvestEach_harvest (h : s.Reachable) {readings : List Instant} {latest : Instant}
    (hlatest : readings.max? = some latest) :
    ∃ dues s₁ due s₂ notes s₃ notes₃, s.harvestEach readings = .ok (dues, s₁) ∧
      s.harvest latest = .ok (due, s₂, notes) ∧ (dues.map (·.id)).Nodup ∧ dues.Perm due ∧
      SameByTtl dues due ∧ s₁.Indistinguishable s₂ ∧
      s₂.harvest latest = .ok ([], s₃, notes₃) := by
  obtain ⟨a, ha⟩ := h.exists_follows
  cases readings with
  | nil => cases hlatest
  | cons reading readings =>
    rw [List.max?_cons', Option.some.injEq] at hlatest
    obtain ⟨hleft, hsame⟩ := Agenda.harvestEach_cons ha.ordered reading readings
    rw [hlatest] at hleft hsame
    obtain ⟨s₁, hharvests, hs₁⟩ := ha.harvestEach (reading :: readings)
    obtain ⟨s₂, notes, hharvest, hs₂⟩ := ha.harvest latest
    obtain ⟨s₃, notes₃, hagain, -⟩ := hs₂.harvest latest
    rw [Agenda.harvest_harvest_self ha.ordered] at hagain
    have hdistinct : ((a.harvest latest).1.map (·.id)).Nodup := nodup_map_dueBy ha.ids_nodup
    exact ⟨_, s₁, _, s₂, notes, s₃, notes₃, hharvests, hharvest,
      (hsame.perm.map _).nodup_iff.mpr hdistinct, hsame.perm, hsame,
      hs₁.indistinguishable hs₂ (.of_eq hleft), hagain⟩

/-- The second harvest finds nothing, as the clock is set back. What is due last in the first lane
is left for the third. -/
theorem harvestEach_harvest_set_back : ([12, 3, 15] : List Instant).max? = some 15 ∧
    ∃ s : Store, s.Reachable ∧ ∃ dues s₁ due s₂ notes s₃ notes₃,
      s.harvestEach [12, 3, 15] = .ok (dues, s₁) ∧ s.harvest 15 = .ok (due, s₂, notes) ∧
      due.map (·.id) = [[1], [3], [2]] ∧ (dues.map (·.id)).Nodup ∧ dues.Perm due ∧
      SameByTtl dues due ∧ s₁.Indistinguishable s₂ ∧ s₂.harvest 15 = .ok ([], s₃, notes₃) := by
  have hlatest : ([12, 3, 15] : List Instant).max? = some 15 := by decide +kernel
  obtain ⟨s, hrun, hs⟩ := (Follows.empty 1).run
    [(0, .set [1] 10), (4, .set [3] 10), (4, .set [2] 9), (4, .set [4] 100)]
  have hreachable : s.Reachable := ⟨1, _, _, hrun⟩
  obtain ⟨dues, s₁, due, s₂, notes, s₃, notes₃, hharvests, hharvest, hnodup, hperm, hsame, hleft,
    hagain⟩ := hreachable.harvestEach_harvest hlatest
  obtain ⟨s₂', notes', hharvest', -⟩ := hs.harvest 15
  rw [hharvest, Except.ok.injEq, Prod.mk.injEq] at hharvest'
  have hdue : due = [⟨[1], 10, 10⟩, ⟨[3], 10, 14⟩, ⟨[2], 9, 13⟩] :=
    hharvest'.1.trans ((dueBy_eq_filter (by decide +kernel)).trans (by decide +kernel))
  exact ⟨hlatest, s, hreachable, dues, s₁, due, s₂, notes, s₃, notes₃, hharvests, hharvest,
    by rw [hdue]; rfl, hnodup, hperm, hsame, hleft, hagain⟩

end Reachable

end Store

end Expiry
