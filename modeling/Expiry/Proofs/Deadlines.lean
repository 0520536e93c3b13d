import Mathlib.Data.Nat.Cast.Order.Field
import Mathlib.Data.Rat.Defs
import Mathlib.Algebra.Order.Ring.Rat
import Mathlib.Tactic.Linarith
import Expiry.Proofs.Generations

/-!
# When timers fire

A timer is set for a duration, which may be any number of nanoseconds, and it fires at a heartbeat.
On the way its deadline loses what is less than a millisecond, and is cut to 64 bits, and to the
greatest instant; the heartbeat is early by the tolerance, and cut as well. All of that together
makes a timer early by less than a millisecond and the tolerance, as long as its deadline can be
written down, and it never makes one late.

The time is that of the service: the latest of the clock readings that it got from commands to set a
timer and from heartbeats.

## Main definitions

* `Duration.millis` — the exact length of a duration in milliseconds
* `timeAfter` — the time of a service after all that has happened
* `Outcome.fired` — the names of the timers that have fired, as an outcome shows
* `Occurrence.spares` — what does not end a timer but by firing it

## Main results

* `Roster.deadline?_perform`, `Roster.deadline?_run` — a timer that is spared keeps its deadline
  until it fires
* `Roster.mem_fired_heartbeat` — a heartbeat fires what has its deadline by then
* `Service.run_fires_on_time` — a timer is never late, and not early by more than what is allowed
-/

namespace Expiry

namespace Duration

/-- The exact length in milliseconds. -/
def millis (d : Duration) : ℚ := d.toNanos / 1000000

theorem toMillis_le_millis (d : Duration) : (d.toMillis : ℚ) ≤ d.millis := by
  rw [millis, toMillis]
  exact_mod_cast Nat.cast_div_le

theorem millis_lt_toMillis_add_one (d : Duration) : d.millis < d.toMillis + 1 := by
  have hlt : d.toNanos < (d.toMillis + 1) * 1000000 := by
    rw [toMillis]
    omega
  rw [millis, div_lt_iff₀ (by norm_num)]
  exact_mod_cast hlt

end Duration

/-! ### The time of a service -/

/-- The clock reading that a service acts at. -/
def Occurrence.observed? : Occurrence → Option Instant
  | .command reading (.set ..) | .heartbeat reading => some reading
  | _ => none

/-- The latest of the clock readings that a service has acted at, and of `start`. -/
def timeAfter (start : Instant) (past : List Occurrence) : Instant :=
  (past.filterMap Occurrence.observed?).foldl (fun latest reading => max reading latest) start

theorem timeAfter_append (start : Instant) (past more : List Occurrence) :
    timeAfter start (past ++ more) = timeAfter (timeAfter start past) more := by
  simp only [timeAfter, List.filterMap_append, List.foldl_append]

theorem le_timeAfter (start : Instant) (past : List Occurrence) : start ≤ timeAfter start past := by
  unfold timeAfter
  induction past.filterMap Occurrence.observed? generalizing start with
  | nil => exact Int64.le_refl _
  | cons reading readings ih => exact Int64.le_trans (Instant.le_max_right _ _) (ih _)

/-! ### What has fired -/

/-- The names of the timers that have fired, as an outcome shows. -/
def Outcome.fired : Outcome → List String
  | .harvested deliveries => deliveries.map (·.news.name)
  | _ => []

/-- Whether an occurrence leaves the timer called `name` alone, unless it fires it. -/
def Occurrence.spares (name : String) : Occurrence → Outcome → Bool
  | .command _ (.set name' _ _), _ | .command _ (.cancel name'), _ => name' ≠ name
  | .command _ .cancelAll, _ => false
  | .command _ .popSoonest, .handled (some (.timer (some (name', _)))) _ => name' ≠ name
  | _, _ => true

namespace Roster

variable {r : Roster} {outbox : Mailbox Expiration} {reading : Instant} {name name' : String}
variable {deadline : Instant} {occurrence : Occurrence}

/-- The deadline of the job called `name`. -/
def deadline? (r : Roster) (name : String) : Option Instant :=
  (r.jobs.find? (·.name = name)).map (·.deadline)

theorem deadline?_eq_some_iff (distinct : (r.jobs.map Job.name).Nodup) :
    r.deadline? name = some deadline ↔
      ∃ job ∈ r.jobs, job.name = name ∧ job.deadline = deadline := by
  constructor
  · intro h
    obtain ⟨job, hfind, rfl⟩ := Option.map_eq_some_iff.mp h
    have hname : job.name = name := by simpa using List.find?_some hfind
    exact ⟨job, List.mem_of_find?_eq_some hfind, hname, rfl⟩
  · rintro ⟨job, hjob, rfl, rfl⟩
    obtain ⟨found, hfound⟩ := Option.isSome_iff_exists.mp
      (List.find?_isSome.mpr ⟨job, hjob, decide_eq_true rfl⟩ :
        (r.jobs.find? (·.name = job.name)).isSome)
    have hname : found.name = job.name := by simpa using List.find?_some hfound
    obtain rfl := List.inj_on_of_nodup_map distinct (List.mem_of_find?_eq_some hfound) hjob hname
    rw [deadline?, hfound, Option.map_some]

theorem deadline?_start (r : Roster) (reading : Instant) (name payload : String)
    (duration : Duration) : (r.start reading name payload duration).deadline? name =
      some ((r.now reading).after duration.toTtl) := by
  have hnone : (r.without name).jobs.find? (·.name = name) = none :=
    List.find?_eq_none.mpr fun job hjob => by simpa using (List.mem_filter.mp hjob).2
  simp only [deadline?, start, List.find?_append, hnone, Option.none_or, List.find?_singleton,
    decide_true, if_true, Option.map_some]
  rfl

theorem deadline?_without (hne : name' ≠ name) (r : Roster) :
    (r.without name').deadline? name = r.deadline? name := by
  rw [deadline?, without, List.find?_filter, deadline?]
  congr 2
  funext job
  by_cases hname : job.name = name <;> simp [hname, hne.symm]

theorem deadline?_harvest (distinct : (r.jobs.map Job.name).Nodup) (reading : Instant)
    (name : String) : (r.harvest reading).deadline? name =
      if name ∈ (r.due reading).map Job.name then none else r.deadline? name := by
  have hleft : ((r.harvest reading).jobs.map Job.name).Nodup :=
    (List.filter_sublist.map _).nodup distinct
  refine Option.ext fun deadline => ?_
  rw [deadline?_eq_some_iff hleft]
  constructor
  · rintro ⟨job, hjob, rfl, rfl⟩
    obtain ⟨hjob, hlt⟩ := List.mem_filter.mp hjob
    rw [if_neg, deadline?_eq_some_iff distinct]
    · exact ⟨job, hjob, rfl, rfl⟩
    · rw [name_mem_due_iff distinct hjob]
      exact Int64.not_le.mpr (of_decide_eq_true hlt)
  · intro h
    split at h
    · cases h
    · next hnotDue =>
      obtain ⟨job, hjob, rfl, rfl⟩ := (deadline?_eq_some_iff distinct).mp h
      rw [name_mem_due_iff distinct hjob] at hnotDue
      exact ⟨job, List.mem_filter.mpr ⟨hjob, decide_eq_true (Int64.not_le.mp hnotDue)⟩, rfl, rfl⟩

theorem deadline?_update (r : Roster) (name' payload : String) :
    (r.update name' payload).deadline? name = r.deadline? name := by
  simp only [deadline?, update, List.find?_map, Option.map_map]
  congr 1
  · funext job
    by_cases hname : job.name = name' <;> simp [hname]
  · congr 1
    funext job
    by_cases hname : job.name = name' <;> simp [hname]

theorem fired_heartbeat (r : Roster) (outbox : Mailbox Expiration) (reading : Instant) :
    (r.perform outbox (.heartbeat reading)).1.fired = (r.due reading).map Job.name := by
  have hnews := congrArg (List.map Expiration.name)
    (map_news_post outbox ((r.due reading).map Job.news))
  rwa [List.map_map, List.map_map] at hnews

/-- A heartbeat fires a timer if its deadline is not after what the heartbeat looks ahead to. -/
theorem mem_fired_heartbeat (distinct : (r.jobs.map Job.name).Nodup) (outbox : Mailbox Expiration)
    (reading : Instant) (name : String) :
    name ∈ (r.perform outbox (.heartbeat reading)).1.fired ↔
      ∃ deadline, r.deadline? name = some deadline ∧
        deadline ≤ (r.now reading).after r.tolerance := by
  rw [fired_heartbeat]
  constructor
  · intro hname
    obtain ⟨job, hdue, rfl⟩ := List.mem_map.mp hname
    obtain ⟨hjob, hle⟩ := mem_dueBy.mp hdue
    exact ⟨_, (deadline?_eq_some_iff distinct).mpr ⟨job, hjob, rfl, rfl⟩, hle⟩
  · rintro ⟨deadline, hdeadline, hle⟩
    obtain ⟨job, hjob, rfl, rfl⟩ := (deadline?_eq_some_iff distinct).mp hdeadline
    exact (name_mem_due_iff distinct hjob).mpr hle

/-- A timer that an occurrence spares keeps its deadline, or fires and is gone. -/
theorem deadline?_perform (distinct : (r.jobs.map Job.name).Nodup) (outbox : Mailbox Expiration)
    (spared : occurrence.spares name (r.perform outbox occurrence).1 = true) :
    (r.perform outbox occurrence).2.1.deadline? name =
      if name ∈ (r.perform outbox occurrence).1.fired then none else r.deadline? name := by
  cases occurrence with
  | receive => rfl
  | heartbeat reading =>
    rw [fired_heartbeat]
    exact deadline?_harvest distinct reading name
  | command reading command =>
    -- Nothing but a heartbeat fires.
    refine Eq.trans ?_ (if_neg List.not_mem_nil).symm
    cases command with
    | set name' payload duration =>
      have hne : name' ≠ name := of_decide_eq_true spared
      have hothers := deadline?_without hne r
      simp only [deadline?, perform, handle, start, List.find?_append] at hothers ⊢
      rw [List.find?_singleton, if_neg (by simpa using hne), Option.or_none, hothers]
    | cancel name' => exact deadline?_without (of_decide_eq_true spared) r
    | cancelAll => cases spared
    | update name' payload => exact r.deadline?_update name' payload
    | popSoonest =>
      simp only [perform, handle] at spared ⊢
      cases hsoonest : r.soonest? with
      | none => rfl
      | some job =>
        rw [hsoonest] at spared
        exact deadline?_without (of_decide_eq_true spared) r
    | _ => rfl

theorem clock_perform (r : Roster) (outbox : Mailbox Expiration) (occurrence : Occurrence) :
    (r.perform outbox occurrence).2.1.latest = timeAfter r.latest [occurrence] ∧
      (r.perform outbox occurrence).2.1.tolerance = r.tolerance := by
  cases occurrence with
  | receive => exact ⟨rfl, rfl⟩
  | heartbeat reading => exact ⟨rfl, rfl⟩
  | command reading command =>
    cases command with
    | popSoonest =>
      simp only [perform, handle]
      cases r.soonest? <;> exact ⟨rfl, rfl⟩
    | _ => exact ⟨rfl, rfl⟩

/-! ### Runs of a roster -/

variable {occurrences : List Occurrence}

theorem run_cons (r : Roster) (outbox : Mailbox Expiration) (occurrence : Occurrence)
    (rest : List Occurrence) :
    r.run outbox (occurrence :: rest) =
      ((r.perform outbox occurrence).1 :: ((r.perform outbox occurrence).2.1.run
          (r.perform outbox occurrence).2.2 rest).1,
        ((r.perform outbox occurrence).2.1.run (r.perform outbox occurrence).2.2 rest).2) := rfl

theorem run_append (r : Roster) (outbox : Mailbox Expiration) (past more : List Occurrence) :
    r.run outbox (past ++ more) =
      ((r.run outbox past).1 ++ ((r.run outbox past).2.1.run (r.run outbox past).2.2 more).1,
        ((r.run outbox past).2.1.run (r.run outbox past).2.2 more).2) := by
  induction past generalizing r outbox with
  | nil => rfl
  | cons occurrence past ih => simp only [List.cons_append, run_cons, ih]

theorem clock_run (r : Roster) (outbox : Mailbox Expiration) (occurrences : List Occurrence) :
    (r.run outbox occurrences).2.1.latest = timeAfter r.latest occurrences ∧
      (r.run outbox occurrences).2.1.tolerance = r.tolerance := by
  induction occurrences generalizing r outbox with
  | nil => exact ⟨rfl, rfl⟩
  | cons occurrence rest ih =>
    obtain ⟨hlatest, htolerance⟩ := r.clock_perform outbox occurrence
    obtain ⟨hlatest', htolerance'⟩ :=
      ih (r.perform outbox occurrence).2.1 (r.perform outbox occurrence).2.2
    refine ⟨hlatest'.trans ?_, htolerance'.trans htolerance⟩
    rw [hlatest, ← timeAfter_append]
    rfl

theorem nodup_run (distinct : (r.jobs.map Job.name).Nodup) (outbox : Mailbox Expiration)
    (occurrences : List Occurrence) :
    ((r.run outbox occurrences).2.1.jobs.map Job.name).Nodup := by
  induction occurrences generalizing r outbox with
  | nil => exact distinct
  | cons occurrence rest ih => exact ih (nodup_perform distinct outbox occurrence) _

/-- A timer that is spared in a run keeps its deadline until it fires. -/
theorem deadline?_run (distinct : (r.jobs.map Job.name).Nodup)
    (spared : ∀ step ∈ occurrences.zip (r.run outbox occurrences).1,
      step.1.spares name step.2 = true) :
    (r.run outbox occurrences).2.1.deadline? name =
      if name ∈ (r.run outbox occurrences).1.flatMap Outcome.fired then none
      else r.deadline? name := by
  induction occurrences generalizing r outbox with
  | nil => rfl
  | cons occurrence rest ih =>
    rw [run_cons] at spared ⊢
    obtain ⟨hfirst, hrest⟩ := List.forall_mem_cons.mp spared
    have hlast := ih (nodup_perform distinct outbox occurrence) hrest
    rw [deadline?_perform distinct outbox hfirst] at hlast
    rw [hlast, List.flatMap_cons]
    by_cases hlater : name ∈ ((r.perform outbox occurrence).2.1.run
        (r.perform outbox occurrence).2.2 rest).1.flatMap Outcome.fired
    · rw [if_pos hlater, if_pos (List.mem_append_right _ hlater)]
    · rw [if_neg hlater]
      exact if_congr (by rw [List.mem_append, or_iff_left hlater]) rfl rfl

/-- A timer that is spared fires at the first heartbeat that looks ahead to its deadline. -/
theorem mem_fired_iff (distinct : (r.jobs.map Job.name).Nodup) (reading reading' : Instant)
    (payload : String) (duration : Duration) (outbox' : Mailbox Expiration)
    (spared : ∀ step ∈ occurrences.zip
      ((r.start reading name payload duration).run outbox occurrences).1,
        step.1.spares name step.2 = true) :
    let started := (r.start reading name payload duration).run outbox occurrences
    name ∈ (started.2.1.perform outbox' (.heartbeat reading')).1.fired ↔
      name ∉ started.1.flatMap Outcome.fired ∧
        (r.now reading).after duration.toTtl ≤ (started.2.1.now reading').after r.tolerance := by
  intro started
  have hstart : ((r.start reading name payload duration).jobs.map Job.name).Nodup :=
    nodup_perform distinct outbox (.command reading (.set name payload duration))
  have htolerance : started.2.1.tolerance = r.tolerance := (clock_run _ outbox occurrences).2
  have hdeadline := deadline?_run hstart spared
  rw [deadline?_start] at hdeadline
  rw [mem_fired_heartbeat (nodup_run hstart outbox occurrences), hdeadline, htolerance]
  by_cases hfired : name ∈ started.1.flatMap Outcome.fired
  · rw [if_pos hfired]
    simp [hfired]
  · rw [if_neg hfired]
    simp [hfired, started]

end Roster

/-! ### The deadline of a timer -/

section

variable {t u : Instant} {tolerance : UInt64} {d : Duration}

/-- A heartbeat that is not before the exact deadline looks ahead to the deadline. -/
theorem after_toTtl_le (h : t ≤ u)
    (due : (t.toInt : ℚ) + d.millis ≤ u.toInt + tolerance.toNat) :
    t.after d.toTtl ≤ u.after tolerance := by
  apply Instant.after_le_after_of_add_le h
  have hmillis := d.toMillis_le_millis
  have hexact : t.toInt + d.toMillis ≤ u.toInt + tolerance.toNat := by
    have hcast : (t.toInt : ℚ) + d.toMillis ≤ u.toInt + tolerance.toNat := by linarith
    exact_mod_cast hcast
  rw [d.toNat_toTtl]
  omega

/-- A heartbeat that looks ahead to the deadline is before the exact one by less than a millisecond,
unless the exact one is out of range. -/
theorem lt_of_after_toTtl_le (h : t.after d.toTtl ≤ u.after tolerance) :
    (t.toInt : ℚ) + d.millis - 1 < u.toInt + tolerance.toNat ∨
      Instant.last.toInt < d.toMillis ∨ Instant.last.toInt < t.toInt + d.toMillis := by
  have hmillis := d.millis_lt_toMillis_add_one
  have hsum := Instant.add_le_add_of_after_le h
  rw [d.toNat_toTtl] at hsum
  rcases Nat.lt_or_ge (UInt64.size - 1) d.toMillis with hlong | hshort
  · -- More milliseconds than 64 bits can hold are more than an instant can be.
    have hlast : Instant.last.toInt < (UInt64.size - 1 : Nat) := by decide
    exact .inr (.inl (by omega))
  · rw [Nat.min_eq_left hshort] at hsum
    refine hsum.imp_left fun hexact => ?_
    have hcast : (t.toInt : ℚ) + d.toMillis ≤ u.toInt + tolerance.toNat := by exact_mod_cast hexact
    linarith

end

namespace Service

variable {outbox : Mailbox Expiration}

/-- A timer is never late, and early by less than the tolerance and a millisecond. If a service over
a store without timers is told to set a timer, and nothing but a heartbeat ends it, then a heartbeat
that comes no more than the tolerance before the end of the duration finds it fired or fires it. A
heartbeat that fires it comes less than a millisecond before that, if the deadline is in range. -/
theorem run_fires_on_time {store : Store} (reachable : store.Reachable)
    (unused : store.isEmpty = true) (service : String) (heard : outbox.hasReceiver = true)
    (before between : List Occurrence) (reading reading' : Instant) (name payload : String)
    (duration : Duration) :
    let set : Occurrence := .command reading (.set name payload duration)
    let past := before ++ set :: between ++ [.heartbeat reading']
    let begun := timeAfter store.latest (before ++ [set])
    let now := timeAfter store.latest past
    ∃ earlier reply later last s outbox',
      run { name := service, store } outbox past =
        .ok (earlier ++ reply :: later ++ [last], s, outbox') ∧
      earlier.length = before.length ∧ later.length = between.length ∧
      ((∀ step ∈ between.zip later, step.1.spares name step.2 = true) →
        ((begun.toInt : ℚ) + duration.millis ≤ now.toInt + store.tolerance.toNat →
          name ∈ later.flatMap Outcome.fired ∨ name ∈ last.fired) ∧
        (name ∈ last.fired → name ∉ later.flatMap Outcome.fired ∧
          ((begun.toInt : ℚ) + duration.millis - 1 < now.toInt + store.tolerance.toNat ∨
            Instant.last.toInt < duration.toMillis ∨
            Instant.last.toInt < begun.toInt + duration.toMillis))) := by
  intro set past begun now
  let r₀ : Roster := { tolerance := store.tolerance, latest := store.latest }
  have hunused : Follows { name := service, store } r₀ :=
    Follows.of_unused reachable unused service
  obtain ⟨s, hrun, -⟩ := hunused.run heard past
  -- The roster that is told to set the timer, and the one that the heartbeat comes to.
  let r₁ := (r₀.run outbox before).2.1
  let outbox₁ := (r₀.run outbox before).2.2
  let started := (r₁.start reading name payload duration).run outbox₁ between
  have houtcomes : (r₀.run outbox past).1 = (r₀.run outbox before).1 ++
      .handled (some .done) false :: started.1 ++
        [(started.2.1.perform started.2.2 (.heartbeat reading')).1] := by
    rw [r₀.run_append, r₀.run_append, r₁.run_cons]
    rfl
  have hbegun : r₁.now reading = begun := by
    simp only [begun, timeAfter_append]
    rw [Roster.now, (r₀.clock_run outbox before).1]
    rfl
  have hlater : now = timeAfter begun (between ++ [.heartbeat reading']) := by
    rw [← timeAfter_append]
    simp only [now, past, List.append_assoc, List.cons_append, List.nil_append]
  have hnow : started.2.1.now reading' = now := by
    rw [hlater, timeAfter_append, Roster.now, (Roster.clock_run _ outbox₁ between).1, Roster.start,
      hbegun]
    rfl
  refine ⟨_, _, _, _, s, _, houtcomes ▸ hrun, r₀.length_run outbox before,
    Roster.length_run _ outbox₁ between, fun spared => ?_⟩
  have hfires : name ∈ (started.2.1.perform started.2.2 (.heartbeat reading')).1.fired ↔
      name ∉ started.1.flatMap Outcome.fired ∧
        (r₁.now reading).after duration.toTtl ≤ (started.2.1.now reading').after r₁.tolerance :=
    Roster.mem_fired_iff (r₀.nodup_run List.nodup_nil outbox before) _ _ _ _ _ spared
  have htolerance : r₁.tolerance = store.tolerance := (r₀.clock_run outbox before).2
  rw [hbegun, hnow, htolerance] at hfires
  constructor
  · intro due
    by_cases hfired : name ∈ started.1.flatMap Outcome.fired
    · exact .inl hfired
    · exact .inr (hfires.mpr ⟨hfired, after_toTtl_le (hlater ▸ le_timeAfter begun _) due⟩)
  · intro hfired
    obtain ⟨hfirst, hdue⟩ := hfires.mp hfired
    exact ⟨hfirst, lt_of_after_toTtl_le hdue⟩

/-- A timer is set for five milliseconds and a half while the time is 20, though the clock shows 3.
The heartbeat at 23 spares it, its payload is replaced, and the one at 24 fires it. -/
theorem run_fires_on_time_early :
    let before : List Occurrence := [.command 9 (.set "b" "u" (.ofMillis 50)), .heartbeat 20]
    let between : List Occurrence := [.heartbeat 23, .command 4 (.update "a" "y")]
    let duration : Duration := ⟨0, 5500000, by decide⟩
    let past := before ++ .command 3 (.set "a" "x" duration) :: between ++ [.heartbeat 24]
    (Store.empty 1).Reachable ∧ (Store.empty 1).isEmpty = true ∧
    ∃ earlier reply later last s outbox',
      run { name := "m", store := Store.empty 1 } { capacity := 1 } past =
        .ok (earlier ++ reply :: later ++ [last], s, outbox') ∧
      (∀ step ∈ between.zip later, step.1.spares "a" step.2 = true) ∧
      last = .harvested [.sent ⟨"a", "y"⟩] ∧ "a" ∉ later.flatMap Outcome.fired ∧
      ((20 : ℤ) + duration.millis - 1 < (24 : ℤ) + (1 : ℕ) ∨
        Instant.last.toInt < duration.toMillis ∨ Instant.last.toInt < 20 + duration.toMillis) := by
  intro before between duration past
  have hreachable : (Store.empty 1).Reachable := ⟨1, [], [], rfl⟩
  obtain ⟨earlier, reply, later, last, s, outbox', hrun, hearlier, hlater, hspared⟩ :=
    @run_fires_on_time { capacity := 1 } _ hreachable rfl "m" rfl before between 3 24 "a" "x"
      duration
  have hvalue : (run { name := "m", store := Store.empty 1 } { capacity := 1 } past).map (·.1) =
      .ok ([.handled (some .done) false, .harvested []] ++ .handled (some .done) false ::
        [.harvested [], .handled (some (.payload (some "x"))) false] ++
          [.harvested [.sent ⟨"a", "y"⟩]]) := by
    decide +kernel
  rw [hrun] at hvalue
  obtain ⟨hfront, hlast⟩ := List.append_inj' (Except.ok.inj hvalue) rfl
  obtain ⟨-, hback⟩ := List.append_inj hfront hearlier
  obtain rfl := (List.cons.inj hback).2
  obtain rfl := List.singleton_inj.mp hlast
  have hsparing : ∀ step ∈ between.zip
      [.harvested [], .handled (some (.payload (some "x"))) false],
        step.1.spares "a" step.2 = true := by decide
  obtain ⟨hfirst, hearly⟩ := (hspared hsparing).2 (by decide)
  exact ⟨hreachable, rfl, _, _, _, _, s, outbox', hrun, hsparing, rfl, hfirst, hearly⟩

end Service

end Expiry
