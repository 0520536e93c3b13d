import Expiry.Proofs.Due
import Expiry.Proofs.Harvest

/-!
# Stores follow agendas

A store that keeps a ledger follows the agenda that has the timers of the ledger. Carrying out an
operation on both gives the same answer, and the store follows the agenda again; so all answers of a
run are those of the agenda. Neither the lanes, nor their order, nor the slots can be seen from
outside.

## Main definitions

* `Store.Follows` — the store keeps a ledger of the timers on the agenda

## Main results

* `Store.Follows.perform` — one operation
* `Store.Follows.run` — one operation after the other
* `Store.run_answers_eq_agenda` — an empty store answers as an empty agenda does
-/

namespace Expiry

namespace Store

variable {s : Store} {a : Agenda}

/-- The store keeps a ledger of the timers on the agenda, and agrees with it about time. -/
def Follows (s : Store) (a : Agenda) : Prop :=
  ∃ ledger : Ledger, s.Keeps ledger ∧ a.timers = ledger.map Entry.toTimer ∧
    a.tolerance = s.tolerance ∧ a.latest = s.latest

namespace Follows

theorem empty (tolerance : UInt64) : (Store.empty tolerance).Follows (Agenda.empty tolerance) :=
  ⟨[], Keeps.empty tolerance, rfl, rfl, rfl⟩

theorem ids_nodup (h : s.Follows a) : (a.timers.map (·.id)).Nodup := by
  obtain ⟨ledger, hkeeps, htimers, -⟩ := h
  rw [htimers, List.map_map]
  exact hkeeps.indexed.ids

theorem filter_map_toTimer (ledger : Ledger) (id : Bytes) :
    (ledger.map Entry.toTimer).filter (·.id ≠ id) =
      (ledger.filter (·.id ≠ id)).map Entry.toTimer := List.filter_map

theorem set (h : s.Follows a) (reading : Instant) (id : Bytes) (ttl : UInt64) :
    ∃ s' notes, s.set reading id ttl = .ok (s', notes) ∧ s'.Follows (a.start reading id ttl) := by
  obtain ⟨ledger, hkeeps, htimers, htolerance, hlatest⟩ := h
  obtain ⟨s', notes, slot, hset, hs', hlatest', htolerance'⟩ := hkeeps.set reading id ttl
  have hnow : a.now reading = s.instant reading := by rw [Agenda.now, hlatest]; rfl
  refine ⟨s', notes, hset, _, hs', ?_, htolerance.trans htolerance'.symm, hnow.trans hlatest'.symm⟩
  simp only [Agenda.start, Agenda.without, htimers, filter_map_toTimer, List.map_append, hnow]
  rfl

theorem cancel (h : s.Follows a) (id : Bytes) :
    ∃ s', s.cancel id = .ok s' ∧ s'.Follows (a.without id) := by
  obtain ⟨ledger, hkeeps, htimers, htolerance, hlatest⟩ := h
  obtain ⟨s', hcancel, hs', hlatest', htolerance'⟩ := hkeeps.cancel id
  refine ⟨s', hcancel, _, hs', ?_, htolerance.trans htolerance'.symm, hlatest.trans hlatest'.symm⟩
  rw [Agenda.without, htimers, filter_map_toTimer]

theorem clear (h : s.Follows a) : s.clear.Follows { a with timers := [] } := by
  obtain ⟨ledger, -, -, htolerance, hlatest⟩ := h
  exact ⟨[], Keeps.clear s, rfl, htolerance, hlatest⟩

theorem deadline?_eq (h : s.Follows a) (id : Bytes) :
    s.deadline? id = .ok ((a.timers.find? (·.id = id)).map (·.deadline)) := by
  obtain ⟨ledger, hkeeps, htimers, -⟩ := h
  rw [hkeeps.deadline?_eq, htimers, List.find?_map, Option.map_map]
  rfl

theorem contains_eq (h : s.Follows a) (id : Bytes) : s.contains id = a.timers.any (·.id = id) := by
  obtain ⟨ledger, hkeeps, htimers, -⟩ := h
  rw [hkeeps.contains_eq, htimers, List.any_map]
  rfl

theorem size_eq (h : s.Follows a) : s.size = a.timers.length := by
  obtain ⟨ledger, hkeeps, htimers, -⟩ := h
  rw [hkeeps.size_eq, htimers, List.length_map]

theorem isEmpty_eq (h : s.Follows a) : s.isEmpty = a.timers.isEmpty := by
  obtain ⟨ledger, hkeeps, htimers, -⟩ := h
  rw [hkeeps.isEmpty_eq, htimers, List.isEmpty_map]

theorem laneCount_eq (h : s.Follows a) : s.laneCount = (a.timers.map (·.ttl)).dedup.length := by
  obtain ⟨ledger, hkeeps, htimers, -⟩ := h
  rw [hkeeps.laneCount_eq, htimers, List.map_map]
  rfl

theorem nextDeadline?_eq (h : s.Follows a) : s.nextDeadline? = .ok a.nextDeadline? := by
  obtain ⟨ledger, hkeeps, htimers, -⟩ := h
  rw [hkeeps.nextDeadline?_eq, Agenda.nextDeadline?, htimers, List.map_map]
  rfl

theorem timeLeft?_eq (h : s.Follows a) (reading : Instant) :
    s.timeLeft? reading = .ok (a.timeLeft? reading) := by
  obtain ⟨ledger, hkeeps, htimers, -, hlatest⟩ := h
  rw [hkeeps.timeLeft?_eq, Agenda.timeLeft?, Agenda.nextDeadline?, htimers, List.map_map,
    Agenda.now, hlatest]
  rfl

theorem popSoonest (h : s.Follows a) :
    ∃ s', s.popSoonest = .ok (a.popSoonest.1, s') ∧ s'.Follows a.popSoonest.2 := by
  obtain ⟨ledger, hkeeps, htimers, htolerance, hlatest⟩ := h
  obtain ⟨s', hpop, hs', hlatest', htolerance'⟩ := hkeeps.popSoonest
  have hsoonest : soonest? (fun t => t) a.timers =
      (soonest? Entry.toTimer ledger).map Entry.toTimer := by rw [htimers, soonest?_map]
  refine ⟨s', ?_, ?_⟩
  · rw [hpop, Agenda.popSoonest, hsoonest]
    cases soonest? Entry.toTimer ledger <;> rfl
  · rw [Agenda.popSoonest, hsoonest]
    cases hfirst : soonest? Entry.toTimer ledger with
    | none =>
      rw [hfirst] at hs'
      exact ⟨ledger, hs', htimers, htolerance.trans htolerance'.symm, hlatest.trans hlatest'.symm⟩
    | some e =>
      rw [hfirst] at hs'
      refine ⟨_, hs', ?_, htolerance.trans htolerance'.symm, hlatest.trans hlatest'.symm⟩
      exact (congrArg _ htimers).trans (filter_map_toTimer ledger e.id)

theorem harvest (h : s.Follows a) (reading : Instant) :
    ∃ s' notes, s.harvest reading = .ok ((a.harvest reading).1, s', notes) ∧
      s'.Follows (a.harvest reading).2 := by
  obtain ⟨ledger, hkeeps, htimers, htolerance, hlatest⟩ := h
  obtain ⟨s', notes, hharvest, hs', hlatest', htolerance'⟩ := hkeeps.harvest reading
  have hnow : a.now reading = s.instant reading := by rw [Agenda.now, hlatest]; rfl
  have hhorizon : (a.now reading).after a.tolerance = s.horizon (s.instant reading) := by
    rw [hnow, htolerance]
    rfl
  refine ⟨s', notes, ?_, _, hs', ?_, htolerance.trans htolerance'.symm, hnow.trans hlatest'.symm⟩
  · rw [hharvest, Agenda.harvest, hhorizon, htimers, dueBy_map]
  · simp only [Agenda.harvest, hhorizon, htimers, List.filter_map]
    rfl

/-- An operation is answered as the agenda says, and the store follows the agenda. -/
theorem perform (h : s.Follows a) (reading : Instant) (op : Operation) :
    ∃ s' notes, s.perform reading op = .ok ((a.perform reading op).1, s', notes) ∧
      s'.Follows (a.perform reading op).2 := by
  cases op with
  | set id ttl =>
    obtain ⟨s', notes, hset, hs'⟩ := h.set reading id ttl
    exact ⟨s', notes, by simp [Store.perform, hset, Agenda.perform], hs'⟩
  | cancel id =>
    obtain ⟨s', hcancel, hs'⟩ := h.cancel id
    exact ⟨s', [], by simp [Store.perform, hcancel, Agenda.perform], hs'⟩
  | clear => exact ⟨s.clear, [], rfl, h.clear⟩
  | deadline id =>
    exact ⟨s, [], by simp [Store.perform, h.deadline?_eq, Agenda.perform], h⟩
  | contains id => exact ⟨s, [], by simp [Store.perform, h.contains_eq, Agenda.perform], h⟩
  | size => exact ⟨s, [], by simp [Store.perform, h.size_eq, Agenda.perform], h⟩
  | isEmpty => exact ⟨s, [], by simp [Store.perform, h.isEmpty_eq, Agenda.perform], h⟩
  | laneCount => exact ⟨s, [], by simp [Store.perform, h.laneCount_eq, Agenda.perform], h⟩
  | nextDeadline =>
    exact ⟨s, [], by simp [Store.perform, h.nextDeadline?_eq, Agenda.perform], h⟩
  | timeLeft =>
    exact ⟨s, [], by simp [Store.perform, h.timeLeft?_eq, Agenda.perform], h⟩
  | popSoonest =>
    obtain ⟨s', hpop, hs'⟩ := h.popSoonest
    exact ⟨s', [], by simp [Store.perform, hpop, Agenda.perform], hs'⟩
  | harvest =>
    obtain ⟨s', notes, hharvest, hs'⟩ := h.harvest reading
    exact ⟨s', notes, by simp [Store.perform, hharvest, Agenda.perform], hs'⟩

/-- All answers of a run are those of the agenda. -/
theorem run (h : s.Follows a) (steps : List (Instant × Operation)) :
    ∃ s', s.run steps = .ok ((a.run steps).1, s') ∧ s'.Follows (a.run steps).2 := by
  induction steps generalizing s a with
  | nil => exact ⟨s, rfl, h⟩
  | cons step steps ih =>
    obtain ⟨reading, op⟩ := step
    obtain ⟨s₁, notes, hperform, h₁⟩ := h.perform reading op
    obtain ⟨s', hrun, h'⟩ := ih h₁
    refine ⟨s', ?_, h'⟩
    simp [Store.run, hperform, hrun, Agenda.run]

end Follows

/-- Every store that operations make follows some agenda. -/
theorem Reachable.exists_follows (h : s.Reachable) : ∃ a, s.Follows a := by
  obtain ⟨tolerance, steps, answers, hrun⟩ := h
  obtain ⟨s', hrun', hs'⟩ := (Follows.empty tolerance).run steps
  rw [hrun', Except.ok.injEq, Prod.mk.injEq] at hrun
  exact ⟨_, hrun.2 ▸ hs'⟩

/-- An empty store answers every operation of every run as an empty agenda does. -/
theorem run_answers_eq_agenda (tolerance : UInt64) (steps : List (Instant × Operation)) :
    ∃ s, (Store.empty tolerance).run steps = .ok (((Agenda.empty tolerance).run steps).1, s) := by
  obtain ⟨s, hrun, -⟩ := (Follows.empty tolerance).run steps
  exact ⟨s, hrun⟩

end Store

end Expiry
