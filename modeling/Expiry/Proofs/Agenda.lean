import Mathlib.Data.List.Dedup
import Expiry.Store.Operation

/-!
# Agendas

An agenda is what a timer store would be if nobody cared how long it takes: one list of the running
timers, in the order in which they were started. Every question is answered by going through the
whole list. It is the account against which a store is held.

Which timer is due next, and in which order due timers come out, is said here once for lists of
anything that has a timer, so that it can be said of the timers themselves, of timers with slots and
of timers with payloads.

## Main definitions

* `Timer.ttlLe`, `Timer.before` — the order of lanes, and the order in which timers are due
* `soonest?` — the first of a list among those due next
* `dueBy` — what is due of a list, sorted by time to live
* `Agenda` — the list of timers
* `Agenda.perform`, `Agenda.run` — operations on it

## Main results

* `eq_soonest?` — what is before everything else, and first among its like, is the soonest
* `deadline_soonest?` — the soonest has the least deadline
* `dueBy_sorted`, `filter_dueBy` — `dueBy` is sorted, and keeps the order of equal times to live
* `eq_dueBy` — a list sorted by time to live is `dueBy` if it agrees with it on each time to live
-/

namespace Expiry

namespace Timer

variable {t u v : Timer}

/-- Whether the digits of the time to live of `t` are those of `u` or come before them. -/
def ttlLe (t u : Timer) : Bool := (Bytes.decimal t.ttl).le (Bytes.decimal u.ttl)

/-- Whether `t` is due no later than `u`: by the deadline, and of timers due at once by the decimal
digits of the time to live. -/
def before (t u : Timer) : Bool :=
  t.deadline < u.deadline ∨ t.deadline = u.deadline ∧ t.ttlLe u

theorem ttlLe_of_ttl_eq (h : t.ttl = u.ttl) : t.ttlLe u = true := by
  rw [ttlLe, h]
  exact Bytes.le_refl _

theorem ttlLe_trans (htu : t.ttlLe u = true) (huv : u.ttlLe v = true) : t.ttlLe v = true :=
  Bytes.le_trans htu huv

theorem ttlLe_total (t u : Timer) : t.ttlLe u = true ∨ u.ttlLe t = true := Bytes.le_total _ _

theorem ttlLe_antisymm (htu : t.ttlLe u = true) (hut : u.ttlLe t = true) : t.ttl = u.ttl :=
  Bytes.decimal_inj.mp (Bytes.le_antisymm htu hut)

theorem before_trans (htu : t.before u = true) (huv : u.before v = true) : t.before v = true := by
  simp only [before, decide_eq_true_eq, Int64.lt_iff_toInt_lt, ← Int64.toInt_inj] at *
  rcases htu with htu | ⟨htu, hle⟩ <;> rcases huv with huv | ⟨huv, hle'⟩
  · exact Or.inl (by omega)
  · exact Or.inl (by omega)
  · exact Or.inl (by omega)
  · exact Or.inr ⟨by omega, ttlLe_trans hle hle'⟩

theorem before_refl (t : Timer) : t.before t = true := by
  simp [before, ttlLe_of_ttl_eq]

/-- Timers that are due before each other share their deadline and their lane. -/
theorem before_antisymm (htu : t.before u = true) (hut : u.before t = true) :
    t.deadline = u.deadline ∧ t.ttl = u.ttl := by
  simp only [before, decide_eq_true_eq, Int64.lt_iff_toInt_lt, ← Int64.toInt_inj] at *
  rcases htu with htu | ⟨htu, hle⟩ <;> rcases hut with hut | ⟨hut, hle'⟩
  · omega
  · omega
  · omega
  · exact ⟨htu, ttlLe_antisymm hle hle'⟩

theorem before_total (t u : Timer) : t.before u = true ∨ u.before t = true := by
  simp only [before, decide_eq_true_eq, Int64.lt_iff_toInt_lt, ← Int64.toInt_inj]
  rcases Int.lt_trichotomy t.deadline.toInt u.deadline.toInt with hlt | heq | hlt
  · exact Or.inl (Or.inl hlt)
  · rcases ttlLe_total t u with hle | hle
    · exact Or.inl (Or.inr ⟨heq, hle⟩)
    · exact Or.inr (Or.inr ⟨heq.symm, hle⟩)
  · exact Or.inr (Or.inl hlt)

theorem before_of_deadline_le (hle : t.deadline ≤ u.deadline) (httl : t.ttlLe u = true) :
    t.before u = true := by
  simp only [before, decide_eq_true_eq, Int64.lt_iff_toInt_lt, ← Int64.toInt_inj,
    Int64.le_iff_toInt_le] at hle ⊢
  rcases Int.lt_or_eq_of_le hle with hlt | heq
  · exact Or.inl hlt
  · exact Or.inr ⟨heq, httl⟩

theorem deadline_le_of_before (h : t.before u = true) : t.deadline ≤ u.deadline := by
  simp only [before, decide_eq_true_eq, Int64.lt_iff_toInt_lt, ← Int64.toInt_inj] at h
  rw [Int64.le_iff_toInt_le]
  omega

end Timer

section Order

variable {α β : Type} {timer : α → Timer} {a b : α} {l l' : List α} {horizon : Instant}

/-- The first of those that are due no later than any other. -/
def soonest? (timer : α → Timer) (l : List α) : Option α :=
  l.find? fun a => l.all fun b => (timer a).before (timer b)

/-- Those with a deadline not after `horizon`, by the decimal digits of the time to live. Those with
the same time to live stay in the order of the list. -/
def dueBy (timer : α → Timer) (horizon : Instant) (l : List α) : List α :=
  (l.filter fun a => (timer a).deadline ≤ horizon).mergeSort fun a b =>
    (timer a).ttlLe (timer b)

theorem soonest?_eq_some (h : soonest? timer l = some a) :
    a ∈ l ∧ ∀ b ∈ l, (timer a).before (timer b) = true := by
  have hall := List.find?_some h
  exact ⟨List.mem_of_find?_eq_some h, List.all_eq_true.mp hall⟩

/-- Unless the list is empty, something in it is due no later than anything else. -/
theorem soonest?_eq_none : soonest? timer l = none ↔ l = [] := by
  have hleast : ∀ l : List α, l ≠ [] → ∃ a ∈ l, ∀ b ∈ l, (timer a).before (timer b) = true := by
    intro l
    induction l with
    | nil => exact fun h => absurd rfl h
    | cons b rest ih =>
      intro _
      by_cases hrest : rest = []
      · exact ⟨b, by simp, by simpa [hrest] using Timer.before_refl _⟩
      obtain ⟨a, ha, hall⟩ := ih hrest
      rcases Timer.before_total (timer a) (timer b) with hab | hba
      · exact ⟨a, List.mem_cons_of_mem _ ha, List.forall_mem_cons.mpr ⟨hab, hall⟩⟩
      · exact ⟨b, by simp, List.forall_mem_cons.mpr
          ⟨Timer.before_refl _, fun c hc => Timer.before_trans hba (hall c hc)⟩⟩
  constructor
  · intro hnone
    by_contra hne
    obtain ⟨a, ha, hall⟩ := hleast l hne
    exact List.find?_eq_none.mp hnone a ha (List.all_eq_true.mpr hall)
  · rintro rfl
    rfl

/-- The soonest has the least deadline. -/
theorem deadline_soonest? :
    (soonest? timer l).map (fun a => (timer a).deadline) =
      (l.map fun a => (timer a).deadline).min? := by
  cases hsoonest : soonest? timer l with
  | none => rw [soonest?_eq_none.mp hsoonest]; rfl
  | some a =>
    obtain ⟨ha, hall⟩ := soonest?_eq_some hsoonest
    refine Eq.symm (List.min?_eq_some_iff.mpr ⟨List.mem_map.mpr ⟨a, ha, rfl⟩, fun t ht => ?_⟩)
    obtain ⟨b, hb, rfl⟩ := List.mem_map.mp ht
    exact Timer.deadline_le_of_before (hall b hb)

/-- What is due no later than anything, and has nothing like it before it in the list. -/
theorem eq_soonest? {before after : List α} (split : l = before ++ a :: after)
    (least : ∀ b ∈ l, (timer a).before (timer b) = true)
    (first : ∀ b ∈ before, (timer b).ttl ≠ (timer a).ttl) : soonest? timer l = some a := by
  subst split
  rw [soonest?, List.find?_append, List.find?_eq_none.mpr, Option.none_or, List.find?_cons_of_pos]
  · exact List.all_eq_true.mpr least
  · intro b hb hall
    have hba := List.all_eq_true.mp hall a (by simp)
    exact first b hb (Timer.before_antisymm hba (least b (by simp [hb]))).2

theorem soonest?_map {f : β → α} (l : List β) :
    soonest? timer (l.map f) = (soonest? (fun b => timer (f b)) l).map f := by
  simp only [soonest?, List.find?_map, List.all_map]
  rfl

theorem dueBy_map {f : β → α} (l : List β) :
    dueBy timer horizon (l.map f) = (dueBy (fun b => timer (f b)) horizon l).map f := by
  rw [dueBy, dueBy, List.filter_map]
  refine (List.map_mergeSort (f := f) fun _ _ _ _ => ?_).symm
  rfl

theorem dueBy_perm :
    (dueBy timer horizon l).Perm (l.filter fun a => (timer a).deadline ≤ horizon) :=
  List.mergeSort_perm _ _

/-- What is unique in the list is so in what is due of it. -/
theorem nodup_map_dueBy {f : α → β} (distinct : (l.map f).Nodup) :
    ((dueBy timer horizon l).map f).Nodup :=
  (dueBy_perm.map f).nodup_iff.mpr ((List.filter_sublist.map f).nodup distinct)

theorem mem_dueBy : a ∈ dueBy timer horizon l ↔ a ∈ l ∧ (timer a).deadline ≤ horizon := by
  simp [dueBy]

/-- Nothing is missing from a list that agrees with another on each time to live. -/
theorem mem_of_filter_ttl_eq (same : ∀ ttl, l.filter (fun a => (timer a).ttl = ttl) =
    l'.filter fun a => (timer a).ttl = ttl) (ha : a ∈ l) : a ∈ l' := by
  have hmem : a ∈ l.filter fun b => (timer b).ttl = (timer a).ttl := by simp [ha]
  rw [same] at hmem
  exact (List.mem_filter.mp hmem).1

/-- Lists that agree on each time to live have the same elements. -/
theorem perm_of_filter_ttl_eq [DecidableEq α] (same : ∀ ttl,
    l.filter (fun a => (timer a).ttl = ttl) = l'.filter fun a => (timer a).ttl = ttl) :
    l.Perm l' := by
  refine List.perm_iff_count.mpr fun a => ?_
  have hcount : ∀ l : List α,
      l.count a = (l.filter fun b => (timer b).ttl = (timer a).ttl).count a :=
    fun _ => (List.count_filter (by simp)).symm
  rw [hcount, same, ← hcount]

/-- Lists that are sorted by time to live are the same if they agree on each time to live. -/
theorem eq_of_filter_ttl_eq (sorted : l.Pairwise fun a b => (timer a).ttlLe (timer b))
    (sorted' : l'.Pairwise fun a b => (timer a).ttlLe (timer b))
    (same : ∀ ttl, l.filter (fun a => (timer a).ttl = ttl) =
      l'.filter fun a => (timer a).ttl = ttl) : l = l' := by
  induction l generalizing l' with
  | nil =>
    refine (List.eq_nil_iff_forall_not_mem.mpr fun b hb => ?_).symm
    cases mem_of_filter_ttl_eq (fun ttl => (same ttl).symm) hb
  | cons a rest ih =>
    have ha : a ∈ l' := mem_of_filter_ttl_eq same List.mem_cons_self
    cases l' with
    | nil => cases ha
    | cons b rest' =>
      have hb : b ∈ a :: rest :=
        mem_of_filter_ttl_eq (fun ttl => (same ttl).symm) List.mem_cons_self
      obtain ⟨hfirst, hrest⟩ := List.pairwise_cons.mp sorted
      obtain ⟨hfirst', hrest'⟩ := List.pairwise_cons.mp sorted'
      -- The heads come before each other, so they have the same time to live, and lead its part.
      have hle : (timer a).ttlLe (timer b) = true := by
        rcases List.mem_cons.mp hb with rfl | hb
        · exact Timer.ttlLe_of_ttl_eq rfl
        · exact hfirst b hb
      have hle' : (timer b).ttlLe (timer a) = true := by
        rcases List.mem_cons.mp ha with rfl | ha
        · exact Timer.ttlLe_of_ttl_eq rfl
        · exact hfirst' a ha
      have httl : (timer a).ttl = (timer b).ttl := Timer.ttlLe_antisymm hle hle'
      obtain rfl : a = b := by
        have hheads := same (timer b).ttl
        simp only [List.filter_cons, httl, decide_true, if_true] at hheads
        exact (List.cons.inj hheads).1
      rw [ih hrest hrest' fun ttl => ?_]
      have htails := same ttl
      simp only [List.filter_cons] at htails
      split at htails
      · exact (List.cons.inj htails).2
      · exact htails

theorem ttlLe_trans_on (timer : α → Timer) (a b c : α) (hab : (timer a).ttlLe (timer b) = true)
    (hbc : (timer b).ttlLe (timer c) = true) : (timer a).ttlLe (timer c) = true :=
  Timer.ttlLe_trans hab hbc

theorem ttlLe_total_on (timer : α → Timer) (a b : α) :
    ((timer a).ttlLe (timer b) || (timer b).ttlLe (timer a)) = true :=
  Bool.or_eq_true_iff.mpr (Timer.ttlLe_total _ _)

theorem dueBy_sorted (timer : α → Timer) (horizon : Instant) (l : List α) :
    (dueBy timer horizon l).Pairwise fun a b => (timer a).ttlLe (timer b) :=
  List.pairwise_mergeSort (ttlLe_trans_on timer) (ttlLe_total_on timer) _

/-- What has the same time to live comes out in the order of the list. -/
theorem filter_dueBy (timer : α → Timer) (horizon : Instant) (l : List α) (ttl : UInt64) :
    (dueBy timer horizon l).filter (fun a => (timer a).ttl = ttl) =
      (l.filter fun a => (timer a).deadline ≤ horizon).filter fun a => (timer a).ttl = ttl := by
  -- That part is sorted already, so it is found in the sorted list as it is, and nothing else is.
  have hpart : List.Pairwise (fun a b => (timer a).ttlLe (timer b) = true)
      ((l.filter fun a => (timer a).deadline ≤ horizon).filter fun a => (timer a).ttl = ttl) := by
    refine List.pairwise_of_forall_mem_list fun a ha b hb => Timer.ttlLe_of_ttl_eq ?_
    rw [of_decide_eq_true (List.mem_filter.mp ha).2, of_decide_eq_true (List.mem_filter.mp hb).2]
  have hsub := (List.sublist_mergeSort (ttlLe_trans_on timer) (ttlLe_total_on timer) hpart
    List.filter_sublist).filter fun a => (timer a).ttl = ttl
  rw [List.filter_filter] at hsub
  simp only [Bool.and_self] at hsub
  exact (hsub.eq_of_length (dueBy_perm.filter _).length_eq.symm).symm

/-- A list sorted by time to live is `dueBy` if it has what is due of each time to live, in
order. -/
theorem eq_dueBy (sorted : l.Pairwise fun a b => (timer a).ttlLe (timer b))
    (same : ∀ ttl, l.filter (fun a => (timer a).ttl = ttl) =
      (l'.filter fun a => (timer a).deadline ≤ horizon).filter fun a => (timer a).ttl = ttl) :
    l = dueBy timer horizon l' :=
  eq_of_filter_ttl_eq sorted (dueBy_sorted timer horizon l') fun ttl =>
    (same ttl).trans (filter_dueBy timer horizon l' ttl).symm

/-- What is due comes out in the order of the list if that is the order of the times to live. -/
theorem dueBy_eq_filter
    (sorted : (l.filter fun a => (timer a).deadline ≤ horizon).Pairwise fun a b =>
      (timer a).ttlLe (timer b)) :
    dueBy timer horizon l = l.filter fun a => (timer a).deadline ≤ horizon :=
  (eq_dueBy sorted fun _ => rfl).symm

end Order

/-- The running timers in the order in which they were started, and the latest instant acted at. -/
structure Agenda where
  timers : List Timer := []
  /-- How many milliseconds before its deadline a timer counts as due. -/
  tolerance : UInt64
  latest : Instant := Instant.first

namespace Agenda

/-- The agenda without timers. -/
def empty (tolerance : UInt64) : Agenda := { tolerance }

/-- The instant that a clock reading stands for. -/
def now (a : Agenda) (reading : Instant) : Instant := max reading a.latest

/-- The agenda without the timer for `id`. -/
def without (a : Agenda) (id : Bytes) : Agenda :=
  { a with timers := a.timers.filter (·.id ≠ id) }

/-- The agenda without the timer for `id`, and with a new one at its end. -/
def start (a : Agenda) (reading : Instant) (id : Bytes) (ttl : UInt64) : Agenda :=
  let timer := { id, ttl, deadline := (a.now reading).after ttl }
  { a with timers := (a.without id).timers ++ [timer], latest := a.now reading }

/-- The least deadline. -/
def nextDeadline? (a : Agenda) : Option Instant := (a.timers.map (·.deadline)).min?

/-- The exact difference to the least deadline, zero if that has passed. -/
def timeLeft? (a : Agenda) (reading : Instant) : Option UInt64 :=
  a.nextDeadline?.map fun t => UInt64.ofNat (t.toInt - (a.now reading).toInt).toNat

/-- The soonest timer, and the agenda without it. -/
def popSoonest (a : Agenda) : Option Timer × Agenda :=
  match soonest? (fun t => t) a.timers with
  | some timer => (some timer, a.without timer.id)
  | none => (none, a)

/-- The timers that are due, and the agenda without them. -/
def harvest (a : Agenda) (reading : Instant) : List Timer × Agenda :=
  let horizon := (a.now reading).after a.tolerance
  (dueBy (fun t => t) horizon a.timers,
    { a with timers := a.timers.filter (horizon < ·.deadline), latest := a.now reading })

/-- Carry out one operation while the clock shows `reading`. -/
def perform (a : Agenda) (reading : Instant) : Operation → Answer × Agenda
  | .set id ttl => (.done, a.start reading id ttl)
  | .cancel id => (.done, a.without id)
  | .clear => (.done, { a with timers := [] })
  | .deadline id => (.instant ((a.timers.find? (·.id = id)).map (·.deadline)), a)
  | .contains id => (.flag (a.timers.any (·.id = id)), a)
  | .size => (.count a.timers.length, a)
  | .isEmpty => (.flag a.timers.isEmpty, a)
  | .laneCount => (.count (a.timers.map (·.ttl)).dedup.length, a)
  | .nextDeadline => (.instant a.nextDeadline?, a)
  | .timeLeft => (.wait (a.timeLeft? reading), a)
  | .popSoonest => (.popped (a.popSoonest.1.map (·.id)), a.popSoonest.2)
  | .harvest => (.harvested ((a.harvest reading).1.map (·.id)), (a.harvest reading).2)

/-- One operation after the other, each with what the clock shows then. -/
def run (a : Agenda) : List (Instant × Operation) → List Answer × Agenda
  | [] => ([], a)
  | (reading, op) :: steps =>
    let (answer, a) := a.perform reading op
    let (answers, a) := a.run steps
    (answer :: answers, a)

end Agenda

end Expiry
