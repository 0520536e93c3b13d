import Expiry.Proofs.Refinement

/-!
# Operations return

A store looks after itself. Whatever was done to it and whatever the clock shows, the next operation
finds every promise kept that it relies on: slots that it reads are occupied, a timer's lane is
there, counts do not fall below zero, and the parts agree.

A drain goes on turn after turn, with a bound on their number. The bound is never what ends it. A
turn takes one off the length of the lane, and a lane of length zero has nothing to take off; so a
lane cannot have more turns than its length, and a drain is the plain loop that looks at the head
until there is none that is due. That is so for every lane and every pool, also for broken ones.

## Main results

* `Lane.drain_eq` — a drain is a loop without a bound
* `Store.Reachable.perform_returns` — every operation on a reachable store returns
-/

namespace Expiry

namespace Lane

variable {lane lane' : Lane} {p q : Pool} {slot : Slot} {prev next : Option Slot}
variable {horizon : Instant} {turns turns' : Nat}

/-! ### How long a drain goes on -/

theorem length_of_closeBefore (h : lane.closeBefore p slot prev next = .ok (lane', q)) :
    lane'.length = lane.length := by
  cases prev with
  | some prev =>
    obtain ⟨pool, -, hpool⟩ := Fault.bind_eq_ok_iff.mp h
    cases hpool
    rfl
  | none =>
    rw [closeBefore] at h
    split at h <;> cases h
    rfl

theorem length_of_closeAfter (h : lane.closeAfter p slot prev next = .ok (lane', q)) :
    lane'.length = lane.length := by
  cases next with
  | some next =>
    obtain ⟨pool, -, hpool⟩ := Fault.bind_eq_ok_iff.mp h
    cases hpool
    rfl
  | none =>
    rw [closeAfter] at h
    split at h <;> cases h
    rfl

/-- What detaching takes off the length, in any lane and any pool. -/
theorem length_of_detach (h : lane.detach p slot = .ok (lane', q)) :
    lane'.length + 1 = lane.length := by
  obtain ⟨node, -, h⟩ := Fault.bind_eq_ok_iff.mp h
  obtain ⟨p₁, -, h⟩ := Fault.bind_eq_ok_iff.mp h
  obtain ⟨⟨lane₂, p₂⟩, hbefore, h⟩ := Fault.bind_eq_ok_iff.mp h
  obtain ⟨⟨lane₃, p₃⟩, hafter, h⟩ := Fault.bind_eq_ok_iff.mp h
  rw [← length_of_closeBefore hbefore, ← length_of_closeAfter hafter]
  cases hlength : lane₃.length with
  | zero => simp [hlength] at h
  | succ length =>
    simp only [hlength, Fault.pure_eq_ok, Except.ok.injEq, Prod.mk.injEq] at h
    rw [← h.1]

/-- One turn of a drain: the head, if it is due, is unlinked and its slot is freed, and then comes
`rest`. -/
def turn (horizon : Instant) (lane : Lane) (pool : Pool)
    (rest : Lane → Pool → Except Fault (List Timer × Lane × Pool)) :
    Except Fault (List Timer × Lane × Pool) :=
  match lane.head with
  | none => .ok ([], lane, pool)
  | some head => do
    if horizon < (← pool.read head).deadline then
      return ([], lane, pool)
    let (lane, pool) ← lane.detach pool head
    let (node, pool) ← pool.remove head
    let (timers, lane, pool) ← rest lane pool
    return (node.toTimer :: timers, lane, pool)

theorem drainFor_succ (turns : Nat) (horizon : Instant) (lane : Lane) (pool : Pool) :
    drainFor (turns + 1) horizon lane pool = lane.turn horizon pool (drainFor turns horizon) := by
  rw [drainFor.eq_def, turn]
  cases hhead : lane.head with
  | none => rfl
  | some head => rfl

/-- What comes after a turn matters only for lanes that are one shorter. -/
theorem turn_congr {rest rest' : Lane → Pool → Except Fault (List Timer × Lane × Pool)}
    (same : ∀ lane' pool', lane'.length + 1 = lane.length → rest lane' pool' = rest' lane' pool') :
    lane.turn horizon p rest = lane.turn horizon p rest' := by
  cases hhead : lane.head with
  | none => simp only [turn, hhead]
  | some head =>
    cases hread : p.read head with
    | error fault => simp [turn, hhead, hread]
    | ok node =>
      cases hdetach : lane.detach p head with
      | error fault => simp [turn, hhead, hread, hdetach]
      | ok unlinked =>
        have hrest := same unlinked.1
        cases hremove : unlinked.2.remove head with
        | error fault => simp [turn, hhead, hread, hdetach, hremove]
        | ok removed =>
          simp [turn, hhead, hread, hdetach, hremove, hrest _ (length_of_detach hdetach)]

/-- With more turns than a lane is long nothing changes if there are still more. -/
theorem drainFor_eq (enough : lane.length < turns) (enough' : lane.length < turns') :
    drainFor turns horizon lane p = drainFor turns' horizon lane p := by
  induction turns generalizing turns' lane p with
  | zero => exact absurd enough (Nat.not_lt_zero _)
  | succ turns ih =>
    obtain ⟨turns', rfl⟩ : ∃ n, turns' = n + 1 := Nat.exists_eq_add_of_le' (by omega)
    rw [drainFor_succ, drainFor_succ]
    -- A turn leaves a shorter lane, and for that the turns that are left are enough again.
    exact turn_congr fun lane' q hlength => ih (by omega) (by omega)

/-- A drain looks at the head, and goes on until there is none that is due. -/
theorem drain_eq (horizon : Instant) (lane : Lane) (p : Pool) :
    lane.drain horizon p = lane.turn horizon p (drain horizon) := by
  rw [drain, drainFor_succ]
  exact turn_congr fun lane' q hlength => drainFor_eq (by omega) (by omega)

end Lane

/-! ### Every operation returns -/

namespace Store

variable {s s' : Store} {answers : List Answer} {steps : List (Instant × Operation)}

/-- A run goes on where it stopped. -/
theorem run_append (steps more : List (Instant × Operation)) (h : s.run steps = .ok (answers, s')) :
    s.run (steps ++ more) = do
      let (answers', s'') ← s'.run more
      return (answers ++ answers', s'') := by
  induction steps generalizing s answers with
  | nil =>
    cases h
    rw [List.nil_append]
    cases s'.run more <;> rfl
  | cons step steps ih =>
    obtain ⟨reading, op⟩ := step
    obtain ⟨⟨answer, s₁, notes⟩, hperform, h⟩ := Fault.bind_eq_ok_iff.mp h
    obtain ⟨⟨answers₁, s₂⟩, hrun, h⟩ := Fault.bind_eq_ok_iff.mp h
    cases h
    simp only [List.cons_append, run, hperform, Fault.ok_bind, ih hrun]
    cases s'.run more <;> rfl

namespace Reachable

theorem empty (tolerance : UInt64) : (Store.empty tolerance).Reachable := ⟨tolerance, [], [], rfl⟩

/-- What an operation leaves of a reachable store is reachable. -/
theorem perform (h : s.Reachable) {reading : Instant} {op : Operation} {answer : Answer}
    {notes : List Note} (hperform : s.perform reading op = .ok (answer, s', notes)) :
    s'.Reachable := by
  obtain ⟨tolerance, steps, answers, hrun⟩ := h
  have hlast : s.run [(reading, op)] = .ok ([answer], s') := by
    simp only [run, hperform, Fault.ok_bind, Fault.pure_eq_ok]
  exact ⟨tolerance, steps ++ [(reading, op)], answers ++ [answer], by
    rw [run_append _ _ hrun, hlast]
    rfl⟩

/-- Every operation on a reachable store returns, whatever the clock shows, and leaves a reachable
store: it finds no promise broken. Two things can go wrong that no fault speaks of, and do not. A
new node goes into a slot that is there, so that it can be read back. And the bound on the turns of
a drain is never reached. -/
theorem perform_returns (h : s.Reachable) (reading : Instant) (op : Operation) :
    (∃ answer s' notes, s.perform reading op = .ok (answer, s', notes) ∧ s'.Reachable) ∧
    (∀ node, (s.pool.insert node).2.read (s.pool.insert node).1 = .ok node) ∧
    ∀ (lane : Lane) (pool : Pool) (horizon : Instant) (turns : Nat), lane.length < turns →
      Lane.drainFor turns horizon lane pool = lane.drain horizon pool := by
  obtain ⟨a, hfollows⟩ := h.exists_follows
  refine ⟨?_, fun node => ?_, fun lane pool horizon turns enough => ?_⟩
  · obtain ⟨s', notes, hperform, -⟩ := hfollows.perform reading op
    exact ⟨_, s', notes, hperform, h.perform hperform⟩
  · obtain ⟨ledger, hkeeps, -⟩ := hfollows
    exact Pool.read_eq_ok_iff.mpr ((Pool.get?_insert hkeeps.filed.sound).trans (if_pos rfl))
  · exact Lane.drainFor_eq enough (Nat.lt_succ_self _)

/-- A timer is restarted while the clock goes back, so that there are two nodes for a moment, and
another one is popped and started again in the slot that this frees. The harvest that follows finds
one of them due. -/
theorem perform_returns_harvest : ∃ (s s' : Store) (answer : Answer) (notes : List Note),
    s.Reachable ∧ s.size = 2 ∧ s.perform 24 .harvest = .ok (answer, s', notes) ∧
      answer = .harvested [[2]] ∧ s'.Reachable := by
  obtain ⟨s, hrun, hfollows⟩ := (Follows.empty 1).run
    [(10, .set [1] 7), (3, .set [2] 5), (20, .set [1] 7), (Instant.first, .popSoonest),
      (0, .set [2] 5)]
  have hreachable : s.Reachable := ⟨1, _, _, hrun⟩
  obtain ⟨answer, s', notes, hperform, hs'⟩ := (perform_returns hreachable 24 .harvest).1
  -- The theorem leaves open what is answered; the agenda says it.
  obtain ⟨s₁, notes₁, hperform₁, -⟩ := hfollows.perform 24 .harvest
  have hanswer : answer = .harvested [[2]] := by
    rw [hperform, Except.ok.injEq, Prod.mk.injEq] at hperform₁
    rw [hperform₁.1]
    decide +kernel
  exact ⟨s, s', answer, notes, hreachable, hfollows.size_eq.trans (by decide +kernel), hperform,
    hanswer, hs'⟩

end Reachable

end Store

end Expiry
