import Expiry.Proofs.Refinement

/-!
# How a store keeps time

The clock is outside of a store, and may be set back. A store remembers the latest instant at which
it has started a timer or harvested, and takes an earlier reading for that instant. So nothing acts
before what has changed the store.

Asking for the time left is no change. It looks ahead from an instant as well, but leaves nothing
behind, and if the clock is set back in the meantime, the next operation acts at an earlier instant.
Then more time is left than there was.

## Main definitions

* `Operation.isTimed` — whether an operation acts at an instant

## Main results

* `Agenda.latest_perform`, `Agenda.latest_le_run` — the latest instant, and that it never goes back
* `Store.Follows.timeLeft?_le` — less time is left at a later instant
* `Store.instant_le_instant_iff` — when an operation acts no earlier than one before it
* `Store.instant_goes_back` — that this is not always so
-/

namespace Expiry

/-- Whether an operation acts at an instant, and is not the same at all times. -/
def Operation.isTimed : Operation → Bool
  | .set .. | .timeLeft | .harvest => true
  | _ => false

namespace Agenda

variable {a : Agenda} {reading : Instant} {op : Operation}

/-- What changes the agenda at an instant leaves that behind. -/
theorem latest_perform (timed : op.isTimed = true) (a : Agenda) (reading : Instant) :
    (a.perform reading op).2.latest = if op = .timeLeft then a.latest else a.now reading := by
  cases op <;> first | rfl | cases timed

theorem latest_le_perform (a : Agenda) (reading : Instant) (op : Operation) :
    a.latest ≤ (a.perform reading op).2.latest := by
  cases op with
  | set id ttl => exact Instant.le_max_right _ _
  | harvest => exact Instant.le_max_right _ _
  | popSoonest =>
    simp only [perform, popSoonest]
    split <;> exact Int64.le_refl _
  | _ => exact Int64.le_refl _

theorem latest_le_run (a : Agenda) (steps : List (Instant × Operation)) :
    a.latest ≤ (a.run steps).2.latest := by
  induction steps generalizing a with
  | nil => exact Int64.le_refl _
  | cons step steps ih => exact Int64.le_trans (a.latest_le_perform step.1 step.2) (ih _)

end Agenda

namespace Store

variable {s s' : Store} {a a' : Agenda} {reading reading' : Instant}

theorem Follows.instant_eq (h : s.Follows a) (reading : Instant) :
    s.instant reading = a.now reading := by
  obtain ⟨ledger, -, -, -, hlatest⟩ := h
  rw [Agenda.now, hlatest]
  rfl

/-- If the next timer is the same, no more time is left at a later instant. -/
theorem Follows.timeLeft?_le (h : s.Follows a) (h' : s'.Follows a')
    (same : s'.nextDeadline? = s.nextDeadline?)
    (later : s.instant reading ≤ s'.instant reading') :
    ∃ left left', s.timeLeft? reading = .ok left ∧ s'.timeLeft? reading' = .ok left' ∧
      left'.isSome = left.isSome ∧ ∀ ms ∈ left, ∀ ms' ∈ left', ms' ≤ ms := by
  have hnext := h.nextDeadline?_eq
  have hnext' := h'.nextDeadline?_eq
  rw [same, hnext] at hnext'
  have hnext' : a'.nextDeadline? = a.nextDeadline? := (Except.ok.inj hnext').symm
  refine ⟨a.nextDeadline?.map (s.instant reading).remaining,
    a.nextDeadline?.map (s'.instant reading').remaining, ?_, ?_, ?_, ?_⟩
  · simp [timeLeft?, hnext]
  · simp [timeLeft?, h'.nextDeadline?_eq, hnext']
  · simp
  · cases a.nextDeadline? with
    | none => simp
    | some deadline => simpa using Instant.remaining_le_remaining later deadline

/-- An operation acts no earlier than one before it, if that was not a question for the time left,
or if the clock showed no later instant at that question. Then, if the next timer is the same, no
more time is left than there was. -/
theorem instant_le_instant_iff (tolerance : UInt64) (before between : List (Instant × Operation))
    (reading reading' : Instant) (op : Operation) :
    ∃ answers s answer s₁ notes answers' s',
      (Store.empty tolerance).run before = .ok (answers, s) ∧
      s.perform reading op = .ok (answer, s₁, notes) ∧ s₁.run between = .ok (answers', s') ∧
      (op.isTimed = true → (s.instant reading ≤ s'.instant reading' ↔
        op ≠ .timeLeft ∨ reading ≤ s'.instant reading')) ∧
      (s.instant reading ≤ s'.instant reading' → s'.nextDeadline? = s.nextDeadline? →
        ∃ left left', s.timeLeft? reading = .ok left ∧ s'.timeLeft? reading' = .ok left' ∧
          left'.isSome = left.isSome ∧ ∀ ms ∈ left, ∀ ms' ∈ left', ms' ≤ ms) := by
  obtain ⟨s, hbefore, hs⟩ := (Follows.empty tolerance).run before
  obtain ⟨s₁, notes, hperform, hs₁⟩ := hs.perform reading op
  obtain ⟨s', hbetween, hs'⟩ := hs₁.run between
  refine ⟨_, s, _, s₁, notes, _, s', hbefore, hperform, hbetween, fun timed => ?_,
    fun later same => hs.timeLeft?_le hs' same later⟩
  let a := ((Agenda.empty tolerance).run before).2
  let a' := ((a.perform reading op).2.run between).2
  have hbetween : (a.perform reading op).2.latest ≤ a'.latest := Agenda.latest_le_run _ _
  have hlatest : a'.latest ≤ a'.now reading' := Instant.le_max_right _ _
  rw [hs.instant_eq, hs'.instant_eq]
  constructor
  · intro hle
    exact .inr (Int64.le_trans (Instant.le_max_left _ _) hle)
  · rintro (hchanges | hle)
    · rw [Agenda.latest_perform timed, if_neg hchanges] at hbetween
      exact Int64.le_trans hbetween hlatest
    · have hperform := Agenda.latest_le_perform a reading op
      exact Instant.max_le_iff.mpr
        ⟨hle, Int64.le_trans hperform (Int64.le_trans hbetween hlatest)⟩

/-- The time left is asked for at 500, and then, after the clock was set back, at 100. The second
question acts at an earlier instant than the first, and is answered by a longer time. -/
theorem instant_goes_back :
    let steps : List (Instant × Operation) :=
      [(0, .set (Bytes.ofString "a") 1000), (500, .timeLeft), (100, .timeLeft)]
    ((Store.empty 1).run steps).map (·.1) =
        .ok [.done, .wait (some 500), .wait (some 900)] ∧
      ¬∀ (before between : List (Instant × Operation)) (reading reading' : Instant)
        (op op' : Operation) (answers : List Answer) (s : Store) (answer : Answer) (s₁ : Store)
        (notes : List Note) (answers' : List Answer) (s' : Store),
          op.isTimed = true → op'.isTimed = true →
          (Store.empty 1).run before = .ok (answers, s) →
          s.perform reading op = .ok (answer, s₁, notes) → s₁.run between = .ok (answers', s') →
          s.instant reading ≤ s'.instant reading' := by
  refine ⟨by decide +kernel, fun forward => ?_⟩
  have hle := forward [] [] 500 100 .timeLeft .timeLeft _ _ _ _ _ _ _ rfl rfl rfl rfl rfl
  revert hle
  decide

end Store

end Expiry
