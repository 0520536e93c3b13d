import Mathlib.Algebra.GroupWithZero.Nat
import Mathlib.Logic.Relation
import Expiry.Time.Clocks

/-!
# What clocks set by hand show

A family starts without clocks. Clocks are added to it, copied, set and advanced, any of them and in
any order. A clock and its copies, and the copies of those, are akin. What is done to one of them is
done to all of them, and to no other clock.

What a clock shows can be told from what was done. Some act was the last to put a clock akin to it
at an instant of the act's own: it has set that clock, or it has added it, as the first of its kin.
Since then the clocks akin to it have been advanced by so many milliseconds altogether. That instant
and those milliseconds make an exact sum, which need not be an instant. The clock has wrapped around
with each advance that took it out of range, and yet it shows what one wrap makes of the sum. So it
does not matter in which order it was advanced.

## Main definitions

* `Clocks.Act`, `Clocks.perform`, `Clocks.run` — what can be done to a family of clocks
* `Clocks.Named` — every act names a clock that has been made before
* `Clocks.Akin` — clocks that come from one another by copying
* `Clocks.CountsFrom` — when a clock was last put at an instant, and what has been done since
* `Clocks.advances` — the durations by which certain clocks are advanced
* `Clocks.Reordered` — the same acts, but for the order of the advances

## Main results

* `Clocks.akin_iff` — clocks are akin if and only if they show the same dial
* `Clocks.reading?_run` — a run takes a clock from one wrapped integer to another
* `Clocks.run_wraps_once` — what a clock shows is one wrap of the exact sum
-/

namespace Expiry.Clocks

/-- What can be done to a family of clocks. -/
inductive Act where
  | add (start : Instant)
  | copy (i : Nat)
  | set (i : Nat) (t : Instant)
  | advance (i : Nat) (d : Duration)
  deriving DecidableEq

/-- How a clock was made. -/
inductive Origin where
  | new (start : Instant)
  | copyOf (i : Nat)
  deriving DecidableEq

namespace Act

/-- The clock that an act names. -/
def clock? : Act → Option Nat
  | add _ => none
  | copy i | set i _ | advance i _ => some i

/-- The clock that an act moves. -/
def moved? : Act → Option Nat
  | add _ | copy _ => none
  | set i _ | advance i _ => some i

/-- How the clock is made that an act makes. -/
def origin? : Act → Option Origin
  | add start => some (.new start)
  | copy i => some (.copyOf i)
  | set _ _ | advance _ _ => none

/-- The clock that an act puts at an instant of its own, and that instant; a clock that it makes is
the one with the ordinal `next`. -/
def put? (next : Nat) : Act → Option (Nat × Instant)
  | add start => some (next, start)
  | set i t => some (i, t)
  | copy _ | advance _ _ => none

theorem origin?_eq_new_iff {act : Act} {start : Instant} :
    act.origin? = some (.new start) ↔ act = add start := by
  cases act <;> simp [origin?]

theorem origin?_eq_copyOf_iff {act : Act} {i : Nat} :
    act.origin? = some (.copyOf i) ↔ act = copy i := by
  cases act <;> simp [origin?]

theorem clock?_of_moved? {act : Act} {i : Nat} (h : act.moved? = some i) :
    act.clock? = some i := by
  cases act <;> simp_all [moved?, clock?]

def isAdvance : Act → Bool
  | advance _ _ => true
  | add _ | copy _ | set _ _ => false

/-- Where an act takes the integer `x` that clocks have counted to without ever wrapping around, if
`counts` says which clocks these are. -/
def exactly (counts : Nat → Prop) [DecidablePred counts] (x : Int) : Act → Int
  | add _ | copy _ => x
  | set i t => if counts i then t.toInt else x
  | advance i d => if counts i then x + d.toMillis else x

end Act

variable {c : Clocks} {act : Act} {acts acts' before since : List Act} {i j k n : Nat}
variable {t start : Instant} {x : Int} {counts : Nat → Prop}

/-- Do one thing to the family. -/
def perform (c : Clocks) : Act → Clocks
  | .add start => c.add start
  | .copy i => c.copy i
  | .set i t => c.set i t
  | .advance i d => c.advance i d

/-- Do one thing after the other. -/
def run (c : Clocks) (acts : List Act) : Clocks := acts.foldl perform c

/-- No clocks. -/
def empty : Clocks := ⟨#[], #[]⟩

/-- A family of one clock is made by adding one. -/
theorem empty_add (start : Instant) : empty.add start = single start := rfl

/-- How the clocks were made, in the order in which they were. -/
def origins (acts : List Act) : List Origin := acts.filterMap Act.origin?

/-- How many clocks were made. -/
def made (acts : List Act) : Nat := (origins acts).length

/-- With `n` clocks at first, every act names a clock that is there by then. Nothing can be done to
one that is not. -/
def Named : Nat → List Act → Prop
  | _, [] => True
  | n, act :: acts => (∀ i ∈ act.clock?, i < n) ∧ Named (n + made [act]) acts

/-- Two clocks are the same, or one comes from the other by copying, or both from a third. -/
def Akin (acts : List Act) : Nat → Nat → Prop :=
  Relation.EqvGen fun i j => (origins acts)[j]? = some (.copyOf i)

/-- Some act put a clock akin to `i` at `t`, and in what was done `since` then no such clock was
set. -/
def CountsFrom (acts : List Act) (i : Nat) (t : Instant) (since : List Act) : Prop :=
  ∃ before act k, acts = before ++ act :: since ∧ act.put? (made before) = some (k, t) ∧
    Akin acts i k ∧ ∀ j u, .set j u ∈ since → ¬ Akin acts i j

/-- The durations by which the clocks that count are advanced, in order. -/
def advances (counts : Nat → Prop) [DecidablePred counts] (acts : List Act) : List Duration :=
  acts.filterMap fun
    | .advance i d => if counts i then some d else none
    | .add _ | .copy _ | .set _ _ => none

/-- The same acts, of which only the advances are in another order, among each other and among the
rest. -/
structure Reordered (acts acts' : List Act) : Prop where
  perm : acts.Perm acts'
  others : acts.filter (!·.isAdvance) = acts'.filter (!·.isAdvance)

/-! ### Acts and the clocks that they name -/

theorem origins_append (acts acts' : List Act) :
    origins (acts ++ acts') = origins acts ++ origins acts' :=
  List.filterMap_append

theorem made_append (acts acts' : List Act) : made (acts ++ acts') = made acts + made acts' := by
  rw [made, origins_append, List.length_append, made, made]

theorem made_cons (act : Act) (acts : List Act) : made (act :: acts) = made [act] + made acts :=
  made_append [act] acts

theorem run_append (c : Clocks) (acts acts' : List Act) :
    c.run (acts ++ acts') = (c.run acts).run acts' :=
  List.foldl_append

theorem named_append : Named n (acts ++ acts') ↔ Named n acts ∧ Named (n + made acts) acts' := by
  induction acts generalizing n with
  | nil => exact (true_and _).symm ▸ Iff.rfl
  | cons act acts ih =>
    have hmade : n + made [act] + made acts = n + made (act :: acts) := by
      rw [Nat.add_assoc, ← made_append, List.singleton_append]
    rw [List.cons_append, Named, Named, ih, hmade, and_assoc]

instance Named.decidable : ∀ n acts, Decidable (Named n acts)
  | _, [] => isTrue trivial
  | n, act :: acts =>
    have := Named.decidable (n + made [act]) acts
    inferInstanceAs (Decidable ((∀ i ∈ act.clock?, i < n) ∧ Named (n + made [act]) acts))

/-- No act names a clock beyond those that are there at last. -/
theorem lt_made_of_mem (named : Named n acts) (hact : act ∈ acts) (hj : act.clock? = some j) :
    j < n + made acts := by
  obtain ⟨before, since, rfl⟩ := List.append_of_mem hact
  have hlt : j < n + made before := (named_append.mp named).2.1 j hj
  rw [made_append]
  omega

/-- A clock was made by an act, when there were as many clocks as its ordinal says. -/
theorem exists_act_of_origin {origin : Origin} (h : (origins acts)[k]? = some origin) :
    ∃ before act since, acts = before ++ act :: since ∧ act.origin? = some origin ∧
      made before = k := by
  obtain ⟨hk, hget⟩ := List.getElem?_eq_some_iff.mp h
  have hsplit : origins acts = (origins acts).take k ++ origin :: (origins acts).drop (k + 1) := by
    rw [← hget, ← List.drop_eq_getElem_cons hk, List.take_append_drop]
  obtain ⟨first, rest, rfl, hfirst, hrest⟩ := List.filterMap_eq_append_iff.mp hsplit
  -- The act that made the clock is the first of `rest` that made any.
  obtain ⟨idle, act, since, rfl, hidle, hact, -⟩ := List.filterMap_eq_cons_iff.mp hrest
  refine ⟨first ++ idle, act, since, (List.append_assoc ..).symm, hact, ?_⟩
  have hnone : origins idle = [] := List.filterMap_eq_nil_iff.mpr hidle
  rw [made_append, made, origins, hfirst, made, hnone, List.length_take]
  exact Nat.min_eq_left (Nat.le_of_lt hk)

theorem exists_add_of_new (h : (origins acts)[k]? = some (.new start)) :
    ∃ before since, acts = before ++ .add start :: since ∧ made before = k := by
  obtain ⟨before, act, since, hsplit, horigin, hk⟩ := exists_act_of_origin h
  obtain rfl := Act.origin?_eq_new_iff.mp horigin
  exact ⟨before, since, hsplit, hk⟩

theorem exists_copy_of_copyOf (h : (origins acts)[k]? = some (.copyOf i)) :
    ∃ before since, acts = before ++ .copy i :: since ∧ made before = k := by
  obtain ⟨before, act, since, hsplit, horigin, hk⟩ := exists_act_of_origin h
  obtain rfl := Act.origin?_eq_copyOf_iff.mp horigin
  exact ⟨before, since, hsplit, hk⟩

/-! ### Which clocks show the same dial -/

/-- Every clock shows a dial that is there. -/
def Sound (c : Clocks) : Prop := ∀ (i dial : Nat), c.faces[i]? = some dial → dial < c.dials.size

@[simp]
theorem faces_adjust (move : Instant → Instant) : (c.adjust i move).faces = c.faces := by
  unfold adjust
  split <;> rfl

@[simp]
theorem size_dials_adjust (move : Instant → Instant) :
    (c.adjust i move).dials.size = c.dials.size := by
  unfold adjust
  split
  · exact Array.size_modify
  · rfl

theorem faces_copy (named : i < c.faces.size) : (c.copy i).faces = c.faces.push c.faces[i] := by
  rw [copy, Array.getElem?_eq_getElem named]

@[simp]
theorem dials_copy : (c.copy i).dials = c.dials := by
  unfold copy
  split <;> rfl

/-- A clock shows the same dial for ever. -/
theorem getElem?_faces_perform (act : Act) (hj : j < c.faces.size) :
    (c.perform act).faces[j]? = c.faces[j]? := by
  cases act with
  | add start => exact Array.getElem?_push.trans (if_neg (Nat.ne_of_lt hj))
  | copy i =>
    rw [perform, copy]
    split
    · exact Array.getElem?_push.trans (if_neg (Nat.ne_of_lt hj))
    · rfl
  | set i t => exact congrArg (·[j]?) (faces_adjust _)
  | advance i d => exact congrArg (·[j]?) (faces_adjust _)

theorem size_faces_perform (named : ∀ i ∈ act.clock?, i < c.faces.size) :
    (c.perform act).faces.size = c.faces.size + made [act] := by
  cases act with
  | add start => exact Array.size_push ..
  | copy i =>
    rw [perform, faces_copy (named i rfl)]
    exact Array.size_push ..
  | set i t => exact congrArg Array.size (faces_adjust _)
  | advance i d => exact congrArg Array.size (faces_adjust _)

theorem Sound.add (h : c.Sound) (start : Instant) : (c.add start).Sound := by
  intro j dial hj
  rw [Clocks.add, Array.getElem?_push] at hj
  rw [Clocks.add, Array.size_push]
  split at hj
  · exact Option.some.inj hj ▸ Nat.lt_succ_self _
  · exact Nat.lt_succ_of_lt (h j dial hj)

theorem Sound.copy (h : c.Sound) (i : Nat) : (c.copy i).Sound := by
  intro j dial hj
  rw [dials_copy]
  rw [Clocks.copy] at hj
  split at hj
  · next shown hi =>
    rw [Array.getElem?_push] at hj
    split at hj
    · exact Option.some.inj hj ▸ h i shown hi
    · exact h j dial hj
  · exact h j dial hj

theorem Sound.adjust (h : c.Sound) (i : Nat) (move : Instant → Instant) :
    (c.adjust i move).Sound := by
  intro j dial hj
  rw [faces_adjust] at hj
  exact (size_dials_adjust move).symm ▸ h j dial hj

theorem Sound.perform (h : c.Sound) (act : Act) : (c.perform act).Sound := by
  cases act with
  | add start => exact h.add start
  | copy i => exact h.copy i
  | set i t => exact h.adjust i _
  | advance i d => exact h.adjust i _

theorem getElem?_faces_run (named : Named c.faces.size acts) (hj : j < c.faces.size) :
    (c.run acts).faces[j]? = c.faces[j]? := by
  induction acts generalizing c with
  | nil => rfl
  | cons act acts ih =>
    have hsize := size_faces_perform named.1
    rw [run, List.foldl_cons, ← run, ih (hsize ▸ named.2) (by omega),
      getElem?_faces_perform act hj]

theorem size_faces_run (named : Named c.faces.size acts) :
    (c.run acts).faces.size = c.faces.size + made acts := by
  induction acts generalizing c with
  | nil => rfl
  | cons act acts ih =>
    have hsize := size_faces_perform named.1
    rw [run, List.foldl_cons, ← run, ih (hsize ▸ named.2), hsize, made_cons act acts, Nat.add_assoc]

theorem Sound.run (h : c.Sound) (acts : List Act) : (c.run acts).Sound := by
  induction acts generalizing c with
  | nil => exact h
  | cons act acts ih => exact ih (h.perform act)

/-! ### Clocks that are akin -/

theorem sound_empty : empty.Sound := fun i dial h => by simp [empty] at h

theorem size_faces_run_empty (named : Named 0 acts) : (empty.run acts).faces.size = made acts :=
  (size_faces_run (c := empty) named).trans (Nat.zero_add _)

/-- When `act` is done in the middle of a run, the clocks that it names are there, and what comes
after it does not change which dials the clocks show. -/
theorem named_middle (named : Named 0 (before ++ act :: since)) :
    (empty.run before).faces.size = made before ∧ (∀ i ∈ act.clock?, i < made before) ∧
      Named ((empty.run before).perform act).faces.size since ∧
      ∀ j < made before + made [act], (empty.run (before ++ act :: since)).faces[j]? =
        ((empty.run before).perform act).faces[j]? := by
  obtain ⟨hbefore, hact, hsince⟩ := named_append.mp named
  rw [Nat.zero_add] at hact hsince
  have hsize := size_faces_run_empty hbefore
  have hnext := size_faces_perform (c := empty.run before) (hsize.symm ▸ hact)
  rw [hsize] at hnext
  refine ⟨hsize, hact, hnext.symm ▸ hsince, fun j hj => ?_⟩
  rw [run_append]
  exact getElem?_faces_run (hnext.symm ▸ hsince) (hnext.symm ▸ hj)

/-- A copy is made after the clock that it is taken from, and shows the same dial. -/
theorem face_of_copyOf (named : Named 0 acts) (copied : (origins acts)[j]? = some (.copyOf i)) :
    i < j ∧ (empty.run acts).faces[i]? = (empty.run acts).faces[j]? := by
  obtain ⟨before, since, rfl, rfl⟩ := exists_copy_of_copyOf copied
  obtain ⟨hsize, hact, -, hfaces⟩ := named_middle named
  have hlt : i < made before := hact i rfl
  have hi : i < (empty.run before).faces.size := hsize.symm ▸ hlt
  refine ⟨hlt, ?_⟩
  rw [hfaces _ (Nat.lt_succ_of_lt hlt), hfaces _ (Nat.lt_succ_self _),
    getElem?_faces_perform _ hi, perform, faces_copy hi, ← hsize, Array.getElem?_push_size,
    Array.getElem?_eq_getElem hi]

/-- A clock that is not a copy shows a dial that no clock before it shows. -/
theorem face_ne_of_new (named : Named 0 acts) (added : (origins acts)[k]? = some (.new start))
    (hj : j < k) : (empty.run acts).faces[j]? ≠ (empty.run acts).faces[k]? := by
  obtain ⟨before, since, rfl, rfl⟩ := exists_add_of_new added
  obtain ⟨hsize, -, -, hfaces⟩ := named_middle named
  rw [hfaces _ (Nat.lt_succ_of_lt hj), hfaces _ (Nat.lt_succ_self _),
    getElem?_faces_perform _ (hsize.symm ▸ hj), perform, add, ← hsize, Array.getElem?_push_size]
  intro hdial
  exact Nat.lt_irrefl _ (sound_empty.run before j _ hdial)

/-- Every clock comes from one that is not a copy. -/
theorem exists_founder (named : Named 0 acts) (hi : i < made acts) :
    ∃ k start, (origins acts)[k]? = some (.new start) ∧ Akin acts i k := by
  induction i using Nat.strongRecOn with
  | ind i ih =>
    cases horigin : (origins acts)[i]? with
    | none => exact absurd hi (Nat.not_lt.mpr (List.getElem?_eq_none_iff.mp horigin))
    | some origin =>
      cases origin with
      | new start => exact ⟨i, start, horigin, .refl i⟩
      | copyOf j =>
        -- Going back from copy to original ends, because the original was there before.
        have hj := (face_of_copyOf named horigin).1
        obtain ⟨k, start, hk, hakin⟩ := ih j hj (Nat.lt_trans hj hi)
        exact ⟨k, start, hk, .trans _ _ _ (.symm _ _ (.rel _ _ horigin)) hakin⟩

theorem face_of_akin (named : Named 0 acts) (akin : Akin acts i j) :
    (empty.run acts).faces[i]? = (empty.run acts).faces[j]? := by
  induction akin with
  | rel i j copied => exact (face_of_copyOf named copied).2
  | refl i => rfl
  | symm i j _ ih => exact ih.symm
  | trans i j k _ _ ih ih' => exact ih.trans ih'

/-- Clocks are akin if and only if they show the same dial. -/
theorem akin_iff (named : Named 0 acts) (hi : i < made acts) :
    Akin acts i j ↔ (empty.run acts).faces[i]? = (empty.run acts).faces[j]? := by
  refine ⟨face_of_akin named, fun hface => ?_⟩
  have hsize := size_faces_run_empty named
  have hj : j < made acts := by
    rw [← hsize] at hi ⊢
    rw [Array.getElem?_eq_getElem hi] at hface
    exact (Array.getElem?_eq_some_iff.mp hface.symm).1
  obtain ⟨k, start, hk, hik⟩ := exists_founder named hi
  obtain ⟨l, start', hl, hjl⟩ := exists_founder named hj
  have hkl : (empty.run acts).faces[k]? = (empty.run acts).faces[l]? :=
    (face_of_akin named hik).symm.trans (hface.trans (face_of_akin named hjl))
  -- Two clocks that are no copies show different dials, unless they are the same.
  obtain rfl : k = l := by
    rcases Nat.lt_trichotomy k l with hlt | heq | hlt
    · exact absurd hkl (face_ne_of_new named hl hlt)
    · exact heq
    · exact absurd hkl.symm (face_ne_of_new named hk hlt)
  exact .trans _ _ _ hik (.symm _ _ hjl)

/-- No clock is akin to one that was not made. -/
theorem eq_or_lt_of_akin (named : Named 0 acts) (akin : Akin acts i j) :
    i = j ∨ i < made acts ∧ j < made acts := by
  induction akin with
  | rel i j copied =>
    have hj : j < made acts := (List.getElem?_eq_some_iff.mp copied).1
    exact .inr ⟨Nat.lt_trans (face_of_copyOf named copied).1 hj, hj⟩
  | refl i => exact .inl rfl
  | symm i j _ ih => exact ih.imp Eq.symm And.symm
  | trans i j k _ _ ih ih' =>
    rcases ih with rfl | ⟨hi, hj⟩
    · exact ih'
    · rcases ih' with rfl | ⟨-, hk⟩
      · exact .inr ⟨hi, hj⟩
      · exact .inr ⟨hi, hk⟩

/-- Whether clocks are akin can be seen from their dials. -/
@[reducible]
def Named.decidableAkin (named : Named 0 acts) : DecidableRel (Akin acts) := fun i j =>
  decidable_of_iff
    (i = j ∨ i < made acts ∧ (empty.run acts).faces[i]? = (empty.run acts).faces[j]?) <| by
    constructor
    · rintro (rfl | ⟨hi, hface⟩)
      · exact .refl i
      · exact (akin_iff named hi).mpr hface
    · intro akin
      exact (eq_or_lt_of_akin named akin).imp id fun h => ⟨h.1, face_of_akin named akin⟩

/-! ### What an exact integer comes to -/

section Exactly

variable [DecidablePred counts]

theorem Act.exactly_of_not_moved (h : ∀ j, act.moved? = some j → ¬ counts j) :
    act.exactly counts x = x := by
  cases act with
  | add start | copy i => rfl
  | set i t | advance i d => exact if_neg (h i rfl)

theorem foldl_exactly_of_not_moved
    (h : ∀ act ∈ acts, ∀ j, act.moved? = some j → ¬ counts j) :
    acts.foldl (Act.exactly counts) x = x := by
  induction acts with
  | nil => rfl
  | cons act acts ih =>
    obtain ⟨hact, hacts⟩ := List.forall_mem_cons.mp h
    rw [List.foldl_cons, Act.exactly_of_not_moved hact, ih hacts]

/-- Without being set, clocks count the milliseconds by which they are advanced. -/
theorem foldl_exactly (unset : ∀ j t, .set j t ∈ acts → ¬ counts j) :
    acts.foldl (Act.exactly counts) x =
      x + ((advances counts acts).map Duration.toMillis).sum := by
  induction acts generalizing x with
  | nil => exact (Int.add_zero x).symm
  | cons act acts ih =>
    rw [List.foldl_cons, ih fun j t hmem => unset j t (List.mem_cons_of_mem _ hmem), advances,
      advances]
    cases act with
    | add start | copy i => rfl
    | set i t =>
      rw [Act.exactly, if_neg (unset i t List.mem_cons_self)]
      rfl
    | advance i d =>
      by_cases hi : counts i
      · simp [Act.exactly, hi, Int.add_assoc]
      · simp [Act.exactly, hi]

end Exactly

/-! ### What clocks show after a run -/

theorem exists_reading (sound : c.Sound) (hi : i < c.faces.size) :
    ∃ shown, c.reading? i = some shown := by
  have hdial := sound i _ (Array.getElem?_eq_getElem hi)
  refine ⟨c.dials[c.faces[i]], ?_⟩
  simp [reading?, hi, hdial]

/-- What a clock shows goes by its dial alone. -/
theorem reading?_congr (h : c.faces[i]? = c.faces[j]?) : c.reading? i = c.reading? j := by
  rw [reading?, reading?, h]

theorem reading?_add {shown : Instant} (h : c.reading? i = some shown) :
    (c.add start).reading? i = some shown := by
  obtain ⟨dial, hface, hdial⟩ := Option.bind_eq_some_iff.mp h
  obtain ⟨hi, -⟩ := Array.getElem?_eq_some_iff.mp hface
  obtain ⟨hlt, -⟩ := Array.getElem?_eq_some_iff.mp hdial
  refine Option.bind_eq_some_iff.mpr ⟨dial, ?_, ?_⟩
  · exact (Array.getElem?_push.trans (if_neg (Nat.ne_of_lt hi))).trans hface
  · exact (Array.getElem?_push.trans (if_neg (Nat.ne_of_lt hlt))).trans hdial

theorem reading?_copy {shown : Instant} (h : c.reading? i = some shown) :
    (c.copy j).reading? i = some shown := by
  obtain ⟨dial, hface, hdial⟩ := Option.bind_eq_some_iff.mp h
  obtain ⟨hi, -⟩ := Array.getElem?_eq_some_iff.mp hface
  refine Option.bind_eq_some_iff.mpr ⟨dial, ?_, ?_⟩
  · exact (getElem?_faces_perform (.copy j) hi).trans hface
  · rw [dials_copy]
    exact hdial

/-- An act takes a clock from one wrapped integer to another. -/
theorem reading?_perform [DecidablePred counts] (shows : c.reading? i = some (Int64.ofInt x))
    (dial : ∀ j, act.moved? = some j → (counts j ↔ c.faces[j]? = c.faces[i]?)) :
    (c.perform act).reading? i = some (Int64.ofInt (act.exactly counts x)) := by
  cases act with
  | add start => exact reading?_add shows
  | copy j => exact reading?_copy shows
  | set j t =>
    rw [perform, set, reading?_adjust, shows, Act.exactly]
    simp only [dial j rfl]
    split
    · rw [Int64.ofInt_toInt]
      rfl
    · rfl
  | advance j d =>
    rw [perform, advance, reading?_adjust, shows, Act.exactly]
    simp only [dial j rfl]
    split
    · rw [Int64.ofInt_add]
      rfl
    · rfl

/-- A run takes a clock from one wrapped integer to another, to which only what is done to the
clocks that show its dial has contributed. -/
theorem reading?_run [DecidablePred counts] (named : Named c.faces.size acts)
    (shows : c.reading? i = some (Int64.ofInt x))
    (dial : ∀ j, counts j ↔ (c.run acts).faces[j]? = (c.run acts).faces[i]?) :
    (c.run acts).reading? i = some (Int64.ofInt (acts.foldl (Act.exactly counts) x)) := by
  induction acts generalizing c x with
  | nil => exact shows
  | cons act acts ih =>
    have hsize := size_faces_perform named.1
    have hi : i < c.faces.size := by
      obtain ⟨d, hface, -⟩ := Option.bind_eq_some_iff.mp shows
      exact (Array.getElem?_eq_some_iff.mp hface).1
    -- `counts` speaks of the dials at the end of the run, which are those at this point.
    refine ih (hsize ▸ named.2) (reading?_perform shows fun j hj => ?_) dial
    rw [dial, getElem?_faces_run named (named.1 j (Act.clock?_of_moved? hj)),
      getElem?_faces_run named hi]

theorem reading?_perform_of_put (sound : c.Sound) (named : ∀ i ∈ act.clock?, i < c.faces.size)
    (put : act.put? c.faces.size = some (k, t)) : (c.perform act).reading? k = some t := by
  cases act with
  | copy i | advance i d => cases put
  | add start =>
    cases put
    simp [perform, add, reading?]
  | set i u =>
    cases put
    obtain ⟨shown, hshown⟩ := exists_reading sound (named k rfl)
    rw [perform, set, reading?_adjust, if_pos rfl, hshown]
    rfl

/-- Once a clock akin to `i` was put at `t`, clock `i` shows what has been counted from there. -/
theorem reading?_of_put [DecidablePred counts] (named : Named 0 (before ++ act :: since))
    (hi : i < made (before ++ act :: since))
    (kin : ∀ j, counts j ↔ Akin (before ++ act :: since) i j)
    (put : act.put? (made before) = some (k, t)) (hk : counts k) :
    (empty.run (before ++ act :: since)).reading? i =
      some (Int64.ofInt (since.foldl (Act.exactly counts) t.toInt)) := by
  -- The reading of `k` is known at the act that put it, and `i` shows the same dial at the end,
  -- when it is there; at the act it need not have been made.
  have hface := face_of_akin named ((kin k).mp hk)
  have hdial := fun j => (kin j).trans (akin_iff (j := j) named hi)
  rw [reading?_congr hface]
  simp only [hface] at hdial
  obtain ⟨hsize, hact, hsince, -⟩ := named_middle named
  have hput := reading?_perform_of_put (sound_empty.run before) (hsize.symm ▸ hact)
    (hsize.symm ▸ put)
  rw [← Int64.ofInt_toInt t] at hput
  rw [run_append] at hdial ⊢
  exact reading?_run hsince hput fun j => (hdial j).trans eq_comm

theorem reading?_of_countsFrom [DecidableRel (Akin acts)] (named : Named 0 acts)
    (hi : i < made acts) (counted : CountsFrom acts i t since) :
    (empty.run acts).reading? i = some (Int64.ofInt
      (t.toInt + ((advances (Akin acts i) since).map Duration.toMillis).sum)) := by
  obtain ⟨before, act, k, rfl, hput, hakin, hunset⟩ := counted
  rw [reading?_of_put named hi (fun _ => Iff.rfl) hput hakin, foldl_exactly hunset]

/-- Clock `i` counts from where the first of its kin was put when it was added, since nothing that
was done before was done to a clock akin to it. -/
theorem reading?_of_founder [DecidablePred counts] (named : Named 0 acts) (hi : i < made acts)
    (kin : ∀ j, counts j ↔ Akin acts i j) (added : (origins acts)[k]? = some (.new start))
    (hk : counts k) : (empty.run acts).reading? i =
      some (Int64.ofInt (acts.foldl (Act.exactly counts) start.toInt)) := by
  obtain ⟨before, since, rfl, rfl⟩ := exists_add_of_new added
  have hbefore : before.foldl (Act.exactly counts) start.toInt = start.toInt := by
    refine foldl_exactly_of_not_moved fun act hact j hj hcounts => ?_
    have hlt := lt_made_of_mem (named_append.mp named).1 hact (Act.clock?_of_moved? hj)
    rw [Nat.zero_add] at hlt
    exact face_ne_of_new named added hlt
      ((face_of_akin named ((kin j).mp hcounts)).symm.trans (face_of_akin named ((kin _).mp hk)))
  rw [reading?_of_put named hi kin rfl hk, List.foldl_append, hbefore, List.foldl_cons]
  rfl

theorem exists_countsFrom_of_put (split : acts = before ++ act :: since)
    (put : act.put? (made before) = some (k, t)) (akin : Akin acts i k) :
    ∃ t since, CountsFrom acts i t since := by
  induction hlength : since.length using Nat.strongRecOn generalizing before act since k t with
  | ind n ih =>
    -- As long as a clock akin to `i` is set later on, count from there instead.
    by_cases hset : ∃ j u, .set j u ∈ since ∧ Akin acts i j
    · obtain ⟨j, u, hmem, hakin⟩ := hset
      obtain ⟨mid, rest, rfl⟩ := List.append_of_mem hmem
      have hsplit : acts = (before ++ act :: mid) ++ .set j u :: rest := by
        rw [split, List.append_assoc, List.cons_append]
      have hshorter : rest.length < n := by
        rw [← hlength, List.length_append, List.length_cons]
        omega
      exact ih rest.length hshorter hsplit rfl hakin rfl
    · exact ⟨t, since, before, act, k, split, put, akin, fun j u hmem hakin =>
        hset ⟨j, u, hmem, hakin⟩⟩

/-- Every clock counts from somewhere. -/
theorem exists_countsFrom (named : Named 0 acts) (hi : i < made acts) :
    ∃ t since, CountsFrom acts i t since := by
  obtain ⟨k, start, added, hakin⟩ := exists_founder named hi
  obtain ⟨before, since, hsplit, rfl⟩ := exists_add_of_new added
  exact exists_countsFrom_of_put hsplit rfl hakin

/-! ### Advances in another order -/

theorem origins_filter (acts : List Act) :
    origins (acts.filter (!·.isAdvance)) = origins acts := by
  rw [origins, List.filterMap_filter]
  refine congrArg (List.filterMap · acts) (funext fun act => ?_)
  cases act <;> rfl

theorem Reordered.origins_eq (h : Reordered acts acts') : origins acts = origins acts' := by
  rw [← origins_filter acts, h.others, origins_filter]

theorem Reordered.sum_advances [DecidablePred counts] (h : Reordered acts acts') :
    ((advances counts acts).map Duration.toMillis).sum =
      ((advances counts acts').map Duration.toMillis).sum :=
  ((h.perm.filterMap _).map _).sum_nat

theorem reading?_of_reordered {mid mid' after : List Act}
    (named : Named 0 (before ++ mid ++ after)) (named' : Named 0 (before ++ mid' ++ after))
    (reordered : Reordered mid mid') (hi : i < made (before ++ mid ++ after))
    (unset : ∀ j t, .set j t ∈ mid → ¬ Akin (before ++ mid ++ after) i j) :
    (empty.run (before ++ mid' ++ after)).reading? i =
      (empty.run (before ++ mid ++ after)).reading? i := by
  classical
  have horigins : origins (before ++ mid' ++ after) = origins (before ++ mid ++ after) := by
    simp only [origins_append, reordered.origins_eq]
  have hkin : ∀ j, Akin (before ++ mid ++ after) i j ↔ Akin (before ++ mid' ++ after) i j := by
    intro j
    rw [Akin, Akin, horigins]
  have hi' : i < made (before ++ mid' ++ after) := by rwa [made, horigins]
  have hunset' : ∀ j t, .set j t ∈ mid' → ¬ Akin (before ++ mid ++ after) i j :=
    fun j t hmem => unset j t (reordered.perm.mem_iff.mpr hmem)
  -- Both runs count from the same start, and do the same to it before `mid` and after.
  obtain ⟨k, start, added, hk⟩ := exists_founder named hi
  rw [reading?_of_founder named hi (fun _ => Iff.rfl) added hk,
    reading?_of_founder named' hi' hkin (horigins ▸ added) hk]
  simp only [List.foldl_append]
  rw [foldl_exactly unset, foldl_exactly hunset', reordered.sum_advances]

/-! ### Acts on other clocks -/

/-- What is done to clocks of another kin changes nothing. -/
theorem reading?_of_not_moved (named : Named 0 (acts ++ [act])) (hi : i < made acts)
    (apart : ∀ j, act.moved? = some j → ¬ Akin acts i j) :
    (empty.run (acts ++ [act])).reading? i = (empty.run acts).reading? i := by
  have hacts := (named_append.mp named).1
  obtain ⟨shown, hshown⟩ := exists_reading (sound_empty.run acts)
    ((size_faces_run_empty hacts).symm ▸ hi)
  rw [run_append, hshown]
  rw [← Int64.ofInt_toInt shown] at hshown ⊢
  have hstep : ((empty.run acts).perform act).reading? i = some (Int64.ofInt (act.exactly
      (fun j => (empty.run acts).faces[j]? = (empty.run acts).faces[i]?) shown.toInt)) :=
    reading?_perform hshown fun _ _ => Iff.rfl
  rwa [Act.exactly_of_not_moved fun j hj hface =>
    apart j hj ((akin_iff hacts hi).mpr hface.symm)] at hstep

/-! ### One wrap of the exact sum -/

/-- What all clocks show is what each of them shows. -/
theorem map_some_readings (sound : c.Sound) :
    c.readings.map some = (List.range c.faces.size).map c.reading? := by
  have hshown : ∀ shown ∈ c.faces.toList.map (c.dials[·]?), shown.isSome = true := by
    intro shown hmem
    obtain ⟨dial, hdial, rfl⟩ := List.mem_map.mp hmem
    obtain ⟨i, hi⟩ := List.mem_iff_getElem?.mp hdial
    rw [Array.getElem?_toList] at hi
    rw [Array.getElem?_eq_getElem (sound i dial hi)]
    rfl
  rw [readings, List.map_filterMap_some_eq_filter_map_isSome, List.filter_eq_self.mpr hshown]
  refine List.ext_getElem (by simp) fun i hi hi' => ?_
  rw [List.length_map, List.length_range] at hi'
  simp [reading?, hi']

/-- However clocks have been added, copied, set and advanced, every clock has an instant at which it
or a clock akin to it was last put, and it shows that instant and the milliseconds by which it and
the clocks akin to it were advanced since, added up and then wrapped around once, to 64 bits with a
sign. Clocks that are akin show the same. As long as none of them is set, it does not matter in
which order they are advanced, nor when another clock is copied, added or set in between. And no act
changes what a clock shows unless it moves a clock akin to it. -/
theorem run_wraps_once (named : Named 0 acts) [DecidableRel (Akin acts)] :
    (empty.run acts).readings.map some = (List.range (made acts)).map (empty.run acts).reading? ∧
    (∀ i < made acts, (∃ t since, CountsFrom acts i t since) ∧
      ∀ t since, CountsFrom acts i t since → ((empty.run acts).reading? i).map Int64.toInt =
        some (Int.bmod (t.toInt + ((advances (Akin acts i) since).map Duration.toMillis).sum)
          Int64.size)) ∧
    (∀ i j, Akin acts i j → (empty.run acts).reading? i = (empty.run acts).reading? j) ∧
    (∀ before mid mid' after, acts = before ++ mid ++ after → Reordered mid mid' →
      Named 0 (before ++ mid' ++ after) →
      ∀ i < made acts, (∀ j t, .set j t ∈ mid → ¬ Akin acts i j) →
        (empty.run (before ++ mid' ++ after)).reading? i = (empty.run acts).reading? i) ∧
    ∀ act, Named 0 (acts ++ [act]) →
      ∀ i < made acts, (∀ j, act.moved? = some j → ¬ Akin acts i j) →
        (empty.run (acts ++ [act])).reading? i = (empty.run acts).reading? i := by
  refine ⟨?_, fun i hi => ⟨exists_countsFrom named hi, fun t since counted => ?_⟩,
    fun i j akin => reading?_congr (face_of_akin named akin), ?_,
    fun act hact i hi apart => reading?_of_not_moved hact hi apart⟩
  · rw [← size_faces_run_empty named]
    exact map_some_readings (sound_empty.run acts)
  · rw [reading?_of_countsFrom named hi counted, Option.map_some, Int64.toInt_ofInt]
  · rintro before mid mid' after rfl reordered named' i hi unset
    exact reading?_of_reordered named named' reordered hi unset

/-- A clock at the last instant is copied, and the copy is copied; one of the three is advanced, and
then one is set to 5. From there, they are advanced twice by the longest duration, which is 1000
times around less one millisecond. A clock that is not akin to them is advanced in between. -/
theorem run_wraps_once_longest :
    let longest : Duration := { seconds := 18446744073709551615, nanos := 999999999 }
    let first : List Act :=
      [.add Instant.last, .add 7, .copy 0, .copy 2, .advance 0 longest, .set 3 5]
    let since : List Act := [.advance 2 longest, .advance 1 (.ofMillis 3), .advance 0 longest]
    Named 0 (first ++ since) ∧ CountsFrom (first ++ since) 0 5 since ∧
      ((empty.run (first ++ since)).reading? 0).map Int64.toInt =
        some (Int.bmod (5 + (longest.toMillis + longest.toMillis : Nat)) Int64.size) ∧
      Int.bmod (5 + (longest.toMillis + longest.toMillis : Nat)) Int64.size = 3 ∧
      (empty.run (first ++ since)).reading? 0 = (empty.run (first ++ since)).reading? 3 ∧
      (empty.run (first ++ since.reverse)).reading? 0 =
        (empty.run (first ++ since)).reading? 0 ∧
      (empty.run (first ++ since ++ [.set 1 0])).reading? 0 =
        (empty.run (first ++ since)).reading? 0 := by
  intro longest first since
  have named : Named 0 (first ++ since) := by decide
  let _ := named.decidableAkin
  obtain ⟨-, hreads, hakin, horder, hapart⟩ := run_wraps_once named
  have counted : CountsFrom (first ++ since) 0 5 since :=
    ⟨first.take 5, .set 3 5, 3, rfl, rfl, by decide, by simp [since]⟩
  have hsum := (hreads 0 (by decide)).2 5 since counted
  have hadvances : advances (Akin (first ++ since) 0) since = [longest, longest] := by
    rfl
  rw [hadvances] at hsum
  refine ⟨named, counted, hsum, ?_, hakin 0 3 (by decide), ?_, ?_⟩
  · decide
  · exact horder first since since.reverse [] (List.append_nil _).symm
      ⟨(List.reverse_perm since).symm, rfl⟩ (by decide) 0 (by decide) (by simp [since])
  · exact hapart (.set 1 0) (by decide) 0 (by decide) (by decide)

end Expiry.Clocks
