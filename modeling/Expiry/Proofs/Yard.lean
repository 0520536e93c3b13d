import Mathlib.Logic.Function.Basic
import Expiry.Proofs.Consistency

/-!
# Lanes over one pool

A yard is any family of lanes over one pool. Nodes come into the pool, are pushed to a lane, leave
it from the head or from the middle, and are taken out of the pool. Several lanes may have the same
time to live, and lanes may be empty; nothing here depends on how a store uses its lanes.

A plan says what the yard ought to look like: which timer is in which slot, and for each lane a
plain list of slots, to which pushing appends, from which popping drops the first, and from which
detaching erases. A shunt is permitted by the plan alone: a node is pushed only if it is in no list,
has the time to live of the lane and is not due before the last of the list, it is detached only
from the list that it is in, and it is taken out of the pool only if it is in no list.

What keeps the lanes apart is that no slot is in two lists. Mending links in one lane touches slots
of that lane, and the node that joins or leaves it, and so nothing in any other.

## Main definitions

* `Yard`, `Shunt`, `Yard.shunt` — lanes over a pool, and what can be done with them
* `Plan`, `Plan.shunt`, `Plan.Permits` — lists of slots, and what may be done with them
* `Yard.Worked` — a yard made by permitted shunts, with its plan
* `Lane.Carries` — the lane holds a chain of its time to live, in the order of deadlines
* `Yard.Keeps` — the lanes carry the lists of the plan, and no slot is in two of them

## Main results

* `Yard.Keeps.relink` — mending the links in one lane leaves the other lanes alone
* `Yard.Keeps.shunt` — a permitted shunt succeeds, and does to the lanes what it does to the lists
* `Yard.Worked.strung_lists` — so it is after any permitted shunts, from the empty yard on
-/

namespace Expiry

open Pool

variable {ι : Type}

/-- Lanes over one pool. -/
structure Yard (ι : Type) where
  lanes : ι → Lane
  pool : Pool

/-- What can be done in a yard. -/
inductive Shunt (ι : Type) where
  /-- A timer gets a node, which is in no lane. -/
  | insert (timer : Timer)
  | push (i : ι) (slot : Slot)
  | popHead (i : ι)
  | detach (i : ι) (slot : Slot)
  /-- A node is taken out of the pool. -/
  | remove (slot : Slot)
  deriving DecidableEq

namespace Yard

variable [DecidableEq ι]

/-- What comes of work on one lane. -/
def withLane (y : Yard ι) (i : ι) (lane : Lane) (pool : Pool) : Yard ι :=
  { lanes := Function.update y.lanes i lane, pool }

/-- Make a shunt. -/
def shunt (y : Yard ι) : Shunt ι → Except Fault (Option Slot × Yard ι)
  | .insert timer =>
    let (slot, pool) := y.pool.insert { toTimer := timer }
    .ok (some slot, { y with pool })
  | .push i slot => do
    let (lane, pool) ← (y.lanes i).push y.pool slot
    return (none, y.withLane i lane pool)
  | .popHead i => do
    let (head, lane, pool) ← (y.lanes i).popHead y.pool
    return (head, y.withLane i lane pool)
  | .detach i slot => do
    let (lane, pool) ← (y.lanes i).detach y.pool slot
    return (none, y.withLane i lane pool)
  | .remove slot => do
    let (_, pool) ← y.pool.remove slot
    return (none, { y with pool })

end Yard

/-- The lane that a shunt is about. -/
def Shunt.lane? : Shunt ι → Option ι
  | push i _ | popHead i | detach i _ => some i
  | insert _ | remove _ => none

/-- Which timer is in which slot, and the slots of each lane from its head to its tail. -/
structure Plan (ι : Type) where
  timers : Slot → Option Timer := fun _ => none
  lists : ι → List Slot := fun _ => []

namespace Plan

variable {plan : Plan ι} {slot : Slot}

/-- Whether `slot` is in no list. -/
def Loose (plan : Plan ι) (slot : Slot) : Prop := ∀ i, slot ∉ plan.lists i

/-- Whether a shunt may be made, where `ttl` says which time to live each lane is for. -/
def Permits (plan : Plan ι) (ttl : ι → UInt64) : Shunt ι → Prop
  | .insert _ | .popHead _ => True
  | .push i slot => plan.Loose slot ∧ ∃ timer, plan.timers slot = some timer ∧ timer.ttl = ttl i ∧
      ∀ tail ∈ (plan.lists i).getLast?, ∀ last ∈ plan.timers tail, last.deadline ≤ timer.deadline
  | .detach i slot => slot ∈ plan.lists i
  | .remove slot => plan.Loose slot ∧ ∃ timer, plan.timers slot = some timer

/-- Whether a shunt may be answered with `answer`: a new node is in a slot that was empty, and
popping answers with the first of the list. -/
def Answers (plan : Plan ι) (answer : Option Slot) : Shunt ι → Prop
  | .insert _ => ∃ slot, answer = some slot ∧ plan.timers slot = none
  | .popHead i => answer = (plan.lists i).head?
  | .push _ _ | .detach _ _ | .remove _ => answer = none

variable [DecidableEq ι]

/-- The plan after a shunt that was answered with `answer`. -/
def shunt (plan : Plan ι) (answer : Option Slot) : Shunt ι → Plan ι
  | .insert timer =>
    { plan with timers := fun slot => if answer = some slot then some timer else plan.timers slot }
  | .push i slot => { plan with lists := Function.update plan.lists i (plan.lists i ++ [slot]) }
  | .popHead i => { plan with lists := Function.update plan.lists i (plan.lists i).tail }
  | .detach i slot =>
    { plan with lists := Function.update plan.lists i ((plan.lists i).erase slot) }
  | .remove slot => { plan with timers := Function.update plan.timers slot none }

/-- A shunt changes the list of its own lane only. -/
theorem lists_shunt_of_ne {op : Shunt ι} {j : ι} (h : op.lane? ≠ some j) (answer : Option Slot) :
    (plan.shunt answer op).lists j = plan.lists j := by
  cases op with
  | insert timer => rfl
  | remove slot => rfl
  | push i slot => exact Function.update_of_ne (fun heq => h (congrArg some heq.symm)) _ _
  | popHead i => exact Function.update_of_ne (fun heq => h (congrArg some heq.symm)) _ _
  | detach i slot => exact Function.update_of_ne (fun heq => h (congrArg some heq.symm)) _ _

end Plan

/-! ### One lane -/

namespace Lane

variable {lane : Lane} {p q : Pool} {ttl : UInt64} {chain before after : Ledger} {e : Entry}
variable {prev next : Option Slot}

/-- The lane holds the chain, which has its time to live and is in the order of its deadlines. -/
structure Carries (lane : Lane) (p : Pool) (ttl : UInt64) (chain : Ledger) : Prop where
  holds : lane.Holds p chain
  ownTtl : lane.ttl = ttl
  sameTtl : ∀ e ∈ chain, e.ttl = ttl
  ordered : chain.Pairwise fun a b => a.deadline ≤ b.deadline

namespace Carries

theorem congr (h : lane.Carries p ttl chain) (same : ∀ e ∈ chain, q.get? e.slot = p.get? e.slot) :
    lane.Carries q ttl chain :=
  { h with holds := h.holds.congr same }

theorem strung (h : lane.Carries p ttl chain) : lane.Strung p (chain.map Entry.slot) :=
  h.holds.strung (fun e he => (h.sameTtl e he).trans h.ownTtl.symm) h.ordered

theorem push (h : lane.Carries p ttl chain) (present : p.get? e.slot = some (e.node prev next))
    (fresh : e.slot ∉ chain.map Entry.slot) (sameTtl : e.ttl = ttl)
    (inOrder : ∀ l ∈ chain.getLast?, l.deadline ≤ e.deadline) :
    ∃ lane' q, lane.push p e.slot = .ok (lane', q) ∧ lane'.Carries q ttl (chain ++ [e]) ∧
      Relinked ((chain ++ [e]).map Entry.slot) p q := by
  obtain ⟨lane', q, hpush, httl, hholds, hq⟩ :=
    h.holds.push present fresh (sameTtl.trans h.ownTtl.symm) inOrder
  refine ⟨lane', q, hpush, ⟨hholds, httl.trans h.ownTtl, ?_, ?_⟩, hq⟩
  · intro l hl
    rcases List.mem_append.mp hl with hl | hl
    · exact h.sameTtl l hl
    · rw [List.mem_singleton.mp hl, sameTtl]
  · refine List.pairwise_append.mpr ⟨h.ordered, List.pairwise_singleton _ _, fun l hl e' he' => ?_⟩
    rw [List.mem_singleton.mp he']
    -- What is due no later than the last of an ordered chain is due no later than any.
    rcases List.eq_nil_or_concat chain with rfl | ⟨rest, last, rfl⟩
    · cases hl
    rw [List.concat_eq_append] at *
    have hlast : last.deadline ≤ e.deadline := inOrder last (by simp)
    rcases List.mem_append.mp hl with hl | hl
    · exact Int64.le_trans ((List.pairwise_append.mp h.ordered).2.2 l hl last (by simp)) hlast
    · rwa [List.mem_singleton.mp hl]

theorem detach (h : lane.Carries p ttl (before ++ e :: after)) :
    ∃ lane' q, lane.detach p e.slot = .ok (lane', q) ∧ lane'.Carries q ttl (before ++ after) ∧
      q.get? e.slot = some (e.node none none) ∧
      Relinked ((before ++ e :: after).map Entry.slot) p q := by
  obtain ⟨lane', q, hdetach, httl, hholds, he, hq⟩ := h.holds.detach
  have hsub : (before ++ after).Sublist (before ++ e :: after) :=
    (List.sublist_cons_self e after).append_left before
  exact ⟨lane', q, hdetach, ⟨hholds, httl.trans h.ownTtl, fun l hl => h.sameTtl l (hsub.subset hl),
    h.ordered.sublist hsub⟩, he, hq⟩

end Carries

end Lane

/-! ### All lanes -/

namespace Yard

variable {ttl : ι → UInt64} {y y' : Yard ι} {plan : Plan ι} {i : ι} {slot : Slot}

/-- The yard without nodes. -/
def empty (ttl : ι → UInt64) : Yard ι := { lanes := fun i => Lane.empty (ttl i), pool := .empty }

/-- Of the lane `j` nothing has changed: neither its ends and its length, nor a node in its list
with the links. -/
def Spares (y y' : Yard ι) (plan : Plan ι) (j : ι) : Prop :=
  y'.lanes j = y.lanes j ∧ ∀ slot ∈ plan.lists j, y'.pool.get? slot = y.pool.get? slot

/-- The lanes carry the lists of the plan, no slot is in two of them, and a node that is in none has
no links. -/
structure Keeps (y : Yard ι) (ttl : ι → UInt64) (plan : Plan ι) : Prop where
  sound : y.pool.Sound
  timers : ∀ slot, (y.pool.get? slot).map Node.toTimer = plan.timers slot
  carries : ∀ i, ∃ chain : Ledger, chain.map Entry.slot = plan.lists i ∧
    (y.lanes i).Carries y.pool (ttl i) chain
  apart : ∀ {i j slot}, slot ∈ plan.lists i → slot ∈ plan.lists j → i = j
  unlinked : ∀ {slot node}, y.pool.get? slot = some node → plan.Loose slot →
    node.prev = none ∧ node.next = none

/-- The shunt succeeds and is answered as the plan says, the yard keeps the plan that follows, and
the lanes that the shunt is not about are spared. -/
def Obeys [DecidableEq ι] (y : Yard ι) (ttl : ι → UInt64) (plan : Plan ι) (op : Shunt ι) : Prop :=
  ∃ answer y', y.shunt op = .ok (answer, y') ∧ plan.Answers answer op ∧
    y'.Keeps ttl (plan.shunt answer op) ∧ ∀ j, op.lane? ≠ some j → y.Spares y' plan j

/-- A shunt that is about the lane `i` has to spare all lanes but that. -/
theorem Obeys.of_lane [DecidableEq ι] {op : Shunt ι} {answer : Option Slot}
    (about : op.lane? = some i) (shunts : y.shunt op = .ok (answer, y'))
    (answers : plan.Answers answer op) (keeps : y'.Keeps ttl (plan.shunt answer op))
    (spares : ∀ j ≠ i, y.Spares y' plan j) : y.Obeys ttl plan op := by
  refine ⟨answer, y', shunts, answers, keeps, fun j hne => spares j fun heq => ?_⟩
  exact hne (about.trans (congrArg some heq.symm))

namespace Keeps

theorem empty (ttl : ι → UInt64) : (Yard.empty ttl).Keeps ttl {} where
  sound := .empty
  timers _ := by simp [Yard.empty, Pool.empty, get?]
  carries i := ⟨[], rfl, .empty (ttl i) _, rfl, by simp, List.Pairwise.nil⟩
  apart h := by cases h
  unlinked h := by simp [Yard.empty, Pool.empty, get?] at h

/-- The node of a loose slot is its timer without links. -/
theorem get?_of_loose (h : y.Keeps ttl plan) (hloose : plan.Loose slot) {timer : Timer}
    (htimer : plan.timers slot = some timer) :
    y.pool.get? slot = some { toTimer := timer } := by
  rw [← h.timers, Option.map_eq_some_iff] at htimer
  obtain ⟨node, hnode, rfl⟩ := htimer
  obtain ⟨hprev, hnext⟩ := h.unlinked hnode hloose
  rw [hnode]
  cases node
  simp_all

/-- Every slot in a list is occupied. -/
theorem exists_node (h : y.Keeps ttl plan) (hslot : slot ∈ plan.lists i) :
    ∃ node, y.pool.get? slot = some node := by
  obtain ⟨chain, hchain, hcarries⟩ := h.carries i
  rw [← hchain, List.mem_map] at hslot
  obtain ⟨e, he, rfl⟩ := hslot
  obtain ⟨prev, next, hnode⟩ := hcarries.holds.linked.exists_node he
  exact ⟨_, hnode⟩

/-- A change of the pool that no list notices leaves all lanes as they are. -/
theorem repool (h : y.Keeps ttl plan) {q : Pool} {timers : Slot → Option Timer} (sound : q.Sound)
    (agree : ∀ slot, (q.get? slot).map Node.toTimer = timers slot)
    (same : ∀ i, ∀ slot ∈ plan.lists i, q.get? slot = y.pool.get? slot)
    (unlinked : ∀ {slot node}, q.get? slot = some node → plan.Loose slot →
      node.prev = none ∧ node.next = none) :
    ({ y with pool := q } : Yard ι).Keeps ttl { plan with timers } where
  sound := sound
  timers := agree
  carries i := by
    obtain ⟨chain, hchain, hcarries⟩ := h.carries i
    exact ⟨chain, hchain, hcarries.congr fun e he => same i _ (hchain ▸ List.mem_map_of_mem he)⟩
  apart := h.apart
  unlinked := unlinked

variable [DecidableEq ι]

/-- Mending links in one lane leaves the other lanes alone. The slots in `work` are those in the
list of the lane, and loose ones that join it. -/
theorem relink (h : y.Keeps ttl plan) {lane' : Lane} {q : Pool} {chain' : Ledger}
    {work : List Slot} (relinked : Relinked work y.pool q)
    (own : ∀ slot ∈ work, slot ∈ plan.lists i ∨ plan.Loose slot)
    (within : chain'.map Entry.slot ⊆ work) (covers : plan.lists i ⊆ work)
    (carries : lane'.Carries q (ttl i) chain')
    (unlinked : ∀ {slot node}, q.get? slot = some node → slot ∈ work →
      slot ∉ chain'.map Entry.slot → node.prev = none ∧ node.next = none) :
    (y.withLane i lane' q).Keeps ttl
        { plan with lists := Function.update plan.lists i (chain'.map Entry.slot) } ∧
      ∀ j ≠ i, y.Spares (y.withLane i lane' q) plan j := by
  -- A slot of another list is neither in this one nor loose, so it is not touched.
  have hother : ∀ j ≠ i, ∀ slot ∈ plan.lists j, slot ∉ work := by
    intro j hne slot hslot hwork
    rcases own slot hwork with hmem | hloose
    · exact hne (h.apart hslot hmem)
    · exact hloose j hslot
  have hsame : ∀ j ≠ i, ∀ slot ∈ plan.lists j, q.get? slot = y.pool.get? slot :=
    fun j hne slot hslot => relinked.other slot (hother j hne slot hslot)
  refine ⟨⟨relinked.sound h.sound, fun slot => (relinked.timer slot).trans (h.timers slot),
    fun j => ?_, fun {j k slot} hj hk => ?_, fun {slot node} hnode hloose => ?_⟩,
    fun j hne => ⟨Function.update_of_ne hne _ _, hsame j hne⟩⟩
  · rcases eq_or_ne j i with rfl | hne
    · simp only [withLane, Function.update_self]
      exact ⟨chain', rfl, carries⟩
    · simp only [withLane, Function.update_of_ne hne]
      obtain ⟨chain, hchain, hcarries⟩ := h.carries j
      exact ⟨chain, hchain, hcarries.congr fun e he =>
        hsame j hne _ (hchain ▸ List.mem_map_of_mem he)⟩
  · simp only [Function.update_apply] at hj hk
    split at hj <;> split at hk
    · next hji hki => rw [hji, hki]
    · next hki => exact absurd (within hj) (hother k hki slot hk)
    · next hji _ => exact absurd (within hk) (hother j hji slot hj)
    · exact h.apart hj hk
  · have hmem : slot ∉ chain'.map Entry.slot := by
      simpa only [Function.update_self] using hloose i
    by_cases hwork : slot ∈ work
    · exact unlinked hnode hwork hmem
    · refine h.unlinked (relinked.other slot hwork ▸ hnode) fun j hj => ?_
      rcases eq_or_ne j i with rfl | hne
      · exact hwork (covers hj)
      · exact hloose j (by simpa only [Function.update_of_ne hne] using hj)

/-- Detaching a node from the middle of a list drops its slot from the list. -/
theorem unlink (h : y.Keeps ttl plan) (before after : Ledger) {e : Entry}
    (list : plan.lists i = (before ++ e :: after).map Entry.slot)
    (carries : (y.lanes i).Carries y.pool (ttl i) (before ++ e :: after)) :
    ∃ lane' q, (y.lanes i).detach y.pool e.slot = .ok (lane', q) ∧
      (y.withLane i lane' q).Keeps ttl
        { plan with lists := Function.update plan.lists i ((before ++ after).map Entry.slot) } ∧
      ∀ j ≠ i, y.Spares (y.withLane i lane' q) plan j := by
  obtain ⟨lane', q, hdetach, hcarries', he, hq⟩ := carries.detach
  have hsub : (before ++ after).map Entry.slot ⊆ (before ++ e :: after).map Entry.slot :=
    (((List.sublist_cons_self e after).append_left before).map Entry.slot).subset
  refine ⟨lane', q, hdetach, h.relink hq (fun slot hslot => Or.inl (list ▸ hslot)) hsub
    (list ▸ List.Subset.refl _) hcarries' fun {slot node} hnode hwork hgone => ?_⟩
  -- The only slot that leaves the list is that of the detached node.
  have hslot : slot = e.slot := by
    simp only [List.map_append, List.map_cons, List.mem_append, List.mem_cons, not_or]
      at hwork hgone
    tauto
  rw [hslot, he, Option.some.injEq] at hnode
  rw [← hnode]
  exact ⟨rfl, rfl⟩

theorem insert (h : y.Keeps ttl plan) (timer : Timer) : y.Obeys ttl plan (.insert timer) := by
  have hempty := get?_insert_fst h.sound { toTimer := timer }
  have hget : ∀ slot, (y.pool.insert { toTimer := timer }).2.get? slot =
      if (y.pool.insert { toTimer := timer }).1 = slot then some { toTimer := timer }
      else y.pool.get? slot := fun slot => get?_insert h.sound
  have hsound := h.sound.insert { toTimer := timer }
  -- The slot was empty, so it is in no list.
  have hsame : ∀ i, ∀ slot ∈ plan.lists i,
      (y.pool.insert { toTimer := timer }).2.get? slot = y.pool.get? slot := by
    intro i slot hslot
    obtain ⟨node, hnode⟩ := h.exists_node hslot
    rw [hget, if_neg fun heq => ?_]
    rw [← heq, hempty] at hnode
    cases hnode
  have htimer : plan.timers (y.pool.insert { toTimer := timer }).1 = none := by
    rw [← h.timers, hempty]
    rfl
  refine ⟨some (y.pool.insert { toTimer := timer }).1,
    { y with pool := (y.pool.insert { toTimer := timer }).2 }, rfl, ⟨_, rfl, htimer⟩,
    h.repool hsound (fun slot => ?_) hsame (fun {slot node} hnode hloose => ?_),
    fun j _ => ⟨rfl, hsame j⟩⟩
  · simp only [hget, Option.some.injEq]
    split
    · rfl
    · exact h.timers slot
  · rw [hget] at hnode
    split at hnode
    · cases hnode
      exact ⟨rfl, rfl⟩
    · exact h.unlinked hnode hloose

theorem push (h : y.Keeps ttl plan) (permits : plan.Permits ttl (.push i slot)) :
    y.Obeys ttl plan (.push i slot) := by
  obtain ⟨hloose, timer, htimer, httl, hlast⟩ := permits
  obtain ⟨e, rfl, rfl⟩ : ∃ e : Entry, e.toTimer = timer ∧ e.slot = slot := ⟨⟨timer, slot⟩, rfl, rfl⟩
  obtain ⟨chain, hchain, hcarries⟩ := h.carries i
  have hinOrder : ∀ l ∈ chain.getLast?, l.deadline ≤ e.deadline := by
    intro l hl
    obtain ⟨prev, next, hnode⟩ := hcarries.holds.linked.exists_node (List.mem_of_getLast? hl)
    refine hlast l.slot ?_ l.toTimer ?_
    · rw [← hchain, List.getLast?_map, hl]
      rfl
    · rw [← h.timers, hnode]
      rfl
  obtain ⟨lane', q, hpush, hcarries', hq⟩ :=
    hcarries.push (h.get?_of_loose hloose htimer) (hchain ▸ hloose i) httl hinOrder
  have hlist : (chain ++ [e]).map Entry.slot = plan.lists i ++ [e.slot] := by
    rw [List.map_append, hchain]
    rfl
  have hown : ∀ slot ∈ (chain ++ [e]).map Entry.slot, slot ∈ plan.lists i ∨ plan.Loose slot := by
    intro slot hslot
    rw [hlist, List.mem_append, List.mem_singleton] at hslot
    rcases hslot with hslot | rfl
    · exact Or.inl hslot
    · exact Or.inr hloose
  obtain ⟨hkeeps, hspares⟩ := h.relink hq hown (List.Subset.refl _)
    (hlist ▸ List.subset_append_left _ _) hcarries' fun _ hwork hgone => absurd hwork hgone
  rw [hlist] at hkeeps
  refine .of_lane rfl ?_ rfl hkeeps hspares
  simp only [shunt, hpush, Fault.ok_bind, Fault.pure_eq_ok]

theorem popHead (h : y.Keeps ttl plan) (i : ι) : y.Obeys ttl plan (.popHead i) := by
  obtain ⟨chain, hchain, hcarries⟩ := h.carries i
  cases chain with
  | nil =>
    -- There is nothing to pop, and nothing happens.
    have hhead : (y.lanes i).head = none := hcarries.holds.head
    have hlist : plan.lists i = [] := hchain.symm
    have hplan : plan.shunt none (.popHead i) = plan := by
      have htail : (plan.lists i).tail = plan.lists i := by rw [hlist, List.tail_nil]
      rw [Plan.shunt, htail, Function.update_eq_self]
    refine ⟨none, y, ?_, by simp [Plan.Answers, hlist], hplan.symm ▸ h,
      fun j _ => ⟨rfl, fun _ _ => rfl⟩⟩
    simp only [shunt, Lane.popHead, hhead, Fault.ok_bind, Fault.pure_eq_ok, withLane,
      Function.update_eq_self]
  | cons e rest =>
    have hhead : (y.lanes i).head = some e.slot := hcarries.holds.head
    obtain ⟨lane', q, hdetach, hkeeps, hspares⟩ := h.unlink [] rest hchain.symm hcarries
    have hlist : plan.lists i = e.slot :: rest.map Entry.slot := hchain.symm
    have hanswer : some e.slot = (plan.lists i).head? := by rw [hlist, List.head?_cons]
    refine .of_lane rfl ?_ hanswer ?_ hspares
    · simp only [shunt, Lane.popHead, hhead, hdetach, Fault.ok_bind, Fault.pure_eq_ok]
    · simpa only [Plan.shunt, hlist, List.tail_cons, List.nil_append] using hkeeps

theorem detach (h : y.Keeps ttl plan) (permits : plan.Permits ttl (.detach i slot)) :
    y.Obeys ttl plan (.detach i slot) := by
  obtain ⟨chain, hchain, hcarries⟩ := h.carries i
  have hslot : slot ∈ plan.lists i := permits
  rw [← hchain, List.mem_map] at hslot
  obtain ⟨e, he, rfl⟩ := hslot
  obtain ⟨before, after, rfl⟩ := List.append_of_mem he
  obtain ⟨lane', q, hdetach, hkeeps, hspares⟩ :=
    h.unlink before after hchain.symm hcarries
  -- The slot is in the list once, so that erasing it leaves what is before and after it.
  have herase : (plan.lists i).erase e.slot = (before ++ after).map Entry.slot := by
    have hdistinct := hcarries.holds.distinct
    rw [List.map_append, List.map_cons] at hdistinct
    rw [← hchain, List.map_append, List.map_cons, List.erase_append_right, List.erase_cons_head,
      List.map_append]
    exact fun hmem => (List.nodup_append.mp hdistinct).2.2 _ hmem _ List.mem_cons_self rfl
  refine .of_lane rfl ?_ rfl ?_ hspares
  · simp only [shunt, hdetach, Fault.ok_bind, Fault.pure_eq_ok]
  · simpa only [Plan.shunt, herase] using hkeeps

theorem remove (h : y.Keeps ttl plan) (permits : plan.Permits ttl (.remove slot)) :
    y.Obeys ttl plan (.remove slot) := by
  obtain ⟨hloose, timer, htimer⟩ := permits
  obtain ⟨q, hremove, hsound, -, hget⟩ := h.sound.remove (h.get?_of_loose hloose htimer)
  have hsame : ∀ i, ∀ slot' ∈ plan.lists i, q.get? slot' = y.pool.get? slot' := by
    intro i slot' hslot'
    have hne : slot ≠ slot' := fun heq => hloose i (heq ▸ hslot')
    rw [hget, if_neg hne]
  refine ⟨none, { y with pool := q }, ?_, rfl, h.repool hsound (fun slot' => ?_) hsame
    (fun {slot' node} hnode hloose' => ?_), fun j _ => ⟨rfl, hsame j⟩⟩
  · simp only [shunt, hremove, Fault.ok_bind, Fault.pure_eq_ok]
  · rw [hget, Function.update_apply]
    by_cases heq : slot = slot'
    · rw [if_pos heq, if_pos heq.symm]
      rfl
    · rw [if_neg heq, if_neg (Ne.symm heq), h.timers]
  · rw [hget] at hnode
    split at hnode
    · cases hnode
    · exact h.unlinked hnode hloose'

/-- Every permitted shunt succeeds as the plan says. -/
theorem shunt (h : y.Keeps ttl plan) {op : Shunt ι} (permits : plan.Permits ttl op) :
    y.Obeys ttl plan op := by
  cases op with
  | insert timer => exact h.insert timer
  | push i slot => exact h.push permits
  | popHead i => exact h.popHead i
  | detach i slot => exact h.detach permits
  | remove slot => exact h.remove permits

end Keeps

/-- A yard made by permitted shunts, one after the other, with its plan. -/
inductive Worked [DecidableEq ι] (ttl : ι → UInt64) : Yard ι → Plan ι → Prop
  | start : Worked ttl (empty ttl) {}
  | next {y y' : Yard ι} {plan : Plan ι} {answer : Option Slot} (op : Shunt ι) :
      Worked ttl y plan → plan.Permits ttl op → y.shunt op = .ok (answer, y') →
      Worked ttl y' (plan.shunt answer op)

namespace Worked

variable [DecidableEq ι]

theorem keeps (h : Worked ttl y plan) : y.Keeps ttl plan := by
  induction h with
  | start => exact .empty ttl
  | next op _ permits hshunt ih =>
    -- The outcome that is known to exist is the one that there was.
    obtain ⟨answer, y', hshunt', -, hkeeps, -⟩ := ih.shunt permits
    rw [hshunt, Except.ok.injEq, Prod.mk.injEq] at hshunt'
    rw [hshunt'.1, hshunt'.2]
    exact hkeeps

/-- After any permitted shunts each lane is the list that the plan has for it: the walk along the
links, the ends, the length and the links back are those of the list, and the lane is empty if the
list is. A node that is in no list has no links. Whatever is permitted next succeeds, popping
answers with the first of the list, and no other lane, list or link changes. -/
theorem strung_lists (h : Worked ttl y plan) :
    (∀ i, (y.lanes i).ttl = ttl i ∧ (y.lanes i).Strung y.pool (plan.lists i) ∧
      ((y.lanes i).isEmpty = true ↔ plan.lists i = [])) ∧
    (∀ slot, (y.pool.get? slot).map Node.toTimer = plan.timers slot) ∧
    (∀ slot node, y.pool.get? slot = some node → plan.Loose slot →
      node.prev = none ∧ node.next = none) ∧
    ∀ op, plan.Permits ttl op → ∃ answer y', y.shunt op = .ok (answer, y') ∧
      plan.Answers answer op ∧ Worked ttl y' (plan.shunt answer op) ∧
      ∀ j, op.lane? ≠ some j →
        (plan.shunt answer op).lists j = plan.lists j ∧ y.Spares y' plan j := by
  refine ⟨fun i => ?_, h.keeps.timers, fun slot node => h.keeps.unlinked, fun op permits => ?_⟩
  · obtain ⟨chain, hchain, hcarries⟩ := h.keeps.carries i
    rw [← hchain, hcarries.holds.isEmpty_iff, List.map_eq_nil_iff]
    exact ⟨hcarries.ownTtl, hcarries.strung, Iff.rfl⟩
  · obtain ⟨answer, y', hshunt, hanswers, -, hspares⟩ := h.keeps.shunt permits
    exact ⟨answer, y', hshunt, hanswers, h.next op permits hshunt, fun j hne =>
      ⟨Plan.lists_shunt_of_ne hne answer, hspares j hne⟩⟩

/-- Two lanes of one time to live. Two nodes are pushed to the one lane, and the first of them is
popped and taken out of the pool. Its slot is used again, for a node that is pushed to the other
lane; and so that stays as it is when the node behind it in the pool is detached. -/
theorem strung_lists_reused : ∃ (y y' : Yard Bool) (plan : Plan Bool) (answer : Option Slot),
    Worked (fun _ => 5) y plan ∧ plan.lists true = [1] ∧ plan.lists false = [0] ∧
    (y.lanes true).slots y.pool = .ok [1] ∧ (y.lanes false).slots y.pool = .ok [0] ∧
    y.shunt (.detach true 1) = .ok (answer, y') ∧ (y'.lanes true).slots y'.pool = .ok [] ∧
    (y'.lanes false).slots y'.pool = .ok [0] := by
  have h : Worked (fun _ : Bool => 5) (empty fun _ => 5) {} := .start
  have h := h.next (.insert ⟨[1], 5, 10⟩) trivial rfl
  have h := h.next (.push true 0) ⟨fun _ => List.not_mem_nil, ⟨[1], 5, 10⟩, rfl, rfl,
    fun _ htail => by cases htail⟩ rfl
  have h := h.next (.insert ⟨[2], 5, 11⟩) trivial rfl
  have h := h.next (.push true 1) ⟨fun i hmem => by cases i <;> simp [Plan.shunt] at hmem,
    ⟨[2], 5, 11⟩, rfl, rfl, fun _ htail _ hlast => by cases htail; cases hlast; decide⟩ rfl
  have h := h.next (.popHead true) trivial rfl
  have h := h.next (.remove 0) ⟨fun i hmem => by cases i <;> simp [Plan.shunt] at hmem,
    ⟨[1], 5, 10⟩, rfl⟩ rfl
  have h := h.next (.insert ⟨[3], 5, 4⟩) trivial rfl
  have h := h.next (.push false 0) ⟨fun i hmem => by cases i <;> simp [Plan.shunt] at hmem,
    ⟨[3], 5, 4⟩, rfl, rfl, fun _ htail => by cases htail⟩ rfl
  obtain ⟨hlanes, -, -, hnext⟩ := strung_lists h
  obtain ⟨answer, y', hshunt, -, h', -⟩ := hnext (.detach true 1) List.mem_cons_self
  exact ⟨_, y', _, answer, h, rfl, rfl, (hlanes true).2.1.walk, (hlanes false).2.1.walk, hshunt,
    ((strung_lists h').1 true).2.1.walk, ((strung_lists h').1 false).2.1.walk⟩

end Worked

end Yard

end Expiry
