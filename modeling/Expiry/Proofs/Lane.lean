import Expiry.Lane
import Expiry.Proofs.Pool

/-!
# Lanes as lists

A lane is a list of timers in disguise. What it stands for is a chain: the timers from its head to
its tail, each with the slot of its node. The links of a chain in the middle of a lane depend on the
two slots beside it, so a chain can be cut anywhere and put together again.

Pushing appends to the chain, detaching erases from its middle, and draining drops the longest
beginning that is due. None of them can fail on a lane that holds a chain, and none of them touches
a node outside of the chain but the one that is pushed.

## Main definitions

* `Entry`, `Ledger` — a timer with its slot, and a list of them
* `Pool.Linked` — the nodes of a chain point at each other, and at what is on either side
* `Lane.Holds` — the lane stands for a chain

## Main results

* `Lane.Holds.push`, `Lane.Holds.detach`, `Lane.Holds.drain` — what the operations do to the chain
* `Lane.Holds.slots_eq` — walking along the links meets the slots of the chain
-/

namespace Expiry

/-- A timer and the slot of its node. -/
structure Entry extends Timer where
  slot : Slot
  deriving DecidableEq

/-- The node of an entry between two neighbours. -/
def Entry.node (e : Entry) (prev next : Option Slot) : Node := { toTimer := e.toTimer, prev, next }

/-- Timers with their slots, in the order in which they were started. -/
abbrev Ledger := List Entry

namespace Ledger

variable {before after chain : Ledger} {e : Entry} {prev next : Option Slot}

/-- The first slot of a chain, or `next` behind an empty one. -/
def first (chain : Ledger) (next : Option Slot) : Option Slot :=
  match chain with
  | [] => next
  | e :: _ => some e.slot

/-- The last slot of a chain, or `prev` before an empty one. -/
def last (prev : Option Slot) : Ledger → Option Slot
  | [] => prev
  | e :: rest => last (some e.slot) rest

@[simp] theorem first_nil : first [] next = next := rfl

@[simp] theorem first_cons : first (e :: after) next = some e.slot := rfl

@[simp] theorem last_nil : last prev [] = prev := rfl

@[simp] theorem last_cons : last prev (e :: after) = last (some e.slot) after := rfl

theorem first_append : first (before ++ after) next = first before (first after next) := by
  cases before <;> rfl

theorem last_append : last prev (before ++ after) = last (last prev before) after := by
  induction before generalizing prev with
  | nil => rfl
  | cons e rest ih => exact ih

theorem first_none_eq (chain : Ledger) : chain.first none = chain.head?.map Entry.slot := by
  cases chain <;> rfl

theorem last_none_eq (chain : Ledger) : last none chain = chain.getLast?.map Entry.slot := by
  rcases List.eq_nil_or_concat chain with rfl | ⟨rest, e, rfl⟩
  · rfl
  · simp [last_append]

/-- Two parts of a ledger without repetitions share no slot. -/
theorem slot_notMem (distinct : ((before ++ after).map Entry.slot).Nodup) (he : e ∈ before) :
    e.slot ∉ after.map Entry.slot := by
  rw [List.map_append, List.nodup_append] at distinct
  exact fun hmem => distinct.2.2 _ (List.mem_map_of_mem he) _ hmem rfl

end Ledger

open Ledger Pool

/-! ### Links -/

namespace Pool

variable {p q : Pool} {before after chain : Ledger} {e : Entry} {prev next : Option Slot}

/-- The nodes of the chain are linked in both directions, the first one with `prev` before it and
the last one with `next` behind it. -/
def Linked (p : Pool) (prev : Option Slot) (chain : Ledger) (next : Option Slot) : Prop :=
  match chain with
  | [] => True
  | e :: rest =>
    p.get? e.slot = some (e.node prev (first rest next)) ∧ p.Linked (some e.slot) rest next

theorem linked_append : p.Linked prev (before ++ after) next ↔
    p.Linked prev before (first after next) ∧ p.Linked (last prev before) after next := by
  induction before generalizing prev with
  | nil => simp [Linked]
  | cons e rest ih => simp only [List.cons_append, Linked, first_append, ih, last_cons, and_assoc]

/-- The links of a chain do not depend on nodes outside of it. -/
theorem Linked.congr (h : p.Linked prev chain next)
    (same : ∀ e ∈ chain, q.get? e.slot = p.get? e.slot) : q.Linked prev chain next := by
  induction chain generalizing prev with
  | nil => trivial
  | cons e rest ih =>
    exact ⟨(same e List.mem_cons_self).trans h.1,
      ih h.2 fun e' he' => same e' (List.mem_cons_of_mem _ he')⟩

theorem Linked.relinked {slots : List Slot} (h : p.Linked prev chain next)
    (hq : Relinked slots p q) (apart : ∀ e ∈ chain, e.slot ∉ slots) : q.Linked prev chain next :=
  h.congr fun e he => hq.other _ (apart e he)

/-- Every entry of a chain has its node in its slot. -/
theorem Linked.exists_node (h : p.Linked prev chain next) (he : e ∈ chain) :
    ∃ prev next, p.get? e.slot = some (e.node prev next) := by
  induction chain generalizing prev with
  | nil => cases he
  | cons e' rest ih =>
    rcases List.mem_cons.mp he with rfl | he
    · exact ⟨_, _, h.1⟩
    · exact ih h.2 he

end Pool

/-! ### Lanes that hold a chain -/

namespace Lane

variable {lane : Lane} {p q : Pool} {before after chain : Ledger} {e : Entry} {slot : Slot}
variable {prev next : Option Slot}

/-- The lane begins, ends and counts as the chain does, whose nodes are linked. -/
structure Holds (lane : Lane) (p : Pool) (chain : Ledger) : Prop where
  head : lane.head = chain.first none
  tail : lane.tail = last none chain
  length : lane.length = chain.length
  distinct : (chain.map Entry.slot).Nodup
  linked : p.Linked none chain none

namespace Holds

theorem empty (ttl : UInt64) (p : Pool) : (Lane.empty ttl).Holds p [] :=
  ⟨rfl, rfl, rfl, List.nodup_nil, trivial⟩

theorem congr (h : lane.Holds p chain) (same : ∀ e ∈ chain, q.get? e.slot = p.get? e.slot) :
    lane.Holds q chain :=
  { h with linked := h.linked.congr same }

theorem isEmpty_iff (h : lane.Holds p chain) : lane.isEmpty = true ↔ chain = [] := by
  rw [isEmpty, h.length, beq_iff_eq, List.length_eq_zero_iff]

end Holds

/-! ### Closing the gap around a node

The two halves of detaching. Each mends the links on one side of the node in `slot`, and the end of
the lane if there is nothing on that side. -/

theorem exists_closeBefore (head : lane.head = first before (some slot))
    (distinct : (before.map Entry.slot).Nodup) (linked : p.Linked none before (some slot))
    (next : Option Slot) :
    ∃ q, lane.closeBefore p slot (last none before) next =
        .ok ({ lane with head := first before next }, q) ∧
      q.Linked none before next ∧ Relinked (before.map Entry.slot) p q := by
  -- Without anything before the node the lane gets a new head, else the last node before it is
  -- mended and the lane stays.
  rcases List.eq_nil_or_concat before with rfl | ⟨rest, l, rfl⟩
  · have hhead : lane.head = some slot := head
    exact ⟨p, by simp [closeBefore, hhead], trivial, .refl _ p⟩
  · rw [List.concat_eq_append] at *
    obtain ⟨hrest, hl, -⟩ := linked_append.mp linked
    obtain ⟨q, hnext, hlq, hq⟩ := exists_modify hl (·.withNext next) rfl
    refine ⟨q, ?_, linked_append.mpr ⟨hrest.relinked hq fun e he => ?_, hlq, trivial⟩,
      hq.mono (by simp)⟩
    · have hsame : { lane with head := first (rest ++ [l]) next } = lane := by
        rw [show first (rest ++ [l]) next = lane.head by
          rw [head, first_append, first_append]; rfl]
      rw [hsame, last_append]
      simp [closeBefore, hnext]
    · simpa using slot_notMem distinct he

theorem exists_closeAfter (tail : lane.tail = last (some slot) after)
    (distinct : (after.map Entry.slot).Nodup) (linked : p.Linked (some slot) after none)
    (prev : Option Slot) :
    ∃ q, lane.closeAfter p slot prev (first after none) =
        .ok ({ lane with tail := last prev after }, q) ∧
      q.Linked prev after none ∧ Relinked (after.map Entry.slot) p q := by
  cases after with
  | nil =>
    have htail : lane.tail = some slot := tail
    exact ⟨p, by simp [closeAfter, htail], trivial, .refl _ p⟩
  | cons e rest =>
    obtain ⟨he, hrest⟩ := linked
    obtain ⟨q, hprev, heq, hq⟩ := exists_modify he (·.withPrev prev) rfl
    refine ⟨q, ?_, ⟨heq, hrest.relinked hq fun e' he' => ?_⟩, hq.mono (by simp)⟩
    · have hsame : { lane with tail := last prev (e :: rest) } = lane := by
        rw [show last prev (e :: rest) = lane.tail from tail.symm]
      rw [hsame]
      simp [closeAfter, hprev]
    · rw [List.map_cons, List.nodup_cons] at distinct
      exact fun hmem => distinct.1 (List.mem_singleton.mp hmem ▸ List.mem_map_of_mem he')

/-! ### What the operations do to the chain -/

namespace Holds

/-- Pushing a node that is in no lane appends it to the chain. -/
theorem push (h : lane.Holds p chain) (present : p.get? e.slot = some (e.node prev next))
    (fresh : e.slot ∉ chain.map Entry.slot) (sameTtl : e.ttl = lane.ttl)
    (inOrder : ∀ l ∈ chain.getLast?, l.deadline ≤ e.deadline) :
    ∃ lane' q, lane.push p e.slot = .ok (lane', q) ∧ lane'.ttl = lane.ttl ∧
      lane'.Holds q (chain ++ [e]) ∧ Relinked ((chain ++ [e]).map Entry.slot) p q := by
  have hread : p.read e.slot = .ok (e.node prev next) := read_eq_ok_iff.mpr present
  have hdistinct : ((chain ++ [e]).map Entry.slot).Nodup := by
    rw [List.map_append, List.nodup_append]
    exact ⟨h.distinct, by simp, by simpa using fresh⟩
  rcases List.eq_nil_or_concat chain with rfl | ⟨rest, l, rfl⟩
  · have htail : lane.tail = none := h.tail
    obtain ⟨q, hunlink, hself, hq⟩ := exists_modify present Node.unlinked rfl
    refine ⟨⟨lane.ttl, e.slot, e.slot, lane.length + 1⟩, q, ?_, rfl,
      ⟨rfl, rfl, by simp [h.length], hdistinct, hself, trivial⟩, hq⟩
    simp [Lane.push, hread, htail, hunlink, Entry.node, sameTtl]
  · rw [List.concat_eq_append] at *
    have htail : lane.tail = some l.slot := by rw [h.tail, last_append]; rfl
    have hne : l.slot ≠ e.slot := fun heq => fresh (by simp [heq])
    have hle : l.deadline ≤ e.deadline := inOrder l (by simp)
    obtain ⟨hrest, hl, -⟩ := linked_append.mp h.linked
    have hreadLast : p.read l.slot = .ok (l.node (last none rest) none) := read_eq_ok_iff.mpr hl
    -- The node is linked to the tail first, and then the tail to the node.
    obtain ⟨p₁, hprev, he₁, hp₁⟩ := exists_modify present (·.unlinked.withPrev (some l.slot)) rfl
    have hl₁ : p₁.get? l.slot = some (l.node (last none rest) none) := by
      rw [hp₁.other l.slot (by simpa using hne), hl]
      rfl
    obtain ⟨q, hnext, hlq, hq⟩ := exists_modify hl₁ (·.withNext (some e.slot)) rfl
    have heq : q.get? e.slot = some (e.node (some l.slot) none) := by
      rw [hq.other e.slot (by simpa using hne.symm), he₁]
      rfl
    have hpq : Relinked ([l, e].map Entry.slot) p q :=
      (hp₁.mono (by simp)).trans (hq.mono (by simp))
    rw [List.append_assoc] at hdistinct ⊢
    refine ⟨⟨lane.ttl, lane.head, e.slot, lane.length + 1⟩, q, ?_, rfl,
      ⟨?_, ?_, ?_, hdistinct, ?_⟩, hpq.mono (by simp)⟩
    · simp [Lane.push, hread, htail, hprev, hreadLast, hnext, Entry.node, sameTtl, hle]
    · rw [h.head, first_append, first_append]
      rfl
    · simp [last_append]
    · simp [h.length]
    · exact linked_append.mpr
        ⟨hrest.relinked hpq fun e' he' => slot_notMem hdistinct he', hlq, heq, trivial⟩

/-- Detaching erases an entry from anywhere in the chain and leaves its node without neighbours. -/
theorem detach (h : lane.Holds p (before ++ e :: after)) :
    ∃ lane' q, lane.detach p e.slot = .ok (lane', q) ∧ lane'.ttl = lane.ttl ∧
      lane'.Holds q (before ++ after) ∧ q.get? e.slot = some (e.node none none) ∧
      Relinked ((before ++ e :: after).map Entry.slot) p q := by
  obtain ⟨hbefore, he, hafter⟩ := linked_append.mp h.linked
  have hperm : (before ++ e :: after).Perm (e :: (before ++ after)) := List.perm_middle
  obtain ⟨hfresh, hdistinct⟩ := List.nodup_cons.mp ((hperm.map Entry.slot).nodup_iff.mp h.distinct)
  obtain ⟨hdistinctBefore, hdistinctAfter, -⟩ :=
    List.nodup_append.mp (List.map_append ▸ hdistinct)
  have happart : ∀ e' ∈ before ++ after, e'.slot ∉ [e.slot] := fun e' he' hmem =>
    hfresh (List.mem_singleton.mp hmem ▸ List.mem_map_of_mem he')
  -- First the node loses its links, then what is before it is mended, then what is after it.
  obtain ⟨p₁, hunlink, he₁, hp₁⟩ := exists_modify he Node.unlinked rfl
  have hhead : lane.head = first before (some e.slot) := by rw [h.head, first_append, first_cons]
  obtain ⟨p₂, hcloseBefore, hbefore₂, hp₂⟩ := exists_closeBefore hhead hdistinctBefore
    (hbefore.relinked hp₁ fun e' he' => happart e' (List.mem_append_left _ he')) (first after none)
  have hafter₂ : p₂.Linked (some e.slot) after none :=
    (hafter.relinked hp₁ fun e' he' => happart e' (List.mem_append_right _ he')).relinked hp₂
      fun e' he' => slot_notMem ((List.perm_append_comm.map Entry.slot).nodup_iff.mp hdistinct) he'
  have htail : { lane with head := first before (first after none) }.tail =
      last (some e.slot) after := by rw [h.tail, last_append, last_cons]
  obtain ⟨q, hcloseAfter, hafter₃, hq⟩ :=
    exists_closeAfter htail hdistinctAfter hafter₂ (last none before)
  have hbefore₃ : q.Linked none before (first after none) :=
    hbefore₂.relinked hq fun e' he' => slot_notMem hdistinct he'
  have heq : q.get? e.slot = some (e.node none none) := by
    rw [List.map_append, List.mem_append, not_or] at hfresh
    rw [hq.other _ hfresh.2, hp₂.other _ hfresh.1, he₁]
    rfl
  have hlength : lane.length = (before ++ after).length + 1 := by
    rw [h.length, hperm.length_eq, List.length_cons]
  refine ⟨⟨lane.ttl, first before (first after none), last (last none before) after,
    (before ++ after).length⟩, q, ?_, rfl, ⟨first_append.symm, last_append.symm, rfl, hdistinct,
    linked_append.mpr ⟨hbefore₃, hafter₃⟩⟩, heq, ?_⟩
  · simp only [Lane.detach, read_eq_ok_iff.mpr he, hunlink, Entry.node, Fault.ok_bind, hcloseBefore,
      hcloseAfter]
    rw [hlength]
    rfl
  · exact (hp₁.mono (by simp)).trans ((hp₂.mono (by simp)).trans (hq.mono (by simp)))

/-- Draining drops the longest beginning of the chain that is due and frees its slots. -/
theorem drainFor {turns : Nat} (h : lane.Holds p chain) (sound : p.Sound)
    (enough : chain.length ≤ turns) (horizon : Instant) :
    ∃ lane' q, Lane.drainFor turns horizon lane p =
        .ok ((chain.takeWhile (·.deadline ≤ horizon)).map Entry.toTimer, lane', q) ∧
      lane'.ttl = lane.ttl ∧ lane'.Holds q (chain.dropWhile (·.deadline ≤ horizon)) ∧ q.Sound ∧
      q.live + (chain.takeWhile (·.deadline ≤ horizon)).length = p.live ∧
      ∀ slot ∉ chain.map Entry.slot, q.get? slot = p.get? slot := by
  induction chain generalizing turns lane p with
  | nil =>
    have hhead : lane.head = none := h.head
    exact ⟨lane, p, by cases turns <;> simp [Lane.drainFor, hhead], rfl, h, sound, rfl,
      fun _ _ => rfl⟩
  | cons e rest ih =>
    obtain ⟨turns, rfl⟩ : ∃ n, turns = n + 1 := Nat.exists_eq_add_of_le' (by simp at enough; omega)
    have hhead : lane.head = some e.slot := h.head
    have hread : p.read e.slot = .ok (e.node none (first rest none)) :=
      read_eq_ok_iff.mpr h.linked.1
    by_cases hdue : e.deadline ≤ horizon
    · -- The head is detached and its slot is freed, and neither touches the rest of the chain.
      obtain ⟨lane₁, p₁, hdetach, httl, hlane₁, he₁, hp₁⟩ := @detach lane p [] rest e h
      obtain ⟨p₂, hremove, hsound₂, hlive₂, hget₂⟩ := (hp₁.sound sound).remove he₁
      have hrest : e.slot ∉ rest.map Entry.slot := (List.nodup_cons.mp h.distinct).1
      have hlane₂ : lane₁.Holds p₂ rest := hlane₁.congr fun e' he' => by
        have hne : e.slot ≠ e'.slot := fun heq => hrest (heq ▸ List.mem_map_of_mem he')
        rw [hget₂, if_neg hne]
      obtain ⟨lane', q, hdrain, httl', hlane', hsound, hlive, hother⟩ :=
        ih hlane₂ hsound₂ (Nat.le_of_succ_le_succ enough)
      refine ⟨lane', q, ?_, httl'.trans httl, ?_, hsound, ?_, fun slot hslot => ?_⟩
      · simp [Lane.drainFor, hhead, hread, Entry.node, Int64.not_lt.mpr hdue, hdetach, hremove,
          hdrain, hdue]
      · simpa [hdue] using hlane'
      · simp only [List.takeWhile_cons, hdue, decide_true, if_true, List.length_cons]
        have := hp₁.live
        omega
      · rw [List.map_cons, List.mem_cons, not_or] at hslot
        rw [hother slot hslot.2, hget₂, if_neg (Ne.symm hslot.1),
          hp₁.other slot (by simpa using hslot)]
    · refine ⟨lane, p, ?_, rfl, by simpa [hdue] using h, sound, by simp [hdue], fun _ _ => rfl⟩
      simp [Lane.drainFor, hhead, hread, Entry.node, Int64.not_le.mp hdue, hdue]

theorem drain (h : lane.Holds p chain) (sound : p.Sound) (horizon : Instant) :
    ∃ lane' q, lane.drain horizon p =
        .ok ((chain.takeWhile (·.deadline ≤ horizon)).map Entry.toTimer, lane', q) ∧
      lane'.ttl = lane.ttl ∧ lane'.Holds q (chain.dropWhile (·.deadline ≤ horizon)) ∧ q.Sound ∧
      q.live + (chain.takeWhile (·.deadline ≤ horizon)).length = p.live ∧
      ∀ slot ∉ chain.map Entry.slot, q.get? slot = p.get? slot :=
  h.drainFor sound (by rw [h.length]; exact Nat.le_succ _) horizon

/-- Walking along the links meets the slots of the chain, from its head to its tail. -/
theorem slots_eq (h : lane.Holds p chain) : lane.slots p = .ok (chain.map Entry.slot) := by
  have hwalk : ∀ (bound : Nat) (prev : Option Slot) (part : Ledger), part.length ≤ bound →
      p.Linked prev part none →
      slotsFrom p bound (first part none) = .ok (part.map Entry.slot) := by
    intro bound prev part
    induction part generalizing bound prev with
    | nil => intro _ _; cases bound <;> rfl
    | cons e rest ih =>
      intro hbound hlinked
      obtain ⟨bound, rfl⟩ : ∃ n, bound = n + 1 :=
        Nat.exists_eq_add_of_le' (by simp at hbound; omega)
      simp [slotsFrom, read_eq_ok_iff.mpr hlinked.1, Entry.node,
        ih bound _ (Nat.le_of_succ_le_succ hbound) hlinked.2]
  -- The chain has different slots of the pool, so the walk ends before its bound.
  have hsub : chain.map Entry.slot ⊆ List.range p.cells.size := by
    intro slot hslot
    obtain ⟨e, he, rfl⟩ := List.mem_map.mp hslot
    obtain ⟨prev, next, hget⟩ := h.linked.exists_node he
    exact List.mem_range.mpr (lt_size_of_get? hget)
  have hlength := (h.distinct.subperm hsub).length_le
  rw [List.length_map, List.length_range] at hlength
  rw [slots, h.head]
  exact hwalk _ none chain (Nat.le_succ_of_le hlength) h.linked

end Holds

end Lane

end Expiry
