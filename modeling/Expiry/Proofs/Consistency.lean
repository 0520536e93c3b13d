import Mathlib.Algebra.GroupWithZero.Nat
import Expiry.Proofs.Refinement

/-!
# The parts of a store stay in step

A store says everything several times over: the lanes, the links between nodes, the pool and the
index all know which timers are running. Here is what it means that they agree, said about the
store alone, without a ledger. It holds after any run of operations from an empty store, whatever
the clock shows in between.

## Main definitions

* `Lane.Strung` — the nodes from the head of a lane along its links, and what is in them
* `Store.Consistent` — lanes, links, pool and index agree

## Main results

* `Store.Keeps.consistent` — a store that keeps a ledger is consistent
* `Store.run_consistent` — no run of operations fails, and each leaves a consistent store
-/

namespace Expiry

open Pool

variable {lane : Lane} {p : Pool} {chain ledger : Ledger} {e : Entry} {i : Nat}

/-- From the head of the lane along the links one meets the nodes in `slots` and no other. They are
linked in both directions, have the lane's time to live, and are in the order of their deadlines. -/
structure Lane.Strung (lane : Lane) (p : Pool) (slots : List Slot) : Prop where
  walk : lane.slots p = .ok slots
  length : slots.length = lane.length
  distinct : slots.Nodup
  head : lane.head = slots.head?
  tail : lane.tail = slots.getLast?
  node : ∀ {i slot}, slots[i]? = some slot → ∃ node, p.get? slot = some node ∧
    node.ttl = lane.ttl ∧ node.next = slots[i + 1]? ∧
    node.prev = if i = 0 then none else slots[i - 1]?
  ordered : slots.Pairwise fun slot slot' => ∀ node node', p.get? slot = some node →
    p.get? slot' = some node' → node.deadline ≤ node'.deadline

/-- The lanes, the links between their nodes, the pool and the index agree. -/
structure Store.Consistent (s : Store) : Prop where
  /-- A lane stands under the digits of its time to live, and of no other. -/
  keyed : ∀ {key : Bytes} {lane : Lane} {ttl : UInt64},
    s.lanes[key]? = some lane → (key = Bytes.decimal ttl ↔ lane.ttl = ttl)
  nonempty : ∀ {key : Bytes} {lane : Lane}, s.lanes[key]? = some lane → 0 < lane.length
  strung : ∀ {key : Bytes} {lane : Lane},
    s.lanes[key]? = some lane → ∃ slots, lane.Strung s.pool slots
  /-- The index leads to every node of a lane, and nowhere else. -/
  indexed : ∀ {id : Bytes} {slot : Slot}, s.slots[id]? = some slot ↔
    ∃ (key : Bytes) (lane : Lane) (slots : List Slot) (node : Node), s.lanes[key]? = some lane ∧
      lane.slots s.pool = .ok slots ∧ slot ∈ slots ∧ s.pool.get? slot = some node ∧ node.id = id
  apart : ∀ {key key' : Bytes} {lane lane' : Lane} {slots slots' : List Slot},
    s.lanes[key]? = some lane → s.lanes[key']? = some lane' → lane.slots s.pool = .ok slots →
    lane'.slots s.pool = .ok slots' → key ≠ key' → slots.Disjoint slots'
  live : s.pool.live = s.slots.size
  total : s.slots.size = (s.lanes.toList.map fun stored => stored.2.length).sum

/-- The node at a position of a chain stands between those at the positions beside it. -/
theorem Pool.Linked.get?_of_getElem? (h : p.Linked none chain none) (he : chain[i]? = some e) :
    p.get? e.slot = some (e.node (if i = 0 then none else (chain[i - 1]?).map Entry.slot)
      ((chain[i + 1]?).map Entry.slot)) := by
  obtain ⟨hi, rfl⟩ := List.getElem?_eq_some_iff.mp he
  have hsplit : chain = chain.take i ++ chain[i] :: chain.drop (i + 1) := by simp
  have hlinked := h
  rw [hsplit, linked_append] at hlinked
  have hnode := hlinked.2.1
  rw [Ledger.first_none_eq, Ledger.last_none_eq, List.head?_drop, List.getLast?_take] at hnode
  rw [hnode]
  congr 2
  split
  · rfl
  · next hne =>
    have hlt : i - 1 < chain.length := by omega
    simp [List.getElem?_eq_getElem hlt]

theorem Lane.Holds.strung (h : lane.Holds p chain) (sameTtl : ∀ e ∈ chain, e.ttl = lane.ttl)
    (ordered : chain.Pairwise fun a b => a.deadline ≤ b.deadline) :
    lane.Strung p (chain.map Entry.slot) where
  walk := h.slots_eq
  length := by rw [List.length_map, h.length]
  distinct := h.distinct
  head := by rw [h.head, Ledger.first_none_eq, List.head?_map]
  tail := by rw [h.tail, Ledger.last_none_eq, List.getLast?_map]
  node {i slot} hslot := by
    rw [List.getElem?_map, Option.map_eq_some_iff] at hslot
    obtain ⟨e, he, rfl⟩ := hslot
    refine ⟨_, h.linked.get?_of_getElem? he, sameTtl e (List.mem_of_getElem? he), ?_, ?_⟩
    · rw [List.getElem?_map]
      rfl
    · rw [List.getElem?_map]
      rfl
  ordered := by
    refine List.pairwise_map.mpr (ordered.imp_of_mem ?_)
    intro a b ha hb hle node node' hnode hnode'
    obtain ⟨prev, next, hget⟩ := h.linked.exists_node ha
    obtain ⟨prev', next', hget'⟩ := h.linked.exists_node hb
    rw [hnode, Option.some.injEq] at hget
    rw [hnode', Option.some.injEq] at hget'
    rw [hget, hget']
    exact hle

namespace Store

variable {s : Store}

/-- The slots of a lane are those of the entries with its time to live. -/
theorem Keeps.exists_entry (h : s.Keeps ledger) {key : Bytes} {slots : List Slot} {slot : Slot}
    (hlane : s.lanes[key]? = some lane) (hslots : lane.slots s.pool = .ok slots)
    (hslot : slot ∈ slots) : ∃ e, (e ∈ ledger ∧ e.ttl = lane.ttl) ∧ e.slot = slot := by
  rw [(h.holds hlane).2.slots_eq, Except.ok.injEq] at hslots
  rw [← hslots, List.mem_map] at hslot
  obtain ⟨e, he, rfl⟩ := hslot
  exact ⟨e, Ledger.mem_ofTtl.mp he, rfl⟩

/-- A store that keeps a ledger is consistent. -/
theorem Keeps.consistent (h : s.Keeps ledger) : s.Consistent where
  keyed {key lane ttl} hlane := by
    rw [h.keyed hlane, Bytes.decimal_inj]
  nonempty {key lane} hlane := by
    obtain ⟨hne, hholds⟩ := h.holds hlane
    rw [hholds.length]
    exact List.length_pos_of_ne_nil hne
  strung {key lane} hlane := by
    have hsame : ∀ e ∈ ledger.ofTtl lane.ttl, e.ttl = lane.ttl := fun e he =>
      (Ledger.mem_ofTtl.mp he).2
    refine ⟨_, (h.holds hlane).2.strung hsame ?_⟩
    refine (List.Pairwise.filter _ h.timely.ordered).imp_of_mem fun {a b} ha hb hle => ?_
    exact hle ((hsame a ha).trans (hsame b hb).symm)
  indexed {id slot} := by
    rw [h.indexed.slot_iff]
    constructor
    · rintro ⟨e, he, rfl, rfl⟩
      obtain ⟨lane, hlane⟩ := h.filed.exists_lane he
      obtain ⟨httl, -, hholds⟩ := h.filed.present hlane
      have hmem : e ∈ ledger.ofTtl e.ttl := Ledger.mem_ofTtl.mpr ⟨he, rfl⟩
      obtain ⟨prev, next, hget⟩ := hholds.linked.exists_node hmem
      exact ⟨_, lane, _, _, hlane, hholds.slots_eq, List.mem_map_of_mem hmem, hget, rfl⟩
    · rintro ⟨key, lane, slots, node, hlane, hslots, hslot, hget, rfl⟩
      obtain ⟨e, he, rfl⟩ := h.exists_entry hlane hslots hslot
      obtain ⟨prev, next, hget'⟩ := h.filed.exists_node (List.mem_append_left [] he.1)
      rw [hget, Option.some.injEq] at hget'
      exact ⟨e, he.1, by rw [hget']; rfl, rfl⟩
  apart {key key' lane lane' slots slots'} hlane hlane' hslots hslots' hne := by
    -- A slot of both lanes would be that of one entry, with both times to live.
    intro slot hslot hslot'
    obtain ⟨e, ⟨he, httl⟩, rfl⟩ := h.exists_entry hlane hslots hslot
    obtain ⟨e', ⟨he', httl'⟩, hsame⟩ := h.exists_entry hlane' hslots' hslot'
    have heq : e' = e := Ledger.eq_of_slot_eq h.filed.distinct (List.mem_append_left [] he')
      (List.mem_append_left [] he) hsame
    rw [heq, httl] at httl'
    exact hne (by rw [h.keyed hlane, h.keyed hlane', httl'])
  live := h.filed.live.trans h.indexed.size_eq.symm
  total := by
    rw [h.indexed.size_eq, ← h.byLane_perm.length_eq, Ledger.byLane, List.length_flatMap]
    congr 1
    refine List.map_congr_left fun stored hmem => ?_
    rw [(h.holds (ByteMap.getElem?_of_mem_toList hmem)).2.length]

/-- No operation of any run from an empty store fails, and after each the store is consistent. -/
theorem run_consistent (tolerance : UInt64) (steps : List (Instant × Operation)) :
    ∃ answers s, (Store.empty tolerance).run steps = .ok (answers, s) ∧ s.Consistent := by
  obtain ⟨s, hrun, ledger, hkeeps, -⟩ := (Follows.empty tolerance).run steps
  exact ⟨_, s, hrun, hkeeps.consistent⟩

end Store

end Expiry
