import Expiry.Proofs.Ledger
import Expiry.Proofs.Agenda

/-!
# Stores and their ledgers

A store keeps a ledger if its lanes and its pool are those of the ledger, its index leads from each
identifier in the ledger to the slot beside it and from no other, and time has gone by the rule:
every timer was started at an instant that the store has acted at, and within a time to live the
timers are due in the order in which they were started. The order is why a lane need not be sorted,
and it holds because the store never acts at an instant before its latest one.

Starting and cancelling timers succeeds on a store that keeps a ledger, and each is described by
what it does to the ledger. Nothing further is needed to know what a store answers.

## Main definitions

* `Ledger.Indexed` — an index of the identifiers in a ledger
* `Ledger.Timely` — the deadlines are those of timers started one after the other
* `Ledger.byLane` — the entries of a ledger, one lane after the other
* `Store.Keeps` — the store is that of the ledger

## Main results

* `Store.Keeps.set`, `Store.Keeps.cancel`, `Store.Keeps.clear` — what the operations do to the
  ledger
* `Store.Keeps.deadline?_eq`, `Store.Keeps.contains_eq`, `Store.Keeps.size_eq`,
  `Store.Keeps.laneCount_eq` — what the ledger says is running
* `Store.Keeps.ofTtl_byLane`, `Store.Keeps.byLane_perm` — lane by lane nothing is lost
-/

namespace Expiry

open Pool

/-- Where identifiers are unique, dropping one identifier drops one element. -/
theorem filter_id_ne {α : Type} (id : α → Bytes) {before after : List α} {a : α}
    (ids : ((before ++ a :: after).map id).Nodup) :
    (before ++ a :: after).filter (fun b => id b ≠ id a) = before ++ after := by
  have hperm : (before ++ a :: after).Perm (a :: (before ++ after)) := List.perm_middle
  have hfresh := (List.nodup_cons.mp ((hperm.map id).nodup_iff.mp ids)).1
  have hother : ∀ b ∈ before ++ after, id b ≠ id a := fun b hb heq =>
    hfresh (List.mem_map.mpr ⟨b, hb, heq⟩)
  rw [List.filter_append, List.filter_cons_of_neg (by simp), ← List.filter_append,
    List.filter_eq_self]
  simpa using hother

namespace Ledger

variable {ledger before after : Ledger} {slots slots' : ByteMap Slot} {e : Entry} {id : Bytes}
variable {slot : Slot} {latest now : Instant}

/-! ### Indices -/

/-- The index leads from each identifier in the ledger to its slot, and from no other. -/
structure Indexed (ledger : Ledger) (slots : ByteMap Slot) : Prop where
  ids : (ledger.map (·.id)).Nodup
  slot_iff : ∀ {id slot}, slots[id]? = some slot ↔ ∃ e ∈ ledger, e.id = id ∧ e.slot = slot

namespace Indexed

theorem empty : Indexed [] ∅ := ⟨List.nodup_nil, by simp⟩

theorem eq_of_id_eq {e' : Entry} (h : ledger.Indexed slots) (he : e ∈ ledger) (he' : e' ∈ ledger)
    (same : e.id = e'.id) : e = e' :=
  List.inj_on_of_nodup_map h.ids he he' same

theorem getElem?_eq_none_iff (h : ledger.Indexed slots) :
    slots[id]? = none ↔ ∀ e ∈ ledger, e.id ≠ id := by
  constructor
  · intro hnone e he heq
    rw [h.slot_iff.mpr ⟨e, he, heq, rfl⟩] at hnone
    cases hnone
  · intro hall
    rw [Option.eq_none_iff_forall_ne_some]
    intro slot hslot
    obtain ⟨e, he, heq, -⟩ := h.slot_iff.mp hslot
    exact hall e he heq

/-- Dropping the identifiers for which `keep` fails from the index and from the ledger. -/
theorem restrict (h : ledger.Indexed slots) (keep : Bytes → Bool)
    (kept : ∀ id, slots'[id]? = if keep id then slots[id]? else none) :
    Indexed (ledger.filter (keep ·.id)) slots' := by
  refine ⟨(List.filter_sublist.map _).nodup h.ids, fun {id slot} => ?_⟩
  rw [kept]
  constructor
  · intro hslot
    split at hslot
    · next hkeep =>
      obtain ⟨e, he, rfl, rfl⟩ := h.slot_iff.mp hslot
      exact ⟨e, List.mem_filter.mpr ⟨he, hkeep⟩, rfl, rfl⟩
    · cases hslot
  · rintro ⟨e, he, rfl, rfl⟩
    obtain ⟨he, hkeep⟩ := List.mem_filter.mp he
    rw [if_pos hkeep]
    exact h.slot_iff.mpr ⟨e, he, rfl, rfl⟩

theorem erase (h : ledger.Indexed slots) (id : Bytes) :
    Indexed (ledger.filter (·.id ≠ id)) (slots.erase id) := by
  refine h.restrict (· ≠ id) fun id' => ?_
  rw [Std.TreeMap.getElem?_erase]
  by_cases heq : id = id'
  · simp [heq]
  · simp [heq, Ne.symm heq]

theorem append (h : ledger.Indexed slots) (fresh : ∀ e' ∈ ledger, e'.id ≠ e.id) :
    Indexed (ledger ++ [e]) (slots.insert e.id e.slot) := by
  refine ⟨?_, fun {id slot} => ?_⟩
  · rw [List.map_append, List.nodup_append]
    refine ⟨h.ids, by simp, fun id hid id' hid' => ?_⟩
    obtain ⟨e', he', rfl⟩ := List.mem_map.mp hid
    rw [List.map_singleton, List.mem_singleton] at hid'
    exact hid' ▸ fresh e' he'
  · rw [Std.TreeMap.getElem?_insert]
    by_cases heq : e.id = id
    · subst heq
      constructor
      · intro hslot
        rw [if_pos (by simp)] at hslot
        exact ⟨e, by simp, rfl, Option.some.inj hslot⟩
      · rintro ⟨e', he', hid, rfl⟩
        rcases List.mem_append.mp he' with he' | he'
        · exact absurd hid (fresh e' he')
        · rw [List.mem_singleton.mp he']
          simp
    · rw [if_neg (by simpa using heq), h.slot_iff]
      constructor
      · rintro ⟨e', he', hid⟩
        exact ⟨e', List.mem_append_left _ he', hid⟩
      · rintro ⟨e', he', hid⟩
        rcases List.mem_append.mp he' with he' | he'
        · exact ⟨e', he', hid⟩
        · rw [List.mem_singleton.mp he'] at hid
          exact absurd hid.1 heq

theorem getElem?_unindex (timers : List Timer) (slots : ByteMap Slot) (id : Bytes) :
    (Store.unindex slots timers)[id]? =
      if id ∈ timers.map (·.id) then none else slots[id]? := by
  induction timers generalizing slots with
  | nil => simp [Store.unindex]
  | cons timer rest ih =>
    rw [Store.unindex, List.foldl_cons, ← Store.unindex, ih, Std.TreeMap.getElem?_erase]
    by_cases heq : timer.id = id
    · simp [heq]
    · simp [heq, Ne.symm heq]

/-- Erasing the identifiers of some entries from the index leaves that of the other entries. -/
theorem unindex (h : ledger.Indexed slots) (gone : Entry → Bool) :
    Indexed (ledger.filter (!gone ·))
      (Store.unindex slots ((ledger.filter gone).map Entry.toTimer)) := by
  -- Identifiers are unique: an entry is gone exactly if its identifier is among those erased.
  have hids : ∀ e ∈ ledger,
      (!gone e) = decide (e.id ∉ ((ledger.filter gone).map Entry.toTimer).map (·.id)) := by
    intro e he
    cases hgone : gone e with
    | true =>
      refine (decide_eq_false ?_).symm
      rw [not_not, List.map_map]
      exact List.mem_map.mpr ⟨e, List.mem_filter.mpr ⟨he, hgone⟩, rfl⟩
    | false =>
      refine (decide_eq_true ?_).symm
      rw [List.map_map]
      intro hmem
      obtain ⟨e', he', hid⟩ := List.mem_map.mp hmem
      obtain ⟨he', hgone'⟩ := List.mem_filter.mp he'
      rw [h.eq_of_id_eq he' he hid, hgone] at hgone'
      cases hgone'
  rw [List.filter_congr hids]
  refine h.restrict
    (fun id => id ∉ ((ledger.filter gone).map Entry.toTimer).map (·.id)) fun id => ?_
  rw [getElem?_unindex]
  generalize ((ledger.filter gone).map Entry.toTimer).map (·.id) = ids
  by_cases hmem : id ∈ ids <;> simp [hmem]

theorem size_eq (h : ledger.Indexed slots) : slots.size = ledger.length := by
  have hperm : slots.keys.Perm (ledger.map (·.id)) := by
    have hnodup : slots.keys.Nodup := Std.TreeMap.nodup_keys
    refine (List.perm_ext_iff_of_nodup hnodup h.ids).mpr fun id => ?_
    rw [Std.TreeMap.mem_keys, Std.TreeMap.mem_iff_isSome_getElem?, Option.isSome_iff_exists]
    constructor
    · rintro ⟨slot, hslot⟩
      obtain ⟨e, he, rfl, -⟩ := h.slot_iff.mp hslot
      exact List.mem_map_of_mem he
    · intro hid
      obtain ⟨e, he, rfl⟩ := List.mem_map.mp hid
      exact ⟨e.slot, h.slot_iff.mpr ⟨e, he, rfl, rfl⟩⟩
  rw [← Std.TreeMap.length_keys, hperm.length_eq, List.length_map]

end Indexed

/-! ### Time -/

/-- Every timer was started at an instant up to `latest`, and those with the same time to live are
due in the order in which they were started. -/
structure Timely (ledger : Ledger) (latest : Instant) : Prop where
  ordered : ledger.Ordered
  started : ∀ e ∈ ledger, ∃ t ≤ latest, e.deadline = Instant.after t e.ttl

namespace Timely

theorem empty (latest : Instant) : Timely [] latest := ⟨List.Pairwise.nil, by simp⟩

theorem mono (h : ledger.Timely latest) (later : latest ≤ now) : ledger.Timely now where
  ordered := h.ordered
  started e he := by
    obtain ⟨t, ht, hdeadline⟩ := h.started e he
    exact ⟨t, Int64.le_trans ht later, hdeadline⟩

theorem filter (h : ledger.Timely latest) (keep : Entry → Bool) :
    Timely (ledger.filter keep) latest where
  ordered := List.Pairwise.filter keep h.ordered
  started e he := h.started e (List.mem_filter.mp he).1

/-- A timer started now is due no earlier than one started before with the same time to live. -/
theorem deadline_le (h : ledger.Timely now) (he : e ∈ ledger) :
    e.deadline ≤ Instant.after now e.ttl := by
  obtain ⟨t, ht, hdeadline⟩ := h.started e he
  rw [hdeadline]
  exact Instant.after_le_after ht e.ttl

/-- A deadline is no further away than the time to live can move an instant. -/
theorem toInt_sub_le_reach (h : ledger.Timely now) (he : e ∈ ledger) :
    e.deadline.toInt - now.toInt ≤ Instant.reach e.ttl := by
  obtain ⟨t, ht, hdeadline⟩ := h.started e he
  rw [Int64.le_iff_toInt_le] at ht
  rw [hdeadline, Instant.toInt_after]
  omega

/-- A deadline is never so far away that the time left is not exact. -/
theorem toInt_sub_le (h : ledger.Timely now) (he : e ∈ ledger) :
    e.deadline.toInt - now.toInt ≤ Instant.last.toInt :=
  Int.le_trans (h.toInt_sub_le_reach he) (Int.min_le_right _ _)

theorem append (h : ledger.Timely now) (started : e.deadline = Instant.after now e.ttl) :
    Timely (ledger ++ [e]) now where
  ordered := by
    refine List.pairwise_append.mpr ⟨h.ordered, List.pairwise_singleton _ _, fun l hl e' he' => ?_⟩
    obtain rfl := List.mem_singleton.mp he'
    intro hsame
    rw [started, ← hsame]
    exact h.deadline_le hl
  started e' he' := by
    rcases List.mem_append.mp he' with he' | he'
    · exact h.started e' he'
    · rw [List.mem_singleton.mp he']
      exact ⟨now, Int64.le_refl now, started⟩

end Timely

/-! ### Lane by lane -/

/-- The entries of some lanes, one lane after the other. -/
def byLane (ledger : Ledger) (part : List (Bytes × Lane)) : Ledger :=
  part.flatMap fun stored => ledger.ofTtl stored.2.ttl

/-- Of the entries with one time to live, those with another. -/
theorem ofTtl_ofTtl (ledger : Ledger) (ttl ttl' : UInt64) :
    (ledger.ofTtl ttl).ofTtl ttl' = if ttl = ttl' then ledger.ofTtl ttl' else [] := by
  split
  · next heq => simp [heq, ofTtl]
  · next hne =>
    refine List.filter_eq_nil_iff.mpr fun e he => ?_
    simpa [(mem_ofTtl.mp he).2] using hne

/-- Lanes with different times to live have the entries of those times to live, each once. -/
theorem ofTtl_byLane {part : List (Bytes × Lane)} (once : (part.map (·.2.ttl)).Nodup)
    (ttl : UInt64) :
    (ledger.byLane part).ofTtl ttl = if ttl ∈ part.map (·.2.ttl) then ledger.ofTtl ttl else [] := by
  induction part with
  | nil => rfl
  | cons stored part ih =>
    obtain ⟨hnew, honce⟩ := List.nodup_cons.mp once
    rw [byLane, List.flatMap_cons, ofTtl_append, ofTtl_ofTtl, ← byLane, ih honce]
    by_cases heq : stored.2.ttl = ttl
    · subst heq
      rw [if_pos rfl, if_neg hnew, List.append_nil, if_pos (by simp)]
    · rw [if_neg heq, List.nil_append, List.map_cons]
      simp only [List.mem_cons, Ne.symm heq, false_or]

end Ledger

/-! ### Lanes under their digits -/

section Lanes

variable {lanes : ByteMap Lane} {lane : Lane} {ttl : UInt64} {key : Bytes}

/-- The lane for `ttl`. -/
def laneOf (lanes : ByteMap Lane) (ttl : UInt64) : Option Lane := lanes[Bytes.decimal ttl]?

/-- Every lane stands under the decimal digits of its time to live. -/
def Keyed (lanes : ByteMap Lane) : Prop :=
  ∀ ⦃key lane⦄, lanes[key]? = some lane → key = Bytes.decimal lane.ttl

/-- Lanes under different digits have different times to live. -/
theorem nodup_ttls {part : List (Bytes × Lane)}
    (keyed : ∀ stored ∈ part, stored.1 = Bytes.decimal stored.2.ttl)
    (once : (part.map Prod.fst).Nodup) : (part.map (·.2.ttl)).Nodup := by
  refine List.Nodup.of_map Bytes.decimal ?_
  rw [List.map_map]
  exact List.map_congr_left keyed ▸ once

theorem Keyed.nodup_ttls (h : Keyed lanes) : (lanes.toList.map (·.2.ttl)).Nodup :=
  Expiry.nodup_ttls (fun _ hmem => h (ByteMap.getElem?_of_mem_toList hmem))
    lanes.nodup_map_fst_toList

/-- Put back what is kept of a lane. -/
def putBack (lanes : ByteMap Lane) (ttl : UInt64) (stored : Option Lane) : ByteMap Lane :=
  match stored with
  | some lane => lanes.insert (Bytes.decimal ttl) lane
  | none => lanes.erase (Bytes.decimal ttl)

theorem getElem?_putBack (lanes : ByteMap Lane) (ttl : UInt64) (stored : Option Lane)
    (key : Bytes) : (putBack lanes ttl stored)[key]? =
      if Bytes.decimal ttl = key then stored else lanes[key]? := by
  cases stored <;> simp [putBack, Std.TreeMap.getElem?_insert, Std.TreeMap.getElem?_erase]

theorem laneOf_putBack (lanes : ByteMap Lane) (ttl : UInt64) (stored : Option Lane) :
    laneOf (putBack lanes ttl stored) = Function.update (laneOf lanes) ttl stored := by
  funext ttl'
  rw [laneOf, getElem?_putBack, Function.update_apply]
  simp only [Bytes.decimal_inj, eq_comm (a := ttl)]
  rfl

theorem Keyed.putBack (h : Keyed lanes) {stored : Option Lane}
    (own : ∀ lane, stored = some lane → lane.ttl = ttl) : Keyed (putBack lanes ttl stored) := by
  intro key lane hlane
  rw [getElem?_putBack] at hlane
  split at hlane
  · next hkey => rw [← hkey, own lane hlane]
  · exact h hlane

end Lanes

namespace Store

variable {s : Store} {ledger loose : Ledger} {e : Entry} {id : Bytes} {ttl : UInt64}
variable {reading : Instant}

/-- The store is that of the ledger, with `loose` nodes outside of every lane. -/
structure Keeps (s : Store) (ledger : Ledger) (loose : Ledger := []) : Prop where
  filed : ledger.Filed loose (laneOf s.lanes) s.pool
  keyed : Keyed s.lanes
  indexed : ledger.Indexed s.slots
  timely : ledger.Timely s.latest

theorem le_instant (s : Store) (reading : Instant) : s.latest ≤ s.instant reading :=
  Instant.le_max_right reading s.latest

/-- The timer that is started for `id` now. -/
def timerFor (s : Store) (reading : Instant) (id : Bytes) (ttl : UInt64) : Timer :=
  { id, ttl, deadline := Instant.after (s.instant reading) ttl }

namespace Keeps

theorem empty (tolerance : UInt64) : (Store.empty tolerance).Keeps [] where
  filed := by
    have hlanes : laneOf (Store.empty tolerance).lanes = fun _ => none := by
      funext ttl
      simp [laneOf, Store.empty]
    rw [hlanes]
    exact .empty
  keyed := by
    intro key lane hlane
    simp [Store.empty] at hlane
  indexed := .empty
  timely := .empty _

theorem clear (s : Store) : s.clear.Keeps [] :=
  { Keeps.empty s.tolerance with timely := .empty _ }

/-! ### Lane by lane -/

/-- Every lane holds the entries with its time to live. -/
theorem holds (h : s.Keeps ledger loose) {key : Bytes} {lane : Lane}
    (hlane : s.lanes[key]? = some lane) :
    ledger.ofTtl lane.ttl ≠ [] ∧ lane.Holds s.pool (ledger.ofTtl lane.ttl) := by
  rw [h.keyed hlane] at hlane
  exact (h.filed.present hlane).2

/-- Lane by lane there are the same entries of each time to live as in the ledger. -/
theorem ofTtl_byLane (h : s.Keeps ledger loose) (ttl : UInt64) :
    (ledger.byLane s.lanes.toList).ofTtl ttl = ledger.ofTtl ttl := by
  rw [Ledger.ofTtl_byLane h.keyed.nodup_ttls]
  split
  · rfl
  · next hnot =>
    refine (h.filed.absent (Option.eq_none_iff_forall_ne_some.mpr fun lane hlane => hnot ?_)).symm
    exact List.mem_map.mpr ⟨_, Std.TreeMap.mem_toList_iff_getElem?_eq_some.mpr hlane,
      (h.filed.present hlane).1⟩

theorem byLane_perm (h : s.Keeps ledger loose) : (ledger.byLane s.lanes.toList).Perm ledger :=
  perm_of_filter_ttl_eq h.ofTtl_byLane

/-- Lane by lane the entries are in the order of the digits of their times to live. -/
theorem byLane_sorted (h : s.Keeps ledger loose) :
    (ledger.byLane s.lanes.toList).Pairwise fun a b => a.toTimer.ttlLe b.toTimer = true := by
  refine List.pairwise_flatMap.mpr ⟨fun stored hmem => ?_, ?_⟩
  · refine List.pairwise_of_forall_mem_list fun a ha b hb => ?_
    exact Timer.ttlLe_of_ttl_eq ((Ledger.mem_ofTtl.mp ha).2.trans (Ledger.mem_ofTtl.mp hb).2.symm)
  · refine Std.TreeMap.ordered_keys_toList.imp_of_mem ?_
    intro stored stored' hmem hmem' hlt a ha b hb
    rw [Timer.ttlLe, (Ledger.mem_ofTtl.mp ha).2, (Ledger.mem_ofTtl.mp hb).2,
      ← h.keyed (ByteMap.getElem?_of_mem_toList hmem),
      ← h.keyed (ByteMap.getElem?_of_mem_toList hmem'), Bytes.le, hlt]
    rfl

/-! ### What is running -/

theorem size_eq (h : s.Keeps ledger loose) : s.size = ledger.length := h.indexed.size_eq

theorem isEmpty_eq (h : s.Keeps ledger loose) : s.isEmpty = ledger.isEmpty := by
  rw [Store.isEmpty, Std.TreeMap.isEmpty_eq_size_eq_zero, h.indexed.size_eq]
  cases ledger <;> rfl

theorem contains_eq (h : s.Keeps ledger loose) (id : Bytes) :
    s.contains id = ledger.any (·.id = id) := by
  rw [Store.contains, Std.TreeMap.contains_eq_isSome_getElem?]
  cases hindex : s.slots[id]? with
  | none =>
    have hfresh := h.indexed.getElem?_eq_none_iff.mp hindex
    exact (List.any_eq_false.mpr fun e he => by simpa using hfresh e he).symm
  | some slot =>
    obtain ⟨e, he, hid, -⟩ := h.indexed.slot_iff.mp hindex
    exact (List.any_eq_true.mpr ⟨e, he, by simpa using hid⟩).symm

theorem deadline?_eq (h : s.Keeps ledger loose) (id : Bytes) :
    s.deadline? id = .ok ((ledger.find? (·.id = id)).map (·.deadline)) := by
  cases hindex : s.slots[id]? with
  | none =>
    have hfresh := h.indexed.getElem?_eq_none_iff.mp hindex
    have hnone : ledger.find? (·.id = id) = none :=
      List.find?_eq_none.mpr fun e he => by simpa using hfresh e he
    simp [Store.deadline?, hindex, hnone]
  | some slot =>
    obtain ⟨e, he, rfl, rfl⟩ := h.indexed.slot_iff.mp hindex
    obtain ⟨prev, next, hget⟩ := h.filed.exists_node (List.mem_append_left loose he)
    have hsome : ledger.find? (·.id = e.id) = some e := by
      obtain ⟨e', hfind⟩ := Option.isSome_iff_exists.mp
        (List.find?_isSome.mpr ⟨e, he, by simp⟩ : (ledger.find? (·.id = e.id)).isSome)
      have hid : e'.id = e.id := by simpa using List.find?_some hfind
      rw [hfind, h.indexed.eq_of_id_eq (List.mem_of_find?_eq_some hfind) he hid]
    simp [Store.deadline?, hindex, hsome, read_eq_ok_iff.mpr hget, Entry.node]

/-- There is one lane for each time to live in use. -/
theorem laneCount_eq (h : s.Keeps ledger loose) :
    s.laneCount = (ledger.map (·.ttl)).dedup.length := by
  -- The keys are the digits of the times to live in use, in some order.
  have hperm : s.lanes.keys.Perm ((ledger.map (·.ttl)).dedup.map Bytes.decimal) := by
    refine (List.perm_ext_iff_of_nodup Std.TreeMap.nodup_keys
      ((List.nodup_dedup _).map fun _ _ => Bytes.decimal_inj.mp)).mpr fun key => ?_
    rw [Std.TreeMap.mem_keys, Std.TreeMap.mem_iff_isSome_getElem?, Option.isSome_iff_exists]
    constructor
    · rintro ⟨lane, hlane⟩
      have hkey := h.keyed hlane
      subst hkey
      obtain ⟨e, he⟩ := List.exists_mem_of_ne_nil _ (h.filed.present hlane).2.1
      obtain ⟨he, httl⟩ := Ledger.mem_ofTtl.mp he
      exact List.mem_map_of_mem (List.mem_dedup.mpr (List.mem_map.mpr ⟨e, he, httl⟩))
    · intro hkey
      obtain ⟨ttl, httl, rfl⟩ := List.mem_map.mp hkey
      obtain ⟨e, he, rfl⟩ := List.mem_map.mp (List.mem_dedup.mp httl)
      exact h.filed.exists_lane he
  rw [Store.laneCount, ← Std.TreeMap.length_keys, hperm.length_eq, List.length_map]

/-! ### Removing a timer -/

/-- Releasing the slot of an entry removes its timer. -/
theorem release (h : s.Keeps ledger loose) (he : e ∈ ledger) :
    ∃ s', s.release e.slot = .ok (e.toTimer, s') ∧ s'.Keeps (ledger.filter (·.id ≠ e.id)) loose ∧
      s'.latest = s.latest ∧ s'.tolerance = s.tolerance := by
  obtain ⟨before, after, rfl⟩ := List.append_of_mem he
  obtain ⟨prev, next, hnode⟩ := h.filed.exists_node (List.mem_append_left loose he)
  obtain ⟨lane, lane', q, r, hlane, hdetach, hremove, httl, hfiled⟩ := h.filed.takeOut
  have hindex : s.slots[e.id]? = some e.slot := h.indexed.slot_iff.mpr ⟨e, he, rfl, rfl⟩
  have hledger : (before ++ e :: after).filter (·.id ≠ e.id) = before ++ after :=
    filter_id_ne (fun e : Entry => e.id) h.indexed.ids
  refine ⟨{ s with
    lanes := putBack s.lanes e.ttl lane'.kept
    slots := s.slots.erase e.id
    pool := r }, ?_, ⟨?_, h.keyed.putBack ?_, h.indexed.erase e.id, h.timely.filter _⟩, rfl, rfl⟩
  · have hlanes : (if lane'.isEmpty then s.lanes.erase (Bytes.decimal e.ttl)
        else s.lanes.insert (Bytes.decimal e.ttl) lane') = putBack s.lanes e.ttl lane'.kept := by
      cases hempty : lane'.isEmpty <;> simp [putBack, Lane.kept, hempty]
    rw [laneOf] at hlane
    simp [Store.release, read_eq_ok_iff.mpr hnode, Entry.node, hlane, hdetach, hremove,
      ByteMap.take, hindex, hlanes]
  · rw [hledger]
    show Ledger.Filed _ _ (laneOf (putBack _ _ _)) _
    rw [laneOf_putBack]
    exact hfiled
  · exact fun _ hkept => by rw [Lane.eq_of_kept hkept, httl]

/-- Whatever is running for an identifier can be released. -/
theorem vacate (h : s.Keeps ledger loose) (id : Bytes) :
    ∃ s', (s.slots[id]? = none ∧ s' = s ∨
        ∃ slot timer, s.slots[id]? = some slot ∧ s.release slot = .ok (timer, s')) ∧
      s'.Keeps (ledger.filter (·.id ≠ id)) loose ∧
      s'.latest = s.latest ∧ s'.tolerance = s.tolerance := by
  cases hindex : s.slots[id]? with
  | none =>
    have hfresh := h.indexed.getElem?_eq_none_iff.mp hindex
    have hall : ledger.filter (·.id ≠ id) = ledger :=
      List.filter_eq_self.mpr (by simpa using hfresh)
    exact ⟨s, Or.inl ⟨rfl, rfl⟩, by rw [hall]; exact h, rfl, rfl⟩
  | some slot =>
    obtain ⟨e, he, rfl, rfl⟩ := h.indexed.slot_iff.mp hindex
    obtain ⟨s', hrelease, hs'⟩ := h.release he
    exact ⟨s', Or.inr ⟨e.slot, e.toTimer, rfl, hrelease⟩, hs'⟩

theorem cancel (h : s.Keeps ledger) (id : Bytes) :
    ∃ s', s.cancel id = .ok s' ∧ s'.Keeps (ledger.filter (·.id ≠ id)) ∧
      s'.latest = s.latest ∧ s'.tolerance = s.tolerance := by
  obtain ⟨s', hvacate, hs'⟩ := h.vacate id
  refine ⟨s', ?_, hs'⟩
  rcases hvacate with ⟨hindex, rfl⟩ | ⟨slot, timer, hindex, hrelease⟩
  · simp [Store.cancel, hindex]
  · simp [Store.cancel, hindex, hrelease]

/-! ### Starting a timer -/

/-- A loose node for a new identifier is enlisted and indexed: its timer is started. -/
theorem enlist (h : s.Keeps ledger (e :: loose)) (fresh : ∀ e' ∈ ledger, e'.id ≠ e.id)
    (started : e.deadline = Instant.after s.latest e.ttl) :
    ∃ s' notes, s.enlist e.slot e.ttl = .ok (s', notes) ∧
      { s' with slots := s'.slots.insert e.id e.slot }.Keeps (ledger ++ [e]) loose ∧
      s'.latest = s.latest ∧ s'.tolerance = s.tolerance := by
  obtain ⟨lane', q, hpush, httl, hfiled⟩ := h.filed.push fun l hl hsame => by
    rw [started, ← hsame]
    exact h.timely.deadline_le hl
  -- Whether the lane is there or is opened, it comes back under its digits with one node more.
  let s' : Store := { s with lanes := putBack s.lanes e.ttl (some lane'), pool := q }
  have hs' : { s' with slots := s'.slots.insert e.id e.slot }.Keeps (ledger ++ [e]) loose := by
    refine ⟨?_, h.keyed.putBack ?_, h.indexed.append fresh, h.timely.append started⟩
    · show Ledger.Filed _ _ (laneOf (putBack _ _ _)) _
      rw [laneOf_putBack]
      exact hfiled
    · rintro lane'' ⟨⟩
      exact httl
  cases hlane : laneOf s.lanes e.ttl with
  | some lane =>
    rw [hlane, Option.getD_some] at hpush
    rw [laneOf] at hlane
    refine ⟨s', [], ?_, hs', rfl, rfl⟩
    simp [Store.enlist, hlane, hpush, putBack, s']
  | none =>
    rw [hlane, Option.getD_none] at hpush
    rw [laneOf] at hlane
    refine ⟨s', [.laneOpened e.ttl], ?_, hs', rfl, rfl⟩
    simp [Store.enlist, hlane, hpush, putBack, ByteMap.add, s']

/-- Starting a timer drops the one for the same identifier and appends a new one. -/
theorem set (h : s.Keeps ledger) (reading : Instant) (id : Bytes) (ttl : UInt64) :
    ∃ s' notes slot, s.set reading id ttl = .ok (s', notes) ∧
      s'.Keeps (ledger.filter (·.id ≠ id) ++ [⟨s.timerFor reading id ttl, slot⟩]) ∧
      s'.latest = s.instant reading ∧ s'.tolerance = s.tolerance := by
  rcases hinsert : s.pool.insert { toTimer := s.timerFor reading id ttl } with ⟨slot, pool⟩
  -- For a moment the store keeps the old ledger and has a loose node for the new timer.
  have h₁ : Keeps { s with pool, latest := s.instant reading } ledger
      [⟨s.timerFor reading id ttl, slot⟩] := by
    have hfiled := h.filed.insert (s.timerFor reading id ttl)
    rw [hinsert] at hfiled
    exact ⟨hfiled, h.keyed, h.indexed, h.timely.mono (s.le_instant reading)⟩
  obtain ⟨s₂, hvacate, h₂, hlatest₂, htolerance₂⟩ := h₁.vacate id
  obtain ⟨s₃, opened, henlist, h₃, hlatest₃, htolerance₃⟩ :=
    h₂.enlist (by simp [timerFor]) (by rw [hlatest₂]; rfl)
  have henlist : s₂.enlist slot ttl = .ok (s₃, opened) := henlist
  have hsize : s₃.pool.live = (s₃.slots.insert id slot).size :=
    h₃.filed.live.trans h₃.indexed.size_eq.symm
  suffices hset : ∃ notes, s.set reading id ttl =
      .ok ({ s₃ with slots := s₃.slots.insert id slot }, notes) by
    obtain ⟨notes, hset⟩ := hset
    exact ⟨_, notes, slot, hset, h₃, hlatest₃.trans hlatest₂, htolerance₃.trans htolerance₂⟩
  rw [timerFor] at hinsert
  rcases hvacate with ⟨hindex, rfl⟩ | ⟨old, timer, hindex, hrelease⟩
  · refine ⟨opened, ?_⟩
    simp [Store.set, hinsert, hindex, henlist, hsize, Store.size]
  · refine ⟨.refreshed id timer.ttl ttl :: opened, ?_⟩
    simp [Store.set, hinsert, hindex, hrelease, henlist, hsize, Store.size]

end Keeps

end Store

end Expiry
