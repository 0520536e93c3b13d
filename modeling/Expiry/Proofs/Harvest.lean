import Expiry.Proofs.Store

/-!
# Harvests

A harvest drains the lanes one after the other. In the middle of it some lanes have been drained and
put aside, and the others are as they were; together they are still lanes of one ledger, from which
what has been drained is erased. After the last lane nothing that is due is left, and what came out
is what was due, by time to live.

## Main definitions

* `midway` — the lanes in the middle of a harvest
* `Ledger.Harvesting` — the lanes, the index and the pool in the middle of a harvest

## Main results

* `Ledger.Harvesting.drainLane` — draining one lane more
* `Ledger.Harvesting.drainLanes` — draining all lanes that are left
* `Store.Keeps.harvest` — what a harvest returns and leaves
-/

namespace Expiry

open Pool

variable {lanes kept : ByteMap Lane} {part : List (Bytes × Lane)} {stored : Bytes × Lane}
variable {lane : Lane} {ledger : Ledger} {slots : ByteMap Slot} {pool : Pool} {ttl : UInt64}
variable {horizon latest : Instant}

/-- The lane for `ttl` in the middle of a harvest: those in `part` are as they were, and of the
others there is what was kept. -/
def midway (lanes kept : ByteMap Lane) (part : List (Bytes × Lane)) (ttl : UInt64) : Option Lane :=
  if Bytes.decimal ttl ∈ part.map Prod.fst then laneOf lanes ttl else laneOf kept ttl

/-- Putting aside what stays of a lane changes the lane for its time to live only. -/
theorem midway_addStaying {key : Bytes} {stays : Option Lane} (keyed : key = Bytes.decimal ttl)
    (new : key ∉ part.map Prod.fst) (fresh : kept[key]? = none) :
    Function.update (midway lanes kept ((key, lane) :: part)) ttl stays =
      midway lanes (kept.addStaying key stays) part := by
  funext ttl'
  rw [Function.update_apply, midway, midway, laneOf, laneOf, laneOf,
    ByteMap.getElem?_addStaying fresh]
  by_cases heq : ttl' = ttl
  · rw [if_pos heq, heq, ← keyed, if_neg new, if_pos rfl]
  · have hne : key ≠ Bytes.decimal ttl' := fun hsame =>
      heq (Bytes.decimal_inj.mp (hsame.symm.trans keyed))
    rw [if_neg heq, if_neg hne]
    simp only [List.map_cons, List.mem_cons, hne.symm, false_or]

theorem Keyed.addStaying {key : Bytes} {stays : Option Lane} (h : Keyed kept)
    (fresh : kept[key]? = none) (own : ∀ lane, stays = some lane → key = Bytes.decimal lane.ttl) :
    Keyed (kept.addStaying key stays) := by
  intro key' lane hlane
  rw [ByteMap.getElem?_addStaying fresh] at hlane
  split at hlane
  · next heq => exact heq ▸ own lane hlane
  · exact h hlane

namespace Ledger

/-- In the middle of a harvest the lanes in `part` are still to be drained. -/
structure Harvesting (ledger : Ledger) (lanes kept : ByteMap Lane) (part : List (Bytes × Lane))
    (slots : ByteMap Slot) (pool : Pool) (latest : Instant) : Prop where
  filed : ledger.Filed [] (midway lanes kept part) pool
  keyed : Keyed kept
  indexed : ledger.Indexed slots
  timely : ledger.Timely latest
  toDrain : ∀ stored ∈ part,
    lanes[stored.1]? = some stored.2 ∧ stored.1 = Bytes.decimal stored.2.ttl
  once : (part.map Prod.fst).Nodup
  aside : ∀ stored ∈ part, kept[stored.1]? = none

namespace Harvesting

/-- Draining one lane erases what is due in it, and puts aside what is kept of it. -/
theorem drainLane {key : Bytes}
    (h : ledger.Harvesting lanes kept ((key, lane) :: part) slots pool latest) (due : List Timer)
    (horizon : Instant) :
    ∃ slots' pool' stays, Store.harvestLane horizon (due, slots, pool) lane =
        .ok ((due ++ ((ledger.ofTtl lane.ttl).filter (·.deadline ≤ horizon)).map Entry.toTimer,
          slots', pool'), stays) ∧
      Harvesting (ledger.filter fun e => ¬(e.ttl = lane.ttl ∧ e.deadline ≤ horizon)) lanes
        (kept.addStaying key stays) part slots' pool' latest := by
  obtain ⟨hlane, hkey⟩ := h.toDrain (key, lane) (by simp)
  obtain ⟨hnew, honce⟩ := List.nodup_cons.mp h.once
  have hfresh : kept[key]? = none := h.aside (key, lane) (by simp)
  have hmidway : midway lanes kept ((key, lane) :: part) lane.ttl = some lane := by
    rw [midway, if_pos (by simp [← hkey]), laneOf, ← hkey]
    exact hlane
  obtain ⟨lane', q, hdrain, httl, hfiled⟩ := h.filed.drain h.timely.ordered hmidway horizon
  rw [midway_addStaying hkey hnew hfresh] at hfiled
  have hkeyed : Keyed (kept.addStaying key lane'.kept) := by
    refine h.keyed.addStaying hfresh fun _ hkept => ?_
    rw [Lane.eq_of_kept hkept, httl]
    exact hkey
  have hindexed := h.indexed.unindex fun e => e.ttl = lane.ttl ∧ e.deadline ≤ horizon
  simp only [← filter_ofTtl, ← decide_not] at hindexed
  refine ⟨_, q, lane'.kept, ?_, hfiled, hkeyed, hindexed, h.timely.filter _,
    fun stored hmem => h.toDrain stored (List.mem_cons_of_mem _ hmem), honce,
    fun stored hmem => ?_⟩
  · simp [Store.harvestLane, hdrain, Lane.kept]
  · have hne : key ≠ stored.1 := fun heq => hnew (List.mem_map.mpr ⟨stored, hmem, heq.symm⟩)
    rw [ByteMap.getElem?_addStaying hfresh, if_neg hne]
    exact h.aside stored (List.mem_cons_of_mem _ hmem)

/-- Draining all lanes that are left erases what is due in them. -/
theorem drainLanes (h : ledger.Harvesting lanes kept part slots pool latest) (due : List Timer)
    (horizon : Instant) :
    ∃ slots' pool' kept', part.foldlM (fun acc stored => do
        let (state, stays) ← Store.harvestLane horizon acc.1 stored.2
        return (state, acc.2.addStaying stored.1 stays)) ((due, slots, pool), kept) =
        (.ok ((due ++ ((ledger.byLane part).filter (·.deadline ≤ horizon)).map Entry.toTimer,
          slots', pool'), kept') : Except Fault _) ∧
      Harvesting (ledger.filter fun e => ¬(e.ttl ∈ part.map (·.2.ttl) ∧ e.deadline ≤ horizon))
        lanes kept' [] slots' pool' latest := by
  induction part generalizing ledger slots pool kept due with
  | nil => exact ⟨slots, pool, kept, by simp [byLane], by simpa using h⟩
  | cons stored part ih =>
    obtain ⟨key, lane⟩ := stored
    obtain ⟨slots₁, pool₁, stays, hdrain, h₁⟩ := h.drainLane due horizon
    obtain ⟨slots', pool', kept', hrest, h'⟩ := ih h₁
      (due ++ ((ledger.ofTtl lane.ttl).filter (·.deadline ≤ horizon)).map Entry.toTimer)
    -- The lanes to come have other times to live: what is drained here leaves their entries alone.
    have hother : ∀ stored ∈ part, stored.2.ttl ≠ lane.ttl := fun stored hmem heq =>
      (List.nodup_cons.mp (nodup_ttls (fun stored hmem => (h.toDrain stored hmem).2) h.once)).1
        (List.mem_map.mpr ⟨stored, hmem, heq⟩)
    have hlanes : byLane (ledger.filter fun e => ¬(e.ttl = lane.ttl ∧ e.deadline ≤ horizon)) part =
        ledger.byLane part :=
      List.flatMap_congr fun stored hmem => ofTtl_filter_not _ (hother stored hmem)
    have hfilter : (ledger.filter fun e => ¬(e.ttl = lane.ttl ∧ e.deadline ≤ horizon)).filter
        (fun e => ¬(e.ttl ∈ part.map (·.2.ttl) ∧ e.deadline ≤ horizon)) =
        ledger.filter fun e =>
          ¬(e.ttl ∈ ((key, lane) :: part).map (·.2.ttl) ∧ e.deadline ≤ horizon) := by
      rw [List.filter_filter]
      refine List.filter_congr fun e _ => ?_
      rw [← Bool.decide_and, decide_eq_decide, List.map_cons, List.mem_cons]
      tauto
    refine ⟨slots', pool', kept', ?_, hfilter ▸ h'⟩
    rw [hlanes] at hrest
    rw [byLane, List.flatMap_cons, List.filter_append, List.map_append, ← List.append_assoc]
    refine Eq.trans ?_ hrest
    rw [List.foldlM_cons]
    simp only [hdrain, Fault.ok_bind, Fault.pure_eq_ok]

/-- Before the first lane is drained. -/
theorem ofKeeps {s : Store} (h : s.Keeps ledger) {now : Instant} (later : s.latest ≤ now) :
    ledger.Harvesting s.lanes ∅ s.lanes.toList s.slots s.pool now := by
  have hlanes : midway s.lanes ∅ s.lanes.toList = laneOf s.lanes := by
    funext ttl
    rw [midway]
    split
    · rfl
    · next hnot =>
      rw [Std.TreeMap.map_fst_toList_eq_keys, Std.TreeMap.mem_keys,
        Std.TreeMap.mem_iff_isSome_getElem?, Option.not_isSome_iff_eq_none] at hnot
      simp [laneOf, hnot]
  exact {
    filed := hlanes ▸ h.filed
    keyed := fun key lane hlane => by simp at hlane
    indexed := h.indexed
    timely := h.timely.mono later
    toDrain := fun stored hmem =>
      ⟨ByteMap.getElem?_of_mem_toList hmem, h.keyed (ByteMap.getElem?_of_mem_toList hmem)⟩
    once := s.lanes.nodup_map_fst_toList
    aside := by simp }

end Harvesting

end Ledger

namespace Store.Keeps

variable {s : Store}

/-- What is due lane by lane is what is due of the whole ledger, by time to live. -/
theorem byLane_due (h : s.Keeps ledger) (horizon : Instant) :
    (ledger.byLane s.lanes.toList).filter (·.deadline ≤ horizon) =
      dueBy Entry.toTimer horizon ledger := by
  refine eq_dueBy (h.byLane_sorted.filter _) fun ttl => ?_
  have hsame := congrArg (List.filter (·.deadline ≤ horizon)) (h.ofTtl_byLane ttl)
  rw [Ledger.ofTtl, Ledger.ofTtl, List.filter_comm] at hsame
  rw [hsame, List.filter_comm]

/-- A harvest removes what is due, and time goes on to the instant of the harvest. -/
theorem harvest (h : s.Keeps ledger) (reading : Instant) :
    ∃ s' notes, s.harvest reading =
        .ok ((dueBy Entry.toTimer (s.horizon (s.instant reading)) ledger).map Entry.toTimer, s',
          notes) ∧
      s'.Keeps (ledger.filter (s.horizon (s.instant reading) < ·.deadline)) ∧
      s'.latest = s.instant reading ∧ s'.tolerance = s.tolerance := by
  have hharvesting := Ledger.Harvesting.ofKeeps h (s.le_instant reading)
  obtain ⟨slots', pool', kept', hfold, h'⟩ :=
    hharvesting.drainLanes [] (s.horizon (s.instant reading))
  -- Every entry has a lane, so draining all lanes drops all that is due.
  have hrest : (ledger.filter fun e => ¬(e.ttl ∈ s.lanes.toList.map (·.2.ttl) ∧
      e.deadline ≤ s.horizon (s.instant reading))) =
      ledger.filter (s.horizon (s.instant reading) < ·.deadline) := by
    refine List.filter_congr fun e he => ?_
    obtain ⟨lane, hlane⟩ := h.filed.exists_lane he
    have hmem : e.ttl ∈ s.lanes.toList.map (·.2.ttl) := List.mem_map.mpr
      ⟨_, Std.TreeMap.mem_toList_iff_getElem?_eq_some.mpr hlane, (h.filed.present hlane).1⟩
    rw [decide_eq_decide, ← Int64.not_le]
    simp [hmem]
  rw [hrest] at h'
  rw [h.byLane_due, List.nil_append] at hfold
  have hsweep := (ByteMap.sweepM_eq s.lanes (fun state _ lane =>
    harvestLane (s.horizon (s.instant reading)) state lane) ([], s.slots, s.pool)).trans hfold
  have hdone : ∃ notes, s.harvest reading =
      .ok ((dueBy Entry.toTimer (s.horizon (s.instant reading)) ledger).map Entry.toTimer,
        { s with lanes := kept', slots := slots', pool := pool', latest := s.instant reading },
        notes) := by
    simp only [Store.harvest, hsweep, Fault.ok_bind, Fault.pure_eq_ok]
    exact ⟨_, rfl⟩
  obtain ⟨notes, hok⟩ := hdone
  exact ⟨_, notes, hok, ⟨h'.filed, h'.keyed, h'.indexed, h'.timely⟩, rfl, rfl⟩

end Store.Keeps

end Expiry
