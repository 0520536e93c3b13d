import Expiry.Proofs.Store

/-!
# What is due next

A store looks for the timer that is due next at the heads of its lanes only. That is enough because
nothing in a lane is due before its head, and of heads that are due at once the first one met is
that of the time to live that comes first in the order of digits. So the store finds the same entry
as a search through its whole ledger.

## Main definitions

* `Ledger.heads`, `Ledger.pick` — the entries at the heads of the lanes, and the choice between two

## Main results

* `Store.Keeps.soonest` — the store finds the soonest entry of its ledger
* `Store.Keeps.nextDeadline?_eq`, `Store.Keeps.timeLeft?_eq` — when that is due
* `Store.Keeps.popSoonest` — popping removes it
-/

namespace Expiry

open Pool

/-- What a store looks at of an entry when it looks for the timer due next. -/
def Entry.found (e : Entry) : Slot × Instant := (e.slot, e.deadline)

namespace Ledger

variable {ledger hs : Ledger} {e h : Entry} {ttl : UInt64} {part : List (Bytes × Lane)}

/-- The entries at the heads of some lanes. -/
def heads (ledger : Ledger) (part : List (Bytes × Lane)) : Ledger :=
  part.filterMap fun stored => (ledger.ofTtl stored.2.ttl).head?

/-- The better of the best head so far and the head of the next lane. A tie stays with the first. -/
def pick (best : Option Entry) (h : Entry) : Option Entry :=
  match best with
  | none => some h
  | some b => if h.deadline < b.deadline then some h else some b

theorem heads_cons {stored : Bytes × Lane} {rest : Ledger}
    (chain : ledger.ofTtl stored.2.ttl = e :: rest) :
    ledger.heads (stored :: part) = e :: ledger.heads part := by
  refine List.filterMap_cons_some ?_
  rw [chain]
  rfl

/-- The heads of the lanes are among their entries, in the same order. -/
theorem heads_sublist (ledger : Ledger) (part : List (Bytes × Lane)) :
    (ledger.heads part).Sublist (ledger.byLane part) := by
  induction part with
  | nil => exact List.Sublist.refl _
  | cons stored part ih =>
    rw [byLane, List.flatMap_cons]
    cases hchain : ledger.ofTtl stored.2.ttl with
    | nil =>
      rw [heads, List.filterMap_cons_none (by rw [hchain]; rfl)]
      exact ih
    | cons e rest =>
      rw [heads_cons hchain]
      exact (ih.trans (List.sublist_append_right rest _)).cons_cons e

theorem Ordered.before_of_ofTtl (ordered : ledger.Ordered) {rest : Ledger}
    (first : ledger.ofTtl ttl = h :: rest) (he : e ∈ ledger) (httl : e.ttl = ttl) :
    h.toTimer.before e.toTimer = true := by
  have hmem : e ∈ h :: rest := first ▸ mem_ofTtl.mpr ⟨he, httl⟩
  have hh : h.ttl = ttl := (mem_ofTtl.mp (first ▸ List.mem_cons_self : h ∈ ledger.ofTtl ttl)).2
  rcases List.mem_cons.mp hmem with rfl | hmem
  · exact Timer.before_refl _
  · have hpair := List.Pairwise.filter (fun e => decide (e.ttl = ttl)) ordered
    rw [show ledger.filter (fun e => decide (e.ttl = ttl)) = h :: rest from first] at hpair
    have hle := (List.pairwise_cons.mp hpair).1 e hmem (hh.trans httl.symm)
    exact Timer.before_of_deadline_le hle (Timer.ttlLe_of_ttl_eq (hh.trans httl.symm))

/-- Of heads in the order of their times to live, picking leaves the one that is due next. -/
theorem foldl_pick_some (b : Entry)
    (sorted : (b :: hs).Pairwise fun a c => a.toTimer.ttlLe c.toTimer) :
    ∃ e ∈ b :: hs, hs.foldl pick (some b) = some e ∧
      ∀ a ∈ b :: hs, e.toTimer.before a.toTimer = true := by
  induction hs generalizing b with
  | nil => exact ⟨b, by simp, rfl, by simpa using Timer.before_refl _⟩
  | cons h rest ih =>
    obtain ⟨hb, hrest⟩ := List.pairwise_cons.mp sorted
    by_cases hlt : h.deadline < b.deadline
    · obtain ⟨e, he, hfold, hleast⟩ := ih h hrest
      refine ⟨e, List.mem_cons_of_mem _ he, by rw [List.foldl_cons, pick, if_pos hlt, hfold], ?_⟩
      intro a ha
      rcases List.mem_cons.mp ha with rfl | ha
      · exact Timer.before_trans (hleast h (by simp)) (by simp [Timer.before, hlt])
      · exact hleast a ha
    · obtain ⟨hh, hrest'⟩ := List.pairwise_cons.mp hrest
      obtain ⟨e, he, hfold, hleast⟩ := ih b
        (List.pairwise_cons.mpr ⟨fun a ha => hb a (List.mem_cons_of_mem _ ha), hrest'⟩)
      refine ⟨e, ?_, by rw [List.foldl_cons, pick, if_neg hlt, hfold], ?_⟩
      · rcases List.mem_cons.mp he with rfl | he <;> simp [*]
      · intro a ha
        rcases List.mem_cons.mp ha with rfl | ha
        · exact hleast a (by simp)
        rcases List.mem_cons.mp ha with rfl | ha
        · exact Timer.before_trans (hleast b (by simp))
            (Timer.before_of_deadline_le (Int64.not_lt.mp hlt) (hb a (by simp)))
        · exact hleast a (List.mem_cons_of_mem _ ha)

end Ledger

namespace Store.Keeps

variable {s : Store} {ledger : Ledger}

/-- No lane is empty: it has a head, which is the first entry with its time to live. -/
theorem exists_head (h : s.Keeps ledger) {key : Bytes} {lane : Lane}
    (hlane : s.lanes[key]? = some lane) :
    ∃ e rest, ledger.ofTtl lane.ttl = e :: rest ∧ lane.head = some e.slot ∧
      ∃ prev next, s.pool.read e.slot = .ok (e.node prev next) := by
  obtain ⟨hne, hholds⟩ := h.holds hlane
  obtain ⟨e, rest, hchain⟩ := List.exists_cons_of_ne_nil hne
  rw [hchain] at hholds
  exact ⟨e, rest, hchain, hholds.head, _, _, read_eq_ok_iff.mpr hholds.linked.1⟩

/-- Every entry at the head of a lane is the first with its time to live. -/
theorem ofTtl_of_mem_heads (h : s.Keeps ledger) {e : Entry}
    (he : e ∈ ledger.heads s.lanes.toList) :
    e ∈ ledger ∧ ∃ rest, ledger.ofTtl e.ttl = e :: rest := by
  obtain ⟨⟨key, lane⟩, hstored, hhead⟩ := List.mem_filterMap.mp he
  obtain ⟨e', rest, hchain, -⟩ := h.exists_head (ByteMap.getElem?_of_mem_toList hstored)
  rw [hchain, List.head?_cons, Option.some.injEq] at hhead
  subst hhead
  have hofTtl : e' ∈ ledger.ofTtl lane.ttl := hchain ▸ List.mem_cons_self
  obtain ⟨hmem, httl⟩ := Ledger.mem_ofTtl.mp hofTtl
  exact ⟨hmem, rest, by rw [httl, hchain]⟩

/-- No entry is due before the one at the head of its lane. -/
theorem exists_before_of_mem (h : s.Keeps ledger) {e : Entry} (he : e ∈ ledger) :
    ∃ e' ∈ ledger.heads s.lanes.toList, e'.toTimer.before e.toTimer = true := by
  obtain ⟨lane, hlane⟩ := h.filed.exists_lane he
  obtain ⟨e', rest, hchain, -⟩ := h.exists_head hlane
  have httl := (h.filed.present hlane).1
  refine ⟨e', List.mem_filterMap.mpr ⟨(Bytes.decimal e.ttl, lane), ?_, by rw [hchain]; rfl⟩,
    h.timely.ordered.before_of_ofTtl hchain he httl.symm⟩
  exact Std.TreeMap.mem_toList_iff_getElem?_eq_some.mpr hlane

theorem heads_sorted (h : s.Keeps ledger) :
    (ledger.heads s.lanes.toList).Pairwise fun a b => a.toTimer.ttlLe b.toTimer = true :=
  h.byLane_sorted.sublist (ledger.heads_sublist _)

/-- Of the heads of the lanes, picking leaves the entry that is due next. -/
theorem foldl_pick_heads (h : s.Keeps ledger) :
    (ledger.heads s.lanes.toList).foldl Ledger.pick none = soonest? Entry.toTimer ledger := by
  cases hheads : ledger.heads s.lanes.toList with
  | nil =>
    have hnil : ledger = [] := List.eq_nil_iff_forall_not_mem.mpr fun e he => by
      obtain ⟨e', he', -⟩ := h.exists_before_of_mem he
      rw [hheads] at he'
      cases he'
    subst hnil
    rfl
  | cons b rest =>
    -- The head that is picked is before the head of each lane, and so before all that is in it.
    obtain ⟨e, he, hpick, hleast⟩ := Ledger.foldl_pick_some b (hheads ▸ h.heads_sorted)
    rw [← hheads] at he hleast
    obtain ⟨-, rest, hchain⟩ := h.ofTtl_of_mem_heads he
    obtain ⟨before, after, rfl, hbefore, -⟩ := List.filter_eq_cons_iff.mp hchain
    refine hpick.trans (eq_soonest? rfl (fun e' he' => ?_) (by simpa using hbefore)).symm
    obtain ⟨e'', he'', hle⟩ := h.exists_before_of_mem he'
    exact Timer.before_trans (hleast e'' he'') hle

/-- Looking at one more lane picks its head, if that is sooner than what was found so far. -/
theorem sooner_eq (h : s.Keeps ledger) {key : Bytes} {lane : Lane}
    (hlane : s.lanes[key]? = some lane) (best : Option Entry) :
    ∃ e rest, ledger.ofTtl lane.ttl = e :: rest ∧
      sooner s.pool (best.map Entry.found) lane = .ok ((Ledger.pick best e).map Entry.found) := by
  obtain ⟨e, rest, hchain, hhead, prev, next, hread⟩ := h.exists_head hlane
  refine ⟨e, rest, hchain, ?_⟩
  cases best with
  | none => simp [sooner, hhead, hread, Entry.node, Ledger.pick, Entry.found]
  | some b =>
    by_cases hlt : e.deadline < b.deadline
    · simp [sooner, hhead, hread, Entry.node, Ledger.pick, Entry.found, hlt]
    · simp [sooner, hhead, hread, Entry.node, Ledger.pick, Entry.found, hlt]

/-- Looking at lane after lane picks among their heads. -/
theorem foldlM_sooner (h : s.Keeps ledger) {part : List (Bytes × Lane)}
    (stored : ∀ stored ∈ part, s.lanes[stored.1]? = some stored.2) (best : Option Entry) :
    part.foldlM (fun best stored => sooner s.pool best stored.2) (best.map Entry.found) =
      .ok (((ledger.heads part).foldl Ledger.pick best).map Entry.found) := by
  induction part generalizing best with
  | nil => rfl
  | cons first part ih =>
    obtain ⟨e, rest, hchain, hsooner⟩ := h.sooner_eq (stored first List.mem_cons_self) best
    rw [List.foldlM_cons, hsooner, Fault.ok_bind, Ledger.heads_cons hchain, List.foldl_cons]
    exact ih (fun stored' hmem => stored stored' (List.mem_cons_of_mem _ hmem)) _

/-- The store finds the soonest entry of its ledger. -/
theorem soonest (h : s.Keeps ledger) :
    s.soonest = .ok ((soonest? Entry.toTimer ledger).map Entry.found) := by
  rw [← h.foldl_pick_heads, Store.soonest, Std.TreeMap.foldlM_eq_foldlM_toList]
  exact h.foldlM_sooner (fun _ hmem => ByteMap.getElem?_of_mem_toList hmem) none

theorem nextDeadline?_eq (h : s.Keeps ledger) :
    s.nextDeadline? = .ok ((ledger.map (·.deadline)).min?) := by
  have hleast : (soonest? Entry.toTimer ledger).map (·.deadline) =
      (ledger.map (·.deadline)).min? := deadline_soonest?
  simp [Store.nextDeadline?, h.soonest, Entry.found, ← hleast, Function.comp_def]

/-- The time left is the exact difference to the next deadline. -/
theorem timeLeft?_eq (h : s.Keeps ledger) (reading : Instant) :
    s.timeLeft? reading = .ok ((ledger.map (·.deadline)).min?.map fun t =>
      UInt64.ofNat (t.toInt - (s.instant reading).toInt).toNat) := by
  have hmap : (ledger.map (·.deadline)).min?.map (s.instant reading).remaining =
      (ledger.map (·.deadline)).min?.map fun t =>
        UInt64.ofNat (t.toInt - (s.instant reading).toInt).toNat := by
    refine Option.map_congr fun t ht => ?_
    obtain ⟨e, he, rfl⟩ := List.mem_map.mp (List.min?_mem ht)
    exact Instant.remaining_eq ((h.timely.mono (s.le_instant reading)).toInt_sub_le he)
  rw [← hmap]
  simp [Store.timeLeft?, h.nextDeadline?_eq]

/-- Popping removes the timer that is due next. -/
theorem popSoonest (h : s.Keeps ledger) :
    ∃ s', s.popSoonest = .ok ((soonest? Entry.toTimer ledger).map Entry.toTimer, s') ∧
      s'.Keeps (match soonest? Entry.toTimer ledger with
        | some e => ledger.filter (·.id ≠ e.id)
        | none => ledger) ∧
      s'.latest = s.latest ∧ s'.tolerance = s.tolerance := by
  cases hsoonest : soonest? Entry.toTimer ledger with
  | none =>
    refine ⟨s, ?_, h, rfl, rfl⟩
    simp [Store.popSoonest, h.soonest, hsoonest]
  | some e =>
    obtain ⟨s', hrelease, hs'⟩ := h.release (soonest?_eq_some hsoonest).1
    refine ⟨s', ?_, hs'⟩
    simp [Store.popSoonest, h.soonest, hsoonest, Entry.found, hrelease]

end Store.Keeps

end Expiry
