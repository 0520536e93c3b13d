import Mathlib.Data.List.Nodup
import Mathlib.Logic.Function.Basic
import Expiry.Proofs.Lane

/-!
# Ledgers

A ledger is the plain account of a family of lanes over one pool: the running timers in the order in
which they were started, each with its slot. The lane for a time to live holds the entries with that
time to live, in the order of the ledger, and there is no lane where there is no such entry. Beside
the ledger there may be loose nodes, which have a slot and are in no lane.

Filing a node appends it to the ledger, and taking one out erases it from the middle. Draining one
lane erases the entries of its time to live that are due. Each of them works on one lane, and the
others are left alone because no slot stands in the ledger twice.

## Main definitions

* `Ledger.ofTtl` — the entries with one time to live
* `Ledger.Filed` — the lanes and the pool are those of the ledger

## Main results

* `Ledger.Filed.insert`, `Ledger.Filed.push`, `Ledger.Filed.takeOut`, `Ledger.Filed.drain` — what
  the operations do to the ledger
-/

namespace Expiry

open Pool

/-- What is kept of a lane: nothing of an empty one. -/
def Lane.kept (lane : Lane) : Option Lane := if lane.isEmpty then none else some lane

theorem Lane.eq_of_kept {lane lane' : Lane} (h : lane.kept = some lane') : lane' = lane := by
  rw [kept] at h
  split at h
  · cases h
  · exact (Option.some.inj h).symm

/-- What passes a test that nothing passes after a failure is a beginning of the list. -/
theorem takeWhile_eq_filter {α : Type} {l : List α} {test : α → Bool}
    (sorted : l.Pairwise fun a b => test b = true → test a = true) :
    l.takeWhile test = l.filter test ∧ l.dropWhile test = l.filter (!test ·) := by
  induction l with
  | nil => exact ⟨rfl, rfl⟩
  | cons a rest ih =>
    obtain ⟨hfirst, hrest⟩ := List.pairwise_cons.mp sorted
    cases htest : test a with
    | true => simpa [htest] using ih hrest
    | false =>
      have hnone : ∀ b ∈ rest, test b = false := fun b hb => by
        cases htest' : test b with
        | false => rfl
        | true => rw [hfirst b hb htest'] at htest; cases htest
      have hnil : rest.filter test = [] := by simpa using hnone
      have hall : rest.filter (!test ·) = rest := by simpa using hnone
      simp [htest, hnil, hall]

namespace Ledger

variable {ledger ledger' loose loose' before after : Ledger} {lane? : UInt64 → Option Lane}
variable {lane lane' : Lane} {p q : Pool} {e : Entry} {ttl ttl' : UInt64} {slot : Slot}

/-- The entries with the time to live `ttl`. -/
def ofTtl (ledger : Ledger) (ttl : UInt64) : Ledger := ledger.filter (·.ttl = ttl)

@[simp] theorem mem_ofTtl : e ∈ ledger.ofTtl ttl ↔ e ∈ ledger ∧ e.ttl = ttl := by
  simp [ofTtl]

@[simp] theorem ofTtl_append : (before ++ after).ofTtl ttl = before.ofTtl ttl ++ after.ofTtl ttl :=
  List.filter_append ..

theorem ofTtl_cons_self : (ofTtl (e :: after) e.ttl) = e :: after.ofTtl e.ttl := by
  simp [ofTtl]

theorem ofTtl_cons_of_ne (h : ttl ≠ e.ttl) : ofTtl (e :: after) ttl = after.ofTtl ttl := by
  simp [ofTtl, h.symm]

theorem filter_ofTtl (keep : Entry → Prop) [DecidablePred keep] :
    (ledger.ofTtl ttl).filter (fun e => keep e) = ledger.filter fun e => e.ttl = ttl ∧ keep e := by
  simp only [ofTtl, List.filter_filter]
  exact List.filter_congr fun e _ => by simp [Bool.and_comm]

/-- Dropping some entries with one time to live leaves those with another time to live. -/
theorem ofTtl_filter_not (gone : Entry → Prop) [DecidablePred gone] (h : ttl' ≠ ttl) :
    ofTtl (ledger.filter fun e => ¬(e.ttl = ttl ∧ gone e)) ttl' = ledger.ofTtl ttl' := by
  simp only [ofTtl, List.filter_filter]
  refine List.filter_congr fun e _ => ?_
  by_cases httl : e.ttl = ttl'
  · simp [httl, h]
  · simp [httl]

theorem eq_of_slot_eq {e' : Entry} (distinct : (ledger.map Entry.slot).Nodup) (he : e ∈ ledger)
    (he' : e' ∈ ledger) (same : e.slot = e'.slot) : e = e' :=
  List.inj_on_of_nodup_map distinct he he' same

/-- Of two entries with the same time to live, the one started first is due first. -/
def Ordered (ledger : Ledger) : Prop :=
  ledger.Pairwise fun a b => a.ttl = b.ttl → a.deadline ≤ b.deadline

/-- What is due of the entries with one time to live comes before what is not. -/
theorem Ordered.takeWhile_ofTtl (ordered : ledger.Ordered) (ttl : UInt64) (horizon : Instant) :
    (ledger.ofTtl ttl).takeWhile (·.deadline ≤ horizon) =
        (ledger.ofTtl ttl).filter (·.deadline ≤ horizon) ∧
      (ledger.ofTtl ttl).dropWhile (·.deadline ≤ horizon) =
        (ledger.ofTtl ttl).filter (horizon < ·.deadline) := by
  have hsorted : (ledger.ofTtl ttl).Pairwise fun a b => decide (b.deadline ≤ horizon) = true →
      decide (a.deadline ≤ horizon) = true := by
    refine (List.Pairwise.filter _ ordered).imp_of_mem fun {a b} ha hb hle hdue => ?_
    have hsame : a.ttl = b.ttl := (mem_ofTtl.mp ha).2.trans (mem_ofTtl.mp hb).2.symm
    exact decide_eq_true (Int64.le_trans (hle hsame) (of_decide_eq_true hdue))
  obtain ⟨htake, hdrop⟩ := takeWhile_eq_filter hsorted
  refine ⟨htake, hdrop.trans (List.filter_congr fun e _ => ?_)⟩
  rw [← decide_not, decide_eq_decide, Int64.not_le]

/-- The lanes and the pool are those of the ledger, with `loose` nodes outside of every lane. -/
structure Filed (ledger loose : Ledger) (lane? : UInt64 → Option Lane) (p : Pool) : Prop where
  sound : p.Sound
  live : p.live = ledger.length + loose.length
  distinct : ((ledger ++ loose).map Entry.slot).Nodup
  unlinked : ∀ e ∈ loose, p.get? e.slot = some (e.node none none)
  absent : ∀ {ttl}, lane? ttl = none → ledger.ofTtl ttl = []
  present : ∀ {ttl lane}, lane? ttl = some lane →
    lane.ttl = ttl ∧ ledger.ofTtl ttl ≠ [] ∧ lane.Holds p (ledger.ofTtl ttl)

namespace Filed

theorem empty : Filed [] [] (fun _ => none) Pool.empty where
  sound := .empty
  live := rfl
  distinct := List.nodup_nil
  unlinked := by simp
  absent _ := rfl
  present h := by cases h

/-- The time to live of an entry has a lane. -/
theorem exists_lane (h : Filed ledger loose lane? p) (he : e ∈ ledger) :
    ∃ lane, lane? e.ttl = some lane := by
  cases hlane : lane? e.ttl with
  | none =>
    have hmem : e ∈ ledger.ofTtl e.ttl := mem_ofTtl.mpr ⟨he, rfl⟩
    rw [h.absent hlane] at hmem
    cases hmem
  | some lane => exact ⟨lane, rfl⟩

theorem exists_node (h : Filed ledger loose lane? p) (he : e ∈ ledger ++ loose) :
    ∃ prev next, p.get? e.slot = some (e.node prev next) := by
  rcases List.mem_append.mp he with he | he
  · obtain ⟨lane, hlane⟩ := h.exists_lane he
    exact (h.present hlane).2.2.linked.exists_node (mem_ofTtl.mpr ⟨he, rfl⟩)
  · exact ⟨none, none, h.unlinked e he⟩

/-- A lane does not notice what happens to other lanes and to loose nodes. -/
theorem holds_of_ne (h : Filed ledger loose lane? p) (hlane : lane? ttl' = some lane)
    (hne : ttl' ≠ ttl)
    (same : ∀ slot ∉ (ledger.ofTtl ttl ++ loose).map Entry.slot, q.get? slot = p.get? slot) :
    lane.Holds q (ledger.ofTtl ttl') := by
  refine (h.present hlane).2.2.congr fun e he => same e.slot fun hmem => ?_
  obtain ⟨he, httl⟩ := mem_ofTtl.mp he
  -- An entry with another time to live is another entry, and so has another slot.
  obtain ⟨e', he', hslot⟩ := List.mem_map.mp hmem
  rcases List.mem_append.mp he' with he' | he'
  · obtain ⟨he', httl'⟩ := mem_ofTtl.mp he'
    have heq : e' = e := eq_of_slot_eq h.distinct (List.mem_append_left _ he')
      (List.mem_append_left _ he) hslot
    exact hne (by rw [← httl, ← httl', heq])
  · exact slot_notMem h.distinct he (hslot ▸ List.mem_map_of_mem he')

/-- Work on one lane: the other lanes go on holding their part of the ledger. -/
theorem update (h : Filed ledger loose lane? p) (sound : q.Sound)
    (live : q.live = ledger'.length + loose'.length)
    (distinct : ((ledger' ++ loose').map Entry.slot).Nodup)
    (unlinked : ∀ e ∈ loose', q.get? e.slot = some (e.node none none))
    (same : ∀ slot ∉ (ledger.ofTtl ttl ++ loose).map Entry.slot, q.get? slot = p.get? slot)
    (others : ∀ ttl' ≠ ttl, ledger'.ofTtl ttl' = ledger.ofTtl ttl') (sameTtl : lane'.ttl = ttl)
    (holds : lane'.Holds q (ledger'.ofTtl ttl)) :
    Filed ledger' loose' (Function.update lane? ttl lane'.kept) q := by
  refine ⟨sound, live, distinct, unlinked, fun {ttl'} hlane => ?_, fun {ttl' lane} hlane => ?_⟩
  · by_cases heq : ttl' = ttl
    · subst heq
      rw [Function.update_self, Lane.kept] at hlane
      split at hlane
      · next hempty => exact holds.isEmpty_iff.mp hempty
      · cases hlane
    · rw [Function.update_of_ne heq] at hlane
      rw [others ttl' heq, h.absent hlane]
  · by_cases heq : ttl' = ttl
    · subst heq
      rw [Function.update_self, Lane.kept] at hlane
      split at hlane
      · cases hlane
      · next hempty =>
        obtain rfl := Option.some.inj hlane
        exact ⟨sameTtl, fun hnil => hempty (holds.isEmpty_iff.mpr hnil), holds⟩
    · rw [Function.update_of_ne heq] at hlane
      rw [others ttl' heq]
      exact ⟨(h.present hlane).1, (h.present hlane).2.1, h.holds_of_ne hlane heq same⟩

/-- A node put into the pool is loose at first. -/
theorem insert (h : Filed ledger loose lane? p) (timer : Timer) :
    Filed ledger (⟨timer, (p.insert { toTimer := timer }).1⟩ :: loose) lane?
      (p.insert { toTimer := timer }).2 := by
  have hfresh : (p.insert { toTimer := timer }).1 ∉ (ledger ++ loose).map Entry.slot := by
    intro hmem
    obtain ⟨e, he, hslot⟩ := List.mem_map.mp hmem
    obtain ⟨prev, next, hget⟩ := h.exists_node he
    rw [hslot, get?_insert_fst h.sound] at hget
    cases hget
  have hold : ∀ e ∈ ledger ++ loose,
      (p.insert { toTimer := timer }).2.get? e.slot = p.get? e.slot := by
    intro e he
    have hne : (p.insert { toTimer := timer }).1 ≠ e.slot := fun heq =>
      hfresh (heq ▸ List.mem_map_of_mem he)
    rw [get?_insert h.sound, if_neg hne]
  refine ⟨h.sound.insert _, by rw [live_insert, h.live, List.length_cons, Nat.add_assoc], ?_,
    fun e he => ?_, h.absent, fun hlane => ?_⟩
  · rw [(List.perm_middle.map Entry.slot).nodup_iff, List.map_cons, List.nodup_cons]
    exact ⟨hfresh, h.distinct⟩
  · rcases List.mem_cons.mp he with rfl | he
    · rw [get?_insert h.sound, if_pos rfl]
      rfl
    · rw [hold e (List.mem_append_right _ he), h.unlinked e he]
  · obtain ⟨httl, hne, hholds⟩ := h.present hlane
    exact ⟨httl, hne, hholds.congr fun e he => hold e (List.mem_append_left _ (mem_ofTtl.mp he).1)⟩

/-- Taking a node out of its lane and of the pool erases its entry from the ledger. -/
theorem takeOut (h : Filed (before ++ e :: after) loose lane? p) :
    ∃ lane lane' q r, lane? e.ttl = some lane ∧ lane.detach p e.slot = .ok (lane', q) ∧
      q.remove e.slot = .ok (e.node none none, r) ∧ lane'.ttl = e.ttl ∧
      Filed (before ++ after) loose (Function.update lane? e.ttl lane'.kept) r := by
  obtain ⟨lane, hlane⟩ := h.exists_lane (e := e) (by simp)
  obtain ⟨httl, -, hholds⟩ := h.present hlane
  rw [ofTtl_append, ofTtl_cons_self] at hholds
  obtain ⟨lane', q, hdetach, httl', hholds', he, hq⟩ := hholds.detach
  obtain ⟨r, hremove, hsound, hlive, hget⟩ := (hq.sound h.sound).remove he
  have hperm : ((before ++ e :: after) ++ loose).Perm (e :: (before ++ after ++ loose)) := by
    simp
  obtain ⟨hfresh, hdistinct⟩ := List.nodup_cons.mp ((hperm.map Entry.slot).nodup_iff.mp h.distinct)
  have hothers : ∀ e' ∈ before ++ after ++ loose, r.get? e'.slot = q.get? e'.slot := by
    intro e' he'
    have hne : e.slot ≠ e'.slot := fun heq => hfresh (heq ▸ List.mem_map_of_mem he')
    rw [hget, if_neg hne]
  -- Only slots of this lane change, and among them the slot of `e` becomes empty.
  have hsame : ∀ slot ∉ (ofTtl (before ++ e :: after) e.ttl ++ loose).map Entry.slot,
      r.get? slot = p.get? slot := by
    intro slot hslot
    rw [List.map_append, List.mem_append, not_or, ofTtl_append, ofTtl_cons_self] at hslot
    have hne : e.slot ≠ slot := fun heq => hslot.1 (by simp [heq])
    rw [hget, if_neg hne, hq.other slot hslot.1]
  refine ⟨lane, lane', q, r, hlane, hdetach, hremove, httl'.trans httl,
    h.update hsound ?_ hdistinct (fun e' he' => ?_) hsame (fun ttl hne => ?_) (httl'.trans httl) ?_⟩
  · have hcount := h.live
    rw [← hq.live, ← hlive, List.length_append, List.length_cons] at hcount
    rw [List.length_append]
    omega
  · have hapart : e'.slot ∉ ((before ++ e :: after).ofTtl e.ttl).map Entry.slot := fun hmem =>
      slot_notMem ((List.perm_append_comm.map Entry.slot).nodup_iff.mp h.distinct) he'
        (((List.filter_sublist).map Entry.slot).subset hmem)
    rw [ofTtl_append, ofTtl_cons_self] at hapart
    rw [hothers e' (List.mem_append_right _ he'), hq.other _ hapart, h.unlinked e' he']
  · rw [ofTtl_append, ofTtl_append, ofTtl_cons_of_ne hne]
  · rw [ofTtl_append]
    exact hholds'.congr fun e' he' => hothers e' (List.mem_append_left _ (by
      rw [← ofTtl_append] at he'
      exact (mem_ofTtl.mp he').1))

/-- Pushing a loose node to the lane for its time to live appends its entry to the ledger. -/
theorem push (h : Filed ledger (e :: loose) lane? p)
    (inOrder : ∀ l ∈ ledger, l.ttl = e.ttl → l.deadline ≤ e.deadline) :
    ∃ lane' q, ((lane? e.ttl).getD (Lane.empty e.ttl)).push p e.slot = .ok (lane', q) ∧
      lane'.ttl = e.ttl ∧
      Filed (ledger ++ [e]) loose (Function.update lane? e.ttl (some lane')) q := by
  -- A lane that is opened for the node holds nothing yet, as the ledger has no such entry.
  obtain ⟨httl, hholds⟩ : ((lane? e.ttl).getD (Lane.empty e.ttl)).ttl = e.ttl ∧
      ((lane? e.ttl).getD (Lane.empty e.ttl)).Holds p (ledger.ofTtl e.ttl) := by
    cases hlane : lane? e.ttl with
    | none =>
      rw [h.absent hlane]
      exact ⟨rfl, .empty _ p⟩
    | some lane => exact ⟨(h.present hlane).1, (h.present hlane).2.2⟩
  have hperm : ((ledger ++ [e]) ++ loose).Perm (ledger ++ e :: loose) := by simp
  have hfresh : e.slot ∉ (ledger.ofTtl e.ttl).map Entry.slot := fun hmem => by
    obtain ⟨e', he', hslot⟩ := List.mem_map.mp hmem
    exact slot_notMem h.distinct (mem_ofTtl.mp he').1 (by simp [hslot])
  obtain ⟨lane', q, hpush, httl', hholds', hq⟩ := hholds.push (h.unlinked e (by simp)) hfresh
    httl.symm fun l hl => by
      obtain ⟨hmem, hsame⟩ := mem_ofTtl.mp (List.mem_of_getLast? hl)
      exact inOrder l hmem hsame
  refine ⟨lane', q, hpush, httl'.trans httl, ?_⟩
  have hkept : lane'.kept = some lane' := by
    rw [Lane.kept, if_neg]
    exact fun hempty => by simpa using hholds'.isEmpty_iff.mp hempty
  rw [← hkept]
  refine h.update (hq.sound h.sound) ?_ ((hperm.map Entry.slot).nodup_iff.mpr h.distinct)
    (fun e' he' => ?_) (fun slot hslot => hq.other slot fun hmem => hslot ?_) (fun ttl hne => ?_)
    (httl'.trans httl) ?_
  · rw [hq.live, h.live, List.length_append, List.length_cons, List.length_singleton]
    omega
  · have hapart : e'.slot ∉ (ledger.ofTtl e.ttl ++ [e]).map Entry.slot := fun hmem => by
      have hdistinct := (hperm.map Entry.slot).nodup_iff.mpr h.distinct
      refine slot_notMem ((List.perm_append_comm.map Entry.slot).nodup_iff.mp hdistinct) he' ?_
      exact (((List.filter_sublist).append_right [e]).map Entry.slot).subset hmem
    rw [hq.other _ hapart, h.unlinked e' (List.mem_cons_of_mem _ he')]
  · simp only [List.map_append, List.mem_append, List.map_cons, List.mem_cons] at hmem ⊢
    rcases hmem with hmem | hmem | hmem
    · exact Or.inl hmem
    · exact Or.inr (Or.inl hmem)
    · cases hmem
  · rw [ofTtl_append, ofTtl_cons_of_ne hne]
    exact List.append_nil _
  · rw [ofTtl_append, ofTtl_cons_self]
    exact hholds'

/-- Draining a lane erases the entries with its time to live that are due. -/
theorem drain (h : Filed ledger [] lane? p) (ordered : ledger.Ordered)
    (hlane : lane? ttl = some lane) (horizon : Instant) :
    ∃ lane' q, lane.drain horizon p =
        .ok (((ledger.ofTtl ttl).filter (·.deadline ≤ horizon)).map Entry.toTimer, lane', q) ∧
      lane'.ttl = ttl ∧
      Filed (ledger.filter fun e => ¬(e.ttl = ttl ∧ e.deadline ≤ horizon)) []
        (Function.update lane? ttl lane'.kept) q := by
  obtain ⟨httl, -, hholds⟩ := h.present hlane
  obtain ⟨lane', q, hdrain, httl', hholds', hsound, hlive, hother⟩ :=
    hholds.drain h.sound horizon
  -- The lane stops at the first entry that is not due; all that is due comes before it.
  obtain ⟨htake, hdrop⟩ := ordered.takeWhile_ofTtl ttl horizon
  rw [htake] at hdrain hlive
  rw [hdrop] at hholds'
  have hrest : ofTtl (ledger.filter fun e => ¬(e.ttl = ttl ∧ e.deadline ≤ horizon)) ttl =
      (ledger.ofTtl ttl).filter (horizon < ·.deadline) := by
    simp only [ofTtl, List.filter_filter]
    refine List.filter_congr fun e _ => ?_
    by_cases httl : e.ttl = ttl <;> simp [httl]
  refine ⟨lane', q, hdrain, httl'.trans httl, h.update hsound ?_ ?_ (by simp) (fun slot hslot => ?_)
    (fun ttl' hne => ?_) (httl'.trans httl) ?_⟩
  · have hcount := ledger.length_eq_length_filter_add fun e => e.ttl = ttl ∧ e.deadline ≤ horizon
    have hall := h.live
    rw [filter_ofTtl] at hlive
    simp only [List.length_nil, Nat.add_zero, decide_not] at hall ⊢
    omega
  · simpa using (List.filter_sublist.map Entry.slot).nodup (by simpa using h.distinct)
  · exact hother slot (by simpa using hslot)
  · exact ofTtl_filter_not _ hne
  · rw [hrest]
    exact hholds'

end Filed

end Ledger

end Expiry
