import Mathlib.Data.List.Forall2
import Expiry.Proofs.Portions
import Expiry.Proofs.Unheard

/-!
# News that there is no room for

A harvest does not wait for a receiver who is slow. It takes out everything that is due, and of the
news it sends as much as there is room for; the rest is dropped, with a warning for each. Where the
cut falls depends on the room alone and not on the lanes that the timers come from, and it shows in
the mailbox and in the warnings, but not in the service: a timer whose news is dropped is gone with
its payload like the others.

Payloads and timers are in parity exactly if there is a roster that the service follows, and then
what a harvest sends and drops is the news of the jobs that are due.

## Main definitions

* `Service.jobOf` — a timer with the payload that is stored for it
* `Service.Reports` — news that a timer has ended, with its name and its present payload

## Main results

* `Service.matched_iff_exists_follows` — parity is to follow a roster
* `Service.flatMap_notes_post` — one note for each piece of news that is dropped
* `Service.Follows.harvest_posts` — a harvest posts the news of the jobs that are due
* `Service.Matched.harvest_overflow` — what a harvest sends, drops, takes out and leaves
-/

namespace Expiry

variable {outbox : Mailbox Expiration} {reading : Instant} {store : Store} {notes : List Note}

/-! ### What a harvest leaves -/

/-- Where keys are unique, what is not due is found by its key as before. -/
theorem find?_filter_late {α κ : Type} [DecidableEq κ] {l : List α} {key : α → κ}
    (timer : α → Timer) (horizon : Instant) (distinct : (l.map key).Nodup) (k : κ) :
    (l.filter fun a => horizon < (timer a).deadline).find? (key · = k) =
      if k ∈ (dueBy timer horizon l).map key then none else l.find? (key · = k) := by
  split
  · next hdue =>
    -- Nothing else has the key of what is due.
    obtain ⟨b, hb, hkey⟩ := List.mem_map.mp hdue
    obtain ⟨hb, hle⟩ := mem_dueBy.mp hb
    rw [List.find?_eq_none]
    intro a ha heq
    obtain ⟨ha, hlt⟩ := List.mem_filter.mp ha
    obtain rfl := List.inj_on_of_nodup_map distinct ha hb ((of_decide_eq_true heq).trans hkey.symm)
    exact Int64.not_lt.mpr hle (of_decide_eq_true hlt)
  · next hnot =>
    rw [List.find?_filter]
    apply List.find?_congr
    intro a ha
    by_cases heq : key a = k
    · have hlate : horizon < (timer a).deadline := by
        rw [← Int64.not_le]
        exact fun hle => hnot (heq ▸ List.mem_map_of_mem (mem_dueBy.mpr ⟨ha, hle⟩))
      simp [heq, hlate]
    · simp [heq]

/-- A store has nothing to warn of when it harvests. -/
theorem Store.severity_of_harvest {due : List Timer} {store' : Store}
    (h : store.harvest reading = .ok (due, store', notes)) :
    ∀ note ∈ notes, note.severity = .debug := by
  obtain ⟨⟨⟨due', slots, pool⟩, lanes⟩, -, hdone⟩ := Fault.bind_eq_ok_iff.mp h
  obtain ⟨-, hrest⟩ := Prod.mk.inj (Except.ok.inj hdone)
  obtain ⟨-, rfl⟩ := Prod.mk.inj hrest
  intro note hnote
  split at hnote
  · cases hnote
  · rw [List.mem_singleton.mp hnote]
    rfl

namespace Store.Follows

variable {s s' : Store} {a : Agenda}

/-- A timer that is not due has its deadline after a harvest too. -/
theorem deadline?_of_harvest (h : s.Follows a) (h' : s'.Follows (a.harvest reading).2)
    (id : Bytes) : s'.deadline? id =
      if id ∈ (a.harvest reading).1.map (·.id) then .ok none else s.deadline? id := by
  rw [h.deadline?_eq, h'.deadline?_eq, Agenda.harvest,
    find?_filter_late (fun t => t) _ h.ids_nodup]
  split <;> rfl

/-- In each lane what is due is taken out and the rest is left, both in the order of the lane. -/
theorem inLane_of_harvest (h : s.Follows a) (h' : s'.Follows (a.harvest reading).2)
    (ttl : UInt64) : ∃ timers, s.inLane ttl = .ok timers ∧
      (a.harvest reading).1.filter (·.ttl = ttl) =
        timers.filter (·.deadline ≤ s.horizon (s.instant reading)) ∧
      s'.inLane ttl = .ok (timers.filter (s.horizon (s.instant reading) < ·.deadline)) := by
  refine ⟨_, h.inLane_eq ttl, ?_, ?_⟩
  · rw [List.filter_comm, h.horizon_eq]
    exact filter_dueBy (fun t => t) _ a.timers ttl
  · rw [h'.inLane_eq, List.filter_comm, h.horizon_eq]
    rfl

end Store.Follows

namespace Service

variable {s : Service} {r : Roster} {a : Agenda} {timer : Timer}
variable {payloads : Std.TreeMap String String}

/-! ### Parity and rosters -/

/-- A timer with the payload that is stored for it. -/
def jobOf (payloads : Std.TreeMap String String) (timer : Timer) : Job :=
  { name := nameOf timer.id, payload := payloads.getD (nameOf timer.id) "", ttl := timer.ttl,
    deadline := timer.deadline }

/-- The timers of an agenda with the payloads that are stored for them. -/
def rosterOf (payloads : Std.TreeMap String String) (a : Agenda) : Roster where
  jobs := a.timers.map (jobOf payloads)
  tolerance := a.tolerance
  latest := a.latest

theorem hasPayload_iff {id : Bytes} : HasPayload payloads id ↔
    ∃ name payload, payloads[name]? = some payload ∧ Bytes.ofString name = id := by
  simp only [HasPayload, Std.TreeMap.mem_iff_isSome_getElem?, Option.isSome_iff_exists,
    exists_and_right]

theorem timer_jobOf (stored : HasPayload payloads timer.id) :
    (jobOf payloads timer).timer = timer := by
  rw [jobOf, Job.timer, stored.nameOf_mem.2]

theorem getElem?_jobOf (stored : HasPayload payloads timer.id) :
    payloads[(jobOf payloads timer).name]? = some (jobOf payloads timer).payload := by
  obtain ⟨name, payload, hpayload, hid⟩ := hasPayload_iff.mp stored
  rw [jobOf, ← hid, nameOf_ofString, Std.TreeMap.getD_eq_getD_getElem?, hpayload]
  rfl

theorem agenda_rosterOf (stored : ∀ timer ∈ a.timers, HasPayload payloads timer.id) :
    (rosterOf payloads a).agenda = a := by
  rw [Roster.agenda, rosterOf, List.map_map]
  congr 1
  calc a.timers.map (Job.timer ∘ jobOf payloads)
      = a.timers.map id := List.map_congr_left fun timer htimer => timer_jobOf (stored _ htimer)
    _ = a.timers := List.map_id _

/-- If payloads and timers are in parity, every timer is a job. -/
theorem Matched.exists_follows (matched : s.Matched) (h : s.store.Follows a) :
    ∃ r : Roster, s.Follows r ∧ r.agenda = a := by
  have hstored : ∀ timer ∈ a.timers, HasPayload s.payloads timer.id := fun timer htimer =>
    (matched _).mpr ((contains_iff h).mpr (List.mem_map_of_mem htimer))
  have hagenda := agenda_rosterOf hstored
  refine ⟨rosterOf s.payloads a, ⟨hagenda.symm ▸ h, fun {name payload} => ?_⟩, hagenda⟩
  constructor
  · intro hpayload
    -- The timer of a payload has its name, and so the payload of its job is this one.
    have hrunning := (matched _).mp (hasPayload_iff.mpr ⟨name, payload, hpayload, rfl⟩)
    obtain ⟨timer, htimer, hid⟩ := List.mem_map.mp ((contains_iff h).mp hrunning)
    have hjob : (jobOf s.payloads timer).name = name := by
      rw [jobOf, hid, nameOf_ofString]
    refine ⟨jobOf s.payloads timer, List.mem_map_of_mem htimer, hjob, Option.some.inj ?_⟩
    rw [← getElem?_jobOf (hstored timer htimer), hjob, hpayload]
  · rintro ⟨job, hjob, rfl, rfl⟩
    obtain ⟨timer, htimer, rfl⟩ := List.mem_map.mp hjob
    exact getElem?_jobOf (hstored timer htimer)

/-- Following a roster, a service has the payloads of its jobs and no others. -/
theorem Follows.matched (h : s.Follows r) : s.Matched := by
  intro id
  rw [hasPayload_iff, contains_iff h.store, Agenda.ids, Roster.agenda, List.map_map, List.mem_map]
  constructor
  · rintro ⟨name, payload, hpayload, rfl⟩
    obtain ⟨job, hjob, rfl, -⟩ := h.payload_iff.mp hpayload
    exact ⟨job, hjob, rfl⟩
  · rintro ⟨job, hjob, rfl⟩
    exact ⟨job.name, job.payload, h.payload_iff.mpr ⟨job, hjob, rfl, rfl⟩, rfl⟩

/-- Payloads and timers are in parity exactly if the service follows a roster. -/
theorem matched_iff_exists_follows (reachable : s.store.Reachable) :
    s.Matched ↔ ∃ r : Roster, s.Follows r := by
  constructor
  · intro matched
    obtain ⟨a, h⟩ := reachable.exists_follows
    obtain ⟨r, hr, -⟩ := matched.exists_follows h
    exact ⟨r, hr⟩
  · rintro ⟨r, hr⟩
    exact hr.matched

/-! ### Warnings -/

/-- For each piece of news that is dropped there is a note, in the same order. -/
theorem flatMap_notes_post (outbox : Mailbox Expiration) (news : List Expiration) :
    (post outbox news).1.flatMap Delivery.notes =
      (news.drop (outbox.capacity - outbox.items.length)).map (.newsDropped ·.name) := by
  rw [post, List.flatMap_append, List.flatMap_map, List.flatMap_map]
  have hsent : ∀ l : List Expiration, l.flatMap (fun e => (Delivery.sent e).notes) = [] := by
    intro l
    exact List.flatMap_eq_nil_iff.mpr fun _ _ => rfl
  rw [hsent, List.nil_append]
  exact List.flatMap_pure_eq_map _ _

/-- Beside quiet notes these are all the warnings. -/
theorem filter_warning_append (quiet : ∀ note ∈ notes, note.severity = .debug)
    (dropped : List Expiration) :
    (notes ++ dropped.map (Note.newsDropped ·.name)).filter (·.severity = .warning) =
      dropped.map (Note.newsDropped ·.name) := by
  have hquiet : notes.filter (·.severity = .warning) = [] := by
    rw [List.filter_eq_nil_iff]
    intro note hnote
    simp [quiet note hnote]
  rw [List.filter_append, hquiet, List.nil_append, List.filter_eq_self]
  intro note hnote
  obtain ⟨e, -, rfl⟩ := List.mem_map.mp hnote
  rfl

/-! ### Harvests -/

/-- A harvest posts the news of the jobs that are due, and the service follows the roster without
them. -/
theorem Follows.harvest_posts (h : s.Follows r) (heard : outbox.hasReceiver = true)
    (reading : Instant) :
    ∃ notes s', s.store.harvest reading =
        .ok ((r.due reading).map Job.timer, s'.store, notes) ∧
      s.harvest reading outbox = .ok (s', (post outbox ((r.due reading).map Job.news)).2,
        (post outbox ((r.due reading).map Job.news)).1,
        notes ++ (post outbox ((r.due reading).map Job.news)).1.flatMap (·.notes)) ∧
      s'.Follows (r.harvest reading) := by
  obtain ⟨store, notes, hharvest, hstore⟩ := h.store.harvest reading
  rw [r.agenda_harvest] at hharvest hstore
  obtain ⟨hdeliveries, houtbox, hwhole⟩ := h.announce_due heard reading
  have hserved := harvest_eq_ok_iff.mpr ⟨_, _, _, hharvest, hwhole, rfl, rfl, rfl, rfl⟩
  rw [← hdeliveries, ← houtbox]
  exact ⟨notes, _, hharvest, hserved, h.harvest heard hstore⟩

/-- The news says that the timer has ended, with the payload that it has now. -/
structure Reports (s : Service) (timer : Timer) (news : Expiration) : Prop where
  name : Bytes.ofString news.name = timer.id
  payload : s.payloads[news.name]? = some news.payload

/-- There is no other news of a timer. -/
theorem rightUnique_reports : Relator.RightUnique s.Reports := by
  rintro timer ⟨name, payload⟩ ⟨name', payload'⟩ h h'
  obtain rfl : name = name' := Bytes.ofString_inj.mp (h.name.trans h'.name.symm)
  obtain rfl : payload = payload' := Option.some.inj (h.payload.symm.trans h'.payload)
  rfl

/-- What is sent and dropped is the news of the timers that are due. -/
theorem Follows.reports_due (h : s.Follows r) (reading : Instant) :
    List.Forall₂ s.Reports ((r.due reading).map Job.timer) ((r.due reading).map Job.news) := by
  rw [List.forall₂_map_left_iff, List.forall₂_map_right_iff, List.forall₂_same]
  intro job hjob
  exact ⟨rfl, h.payload_iff.mpr ⟨job, (mem_dueBy.mp hjob).1, rfl, rfl⟩⟩

/-- A payload whose timer is not due is there after a harvest too. -/
theorem Follows.getElem?_of_harvest {s' : Service} (h : s.Follows r)
    (h' : s'.Follows (r.harvest reading)) (name : String) : s'.payloads[name]? =
      if Bytes.ofString name ∈ ((r.due reading).map Job.timer).map (·.id) then none
      else s.payloads[name]? := by
  have hname : Bytes.ofString name ∈ ((r.due reading).map Job.timer).map (·.id) ↔
      name ∈ (r.due reading).map Job.name := by
    simp only [List.map_map, List.mem_map, Function.comp_apply, Job.timer, Bytes.ofString_inj]
  have hfind : (r.harvest reading).jobs.find? (·.name = name) =
      if name ∈ (r.due reading).map Job.name then none else r.jobs.find? (·.name = name) :=
    find?_filter_late Job.timer _ h.names_nodup name
  simp only [h.getElem?_payloads, h'.getElem?_payloads, Roster.payload?, hfind, hname]
  split <;> rfl

/-- While somebody hears the news, a harvest sends as much of it as there is room for, in the order
in which the timers come out and with the payloads that they have, and drops the rest with a warning
for each. It takes out all timers that are due, with their payloads, whether their news was sent or
dropped. What waited in the mailbox, and the timers that are not due, with their payloads and
deadlines and their order in the lanes, stay as they were. -/
theorem Matched.harvest_overflow (reachable : s.store.Reachable) (matched : s.Matched)
    (heard : outbox.hasReceiver = true) (reading : Instant) :
    let room := outbox.capacity - outbox.items.length
    let horizon := s.store.horizon (s.store.instant reading)
    ∃ due storeNotes news notes s', s.store.harvest reading = .ok (due, s'.store, storeNotes) ∧
      List.Forall₂ s.Reports due news ∧
      s.harvest reading outbox = .ok (s', { outbox with items := outbox.items ++ news.take room },
        (news.take room).map .sent ++ (news.drop room).map .dropped, notes) ∧
      (notes.filter (·.severity = .warning)).map Note.message = (news.drop room).map (fun e =>
        s!"Event channel full, dropping timer expiration for '{e.name}'") ∧
      s'.Matched ∧
      (∀ name, s'.payloads[name]? =
        if Bytes.ofString name ∈ due.map (·.id) then none else s.payloads[name]?) ∧
      (∀ id, s'.store.deadline? id =
        if id ∈ due.map (·.id) then .ok none else s.store.deadline? id) ∧
      ∀ ttl, ∃ timers, s.store.inLane ttl = .ok timers ∧
        due.filter (·.ttl = ttl) = timers.filter (·.deadline ≤ horizon) ∧
        s'.store.inLane ttl = .ok (timers.filter (horizon < ·.deadline)) := by
  intro room horizon
  obtain ⟨a, ha⟩ := reachable.exists_follows
  obtain ⟨r, hr, -⟩ := matched.exists_follows ha
  obtain ⟨storeNotes, s', hstore, hharvest, hr'⟩ := hr.harvest_posts heard reading
  -- The roster says what is posted, and its agenda what is left in the store.
  have hagenda := r.agenda_harvest reading
  have hdue : (r.agenda.harvest reading).1 = (r.due reading).map Job.timer := by rw [hagenda]
  have hleft : s'.store.Follows (r.agenda.harvest reading).2 := by
    rw [hagenda]
    exact hr'.store
  refine ⟨_, storeNotes, _, _, s', hstore, hr.reports_due reading, hharvest, ?_, hr'.matched,
    hr.getElem?_of_harvest hr', ?_, ?_⟩
  · rw [flatMap_notes_post, filter_warning_append (Store.severity_of_harvest hstore), List.map_map]
    rfl
  · rw [← hdue]
    exact hr.store.deadline?_of_harvest hleft
  · rw [← hdue]
    exact hr.store.inLane_of_harvest hleft

/-- The mailbox has one place left. A timer in the first lane and one in the second are due, and the
cut falls between the lanes: the second one loses its news, though it was due first. -/
theorem Matched.harvest_overflow_between_lanes : ∃ (s s' : Service) (notes : List Note),
    s.store.Reachable ∧ s.Matched ∧
    s.harvest 14 { capacity := 2, items := [⟨"z", "w"⟩] } =
      .ok (s', { capacity := 2, items := [⟨"z", "w"⟩, ⟨"b", "y"⟩] },
        [.sent ⟨"b", "y"⟩, .dropped ⟨"a", "x"⟩], notes) ∧
    (notes.filter (·.severity = .warning)).map Note.message =
      ["Event channel full, dropping timer expiration for 'a'"] ∧
    s'.payloads["a"]? = none ∧ s'.payloads["c"]? = some "z" ∧
    s'.store.deadline? (Bytes.ofString "c") = .ok (some 105) := by
  let steps : List (Instant × Operation) := [(4, .set (Bytes.ofString "b") 10),
    (4, .set (Bytes.ofString "a") 9), (5, .set (Bytes.ofString "c") 100)]
  let payloads : Std.TreeMap String String :=
    (((∅ : Std.TreeMap String String).insert "a" "x").insert "b" "y").insert "c" "z"
  have hstored : payloads["a"]? = some "x" ∧ payloads["b"]? = some "y" ∧
      payloads["c"]? = some "z" := by decide +kernel
  obtain ⟨store, hrun, h⟩ := (Store.Follows.empty 1).run steps
  let s : Service := { name := "m", store, payloads }
  have hreachable : s.store.Reachable := ⟨1, _, _, hrun⟩
  have hids : ((Agenda.empty 1).run steps).2.ids = ["b", "a", "c"].map Bytes.ofString := by
    decide +kernel
  have hmatched : s.Matched := by
    intro id
    rw [contains_iff h, hids]
    have hnone : ¬HasPayload ∅ id := by simp [HasPayload]
    simp only [s, payloads, HasPayload.insert_iff, List.map_cons, List.map_nil, List.mem_cons,
      hnone]
    grind
  obtain ⟨due, storeNotes, news, notes, s', hstore, hreports, hharvest, hwarnings, -, hpayloads,
    hdeadlines, -⟩ := hmatched.harvest_overflow hreachable
      (rfl : ({ capacity := 2, items := [⟨"z", "w"⟩] } : Mailbox Expiration).hasReceiver = true) 14
  obtain ⟨store', notes', hstore', -⟩ := h.harvest 14
  rw [hstore, Except.ok.injEq, Prod.mk.injEq] at hstore'
  have hdue : due = [⟨Bytes.ofString "b", 10, 14⟩, ⟨Bytes.ofString "a", 9, 13⟩] :=
    hstore'.1.trans ((dueBy_eq_filter (by decide +kernel)).trans (by decide +kernel))
  have hnews : news = [⟨"b", "y"⟩, ⟨"a", "x"⟩] := by
    rw [hdue] at hreports
    refine List.right_unique_forall₂' rightUnique_reports hreports ?_
    exact .cons ⟨rfl, hstored.2.1⟩ (.cons ⟨rfl, hstored.1⟩ .nil)
  subst hdue hnews
  refine ⟨s, s', notes, hreachable, hmatched, hharvest, hwarnings, ?_, ?_, ?_⟩
  · rw [hpayloads, if_pos (by decide)]
  · rw [hpayloads, if_neg (by decide), hstored.2.2]
  · rw [hdeadlines, if_neg (by decide), h.deadline?_eq]
    decide +kernel

end Service

end Expiry
