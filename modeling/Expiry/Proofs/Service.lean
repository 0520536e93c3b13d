import Expiry.Proofs.Refinement
import Expiry.Proofs.Roster

/-!
# Services follow rosters

A service keeps its payloads apart from its timers, under the name and not under the bytes of the
name. It follows the roster whose timers are those of the store and whose payloads are those of the
service; then every job has its timer and its payload, and there are no others. Whatever happens to
the service, the same comes of it as of the roster, and the service follows the roster again.

The mailbox must have a receiver. Once it has none, a harvest stops announcing in the middle, and
payloads stay behind.

## Main definitions

* `Service.Follows` — the store has the timers of the roster, and the service its payloads

## Main results

* `Service.getElem?_announce`, `Service.announce_jobs` — what announcing does
* `Service.Follows.handle`, `Service.Follows.heartbeat` — commands and heartbeats
* `Service.Follows.perform`, `Service.Follows.run` — whatever happens, the same comes of it
* `Service.run_outcomes_eq_roster` — a service over an empty store does what an empty roster does,
  and hands out only payloads that were given last
-/

namespace Expiry

variable {outbox : Mailbox Expiration} {payloads rest : Std.TreeMap String String}

namespace Service

/-! ### Announcing -/

section Announcing

variable {timer : Timer} {due : List Timer} {news : Expiration} {fault : Fault}

theorem nameOf_ofString (name : String) : nameOf (Bytes.ofString name) = name :=
  Utf8.decode_ofString name

theorem announce_cons_of_error (broken : newsOf payloads timer.id = .error fault)
    (due : List Timer) :
    announce payloads outbox (timer :: due) = { payloads, outbox, fault := some fault } := by
  simp only [announce, broken]

theorem announce_cons_of_room (taken : newsOf payloads timer.id = .ok (news, rest))
    (heard : outbox.hasReceiver = true) (room : outbox.items.length < outbox.capacity)
    (due : List Timer) :
    announce payloads outbox (timer :: due) =
      (announce rest { outbox with items := outbox.items ++ [news] } due).after (.sent news) := by
  simp [announce, taken, Mailbox.trySend, heard, room]

theorem announce_cons_of_full (taken : newsOf payloads timer.id = .ok (news, rest))
    (heard : outbox.hasReceiver = true) (full : ¬outbox.items.length < outbox.capacity)
    (due : List Timer) :
    announce payloads outbox (timer :: due) =
      (announce rest outbox due).after (.dropped news) := by
  simp [announce, taken, Mailbox.trySend, heard, full]

/-- Announcing to a receiver takes the payloads of exactly the timers that are announced, unless it
breaks off. -/
theorem getElem?_announce (heard : outbox.hasReceiver = true)
    (whole : (announce payloads outbox due).fault = none) (name : String) :
    (announce payloads outbox due).payloads[name]? =
      if name ∈ due.map (nameOf ·.id) then none else payloads[name]? := by
  induction due generalizing payloads outbox with
  | nil => simp [announce]
  | cons timer due ih =>
    cases htaken : newsOf payloads timer.id with
    | error fault =>
      rw [announce_cons_of_error htaken] at whole
      cases whole
    | ok taken =>
      obtain ⟨news, rest⟩ := taken
      have hrest : (if name ∈ due.map (nameOf ·.id) then none else rest[name]?) =
          if name ∈ (timer :: due).map (nameOf ·.id) then none else payloads[name]? := by
        obtain ⟨payload, -, -, rfl⟩ := newsOf_eq_ok_iff.mp htaken
        rw [Std.TreeMap.getElem?_erase]
        by_cases heq : nameOf timer.id = name
        · simp [heq]
        · simp [heq, Ne.symm heq]
      by_cases hroom : outbox.items.length < outbox.capacity
      · rw [announce_cons_of_room htaken heard hroom] at whole ⊢
        exact (ih (heard : { outbox with items := _ }.hasReceiver = true) whole).trans hrest
      · rw [announce_cons_of_full htaken heard hroom] at whole ⊢
        exact (ih heard whole).trans hrest

/-- Announcing does not make the receiver go away. -/
theorem hasReceiver_announce (heard : outbox.hasReceiver = true) (due : List Timer) :
    (announce payloads outbox due).outbox.hasReceiver = true := by
  induction due generalizing payloads outbox with
  | nil => exact heard
  | cons timer due ih =>
    cases htaken : newsOf payloads timer.id with
    | error fault =>
      rw [announce_cons_of_error htaken]
      exact heard
    | ok taken =>
      by_cases hroom : outbox.items.length < outbox.capacity
      · rw [announce_cons_of_room htaken heard hroom]
        exact ih (heard : { outbox with items := _ }.hasReceiver = true)
      · rw [announce_cons_of_full htaken heard hroom]
        exact ih heard

end Announcing

theorem post_cons_of_room (room : outbox.items.length < outbox.capacity) (news : Expiration)
    (rest : List Expiration) :
    post outbox (news :: rest) =
      (.sent news :: (post { outbox with items := outbox.items ++ [news] } rest).1,
        (post { outbox with items := outbox.items ++ [news] } rest).2) := by
  obtain ⟨places, hplaces⟩ : ∃ places, outbox.capacity - outbox.items.length = places + 1 :=
    ⟨outbox.capacity - outbox.items.length - 1, by omega⟩
  have hleft : outbox.capacity - (outbox.items.length + 1) = places := by omega
  simp [post, hplaces, hleft]

theorem post_cons_of_full (full : ¬outbox.items.length < outbox.capacity) (news : Expiration)
    (rest : List Expiration) :
    post outbox (news :: rest) = (.dropped news :: (post outbox rest).1, (post outbox rest).2) := by
  have hnone : outbox.capacity - outbox.items.length = 0 := by omega
  simp [post, hnone]

/-- The news of a job, if it has its payload. -/
theorem newsOf_job {job : Job} (stored : payloads[job.name]? = some job.payload) :
    newsOf payloads job.timer.id = .ok (job.news, payloads.erase job.name) := by
  simp [newsOf, Job.timer, nameOf_ofString, Job.news, stored]

/-- Announcing jobs posts their news and does not break off, if every job has its payload. -/
theorem announce_jobs (heard : outbox.hasReceiver = true) (jobs : List Job)
    (distinct : (jobs.map Job.name).Nodup)
    (stored : ∀ job ∈ jobs, payloads[job.name]? = some job.payload) :
    (announce payloads outbox (jobs.map Job.timer)).deliveries =
        (post outbox (jobs.map Job.news)).1 ∧
      (announce payloads outbox (jobs.map Job.timer)).outbox =
        (post outbox (jobs.map Job.news)).2 ∧
      (announce payloads outbox (jobs.map Job.timer)).fault = none := by
  induction jobs generalizing payloads outbox with
  | nil => simp [announce, post]
  | cons job jobs ih =>
    have htaken := newsOf_job (stored job List.mem_cons_self)
    obtain ⟨hfresh, hdistinct⟩ := List.nodup_cons.mp distinct
    -- Taking the payload of one job leaves the others theirs, because names are unique.
    have hstored : ∀ job' ∈ jobs, (payloads.erase job.name)[job'.name]? = some job'.payload := by
      intro job' hjob'
      have hne : job.name ≠ job'.name := fun heq => hfresh (heq ▸ List.mem_map_of_mem hjob')
      rw [Std.TreeMap.getElem?_erase, if_neg (by simpa using hne)]
      exact stored job' (List.mem_cons_of_mem _ hjob')
    rw [List.map_cons, List.map_cons]
    by_cases hroom : outbox.items.length < outbox.capacity
    · rw [announce_cons_of_room htaken heard hroom, post_cons_of_room hroom]
      have hheard : { outbox with items := outbox.items ++ [job.news] }.hasReceiver = true := heard
      obtain ⟨hdeliveries, hrest⟩ := ih hheard hdistinct hstored
      exact ⟨congrArg _ hdeliveries, hrest⟩
    · rw [announce_cons_of_full htaken heard hroom, post_cons_of_full hroom]
      obtain ⟨hdeliveries, hrest⟩ := ih heard hdistinct hstored
      exact ⟨congrArg _ hdeliveries, hrest⟩

theorem hasReceiver_receive (outbox : Mailbox Expiration) :
    outbox.receive.2.hasReceiver = outbox.hasReceiver := by
  unfold Mailbox.receive
  split <;> rfl

/-! ### Commands and heartbeats

What a service does once it is known what its store does. -/

section Handling

variable {s : Service} {store : Store} {notes : List Note} {reading : Instant} {timer : Timer}
variable {name payload : String} {duration : Duration}

theorem handle_set
    (h : s.store.set reading (Bytes.ofString name) duration.toTtl = .ok (store, notes)) :
    s.handle reading (.set name payload duration) =
      .ok (replying { s with store, payloads := s.payloads.insert name payload } .done notes) := by
  simp only [handle, h, Fault.ok_bind, Fault.pure_eq_ok]

theorem handle_cancel (h : s.store.cancel (Bytes.ofString name) = .ok store) :
    s.handle reading (.cancel name) = .ok (replying
      { s with store, payloads := s.payloads.erase name } (.payload s.payloads[name]?)) := by
  simp only [handle, h, Fault.ok_bind, Fault.pure_eq_ok]

theorem handle_deadline {deadline : Option Instant}
    (h : s.store.deadline? (Bytes.ofString name) = .ok deadline) :
    s.handle reading (.deadline name) = .ok (s.replying (.instant deadline)) := by
  simp only [handle, h, Fault.ok_bind, Fault.pure_eq_ok]

theorem handle_nextDeadline {deadline : Option Instant}
    (h : s.store.nextDeadline? = .ok deadline) :
    s.handle reading .nextDeadline = .ok (s.replying (.instant deadline)) := by
  simp only [handle, h, Fault.ok_bind, Fault.pure_eq_ok]

theorem handle_timeLeft {left : Option UInt64} (h : s.store.timeLeft? reading = .ok left) :
    s.handle reading .timeLeft = .ok (s.replying (.wait (left.map .ofMillis))) := by
  simp only [handle, h, Fault.ok_bind, Fault.pure_eq_ok]

theorem handle_popSoonest_of_none (h : s.store.popSoonest = .ok (none, store)) :
    s.handle reading .popSoonest = .ok (replying { s with store } (.timer none)) := by
  simp only [handle, h, Fault.ok_bind]
  rfl

theorem handle_popSoonest_of_some (h : s.store.popSoonest = .ok (some timer, store))
    {news : Expiration} (taken : newsOf s.payloads timer.id = .ok (news, payloads)) :
    s.handle reading .popSoonest =
      .ok (replying { s with store, payloads } (.timer (some (news.name, news.payload)))) := by
  simp only [handle, h, taken, Fault.ok_bind, Fault.pure_eq_ok]

theorem handle_popSoonest_of_fault (h : s.store.popSoonest = .ok (some timer, store))
    {fault : Fault} (broken : newsOf s.payloads timer.id = .error fault) :
    s.handle reading .popSoonest = .error fault := by
  simp only [handle, h, broken, Fault.ok_bind, Fault.error_bind]

theorem perform_command {command : Command} {handled : Handled}
    (h : s.handle reading command = .ok handled) (outbox : Mailbox Expiration) :
    s.perform outbox (.command reading command) =
      .ok (.handled handled.reply handled.stops, handled.service, outbox) := by
  simp only [perform, h, Fault.ok_bind, Fault.pure_eq_ok]

theorem perform_command_of_fault {command : Command} {fault : Fault}
    (h : s.handle reading command = .error fault) (outbox : Mailbox Expiration) :
    s.perform outbox (.command reading command) = .error fault := by
  simp only [perform, h, Fault.error_bind]

theorem perform_heartbeat {due : List Timer}
    (h : s.store.harvest reading = .ok (due, store, notes))
    (whole : (announce s.payloads outbox due).fault = none) :
    s.perform outbox (.heartbeat reading) =
      .ok (.harvested (announce s.payloads outbox due).deliveries,
        { s with store, payloads := (announce s.payloads outbox due).payloads },
        (announce s.payloads outbox due).outbox) := by
  have hharvest := harvest_eq_ok_iff.mpr ⟨due, store, notes, h, whole, rfl, rfl, rfl, rfl⟩
  simp only [perform, hharvest, Except.mapError, Fault.ok_bind, Fault.pure_eq_ok]

theorem perform_heartbeat_of_fault {due : List Timer} {fault : Fault}
    (h : s.store.harvest reading = .ok (due, store, notes))
    (broken : (announce s.payloads outbox due).fault = some fault) :
    s.perform outbox (.heartbeat reading) = .error fault := by
  have hharvest := harvest_eq_error_iff.mpr (.inr ⟨due, store, notes, fault, h, broken, rfl⟩)
  simp only [perform, hharvest, Except.mapError, Fault.error_bind]

end Handling

/-! ### Following a roster -/

/-- The store has the timers of the roster, and the service has its payloads. -/
structure Follows (s : Service) (r : Roster) : Prop where
  store : s.store.Follows r.agenda
  payload_iff : ∀ {name payload : String}, s.payloads[name]? = some payload ↔
    ∃ job ∈ r.jobs, job.name = name ∧ job.payload = payload

namespace Follows

variable {s : Service} {r : Roster}

theorem names_nodup (h : s.Follows r) : (r.jobs.map Job.name).Nodup := by
  have hids := h.store.ids_nodup
  rw [Roster.agenda, List.map_map] at hids
  refine List.Nodup.of_map Bytes.ofString ?_
  rw [List.map_map]
  exact hids

theorem getElem?_payloads (h : s.Follows r) (name : String) :
    s.payloads[name]? = r.payload? name := by
  cases hpayload : r.payload? name with
  | none =>
    have hnone := List.find?_eq_none.mp (Option.map_eq_none_iff.mp hpayload)
    refine Option.eq_none_iff_forall_ne_some.mpr fun payload hstored => ?_
    obtain ⟨job, hjob, hname, -⟩ := h.payload_iff.mp hstored
    exact hnone job hjob (by simpa using hname)
  | some payload =>
    obtain ⟨job, hfind, rfl⟩ := Option.map_eq_some_iff.mp hpayload
    have hname : job.name = name := by simpa using List.find?_some hfind
    exact h.payload_iff.mpr ⟨job, List.mem_of_find?_eq_some hfind, hname, rfl⟩

/-- Without a job there is neither its timer nor its payload. -/
theorem without (h : s.Follows r) {store : Store} {name : String}
    (hstore : store.Follows (r.agenda.without (Bytes.ofString name))) :
    Follows { s with store, payloads := s.payloads.erase name } (r.without name) := by
  refine ⟨r.agenda_without name ▸ hstore, fun {name' payload} => ?_⟩
  simp only [Std.TreeMap.getElem?_erase, Std.LawfulEqOrd.compare_eq_iff_eq]
  constructor
  · intro hstored
    split at hstored
    · cases hstored
    · next hne =>
      obtain ⟨job, hjob, rfl, rfl⟩ := h.payload_iff.mp hstored
      exact ⟨job, List.mem_filter.mpr ⟨hjob, decide_eq_true (Ne.symm hne)⟩, rfl, rfl⟩
  · rintro ⟨job, hjob, rfl, rfl⟩
    obtain ⟨hjob, hne⟩ := List.mem_filter.mp hjob
    rw [if_neg (Ne.symm (of_decide_eq_true hne))]
    exact h.payload_iff.mpr ⟨job, hjob, rfl, rfl⟩

/-- Starting a job starts its timer and stores its payload. -/
theorem start (h : s.Follows r) {store : Store} {reading : Instant} {name payload : String}
    {duration : Duration}
    (hstore : store.Follows (r.agenda.start reading (Bytes.ofString name) duration.toTtl)) :
    Follows { s with store, payloads := s.payloads.insert name payload }
      (r.start reading name payload duration) := by
  refine ⟨r.agenda_start reading name payload duration ▸ hstore, fun {name' payload'} => ?_⟩
  simp only [Std.TreeMap.getElem?_insert, Std.LawfulEqOrd.compare_eq_iff_eq]
  constructor
  · intro hstored
    split at hstored
    · next heq =>
      refine ⟨_, List.mem_append_right _ List.mem_cons_self, by simpa using heq, ?_⟩
      exact Option.some.inj hstored
    · next hne =>
      obtain ⟨job, hjob, rfl, rfl⟩ := h.payload_iff.mp hstored
      refine ⟨job, List.mem_append_left _ (List.mem_filter.mpr ⟨hjob, ?_⟩), rfl, rfl⟩
      exact decide_eq_true (Ne.symm hne)
  · rintro ⟨job, hjob, rfl, rfl⟩
    rcases List.mem_append.mp hjob with hjob | hjob
    · obtain ⟨hjob, hne⟩ := List.mem_filter.mp hjob
      rw [if_neg (Ne.symm (of_decide_eq_true hne))]
      exact h.payload_iff.mpr ⟨job, hjob, rfl, rfl⟩
    · rw [List.mem_singleton.mp hjob, if_pos (by simp)]

/-- Replacing a payload leaves the timers alone. -/
theorem update (h : s.Follows r) (name payload : String) :
    Follows { s with payloads := s.payloads.modify name fun _ => payload }
      (r.update name payload) := by
  refine ⟨(r.agenda_update name payload).symm ▸ h.store, fun {name' payload'} => ?_⟩
  simp only [Std.TreeMap.getElem?_modify, Std.LawfulEqOrd.compare_eq_iff_eq]
  constructor
  · intro hstored
    split at hstored
    · next heq =>
      subst heq
      obtain ⟨old, hold, rfl⟩ := Option.map_eq_some_iff.mp hstored
      obtain ⟨job, hjob, rfl, -⟩ := h.payload_iff.mp hold
      exact ⟨_, List.mem_map_of_mem hjob, by simp, by simp⟩
    · next hne =>
      obtain ⟨job, hjob, rfl, rfl⟩ := h.payload_iff.mp hstored
      exact ⟨job, List.mem_map.mpr ⟨job, hjob, if_neg (Ne.symm hne)⟩, rfl, rfl⟩
  · rintro ⟨job, hjob, rfl, rfl⟩
    obtain ⟨old, hold, rfl⟩ := List.mem_map.mp hjob
    have hstored : s.payloads[old.name]? = some old.payload :=
      h.payload_iff.mpr ⟨old, hold, rfl, rfl⟩
    by_cases heq : old.name = name
    · rw [if_pos heq, if_pos heq.symm, ← heq, hstored]
      rfl
    · rw [if_neg heq, if_neg (Ne.symm heq), hstored]

/-- Announcing the jobs that are due posts their news, as every job has its payload. -/
theorem announce_due (h : s.Follows r) (heard : outbox.hasReceiver = true) (reading : Instant) :
    (announce s.payloads outbox ((r.due reading).map Job.timer)).deliveries =
        (post outbox ((r.due reading).map Job.news)).1 ∧
      (announce s.payloads outbox ((r.due reading).map Job.timer)).outbox =
        (post outbox ((r.due reading).map Job.news)).2 ∧
      (announce s.payloads outbox ((r.due reading).map Job.timer)).fault = none :=
  announce_jobs heard (r.due reading) (nodup_map_dueBy h.names_nodup) fun job hjob =>
    h.payload_iff.mpr ⟨job, (mem_dueBy.mp hjob).1, rfl, rfl⟩

/-- The jobs that are due lose their timers, and announcing them takes their payloads. -/
theorem harvest (h : s.Follows r) (heard : outbox.hasReceiver = true) {store : Store}
    {reading : Instant} (hstore : store.Follows (r.harvest reading).agenda) :
    Follows { s with store, payloads :=
      (announce s.payloads outbox ((r.due reading).map Job.timer)).payloads }
        (r.harvest reading) := by
  refine ⟨hstore, fun {name payload} => ?_⟩
  obtain ⟨-, -, hwhole⟩ := h.announce_due heard reading
  have hnames : ((r.due reading).map Job.timer).map (nameOf ·.id) =
      (r.due reading).map Job.name := by
    simp [Job.timer, nameOf_ofString]
  rw [getElem?_announce heard hwhole, hnames]
  constructor
  · intro hpayload
    split at hpayload
    · cases hpayload
    · next hnotDue =>
      obtain ⟨job, hjob, rfl, rfl⟩ := h.payload_iff.mp hpayload
      rw [Roster.name_mem_due_iff h.names_nodup hjob] at hnotDue
      exact ⟨job, List.mem_filter.mpr ⟨hjob, decide_eq_true (Int64.not_le.mp hnotDue)⟩, rfl, rfl⟩
  · rintro ⟨job, hjob, rfl, rfl⟩
    obtain ⟨hjob, hlt⟩ := List.mem_filter.mp hjob
    rw [if_neg, h.payload_iff]
    · exact ⟨job, hjob, rfl, rfl⟩
    · rw [Roster.name_mem_due_iff h.names_nodup hjob]
      exact Int64.not_le.mpr (of_decide_eq_true hlt)

/-- A heartbeat posts the news of the jobs that are due and harvests them. -/
theorem heartbeat (h : s.Follows r) (heard : outbox.hasReceiver = true) (reading : Instant) :
    ∃ s', s.perform outbox (.heartbeat reading) =
        .ok (.harvested (post outbox ((r.due reading).map Job.news)).1, s',
          (post outbox ((r.due reading).map Job.news)).2) ∧
      s'.Follows (r.harvest reading) := by
  obtain ⟨store, notes, hharvest, hstore⟩ := h.store.harvest reading
  rw [r.agenda_harvest] at hharvest hstore
  obtain ⟨hdeliveries, houtbox, hwhole⟩ := h.announce_due heard reading
  have hperform := perform_heartbeat hharvest hwhole
  rw [hdeliveries, houtbox] at hperform
  exact ⟨_, hperform, h.harvest heard hstore⟩

/-- A command is handled as by the roster. -/
theorem handle (h : s.Follows r) (reading : Instant) (command : Command) :
    ∃ handled, s.handle reading command = .ok handled ∧
      handled.reply = (r.handle reading command).1 ∧
      handled.stops = decide (command = .shutdown) ∧
      handled.service.Follows (r.handle reading command).2 := by
  cases command with
  | set name payload duration =>
    obtain ⟨store, notes, hset, hstore⟩ :=
      h.store.set reading (Bytes.ofString name) duration.toTtl
    exact ⟨_, handle_set hset, rfl, rfl, h.start hstore⟩
  | cancel name =>
    obtain ⟨store, hcancel, hstore⟩ := h.store.cancel (Bytes.ofString name)
    refine ⟨_, handle_cancel hcancel, ?_, rfl, h.without hstore⟩
    rw [h.getElem?_payloads]
    rfl
  | cancelAll =>
    refine ⟨_, rfl, rfl, rfl, h.store.clear, fun {name payload} => ?_⟩
    simp [Roster.handle]
  | look name =>
    refine ⟨_, rfl, ?_, rfl, h⟩
    rw [h.getElem?_payloads]
    rfl
  | update name payload =>
    refine ⟨_, rfl, ?_, rfl, h.update name payload⟩
    rw [h.getElem?_payloads]
    rfl
  | deadline name =>
    have hdeadline := h.store.deadline?_eq (Bytes.ofString name)
    rw [r.find?_agenda, Option.map_map] at hdeadline
    exact ⟨_, handle_deadline hdeadline, rfl, rfl, h⟩
  | nextDeadline =>
    have hnext := h.store.nextDeadline?_eq
    rw [r.nextDeadline?_agenda] at hnext
    exact ⟨_, handle_nextDeadline hnext, rfl, rfl, h⟩
  | timeLeft =>
    have hleft := h.store.timeLeft?_eq reading
    rw [r.timeLeft?_agenda] at hleft
    exact ⟨_, handle_timeLeft hleft, rfl, rfl, h⟩
  | popSoonest =>
    obtain ⟨store, hpop, hstore⟩ := h.store.popSoonest
    cases hsoonest : r.soonest? with
    | none =>
      rw [Roster.agenda_popSoonest_of_none hsoonest] at hpop hstore
      simp only [Roster.handle, hsoonest]
      exact ⟨_, handle_popSoonest_of_none hpop, rfl, rfl, hstore, h.payload_iff⟩
    | some job =>
      have hstored : s.payloads[job.name]? = some job.payload :=
        h.payload_iff.mpr ⟨job, (soonest?_eq_some hsoonest).1, rfl, rfl⟩
      rw [Roster.agenda_popSoonest_of_some hsoonest] at hpop hstore
      simp only [Roster.handle, hsoonest]
      exact ⟨_, handle_popSoonest_of_some hpop (newsOf_job hstored), rfl, rfl, h.without hstore⟩
  | count =>
    refine ⟨_, rfl, ?_, rfl, h⟩
    simp only [replying, Roster.handle, h.store.size_eq, Roster.agenda, List.length_map]
  | shutdown => exact ⟨_, rfl, rfl, rfl, h⟩

/-- Whatever happens, the same comes of it as of the roster. -/
theorem perform (h : s.Follows r) (heard : outbox.hasReceiver = true) (occurrence : Occurrence) :
    ∃ s', s.perform outbox occurrence =
        .ok ((r.perform outbox occurrence).1, s', (r.perform outbox occurrence).2.2) ∧
      s'.Follows (r.perform outbox occurrence).2.1 ∧
      (r.perform outbox occurrence).2.2.hasReceiver = true := by
  cases occurrence with
  | command reading command =>
    obtain ⟨handled, hhandle, hreply, hstops, hs'⟩ := h.handle reading command
    have hperform := perform_command hhandle outbox
    rw [hreply, hstops] at hperform
    exact ⟨handled.service, hperform, hs', heard⟩
  | heartbeat reading =>
    obtain ⟨s', hperform, hs'⟩ := h.heartbeat heard reading
    exact ⟨s', hperform, hs', heard⟩
  | receive => exact ⟨s, rfl, h, (hasReceiver_receive outbox).trans heard⟩

/-- Whatever happens one after the other, the same comes of it as of the roster. -/
theorem run (h : s.Follows r) (heard : outbox.hasReceiver = true) (occurrences : List Occurrence) :
    ∃ s', s.run outbox occurrences =
        .ok ((r.run outbox occurrences).1, s', (r.run outbox occurrences).2.2) ∧
      s'.Follows (r.run outbox occurrences).2.1 := by
  induction occurrences generalizing s r outbox with
  | nil => exact ⟨s, rfl, h⟩
  | cons occurrence rest ih =>
    obtain ⟨s₁, hperform, h₁, heard₁⟩ := h.perform heard occurrence
    obtain ⟨s', hrun, h'⟩ := ih h₁ heard₁
    refine ⟨s', ?_, h'⟩
    simp only [Service.run, hperform, hrun, Fault.ok_bind, Fault.pure_eq_ok]
    rfl

end Follows

/-- A service over a store without timers follows a roster without jobs. -/
theorem Follows.of_unused {store : Store} (reachable : store.Reachable)
    (unused : store.isEmpty = true) (name : String) :
    Follows { name, store } { tolerance := store.tolerance, latest := store.latest } := by
  obtain ⟨⟨timers, tolerance, latest⟩, hstore⟩ := reachable.exists_follows
  rw [hstore.isEmpty_eq, List.isEmpty_iff] at unused
  obtain ⟨ledger, hkeeps, htimers, htolerance, hlatest⟩ := hstore
  exact ⟨⟨ledger, hkeeps, unused.symm.trans htimers, rfl, rfl⟩, by simp⟩

/-- A service over a store without timers does what a roster without jobs does: all replies and all
news are the same, whatever the clock shows. A payload that it hands out for a name is always the
one that was last given for that name. -/
theorem run_outcomes_eq_roster {store : Store} (reachable : store.Reachable)
    (unused : store.isEmpty = true) (name : String) (heard : outbox.hasReceiver = true)
    (occurrences : List Occurrence) :
    let r : Roster := { tolerance := store.tolerance, latest := store.latest }
    ∃ outcomes s outbox', run { name, store } outbox occurrences = .ok (outcomes, s, outbox') ∧
      outcomes = (r.run outbox occurrences).1 ∧ outbox' = (r.run outbox occurrences).2.2 ∧
      ∀ {i : Nat} {occurrence : Occurrence} {outcome : Outcome} {name payload : String},
        occurrences[i]? = some occurrence → outcomes[i]? = some outcome →
        (name, payload) ∈ handedOut occurrence outcome →
        lastGiven name (occurrences.take i) = some payload := by
  intro r
  have hfollows : Follows { name, store } r := .of_unused reachable unused name
  have hupToDate : r.UpToDate [] := by simp [Roster.UpToDate, r]
  obtain ⟨s, hrun, -⟩ := hfollows.run heard occurrences
  refine ⟨_, s, _, hrun, rfl, rfl, fun hoccurrence houtcome hout => ?_⟩
  have hlast := hupToDate.run outbox hoccurrence houtcome hout
  rwa [List.nil_append] at hlast

/-- A timer is set, its payload is replaced, and a heartbeat sends the new one. -/
theorem run_outcomes_eq_roster_heartbeat :
    (Store.empty 1).Reachable ∧ (Store.empty 1).isEmpty = true ∧
    ∃ outcomes s outbox', run { name := "m", store := Store.empty 1 } { capacity := 1 }
        [.command 0 (.set "a" "x" (.ofMillis 5)), .command 3 (.update "a" "y"), .heartbeat 4] =
          .ok (outcomes, s, outbox') ∧
      outcomes = [.handled (some .done) false, .handled (some (.payload (some "x"))) false,
        .harvested [.sent ⟨"a", "y"⟩]] ∧ outbox'.items = [⟨"a", "y"⟩] := by
  have hreachable : (Store.empty 1).Reachable := ⟨1, [], [], rfl⟩
  have hunused : (Store.empty 1).isEmpty = true := rfl
  obtain ⟨outcomes, s, outbox', hrun, rfl, rfl, -⟩ :=
    @run_outcomes_eq_roster { capacity := 1 } _ hreachable hunused "m" rfl
      [.command 0 (.set "a" "x" (.ofMillis 5)), .command 3 (.update "a" "y"), .heartbeat 4]
  exact ⟨hreachable, hunused, _, s, _, hrun, by decide +kernel, by decide +kernel⟩

end Service

end Expiry
