import Expiry.Proofs.Agenda
import Expiry.Service.Occurrence

/-!
# Rosters

A roster is what a timer service would be if the payload of a timer were kept with the timer: one
list of jobs, each with a name, a payload and a deadline, in the order in which they were started.
It is the account against which a service is held.

What was said of agendas holds of rosters: the timers of the jobs are on an agenda, and to carry out
a command on a roster is to carry out an operation on its agenda, with the payloads going along. A
payload that a roster hands out for a name is the one that was last given for that name, because a
job is there only as long as its payload is the current one.

## Main definitions

* `Job`, `Roster` — a timer with its name and payload, and a list of them
* `Roster.perform`, `Roster.run` — what happens to a roster
* `Occurrence.given?`, `lastGiven` — the payload last given for a name
* `handedOut` — the names and payloads that come out of an occurrence

## Main results

* `Roster.agenda_start`, `Roster.agenda_without`, `Roster.agenda_harvest` — the timers are those of
  an agenda
* `Roster.UpToDate.perform` — every job has the payload last given for its name
* `Roster.UpToDate.run` — and so has everything that is handed out
-/

namespace Expiry

/-- A timer with its name and payload. -/
structure Job where
  name : String
  payload : String
  ttl : UInt64
  deadline : Instant
  deriving DecidableEq

namespace Job

/-- The timer of a job. -/
def timer (job : Job) : Timer :=
  { id := Bytes.ofString job.name, ttl := job.ttl, deadline := job.deadline }

/-- The news that a job has ended. -/
def news (job : Job) : Expiration := ⟨job.name, job.payload⟩

end Job

/-- Send news to a mailbox that has a receiver: what there is room for is sent, and the rest is
dropped. -/
def post (outbox : Mailbox Expiration) (news : List Expiration) :
    List Delivery × Mailbox Expiration :=
  let room := outbox.capacity - outbox.items.length
  ((news.take room).map .sent ++ (news.drop room).map .dropped,
    { outbox with items := outbox.items ++ news.take room })

/-- The jobs in the order in which they were started, and the latest instant acted at. -/
structure Roster where
  jobs : List Job := []
  /-- How many milliseconds before its deadline a job counts as due. -/
  tolerance : UInt64
  latest : Instant := Instant.first

namespace Roster

/-- The instant that a clock reading stands for. -/
def now (r : Roster) (reading : Instant) : Instant := max reading r.latest

/-- The payload of the job called `name`. -/
def payload? (r : Roster) (name : String) : Option String :=
  (r.jobs.find? (·.name = name)).map (·.payload)

/-- The roster without the job called `name`. -/
def without (r : Roster) (name : String) : Roster :=
  { r with jobs := r.jobs.filter (·.name ≠ name) }

/-- The roster without the job called `name`, and with a new one at its end. It runs for the whole
milliseconds of `duration`, as far as 64 bits go. -/
def start (r : Roster) (reading : Instant) (name payload : String) (duration : Duration) : Roster :=
  let ttl := UInt64.ofNat (min (duration.toNanos / 1000000) (UInt64.size - 1))
  let job := { name, payload, ttl, deadline := (r.now reading).after ttl }
  { r with jobs := (r.without name).jobs ++ [job], latest := r.now reading }

/-- The roster with another payload for the job called `name`, if there is one. -/
def update (r : Roster) (name payload : String) : Roster :=
  { r with jobs := r.jobs.map fun job => if job.name = name then { job with payload } else job }

/-- The least deadline. -/
def nextDeadline? (r : Roster) : Option Instant := (r.jobs.map (·.deadline)).min?

/-- The exact difference to the least deadline, zero if that has passed. -/
def timeLeft? (r : Roster) (reading : Instant) : Option UInt64 :=
  r.nextDeadline?.map fun t => UInt64.ofNat (t.toInt - (r.now reading).toInt).toNat

/-- The soonest job. -/
def soonest? (r : Roster) : Option Job := Expiry.soonest? Job.timer r.jobs

/-- The jobs that are due. -/
def due (r : Roster) (reading : Instant) : List Job :=
  dueBy Job.timer ((r.now reading).after r.tolerance) r.jobs

/-- The roster without the jobs that are due. -/
def harvest (r : Roster) (reading : Instant) : Roster :=
  let horizon := (r.now reading).after r.tolerance
  { r with jobs := r.jobs.filter (horizon < ·.deadline), latest := r.now reading }

/-- The reply to a command, and the roster afterwards. -/
def handle (r : Roster) (reading : Instant) : Command → Option Reply × Roster
  | .set name payload duration => (some .done, r.start reading name payload duration)
  | .cancel name => (some (.payload (r.payload? name)), r.without name)
  | .cancelAll => (none, { r with jobs := [] })
  | .look name => (some (.payload (r.payload? name)), r)
  | .update name payload => (some (.payload (r.payload? name)), r.update name payload)
  | .deadline name => (some (.instant ((r.jobs.find? (·.name = name)).map (·.deadline))), r)
  | .nextDeadline => (some (.instant r.nextDeadline?), r)
  | .timeLeft => (some (.wait ((r.timeLeft? reading).map .ofMillis)), r)
  | .popSoonest =>
    match r.soonest? with
    | some job => (some (.timer (some (job.name, job.payload))), r.without job.name)
    | none => (some (.timer none), r)
  | .count => (some (.count r.jobs.length), r)
  | .shutdown => (none, r)

/-- What comes of an occurrence, and the roster and the mailbox afterwards. -/
def perform (r : Roster) (outbox : Mailbox Expiration) :
    Occurrence → Outcome × Roster × Mailbox Expiration
  | .command reading command =>
    let (reply, r) := r.handle reading command
    (.handled reply (command = .shutdown), r, outbox)
  | .heartbeat reading =>
    let (deliveries, outbox) := post outbox ((r.due reading).map Job.news)
    (.harvested deliveries, r.harvest reading, outbox)
  | .receive =>
    let (receipt, outbox) := outbox.receive
    (.received receipt, r, outbox)

/-- One thing after the other. -/
def run (r : Roster) (outbox : Mailbox Expiration) :
    List Occurrence → List Outcome × Roster × Mailbox Expiration
  | [] => ([], r, outbox)
  | occurrence :: rest =>
    let (outcome, r, outbox) := r.perform outbox occurrence
    let (outcomes, r, outbox) := r.run outbox rest
    (outcome :: outcomes, r, outbox)

/-! ### The timers of the jobs -/

variable {r : Roster} {reading : Instant} {name payload : String} {outbox : Mailbox Expiration}

/-- The timers of the jobs. -/
def agenda (r : Roster) : Agenda :=
  { timers := r.jobs.map Job.timer, tolerance := r.tolerance, latest := r.latest }

theorem agenda_without (r : Roster) (name : String) :
    (r.without name).agenda = r.agenda.without (Bytes.ofString name) := by
  simp only [agenda, without, Agenda.without, List.filter_map, Agenda.mk.injEq, and_true]
  congr 1
  refine List.filter_congr fun job _ => ?_
  simp [Job.timer, Bytes.ofString_inj]

theorem agenda_start (r : Roster) (reading : Instant) (name payload : String)
    (duration : Duration) : (r.start reading name payload duration).agenda =
      r.agenda.start reading (Bytes.ofString name) duration.toTtl := by
  rw [Agenda.start, ← agenda_without]
  simp only [agenda, start, List.map_append]
  rfl

theorem agenda_update (r : Roster) (name payload : String) :
    (r.update name payload).agenda = r.agenda := by
  simp only [agenda, update, List.map_map, Agenda.mk.injEq, and_true]
  refine List.map_congr_left fun job _ => ?_
  by_cases heq : job.name = name <;> simp [Job.timer, heq]

theorem find?_agenda (r : Roster) (name : String) :
    r.agenda.timers.find? (·.id = Bytes.ofString name) =
      (r.jobs.find? (·.name = name)).map Job.timer := by
  simp only [agenda, List.find?_map, Function.comp_def, Job.timer, Bytes.ofString_inj]

theorem nextDeadline?_agenda (r : Roster) : r.agenda.nextDeadline? = r.nextDeadline? := by
  rw [Agenda.nextDeadline?, nextDeadline?, agenda, List.map_map]
  rfl

theorem timeLeft?_agenda (r : Roster) (reading : Instant) :
    r.agenda.timeLeft? reading = r.timeLeft? reading := by
  rw [Agenda.timeLeft?, timeLeft?, nextDeadline?_agenda]
  rfl

theorem soonest?_agenda (r : Roster) :
    Expiry.soonest? (fun t => t) r.agenda.timers = r.soonest?.map Job.timer := soonest?_map r.jobs

theorem agenda_popSoonest_of_none (h : r.soonest? = none) :
    r.agenda.popSoonest = (none, r.agenda) := by
  rw [Agenda.popSoonest, soonest?_agenda, h]
  rfl

theorem agenda_popSoonest_of_some {job : Job} (h : r.soonest? = some job) :
    r.agenda.popSoonest =
      (some job.timer, r.agenda.without (Bytes.ofString job.name)) := by
  rw [Agenda.popSoonest, soonest?_agenda, h]
  rfl

theorem agenda_harvest (r : Roster) (reading : Instant) :
    r.agenda.harvest reading = ((r.due reading).map Job.timer, (r.harvest reading).agenda) := by
  simp only [Agenda.harvest, agenda, due, harvest, dueBy_map, List.filter_map]
  rfl

/-- Because names are unique, a name is that of a job that is due only if its job is due. -/
theorem name_mem_due_iff (distinct : (r.jobs.map Job.name).Nodup) {job : Job}
    (hjob : job ∈ r.jobs) {reading : Instant} :
    job.name ∈ (r.due reading).map Job.name ↔
      job.deadline ≤ (r.now reading).after r.tolerance := by
  constructor
  · intro hname
    obtain ⟨job', hdue, hname⟩ := List.mem_map.mp hname
    obtain ⟨hjob', hle⟩ := mem_dueBy.mp hdue
    obtain rfl := List.inj_on_of_nodup_map distinct hjob' hjob hname
    exact hle
  · intro hle
    exact List.mem_map_of_mem (mem_dueBy.mpr ⟨hjob, hle⟩)

end Roster

/-! ### What was given last -/

/-- The payload that an occurrence gives for `name`. -/
def Occurrence.given? (name : String) : Occurrence → Option String
  | .command _ (.set name' payload _) | .command _ (.update name' payload) =>
    if name' = name then some payload else none
  | _ => none

/-- The payload that was last given for `name`. -/
def lastGiven (name : String) (past : List Occurrence) : Option String :=
  (past.filterMap (·.given? name)).getLast?

/-- The name whose payload a command asks for. -/
def Command.asked? : Command → Option String
  | .cancel name | .look name | .update name _ => some name
  | _ => none

/-- The names that come out of an occurrence, each with its payload. -/
def handedOut : Occurrence → Outcome → List (String × String)
  | .command _ command, .handled (some (.payload (some payload))) _ =>
    command.asked?.toList.map fun name => (name, payload)
  | .command _ _, .handled (some (.timer (some nameAndPayload))) _ => [nameAndPayload]
  | .heartbeat _, .harvested deliveries =>
    deliveries.map fun delivery => (delivery.news.name, delivery.news.payload)
  | _, _ => []

/-- A reply with a payload hands it out for the name asked for. -/
theorem eq_of_mem_handedOut {command : Command} {reading : Instant} {name name' payload : String}
    {value : Option String} {stops : Bool} (asked : command.asked? = some name)
    (hout : (name', payload) ∈
      handedOut (.command reading command) (.handled (some (.payload value)) stops)) :
    name' = name ∧ value = some payload := by
  cases value with
  | none => simp [handedOut] at hout
  | some payload' =>
    simp only [handedOut, asked, Option.toList_some, List.map_cons, List.map_nil,
      List.mem_singleton, Prod.mk.injEq] at hout
    exact ⟨hout.1, by rw [hout.2]⟩

/-- Every piece of news is either sent or dropped. -/
theorem map_news_post (outbox : Mailbox Expiration) (news : List Expiration) :
    (post outbox news).1.map Delivery.news = news := by
  simp [post, List.map_append, Function.comp_def, Delivery.news]

theorem lastGiven_append (name : String) (past : List Occurrence) (occurrence : Occurrence) :
    lastGiven name (past ++ [occurrence]) = (occurrence.given? name).or (lastGiven name past) := by
  rw [lastGiven, List.filterMap_append, List.getLast?_append, lastGiven]
  cases hgiven : occurrence.given? name <;> simp [hgiven]

namespace Roster

variable {r : Roster} {reading : Instant} {name payload : String} {outbox : Mailbox Expiration}
variable {past rest : List Occurrence} {occurrence : Occurrence}

theorem exists_job_of_payload? (h : r.payload? name = some payload) :
    ∃ job ∈ r.jobs, job.name = name ∧ job.payload = payload := by
  obtain ⟨job, hfind, rfl⟩ := Option.map_eq_some_iff.mp h
  have hname : job.name = name := by simpa using List.find?_some hfind
  exact ⟨job, List.mem_of_find?_eq_some hfind, hname, rfl⟩

/-- What is handed out for a name is the payload of its job. -/
theorem exists_job_of_mem_handedOut
    (hout : (name, payload) ∈ handedOut occurrence (r.perform outbox occurrence).1) :
    ∃ job ∈ r.jobs, job.name = name ∧ job.payload = payload := by
  cases occurrence with
  | receive => simp [Expiry.handedOut] at hout
  | heartbeat reading =>
    have hdeliveries : (name, payload) ∈ (post outbox ((r.due reading).map Job.news)).1.map
        fun delivery => (delivery.news.name, delivery.news.payload) := hout
    obtain ⟨delivery, hdelivery, hnews⟩ := List.mem_map.mp hdeliveries
    have hmem := List.mem_map_of_mem (f := Delivery.news) hdelivery
    rw [map_news_post] at hmem
    obtain ⟨job, hjob, hjobNews⟩ := List.mem_map.mp hmem
    rw [← hjobNews] at hnews
    obtain ⟨rfl, rfl⟩ := Prod.mk.inj hnews
    exact ⟨job, (mem_dueBy.mp hjob).1, rfl, rfl⟩
  | command reading command =>
    -- Three commands ask for a payload.
    have hasked : ∀ {name' : String} {stops : Bool}, command.asked? = some name' →
        (name, payload) ∈ Expiry.handedOut (.command reading command)
          (.handled (some (.payload (r.payload? name'))) stops) →
        ∃ job ∈ r.jobs, job.name = name ∧ job.payload = payload := by
      intro name' stops asked hout
      obtain ⟨rfl, hpayload⟩ := eq_of_mem_handedOut asked hout
      exact exists_job_of_payload? hpayload
    cases command with
    | popSoonest =>
      simp only [Roster.perform, Roster.handle] at hout
      cases hsoonest : r.soonest? with
      | none => simp [hsoonest, Expiry.handedOut] at hout
      | some job =>
        obtain ⟨rfl, rfl⟩ : name = job.name ∧ payload = job.payload := by
          simpa [hsoonest, Expiry.handedOut] using hout
        exact ⟨job, (soonest?_eq_some hsoonest).1, rfl, rfl⟩
    | cancel name' => exact hasked rfl hout
    | look name' => exact hasked rfl hout
    | update name' _ => exact hasked rfl hout
    | _ => simp [Roster.perform, Roster.handle, Expiry.handedOut] at hout

/-- Every job has the payload that was last given for its name. -/
def UpToDate (r : Roster) (past : List Occurrence) : Prop :=
  ∀ job ∈ r.jobs, lastGiven job.name past = some job.payload

namespace UpToDate

/-- What gives no payload and starts no job. -/
theorem mono {r' : Roster} (h : r.UpToDate past) (fewer : r'.jobs ⊆ r.jobs)
    (nothing : ∀ name, occurrence.given? name = none) : r'.UpToDate (past ++ [occurrence]) := by
  intro job hjob
  rw [lastGiven_append, nothing, Option.none_or]
  exact h job (fewer hjob)

theorem start (h : r.UpToDate past) (reading : Instant) (name payload : String)
    (duration : Duration) : (r.start reading name payload duration).UpToDate
      (past ++ [.command reading (.set name payload duration)]) := by
  intro job hjob
  rw [lastGiven_append, Occurrence.given?]
  rcases List.mem_append.mp hjob with hjob | hjob
  · obtain ⟨hjob, hne⟩ := List.mem_filter.mp hjob
    have hne : name ≠ job.name := fun heq => by simp [heq] at hne
    rw [if_neg hne, Option.none_or]
    exact h job hjob
  · rw [List.mem_singleton.mp hjob, if_pos rfl]
    rfl

theorem update (h : r.UpToDate past) (reading : Instant) (name payload : String) :
    (r.update name payload).UpToDate (past ++ [.command reading (.update name payload)]) := by
  intro job hjob
  obtain ⟨old, hold, rfl⟩ := List.mem_map.mp hjob
  rw [lastGiven_append, Occurrence.given?]
  by_cases heq : old.name = name
  · simp [heq]
  · rw [if_neg heq, if_neg (Ne.symm heq), Option.none_or]
    exact h old hold

/-- Afterwards every job has the payload last given for its name again. -/
theorem perform (h : r.UpToDate past) (outbox : Mailbox Expiration) (occurrence : Occurrence) :
    (r.perform outbox occurrence).2.1.UpToDate (past ++ [occurrence]) := by
  cases occurrence with
  | receive => exact h.mono (fun _ hjob => hjob) fun _ => rfl
  | heartbeat reading => exact h.mono List.filter_sublist.subset fun _ => rfl
  | command reading command =>
    cases command with
    | set name payload duration => exact h.start reading name payload duration
    | update name payload => exact h.update reading name payload
    | cancel name => exact h.mono List.filter_sublist.subset fun _ => rfl
    | cancelAll => exact h.mono (List.nil_subset _) fun _ => rfl
    | popSoonest =>
      simp only [Roster.perform, Roster.handle]
      cases r.soonest? with
      | none => exact h.mono (fun _ hjob => hjob) fun _ => rfl
      | some job => exact h.mono List.filter_sublist.subset fun _ => rfl
    | _ => exact h.mono (fun _ hjob => hjob) fun _ => rfl

/-- A payload that is handed out for a name is the one last given for it. -/
theorem handedOut (h : r.UpToDate past) (outbox : Mailbox Expiration)
    (hout : (name, payload) ∈ handedOut occurrence (r.perform outbox occurrence).1) :
    lastGiven name past = some payload := by
  obtain ⟨job, hjob, rfl, rfl⟩ := exists_job_of_mem_handedOut hout
  exact h job hjob

/-- In a run every payload that is handed out for a name is the one last given for it. -/
theorem run (h : r.UpToDate past) (outbox : Mailbox Expiration) {i : Nat} {outcome : Outcome}
    (hoccurrence : rest[i]? = some occurrence)
    (houtcome : (r.run outbox rest).1[i]? = some outcome)
    (hout : (name, payload) ∈ Expiry.handedOut occurrence outcome) :
    lastGiven name (past ++ rest.take i) = some payload := by
  induction rest generalizing r past outbox i with
  | nil => cases hoccurrence
  | cons first rest ih =>
    cases i with
    | zero =>
      obtain rfl := Option.some.inj hoccurrence
      obtain rfl := Option.some.inj houtcome
      rw [List.take_zero, List.append_nil]
      exact h.handedOut outbox hout
    | succ i =>
      have hrest := ih (h.perform outbox first) (r.perform outbox first).2.2 hoccurrence houtcome
      rwa [List.append_assoc] at hrest

end UpToDate

end Roster

end Expiry
