import Mathlib.Data.List.Induction
import Expiry.Proofs.Service

/-!
# Generations of timers

A name can have one timer after the other. Each command that sets a timer begins a generation of its
name. The generations of a service are told from outside, from what happened and what came of it,
without a look at the service: a generation ends when its name is set again, when a reply or a piece
of news says that it was taken, or when all timers are cancelled.

That the account is right is a fact about the service. Only what is live is ever taken, and nothing
is taken twice, so that the replies and the news of a whole run are the generations that were taken,
each of them once. What the account says is live is what is running.

## Main definitions

* `Generation`, `Ending` — one timer of a name, and how it ended
* `takings` — what is taken, as an outcome shows
* `generations` — the account of a run
* `Service.Accounted` — what the account says of a service

## Main results

* `filter_wasTaken_advance` — what is taken was live before, and is counted once
* `Roster.Tallies.perform`, `Roster.Tallies.run` — the live generations of a roster are its jobs
* `Service.run_generations` — every generation that a service begins ends at most once, and in one
  way
-/

namespace Expiry

/-- How a generation ends. -/
inductive Ending where
  /-- Its name was set again. -/
  | superseded
  /-- It was cancelled, and the reply had its payload. -/
  | cancelled
  /-- It was the soonest, and the reply had its name and its payload. -/
  | popped
  /-- All timers were cancelled. -/
  | cleared
  /-- It was due, and there was news of it. -/
  | fired
  deriving DecidableEq

/-- One timer of a name, from the command that sets it to its end. -/
structure Generation where
  name : String
  /-- The payload that it has, or had at its end. -/
  payload : String
  /-- How it ended, unless it is live. -/
  ending : Option Ending := none
  deriving DecidableEq

namespace Generation

def isLive (g : Generation) : Bool := g.ending.isNone

/-- Whether a reply or a piece of news told of the end. -/
def wasTaken (g : Generation) : Bool :=
  g.ending = some .cancelled ∨ g.ending = some .popped ∨ g.ending = some .fired

end Generation

/-- The generation that an occurrence begins. -/
def Occurrence.begun? : Occurrence → Option Generation
  | .command _ (.set name payload _) => some { name, payload }
  | _ => none

/-- The generations that an occurrence takes, as its outcome shows. -/
def takings : Occurrence → Outcome → List Generation
  | .command _ (.cancel name), .handled (some (.payload (some payload))) _ =>
    [{ name, payload, ending := some .cancelled }]
  | .command _ .popSoonest, .handled (some (.timer (some (name, payload)))) _ =>
    [{ name, payload, ending := some .popped }]
  | .heartbeat _, .harvested deliveries =>
    deliveries.map fun delivery =>
      { name := delivery.news.name, payload := delivery.news.payload, ending := some .fired }
  | _, _ => []

/-- What becomes of a live generation. -/
def Generation.next (g : Generation) : Occurrence → Outcome → Generation
  | .command _ (.set name _ _), _ =>
    if g.name = name then { g with ending := some .superseded } else g
  | .command _ (.update name payload), _ => if g.name = name then { g with payload } else g
  | .command _ .cancelAll, _ => { g with ending := some .cleared }
  | occurrence, outcome =>
    { g with ending := ((takings occurrence outcome).find? (·.name = g.name)).bind (·.ending) }

/-- The account after an occurrence. What has ended stays as it is. -/
def advance (gs : List Generation) (step : Occurrence × Outcome) : List Generation :=
  (gs.map fun g => if g.isLive then g.next step.1 step.2 else g) ++ step.1.begun?.toList

/-- All generations, in the order in which they were begun. -/
def generations (trace : List (Occurrence × Outcome)) : List Generation := trace.foldl advance []

variable {gs : List Generation} {g t : Generation} {occurrence : Occurrence} {outcome : Outcome}
variable {step : Occurrence × Outcome} {trace earlier : List (Occurrence × Outcome)}

/-! ### Keeping account -/

theorem generations_append (trace : List (Occurrence × Outcome)) (step : Occurrence × Outcome) :
    generations (trace ++ [step]) = advance (generations trace) step := by
  simp [generations]

@[simp]
theorem Generation.name_next (g : Generation) (occurrence : Occurrence) (outcome : Outcome) :
    (g.next occurrence outcome).name = g.name := by
  unfold Generation.next
  split <;> first | rfl | (split <;> rfl)

theorem Generation.not_wasTaken_of_isLive (live : g.isLive = true) : g.wasTaken = false := by
  have hnone : g.ending = none := Option.isNone_iff_eq_none.mp live
  simp [Generation.wasTaken, hnone]

/-- What begins is live. -/
theorem Occurrence.isLive_begun? (h : occurrence.begun? = some g) : g.isLive = true := by
  unfold begun? at h
  split at h <;> cases h
  rfl

/-- Every occurrence that begins a generation adds one, and none goes away. -/
theorem map_name_generations (trace : List (Occurrence × Outcome)) :
    (generations trace).map (·.name) =
      ((trace.map Prod.fst).filterMap Occurrence.begun?).map (·.name) := by
  induction trace using List.reverseRecOn with
  | nil => rfl
  | append_singleton trace step ih =>
    rw [generations_append, advance, List.map_append, List.map_map, List.map_append,
      List.filterMap_append, List.map_append, ← ih]
    congr 1
    refine List.map_congr_left fun g _ => ?_
    by_cases hlive : g.isLive <;> simp [hlive]

/-- What has ended stays as it is, in its place. -/
theorem getElem?_generations_of_prefix (h : earlier <+: trace) {i : Nat}
    (hg : (generations earlier)[i]? = some g) (ended : g.isLive = false) :
    (generations trace)[i]? = some g := by
  obtain ⟨later, rfl⟩ := h
  -- An account only grows at its end, so the place is there after whatever comes later.
  induction later using List.reverseRecOn with
  | nil => rwa [List.append_nil]
  | append_singleton later step ih =>
    obtain ⟨hi, -⟩ := List.getElem?_eq_some_iff.mp ih
    rw [← List.append_assoc, generations_append, advance,
      List.getElem?_append_left (by simpa using hi), List.getElem?_map, ih, Option.map_some,
      if_neg (by simp [ended])]

theorem filter_isLive_advance (gs : List Generation) (step : Occurrence × Outcome) :
    (advance gs step).filter Generation.isLive =
      ((gs.filter Generation.isLive).map (·.next step.1 step.2)).filter Generation.isLive ++
        step.1.begun?.toList := by
  rw [advance, List.filter_append]
  congr 1
  · induction gs with
    | nil => rfl
    | cons g gs ih => by_cases hlive : g.isLive <;> simp [List.filter_cons, hlive, ih]
  · cases hbegun : step.1.begun? with
    | none => rfl
    | some g => simp [Occurrence.isLive_begun? hbegun]

/-- Only the live ones change. -/
theorem filter_wasTaken_advance_perm (gs : List Generation) (step : Occurrence × Outcome) :
    ((advance gs step).filter Generation.wasTaken).Perm (gs.filter Generation.wasTaken ++
      ((gs.filter Generation.isLive).map (·.next step.1 step.2)).filter Generation.wasTaken) := by
  have hbegun : step.1.begun?.toList.filter Generation.wasTaken = [] := by
    cases hbegun : step.1.begun? with
    | none => rfl
    | some g =>
      have hnot := Generation.not_wasTaken_of_isLive (Occurrence.isLive_begun? hbegun)
      simp [hnot]
  rw [advance, List.filter_append, hbegun, List.append_nil]
  induction gs with
  | nil => rfl
  | cons g gs ih =>
    by_cases hlive : g.isLive
    · -- Among the taken ones it may be new, and then it stands in another place.
      have hnot := Generation.not_wasTaken_of_isLive hlive
      simp only [List.map_cons, List.filter_cons, hlive, hnot, if_true, Bool.false_eq_true,
        if_false]
      split
      · exact (ih.cons _).trans List.perm_middle.symm
      · exact ih
    · simp only [List.map_cons, List.filter_cons, hlive, Bool.false_eq_true, if_false]
      split
      · exact ih.cons _
      · exact ih

/-! ### What is taken -/

/-- Nothing but a taking makes a live generation a taken one. -/
theorem exists_mem_takings (live : g.isLive = true)
    (taken : (g.next occurrence outcome).wasTaken = true) :
    ∃ t ∈ takings occurrence outcome,
      t.name = g.name ∧ g.next occurrence outcome = { g with ending := t.ending } := by
  have hnone : g.ending = none := Option.isNone_iff_eq_none.mp live
  unfold Generation.next at taken ⊢
  split at taken
  -- A name that is set again, a new payload and the end of all timers take nothing.
  · split at taken <;> simp [Generation.wasTaken, hnone] at taken
  · split at taken <;> simp [Generation.wasTaken, hnone] at taken
  · simp [Generation.wasTaken] at taken
  · cases hfind : (takings occurrence outcome).find? (·.name = g.name) with
    | none => simp [hfind, Generation.wasTaken] at taken
    | some t =>
      have hname : t.name = g.name := by simpa using List.find?_some hfind
      exact ⟨t, List.mem_of_find?_eq_some hfind, hname, rfl⟩

theorem wasTaken_of_mem_takings (h : t ∈ takings occurrence outcome) : t.wasTaken = true := by
  unfold takings at h
  split at h
  · rw [List.mem_singleton.mp h]
    rfl
  · rw [List.mem_singleton.mp h]
    rfl
  · obtain ⟨delivery, -, rfl⟩ := List.mem_map.mp h
    rfl
  · cases h

/-- The live generation of the name ends as the taking says. -/
theorem next_of_mem_takings (h : t ∈ takings occurrence outcome)
    (once : ((takings occurrence outcome).map (·.name)).Nodup) (hname : g.name = t.name) :
    g.next occurrence outcome = { g with ending := t.ending } := by
  have hfind : (takings occurrence outcome).find? (·.name = g.name) = some t := by
    obtain ⟨found, hfound⟩ := Option.isSome_iff_exists.mp
      (List.find?_isSome.mpr ⟨t, h, decide_eq_true hname.symm⟩ :
        ((takings occurrence outcome).find? (·.name = g.name)).isSome)
    have hfoundName : found.name = g.name := by simpa using List.find?_some hfound
    rw [hfound, List.inj_on_of_nodup_map once (List.mem_of_find?_eq_some hfound) h
      (hfoundName.trans hname)]
  unfold Generation.next
  split
  · simp [takings] at h
  · simp [takings] at h
  · simp [takings] at h
  · rw [hfind]
    rfl

/-- If what is taken was live and every name is taken once, then no more and no less ends so. -/
theorem filter_wasTaken_advance
    (distinct : ((gs.filter Generation.isLive).map (·.name)).Nodup)
    (once : ((takings occurrence outcome).map (·.name)).Nodup)
    (live : ∀ t ∈ takings occurrence outcome, { t with ending := none } ∈ gs) :
    ((advance gs (occurrence, outcome)).filter Generation.wasTaken).Perm
      (gs.filter Generation.wasTaken ++ takings occurrence outcome) := by
  apply (filter_wasTaken_advance_perm gs (occurrence, outcome)).trans
  apply List.Perm.append_left
  have hnames : (((gs.filter Generation.isLive).map (·.next occurrence outcome)).map
      (·.name)).Nodup := by
    rw [List.map_map]
    simpa [Function.comp_def] using distinct
  have hnodup := (List.Nodup.of_map _ hnames).filter Generation.wasTaken
  -- Neither list has a name twice, so it is enough that they have the same members.
  refine (List.perm_ext_iff_of_nodup hnodup (List.Nodup.of_map _ once)).mpr fun g => ?_
  constructor
  · intro hg
    obtain ⟨hg, htaken⟩ := List.mem_filter.mp hg
    obtain ⟨old, hold, rfl⟩ := List.mem_map.mp hg
    obtain ⟨t, ht, hname, hnext⟩ := exists_mem_takings (List.mem_filter.mp hold).2 htaken
    -- The live generation of that name is the one that the outcome tells of.
    have heq : { t with ending := none } = old :=
      List.inj_on_of_nodup_map distinct (List.mem_filter.mpr ⟨live t ht, rfl⟩) hold hname
    rw [hnext, ← heq]
    exact ht
  · intro ht
    have hlive := List.mem_filter.mpr ⟨live g ht, (rfl : Generation.isLive _ = true)⟩
    refine List.mem_filter.mpr ⟨List.mem_map.mpr ⟨_, hlive, ?_⟩, wasTaken_of_mem_takings ht⟩
    exact next_of_mem_takings ht once rfl

/-! ### The generations of a roster -/

/-- The live generation that a job is. -/
def Job.generation (job : Job) : Generation := { name := job.name, payload := job.payload }

namespace Roster

variable {r : Roster} {outbox : Mailbox Expiration} {jobs : List Job}

/-- The jobs that an occurrence takes. -/
def taken (r : Roster) : Occurrence → List Job
  | .command _ (.cancel name) => (r.jobs.find? (·.name = name)).toList
  | .command _ .popSoonest => r.soonest?.toList
  | .heartbeat reading => r.due reading
  | _ => []

theorem taken_subset (r : Roster) (occurrence : Occurrence) : r.taken occurrence ⊆ r.jobs := by
  intro job hjob
  unfold taken at hjob
  split at hjob
  · exact List.mem_of_find?_eq_some (Option.mem_toList.mp hjob)
  · exact (soonest?_eq_some (Option.mem_toList.mp hjob)).1
  · exact (mem_dueBy.mp hjob).1
  · cases hjob

theorem nodup_taken (distinct : (r.jobs.map Job.name).Nodup) (occurrence : Occurrence) :
    ((r.taken occurrence).map Job.name).Nodup := by
  unfold taken
  split
  · cases r.jobs.find? _ <;> simp
  · cases r.soonest? <;> simp
  · exact nodup_map_dueBy distinct
  · exact List.nodup_nil

/-- An outcome shows the jobs that are taken. -/
theorem takings_perform (r : Roster) (outbox : Mailbox Expiration) (occurrence : Occurrence) :
    ∃ how, takings occurrence (r.perform outbox occurrence).1 =
      (r.taken occurrence).map fun job => { job.generation with ending := some how } := by
  cases occurrence with
  | receive => exact ⟨.fired, rfl⟩
  | heartbeat reading =>
    have hnews := map_news_post outbox ((r.due reading).map Job.news)
    have htakings := congrArg (List.map fun news : Expiration =>
      ({ name := news.name, payload := news.payload, ending := some .fired } : Generation)) hnews
    rw [List.map_map, List.map_map] at htakings
    exact ⟨.fired, htakings⟩
  | command reading command =>
    cases command with
    | cancel name =>
      refine ⟨.cancelled, ?_⟩
      simp only [taken, perform, handle, payload?]
      cases hfind : r.jobs.find? (·.name = name) with
      | none => rfl
      | some job =>
        have hname : job.name = name := by simpa using List.find?_some hfind
        rw [← hname]
        rfl
    | popSoonest =>
      refine ⟨.popped, ?_⟩
      simp only [taken, perform, handle]
      cases r.soonest? <;> rfl
    | _ => exact ⟨.fired, rfl⟩

/-- What is taken from a roster was the generation of one of its jobs. -/
theorem exists_job_of_mem_takings (h : t ∈ takings occurrence (r.perform outbox occurrence).1) :
    ∃ job ∈ r.jobs, job.generation = { t with ending := none } := by
  obtain ⟨how, htakings⟩ := r.takings_perform outbox occurrence
  rw [htakings] at h
  obtain ⟨job, hjob, rfl⟩ := List.mem_map.mp h
  exact ⟨job, r.taken_subset occurrence hjob, rfl⟩

theorem nodup_takings (distinct : (r.jobs.map Job.name).Nodup) (outbox : Mailbox Expiration)
    (occurrence : Occurrence) :
    ((takings occurrence (r.perform outbox occurrence).1).map (·.name)).Nodup := by
  obtain ⟨how, htakings⟩ := r.takings_perform outbox occurrence
  rw [htakings, List.map_map]
  exact nodup_taken distinct occurrence

/-- The live generations that are left of some jobs. -/
theorem filter_isLive_map_next (stays : Job → Bool)
    (same : ∀ job ∈ jobs, stays job = true →
      job.generation.next occurrence outcome = job.generation)
    (ends : ∀ job ∈ jobs, stays job = false →
      (job.generation.next occurrence outcome).isLive = false) :
    ((jobs.map Job.generation).map (·.next occurrence outcome)).filter Generation.isLive =
      (jobs.filter stays).map Job.generation := by
  induction jobs with
  | nil => rfl
  | cons job jobs ih =>
    obtain ⟨hsame, hsames⟩ := List.forall_mem_cons.mp same
    obtain ⟨hend, hends⟩ := List.forall_mem_cons.mp ends
    simp only [List.map_cons, List.filter_cons]
    rw [ih hsames hends]
    cases hstays : stays job with
    | true =>
      rw [hsame hstays]
      rfl
    | false =>
      rw [hend hstays]
      rfl

/-- If taking is all that can end a generation, those whose names are not taken are left. -/
theorem filter_isLive_map_next_of_takings {how : Ending} {taken : List Job}
    (looks : ∀ g : Generation, g.next occurrence outcome =
      { g with ending := ((takings occurrence outcome).find? (·.name = g.name)).bind (·.ending) })
    (htakings : takings occurrence outcome =
      taken.map fun job => { job.generation with ending := some how }) :
    ((jobs.map Job.generation).map (·.next occurrence outcome)).filter Generation.isLive =
      (jobs.filter (·.name ∉ taken.map Job.name)).map Job.generation := by
  have hfind : ∀ job : Job,
      (takings occurrence outcome).find? (·.name = job.generation.name) =
        (taken.find? (·.name = job.name)).map
          fun job => { job.generation with ending := some how } := by
    intro job
    rw [htakings, List.find?_map]
    rfl
  apply filter_isLive_map_next
  -- The name of a job is looked for among those that are taken.
  · intro job _ hstays
    have hnone : taken.find? (·.name = job.name) = none := by simpa using hstays
    rw [looks, hfind, hnone]
    rfl
  · intro job _ hends
    have htaken : job.name ∈ taken.map Job.name := by simpa using hends
    obtain ⟨job', hjob', hname⟩ := List.mem_map.mp htaken
    obtain ⟨found, hfound⟩ := Option.isSome_iff_exists.mp
      (List.find?_isSome.mpr ⟨job', hjob', decide_eq_true hname⟩ :
        (taken.find? (·.name = job.name)).isSome)
    rw [looks, hfind, hfound]
    rfl

theorem filter_notMem_due (distinct : (r.jobs.map Job.name).Nodup) (reading : Instant) :
    r.jobs.filter (·.name ∉ (r.due reading).map Job.name) = (r.harvest reading).jobs := by
  refine List.filter_congr fun job hjob => decide_eq_decide.mpr ?_
  rw [name_mem_due_iff distinct hjob]
  exact Int64.not_le

theorem filter_notMem_find? (r : Roster) (name : String) :
    r.jobs.filter (·.name ∉ (r.jobs.find? (·.name = name)).toList.map Job.name) =
      (r.without name).jobs := by
  refine List.filter_congr fun job hjob => decide_eq_decide.mpr ?_
  cases hfind : r.jobs.find? (·.name = name) with
  | none =>
    have hne : job.name ≠ name := by simpa using List.find?_eq_none.mp hfind job hjob
    simp [hne]
  | some found =>
    have hname : found.name = name := by simpa using List.find?_some hfind
    simp [hname]

/-- The jobs that a roster is left with are the generations that stay live, and the one begun. -/
theorem generations_perform (distinct : (r.jobs.map Job.name).Nodup)
    (outbox : Mailbox Expiration) (occurrence : Occurrence) :
    ((r.jobs.map Job.generation).map
        (·.next occurrence (r.perform outbox occurrence).1)).filter Generation.isLive ++
      occurrence.begun?.toList = (r.perform outbox occurrence).2.1.jobs.map Job.generation := by
  obtain ⟨how, htakings⟩ := r.takings_perform outbox occurrence
  -- All but three commands end a generation only by taking it.
  cases occurrence with
  | receive =>
    rw [filter_isLive_map_next_of_takings (fun _ => rfl) htakings]
    simp [taken, Occurrence.begun?, perform]
  | heartbeat reading =>
    rw [filter_isLive_map_next_of_takings (fun _ => rfl) htakings]
    exact (List.append_nil _).trans (congrArg _ (filter_notMem_due distinct reading))
  | command reading command =>
    cases command with
    | set name payload duration =>
      rw [filter_isLive_map_next fun job => job.name ≠ name]
      · simp [Occurrence.begun?, perform, handle, start, without, Job.generation]
      · intro job _ hne
        exact if_neg (of_decide_eq_true hne)
      · intro job _ heq
        have heq : job.name = name := by simpa using heq
        simp [Generation.next, Job.generation, Generation.isLive, heq]
    | update name payload =>
      -- All generations stay live, and one of them may have another payload.
      refine (List.append_nil _).trans ?_
      rw [List.map_map, List.filter_eq_self.mpr]
      · simp only [perform, handle, update, List.map_map]
        refine List.map_congr_left fun job _ => ?_
        by_cases heq : job.name = name <;> simp [Generation.next, Job.generation, heq]
      · intro g hg
        obtain ⟨job, -, rfl⟩ := List.mem_map.mp hg
        by_cases heq : job.name = name <;>
          simp [Generation.next, Job.generation, Generation.isLive, heq]
    | cancelAll =>
      rw [filter_isLive_map_next fun _ => false]
      · simp [Occurrence.begun?, perform, handle]
      · intro job _ hstays
        cases hstays
      · intro job _ _
        rfl
    | cancel name =>
      rw [filter_isLive_map_next_of_takings (fun _ => rfl) htakings]
      exact (List.append_nil _).trans (congrArg _ (r.filter_notMem_find? name))
    | popSoonest =>
      rw [filter_isLive_map_next_of_takings (fun _ => rfl) htakings]
      cases hsoonest : r.soonest? <;>
        simp [taken, Occurrence.begun?, perform, handle, hsoonest, without]
    | _ =>
      rw [filter_isLive_map_next_of_takings (fun _ => rfl) htakings]
      simp [taken, Occurrence.begun?, perform, handle]

/-- Names stay unique. -/
theorem nodup_perform (distinct : (r.jobs.map Job.name).Nodup)
    (outbox : Mailbox Expiration) (occurrence : Occurrence) :
    ((r.perform outbox occurrence).2.1.jobs.map Job.name).Nodup := by
  have hfilter : ∀ p : Job → Bool, ((r.jobs.filter p).map Job.name).Nodup :=
    fun p => (List.filter_sublist.map _).nodup distinct
  cases occurrence with
  | receive => exact distinct
  | heartbeat reading => exact hfilter _
  | command reading command =>
    cases command with
    | set name payload duration =>
      simp only [perform, handle, start, without, List.map_append]
      refine (hfilter fun job => job.name ≠ name).append (List.nodup_singleton _) ?_
      simp
    | update name payload =>
      have hnames : (r.update name payload).jobs.map Job.name = r.jobs.map Job.name := by
        simp only [update, List.map_map]
        refine List.map_congr_left fun job _ => ?_
        by_cases heq : job.name = name <;> simp [heq]
      exact hnames ▸ distinct
    | cancel name => exact hfilter _
    | cancelAll => exact List.nodup_nil
    | popSoonest =>
      simp only [perform, handle]
      cases r.soonest? with
      | none => exact distinct
      | some job => exact hfilter _
    | _ => exact distinct

theorem hasReceiver_run (r : Roster) (heard : outbox.hasReceiver = true)
    (occurrences : List Occurrence) : (r.run outbox occurrences).2.2.hasReceiver = true := by
  induction occurrences generalizing r outbox with
  | nil => exact heard
  | cons occurrence rest ih =>
    apply ih
    cases occurrence with
    | receive => exact (Service.hasReceiver_receive outbox).trans heard
    | _ => exact heard

/-- News is sent as long as there is room, and dropped after that. -/
theorem post_of_harvested {deliveries : List Delivery}
    (h : (r.perform outbox occurrence).1 = .harvested deliveries) :
    (deliveries, (r.perform outbox occurrence).2.2) =
      post outbox (deliveries.map Delivery.news) := by
  cases occurrence with
  | command reading command => cases h
  | receive => cases h
  | heartbeat reading =>
    have hdeliveries : (post outbox ((r.due reading).map Job.news)).1 = deliveries :=
      Outcome.harvested.inj h
    rw [← hdeliveries, map_news_post]
    rfl

theorem length_run (r : Roster) (outbox : Mailbox Expiration) (occurrences : List Occurrence) :
    (r.run outbox occurrences).1.length = occurrences.length := by
  induction occurrences generalizing r outbox with
  | nil => rfl
  | cons occurrence rest ih => exact congrArg Nat.succ (ih _ _)

/-- The account of what happened agrees with the roster, and with what was taken. -/
structure Tallies (r : Roster) (trace : List (Occurrence × Outcome)) : Prop where
  distinct : (r.jobs.map Job.name).Nodup
  live : (generations trace).filter Generation.isLive = r.jobs.map Job.generation
  taken : ((generations trace).filter Generation.wasTaken).Perm
    (trace.flatMap fun step => takings step.1 step.2)

namespace Tallies

variable {past : List (Occurrence × Outcome)}

theorem generation_mem (h : r.Tallies past) {job : Job} (hjob : job ∈ r.jobs) :
    job.generation ∈ generations past := by
  have hmem := List.mem_map_of_mem (f := Job.generation) hjob
  rw [← h.live] at hmem
  exact (List.mem_filter.mp hmem).1

theorem perform (h : r.Tallies past) (outbox : Mailbox Expiration) (occurrence : Occurrence) :
    (r.perform outbox occurrence).2.1.Tallies
      (past ++ [(occurrence, (r.perform outbox occurrence).1)]) where
  distinct := nodup_perform h.distinct outbox occurrence
  live := by
    rw [generations_append, filter_isLive_advance, h.live]
    exact generations_perform h.distinct outbox occurrence
  taken := by
    have hdistinct : (((generations past).filter Generation.isLive).map (·.name)).Nodup := by
      rw [h.live, List.map_map]
      exact h.distinct
    have hlive : ∀ t ∈ takings occurrence (r.perform outbox occurrence).1,
        { t with ending := none } ∈ generations past := by
      intro t ht
      obtain ⟨job, hjob, heq⟩ := exists_job_of_mem_takings ht
      exact heq ▸ h.generation_mem hjob
    rw [generations_append, List.flatMap_append, List.flatMap_singleton]
    have hadvance := filter_wasTaken_advance hdistinct
      (nodup_takings h.distinct outbox occurrence) hlive
    exact hadvance.trans (h.taken.append_right _)

theorem run (h : r.Tallies past) (outbox : Mailbox Expiration) (occurrences : List Occurrence) :
    (r.run outbox occurrences).2.1.Tallies
      (past ++ occurrences.zip (r.run outbox occurrences).1) := by
  induction occurrences generalizing r past outbox with
  | nil => simpa [Roster.run] using h
  | cons occurrence rest ih =>
    have hrest := ih (h.perform outbox occurrence) (r.perform outbox occurrence).2.2
    rwa [List.append_assoc] at hrest

end Tallies

end Roster

/-! ### The generations of a service -/

namespace Service

variable {outbox : Mailbox Expiration}

/-- What the account of what happened says of the service to which it happened. -/
structure Accounted (past : List Occurrence) (outcomes : List Outcome) (s : Service) : Prop where
  length : outcomes.length = past.length
  /-- Every command that sets a timer begins a generation of its name, and nothing else does. -/
  begun : (generations (past.zip outcomes)).map (·.name) =
    (past.filterMap Occurrence.begun?).map (·.name)
  /-- A name has one live generation if its timer is running, and none if it is not. -/
  live : ∀ name, (generations (past.zip outcomes)).countP (fun g => g.isLive ∧ g.name = name) =
    if s.store.contains (Bytes.ofString name) then 1 else 0
  /-- The replies and the news that tell of an end tell of every generation that was taken, once. -/
  taken : ((generations (past.zip outcomes)).filter Generation.wasTaken).Perm
    ((past.zip outcomes).flatMap fun step => takings step.1 step.2)
  /-- What had ended before is still the same. -/
  final : ∀ earlier, earlier <+: past.zip outcomes → ∀ {i : Nat} {g : Generation},
    (generations earlier)[i]? = some g → g.isLive = false →
      (generations (past.zip outcomes))[i]? = some g
  /-- The timers that were set are those that ended and those that a count counts. -/
  balance : ∀ reading, ∃ handled running, s.handle reading .count = .ok handled ∧
    handled.reply = some (.count running) ∧
    (past.filterMap Occurrence.begun?).length =
      (generations (past.zip outcomes)).countP (!·.isLive) + running

theorem Follows.accounted {s : Service} {r : Roster} {past : List Occurrence}
    {outcomes : List Outcome} (h : s.Follows r) (tallies : r.Tallies (past.zip outcomes))
    (length : outcomes.length = past.length) : Accounted past outcomes s where
  length := length
  begun := by
    rw [map_name_generations, List.map_fst_zip (by omega)]
  live := by
    intro name
    have hcount : (generations (past.zip outcomes)).countP (fun g => g.isLive ∧ g.name = name) =
        (r.jobs.map Job.name).count name := by
      calc
        _ = ((generations (past.zip outcomes)).filter Generation.isLive).countP
              (fun g => g.name = name) := by
          rw [List.countP_filter]
          refine List.countP_congr fun g _ => ?_
          simp [and_comm]
        _ = (r.jobs.map Job.name).count name := by
          rw [tallies.live, List.countP_map, List.count, List.countP_map]
          rfl
    have hcontains : s.store.contains (Bytes.ofString name) ↔ name ∈ r.jobs.map Job.name := by
      simp [h.store.contains_eq, Roster.agenda, Job.timer, Bytes.ofString_inj]
    rw [hcount, tallies.distinct.count]
    exact if_congr hcontains.symm rfl rfl
  taken := tallies.taken
  final := fun _ hprefix _ _ hg ended => getElem?_generations_of_prefix hprefix hg ended
  balance := by
    intro reading
    obtain ⟨handled, hhandle, hreply, -, -⟩ := h.handle reading .count
    refine ⟨handled, r.jobs.length, hhandle, hreply, ?_⟩
    -- The account has as many entries as were begun, and each is live or has ended.
    have hbegun := congrArg List.length (map_name_generations (past.zip outcomes))
    rw [List.map_fst_zip (by omega), List.length_map, List.length_map] at hbegun
    have hlive := congrArg List.length tallies.live
    rw [← List.countP_eq_length_filter, List.length_map] at hlive
    rw [← hbegun, List.length_eq_countP_add_countP Generation.isLive, hlive, Nat.add_comm]
    congr 1
    exact List.countP_congr fun g _ => by simp

/-- Every timer that a service over a store without timers starts ends at most once. Each command
that sets a timer begins a generation, which is live as long as its timer runs, and ends in one way:
its name is set again, all timers are cancelled, or it is cancelled, popped or fired, and one reply
or one piece of news tells of that. Whatever is still handed out belongs to a live generation. News
is sent as long as there is room, and only then dropped. -/
theorem run_generations {store : Store} (reachable : store.Reachable)
    (unused : store.isEmpty = true) (name : String) (heard : outbox.hasReceiver = true)
    (past : List Occurrence) :
    ∃ outcomes s outbox', run { name, store } outbox past = .ok (outcomes, s, outbox') ∧
      Accounted past outcomes s ∧
      ∀ next, ∃ outcome s' outbox'', s.perform outbox' next = .ok (outcome, s', outbox'') ∧
        (∀ handed ∈ handedOut next outcome, { name := handed.1, payload := handed.2 } ∈
          generations (past.zip outcomes)) ∧
        ((takings next outcome).map (·.name)).Nodup ∧
        ∀ deliveries, outcome = .harvested deliveries →
          (deliveries, outbox'') = post outbox' (deliveries.map Delivery.news) := by
  let r₀ : Roster := { tolerance := store.tolerance, latest := store.latest }
  have hunused : Follows { name, store } r₀ := Follows.of_unused reachable unused name
  have hnothing : r₀.Tallies [] := ⟨List.nodup_nil, rfl, List.Perm.refl _⟩
  obtain ⟨s, hrun, hfollows⟩ := hunused.run heard past
  have htallies := hnothing.run outbox past
  have hheard := r₀.hasReceiver_run heard past
  refine ⟨_, s, _, hrun, hfollows.accounted htallies (r₀.length_run outbox past), fun next => ?_⟩
  obtain ⟨s', hperform, -, -⟩ := hfollows.perform hheard next
  refine ⟨_, s', _, hperform, ?_, Roster.nodup_takings htallies.distinct _ next, ?_⟩
  · rintro ⟨name, payload⟩ hout
    obtain ⟨job, hjob, rfl, rfl⟩ := Roster.exists_job_of_mem_handedOut hout
    exact htallies.generation_mem hjob
  · exact fun deliveries hharvested => Roster.post_of_harvested hharvested

/-- Six generations of one name. The first five end, each in another way, and the last is live. -/
theorem run_generations_one_name :
    let past : List Occurrence :=
      [.command 0 (.set "a" "u" (.ofMillis 5)), .command 0 (.set "a" "v" (.ofMillis 9)),
        .command 1 (.cancel "a"), .command 2 (.set "a" "w" (.ofMillis 5)),
        .command 3 .popSoonest, .command 4 (.set "a" "x" (.ofMillis 5)), .command 5 .cancelAll,
        .command 6 (.set "a" "y" (.ofMillis 5)), .heartbeat 10,
        .command 11 (.set "a" "z" (.ofMillis 5)), .heartbeat 12]
    (Store.empty 1).Reachable ∧ (Store.empty 1).isEmpty = true ∧
    ∃ outcomes s outbox', run { name := "m", store := Store.empty 1 } { capacity := 1 } past =
        .ok (outcomes, s, outbox') ∧
      Accounted past outcomes s ∧
      generations (past.zip outcomes) =
        [⟨"a", "u", some .superseded⟩, ⟨"a", "v", some .cancelled⟩, ⟨"a", "w", some .popped⟩,
          ⟨"a", "x", some .cleared⟩, ⟨"a", "y", some .fired⟩, ⟨"a", "z", none⟩] := by
  intro past
  have hreachable : (Store.empty 1).Reachable := ⟨1, [], [], rfl⟩
  have hunused : (Store.empty 1).isEmpty = true := rfl
  obtain ⟨outcomes, s, outbox', hrun, haccounted, -⟩ :=
    @run_generations { capacity := 1 } _ hreachable hunused "m" rfl past
  have hvalue : (run { name := "m", store := Store.empty 1 } { capacity := 1 } past).map
      (fun after => generations (past.zip after.1)) = .ok
        [⟨"a", "u", some .superseded⟩, ⟨"a", "v", some .cancelled⟩, ⟨"a", "w", some .popped⟩,
          ⟨"a", "x", some .cleared⟩, ⟨"a", "y", some .fired⟩, ⟨"a", "z", none⟩] := by
    decide +kernel
  rw [hrun] at hvalue
  exact ⟨hreachable, hunused, outcomes, s, outbox', hrun, haccounted, Except.ok.inj hvalue⟩

end Service

end Expiry
