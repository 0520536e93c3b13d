import Mathlib.Data.Set.Basic
import Expiry.Proofs.Service

/-!
# Payloads and timers in parity

A store may hold timers from before the service got it. Those have no payload. As long as none of
them is popped or harvested, the payloads that the service has are exactly those of the running
timers that it started itself. To pop or harvest one is the only thing that can go wrong. Over a
store that was empty at first there are no other timers, so nothing is ever popped or harvested
without a payload.

What the service started is not in its state. A history of the service keeps account of it: an
identifier is among the started ones if its timer was started by the last occurrence, or had been
started before and is still running.

## Main definitions

* `HasPayload` — there is a payload for the very bytes of an identifier
* `Service.ending` — the timers that an occurrence pops or harvests
* `Service.Stepped` — what an occurrence does to timers and payloads
* `Service.History` — how a service came about, with the identifiers of the timers that it started

## Main results

* `HasPayload.exists_missing_of_announce` — announcing breaks off only at a timer without a payload
* `Service.perform_stepped` — an occurrence is such a step, if what it ends has its payload
* `Service.History.hasPayload_iff_started` — the payloads are those of the timers that were started
-/

namespace Expiry

/-- There is a payload for `id`: under a name whose bytes it is. The name that other bytes stand for
may be the same. -/
def HasPayload (payloads : Std.TreeMap String String) (id : Bytes) : Prop :=
  ∃ name ∈ payloads, Bytes.ofString name = id

/-- The identifier that an occurrence starts a timer for. -/
def Occurrence.started? : Occurrence → Option Bytes
  | .command _ (.set name _ _) => some (Bytes.ofString name)
  | _ => none

namespace HasPayload

variable {payloads : Std.TreeMap String String} {name payload : String} {id : Bytes}
variable {outbox : Mailbox Expiration} {due : List Timer}

theorem nameOf_mem (h : HasPayload payloads id) :
    Service.nameOf id ∈ payloads ∧ Bytes.ofString (Service.nameOf id) = id := by
  obtain ⟨name, hmem, rfl⟩ := h
  rw [Service.nameOf_ofString]
  exact ⟨hmem, rfl⟩

-- Other bytes may stand for the name as well, and then have no payload under it.
example : Service.nameOf [0xFF] = Service.nameOf (Bytes.ofString "\uFFFD") := by decide

theorem insert_iff : HasPayload (payloads.insert name payload) id ↔
    Bytes.ofString name = id ∨ HasPayload payloads id := by
  simp only [HasPayload, Std.TreeMap.mem_insert, Std.LawfulEqOrd.compare_eq_iff_eq, or_and_right,
    exists_or, exists_eq_left']

theorem erase_iff : HasPayload (payloads.erase name) id ↔
    id ≠ Bytes.ofString name ∧ HasPayload payloads id := by
  constructor
  · rintro ⟨name', hmem, rfl⟩
    obtain ⟨hne, hmem⟩ := Std.TreeMap.mem_erase.mp hmem
    refine ⟨fun heq => hne ?_, name', hmem, rfl⟩
    rw [Bytes.ofString_inj.mp heq]
    exact Std.LawfulEqOrd.compare_eq_iff_eq.mpr rfl
  · rintro ⟨hne, name', hmem, rfl⟩
    refine ⟨name', Std.TreeMap.mem_erase.mpr ⟨fun heq => hne ?_, hmem⟩, rfl⟩
    rw [Std.LawfulEqOrd.compare_eq_iff_eq.mp heq]

theorem modify_iff {change : String → String} :
    HasPayload (payloads.modify name change) id ↔ HasPayload payloads id := by
  simp only [HasPayload, Std.TreeMap.mem_modify]

theorem exists_newsOf (h : HasPayload payloads id) : ∃ payload, Service.newsOf payloads id =
    .ok (⟨Service.nameOf id, payload⟩, payloads.erase (Service.nameOf id)) := by
  obtain ⟨payload, hpayload⟩ :=
    Option.isSome_iff_exists.mp (Std.TreeMap.mem_iff_isSome_getElem?.mp h.nameOf_mem.1)
  exact ⟨payload, Service.newsOf_eq_ok_iff.mpr ⟨payload, hpayload, rfl, rfl⟩⟩

/-- Where there is no news, there is no payload either. -/
theorem missing_of_newsOf {fault : Fault} (broken : Service.newsOf payloads id = .error fault) :
    ¬HasPayload payloads id ∧ fault = .payloadMissing (Service.nameOf id) := by
  refine ⟨fun hstored => ?_, (Service.newsOf_eq_error_iff.mp broken).2⟩
  obtain ⟨payload, htaken⟩ := hstored.exists_newsOf
  cases broken.symm.trans htaken

/-- An identifier that has lost its payload to another one had none, or the other one had none and
has the same name. -/
theorem missing_of_erase {id' : Bytes} (distinct : id ≠ id')
    (missing : ¬HasPayload (payloads.erase (Service.nameOf id)) id') :
    ¬HasPayload payloads id' ∨
      ¬HasPayload payloads id ∧ Service.nameOf id = Service.nameOf id' := by
  by_cases hstored : HasPayload payloads id'
  · have hsame : id' = Bytes.ofString (Service.nameOf id) := by
      by_contra hne
      exact missing (erase_iff.mpr ⟨hne, hstored⟩)
    refine .inr ⟨fun hfirst => distinct ?_, ?_⟩
    · exact hfirst.nameOf_mem.2.symm.trans hsame.symm
    · rw [hsame, Service.nameOf_ofString]
  · exact .inl hstored

/-- Announcing breaks off only if one of the timers has no payload. -/
theorem exists_missing_of_announce (distinct : (due.map (·.id)).Nodup) {fault : Fault}
    (broken : (Service.announce payloads outbox due).fault = some fault) :
    ∃ timer ∈ due, ¬HasPayload payloads timer.id ∧
      fault = .payloadMissing (Service.nameOf timer.id) := by
  induction due generalizing payloads outbox with
  | nil => cases broken
  | cons timer due ih =>
    obtain ⟨hfresh, hdistinct⟩ := List.nodup_cons.mp distinct
    cases htaken : Service.newsOf payloads timer.id with
    | error fault₁ =>
      obtain ⟨hmissing, rfl⟩ := missing_of_newsOf htaken
      rw [Service.announce_cons_of_error htaken, Option.some.injEq] at broken
      exact ⟨timer, List.mem_cons_self, hmissing, broken.symm⟩
    | ok taken =>
      obtain ⟨news, rest⟩ := taken
      obtain ⟨payload, -, -, rfl⟩ := Service.newsOf_eq_ok_iff.mp htaken
      -- What breaks off later may be missing because it was taken for this timer.
      have hlater : ∀ outbox : Mailbox Expiration,
          (Service.announce (payloads.erase (Service.nameOf timer.id)) outbox due).fault =
            some fault → ∃ timer' ∈ timer :: due, ¬HasPayload payloads timer'.id ∧
              fault = .payloadMissing (Service.nameOf timer'.id) := by
        intro outbox broken
        obtain ⟨timer', htimer', hmissing, rfl⟩ := ih hdistinct broken
        have hne : timer.id ≠ timer'.id := fun heq =>
          hfresh (List.mem_map.mpr ⟨timer', htimer', heq.symm⟩)
        rcases missing_of_erase hne hmissing with hmissing | ⟨hmissing, hname⟩
        · exact ⟨timer', List.mem_cons_of_mem _ htimer', hmissing, rfl⟩
        · exact ⟨timer, List.mem_cons_self, hmissing, by rw [hname]⟩
      simp only [Service.announce, htaken] at broken
      split at broken
      · exact hlater _ broken
      · exact hlater _ broken
      · cases broken

theorem fault_announce (distinct : (due.map (·.id)).Nodup)
    (stored : ∀ timer ∈ due, HasPayload payloads timer.id) :
    (Service.announce payloads outbox due).fault = none := by
  cases hfault : (Service.announce payloads outbox due).fault with
  | none => rfl
  | some fault =>
    obtain ⟨timer, htimer, hmissing, -⟩ := exists_missing_of_announce distinct hfault
    exact absurd (stored timer htimer) hmissing

/-- Announcing timers that have their payloads takes just those. -/
theorem announce_iff (heard : outbox.hasReceiver = true) (distinct : (due.map (·.id)).Nodup)
    (stored : ∀ timer ∈ due, HasPayload payloads timer.id) :
    HasPayload (Service.announce payloads outbox due).payloads id ↔
      HasPayload payloads id ∧ id ∉ due.map (·.id) := by
  have hmem : ∀ name, name ∈ (Service.announce payloads outbox due).payloads ↔
      name ∈ payloads ∧ name ∉ due.map (Service.nameOf ·.id) := by
    intro name
    rw [Std.TreeMap.mem_iff_isSome_getElem?, Std.TreeMap.mem_iff_isSome_getElem?,
      Service.getElem?_announce heard (fault_announce distinct stored)]
    split
    · next hdue => simp [hdue]
    · next hdue => simp [hdue]
  constructor
  · rintro ⟨name, hname, rfl⟩
    obtain ⟨hname, hnot⟩ := (hmem name).mp hname
    refine ⟨⟨name, hname, rfl⟩, fun hdue => hnot ?_⟩
    obtain ⟨timer, htimer, hid⟩ := List.mem_map.mp hdue
    exact List.mem_map.mpr ⟨timer, htimer, by rw [hid, Service.nameOf_ofString]⟩
  · rintro ⟨⟨name, hname, rfl⟩, hnot⟩
    refine ⟨name, (hmem name).mpr ⟨hname, fun hdue => hnot ?_⟩, rfl⟩
    obtain ⟨timer, htimer, rfl⟩ := List.mem_map.mp hdue
    exact List.mem_map.mpr ⟨timer, htimer, (stored timer htimer).nameOf_mem.2.symm⟩

end HasPayload

/-! ### The running timers of an agenda -/

namespace Agenda

variable {a : Agenda} {id id' : Bytes} {ttl : UInt64} {reading : Instant}

/-- The identifiers of the running timers. -/
def ids (a : Agenda) : List Bytes := a.timers.map (·.id)

theorem mem_ids_without : id' ∈ (a.without id).ids ↔ id' ≠ id ∧ id' ∈ a.ids := by
  simp only [ids, without, List.mem_map, List.mem_filter, decide_eq_true_eq]
  constructor
  · rintro ⟨timer, ⟨htimer, hne⟩, rfl⟩
    exact ⟨hne, timer, htimer, rfl⟩
  · rintro ⟨hne, timer, htimer, rfl⟩
    exact ⟨timer, ⟨htimer, hne⟩, rfl⟩

theorem mem_ids_start : id' ∈ (a.start reading id ttl).ids ↔ id' = id ∨ id' ∈ a.ids := by
  have hids : (a.start reading id ttl).ids = (a.without id).ids ++ [id] := List.map_append
  rw [hids, List.mem_append, mem_ids_without, List.mem_singleton]
  by_cases heq : id' = id <;> simp [heq]

theorem nodup_ids_harvest (distinct : a.ids.Nodup) (reading : Instant) :
    ((a.harvest reading).1.map (·.id)).Nodup := nodup_map_dueBy distinct

theorem mem_ids_harvest (distinct : a.ids.Nodup) : id ∈ (a.harvest reading).2.ids ↔
    id ∈ a.ids ∧ id ∉ (a.harvest reading).1.map (·.id) := by
  constructor
  · intro hid
    obtain ⟨timer, htimer, rfl⟩ := List.mem_map.mp hid
    obtain ⟨htimer, hlt⟩ := List.mem_filter.mp htimer
    refine ⟨List.mem_map_of_mem htimer, fun hdue => ?_⟩
    obtain ⟨timer', htimer', hid'⟩ := List.mem_map.mp hdue
    obtain ⟨htimer', hle⟩ := mem_dueBy.mp htimer'
    obtain rfl := List.inj_on_of_nodup_map distinct htimer' htimer hid'
    exact Int64.not_lt.mpr hle (of_decide_eq_true hlt)
  · rintro ⟨hid, hnot⟩
    obtain ⟨timer, htimer, rfl⟩ := List.mem_map.mp hid
    refine List.mem_map_of_mem (List.mem_filter.mpr ⟨htimer, decide_eq_true ?_⟩)
    by_contra hle
    exact hnot (List.mem_map_of_mem (mem_dueBy.mpr ⟨htimer, Int64.not_lt.mp hle⟩))

end Agenda

/-! ### One occurrence -/

namespace Service

variable {s s' : Service} {a : Agenda} {outbox outbox' outbox₀ : Mailbox Expiration}
variable {occurrence : Occurrence} {outcome : Outcome}

/-- The timers that an occurrence ends because they are popped or harvested. -/
def ending (s : Service) : Occurrence → List Timer
  | .command _ .popSoonest =>
    match s.store.popSoonest with
    | .ok (timer, _) => timer.toList
    | .error _ => []
  | .heartbeat reading =>
    match s.store.harvest reading with
    | .ok (due, _) => due
    | .error _ => []
  | _ => []

/-- What an occurrence does to a service: of the running timers none is new but the one that was
started, and what is left of the payloads is what belongs to running timers. -/
structure Stepped (s s' : Service) (occurrence : Occurrence) : Prop where
  follows : ∃ a, s'.store.Follows a
  running : ∀ {id}, s'.store.contains id = true →
    occurrence.started? = some id ∨ s.store.contains id = true
  payloads : (∀ {id}, HasPayload s.payloads id → s.store.contains id = true) → ∀ {id},
    HasPayload s'.payloads id ↔ s'.store.contains id = true ∧
      (occurrence.started? = some id ∨ HasPayload s.payloads id)

theorem contains_iff {s : Store} (h : s.Follows a) {id : Bytes} :
    s.contains id = true ↔ id ∈ a.ids := by
  rw [h.contains_eq, List.any_eq_true, Agenda.ids, List.mem_map]
  simp only [decide_eq_true_eq]

namespace Stepped

/-- Nothing is started, and nothing ends. -/
theorem same (h : s.store.Follows a) (h' : s'.store.Follows a) (idle : occurrence.started? = none)
    (kept : ∀ {id}, HasPayload s'.payloads id ↔ HasPayload s.payloads id) :
    s.Stepped s' occurrence where
  follows := ⟨a, h'⟩
  running {id} hid := Or.inr ((contains_iff h).mpr ((contains_iff h').mp hid))
  payloads live {id} := by
    rw [kept, idle, contains_iff h', ← contains_iff h]
    constructor
    · exact fun hid => ⟨live hid, Or.inr hid⟩
    · rintro ⟨-, hnone | hid⟩
      · cases hnone
      · exact hid

/-- A timer is started, and its payload is stored. -/
theorem start (h : s.store.Follows a) {reading : Instant} {name payload : String}
    {duration : Duration}
    (h' : s'.store.Follows (a.start reading (Bytes.ofString name) duration.toTtl))
    (stored : s'.payloads = s.payloads.insert name payload) :
    s.Stepped s' (.command reading (.set name payload duration)) where
  follows := ⟨_, h'⟩
  running {id} hid := by
    rcases Agenda.mem_ids_start.mp ((contains_iff h').mp hid) with rfl | hid
    · exact Or.inl rfl
    · exact Or.inr ((contains_iff h).mpr hid)
  payloads live {id} := by
    rw [stored, HasPayload.insert_iff, contains_iff h', Agenda.mem_ids_start, ← contains_iff h,
      Occurrence.started?, Option.some.injEq]
    constructor
    · rintro (rfl | hid)
      · exact ⟨Or.inl rfl, Or.inl rfl⟩
      · exact ⟨Or.inr (live hid), Or.inr hid⟩
    · exact fun hid => hid.2

/-- One timer ends, and its payload goes with it. -/
theorem without (h : s.store.Follows a) {gone : Bytes} (h' : s'.store.Follows (a.without gone))
    (idle : occurrence.started? = none)
    (taken : ∀ {id}, HasPayload s'.payloads id ↔ id ≠ gone ∧ HasPayload s.payloads id) :
    s.Stepped s' occurrence where
  follows := ⟨_, h'⟩
  running {id} hid :=
    Or.inr ((contains_iff h).mpr (Agenda.mem_ids_without.mp ((contains_iff h').mp hid)).2)
  payloads live {id} := by
    rw [taken, idle, contains_iff h', Agenda.mem_ids_without, ← contains_iff h]
    constructor
    · exact fun hid => ⟨⟨hid.1, live hid.2⟩, Or.inr hid.2⟩
    · rintro ⟨⟨hne, -⟩, hnone | hid⟩
      · cases hnone
      · exact ⟨hne, hid⟩

/-- Every timer ends, and no payload is left. -/
theorem clear (h' : s'.store.Follows { a with timers := [] }) (taken : s'.payloads = ∅) :
    s.Stepped s' occurrence where
  follows := ⟨_, h'⟩
  running {id} hid := by
    have hnone := (contains_iff h').mp hid
    cases hnone
  payloads _ {id} := by
    rw [taken, contains_iff h']
    simp [HasPayload, Agenda.ids]

/-- The timers that are due end, and what was announced takes their payloads. -/
theorem harvest (h : s.store.Follows a) (heard : outbox.hasReceiver = true) {reading : Instant}
    {store : Store} (h' : store.Follows (a.harvest reading).2)
    (paid : ∀ timer ∈ (a.harvest reading).1, HasPayload s.payloads timer.id) :
    s.Stepped { s with store, payloads :=
      (announce s.payloads outbox (a.harvest reading).1).payloads } (.heartbeat reading) where
  follows := ⟨_, h'⟩
  running {id} hid := by
    have hids := (Agenda.mem_ids_harvest h.ids_nodup).mp ((contains_iff h').mp hid)
    exact Or.inr ((contains_iff h).mpr hids.1)
  payloads live {id} := by
    rw [HasPayload.announce_iff heard (Agenda.nodup_ids_harvest h.ids_nodup reading) paid,
      contains_iff h', Agenda.mem_ids_harvest h.ids_nodup, ← contains_iff h]
    constructor
    · exact fun hid => ⟨⟨live hid.1, hid.2⟩, Or.inr hid.1⟩
    · rintro ⟨⟨-, hnot⟩, hnone | hid⟩
      · cases hnone
      · exact ⟨hid, hnot⟩

end Stepped

/-- A command is handled, and is a step, if what it ends has its payload. -/
theorem handle_stepped (h : s.store.Follows a) {reading : Instant} {command : Command}
    (paid : ∀ timer ∈ s.ending (.command reading command), HasPayload s.payloads timer.id) :
    ∃ handled, s.handle reading command = .ok handled ∧
      s.Stepped handled.service (.command reading command) := by
  cases command with
  | set name payload duration =>
    obtain ⟨store, notes, hset, hstore⟩ := h.set reading (Bytes.ofString name) duration.toTtl
    exact ⟨_, handle_set hset, .start h hstore rfl⟩
  | cancel name =>
    obtain ⟨store, hcancel, hstore⟩ := h.cancel (Bytes.ofString name)
    exact ⟨_, handle_cancel hcancel, .without h hstore rfl HasPayload.erase_iff⟩
  | cancelAll => exact ⟨_, rfl, .clear h.clear rfl⟩
  | look name => exact ⟨_, rfl, .same h h rfl Iff.rfl⟩
  | update name payload => exact ⟨_, rfl, .same h h rfl HasPayload.modify_iff⟩
  | deadline name => exact ⟨_, handle_deadline (h.deadline?_eq _), .same h h rfl Iff.rfl⟩
  | nextDeadline => exact ⟨_, handle_nextDeadline h.nextDeadline?_eq, .same h h rfl Iff.rfl⟩
  | timeLeft => exact ⟨_, handle_timeLeft (h.timeLeft?_eq reading), .same h h rfl Iff.rfl⟩
  | popSoonest =>
    obtain ⟨store, hpop, hstore⟩ := h.popSoonest
    cases hsoonest : soonest? (fun t => t) a.timers with
    | none =>
      simp only [Agenda.popSoonest, hsoonest] at hpop hstore
      exact ⟨_, handle_popSoonest_of_none hpop, .same h hstore rfl Iff.rfl⟩
    | some timer =>
      simp only [Agenda.popSoonest, hsoonest] at hpop hstore
      have hpaid : HasPayload s.payloads timer.id := paid timer (by simp [ending, hpop])
      obtain ⟨payload, htaken⟩ := hpaid.exists_newsOf
      refine ⟨_, handle_popSoonest_of_some hpop htaken, .without h hstore rfl ?_⟩
      refine fun {id} => HasPayload.erase_iff.trans ?_
      rw [hpaid.nameOf_mem.2]
  | count => exact ⟨_, rfl, .same h h rfl Iff.rfl⟩
  | shutdown => exact ⟨_, rfl, .same h h rfl Iff.rfl⟩

/-- What happens succeeds, and is a step, if what it ends has its payload. -/
theorem perform_stepped (h : s.store.Follows a) (heard : outbox.hasReceiver = true)
    (paid : ∀ timer ∈ s.ending occurrence, HasPayload s.payloads timer.id) :
    ∃ outcome s' outbox', s.perform outbox occurrence = .ok (outcome, s', outbox') ∧
      outbox'.hasReceiver = true ∧ s.Stepped s' occurrence := by
  cases occurrence with
  | command reading command =>
    obtain ⟨handled, hhandle, hstepped⟩ := handle_stepped h paid
    exact ⟨_, _, _, perform_command hhandle outbox, heard, hstepped⟩
  | heartbeat reading =>
    obtain ⟨store, notes, hharvest, hstore⟩ := h.harvest reading
    simp only [ending, hharvest] at paid
    have hwhole : (announce s.payloads outbox (a.harvest reading).1).fault = none :=
      HasPayload.fault_announce (Agenda.nodup_ids_harvest h.ids_nodup reading) paid
    exact ⟨_, _, _, perform_heartbeat hharvest hwhole, hasReceiver_announce heard _,
      .harvest h heard hstore paid⟩
  | receive =>
    exact ⟨_, s, _, rfl, (hasReceiver_receive outbox).trans heard, .same h h rfl Iff.rfl⟩

/-- Nothing else can go wrong than that a timer ends for which there is no payload. -/
theorem perform_ok_or_missing (h : s.store.Follows a) (outbox : Mailbox Expiration)
    (occurrence : Occurrence) : (∃ result, s.perform outbox occurrence = .ok result) ∨
      ∃ timer ∈ s.ending occurrence, ¬HasPayload s.payloads timer.id ∧
        s.perform outbox occurrence = .error (.payloadMissing (nameOf timer.id)) := by
  cases occurrence with
  | receive => exact .inl ⟨_, rfl⟩
  | heartbeat reading =>
    obtain ⟨store, notes, hharvest, -⟩ := h.harvest reading
    cases hfault : (announce s.payloads outbox (a.harvest reading).1).fault with
    | none => exact .inl ⟨_, perform_heartbeat hharvest hfault⟩
    | some fault =>
      obtain ⟨timer, hdue, hmissing, rfl⟩ :=
        HasPayload.exists_missing_of_announce (Agenda.nodup_ids_harvest h.ids_nodup reading) hfault
      refine .inr ⟨timer, ?_, hmissing, perform_heartbeat_of_fault hharvest hfault⟩
      simpa only [ending, hharvest] using hdue
  | command reading command =>
    by_cases hcommand : command = .popSoonest
    · subst hcommand
      obtain ⟨store, hpop, -⟩ := h.popSoonest
      generalize a.popSoonest.1 = popped at hpop
      cases popped with
      | none => exact .inl ⟨_, perform_command (handle_popSoonest_of_none hpop) outbox⟩
      | some timer =>
        cases htaken : newsOf s.payloads timer.id with
        | ok taken =>
          exact .inl ⟨_, perform_command (handle_popSoonest_of_some hpop htaken) outbox⟩
        | error fault =>
          obtain ⟨hmissing, rfl⟩ := HasPayload.missing_of_newsOf htaken
          exact .inr ⟨timer, by simp [ending, hpop], hmissing,
            perform_command_of_fault (handle_popSoonest_of_fault hpop htaken) outbox⟩
    · -- No other command ends a timer whose payload is asked for.
      have hnone : s.ending (.command reading command) = [] := by
        cases command with
        | popSoonest => exact absurd rfl hcommand
        | _ => rfl
      have hpaid : ∀ timer ∈ s.ending (.command reading command),
          HasPayload s.payloads timer.id := by simp [hnone]
      obtain ⟨handled, hhandle, -⟩ := handle_stepped h hpaid
      exact .inl ⟨_, perform_command hhandle outbox⟩

/-! ### Histories -/

/-- How a service came about: what happened to it one after the other, where every timer that was
popped or harvested had its payload. The identifiers are those of the running timers that the
service started. -/
inductive History (start : Service) (outbox₀ : Mailbox Expiration) :
    Service → Mailbox Expiration → Set Bytes → Prop
  | start : History start outbox₀ start outbox₀ ∅
  | next {s s' : Service} {outbox outbox' : Mailbox Expiration} {started : Set Bytes}
      {occurrence : Occurrence} {outcome : Outcome} :
      History start outbox₀ s outbox started →
      s.perform outbox occurrence = .ok (outcome, s', outbox') →
      (∀ timer ∈ s.ending occurrence, HasPayload s.payloads timer.id) →
      History start outbox₀ s' outbox' { id | s'.store.contains id = true ∧
        (occurrence.started? = some id ∨ id ∈ started) }

namespace History

variable {start : Service} {started : Set Bytes}

/-- In every history the receiver stays and the payloads are those of the started timers, which are
running. If no timer was running at first, all running timers were started. -/
theorem invariant (follows : start.store.Follows a) (fresh : start.payloads = ∅)
    (heard : outbox₀.hasReceiver = true) (history : History start outbox₀ s outbox started) :
    (∃ a, s.store.Follows a) ∧ outbox.hasReceiver = true ∧
      (∀ id ∈ started, s.store.contains id = true) ∧
      (∀ id, HasPayload s.payloads id ↔ id ∈ started) ∧
      (start.store.isEmpty = true → ∀ id, s.store.contains id = true → id ∈ started) := by
  induction history with
  | start =>
    refine ⟨⟨a, follows⟩, heard, fun id hid => hid.elim, fun id => ?_, fun hempty id hid => ?_⟩
    · rw [fresh, Set.mem_empty_iff_false]
      simp [HasPayload]
    · rw [follows.isEmpty_eq, List.isEmpty_iff] at hempty
      rw [contains_iff follows, Agenda.ids, hempty] at hid
      cases hid
  | @next s s' outbox outbox' started occurrence outcome history hperform paid ih =>
    obtain ⟨⟨b, hfollows⟩, hheard, hlive, hpayload, hall⟩ := ih
    -- The step that is known to exist is the one that was made.
    obtain ⟨outcome₁, s₁, outbox₁, hperform₁, hheard₁, hstepped⟩ :=
      perform_stepped hfollows hheard paid
    rw [hperform, Except.ok.injEq, Prod.mk.injEq, Prod.mk.injEq] at hperform₁
    obtain ⟨-, rfl, rfl⟩ := hperform₁
    refine ⟨hstepped.follows, hheard₁, fun id hid => hid.1, fun id => ?_, fun hempty id hid => ?_⟩
    · rw [hstepped.payloads fun hid => hlive _ ((hpayload _).mp hid), hpayload]
      rfl
    · refine ⟨hid, (hstepped.running hid).imp_right fun hbefore => hall hempty id hbefore⟩

/-- The payloads are as many as the running timers if they are for the same identifiers. -/
theorem size_payloads (h : s.store.Follows a)
    (same : ∀ id, HasPayload s.payloads id ↔ s.store.contains id = true) :
    s.payloads.size = s.store.size := by
  -- Different names have different bytes, so the names are as many as their identifiers.
  have hkeys : (s.payloads.keys.map Bytes.ofString).Perm a.ids := by
    have hnodup : (s.payloads.keys.map Bytes.ofString).Nodup :=
      Std.TreeMap.nodup_keys.map fun _ _ => Bytes.ofString_inj.mp
    refine (List.perm_ext_iff_of_nodup hnodup h.ids_nodup).mpr fun id => ?_
    show _ ↔ id ∈ a.ids
    rw [← contains_iff h, ← same]
    simp only [List.mem_map, Std.TreeMap.mem_keys, HasPayload]
  rw [h.size_eq, ← Std.TreeMap.length_keys, ← List.length_map (f := Bytes.ofString),
    hkeys.length_eq, Agenda.ids, List.length_map]

/-- What is popped or harvested was running. -/
theorem contains_of_mem_ending (h : s.store.Follows a) {timer : Timer}
    (htimer : timer ∈ s.ending occurrence) : s.store.contains timer.id = true := by
  rw [contains_iff h]
  cases occurrence with
  | receive => cases htimer
  | heartbeat reading =>
    obtain ⟨store, notes, hharvest, -⟩ := h.harvest reading
    simp only [ending, hharvest] at htimer
    exact List.mem_map_of_mem (mem_dueBy.mp htimer).1
  | command reading command =>
    cases command with
    | popSoonest =>
      obtain ⟨store, hpop, -⟩ := h.popSoonest
      simp only [ending, hpop, Agenda.popSoonest] at htimer
      cases hsoonest : soonest? (fun t => t) a.timers with
      | none => simp [hsoonest] at htimer
      | some timer' =>
        obtain rfl : timer = timer' := by simpa [hsoonest] using htimer
        exact List.mem_map_of_mem (soonest?_eq_some hsoonest).1
    | _ => cases htimer

/-- The payloads of a service are those of the running timers that it started, and it fails only
where a timer ends that has none. Over a store that had no timers at first they are those of all
running timers, there are as many as the service says it has timers, no timer ends without its
payload, and the service never fails. -/
theorem hasPayload_iff_started {store : Store} {name : String} (reachable : store.Reachable)
    (heard : outbox₀.hasReceiver = true)
    (history : History { name, store } outbox₀ s outbox started) :
    (∀ id, HasPayload s.payloads id ↔ s.store.contains id = true ∧ id ∈ started) ∧
    (∀ occurrence, (∃ result, s.perform outbox occurrence = .ok result) ∨
      ∃ timer ∈ s.ending occurrence, ¬HasPayload s.payloads timer.id ∧
        s.perform outbox occurrence = .error (.payloadMissing (nameOf timer.id))) ∧
    (store.isEmpty = true →
      (∀ id, HasPayload s.payloads id ↔ s.store.contains id = true) ∧
      (∀ reading, ∃ handled, s.handle reading .count = .ok handled ∧
        handled.reply = some (.count s.payloads.size)) ∧
      ∀ occurrence, (∃ result, s.perform outbox occurrence = .ok result) ∧
        ∀ timer ∈ s.ending occurrence, HasPayload s.payloads timer.id) := by
  obtain ⟨a, hstore⟩ := reachable.exists_follows
  obtain ⟨⟨b, hfollows⟩, hheard, hlive, hpayload, hall⟩ := history.invariant hstore rfl heard
  refine ⟨fun id => ?_, perform_ok_or_missing hfollows outbox, fun hempty => ?_⟩
  · rw [hpayload]
    exact ⟨fun hid => ⟨hlive id hid, hid⟩, fun hid => hid.2⟩
  · have hsame : ∀ id, HasPayload s.payloads id ↔ s.store.contains id = true := fun id =>
      (hpayload id).trans ⟨hlive id, hall hempty id⟩
    have hpaid : ∀ occurrence, ∀ timer ∈ s.ending occurrence, HasPayload s.payloads timer.id :=
      fun occurrence timer htimer => (hsame _).mpr (contains_of_mem_ending hfollows htimer)
    refine ⟨hsame, fun reading => ⟨_, rfl, ?_⟩, fun occurrence => ⟨?_, hpaid occurrence⟩⟩
    · rw [size_payloads hfollows hsame]
      rfl
    · obtain ⟨outcome, s', outbox', hperform, -⟩ :=
        perform_stepped hfollows hheard (hpaid occurrence)
      exact ⟨_, hperform⟩

/-- Over a store with a timer for `p`, after one command there is a payload for `a` and none for
`p`. -/
theorem hasPayload_iff_started_preloaded : ∃ store s outbox started, store.Reachable ∧
    store.contains (Bytes.ofString "p") = true ∧
    History { name := "m", store } { capacity := 1 } s outbox started ∧
    HasPayload s.payloads (Bytes.ofString "a") ∧ ¬HasPayload s.payloads (Bytes.ofString "p") := by
  obtain ⟨store, hrun, hstore⟩ := (Store.Follows.empty 1).run [(0, .set (Bytes.ofString "p") 50)]
  have hreachable : store.Reachable := ⟨1, _, _, hrun⟩
  obtain ⟨store', notes, hset, hstore'⟩ :=
    hstore.set 0 (Bytes.ofString "a") (Duration.ofMillis 5).toTtl
  have hperform := perform_command (@handle_set { name := "m", store } _ _ _ _ "x" _ hset)
    { capacity := 1 }
  have history := History.start.next hperform (by simp [ending])
  have hpayload := (hasPayload_iff_started hreachable rfl history).1
  have ha : store'.contains (Bytes.ofString "a") = true :=
    (contains_iff hstore').mpr (Agenda.mem_ids_start.mpr (Or.inl rfl))
  refine ⟨store, _, _, _, hreachable, (contains_iff hstore).mpr (by decide), history,
    (hpayload _).mpr ⟨ha, ha, Or.inl rfl⟩, fun hp => ?_⟩
  rcases ((hpayload _).mp hp).2.2 with hsame | hnone
  · exact absurd (Option.some.inj hsame) (by decide)
  · exact hnone

end History

end Service

end Expiry
