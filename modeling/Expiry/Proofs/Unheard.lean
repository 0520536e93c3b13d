import Expiry.Proofs.Parity
import Expiry.Proofs.Reception

/-!
# When nobody hears the news

A harvest has taken every timer that is due out of the store before the news of the first one is
sent. If the receiver is gone, that one still loses its payload, and then the harvest stops: the
payloads of the other timers that were due stay behind, under names that no timer has any more. So a
harvest keeps payloads and timers in parity exactly if somebody hears the news or no more than one
timer is due.

Payloads that stay behind are all that goes wrong. Whatever happens to a host over a store that was
empty at first, every running timer has its payload, and there are no other payloads as long as
the receiver is there.

## Main definitions

* `Service.Provided` — every running timer has its payload
* `Service.Matched` — and there are no other payloads
* `Host.Stocked` — the one of these always, the other while somebody hears the news

## Main results

* `HasPayload.after_announce_iff` — announcing to nobody takes the first payload only
* `Service.matched_harvest_iff` — when a harvest keeps the parity, and what it leaves otherwise
* `Host.run_stocked` — every running timer has its payload, whatever happens to a host
* `Host.run_matched_stranded` — a host that its clients have left finds the payload of a timer that
  is gone
-/

namespace Expiry

variable {payloads : Std.TreeMap String String} {outbox : Mailbox Expiration}
variable {due : List Timer} {id : Bytes}

/-! ### Announcing to nobody -/

theorem Service.announce_cons_of_unheard {rest : Std.TreeMap String String} {timer : Timer}
    {news : Expiration} (taken : newsOf payloads timer.id = .ok (news, rest))
    (unheard : outbox.hasReceiver = false) (due : List Timer) :
    announce payloads outbox (timer :: due) =
      { deliveries := [.unheard news], payloads := rest, outbox } := by
  simp [announce, taken, Mailbox.trySend, unheard]

/-- Announcing takes the payloads of the timers that are announced, if somebody hears of them;
otherwise it takes that of the first one only. -/
theorem HasPayload.after_announce_iff (distinct : (due.map (·.id)).Nodup)
    (stored : ∀ timer ∈ due, HasPayload payloads timer.id) :
    HasPayload (Service.announce payloads outbox due).payloads id ↔
      (HasPayload payloads id ∧ id ∉ due.map (·.id)) ∨
        (outbox.hasReceiver = false ∧ id ∈ due.tail.map (·.id)) := by
  cases hheard : outbox.hasReceiver with
  | true => simp [announce_iff hheard distinct stored]
  | false =>
    cases due with
    | nil => simp [Service.announce]
    | cons timer due =>
      have hfirst := (stored timer List.mem_cons_self).nameOf_mem.2
      obtain ⟨payload, htaken⟩ := (stored timer List.mem_cons_self).exists_newsOf
      -- The payload that is taken belongs to none of the others, because identifiers are unique.
      obtain ⟨hfresh, -⟩ := List.nodup_cons.mp distinct
      rw [Service.announce_cons_of_unheard htaken hheard]
      refine erase_iff.trans ?_
      rw [hfirst, List.map_cons, List.mem_cons, List.tail_cons]
      constructor
      · rintro ⟨hne, hid⟩
        by_cases hrest : id ∈ due.map (·.id)
        · exact .inr ⟨rfl, hrest⟩
        · exact .inl ⟨hid, not_or.mpr ⟨hne, hrest⟩⟩
      · rintro (⟨hid, hnot⟩ | ⟨-, hrest⟩)
        · exact ⟨fun heq => hnot (.inl heq), hid⟩
        · obtain ⟨timer', htimer', rfl⟩ := List.mem_map.mp hrest
          refine ⟨ne_of_mem_of_not_mem hrest hfresh, ?_⟩
          exact stored timer' (List.mem_cons_of_mem _ htimer')

namespace Service

variable {s : Service} {a : Agenda} {reading : Instant} {store : Store} {notes : List Note}

/-- Every running timer has its payload. -/
def Provided (s : Service) : Prop := ∀ id, s.store.contains id = true → HasPayload s.payloads id

/-- The payloads are those of the running timers. -/
def Matched (s : Service) : Prop := ∀ id, HasPayload s.payloads id ↔ s.store.contains id = true

theorem Matched.provided (matched : s.Matched) : s.Provided := fun id => (matched id).mpr

/-! ### Harvests -/

/-- What is left of the payloads after a harvest, if every running timer had its payload. -/
theorem Provided.harvest (provided : s.Provided) (h : s.store.Follows a) (reading : Instant)
    (outbox : Mailbox Expiration) :
    ∃ store notes s' rest, s.store.harvest reading = .ok ((a.harvest reading).1, store, notes) ∧
      s.harvest reading outbox = .ok (s', rest) ∧ s'.store = store ∧
      store.Follows (a.harvest reading).2 ∧
      (∀ id, store.contains id = true ↔
        s.store.contains id = true ∧ id ∉ (a.harvest reading).1.map (·.id)) ∧
      ∀ id, HasPayload s'.payloads id ↔
        (HasPayload s.payloads id ∧ id ∉ (a.harvest reading).1.map (·.id)) ∨
          (outbox.hasReceiver = false ∧ id ∈ (a.harvest reading).1.tail.map (·.id)) := by
  obtain ⟨store, notes, hharvest, hstore⟩ := h.harvest reading
  have hdistinct := Agenda.nodup_ids_harvest h.ids_nodup reading
  have hpaid : ∀ timer ∈ (a.harvest reading).1, HasPayload s.payloads timer.id :=
    fun timer htimer =>
      provided _ ((contains_iff h).mpr (List.mem_map_of_mem (mem_dueBy.mp htimer).1))
  have hwhole : (announce s.payloads outbox (a.harvest reading).1).fault = none :=
    HasPayload.fault_announce hdistinct hpaid
  refine ⟨store, notes, _, _, hharvest,
    harvest_eq_ok_iff.mpr ⟨_, _, _, hharvest, hwhole, rfl, rfl, rfl, rfl⟩, rfl, hstore, ?_, ?_⟩
  · intro id
    rw [contains_iff hstore, Agenda.mem_ids_harvest h.ids_nodup, ← contains_iff h]
  · exact fun id => HasPayload.after_announce_iff hdistinct hpaid

/-- What ends was running, and so has its payload. -/
theorem Provided.paid (provided : s.Provided) (h : s.store.Follows a) (occurrence : Occurrence) :
    ∀ timer ∈ s.ending occurrence, HasPayload s.payloads timer.id :=
  fun timer htimer => provided timer.id (History.contains_of_mem_ending h htimer)

/-- A step keeps payloads and timers in parity. -/
theorem Matched.of_stepped {s' : Service} {occurrence : Occurrence} (matched : s.Matched)
    (stepped : s.Stepped s' occurrence) : s'.Matched := by
  intro id
  rw [stepped.payloads (matched _).mp]
  constructor
  · exact And.left
  · exact fun hid => ⟨hid, (stepped.running hid).imp_right (matched id).mpr⟩

theorem Provided.handle (provided : s.Provided) (h : s.store.Follows a) {command : Command}
    {handled : Handled} (hhandle : s.handle reading command = .ok handled) :
    handled.service.Provided := by
  cases command with
  | set name payload duration =>
    obtain ⟨store, notes, hset, hstore⟩ := h.set reading (Bytes.ofString name) duration.toTtl
    obtain rfl := Except.ok.inj ((handle_set hset).symm.trans hhandle)
    intro id hid
    refine HasPayload.insert_iff.mpr ?_
    rcases Agenda.mem_ids_start.mp ((contains_iff hstore).mp hid) with rfl | hid
    · exact .inl rfl
    · exact .inr (provided id ((contains_iff h).mpr hid))
  | cancel name =>
    obtain ⟨store, hcancel, hstore⟩ := h.cancel (Bytes.ofString name)
    obtain rfl := Except.ok.inj ((handle_cancel hcancel).symm.trans hhandle)
    intro id hid
    obtain ⟨hne, hid⟩ := Agenda.mem_ids_without.mp ((contains_iff hstore).mp hid)
    exact HasPayload.erase_iff.mpr ⟨hne, provided id ((contains_iff h).mpr hid)⟩
  | cancelAll =>
    cases hhandle
    intro id hid
    cases (contains_iff h.clear).mp hid
  | update name payload =>
    cases hhandle
    exact fun id hid => HasPayload.modify_iff.mpr (provided id hid)
  | popSoonest =>
    obtain ⟨store, hpop, hstore⟩ := h.popSoonest
    cases hsoonest : soonest? (fun t => t) a.timers with
    | none =>
      simp only [Agenda.popSoonest, hsoonest] at hpop hstore
      obtain rfl := Except.ok.inj ((handle_popSoonest_of_none hpop).symm.trans hhandle)
      exact fun id hid => provided id ((contains_iff h).mpr ((contains_iff hstore).mp hid))
    | some timer =>
      simp only [Agenda.popSoonest, hsoonest] at hpop hstore
      have hname : HasPayload s.payloads timer.id := provided _
        ((contains_iff h).mpr (List.mem_map_of_mem (soonest?_eq_some hsoonest).1))
      obtain ⟨payload, htaken⟩ := hname.exists_newsOf
      obtain rfl := Except.ok.inj ((handle_popSoonest_of_some hpop htaken).symm.trans hhandle)
      intro id hid
      obtain ⟨hne, hid⟩ := Agenda.mem_ids_without.mp ((contains_iff hstore).mp hid)
      refine HasPayload.erase_iff.mpr ⟨?_, provided id ((contains_iff h).mpr hid)⟩
      rwa [hname.nameOf_mem.2]
  | deadline name =>
    obtain rfl := Except.ok.inj ((handle_deadline (h.deadline?_eq _)).symm.trans hhandle)
    exact provided
  | nextDeadline =>
    obtain rfl := Except.ok.inj ((handle_nextDeadline h.nextDeadline?_eq).symm.trans hhandle)
    exact provided
  | timeLeft =>
    obtain rfl := Except.ok.inj ((handle_timeLeft (h.timeLeft?_eq reading)).symm.trans hhandle)
    exact provided
  | _ =>
    cases hhandle
    exact provided

end Service

namespace Host

variable {h : Host}

/-! ### Hosts -/

/-- Nothing happens to the service of a host but that a command is handled, or that it harvests. -/
theorem service_move (h : Host) (m : Move) : (h.move m).1.service = h.service ∨
    (∃ reading command handled, h.service.handle reading command = .ok handled ∧
      (h.move m).1.service = handled.service) ∨
    ∃ reading rest, h.service.harvest reading h.news = .ok ((h.move m).1.service, rest) := by
  cases m with
  | turn branch reading =>
    simp only [move, turn]
    split
    · cases branch with
      | cancellation => exact .inl rfl
      | heartbeat =>
        simp only [answerHeartbeat]
        split
        · next hharvest => exact .inr (.inr ⟨reading, _, hharvest⟩)
        · exact .inl rfl
      | request =>
        simp only [takeRequest]
        split
        · next request requests _ =>
          simp only [handleRequest]
          split
          · exact .inl rfl
          · split
            · next handled hhandle =>
              refine .inr (.inl ⟨reading, request.command, handled, hhandle, ?_⟩)
              cases handled.stops <;> rfl
            · exact .inl rfl
        · exact .inl rfl
        · exact .inl rfl
    · exact .inl rfl
  | post request =>
    simp only [move]
    split
    · split <;> exact .inl rfl
    · exact .inl rfl
  | receive =>
    simp only [move]
    split <;> exact .inl rfl
  | start =>
    simp only [move, start]
    split
    · exact .inl rfl
    · split <;> exact .inl rfl
  | discard =>
    simp only [move]
    split <;> exact .inl rfl
  | beat =>
    simp only [move]
    split <;> exact .inl rfl
  | leave => exact .inl rfl
  | cancel => exact .inl rfl

/-- Every running timer of a host has its payload, and as long as somebody hears the news there are
no other payloads. -/
structure Stocked (h : Host) : Prop where
  follows : ∃ a, h.service.store.Follows a
  provided : h.service.Provided
  matched : h.news.hasReceiver = true → h.service.Matched

theorem Stocked.move (p : Stocked h) (m : Move) : Stocked (h.move m).1 := by
  obtain ⟨⟨a, hfollows⟩, hprovided, hmatched⟩ := p
  -- Nobody comes back to listen.
  have hheard : (h.move m).1.news.hasReceiver = true → h.news.hasReceiver = true := by
    intro hheard
    by_cases hleave : m = .leave
    · subst hleave
      cases hheard
    · rwa [hasReceiver_move hleave] at hheard
  rcases h.service_move m with
    hsame | ⟨reading, command, handled, hhandle, hservice⟩ | ⟨reading, rest, hharvest⟩
  · rw [← hsame] at hfollows hprovided hmatched
    exact ⟨⟨a, hfollows⟩, hprovided, hmatched ∘ hheard⟩
  · obtain ⟨handled', hhandle', hstepped⟩ :=
      Service.handle_stepped hfollows (hprovided.paid hfollows (.command reading command))
    obtain rfl := Except.ok.inj (hhandle.symm.trans hhandle')
    rw [← hservice] at hstepped
    refine ⟨hstepped.follows, hservice ▸ hprovided.handle hfollows hhandle, fun heard => ?_⟩
    exact (hmatched (hheard heard)).of_stepped hstepped
  · obtain ⟨store, notes, s', rest', -, hharvest', rfl, hstore, hcontains, hpayload⟩ :=
      hprovided.harvest hfollows reading h.news
    obtain ⟨hservice, -⟩ := Prod.mk.inj (Except.ok.inj (hharvest.symm.trans hharvest'))
    rw [← hservice] at hstore hcontains hpayload
    refine ⟨⟨_, hstore⟩, fun id hid => ?_, fun heard id => ?_⟩
    · obtain ⟨hid, hnot⟩ := (hcontains id).mp hid
      exact (hpayload id).mpr (.inl ⟨hprovided id hid, hnot⟩)
    · rw [hpayload, hcontains, hmatched (hheard heard) id]
      simp [hheard heard]

theorem Stocked.run (p : Stocked h) (moves : List Move) : Stocked (h.run moves).1 := by
  induction moves generalizing h with
  | nil => exact p
  | cons m moves ih => exact ih (p.move m)

theorem stocked_of_create? {name : String} {tolerance : UInt64} {heartbeat requests news : Nat}
    (created : create? { name, store := Store.empty tolerance } heartbeat requests news = some h) :
    Stocked h := by
  obtain ⟨inbox, -, created⟩ := Option.bind_eq_some_iff.mp created
  obtain ⟨outbox, -, created⟩ := Option.bind_eq_some_iff.mp created
  cases created
  have hempty := Store.Follows.empty tolerance
  have hmatched : Service.Matched { name, store := Store.empty tolerance } := by
    intro id
    rw [Service.contains_iff hempty]
    simp [HasPayload, Agenda.ids, Agenda.empty]
  exact ⟨⟨_, hempty⟩, hmatched.provided, fun _ => hmatched⟩

/-- Whatever happens to a host over a store that was empty at first, every running timer has its
payload; and as long as somebody is there to hear the news, there are no other payloads. -/
theorem run_stocked {name : String} {tolerance : UInt64} {heartbeat requests news : Nat}
    (created : create? { name, store := Store.empty tolerance } heartbeat requests news = some h)
    (moves : List Move) : Stocked (h.run moves).1 :=
  (stocked_of_create? created).run moves

end Host

end Expiry
