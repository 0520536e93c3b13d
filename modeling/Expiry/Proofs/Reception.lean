import Expiry.Host.Reception
import Expiry.Proofs.Requests

/-!
# How news gets to a client

Harvests send news to a mailbox, and the client of a host takes it out there: at the handle, waiting
or not, or later in the stream that it has made of the handle. It makes no difference to the news
which way the client looks. What was received at any time is what was sent first, and the rest waits
for as long as the client is there.

It makes no difference to the host either. A host comes to an end if it finds itself deserted, and
the stream keeps it from that as well as the handle does. So the client is told of the end only when
there is nothing left to receive and nothing more to come.

## Main definitions

* `sent`, `received` — the news that effects tell of
* `Service.Posts` — what was sent stands at the end of the mailbox
* `Host.Attended` — the ends of the mailboxes are held by those who are there
* `Host.Conveys` — what happens to news between two states of a host
* `Reception.Present` — the client is there as long as it has something in hand
* `Reception.Delivers` — what a client has got to know, and what it finds when it looks for more

## Main results

* `Service.posts_announce` — announcing sends news to the end of the mailbox
* `Host.conveys_move` — what a move does to news, and why it may end the work
* `Reception.run_delivers` — news gets to the client, whatever happens and however it looks
-/

namespace Expiry

/-- The news, if it was sent. -/
def Delivery.sent? : Delivery → Option Expiration
  | sent news => some news
  | dropped _ | unheard _ => none

/-- The news that was sent, in the order in which that happened. -/
def sent (effects : List Effect) : List Expiration :=
  effects.filterMap fun | .delivered delivery => delivery.sent? | _ => none

/-- The news that was received. -/
def received (effects : List Effect) : List Expiration :=
  effects.filterMap fun | .received (.item news) => some news | _ => none

theorem sent_append (effects more : List Effect) :
    sent (effects ++ more) = sent effects ++ sent more := List.filterMap_append

theorem received_append (effects more : List Effect) :
    received (effects ++ more) = received effects ++ received more := List.filterMap_append

namespace Service

variable {s s' : Service} {reading : Instant} {outbox outbox' : Mailbox Expiration}
variable {deliveries : List Delivery} {notes : List Note}

/-- The deliveries that were sent stand at the end of the mailbox. Without a receiver there are
none. -/
structure Posts (outbox outbox' : Mailbox Expiration) (deliveries : List Delivery) : Prop where
  outbox_eq : outbox' = { outbox with
    items := outbox.items ++ deliveries.filterMap Delivery.sent? }
  unheard : outbox.hasReceiver = false → deliveries.filterMap Delivery.sent? = []

theorem Posts.refl : Posts outbox outbox [] := ⟨by simp, fun _ => rfl⟩

/-- Announcing sends news to the end of the mailbox, whether it breaks off or not. -/
theorem posts_announce (payloads : Std.TreeMap String String) (outbox : Mailbox Expiration)
    (due : List Timer) :
    Posts outbox (announce payloads outbox due).outbox
      (announce payloads outbox due).deliveries := by
  induction due generalizing payloads outbox with
  | nil => exact .refl
  | cons timer due ih =>
    simp only [announce]
    split
    · exact .refl
    · next news rest htaken =>
      split
      · next outbox₁ hsend =>
        obtain ⟨hheard, -, rfl⟩ := Mailbox.trySend_eq_ok_iff.mp hsend
        refine ⟨(ih rest _).outbox_eq.trans ?_, fun hunheard =>
          absurd (hunheard.symm.trans hheard) Bool.false_ne_true⟩
        simp [Announcement.after, Delivery.sent?]
      · exact ⟨(ih rest outbox).outbox_eq, (ih rest outbox).unheard⟩
      · refine ⟨?_, fun _ => rfl⟩
        rw [List.filterMap_cons_none rfl, List.filterMap_nil, List.append_nil]

theorem posts_harvest (h : s.harvest reading outbox = .ok (s', outbox', deliveries, notes)) :
    Posts outbox outbox' deliveries := by
  obtain ⟨due, store, harvested, -, -, -, rfl, rfl, -⟩ := harvest_eq_ok_iff.mp h
  exact posts_announce _ _ _

/-- A harvest that breaks off has sent what it had come to. -/
theorem posts_interruption {broken : Interruption}
    (h : s.harvest reading outbox = .error broken) :
    Posts outbox broken.outbox broken.deliveries := by
  rcases harvest_eq_error_iff.mp h with ⟨fault, -, rfl⟩ | ⟨due, store, harvested, fault, -, -, rfl⟩
  · exact .refl
  · exact posts_announce _ _ _

end Service

namespace Host

variable {h h' h'' : Host} {effects more : List Effect}

/-- The host holds its end of the news until the work is over, and its client holds both ends that
belong to it, or none. -/
structure Attended (h : Host) : Prop where
  sends_iff : h.news.hasSender = true ↔ h.phase.isOver = false
  together : h.requests.hasSender = h.news.hasReceiver
  cleared : h.news.hasReceiver = false → h.news.items = []

/-- What happens to news while a host gets from one state to another. -/
structure Conveys (h h' : Host) (effects : List Effect) : Prop where
  attended : h'.Attended
  /-- As long as the client is there, what was sent was received in its turn, or waits. -/
  queue : h'.news.hasReceiver = true → h.news.hasReceiver = true ∧
    h.news.items ++ sent effects = received effects ++ h'.news.items
  inOrder : received effects <+: h.news.items ++ sent effects
  /-- Without a client, nothing is sent or received. -/
  unheard : h.news.hasReceiver = false → sent effects = [] ∧ received effects = []
  cancelled : h.cancelled = true → h'.cancelled = true
  /-- The work comes to an orderly end for one of three reasons. -/
  finished : h'.phase = .finished → h.phase = .finished ∨ h'.news.hasReceiver = false ∨
    h'.cancelled = true ∨ ∃ request ∈ handled effects, request.command = .shutdown
  deserted : effects.any Effect.isDeserted = true → h'.news.hasReceiver = false
  /-- Once the work is over it stays so, and nothing more is sent. -/
  atRest : h.phase.isOver = true → h'.phase.isOver = true ∧ sent effects = []
  /-- If the client is told of the end, that is what it is. -/
  told : .received .ended ∈ effects → h'.phase.isOver = true ∧ h'.news.items = []

namespace Conveys

theorem unheard_of_unheard (p : Conveys h h' effects) (hgone : h.news.hasReceiver = false) :
    h'.news.hasReceiver = false := by
  cases hheard : h'.news.hasReceiver with
  | false => rfl
  | true => exact (p.queue hheard).1.symm.trans hgone

/-- News that was there stays, and no other is sent or received. -/
theorem of_still (attended : h.Attended) (news : h'.news = h.news)
    (sender : h'.requests.hasSender = h.requests.hasSender) (phase : h'.phase = h.phase)
    (still : sent effects = [] ∧ received effects = [] ∧ .received .ended ∉ effects)
    (cancelled : h.cancelled = true → h'.cancelled = true)
    (attentive : effects.any Effect.isDeserted = false) : Conveys h h' effects where
  attended := {
    sends_iff := by rw [news, phase]; exact attended.sends_iff
    together := by rw [news, sender]; exact attended.together
    cleared := by rw [news]; exact attended.cleared }
  queue hheard := ⟨news ▸ hheard, by rw [still.1, still.2.1, news, List.append_nil]; rfl⟩
  inOrder := still.2.1 ▸ List.nil_prefix
  unheard _ := ⟨still.1, still.2.1⟩
  cancelled := cancelled
  finished hfinished := .inl (phase ▸ hfinished)
  deserted hdeserted := absurd (attentive.symm.trans hdeserted) Bool.false_ne_true
  atRest hover := ⟨phase ▸ hover, still.1⟩
  told htold := absurd htold still.2.2

theorem refl (attended : h.Attended) : Conveys h h [] :=
  of_still attended rfl rfl rfl ⟨rfl, rfl, List.not_mem_nil⟩ id rfl

/-- The work is over. -/
theorem of_close (attended : h.Attended) (news : h'.news = h.news.dropSender)
    (sender : h'.requests.hasSender = h.requests.hasSender) (hover : h'.phase.isOver = true)
    (still : sent effects = [] ∧ received effects = [] ∧ .received .ended ∉ effects)
    (cancelled : h.cancelled = true → h'.cancelled = true)
    (finished : h'.phase = .finished → h.news.hasReceiver = false ∨
      h'.cancelled = true ∨ ∃ request ∈ handled effects, request.command = .shutdown)
    (deserted : effects.any Effect.isDeserted = true → h.news.hasReceiver = false) :
    Conveys h h' effects := by
  have hitems : h'.news.items = h.news.items := by rw [news]; rfl
  have hreceiver : h'.news.hasReceiver = h.news.hasReceiver := by rw [news]; rfl
  exact {
    attended := {
      sends_iff := by rw [news, hover]; simp [Mailbox.dropSender]
      together := by rw [sender, hreceiver, attended.together]
      cleared := by rw [hreceiver, hitems]; exact attended.cleared }
    queue hheard := ⟨hreceiver ▸ hheard, by rw [still.1, still.2.1, hitems, List.append_nil]; rfl⟩
    inOrder := still.2.1 ▸ List.nil_prefix
    unheard _ := ⟨still.1, still.2.1⟩
    cancelled := cancelled
    finished hfinished := .inr (hreceiver ▸ finished hfinished)
    deserted hdeserted := hreceiver ▸ deserted hdeserted
    atRest _ := ⟨hover, still.1⟩
    told htold := absurd htold still.2.2 }

/-- What happens to news happens step by step. -/
theorem trans (p : Conveys h h' effects) (q : Conveys h' h'' more) :
    Conveys h h'' (effects ++ more) where
  attended := q.attended
  queue hheard := by
    obtain ⟨hheard, hmore⟩ := q.queue hheard
    obtain ⟨hheard, heffects⟩ := p.queue hheard
    refine ⟨hheard, ?_⟩
    rw [sent_append, received_append, ← List.append_assoc, heffects, List.append_assoc, hmore,
      List.append_assoc]
  inOrder := by
    rw [sent_append, received_append]
    cases hheard : h'.news.hasReceiver with
    | true =>
      rw [← List.append_assoc, (p.queue hheard).2, List.append_assoc, List.prefix_append_right_inj]
      exact q.inOrder
    | false =>
      obtain ⟨hsent, hreceived⟩ := q.unheard hheard
      rw [hsent, hreceived, List.append_nil, List.append_nil]
      exact p.inOrder
  unheard hgone := by
    obtain ⟨hsent, hreceived⟩ := p.unheard hgone
    obtain ⟨hsent', hreceived'⟩ := q.unheard (p.unheard_of_unheard hgone)
    rw [sent_append, received_append, hsent, hsent', hreceived, hreceived']
    exact ⟨rfl, rfl⟩
  cancelled hcancelled := q.cancelled (p.cancelled hcancelled)
  finished hfinished := by
    rw [handled_append]
    rcases q.finished hfinished with hfinished | hgone | hcancelled | ⟨request, hmem, hshutdown⟩
    · rcases p.finished hfinished with hfinished | hgone | hcancelled | ⟨request, hmem, hshutdown⟩
      · exact .inl hfinished
      · exact .inr (.inl (q.unheard_of_unheard hgone))
      · exact .inr (.inr (.inl (q.cancelled hcancelled)))
      · exact .inr (.inr (.inr ⟨request, List.mem_append_left _ hmem, hshutdown⟩))
    · exact .inr (.inl hgone)
    · exact .inr (.inr (.inl hcancelled))
    · exact .inr (.inr (.inr ⟨request, List.mem_append_right _ hmem, hshutdown⟩))
  deserted hdeserted := by
    rcases Bool.or_eq_true_iff.mp (List.any_append ▸ hdeserted) with hdeserted | hdeserted
    · exact q.unheard_of_unheard (p.deserted hdeserted)
    · exact q.deserted hdeserted
  atRest hover := by
    obtain ⟨hover, hsent⟩ := p.atRest hover
    obtain ⟨hover, hsent'⟩ := q.atRest hover
    exact ⟨hover, by rw [sent_append, hsent, hsent', List.append_nil]⟩
  told htold := by
    rcases List.mem_append.mp htold with htold | htold
    · obtain ⟨hover, hnone⟩ := p.told htold
      obtain ⟨hover, hsent⟩ := q.atRest hover
      refine ⟨hover, ?_⟩
      -- There was nothing to receive, and nothing has been sent since.
      cases hheard : h''.news.hasReceiver with
      | false => exact q.attended.cleared hheard
      | true =>
        have hqueue := (q.queue hheard).2
        rw [hnone, hsent] at hqueue
        exact (List.append_eq_nil_iff.mp hqueue.symm).2
    · exact q.told htold

end Conveys

/-! ### What every part of a move does to news -/

/-- The first request is handled, or dropped. -/
theorem conveys_handleRequest (attended : h.Attended) (items : List Request) (request : Request)
    (reading : Instant) :
    let taken : Host := { h with requests := { h.requests with items } }
    Conveys h (taken.handleRequest reading request).1 (taken.handleRequest reading request).2 := by
  intro taken
  simp only [handleRequest]
  split
  · next hcancelled =>
    refine .of_close attended rfl rfl rfl ?_ id (fun _ => .inr (.inl hcancelled)) ?_
    all_goals simp [finish, close, sent, received, Note.isDeserted]
  · split
    · next result hhandle =>
      obtain ⟨-, hstops, hnotes⟩ := Service.handled_of_handle hhandle
      split
      · next hstop =>
        -- The request was to shut down.
        have hshutdown : request.command = .shutdown := by simpa [hstops] using hstop
        refine .of_close attended rfl rfl rfl ?_ id
          (fun _ => .inr (.inr ⟨request, ?_, hshutdown⟩)) ?_
        · simp [finish, close, sent, received]
        · simp [handled]
        · rw [List.any_append, any_isDeserted_noted, hnotes]
          simp [finish, close, Note.isDeserted]
      · refine .of_still attended rfl rfl rfl ?_ id ?_
        · simp [sent, received]
        · rw [List.any_append, any_isDeserted_noted, hnotes]
          simp
    · refine .of_close attended rfl rfl rfl ?_ id (by simp [close]) ?_
      all_goals simp [close, sent, received]

theorem conveys_takeRequest (attended : h.Attended) (reading : Instant) :
    Conveys h (h.takeRequest reading).1 (h.takeRequest reading).2 := by
  cases hitems : h.requests.items with
  | cons request rest =>
    simp only [takeRequest, Mailbox.receive, hitems]
    exact conveys_handleRequest attended rest request reading
  | nil =>
    cases hsender : h.requests.hasSender with
    | true =>
      simp only [takeRequest, Mailbox.receive, hitems, hsender, if_true]
      exact .refl attended
    | false =>
      -- Nobody can make a request any more, and so nobody is there for the news.
      have hgone : h.news.hasReceiver = false := attended.together ▸ hsender
      simp only [takeRequest, Mailbox.receive, hitems, hsender, Bool.false_eq_true, if_false]
      refine .of_close attended rfl rfl rfl ?_ id (fun _ => .inl hgone) fun _ => hgone
      simp [finish, close, sent, received]

/-- A harvest sends what it has come to, whether it breaks off or not. -/
theorem conveys_harvested (attended : h.Attended) (hworks : h.phase.isOver = false)
    {news : Mailbox Expiration} {deliveries : List Delivery} {notes : List Note}
    (posts : Service.Posts h.news news deliveries) (quiet : notes.any Note.isDeserted = false)
    (service : Service) (harvestDue : Bool) :
    Conveys h { h with service, news, harvestDue }
      (notes.map .noted ++ deliveries.map .delivered) := by
  obtain ⟨rfl, hunheard⟩ := posts
  have hsent : sent (notes.map .noted ++ deliveries.map .delivered) =
      deliveries.filterMap Delivery.sent? := by
    simp [sent, List.filterMap_map]
  have hreceived : received (notes.map .noted ++ deliveries.map .delivered) = [] := by
    simp [received]
  exact {
    attended := {
      sends_iff := attended.sends_iff
      together := attended.together
      cleared hgone := by simp [attended.cleared hgone, hunheard hgone] }
    queue hheard := ⟨hheard, by rw [hsent, hreceived]; rfl⟩
    inOrder := hreceived ▸ List.nil_prefix
    unheard hgone := ⟨hsent.trans (hunheard hgone), hreceived⟩
    cancelled := id
    finished := .inl
    deserted hdeserted := by
      rw [List.any_append, any_isDeserted_noted, quiet] at hdeserted
      simp [Effect.isDeserted] at hdeserted
    atRest hover := absurd (hworks.symm.trans hover) Bool.false_ne_true
    told htold := by simp at htold }

theorem conveys_answerHeartbeat (attended : h.Attended) (hworks : h.phase.isOver = false)
    (reading : Instant) :
    Conveys h (h.answerHeartbeat reading).1 (h.answerHeartbeat reading).2 := by
  simp only [answerHeartbeat]
  split
  · next hharvest =>
    exact conveys_harvested attended hworks (Service.posts_harvest hharvest)
      (Service.any_isDeserted_of_harvest hharvest) _ _
  · next broken hharvest =>
    have hbroken := conveys_harvested attended hworks (Service.posts_interruption hharvest)
      (Service.any_isDeserted_of_interruption hharvest) h.service h.harvestDue
    refine hbroken.trans (.of_close hbroken.attended rfl rfl rfl ?_ id (by simp [close]) ?_)
    all_goals simp [close, sent, received]

theorem conveys_turn (attended : h.Attended) (reading : Instant) (branch : Branch) :
    Conveys h (h.turn reading branch).1 (h.turn reading branch).2 := by
  unfold turn
  split
  · next hready =>
    cases branch with
    | request => exact conveys_takeRequest attended reading
    | heartbeat => exact conveys_answerHeartbeat attended (isOver_of_ready hready) reading
    | cancellation =>
      have hcancelled : h.cancelled = true := by simp_all [ready]
      refine .of_close attended rfl rfl rfl ?_ id (fun _ => .inr (.inl hcancelled)) ?_
      all_goals simp [finish, close, sent, received, Note.isDeserted]
  · exact .refl attended

theorem conveys_start (attended : h.Attended) : Conveys h h.start.1 h.start.2 := by
  unfold start
  split
  · exact .refl attended
  · next hphase =>
    have hworks : h.phase.isOver = false := by
      rw [not_not.mp hphase]
      rfl
    split
    · refine .of_close attended rfl rfl rfl ?_ id (by simp [close]) ?_
      all_goals simp [close, sent, received]
    · exact {
        attended := {
          sends_iff := iff_of_true (attended.sends_iff.mpr hworks) rfl
          together := attended.together
          cleared := attended.cleared }
        queue hheard := ⟨hheard, List.append_nil _⟩
        inOrder := List.nil_prefix
        unheard _ := ⟨rfl, rfl⟩
        cancelled := id
        finished hruns := by cases hruns
        deserted hnone := absurd hnone Bool.false_ne_true
        atRest hover := absurd (hworks.symm.trans hover) Bool.false_ne_true
        told htold := by simp at htold }

/-- The client takes the news that has waited longest, or finds that there is none. -/
theorem conveys_receive (attended : h.Attended) :
    Conveys h (h.move .receive).1 (h.move .receive).2 := by
  simp only [move]
  split
  · next hheard =>
    cases hitems : h.news.items with
    | cons news rest =>
      simp only [Mailbox.receive, hitems]
      exact {
        attended := {
          sends_iff := attended.sends_iff
          together := attended.together
          cleared hgone := absurd (hgone.symm.trans hheard) Bool.false_ne_true }
        queue _ := ⟨hheard, by simp [sent, received, hitems]⟩
        inOrder := by simp [sent, received, hitems]
        unheard hgone := absurd (hgone.symm.trans hheard) Bool.false_ne_true
        cancelled := id
        finished := .inl
        deserted hnone := absurd hnone Bool.false_ne_true
        atRest hover := ⟨hover, rfl⟩
        told htold := by simp at htold }
    | nil =>
      simp only [Mailbox.receive, hitems]
      cases hsender : h.news.hasSender with
      | true => exact .of_still attended rfl rfl rfl ⟨rfl, rfl, by simp⟩ id rfl
      | false =>
        have hover : h.phase.isOver = true := by
          rw [← Bool.not_eq_false, ← attended.sends_iff, hsender]
          exact Bool.false_ne_true
        have hstill : Conveys h h [] := .refl attended
        exact { hstill with told := fun _ => ⟨hover, hitems⟩ }
  · exact .refl attended

theorem conveys_move (attended : h.Attended) (m : Move) :
    Conveys h (h.move m).1 (h.move m).2 := by
  cases m with
  | turn branch reading => exact conveys_turn attended reading branch
  | start => exact conveys_start attended
  | receive => exact conveys_receive attended
  | post request =>
    simp only [move]
    split
    · split
      · next requests hsend =>
        obtain ⟨-, -, rfl⟩ := Mailbox.trySend_eq_ok_iff.mp hsend
        exact .of_still attended rfl rfl rfl ⟨rfl, rfl, by simp⟩ id rfl
      · exact .of_still attended rfl rfl rfl ⟨rfl, rfl, by simp⟩ id rfl
    · exact .refl attended
  | leave =>
    exact {
      attended := ⟨attended.sends_iff, rfl, fun _ => rfl⟩
      queue hheard := absurd hheard Bool.false_ne_true
      inOrder := List.nil_prefix
      unheard _ := ⟨rfl, rfl⟩
      cancelled := id
      finished := .inl
      deserted hnone := absurd hnone Bool.false_ne_true
      atRest hover := ⟨hover, rfl⟩
      told htold := absurd htold List.not_mem_nil }
  | discard =>
    simp only [move]
    split
    · refine .of_close attended rfl rfl rfl ?_ id (by simp [close]) ?_
      all_goals simp [close, sent, received]
    · exact .refl attended
  | cancel =>
    exact .of_still attended rfl rfl rfl ⟨rfl, rfl, List.not_mem_nil⟩ (fun _ => rfl) rfl
  | beat =>
    simp only [move]
    split
    · exact .of_still attended rfl rfl rfl ⟨rfl, rfl, List.not_mem_nil⟩ id rfl
    · exact .refl attended

/-- Nothing but the client makes the client go away. -/
theorem hasReceiver_move {m : Move} (hstays : m ≠ .leave) :
    (h.move m).1.news.hasReceiver = h.news.hasReceiver := by
  cases m with
  | leave => exact absurd rfl hstays
  | cancel => rfl
  | post request =>
    simp only [move]
    split
    · split <;> rfl
    · rfl
  | receive =>
    simp only [move, Mailbox.receive]
    split
    · split <;> rfl
    · rfl
  | start =>
    simp only [move, start]
    split
    · rfl
    · split <;> rfl
  | discard =>
    simp only [move]
    split <;> rfl
  | beat =>
    simp only [move]
    split <;> rfl
  | turn branch reading =>
    simp only [move, turn]
    split
    · cases branch with
      | cancellation => rfl
      | heartbeat =>
        simp only [answerHeartbeat]
        split
        · next hharvest =>
          obtain ⟨rfl, -⟩ := Service.posts_harvest hharvest
          rfl
        · next hharvest =>
          rw [(Service.posts_interruption hharvest).outbox_eq]
          rfl
      | request =>
        simp only [takeRequest]
        split
        · simp only [handleRequest]
          split
          · rfl
          · split
            · split <;> rfl
            · rfl
        · rfl
        · rfl
    · rfl

theorem attended_of_create? {service : Service} {heartbeat requests news : Nat}
    (created : create? service heartbeat requests news = some h) :
    h.Attended ∧ h.news.items = [] ∧ h.news.hasReceiver = true ∧ h.phase = .unstarted := by
  obtain ⟨inbox, hinbox, created⟩ := Option.bind_eq_some_iff.mp created
  obtain ⟨outbox, houtbox, created⟩ := Option.bind_eq_some_iff.mp created
  cases created
  unfold Mailbox.create? at hinbox houtbox
  split at hinbox <;> cases hinbox
  split at houtbox <;> cases houtbox
  exact ⟨⟨by simp [Phase.isOver], rfl, fun _ => rfl⟩, rfl, rfl, rfl⟩

end Host

namespace Reception

variable {r : Reception} {effects : List Effect}

/-! ### What a client finds -/

/-- To the host it makes no difference that its client has made a stream of the handle. -/
theorem host_convert (r : Reception) :
    r.perform .convert =
      ({ r with client := if r.client = .handle then .stream else r.client }, []) := by
  simp only [perform]
  split <;> rfl

/-- The client is there as long as it has something in hand. -/
def Present (r : Reception) : Prop := r.host.news.hasReceiver = true ↔ r.client ≠ .gone

theorem conveys_perform (attended : r.host.Attended) (c : Contact) :
    r.host.Conveys (r.perform c).1.host (r.perform c).2 := by
  cases c with
  | inside m own => exact Host.conveys_move attended m
  | leave => exact Host.conveys_move attended .leave
  | convert =>
    rw [host_convert]
    exact .refl attended
  | post request =>
    simp only [perform]
    split
    · exact Host.conveys_move attended (.post request)
    · exact .refl attended
  | look how =>
    simp only [perform]
    split
    · exact Host.conveys_move attended .receive
    · exact .refl attended

theorem present_perform (present : r.Present) (c : Contact) : (r.perform c).1.Present := by
  cases c with
  | inside m own =>
    have hstays : m ≠ .leave := by
      rintro rfl
      cases own
    simpa only [Present, perform, moveHost, Host.hasReceiver_move hstays] using present
  | leave => simp [Present, perform, become, Client.holdsNews, Mailbox.dropReceiver]
  | convert =>
    rw [host_convert]
    simp only [Present] at present ⊢
    rw [present]
    split <;> simp_all
  | post request =>
    simp only [perform]
    split
    · have hstays := r.host.hasReceiver_move (m := .post request) (by simp)
      simpa only [Present, moveHost, hstays] using present
    · exact present
  | look how =>
    simp only [perform]
    split
    · simpa only [Present, moveHost, Host.hasReceiver_move (m := .receive) (by simp)] using present
    · exact present

theorem conveys_run (attended : r.host.Attended) (present : r.Present) (contacts : List Contact) :
    r.host.Conveys (r.run contacts).1.host (r.run contacts).2 ∧ (r.run contacts).1.Present := by
  induction contacts generalizing r with
  | nil => exact ⟨.refl attended, present⟩
  | cons c contacts ih =>
    have hperform := conveys_perform attended c
    obtain ⟨hrun, hpresent⟩ := ih hperform.attended (present_perform present c)
    exact ⟨hperform.trans hrun, hpresent⟩

/-- Who has in hand what it takes finds what there is in the mailbox. -/
theorem effects_look (present : r.Present) (how : Look) :
    (r.perform (.look how)).2 =
      if r.client = how.needs then [.received r.host.news.receive.1] else [] := by
  simp only [perform]
  split
  · next hneeds =>
    have hheard : r.host.news.hasReceiver = true := by
      refine present.mpr ?_
      rw [hneeds]
      cases how <;> decide
    simp only [moveHost, Host.move, if_pos hheard]
  · rfl

/-- What a client has got to know when `effects` have come about, and what it finds when it looks
for more. -/
structure Delivers (r : Reception) (effects : List Effect) : Prop where
  /-- What was received is what was sent first, one by one. -/
  inOrder : received effects <+: sent effects
  /-- The rest waits for the client, whatever that has in hand. -/
  waiting : r.client ≠ .gone → sent effects = received effects ++ r.host.news.items
  next : ∀ how news, .received (.item news) ∈ (r.perform (.look how)).2 ↔
    r.client = how.needs ∧ ∃ rest, sent effects = received effects ++ news :: rest
  /-- The client is told of the end when the work is over and all that was sent was received, and
  not before. -/
  ended : ∀ how, .received .ended ∈ (r.perform (.look how)).2 ↔
    r.client = how.needs ∧ r.host.phase.isOver = true ∧ received effects = sent effects
  /-- Once it was told of the end, that is what it is. -/
  told : .received .ended ∈ effects → r.host.phase.isOver = true ∧
    (r.client ≠ .gone → received effects = sent effects)
  /-- To make a stream of the handle changes nothing else. -/
  convert : r.perform .convert =
    ({ r with client := if r.client = .handle then .stream else r.client }, [])
  /-- As long as the client has something in hand, the work does not end by itself. -/
  finished : r.host.phase = .finished → r.client = .gone ∨ r.host.cancelled = true ∨
    ∃ request ∈ handled effects, request.command = .shutdown
  deserted : ∀ name, .noted (.deserted name) ∈ effects → r.client = .gone

/-- Whatever happens between a host and its client, and however the client looks for news: it
receives the news in the order in which harvests have sent it, and nothing gets lost when the handle
is made a stream, nor does the work end of that. The client is told of the end when there is nothing
left to receive and nothing more to come. -/
theorem run_delivers {service : Service} {heartbeat requests news : Nat} {h₀ : Host}
    (created : Host.create? service heartbeat requests news = some h₀) (contacts : List Contact) :
    Delivers (run { host := h₀ } contacts).1 (run { host := h₀ } contacts).2 := by
  obtain ⟨hattended, hitems, hheard, hphase⟩ := Host.attended_of_create? created
  obtain ⟨hrun, hpresent⟩ := conveys_run (r := { host := h₀ }) hattended
    (iff_of_true hheard (by simp)) contacts
  generalize (run { host := h₀ } contacts).1 = r at hrun hpresent
  generalize (run { host := h₀ } contacts).2 = effects at hrun
  have hgone : r.host.news.hasReceiver = false → r.client = .gone := fun hunheard =>
    not_not.mp fun hclient =>
      absurd (hunheard.symm.trans (hpresent.mpr hclient)) Bool.false_ne_true
  have hwaiting : r.client ≠ .gone → sent effects = received effects ++ r.host.news.items := by
    intro hclient
    have hqueue := (hrun.queue (hpresent.mpr hclient)).2
    rwa [hitems, List.nil_append] at hqueue
  have hneeds : ∀ how : Look, r.client = how.needs → r.client ≠ .gone := by
    rintro how hclient
    rw [hclient]
    cases how <;> decide
  exact {
    inOrder := by
      have hinOrder := hrun.inOrder
      rwa [hitems, List.nil_append] at hinOrder
    waiting := hwaiting
    next := by
      intro how news
      rw [effects_look hpresent]
      split
      · next hclient =>
        rw [hwaiting (hneeds how hclient), List.mem_singleton, Effect.received.injEq, eq_comm,
          Mailbox.receive_eq_item_iff]
        simp [hclient]
      · next hclient => simp [hclient]
    ended := by
      intro how
      rw [effects_look hpresent]
      split
      · next hclient =>
        have hover : r.host.news.hasSender = false ↔ r.host.phase.isOver = true := by
          rw [← Bool.not_eq_true, hrun.attended.sends_iff, Bool.not_eq_false]
        rw [hwaiting (hneeds how hclient), List.mem_singleton, Effect.received.injEq, eq_comm,
          Mailbox.receive_eq_ended_iff, hover, List.self_eq_append_right]
        constructor
        · rintro ⟨hnone, hover⟩
          exact ⟨hclient, hover, hnone⟩
        · rintro ⟨-, hover, hnone⟩
          exact ⟨hnone, hover⟩
      · next hclient => simp [hclient]
    told := by
      intro htold
      obtain ⟨hover, hnone⟩ := hrun.told htold
      exact ⟨hover, fun hclient => by rw [hwaiting hclient, hnone, List.append_nil]⟩
    convert := host_convert r
    finished := by
      intro hfinished
      rcases hrun.finished hfinished with hstart | hunheard | hstopped
      · rw [hphase] at hstart
        cases hstart
      · exact .inl (hgone hunheard)
      · exact .inr hstopped
    deserted := by
      intro name hmem
      exact hgone (hrun.deserted (List.any_eq_true.mpr ⟨_, hmem, rfl⟩)) }

/-- Two timers are due at one heartbeat. The client receives the news of the first at the handle,
and that of the second in the stream that it makes of it. Then nothing is there, until the host is
cancelled, and after that there is the end. -/
theorem run_delivers_converted :
    let request (name : String) : Request := ⟨.set name "x" (.ofMillis 5), none⟩
    let turn (branch : Branch) (reading : Instant) : Contact := .inside (.turn branch reading) rfl
    let contacts : List Contact :=
      [.post (request "a"), .post (request "b"), .inside .start rfl, turn .request 0,
        turn .request 0, turn .heartbeat 5, .look .awaited, .convert, .look .polled, .look .polled,
        .inside .cancel rfl, turn .cancellation 6]
    ∃ h₀, Host.create? { name := "m", store := Store.empty 1 } 10 2 2 = some h₀ ∧
      let r := run { host := h₀ } contacts
      Delivers r.1 r.2 ∧ r.1.host.phase = .finished ∧ sent r.2 = [⟨"a", "x"⟩, ⟨"b", "x"⟩] ∧
      received r.2 = [⟨"a", "x"⟩, ⟨"b", "x"⟩] ∧ .received .ended ∉ r.2 ∧
      (r.1.perform (.look .polled)).2 = [.received .ended] := by
  intro request turn contacts
  have hcreated : Host.create? { name := "m", store := Store.empty 1 } 10 2 2 = some
      { service := { name := "m", store := Store.empty 1 }, heartbeat := 10,
        requests := { capacity := 2 }, news := { capacity := 2 } } := rfl
  exact ⟨_, hcreated, run_delivers hcreated contacts, by decide +kernel, by decide +kernel,
    by decide +kernel, by decide +kernel, by decide +kernel⟩

end Reception

end Expiry
