import Ros2Sh.Lib.Tasks
import Ros2Sh.SystemHandle.Relay

/-!
# Topics bridged between domains

The handles of a process have their endpoints, and each is a participant of a domain, in a context of its own.  A sample
that is published reaches the subscriptions that the middleware matches with its publisher; how it matches them, by
domains, topics, types and qualities of service, is a parameter.  A handle does not receive what it published itself,
since it makes its subscriptions with the option `ignore_local_publications`.  The callback of a subscription passes the
data on to the publishers at the other ends of its routes.

`is_internal_message` leaves it to this option to keep a message from going round.  Where no two handles are in the same
domain that is enough: a message makes one hop, and each copy of it is published once (`relayed_once`).  Otherwise it
comes to rest exactly when the routes and the matching have no cycle (`rests_iff`).
-/

namespace Ros2Sh.SystemHandle

open Ros2Sh.Lib Ros2Sh.Lib.Yaml Ros2Sh.Converter

/-! ### Participants, samples and routes -/

/-- A handle with its endpoints, and the domain of its context. -/
structure Participant (P : Platform) where
  handle : State P
  domain : ℕ

/-- What the middleware knows of a publisher; `publisher` is the handle that it belongs to, if it is not one of an
application. -/
structure Channel where
  domain : ℕ
  publisher : Option ℕ
  topicName : String
  typeName : String
  qosProfile : Qos

/-- What the middleware knows of a subscription of the handle `subscriber`. -/
structure Reader where
  domain : ℕ
  subscriber : ℕ
  topicName : String
  typeName : String
  qosProfile : Qos
  ignoreLocalPublications : Bool

/-- The handles of the process, to which publishers the Integration Service passes on what it gets through a callback,
and which endpoints the middleware matches; a publisher is given by the number of its handle and its number there. -/
structure Network (P : Platform) where
  participants : List (Participant P)
  routes : P.SubscriptionCallback → List (ℕ × ℕ)
  matching : Channel → Reader → Bool

/-- A serialised message that is published. -/
structure Sample (P : Platform) extends Channel where
  message : P.SerializedMessage

/-- A message at a subscription of a handle. -/
structure Delivery (P : Platform) where
  participant : ℕ
  subscription : ℕ
  message : P.SerializedMessage

def Delivery.position {P : Platform} (delivery : Delivery P) : ℕ × ℕ := (delivery.participant, delivery.subscription)

section Network

variable {P : Platform}

/-- A subscription of the handle, which is the `k`-th; its constructor sets `ignore_local_publications`. -/
def Participant.reader (participant : Participant P) (k : ℕ) (subscription : MetaSubscriber P) : Reader :=
  ⟨participant.domain, k, subscription.topicName, subscription.messageType.name, subscription.qosProfile, true⟩

def Participant.channel (participant : Participant P) (k : ℕ) (publisher : MetaPublisher P) : Channel :=
  ⟨participant.domain, some k, publisher.topicName, publisher.messageType.name, publisher.qosProfile⟩

namespace Network

variable (net : Network P)

/-- The endpoints, by the number of the handle and their number there. -/
def subscription? (k i : ℕ) : Option (Participant P × MetaSubscriber P) := do
  let participant ← net.participants[k]?
  let subscription ← participant.handle.subscriptions[i]?
  return (participant, subscription)

def publisher? (k i : ℕ) : Option (Participant P × MetaPublisher P) := do
  let participant ← net.participants[k]?
  let publisher ← participant.handle.publishers[i]?
  return (participant, publisher)

/-- The deliveries of a sample. -/
def receivers (sample : Sample P) : List (Delivery P) :=
  net.participants.zipIdx.flatMap fun (participant, k) =>
    participant.handle.subscriptions.zipIdx.filterMap fun (subscription, i) =>
      if net.matching sample.toChannel (participant.reader k subscription) then some ⟨k, i, sample.message⟩ else none

/-- What is published of the data through the publisher at the end of a route. -/
def publish (data : P.DynamicData) (target : ℕ × ℕ) : Option (Sample P) := do
  let (participant, publisher) ← net.publisher? target.1 target.2
  match publisher.publish participant.handle.factory data with
  | .returned message => some ⟨participant.channel target.1 publisher, message⟩
  | .threw _ | .nullPointer => none

/-- The routes are served one after the other, and an exception ends the callback. -/
def publishAll (data : P.DynamicData) : List (ℕ × ℕ) → List (Sample P)
  | [] => []
  | target :: targets =>
    match net.publish data target with
    | none => []
    | some sample => sample :: publishAll data targets

/-- What `subscription_callback` leads to. -/
def forward (delivery : Delivery P) : List (Sample P) :=
  match net.subscription? delivery.participant delivery.subscription with
  | none => []
  | some (participant, subscription) =>
    match subscription.subscriptionCallback participant.handle.factory delivery.message with
    | .returned data => net.publishAll data (net.routes subscription.callback)
    | .threw _ | .nullPointer => []

/-- The deliveries of what is published in a callback. -/
def brings (delivery : Delivery P) : List (Delivery P) := (net.forward delivery).flatMap net.receivers

end Network

/-! ### Traffic -/

/-- What applications have published and handles have relayed, and the deliveries of it: those pending, those that were
dealt with in a callback, and those lost. -/
structure Traffic (P : Platform) where
  applications : List (Sample P)
  relayed : List (Sample P)
  pending : List (Delivery P)
  handled : List (Delivery P)
  lost : List (Delivery P)

def Traffic.initial : Traffic P := ⟨[], [], [], [], []⟩

namespace Traffic

inductive Action (P : Platform)
  | application (domain : ℕ) (topicName typeName : String) (qosProfile : Qos) (message : P.SerializedMessage)
  | callback (j : ℕ) -- of the subscription of a pending delivery
  | lose (j : ℕ) -- a pending delivery, as the quality of service allows

def step (net : Network P) (s : Traffic P) : Action P → Option (Traffic P)
  | .application domain topicName typeName qosProfile message => -- publishes
    let sample : Sample P := ⟨⟨domain, none, topicName, typeName, qosProfile⟩, message⟩
    some { s with applications := s.applications ++ [sample], pending := s.pending ++ net.receivers sample }
  | .callback j => do
    let delivery ← s.pending[j]?
    some { s with
      relayed := s.relayed ++ net.forward delivery
      pending := s.pending.eraseIdx j ++ net.brings delivery
      handled := s.handled ++ [delivery] }
  | .lose j => do
    let delivery ← s.pending[j]?
    some { s with pending := s.pending.eraseIdx j, lost := s.lost ++ [delivery] }

end Traffic

/-! ### Where samples go -/

section Deliveries

variable {net : Network P} {sample : Sample P} {delivery : Delivery P} {k i : ℕ} {participant : Participant P}
  {subscription : MetaSubscriber P} {publisher : MetaPublisher P} {data : P.DynamicData} {target : ℕ × ℕ}
  {targets : List (ℕ × ℕ)}

namespace Network

/-- An endpoint is found at its handle, whichever kind it is of. -/
theorem endpoint_eq_some {E : Type} {endpoints : Participant P → List E} {endpoint : E} :
    (do
      let participant ← net.participants[k]?
      let endpoint ← (endpoints participant)[i]?
      return (participant, endpoint)) = some (participant, endpoint) ↔
    net.participants[k]? = some participant ∧ (endpoints participant)[i]? = some endpoint := by
  constructor
  · intro h
    obtain ⟨p, hp, h⟩ := Option.bind_eq_some_iff.mp h
    obtain ⟨m, hm, h⟩ := Option.bind_eq_some_iff.mp h
    cases h
    exact ⟨hp, hm⟩
  · rintro ⟨hp, hm⟩
    simp [hp, hm]

theorem subscription?_eq_some : net.subscription? k i = some (participant, subscription) ↔
    net.participants[k]? = some participant ∧ participant.handle.subscriptions[i]? = some subscription :=
  endpoint_eq_some

theorem publisher?_eq_some : net.publisher? k i = some (participant, publisher) ↔
    net.participants[k]? = some participant ∧ participant.handle.publishers[i]? = some publisher :=
  endpoint_eq_some

theorem mem_receivers : delivery ∈ net.receivers sample ↔ ∃ participant subscription,
    net.subscription? delivery.participant delivery.subscription = some (participant, subscription) ∧
      net.matching sample.toChannel (participant.reader delivery.participant subscription) = true ∧
        delivery.message = sample.message := by
  unfold receivers
  constructor
  · intro h
    obtain ⟨⟨participant, k⟩, hp, h⟩ := List.mem_flatMap.mp h
    obtain ⟨⟨subscription, i⟩, hm, h⟩ := List.mem_filterMap.mp h
    obtain ⟨hmatch, hdelivery⟩ := Option.ite_none_right_eq_some.mp h
    obtain rfl := Option.some.inj hdelivery
    exact ⟨participant, subscription, subscription?_eq_some.mpr
      ⟨List.mem_zipIdx_iff_getElem?.mp hp, List.mem_zipIdx_iff_getElem?.mp hm⟩, hmatch, rfl⟩
  · rintro ⟨participant, subscription, hs, hmatch, hmessage⟩
    obtain ⟨hp, hm⟩ := subscription?_eq_some.mp hs
    refine List.mem_flatMap.mpr ⟨(participant, _), List.mem_zipIdx_iff_getElem?.mpr hp, ?_⟩
    refine List.mem_filterMap.mpr ⟨(subscription, _), List.mem_zipIdx_iff_getElem?.mpr hm, ?_⟩
    simp only [hmatch, if_true, ← hmessage]

theorem publish_eq_some (hpublisher : net.publisher? target.1 target.2 = some (participant, publisher)) :
    net.publish data target = some sample ↔
      publisher.publish participant.handle.factory data = .returned sample.message ∧
        sample.toChannel = participant.channel target.1 publisher := by
  unfold publish
  simp only [hpublisher, Option.bind_eq_bind, Option.bind_some]
  cases hcall : publisher.publish participant.handle.factory data with
  | returned message =>
    obtain ⟨channel, message'⟩ := sample
    simp [Sample.mk.injEq, and_comm, eq_comm]
  | threw what => simp
  | nullPointer => simp

theorem exists_publish_of_mem_publishAll (h : sample ∈ net.publishAll data targets) :
    ∃ target ∈ targets, net.publish data target = some sample := by
  induction targets with
  | nil => simp [publishAll] at h
  | cons target targets ih =>
    unfold publishAll at h
    split at h
    · simp at h
    · rename_i first hfirst
      rcases List.mem_cons.mp h with rfl | h
      · exact ⟨target, List.mem_cons_self .., hfirst⟩
      · obtain ⟨target', hmem, hpublish⟩ := ih h
        exact ⟨target', List.mem_cons_of_mem _ hmem, hpublish⟩

/-- The sample is published through the publisher at the end of the route. -/
def PublishedThrough (net : Network P) (target : ℕ × ℕ) (sample : Sample P) : Prop :=
  ∃ participant publisher, net.publisher? target.1 target.2 = some (participant, publisher) ∧
    sample.toChannel = participant.channel target.1 publisher

theorem forall₂_publishAll {Q : ℕ × ℕ → Sample P → Prop}
    (h : ∀ target ∈ targets, ∃ sample, net.publish data target = some sample ∧ Q target sample) :
    List.Forall₂ Q targets (net.publishAll data targets) := by
  induction targets with
  | nil => exact .nil
  | cons target targets ih =>
    obtain ⟨sample, hpublish, hsample⟩ := h target (List.mem_cons_self ..)
    simp only [publishAll, hpublish]
    exact .cons hsample (ih fun other hother => h other (List.mem_cons_of_mem _ hother))

/-- What a handle relays is published by a participant, in its domain. -/
theorem exists_participant_of_mem_forward (h : sample ∈ net.forward delivery) :
    ∃ k participant, net.participants[k]? = some participant ∧ sample.domain = participant.domain ∧
      sample.publisher = some k := by
  unfold forward at h
  split at h
  · simp at h
  · split at h
    · obtain ⟨target, -, hpublish⟩ := exists_publish_of_mem_publishAll h
      obtain ⟨⟨participant, publisher⟩, hpublisher, -⟩ := Option.bind_eq_some_iff.mp hpublish
      have hchannel := ((publish_eq_some hpublisher).mp hpublish).2
      exact ⟨target.1, participant, (publisher?_eq_some.mp hpublisher).1, congrArg Channel.domain hchannel,
        congrArg Channel.publisher hchannel⟩
    · simp at h
    · simp at h

/-- A message at the one position can lead to a message at the other; a position is the number of a handle with the
number of a subscription there. -/
def Passes (net : Network P) (x y : ℕ × ℕ) : Prop :=
  ∃ participant subscription, net.subscription? x.1 x.2 = some (participant, subscription) ∧
    ∃ target ∈ net.routes subscription.callback, ∃ participant' publisher,
      net.publisher? target.1 target.2 = some (participant', publisher) ∧
        ∃ participant'' subscription'', net.subscription? y.1 y.2 = some (participant'', subscription'') ∧
          net.matching (participant'.channel target.1 publisher) (participant''.reader y.1 subscription'') = true

theorem finite_positions (net : Network P) : {x : ℕ × ℕ | (net.subscription? x.1 x.2).isSome}.Finite := by
  have hfinite : {x | x ∈ net.participants.zipIdx.flatMap fun p =>
      (List.range p.1.handle.subscriptions.length).map (Prod.mk p.2)}.Finite := List.finite_toSet _
  refine hfinite.subset fun x hx => ?_
  obtain ⟨⟨participant, subscription⟩, hs⟩ := Option.isSome_iff_exists.mp hx
  obtain ⟨hp, hm⟩ := subscription?_eq_some.mp hs
  refine List.mem_flatMap.mpr ⟨(participant, x.1), List.mem_zipIdx_iff_getElem?.mpr hp, ?_⟩
  exact List.mem_map.mpr ⟨x.2, List.mem_range.mpr (List.getElem?_eq_some_iff.mp hm).1, rfl⟩

theorem finite_passes (net : Network P) (x : ℕ × ℕ) : {y | Relation.ReflTransGen net.Passes x y}.Finite := by
  refine ((Set.finite_singleton x).union net.finite_positions).subset fun y hy => ?_
  rcases Relation.ReflTransGen.cases_tail hy with rfl | ⟨z, -, hz⟩
  · exact .inl rfl
  · obtain ⟨_, _, _, _, _, _, _, _, participant, subscription, hs, -⟩ := hz
    exact .inr (Option.isSome_iff_exists.mpr ⟨_, hs⟩)

/-- The middleware matches only endpoints of one domain, and no subscription that ignores local publications with a
publisher of its own handle. -/
structure Isolating (net : Network P) : Prop where
  domain : ∀ channel reader, net.matching channel reader = true → channel.domain = reader.domain
  ignored : ∀ channel reader, reader.ignoreLocalPublications = true → net.matching channel reader = true →
    channel.publisher ≠ some reader.subscriber

/-- The middleware matches only endpoints of one type. -/
def Typed (net : Network P) : Prop :=
  ∀ channel reader, net.matching channel reader = true → channel.typeName = reader.typeName

/-- The participants are in different domains. -/
def Separate (net : Network P) : Prop := (net.participants.map Participant.domain).Nodup

theorem Separate.eq_of_domain (h : net.Separate) {k' : ℕ} {participant' : Participant P}
    (hp : net.participants[k]? = some participant) (hp' : net.participants[k']? = some participant')
    (hdomain : participant.domain = participant'.domain) : k = k' := by
  have hk : k < (net.participants.map Participant.domain).length := by
    rw [List.length_map]
    exact (List.getElem?_eq_some_iff.mp hp).1
  refine (List.getElem?_inj hk h).mp ?_
  rw [List.getElem?_map, List.getElem?_map, hp, hp']
  exact congrArg some hdomain

/-- In a domain of its own, a handle is the only one to receive what it publishes, and ignores it. -/
theorem Separate.receivers_eq_nil (h : net.Separate) (hmatching : net.Isolating)
    (hsample : sample ∈ net.forward delivery) : net.receivers sample = [] := by
  rw [List.eq_nil_iff_forall_not_mem]
  intro received hreceived
  obtain ⟨participant, subscription, hs, hmatch, -⟩ := mem_receivers.mp hreceived
  obtain ⟨k, participant', hp', hdomain', hpublisher⟩ := exists_participant_of_mem_forward hsample
  have hk := h.eq_of_domain hp' (subscription?_eq_some.mp hs).1 (hdomain'.symm.trans (hmatching.domain _ _ hmatch))
  exact hmatching.ignored _ _ rfl hmatch (hpublisher.trans (congrArg some hk))

theorem Separate.brings_eq_nil (h : net.Separate) (hmatching : net.Isolating) (delivery : Delivery P) :
    net.brings delivery = [] :=
  List.flatMap_eq_nil_iff.mpr fun _ hsample => h.receivers_eq_nil hmatching hsample

end Network

end Deliveries

/-! ### What a run accounts for -/

namespace Traffic

variable {net : Network P} {s t u : Traffic P} {a : Action P} {as : List (Action P)} {delivery : Delivery P} {j : ℕ}
  {js : List ℕ}

theorem step_callback : step net s (.callback j) = some t ↔ ∃ delivery, s.pending[j]? = some delivery ∧
    t = { s with
      relayed := s.relayed ++ net.forward delivery
      pending := s.pending.eraseIdx j ++ net.brings delivery
      handled := s.handled ++ [delivery] } := by
  constructor
  · intro h
    obtain ⟨delivery, hdelivery, h⟩ := Option.bind_eq_some_iff.mp h
    exact ⟨delivery, hdelivery, (Option.some.inj h).symm⟩
  · rintro ⟨delivery, hdelivery, rfl⟩
    simp [step, hdelivery]

theorem step_lose : step net s (.lose j) = some t ↔ ∃ delivery, s.pending[j]? = some delivery ∧
    t = { s with pending := s.pending.eraseIdx j, lost := s.lost ++ [delivery] } := by
  constructor
  · intro h
    obtain ⟨delivery, hdelivery, h⟩ := Option.bind_eq_some_iff.mp h
    exact ⟨delivery, hdelivery, (Option.some.inj h).symm⟩
  · rintro ⟨delivery, hdelivery, rfl⟩
    simp [step, hdelivery]

theorem pending_perm (h : s.pending[j]? = some delivery) : s.pending.Perm (delivery :: s.pending.eraseIdx j) := by
  obtain ⟨hj, rfl⟩ := List.getElem?_eq_some_iff.mp h
  exact (List.getElem_cons_eraseIdx_perm hj).symm

/-- What was relayed is what the callbacks led to, and everything published is, or was, at those that receive it. -/
structure Accounted (net : Network P) (s : Traffic P) : Prop where
  relayed : s.relayed = s.handled.flatMap net.forward
  deliveries : (s.handled ++ s.pending ++ s.lost).Perm ((s.applications ++ s.relayed).flatMap net.receivers)

theorem accounted_initial (net : Network P) : Accounted net initial := ⟨rfl, .nil⟩

theorem accounted_step (hs : Accounted net s) (h : step net s a = some t) : Accounted net t := by
  classical
  have hcount := fun x => hs.deliveries.count_eq x
  cases a with
  | application domain topicName typeName qosProfile message =>
    obtain rfl := Option.some.inj h
    refine ⟨hs.relayed, List.perm_iff_count.mpr fun x => ?_⟩
    have hx := hcount x
    simp only [List.flatMap_append, List.flatMap_singleton, List.count_append] at hx ⊢
    omega
  | callback j =>
    obtain ⟨delivery, hdelivery, rfl⟩ := step_callback.mp h
    refine ⟨?_, List.perm_iff_count.mpr fun x => ?_⟩
    · simp [hs.relayed]
    · have hx := hcount x
      have hpending := (pending_perm hdelivery).count_eq x
      simp only [Network.brings, List.flatMap_append, List.count_append, List.count_cons, List.count_nil]
        at hx hpending ⊢
      omega
  | lose j =>
    obtain ⟨delivery, hdelivery, rfl⟩ := step_lose.mp h
    refine ⟨hs.relayed, List.perm_iff_count.mpr fun x => ?_⟩
    have hx := hcount x
    have hpending := (pending_perm hdelivery).count_eq x
    simp only [List.flatMap_append, List.count_append, List.count_cons, List.count_nil] at hx hpending ⊢
    omega

theorem accounted_of_run (hr : run (step net) initial as = some t) : Accounted net t :=
  run_inv_of_step (fun _ _ _ hs ht => accounted_step hs ht) (accounted_initial net) hr

/-- In different domains, every relayed message is that of an application, and comes back to no handle. -/
theorem Accounted.perm_of_separate (hs : Accounted net s) (hnet : net.Separate) (hmatching : net.Isolating) :
    (s.handled ++ s.pending ++ s.lost).Perm (s.applications.flatMap net.receivers) := by
  have hrelayed : s.relayed.flatMap net.receivers = [] := by
    refine List.flatMap_eq_nil_iff.mpr fun sample hsample => ?_
    rw [hs.relayed] at hsample
    obtain ⟨delivery, -, hforward⟩ := List.mem_flatMap.mp hsample
    exact hnet.receivers_eq_nil hmatching hforward
  have hdeliveries := hs.deliveries
  rwa [List.flatMap_append, hrelayed, List.append_nil] at hdeliveries

/-! ### Callbacks only -/

/-- Without further messages of applications there is an end of the callbacks. -/
def Rests (net : Network P) (s : Traffic P) : Prop :=
  ∃ n, ∀ (js : List ℕ) t, run (step net) s (js.map .callback) = some t → js.length ≤ n

theorem run_doTask (hr : run (step net) s (js.map .callback) = some t) :
    run (doTask net.brings) s.pending js = some t.pending := by
  induction js generalizing s with
  | nil =>
    obtain rfl : s = t := by simpa using hr
    rfl
  | cons j js ih =>
    obtain ⟨next, hnext, hrest⟩ := run_cons.mp hr
    obtain ⟨delivery, hdelivery, rfl⟩ := step_callback.mp hnext
    exact run_cons.mpr ⟨_, doTask_eq_some.mpr ⟨delivery, hdelivery, rfl⟩, ih hrest⟩

theorem exists_run_callbacks {rest : List (Delivery P)} (hr : run (doTask net.brings) s.pending js = some rest) :
    ∃ t, run (step net) s (js.map .callback) = some t := by
  induction js generalizing s with
  | nil => exact ⟨s, rfl⟩
  | cons j js ih =>
    obtain ⟨next, hnext, hrest⟩ := run_cons.mp hr
    obtain ⟨delivery, hdelivery, rfl⟩ := doTask_eq_some.mp hnext
    obtain ⟨t, ht⟩ := ih (s := { s with
      relayed := s.relayed ++ net.forward delivery
      pending := s.pending.eraseIdx j ++ net.brings delivery
      handled := s.handled ++ [delivery] }) hrest
    exact ⟨t, run_cons.mpr ⟨_, step_callback.mpr ⟨delivery, hdelivery, rfl⟩, ht⟩⟩

theorem rests_iff_bounded : Rests net s ↔ Bounded net.brings s.pending := by
  constructor
  · rintro ⟨n, hn⟩
    refine ⟨n, fun js rest hr => ?_⟩
    obtain ⟨t, ht⟩ := exists_run_callbacks hr
    exact hn js t ht
  · rintro ⟨n, hn⟩
    exact ⟨n, fun js t hr => hn js t.pending (run_doTask hr)⟩

theorem length_le_of_separate (hnet : net.Separate) (hmatching : net.Isolating)
    (hr : run (step net) s (js.map .callback) = some t) : js.length ≤ s.pending.length :=
  (amounts_length fun delivery _ => hnet.brings_eq_nil hmatching delivery).length_le (run_doTask hr)

end Traffic

end Network

/-! ### Messages of generated types -/

section Messages

variable {τ R X W : Type} {P : Platform} {newData : Structure τ → Value X} {newSerialized : W}

/-- The interfaces are distinct, their messages have generated libraries, and what these rest on behaves as it is
documented. -/
structure GeneratedLibraries (c : IsCore τ R X) (ser : Serialization τ R W) (ros2 : τ → R → Prop)
    (xtypes : τ → X → Prop) (S : Set (Interface (messagePlatform P newData newSerialized))) : Prop where
  distinct : Distinct S
  generated : ∀ i ∈ S, ∀ l, i.library = .message l → ∃ s, l = messageLibrary P newData newSerialized c ser s
  core : c.Lawful ros2 xtypes
  serialization : ser.Lawful
  newData : ∀ s : Structure τ, s.toType.Shape inXtypes (newData s)

/-- The handles made their endpoints for types that the Factory created, and the routes lead from subscriptions to
publishers of the same types. -/
structure Network.Relays (y : Conversions) (S : Set (Interface (messagePlatform P newData newSerialized)))
    (net : Network (messagePlatform P newData newSerialized)) : Prop where
  handles : ∀ participant ∈ net.participants, ∃ as,
    Along (step y) (CreatedTypes y S) initial as ∧ run (step y) initial as = some participant.handle
  relayable : ∀ k i participant subscription, net.subscription? k i = some (participant, subscription) →
    Relayable subscription.messageType.members
  routes : ∀ k i participant subscription, net.subscription? k i = some (participant, subscription) →
    ∀ target ∈ net.routes subscription.callback, ∃ participant' publisher,
      net.publisher? target.1 target.2 = some (participant', publisher) ∧
        publisher.messageType.name = subscription.messageType.name

variable {c : IsCore τ R X} {ser : Serialization τ R W} {ros2 : τ → R → Prop} {xtypes : τ → X → Prop}
  {S : Set (Interface (messagePlatform P newData newSerialized))} {y : Conversions}
  {f g : Factory (messagePlatform P newData newSerialized)}
  {type type' : DynamicType (messagePlatform P newData newSerialized)}
  {l l' : MessageLibrary (messagePlatform P newData newSerialized)}
  {net : Network (messagePlatform P newData newSerialized)} {k i : ℕ}
  {participant participant' : Participant (messagePlatform P newData newSerialized)}
  {subscription subscription' : MetaSubscriber (messagePlatform P newData newSerialized)}
  {publisher : MetaPublisher (messagePlatform P newData newSerialized)} {m : Value R} {d : Value X} {w : W}

theorem GeneratedLibraries.library_eq (hg : GeneratedLibraries c ser ros2 xtypes S) (hf : Grows S .empty f)
    (hl : CreatesMessage S f type l) : l = messageLibrary P newData newSerialized c ser type.members := by
  obtain ⟨i, hi, hlibrary, -⟩ := hl.2
  obtain ⟨s, rfl⟩ := hg.generated i hi l hlibrary
  obtain rfl : s = type.members := Except.ok.inj (hl.holdsLibrary hg.distinct hf).members
  rfl

theorem CreatesMessage.members_unique (hS : Distinct S) (hf : Grows S .empty f) (hf' : Grows S .empty g)
    (hl : CreatesMessage S f type l) (hl' : CreatesMessage S g type' l') (hname : type'.name = type.name) :
    type'.members = type.members := by
  have hmembers := (hl.holdsLibrary hS hf).members
  have hmembers' := (hl'.holdsLibrary hS hf').members
  rw [hl.library_unique hS hl' hname] at hmembers'
  exact Except.ok.inj (hmembers'.symm.trans hmembers)

namespace Network

theorem Relays.ownFunctions (hnet : net.Relays y S) (hS : Distinct S) (hp : net.participants[k]? = some participant) :
    OwnFunctions S participant.handle := by
  obtain ⟨as, has, hr⟩ := hnet.handles participant (List.mem_of_getElem? hp)
  exact ownFunctions_of_run hS has hr

theorem Relays.exists_library (hnet : net.Relays y S) (hS : Distinct S)
    (hs : net.subscription? k i = some (participant, subscription)) :
    Grows S .empty participant.handle.factory ∧
      ∃ l, CreatesMessage S participant.handle.factory subscription.messageType l := by
  obtain ⟨hp, hm⟩ := subscription?_eq_some.mp hs
  have hown := hnet.ownFunctions hS hp
  exact ⟨hown.loaded, (hown.subscriptions _ (List.mem_of_getElem? hm)).1⟩

theorem Relays.members_eq (hnet : net.Relays y S) (hS : Distinct S) {k' i' : ℕ}
    (hs : net.subscription? k i = some (participant, subscription))
    (hs' : net.subscription? k' i' = some (participant', subscription'))
    (hname : subscription'.messageType.name = subscription.messageType.name) :
    subscription'.messageType.members = subscription.messageType.members := by
  obtain ⟨hf, l, hl⟩ := hnet.exists_library hS hs
  obtain ⟨hf', l', hl'⟩ := hnet.exists_library hS hs'
  exact hl.members_unique hS hf hf' hl' hname

theorem Relays.subscriptionCallback (hnet : net.Relays y S) (hg : GeneratedLibraries c ser ros2 xtypes S)
    (hs : net.subscription? k i = some (participant, subscription))
    (hw : ser.Encodes subscription.messageType.members m w)
    (hmd : subscription.messageType.members.toType.Counterparts c m d) :
    ∃ d', subscription.subscriptionCallback participant.handle.factory w = .returned d' ∧
      subscription.messageType.members.toType.Counterparts c m d' := by
  obtain ⟨hp, hm⟩ := subscription?_eq_some.mp hs
  have hown := hnet.ownFunctions hg.distinct hp
  obtain ⟨l, hl, hcall⟩ := hown.subscriptionCallback hg.distinct (List.mem_of_getElem? hm)
  obtain rfl := hg.library_eq hown.loaded hl
  obtain ⟨d', hd', hcounterparts, -⟩ :=
    deserialise_ok (hnet.relayable _ _ _ _ hs) hg.core hw hmd (hg.newData subscription.messageType.members)
  exact ⟨d', (hcall w).trans (congrArg resultOf hd'), hcounterparts⟩

/-- A copy of the message whose data are `d`, at the publisher at the end of a route. -/
def IsCopy (net : Network (messagePlatform P newData newSerialized)) (c : IsCore τ R X) (ser : Serialization τ R W)
    (s : Structure τ) (d : Value X) (target : ℕ × ℕ) (sample : Sample (messagePlatform P newData newSerialized)) :
    Prop :=
  net.PublishedThrough target sample ∧ ∃ m, s.toType.Counterparts c m d ∧ ser.Encodes s m sample.message

theorem Relays.publish (hnet : net.Relays y S) (hg : GeneratedLibraries c ser ros2 xtypes S)
    (hs : net.subscription? k i = some (participant, subscription)) {target : ℕ × ℕ}
    (htarget : target ∈ net.routes subscription.callback)
    (hmd : subscription.messageType.members.toType.Counterparts c m d) :
    ∃ sample, net.publish d target = some sample ∧
      net.IsCopy c ser subscription.messageType.members d target sample := by
  obtain ⟨participant', publisher, hpublisher, hname⟩ := hnet.routes _ _ _ _ hs target htarget
  obtain ⟨hp, hm⟩ := publisher?_eq_some.mp hpublisher
  have hown := hnet.ownFunctions hg.distinct hp
  obtain ⟨l, hl, hcall⟩ := hown.publish hg.distinct (List.mem_of_getElem? hm)
  obtain ⟨hf, l', hl'⟩ := hnet.exists_library hg.distinct hs
  have hmembers := hl'.members_unique hg.distinct hf hown.loaded hl hname
  obtain rfl := hg.library_eq hown.loaded hl
  rw [hmembers] at hcall
  obtain ⟨m', w, hw, hcounterparts, hencodes⟩ :=
    serialise_ok (hnet.relayable _ _ _ _ hs) hg.core hg.serialization hmd newSerialized
  refine ⟨⟨participant'.channel target.1 publisher, w⟩, (publish_eq_some hpublisher).mpr ⟨?_, rfl⟩,
    ⟨participant', publisher, hpublisher, rfl⟩, m', hcounterparts, hencodes⟩
  exact (hcall d).trans (congrArg resultOf hw)

/-- One copy of the message is published at the end of each route. -/
theorem Relays.forward (hnet : net.Relays y S) (hg : GeneratedLibraries c ser ros2 xtypes S)
    (hs : net.subscription? k i = some (participant, subscription))
    (hw : ser.Encodes subscription.messageType.members m w)
    (hmd : subscription.messageType.members.toType.Counterparts c m d) :
    ∃ d', subscription.messageType.members.toType.Counterparts c m d' ∧
      List.Forall₂ (net.IsCopy c ser subscription.messageType.members d') (net.routes subscription.callback)
        (net.forward ⟨k, i, w⟩) := by
  obtain ⟨d', hcallback, hmd'⟩ := hnet.subscriptionCallback hg hs hw hmd
  have hforward : net.forward ⟨k, i, w⟩ = net.publishAll d' (net.routes subscription.callback) := by
    unfold Network.forward
    simp only [hs, hcallback]
  rw [hforward]
  exact ⟨d', hmd', forall₂_publishAll fun target htarget => hnet.publish hg hs htarget hmd'⟩

/-- The delivery of a message that the subscription can deserialise, and that can be passed on. -/
def Sound (net : Network (messagePlatform P newData newSerialized)) (c : IsCore τ R X) (ser : Serialization τ R W)
    (delivery : Delivery (messagePlatform P newData newSerialized)) : Prop :=
  ∃ participant subscription m d,
    net.subscription? delivery.participant delivery.subscription = some (participant, subscription) ∧
      ser.Encodes subscription.messageType.members m delivery.message ∧
        subscription.messageType.members.toType.Counterparts c m d

/-- Messages follow the routes. -/
theorem Relays.follows (hnet : net.Relays y S) (htyped : net.Typed) (hg : GeneratedLibraries c ser ros2 xtypes S) :
    Follows net.brings (net.Sound c ser) Delivery.position net.Passes := by
  constructor
  · rintro ⟨k, i, w⟩ ⟨participant, subscription, m, d, hs, hw, hmd⟩ delivery hdelivery
    obtain ⟨d', -, hcopies⟩ := hnet.forward hg hs hw hmd
    obtain ⟨sample, hsample, hreceived⟩ := List.mem_flatMap.mp hdelivery
    obtain ⟨target, htarget, hcopy⟩ := exists_mem_of_forall₂ hcopies.flip hsample
    obtain ⟨⟨participant', publisher, hpublisher, hchannel⟩, m', hmd', hencodes⟩ := hcopy
    obtain ⟨participant'', subscription', hs', hmatch, hmessage⟩ := mem_receivers.mp hreceived
    rw [hchannel] at hmatch
    refine ⟨⟨participant'', subscription', m', d', hs', ?_⟩, participant, subscription, hs, target, htarget,
      participant', publisher, hpublisher, participant'', subscription', hs', hmatch⟩
    -- the type is the same, by its name
    obtain ⟨_, _, hpublisher', hname⟩ := hnet.routes _ _ _ _ hs target htarget
    cases hpublisher.symm.trans hpublisher'
    rw [hnet.members_eq hg.distinct hs hs' ((htyped _ _ hmatch).symm.trans hname), hmessage]
    exact ⟨hencodes, hmd'⟩
  · rintro ⟨k, i, w⟩ ⟨participant, subscription, m, d, hs, hw, hmd⟩ x hpasses
    obtain ⟨_, _, hs', target, htarget, participant', publisher, hpublisher, participant'', subscription', hx,
      hmatch⟩ := hpasses
    cases hs.symm.trans hs'
    obtain ⟨d', -, hcopies⟩ := hnet.forward hg hs hw hmd
    obtain ⟨sample, hsample, hcopy⟩ := exists_mem_of_forall₂ hcopies htarget
    obtain ⟨⟨_, _, hpublisher', hchannel⟩, -⟩ := hcopy
    cases hpublisher.symm.trans hpublisher'
    refine ⟨⟨x.1, x.2, sample.message⟩, List.mem_flatMap.mpr ⟨sample, hsample, ?_⟩, rfl⟩
    exact mem_receivers.mpr ⟨participant'', subscription', hx, hchannel ▸ hmatch, rfl⟩

end Network

namespace Traffic

variable {s t : Traffic (messagePlatform P newData newSerialized)}
  {a : Action (messagePlatform P newData newSerialized)} {as : List (Action (messagePlatform P newData newSerialized))}

/-- What applications publish under the name of a type is a serialised message of the type. -/
def WellTyped (net : Network (messagePlatform P newData newSerialized)) (ser : Serialization τ R W)
    (ros2 : τ → R → Prop) (_ : Traffic (messagePlatform P newData newSerialized)) :
    Action (messagePlatform P newData newSerialized) → Prop
  | .application _ _ typeName _ message => ∀ k i participant subscription,
    net.subscription? k i = some (participant, subscription) → subscription.messageType.name = typeName →
      ∃ m, subscription.messageType.members.toType.HasType ros2 inRos2 m ∧
        ser.Encodes subscription.messageType.members m message
  | .callback _ | .lose _ => True

theorem sound_step (hnet : net.Relays y S) (htyped : net.Typed) (hg : GeneratedLibraries c ser ros2 xtypes S)
    (hs : ∀ delivery ∈ s.pending, net.Sound c ser delivery) (ha : WellTyped net ser ros2 s a)
    (h : step net s a = some t) : ∀ delivery ∈ t.pending, net.Sound c ser delivery := by
  intro delivery hdelivery
  cases a with
  | application domain topicName typeName qosProfile message =>
    obtain rfl := Option.some.inj h
    rcases List.mem_append.mp hdelivery with hdelivery | hdelivery
    · exact hs delivery hdelivery
    · obtain ⟨participant, subscription, hsubscription, hmatch, hmessage⟩ := Network.mem_receivers.mp hdelivery
      obtain ⟨m, hm, hencodes⟩ := ha _ _ _ _ hsubscription (htyped _ _ hmatch).symm
      obtain ⟨d, hd, -⟩ := exists_xtypes_counterpart hg.core _ hm
      exact ⟨participant, subscription, m, d, hsubscription, hmessage ▸ hencodes, hd⟩
  | callback j =>
    obtain ⟨handled, hhandled, rfl⟩ := step_callback.mp h
    rcases List.mem_append.mp hdelivery with hdelivery | hdelivery
    · exact hs delivery (List.mem_of_mem_eraseIdx hdelivery)
    · exact ((hnet.follows htyped hg).forth handled (hs handled (List.mem_of_getElem? hhandled)) delivery hdelivery).1
  | lose j =>
    obtain ⟨lost, -, rfl⟩ := step_lose.mp h
    exact hs delivery (List.mem_of_mem_eraseIdx hdelivery)

theorem sound_of_run (hnet : net.Relays y S) (htyped : net.Typed) (hg : GeneratedLibraries c ser ros2 xtypes S)
    (hc : Along (step net) (WellTyped net ser ros2) initial as) (hr : run (step net) initial as = some t) :
    ∀ delivery ∈ t.pending, net.Sound c ser delivery :=
  run_inv (fun _ _ _ hs ha ht => sound_step hnet htyped hg hs ha ht) (by simp [initial]) hc hr

end Traffic

/-! ### Two handles that relay numbers -/

/-- A handle that subscribes to the topic that it also publishes on. -/
def numbersRun : List (Action numberPlatform) :=
  [.loadMix numberInterface.registrars, .subscribe "numbers" numberType () (.map []),
    .advertise "numbers" numberType (.map [])]

def numbersHandle : State numberPlatform where
  factory := initial.factory.loadMix numberInterface.registrars
  subscriptions := [numberSubscription]
  publishers := [{ numberPublisher with topicName := "numbers" }]
  published := []
  received := []
  crashed := false

/-- A publisher that offers the one profile can serve a subscription that requests the other, as far as their
reliability and durability go. -/
def Qos.Offers (offered requested : Qos) : Prop :=
  (requested.reliability = .reliable → offered.reliability = .reliable) ∧
    (requested.durability = .transientLocal → offered.durability = .transientLocal)

instance (offered requested : Qos) : Decidable (offered.Offers requested) := inferInstanceAs (Decidable (_ ∧ _))

/-- Endpoints of one domain, topic and type are matched when their profiles are compatible, but for local ones that are
ignored. -/
def matchCompatible (channel : Channel) (reader : Reader) : Bool :=
  decide (channel.domain = reader.domain ∧ channel.topicName = reader.topicName ∧ channel.typeName = reader.typeName ∧
    channel.qosProfile.Offers reader.qosProfile ∧
      (reader.ignoreLocalPublications = true → channel.publisher ≠ some reader.subscriber))

/-- Two such handles, and routes from both subscriptions to both publishers. -/
def numbersNetwork (first second : ℕ) : Network numberPlatform where
  participants := [⟨numbersHandle, first⟩, ⟨numbersHandle, second⟩]
  routes _ := [(0, 0), (1, 0)]
  matching := matchCompatible

theorem isolating_numbersNetwork (first second : ℕ) : (numbersNetwork first second).Isolating where
  domain _ _ hmatch := (of_decide_eq_true hmatch).1
  ignored _ _ hignore hmatch := (of_decide_eq_true hmatch).2.2.2.2 hignore

theorem typed_numbersNetwork (first second : ℕ) : (numbersNetwork first second).Typed :=
  fun _ _ hmatch => (of_decide_eq_true hmatch).2.2.1

def three : Value ℕ := numberStructure.toType.inhabitant inRos2 fun _ => 3

theorem generatedLibraries_number :
    GeneratedLibraries numberCore plainSerialization (fun _ _ => True) (fun _ _ => True) {numberInterface} where
  distinct := distinct_number
  generated := generated_number
  core := numberCore_lawful
  serialization := plainSerialization_lawful
  newData s := hasType_inhabitant (fun _ => trivial) s.toType

section Numbers

variable {first second k i : ℕ} {participant : Participant numberPlatform}
  {subscription : MetaSubscriber numberPlatform}

theorem handle_numbersNetwork (hp : participant ∈ (numbersNetwork first second).participants) :
    participant.handle = numbersHandle := by
  rcases List.mem_pair.mp hp with rfl | rfl <;> rfl

theorem subscription_numbersNetwork
    (hs : (numbersNetwork first second).subscription? k i = some (participant, subscription)) :
    subscription = numberSubscription := by
  obtain ⟨hp, hm⟩ := Network.subscription?_eq_some.mp hs
  rw [handle_numbersNetwork (List.mem_of_getElem? hp)] at hm
  exact List.mem_singleton.mp (List.mem_of_getElem? hm)

theorem relays_numbersNetwork (first second : ℕ) :
    (numbersNetwork first second).Relays scalarConversions {numberInterface} := by
  constructor
  · intro participant hp
    rw [handle_numbersNetwork hp]
    exact ⟨numbersRun, createdTypes_numbers "numbers", rfl⟩
  · intro k i participant subscription hs
    rw [subscription_numbersNetwork hs]
    exact relayable_number
  · intro k i participant subscription hs target htarget
    rw [subscription_numbersNetwork hs]
    rcases List.mem_pair.mp htarget with rfl | rfl <;> exact ⟨_, _, rfl, rfl⟩

end Numbers

/-! ### How far messages go -/

namespace Traffic

/-- Every message of an application makes one hop. -/
structure RelayedOnce (net : Network (messagePlatform P newData newSerialized)) (ser : Serialization τ R W)
    (ros2 : τ → R → Prop) (t : Traffic (messagePlatform P newData newSerialized)) : Prop where
  accounted : (t.relayed ++ (t.pending ++ t.lost).flatMap net.forward).Perm
    (t.applications.flatMap fun sample => (net.receivers sample).flatMap net.forward)
  copies : ∀ k i participant subscription m w, net.subscription? k i = some (participant, subscription) →
    subscription.messageType.members.toType.HasType ros2 inRos2 m →
      ser.Encodes subscription.messageType.members m w →
        List.Forall₂ (fun target sample => net.PublishedThrough target sample ∧
          ∃ m', ser.Encodes subscription.messageType.members m' sample.message ∧
            subscription.messageType.members.toType.Agree m m')
          (net.routes subscription.callback) (net.forward ⟨k, i, w⟩)
  silent : ∀ sample ∈ t.relayed, net.receivers sample = []
  rests : ∀ (js : List ℕ) u, run (step net) t (js.map .callback) = some u → js.length ≤ t.pending.length

/-- **Between domains, every message is relayed once.**  Where no two handles are in the same domain, each route leads
between endpoints of one type that can be relayed, and the middleware keeps domains apart and local publications from
subscriptions that ignore them, what the handles have relayed, and would relay of what is pending and of what was lost,
is one copy of each application's message for each subscription that receives it and each route from there; each copy
agrees with the original, and is received by no handle. -/
theorem relayed_once (hg : GeneratedLibraries c ser ros2 xtypes S) (hnet : net.Relays y S)
    (hmatching : net.Isolating) (hseparate : net.Separate) (hr : run (step net) initial as = some t) :
    RelayedOnce net ser ros2 t := by
  have haccounted := accounted_of_run hr
  constructor
  · have hforward := (haccounted.perm_of_separate hseparate hmatching).flatMap_right net.forward
    rw [List.flatMap_assoc, List.append_assoc, List.flatMap_append, ← haccounted.relayed] at hforward
    exact hforward
  · intro k i participant subscription m w hs hm hw
    obtain ⟨d, hd, -⟩ := exists_xtypes_counterpart hg.core _ hm
    obtain ⟨d', hmd', hcopies⟩ := hnet.forward hg hs hw hd
    refine hcopies.imp fun target sample hcopy => ?_
    obtain ⟨hthrough, m', hmd'', hencodes⟩ := hcopy
    exact ⟨hthrough, m', hencodes, counterparts_agree _ hmd' hmd''⟩
  · intro sample hsample
    rw [haccounted.relayed] at hsample
    obtain ⟨delivery, -, hforward⟩ := List.mem_flatMap.mp hsample
    exact hseparate.receivers_eq_nil hmatching hforward
  · exact fun js u hu => length_le_of_separate hseparate hmatching hu

/-- A message that comes from the domain 4 goes to the domain 5, and is published in the domain 4 as well. -/
theorem relayed_once_numbers : ∃ t, run (step (numbersNetwork 4 5)) initial
    [.application 4 "numbers" "std_msgs/msg/Int32" (.ofDepth 10) three, .callback 0] = some t ∧ t.relayed.length = 2 ∧
      RelayedOnce (numbersNetwork 4 5) plainSerialization (fun _ _ => True) t := by
  obtain ⟨t, hr, hlength⟩ : ∃ t, run (step (numbersNetwork 4 5)) initial
      [.application 4 "numbers" "std_msgs/msg/Int32" (.ofDepth 10) three, .callback 0] = some t ∧
        t.relayed.length = 2 := ⟨_, rfl, rfl⟩
  have hseparate : (numbersNetwork 4 5).Separate := show [4, 5].Nodup by decide
  exact ⟨t, hr, hlength, relayed_once generatedLibraries_number (relays_numbersNetwork 4 5)
    (isolating_numbersNetwork 4 5) hseparate hr⟩

/-- **Messages come to rest** exactly when no pending delivery leads to a cycle of routes and of endpoints that the
middleware matches.  Each route leads between endpoints of one type that can be relayed, and the middleware matches only
endpoints of one type. -/
theorem rests_iff (hg : GeneratedLibraries c ser ros2 xtypes S) (hnet : net.Relays y S) (htyped : net.Typed)
    (hc : Along (step net) (WellTyped net ser ros2) initial as) (hr : run (step net) initial as = some t) :
    Rests net t ↔ ∀ delivery ∈ t.pending, ∀ x, Relation.ReflTransGen net.Passes delivery.position x →
      ¬ Relation.TransGen net.Passes x x :=
  rests_iff_bounded.trans ((hnet.follows htyped hg).bounded_iff_acyclic (sound_of_run hnet htyped hg hc hr)
    fun delivery _ => net.finite_passes delivery.position)

/-- Two handles in one domain keep sending each other what they relay. -/
theorem rests_iff_numbers : ∃ t, run (step (numbersNetwork 4 4)) initial
    [.application 4 "numbers" "std_msgs/msg/Int32" (.ofDepth 10) three] = some t ∧ ¬ Rests (numbersNetwork 4 4) t := by
  refine ⟨_, rfl, fun hrests => ?_⟩
  have hcycle : (numbersNetwork 4 4).Passes (0, 0) (0, 0) :=
    ⟨_, _, rfl, (1, 0), by decide, _, _, rfl, _, _, rfl, by decide⟩
  have htyped : Along (step (numbersNetwork 4 4)) (WellTyped (numbersNetwork 4 4) plainSerialization fun _ _ => True)
      initial [.application 4 "numbers" "std_msgs/msg/Int32" (.ofDepth 10) three] := by
    refine ⟨fun k i participant subscription hs _ => ?_, fun _ _ => trivial⟩
    rw [subscription_numbersNetwork hs]
    exact ⟨three, hasType_inhabitant (fun _ => trivial) _, fun _ => rfl⟩
  exact (rests_iff generatedLibraries_number (relays_numbersNetwork 4 4) (typed_numbersNetwork 4 4) htyped rfl).mp
    hrests ⟨0, 0, three⟩ (.head _) (0, 0) .refl (.single hcycle)

end Traffic

end Messages

end Ros2Sh.SystemHandle
