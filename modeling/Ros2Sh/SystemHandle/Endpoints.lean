import Ros2Sh.Lib.Run
import Ros2Sh.MetaPublisher

/-!
# The topics of a system handle

`SystemHandle::subscribe` and `SystemHandle::advertise`, and the machine they are part of: mixes are loaded, endpoints
are made, messages are published and come in, in any order.

Both functions test whether they got an endpoint, and would report a failure.  But `make_meta_subscriber` and
`make_meta_publisher` never return a null pointer: for a type the Factory knows no conversion for they return an
endpoint that holds a null function pointer, and the next message through it calls the null pointer.  So no failure is
ever reported, and what the error branches promise holds exactly in the runs that make each endpoint when the Factory
knows the conversion it needs (`sound_iff_convertible`).
-/

namespace Ros2Sh.SystemHandle

open Ros2Sh.Lib Ros2Sh.Lib.Yaml

variable {P : Platform}

/-- The handle with the Factory, the publishers it has handed out, and what went through the topics so far.  After a
call through a null pointer the process is gone. -/
structure State (P : Platform) where
  factory : Factory P
  subscriptions : List (MetaSubscriber P)
  publishers : List (MetaPublisher P)
  published : List (String × P.SerializedMessage)
  received : List (P.SubscriptionCallback × P.DynamicData)
  crashed : Bool

def initial : State P := ⟨.empty, [], [], [], [], false⟩

/-- `SystemHandle::subscribe`. -/
def subscribe (y : Conversions) (s : State P) (topicName : String) (messageType : DynamicType P)
    (callback : P.SubscriptionCallback) (configuration : Node) : Except Error (Bool × State P) := do
  let qosProfile ← parseRmwQosConfiguration y (← configuration.index "qos")
  match makeMetaSubscriber s.factory topicName messageType callback qosProfile with
  | none => return (false, s)
  | some subscription => return (true, { s with subscriptions := s.subscriptions ++ [subscription] })

/-- `SystemHandle::advertise`. -/
def advertise (y : Conversions) (s : State P) (topicName : String) (messageType : DynamicType P)
    (configuration : Node) : Except Error (Option (MetaPublisher P)) := do
  let qosProfile ← parseRmwQosConfiguration y (← configuration.index "qos")
  return makeMetaPublisher s.factory topicName messageType qosProfile

/-- What can happen to a handle; the endpoints are numbered in the order in which they were made. -/
inductive Action (P : Platform)
  | loadMix (registrars : List (FactoryRegistrar P))
  | subscribe (topicName : String) (messageType : DynamicType P) (callback : P.SubscriptionCallback)
    (configuration : Node)
  | advertise (topicName : String) (messageType : DynamicType P) (configuration : Node)
  | publish (i : ℕ) (message : P.DynamicData)
  | incoming (i : ℕ) (message : P.SerializedMessage) -- on the topic of a subscription

/-- One action.  An exception leaves the handle as it was. -/
def step (y : Conversions) (s : State P) (a : Action P) : Option (State P) :=
  if s.crashed then none
  else
    match a with
    | .loadMix registrars => some { s with factory := s.factory.loadMix registrars }
    | .subscribe topicName messageType callback configuration =>
      match subscribe y s topicName messageType callback configuration with
      | .error _ => some s
      | .ok (_, s') => some s'
    | .advertise topicName messageType configuration =>
      match advertise y s topicName messageType configuration with
      | .error _ | .ok none => some s
      | .ok (some publisher) => some { s with publishers := s.publishers ++ [publisher] }
    | .publish i message => do
      let publisher ← s.publishers[i]?
      match publisher.publish s.factory message with
      | .nullPointer => some { s with crashed := true }
      | .threw _ => some s
      | .returned serialised => some { s with published := (publisher.topicName, serialised) :: s.published }
    | .incoming i message => do
      let subscription ← s.subscriptions[i]?
      match subscription.subscriptionCallback s.factory message with
      | .nullPointer => some { s with crashed := true }
      | .threw _ => some s
      | .returned data => some { s with received := (subscription.callback, data) :: s.received }

/-! ### What the two functions do -/

section Endpoints

variable {y : Conversions} {s s' : State P} {topicName : String} {messageType : DynamicType P}
  {callback : P.SubscriptionCallback} {configuration : Node} {result : Bool} {publisher : Option (MetaPublisher P)}

/-- The `qos` node of the configuration can be read. -/
def QosParses (y : Conversions) (configuration : Node) : Prop :=
  ∃ qos, (configuration.index "qos" >>= parseRmwQosConfiguration y) = .ok qos

theorem subscribe_eq (y : Conversions) (s : State P) (topicName : String) (messageType : DynamicType P)
    (callback : P.SubscriptionCallback) (configuration : Node) :
    subscribe y s topicName messageType callback configuration =
      (configuration.index "qos" >>= parseRmwQosConfiguration y).map fun qos =>
        (true, { s with subscriptions := s.subscriptions ++
          [⟨topicName, messageType, qos, callback, s.factory.getDeserialiseFunction messageType⟩] }) := by
  unfold subscribe
  cases hnode : configuration.index "qos" with
  | error e => rfl
  | ok node =>
    simp only [bind, Except.bind]
    cases parseRmwQosConfiguration y node <;> rfl

theorem advertise_eq (y : Conversions) (s : State P) (topicName : String) (messageType : DynamicType P)
    (configuration : Node) :
    advertise y s topicName messageType configuration =
      (configuration.index "qos" >>= parseRmwQosConfiguration y).map fun qos =>
        some ⟨topicName, messageType, qos, s.factory.getSerialiseFunction messageType⟩ := by
  unfold advertise
  cases hnode : configuration.index "qos" with
  | error e => rfl
  | ok node =>
    simp only [bind, Except.bind]
    cases parseRmwQosConfiguration y node <;> rfl

/-- **`subscribe` never reports a failure**: when it returns, it returns true, with one more subscription. -/
theorem subscribe_ok (h : subscribe y s topicName messageType callback configuration = .ok (result, s')) :
    QosParses y configuration ∧ result = true ∧ ∃ qos, s' = { s with subscriptions := s.subscriptions ++
      [⟨topicName, messageType, qos, callback, s.factory.getDeserialiseFunction messageType⟩] } := by
  rw [subscribe_eq] at h
  cases hqos : configuration.index "qos" >>= parseRmwQosConfiguration y with
  | error e =>
    rw [hqos] at h
    cases h
  | ok qos =>
    rw [hqos] at h
    cases h
    exact ⟨⟨qos, hqos⟩, rfl, qos, rfl⟩

/-- **`advertise` never reports a failure**: when it returns, it returns a publisher. -/
theorem advertise_ok (h : advertise y s topicName messageType configuration = .ok publisher) :
    QosParses y configuration ∧ ∃ qos,
      publisher = some ⟨topicName, messageType, qos, s.factory.getSerialiseFunction messageType⟩ := by
  rw [advertise_eq] at h
  cases hqos : configuration.index "qos" >>= parseRmwQosConfiguration y with
  | error e =>
    rw [hqos] at h
    cases h
  | ok qos =>
    rw [hqos] at h
    cases h
    exact ⟨⟨qos, hqos⟩, qos, rfl⟩

theorem subscribe_of_qosParses (h : QosParses y configuration) :
    ∃ s', subscribe y s topicName messageType callback configuration = .ok (true, s') := by
  obtain ⟨qos, hqos⟩ := h
  rw [subscribe_eq, hqos]
  exact ⟨_, rfl⟩

theorem advertise_of_qosParses (h : QosParses y configuration) :
    ∃ p, advertise y s topicName messageType configuration = .ok (some p) := by
  obtain ⟨qos, hqos⟩ := h
  rw [advertise_eq, hqos]
  exact ⟨_, rfl⟩

end Endpoints

/-! ### What a step does -/

section Step

variable {y : Conversions} {s t : State P}

theorem step_loadMix {registrars : List (FactoryRegistrar P)} (h : step y s (.loadMix registrars) = some t) :
    t = { s with factory := s.factory.loadMix registrars } := by
  unfold step at h
  split at h
  · cases h
  · exact (Option.some.inj h).symm

theorem step_subscribe {topicName : String} {messageType : DynamicType P} {callback : P.SubscriptionCallback}
    {configuration : Node} (h : step y s (.subscribe topicName messageType callback configuration) = some t) :
    t = s ∨ QosParses y configuration ∧ ∃ qos, t = { s with subscriptions := s.subscriptions ++
      [⟨topicName, messageType, qos, callback, s.factory.getDeserialiseFunction messageType⟩] } := by
  unfold step at h
  split at h
  · cases h
  · cases hsub : subscribe y s topicName messageType callback configuration with
    | error e =>
      simp only [hsub, Option.some.injEq] at h
      exact .inl h.symm
    | ok r =>
      simp only [hsub, Option.some.injEq] at h
      obtain ⟨hqos, -, qos, hs'⟩ := subscribe_ok hsub
      exact .inr ⟨hqos, qos, h.symm.trans hs'⟩

theorem step_advertise {topicName : String} {messageType : DynamicType P} {configuration : Node}
    (h : step y s (.advertise topicName messageType configuration) = some t) :
    t = s ∨ QosParses y configuration ∧ ∃ qos, t = { s with publishers := s.publishers ++
      [⟨topicName, messageType, qos, s.factory.getSerialiseFunction messageType⟩] } := by
  unfold step at h
  split at h
  · cases h
  · cases hadv : advertise y s topicName messageType configuration with
    | error e =>
      simp only [hadv, Option.some.injEq] at h
      exact .inl h.symm
    | ok p =>
      obtain ⟨hqos, qos, rfl⟩ := advertise_ok hadv
      simp only [hadv, Option.some.injEq] at h
      exact .inr ⟨hqos, qos, h.symm⟩

theorem step_publish {i : ℕ} {message : P.DynamicData} (h : step y s (.publish i message) = some t) :
    ∃ publisher, s.publishers[i]? = some publisher ∧ s.crashed = false ∧ t.factory = s.factory ∧
      t.publishers = s.publishers ∧ t.subscriptions = s.subscriptions ∧
      (t.crashed = true → publisher.publish s.factory message = .nullPointer) := by
  unfold step at h
  split at h
  · cases h
  · rename_i hc
    obtain ⟨publisher, hp, h⟩ := Option.bind_eq_some_iff.mp h
    refine ⟨publisher, hp, by simpa using hc, ?_⟩
    cases hcall : publisher.publish s.factory message with
    | nullPointer =>
      simp only [hcall, Option.some.injEq] at h
      subst h
      exact ⟨rfl, rfl, rfl, fun _ => rfl⟩
    | threw what =>
      simp only [hcall, Option.some.injEq] at h
      subst h
      exact ⟨rfl, rfl, rfl, fun h => absurd h hc⟩
    | returned serialised =>
      simp only [hcall, Option.some.injEq] at h
      subst h
      exact ⟨rfl, rfl, rfl, fun h => absurd h hc⟩

theorem step_incoming {i : ℕ} {message : P.SerializedMessage} (h : step y s (.incoming i message) = some t) :
    ∃ subscription, s.subscriptions[i]? = some subscription ∧ s.crashed = false ∧ t.factory = s.factory ∧
      t.publishers = s.publishers ∧ t.subscriptions = s.subscriptions ∧
      (t.crashed = true → subscription.subscriptionCallback s.factory message = .nullPointer) := by
  unfold step at h
  split at h
  · cases h
  · rename_i hc
    obtain ⟨subscription, hm, h⟩ := Option.bind_eq_some_iff.mp h
    refine ⟨subscription, hm, by simpa using hc, ?_⟩
    cases hcall : subscription.subscriptionCallback s.factory message with
    | nullPointer =>
      simp only [hcall, Option.some.injEq] at h
      subst h
      exact ⟨rfl, rfl, rfl, fun _ => rfl⟩
    | threw what =>
      simp only [hcall, Option.some.injEq] at h
      subst h
      exact ⟨rfl, rfl, rfl, fun h => absurd h hc⟩
    | returned data =>
      simp only [hcall, Option.some.injEq] at h
      subst h
      exact ⟨rfl, rfl, rfl, fun h => absurd h hc⟩

end Step

/-! ### Runs in which every endpoint gets its conversion -/

/-- The Factory holds a deserialiser for the type's name. -/
def HoldsDeserialiser (s : State P) (type : DynamicType P) : Prop := (s.factory.deserialiserFactories type.name).isSome

/-- The Factory holds a serialiser for the type's name. -/
def HoldsSerialiser (s : State P) (type : DynamicType P) : Prop := (s.factory.serialiserFactories type.name).isSome

/-- What the error branches of `subscribe` and `advertise` promise: true, or a publisher, only if the Factory holds the
conversion; otherwise false and no subscription, or no publisher. -/
def ReportsFailure (y : Conversions) (s : State P) : Action P → Prop
  | .subscribe topicName messageType callback configuration =>
    ∀ result s', subscribe y s topicName messageType callback configuration = .ok (result, s') →
      (result = true → HoldsDeserialiser s messageType) ∧
        (¬ HoldsDeserialiser s messageType → result = false ∧ s'.subscriptions = s.subscriptions)
  | .advertise topicName messageType configuration =>
    ∀ publisher, advertise y s topicName messageType configuration = .ok publisher →
      (publisher.isSome → HoldsSerialiser s messageType) ∧ (¬ HoldsSerialiser s messageType → publisher = none)
  | .loadMix _ | .publish _ _ | .incoming _ _ => True

/-- The endpoint is made, if its quality of service can be read, when the Factory holds the conversion it needs. -/
def Convertible (y : Conversions) (s : State P) : Action P → Prop
  | .subscribe _ messageType _ configuration => QosParses y configuration → HoldsDeserialiser s messageType
  | .advertise _ messageType configuration => QosParses y configuration → HoldsSerialiser s messageType
  | .loadMix _ | .publish _ _ | .incoming _ _ => True

theorem reportsFailure_iff (y : Conversions) (s : State P) (a : Action P) :
    ReportsFailure y s a ↔ Convertible y s a := by
  cases a with
  | subscribe topicName messageType callback configuration =>
    constructor
    · intro h hqos
      obtain ⟨s', hs'⟩ := subscribe_of_qosParses hqos
      exact (h true s' hs').1 rfl
    · intro h result s' hs'
      have hholds := h (subscribe_ok hs').1
      exact ⟨fun _ => hholds, fun hnot => absurd hholds hnot⟩
  | advertise topicName messageType configuration =>
    constructor
    · intro h hqos
      obtain ⟨p, hp⟩ := advertise_of_qosParses hqos
      exact (h (some p) hp).1 rfl
    · intro h publisher hp
      have hholds := h (advertise_ok hp).1
      exact ⟨fun _ => hholds, fun hnot => absurd hholds hnot⟩
  | loadMix registrars => exact Iff.rfl
  | publish i message => exact Iff.rfl
  | incoming i message => exact Iff.rfl

/-- The invariant of the runs that make each endpoint when the Factory holds its conversion: the endpoints hold valid
pointers. -/
structure PointersValid (s : State P) : Prop where
  publishers : ∀ p ∈ s.publishers, Valid s.factory.serialiserFactories p.serialiseToROS2
  subscriptions : ∀ m ∈ s.subscriptions, Valid s.factory.deserialiserFactories m.deserialiseToXtypes
  alive : s.crashed = false

theorem pointersValid_initial : PointersValid (initial : State P) where
  publishers p hp := by simp [initial] at hp
  subscriptions m hm := by simp [initial] at hm
  alive := rfl

theorem pointersValid_step {y : Conversions} {s t : State P} {a : Action P} (hs : PointersValid s)
    (ha : Convertible y s a) (h : step y s a = some t) : PointersValid t := by
  cases a with
  | loadMix registrars =>
    obtain rfl := step_loadMix h
    have hext := s.factory.extends_loadMix registrars
    exact ⟨fun p hp => (hs.publishers p hp).mono hext.serialisers,
      fun m hm => (hs.subscriptions m hm).mono hext.deserialisers, hs.alive⟩
  | subscribe topicName messageType callback configuration =>
    obtain rfl | ⟨hqos, qos, rfl⟩ := step_subscribe h
    · exact hs
    · refine ⟨hs.publishers, fun m hm => ?_, hs.alive⟩
      rcases List.mem_append.mp hm with hm | hm
      · exact hs.subscriptions m hm
      · obtain rfl := List.mem_singleton.mp hm
        exact valid_addressOf_iff.mpr (ha hqos)
  | advertise topicName messageType configuration =>
    obtain rfl | ⟨hqos, qos, rfl⟩ := step_advertise h
    · exact hs
    · refine ⟨fun p hp => ?_, hs.subscriptions, hs.alive⟩
      rcases List.mem_append.mp hp with hp | hp
      · exact hs.publishers p hp
      · obtain rfl := List.mem_singleton.mp hp
        exact valid_addressOf_iff.mpr (ha hqos)
  | publish i message =>
    obtain ⟨publisher, hp, -, hf, hpub, hsub, hcrash⟩ := step_publish h
    have hvalid := hs.publishers publisher (List.mem_of_getElem? hp)
    refine ⟨by rw [hf, hpub]; exact hs.publishers, by rw [hf, hsub]; exact hs.subscriptions, ?_⟩
    rw [Bool.eq_false_iff]
    exact fun hc => callThrough_ne_nullPointer hvalid (hcrash hc)
  | incoming i message =>
    obtain ⟨subscription, hm, -, hf, hpub, hsub, hcrash⟩ := step_incoming h
    have hvalid := hs.subscriptions subscription (List.mem_of_getElem? hm)
    refine ⟨by rw [hf, hpub]; exact hs.publishers, by rw [hf, hsub]; exact hs.subscriptions, ?_⟩
    rw [Bool.eq_false_iff]
    exact fun hc => callThrough_ne_nullPointer hvalid (hcrash hc)

/-- No failure is left unreported along the run, and no null pointer is called in it. -/
def Sound (y : Conversions) (as : List (Action P)) (t : State P) : Prop :=
  Along (step y) (ReportsFailure y) initial as ∧ t.crashed = false

/-- **No endpoint without its conversion.**  A run is sound exactly when each of its endpoints is made at a moment when
the Factory holds the conversion it needs. -/
theorem sound_iff_convertible {y : Conversions} {as : List (Action P)} {t : State P}
    (hr : run (step y) initial as = some t) : Sound y as t ↔ Along (step y) (Convertible y) initial as := by
  constructor
  · intro h
    exact h.1.imp fun s a ha => (reportsFailure_iff y s a).mp ha
  · intro h
    have hinv : PointersValid t :=
      run_inv (fun s a t hs ha ht => pointersValid_step hs ha ht) pointersValid_initial h hr
    exact ⟨h.imp fun s a ha => (reportsFailure_iff y s a).mpr ha, hinv.alive⟩

def int32Type : DynamicType Platform.plain := ⟨"std_msgs/msg/Int32", ()⟩

/-- The library of the type is loaded before its endpoints are made, and messages go both ways. -/
def int32Run : List (Action Platform.plain) :=
  [.loadMix [.serialiseToROS2Factory "std_msgs/msg/Int32" fun data _ => .ok data,
      .deserialiseToXtypeFactory "std_msgs/msg/Int32" fun message _ => .ok message],
    .subscribe "numbers" int32Type () (.map []), .advertise "numbers" int32Type (.map []),
    .incoming 0 (5 : ℕ), .publish 0 (7 : ℕ)]

theorem sound_iff_convertible_int32 :
    ∃ t, run (step scalarConversions) initial int32Run = some t ∧
      (Sound scalarConversions int32Run t ↔
        Along (step scalarConversions) (Convertible scalarConversions) initial int32Run) :=
  ⟨_, rfl, sound_iff_convertible rfl⟩

/-- A subscription made before the library of its type is loaded is reported as made, and the first message that comes
in calls a null pointer. -/
theorem unsound_without_deserialiser :
    ∃ t, run (step scalarConversions) initial
        [.subscribe "numbers" int32Type () (.map []), .incoming 0 (5 : ℕ)] = some t ∧
      t.crashed = true ∧
      ¬ Sound scalarConversions [.subscribe "numbers" int32Type () (.map []), .incoming 0 (5 : ℕ)] t := by
  refine ⟨_, rfl, rfl, fun h => ?_⟩
  have hreported := h.1.1 true _ rfl
  have hheld : (none : Option (DeserialiseToXtypeFunction Platform.plain)).isSome := hreported.1 rfl
  exact absurd hheld (by decide)

end Ros2Sh.SystemHandle
