import Ros2Sh.Converter.RoundTrip
import Ros2Sh.SystemHandle.Endpoints
import Ros2Sh.SystemHandle.Proxies

/-!
# A message relayed from one topic to another

The message template generates, besides the converters, the functions `serialise` and `deserialise` that the Factory
hands to the publishers and the subscriptions of the type.  A message that comes in on a subscription is deserialised
and passed to the Integration Service, and what the Integration Service publishes is serialised.

In a process that loads the mixes of distinct interfaces, and makes its endpoints for types that the Factory created,
every endpoint works with the functions of the library of its own type, whatever is loaded afterwards (`OwnFunctions`).
So a relayed message arrives as it was, and so do data that go the other way round (`relay_lossless`).
-/

namespace Ros2Sh.SystemHandle

open Ros2Sh.Lib Ros2Sh.Lib.Yaml Ros2Sh.Converter

/-! ### Endpoints with the functions of their own types -/

/-- The result of a call of a function. -/
def resultOf {α : Type} : Except String α → CallResult α
  | .error what => .threw what
  | .ok result => .returned result

theorem callThrough_eq {F α : Type} {map : String → Option F} {pointer : Option String} {apply : F → Except String α}
    {function : F} (h : pointer.bind map = some function) :
    callThrough map pointer apply = resultOf (apply function) := by
  unfold callThrough
  rw [h]
  cases happly : apply function <;> simp [happly, resultOf]

theorem resultOf_ne_nullPointer {α : Type} (r : Except String α) : resultOf r ≠ .nullPointer := by
  cases r <;> simp [resultOf]

section OwnFunctions

variable {P : Platform} {S : Set (Interface P)} {f g : Factory P} {type : DynamicType P} {l l' : MessageLibrary P}
  {is : List (Interface P)} {i : Interface P} {name : String}

/-- The Factory created the type for the message whose library is `l`. -/
def CreatesMessage (S : Set (Interface P)) (f : Factory P) (type : DynamicType P) (l : MessageLibrary P) : Prop :=
  f.createType type.name = .ok (some type) ∧ ∃ i ∈ S, i.library = .message l ∧ i.name = type.name

theorem mem_of_createType (hS : Distinct S) (his : ∀ i ∈ is, i ∈ S) (hi : i ∈ S)
    (h : (Factory.empty.loadAll is).createType i.name = .ok (some type)) : i ∈ is := by
  obtain ⟨j, hj, he⟩ := exists_entry_of_createType h
  have hname : j.name = i.name := by
    rw [← libraryName_of_mem_entries separate_type he]
    exact libraryName_eq_self (colon_not_mem_name i)
  obtain rfl := name_injective hS (his j hj) hi hname
  exact hj

/-- What the Factory holds for a type that it created for a message. -/
structure HoldsLibrary (f : Factory P) (type : DynamicType P) (l : MessageLibrary P) : Prop where
  members : l.type = .ok type.members
  serialise : f.serialiserFactories type.name = some l.serialise
  deserialise : f.deserialiserFactories type.name = some l.deserialise

theorem CreatesMessage.holdsLibrary (hS : Distinct S) (hf : Grows S .empty f) (h : CreatesMessage S f type l) :
    HoldsLibrary f type l := by
  obtain ⟨is, his, rfl⟩ := hf
  obtain ⟨hcreate, i, hi, hl, hname⟩ := h
  rw [← hname] at hcreate
  have hmem := mem_of_createType hS his hi hcreate
  have howns : (Factory.empty.loadAll is).Owns i := Factory.owns_of_mem hS his hmem
  unfold Factory.Owns at howns
  rw [hl] at howns
  have hmembers : namedType i.name l.type = .ok (some type) := howns.1.symm.trans hcreate
  refine ⟨?_, ?_, ?_⟩
  · obtain ⟨members, hm, htype⟩ := map_eq_ok.mp hmembers
    obtain rfl := Option.some.inj htype
    exact hm
  · rw [← hname]
    exact Factory.serialiserFactories_of_mem hS his hmem hl
  · rw [← hname]
    exact Factory.deserialiserFactories_of_mem hS his hmem hl

theorem CreatesMessage.grows (hS : Distinct S) (hf : Grows S .empty f) (hg : Grows S f g)
    (h : CreatesMessage S f type l) : CreatesMessage S g type l :=
  ⟨createType_of_grows hS hf hg h.1, h.2⟩

theorem CreatesMessage.library_unique (hS : Distinct S) {type' : DynamicType P} (h : CreatesMessage S f type l)
    (h' : CreatesMessage S g type' l') (hname : type'.name = type.name) : l' = l := by
  obtain ⟨-, i, hi, hl, hi'⟩ := h
  obtain ⟨-, j, hj, hl', hj'⟩ := h'
  obtain rfl := name_injective hS hj hi (by rw [hj', hname, hi'])
  exact Library.message.inj (hl'.symm.trans hl)

/-- Mixes of the interfaces in `S` are loaded, and endpoints are made for types that the Factory created. -/
def CreatedTypes (y : Conversions) (S : Set (Interface P)) (s : State P) : Action P → Prop
  | .loadMix registrars => ∃ i ∈ S, registrars = i.registrars
  | .subscribe _ messageType _ configuration | .advertise _ messageType configuration =>
    QosParses y configuration → ∃ l, CreatesMessage S s.factory messageType l
  | .publish _ _ | .incoming _ _ => True

/-- The invariant: every endpoint points to the entry of its own type. -/
structure OwnFunctions (S : Set (Interface P)) (s : State P) : Prop where
  loaded : Grows S .empty s.factory
  publishers : ∀ p ∈ s.publishers, (∃ l, CreatesMessage S s.factory p.messageType l) ∧
    p.serialiseToROS2 = some p.messageType.name
  subscriptions : ∀ m ∈ s.subscriptions, (∃ l, CreatesMessage S s.factory m.messageType l) ∧
    m.deserialiseToXtypes = some m.messageType.name
  alive : s.crashed = false

variable {y : Conversions} {s t : State P} {a : Action P}

theorem ownFunctions_initial (S : Set (Interface P)) : OwnFunctions S (initial : State P) where
  loaded := Grows.refl _
  publishers p hp := by simp [initial] at hp
  subscriptions m hm := by simp [initial] at hm
  alive := rfl

theorem OwnFunctions.loadMix (hS : Distinct S) (hs : OwnFunctions S s) (hi : i ∈ S) :
    OwnFunctions S { s with factory := s.factory.loadMix i.registrars } := by
  have hg : Grows S s.factory (s.factory.loadMix i.registrars) :=
    ⟨[i], fun j hj => List.mem_singleton.mp hj ▸ hi, rfl⟩
  refine ⟨hs.loaded.trans hg, fun p hp => ?_, fun m hm => ?_, hs.alive⟩
  · obtain ⟨⟨l, hl⟩, hpointer⟩ := hs.publishers p hp
    exact ⟨⟨l, hl.grows hS hs.loaded hg⟩, hpointer⟩
  · obtain ⟨⟨l, hl⟩, hpointer⟩ := hs.subscriptions m hm
    exact ⟨⟨l, hl.grows hS hs.loaded hg⟩, hpointer⟩

theorem CreatesMessage.getSerialiseFunction (hS : Distinct S) (hf : Grows S .empty f)
    (h : CreatesMessage S f type l) : f.getSerialiseFunction type = some type.name := by
  simp [Factory.getSerialiseFunction, Factory.addressOf, (h.holdsLibrary hS hf).serialise]

theorem CreatesMessage.getDeserialiseFunction (hS : Distinct S) (hf : Grows S .empty f)
    (h : CreatesMessage S f type l) : f.getDeserialiseFunction type = some type.name := by
  simp [Factory.getDeserialiseFunction, Factory.addressOf, (h.holdsLibrary hS hf).deserialise]

/-- A message never meets a null pointer. -/
theorem OwnFunctions.publish (hS : Distinct S) (hs : OwnFunctions S s) {p : MetaPublisher P}
    (hp : p ∈ s.publishers) : ∃ l, CreatesMessage S s.factory p.messageType l ∧
      ∀ message, p.publish s.factory message = resultOf (l.serialise message P.newSerialized) := by
  obtain ⟨⟨l, hl⟩, hpointer⟩ := hs.publishers p hp
  refine ⟨l, hl, fun message => callThrough_eq ?_⟩
  rw [hpointer]
  exact (hl.holdsLibrary hS hs.loaded).serialise

theorem OwnFunctions.subscriptionCallback (hS : Distinct S) (hs : OwnFunctions S s) {m : MetaSubscriber P}
    (hm : m ∈ s.subscriptions) : ∃ l, CreatesMessage S s.factory m.messageType l ∧
      ∀ message, m.subscriptionCallback s.factory message =
        resultOf (l.deserialise message (P.newData m.messageType.members)) := by
  obtain ⟨⟨l, hl⟩, hpointer⟩ := hs.subscriptions m hm
  refine ⟨l, hl, fun message => callThrough_eq ?_⟩
  rw [hpointer]
  exact (hl.holdsLibrary hS hs.loaded).deserialise

theorem ownFunctions_step (hS : Distinct S) (hs : OwnFunctions S s) (ha : CreatedTypes y S s a)
    (h : step y s a = some t) : OwnFunctions S t := by
  cases a with
  | loadMix registrars =>
    obtain rfl := step_loadMix h
    obtain ⟨i, hi, rfl⟩ := ha
    exact hs.loadMix hS hi
  | subscribe topicName messageType callback configuration =>
    rcases step_subscribe h with rfl | ⟨hqos, qos, rfl⟩
    · exact hs
    · obtain ⟨l, hl⟩ := ha hqos
      refine { hs with subscriptions := fun m hm => ?_ }
      rcases List.mem_append.mp hm with hm | hm
      · exact hs.subscriptions m hm
      · obtain rfl := List.mem_singleton.mp hm
        exact ⟨⟨l, hl⟩, hl.getDeserialiseFunction hS hs.loaded⟩
  | advertise topicName messageType configuration =>
    rcases step_advertise h with rfl | ⟨hqos, qos, rfl⟩
    · exact hs
    · obtain ⟨l, hl⟩ := ha hqos
      refine { hs with publishers := fun p hp => ?_ }
      rcases List.mem_append.mp hp with hp | hp
      · exact hs.publishers p hp
      · obtain rfl := List.mem_singleton.mp hp
        exact ⟨⟨l, hl⟩, hl.getSerialiseFunction hS hs.loaded⟩
  | publish i message =>
    obtain ⟨p, hp, -, hfactory, hpublishers, hsubscriptions, hcrash⟩ := step_publish h
    obtain ⟨l, -, hcall⟩ := hs.publish hS (List.mem_of_getElem? hp)
    refine ⟨hfactory ▸ hs.loaded, by rw [hfactory, hpublishers]; exact hs.publishers,
      by rw [hfactory, hsubscriptions]; exact hs.subscriptions, ?_⟩
    rw [Bool.eq_false_iff]
    exact fun hc => resultOf_ne_nullPointer _ ((hcall message).symm.trans (hcrash hc))
  | incoming i message =>
    obtain ⟨m, hm, -, hfactory, hpublishers, hsubscriptions, hcrash⟩ := step_incoming h
    obtain ⟨l, -, hcall⟩ := hs.subscriptionCallback hS (List.mem_of_getElem? hm)
    refine ⟨hfactory ▸ hs.loaded, by rw [hfactory, hpublishers]; exact hs.publishers,
      by rw [hfactory, hsubscriptions]; exact hs.subscriptions, ?_⟩
    rw [Bool.eq_false_iff]
    exact fun hc => resultOf_ne_nullPointer _ ((hcall message).symm.trans (hcrash hc))

theorem ownFunctions_of_run (hS : Distinct S) {as : List (Action P)} (hc : Along (step y) (CreatedTypes y S) initial as)
    (hr : run (step y) initial as = some t) : OwnFunctions S t :=
  run_inv (fun _ _ _ hs ha ht => ownFunctions_step hS hs ha ht) (ownFunctions_initial S) hc hr

/-! ### What goes through an endpoint -/

/-- The message comes in on the subscription, and the data are passed to its callback. -/
def Delivers (y : Conversions) (s : State P) (i : ℕ) (message : P.SerializedMessage)
    (callback : P.SubscriptionCallback) (data : P.DynamicData) : Prop :=
  ∃ t, step y s (.incoming i message) = some t ∧ t.received = (callback, data) :: s.received

/-- The data are published through the publisher, and the serialised message is sent on its topic. -/
def Publishes (y : Conversions) (s : State P) (i : ℕ) (data : P.DynamicData) (topicName : String)
    (message : P.SerializedMessage) : Prop :=
  ∃ t, step y s (.publish i data) = some t ∧ t.published = (topicName, message) :: s.published

theorem OwnFunctions.delivers (hS : Distinct S) (hs : OwnFunctions S s) {i : ℕ} {m : MetaSubscriber P}
    (hm : s.subscriptions[i]? = some m) (hl : CreatesMessage S f m.messageType l) {message : P.SerializedMessage}
    {data : P.DynamicData} (h : l.deserialise message (P.newData m.messageType.members) = .ok data) :
    Delivers y s i message m.callback data := by
  obtain ⟨l', hl', hcall⟩ := hs.subscriptionCallback hS (List.mem_of_getElem? hm)
  obtain rfl := hl'.library_unique hS hl rfl
  have hreturned : m.subscriptionCallback s.factory message = .returned data := by
    rw [hcall, h]
    rfl
  refine ⟨{ s with received := (m.callback, data) :: s.received }, ?_, rfl⟩
  simp [step, hs.alive, hm, hreturned]

theorem OwnFunctions.publishes (hS : Distinct S) (hs : OwnFunctions S s) {i : ℕ} {p : MetaPublisher P}
    (hp : s.publishers[i]? = some p) (hl : CreatesMessage S f p.messageType l) {data : P.DynamicData}
    {message : P.SerializedMessage} (h : l.serialise data P.newSerialized = .ok message) :
    Publishes y s i data p.topicName message := by
  obtain ⟨l', hl', hcall⟩ := hs.publish hS (List.mem_of_getElem? hp)
  obtain rfl := hl'.library_unique hS hl rfl
  have hreturned : p.publish s.factory data = .returned message := by
    rw [hcall, h]
    rfl
  refine ⟨{ s with published := (p.topicName, message) :: s.published }, ?_, rfl⟩
  simp [step, hs.alive, hp, hreturned]

end OwnFunctions

/-! ### The generated library of a message -/

variable {τ R X W : Type}

/-- `rclcpp::Serialization<Ros2_Msg>`, and the `Ros2_Msg` that each of the two functions declares. -/
structure Serialization (τ R W : Type) where
  newMessage : Structure τ → Value R
  serializeMessage : Structure τ → Value R → W → Except String W
  deserializeMessage : Structure τ → W → Value R → Except String (Value R)

/-- The serialised form of the message: it is deserialised into the message, whatever the target held. -/
def Serialization.Encodes (ser : Serialization τ R W) (s : Structure τ) (message : Value R) (serialised : W) : Prop :=
  ∀ before, ser.deserializeMessage s serialised before = .ok message

/-- What is documented of it: a message of the type is serialised, whatever the target held. -/
structure Serialization.Lawful (ser : Serialization τ R W) : Prop where
  newMessage : ∀ s : Structure τ, s.toType.Shape inRos2 (ser.newMessage s)
  serializeMessage : ∀ (s : Structure τ) (m : Value R), s.toType.Shape inRos2 m →
    ∀ before, ∃ w, ser.serializeMessage s m before = .ok w ∧ ser.Encodes s m w

section Library

variable (c : IsCore τ R X) (ser : Serialization τ R W) (s : Structure τ)

def serialise (source : Value X) (serialisedMsg : W) : Except String W := do
  let tempMsg ← convertToRos2 (s.converts c) source (ser.newMessage s)
  ser.serializeMessage s tempMsg serialisedMsg

def deserialise (serialisedMsg : W) (target : Value X) : Except String (Value X) := do
  let source ← ser.deserializeMessage s serialisedMsg (ser.newMessage s)
  convertToXtype (s.converts c) source target

end Library

/-- The platform whose dynamic data are trees, and whose types are the structures of the specifications. -/
def messagePlatform (P : Platform) (newData : Structure τ → Value X) (newSerialized : W) : Platform :=
  { P with
    Members := Structure τ
    DynamicData := Value X
    SerializedMessage := W
    newData := newData
    newSerialized := newSerialized }

section Relay

variable {P : Platform} {c : IsCore τ R X} {ser : Serialization τ R W} {ros2 : τ → R → Prop} {xtypes : τ → X → Prop}
  {s : Structure τ} {m : Value R} {d target : Value X} {w : W} {newData : Structure τ → Value X} {newSerialized : W}

/-- The library that the message template generates for the structure. -/
def messageLibrary (P : Platform) (newData : Structure τ → Value X) (newSerialized : W) (c : IsCore τ R X)
    (ser : Serialization τ R W) (s : Structure τ) : MessageLibrary (messagePlatform P newData newSerialized) where
  type := .ok s
  serialise := SystemHandle.serialise c ser s
  deserialise := SystemHandle.deserialise c ser s

/-- The structures for which the message template generates lossless converters. -/
structure Relayable (s : Structure τ) : Prop where
  wellFormed : s.toType.WellFormed
  convertible : s.toType.Convertible

theorem deserialise_ok (hs : Relayable s) (hc : c.Lawful ros2 xtypes) (hw : ser.Encodes s m w)
    (hmd : s.toType.Counterparts c m d) (htarget : s.toType.Shape inXtypes target) :
    ∃ d', deserialise c ser s w target = .ok d' ∧ s.toType.Counterparts c m d' ∧ s.toType.Shape inXtypes d' := by
  obtain ⟨d', hd', hcounterparts, hshape⟩ :=
    transfers_toXtype hc s.toType hs.wellFormed hs.convertible m d target hmd htarget
  refine ⟨d', ?_, hcounterparts, hshape⟩
  unfold deserialise
  rw [hw]
  exact hd'

theorem serialise_ok (hs : Relayable s) (hc : c.Lawful ros2 xtypes) (hser : ser.Lawful)
    (hmd : s.toType.Counterparts c m d) (before : W) :
    ∃ m' w, serialise c ser s d before = .ok w ∧ s.toType.Counterparts c m' d ∧ ser.Encodes s m' w := by
  obtain ⟨m', hm', hcounterparts, hshape⟩ :=
    transfers_fromXtype hc s.toType hs.wellFormed hs.convertible d m (ser.newMessage s) hmd (hser.newMessage s)
  obtain ⟨w, hw, hencodes⟩ := hser.serializeMessage s m' hshape before
  have hconvert : convertToRos2 (s.converts c) d (ser.newMessage s) = .ok m' := hm'
  refine ⟨m', w, ?_, hcounterparts, hencodes⟩
  unfold serialise
  rw [hconvert]
  exact hw

variable {S : Set (Interface (messagePlatform P newData newSerialized))} {y : Conversions}
  {t u : State (messagePlatform P newData newSerialized)} {i k : ℕ}
  {subscription : MetaSubscriber (messagePlatform P newData newSerialized)}
  {publisher : MetaPublisher (messagePlatform P newData newSerialized)}

/-- The subscription and the publisher lose nothing of a message of the structure: neither of one that comes in and is
published, nor of data that are published and come in. -/
structure Lossless (y : Conversions) (c : IsCore τ R X) (ser : Serialization τ R W) (ros2 : τ → R → Prop)
    (xtypes : τ → X → Prop) (s : Structure τ) (t u : State (messagePlatform P newData newSerialized)) (i k : ℕ)
    (subscription : MetaSubscriber (messagePlatform P newData newSerialized))
    (publisher : MetaPublisher (messagePlatform P newData newSerialized)) : Prop where
  message : ∀ m w, s.toType.HasType ros2 inRos2 m → ser.Encodes s m w →
    ∃ d w' m', Delivers y t i w subscription.callback d ∧ Publishes y u k d publisher.topicName w' ∧
      ser.Encodes s m' w' ∧ s.toType.Agree m m'
  data : ∀ d, s.toType.HasType xtypes inXtypes d →
    ∃ w, Publishes y u k d publisher.topicName w ∧ Delivers y t i w subscription.callback d

/-- **A relayed message arrives as it was**, when its type has no placeholder beside other fields and the processes make
their endpoints for types that the Factory created.  Whatever two of them did before, and whatever mixes they loaded, a
message that comes in on a subscription of the one and is published by the other, on a topic of the same type, agrees
with the original; and data that are published by the other arrive unchanged at the one. -/
theorem relay_lossless (hS : Distinct S)
    (hgenerated : ∀ j ∈ S, ∀ l, j.library = .message l → ∃ s, l = messageLibrary P newData newSerialized c ser s)
    (hc : c.Lawful ros2 xtypes) (hser : ser.Lawful) (hnew : ∀ s : Structure τ, s.toType.Shape inXtypes (newData s))
    {as bs : List (Action (messagePlatform P newData newSerialized))}
    (has : Along (step y) (CreatedTypes y S) initial as) (hbs : Along (step y) (CreatedTypes y S) initial bs)
    (ht : run (step y) initial as = some t) (hu : run (step y) initial bs = some u)
    (hsubscription : t.subscriptions[i]? = some subscription) (hpublisher : u.publishers[k]? = some publisher)
    (htype : publisher.messageType.name = subscription.messageType.name)
    (hs : Relayable subscription.messageType.members) :
    Lossless y c ser ros2 xtypes subscription.messageType.members t u i k subscription publisher := by
  have htown := ownFunctions_of_run hS has ht
  have huown := ownFunctions_of_run hS hbs hu
  obtain ⟨⟨l, hl⟩, -⟩ := htown.subscriptions _ (List.mem_of_getElem? hsubscription)
  obtain ⟨⟨l', hl'⟩, -⟩ := huown.publishers _ (List.mem_of_getElem? hpublisher)
  obtain rfl := hl'.library_unique hS hl htype.symm
  obtain ⟨j, hj, hlibrary, -⟩ := hl.2
  obtain ⟨s, rfl⟩ := hgenerated j hj l hlibrary
  obtain rfl : s = subscription.messageType.members := Except.ok.inj (hl.holdsLibrary hS htown.loaded).members
  constructor
  · intro m w hm hw
    obtain ⟨d₀, hd₀, -⟩ := exists_xtypes_counterpart hc _ hm
    obtain ⟨d, hd, hmd, -⟩ := deserialise_ok hs hc hw hd₀ (hnew _)
    obtain ⟨m', w', hw', hmd', hencodes⟩ := serialise_ok hs hc hser hmd newSerialized
    exact ⟨d, w', m', htown.delivers hS hsubscription hl hd, huown.publishes hS hpublisher hl' hw', hencodes,
      counterparts_agree _ hmd hmd'⟩
  · intro d hd
    obtain ⟨m₀, hm₀⟩ := exists_ros2_counterpart hc _ hd
    obtain ⟨m, w, hw, hmd, hencodes⟩ := serialise_ok hs hc hser hm₀ newSerialized
    obtain ⟨d', hd', hmd', hshape⟩ := deserialise_ok hs hc hencodes hmd (hnew _)
    obtain rfl := counterparts_unique _ hmd hmd' hd.shape hshape
    exact ⟨w, huown.publishes hS hpublisher hl' hw, htown.delivers hS hsubscription hl hd'⟩

end Relay

/-! ### A process that relays numbers -/

/-- Messages are serialised as they are. -/
def plainSerialization : Serialization Unit ℕ (Value ℕ) where
  newMessage s := s.toType.inhabitant inRos2 fun _ => 0
  serializeMessage _ message _ := .ok message
  deserializeMessage _ serialised _ := .ok serialised

theorem plainSerialization_lawful : plainSerialization.Lawful where
  newMessage s := hasType_inhabitant (fun _ => trivial) s.toType
  serializeMessage _ m _ _ := ⟨m, rfl, fun _ => rfl⟩

def newNumbers (s : Structure Unit) : Value ℕ := s.toType.inhabitant inXtypes fun _ => 0

abbrev numberPlatform : Platform := messagePlatform (W := Value ℕ) Platform.plain newNumbers (.leaf 0)

/-- `std_msgs/msg/Int32`. -/
def numberStructure : Structure Unit := ⟨["data"], fun _ => .primitive ()⟩

theorem relayable_number : Relayable numberStructure where
  wellFormed := ⟨by decide, fun _ _ => trivial⟩
  convertible := .inr ⟨by decide, fun _ _ => trivial⟩

def numberLibrary : MessageLibrary numberPlatform :=
  messageLibrary Platform.plain newNumbers (.leaf 0) numberCore plainSerialization numberStructure

def numberInterface : Interface numberPlatform where
  package := int32Interface.package
  type := int32Interface.type
  library := .message numberLibrary

def numberType : DynamicType numberPlatform := ⟨"std_msgs/msg/Int32", numberStructure⟩

def numberRun : List (Action numberPlatform) :=
  [.loadMix numberInterface.registrars, .subscribe "numbers" numberType () (.map []),
    .advertise "copies" numberType (.map [])]

theorem createdTypes_numbers (topicName : String) :
    Along (step scalarConversions) (CreatedTypes scalarConversions {numberInterface}) initial
      [.loadMix numberInterface.registrars, .subscribe "numbers" numberType () (.map []),
        .advertise topicName numberType (.map [])] := by
  refine ⟨⟨numberInterface, rfl, rfl⟩, fun t ht => ?_⟩
  obtain rfl := step_loadMix ht
  have hcreates : CreatesMessage {numberInterface} (initial.factory.loadMix numberInterface.registrars) numberType
      numberLibrary := ⟨rfl, numberInterface, rfl, rfl, rfl⟩
  refine ⟨fun _ => ⟨_, hcreates⟩, fun t ht => ?_⟩
  have hfactory : t.factory = initial.factory.loadMix numberInterface.registrars := by
    rcases step_subscribe ht with rfl | ⟨-, qos, rfl⟩ <;> rfl
  exact ⟨fun _ => ⟨_, hfactory ▸ hcreates⟩, fun _ _ => trivial⟩

theorem distinct_number : Distinct {numberInterface} := fun _ hi _ hj _ _ _ => hi.trans hj.symm

theorem generated_number (i : Interface numberPlatform) (hi : i ∈ ({numberInterface} : Set (Interface numberPlatform)))
    (l : MessageLibrary numberPlatform) (hl : i.library = .message l) :
    ∃ s, l = messageLibrary Platform.plain newNumbers (.leaf 0) numberCore plainSerialization s :=
  ⟨numberStructure, (Library.message.inj ((congrArg _ hi).symm.trans hl)).symm⟩

/-- What the handle keeps of the two endpoints. -/
def numberSubscription : MetaSubscriber numberPlatform :=
  ⟨"numbers", numberType, Qos.ofDepth 10, (), some "std_msgs/msg/Int32"⟩

def numberPublisher : MetaPublisher numberPlatform :=
  ⟨"copies", numberType, Qos.ofDepth 10, some "std_msgs/msg/Int32"⟩

theorem relay_lossless_number : ∃ t, run (step scalarConversions) initial numberRun = some t ∧
    Lossless scalarConversions numberCore plainSerialization (fun _ _ => True) (fun _ _ => True) numberStructure t t 0 0
      numberSubscription numberPublisher := by
  refine ⟨_, rfl, ?_⟩
  exact relay_lossless distinct_number generated_number numberCore_lawful plainSerialization_lawful
    (fun s => hasType_inhabitant (fun _ => trivial) s.toType) (createdTypes_numbers "copies")
    (createdTypes_numbers "copies") rfl rfl (show _ = some numberSubscription from rfl)
    (show _ = some numberPublisher from rfl) rfl relayable_number

end Ros2Sh.SystemHandle
