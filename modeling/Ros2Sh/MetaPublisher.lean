import Ros2Sh.Factory

/-!
# `MetaPublisher` and `MetaSubscriber`

The publisher and the subscriber of a topic, whatever its type.  Their constructors look up in the Factory how to
serialise or deserialise the type, and keep a pointer to the function; they do not test whether it is null.  It is
called when a message is published, or when one comes in.

Entries of the Factory are never removed, so a pointer that is not null stays valid; the function it points to is the
one last registered under the name.
-/

namespace Ros2Sh

open SystemHandle (Qos)

variable {P : Platform}

/-- A call through a pointer to a function of the Factory. -/
inductive CallResult (α : Type)
  | nullPointer
  | threw (what : String)
  | returned (result : α)

/-- `(*pointer)(...)`, for a pointer into `map`. -/
def callThrough {F α : Type} (map : String → Option F) (pointer : Option String) (apply : F → Except String α) :
    CallResult α :=
  match pointer.bind map with
  | none => .nullPointer
  | some function =>
    match apply function with
    | .error what => .threw what
    | .ok result => .returned result

structure MetaPublisher (P : Platform) where
  topicName : String
  messageType : DynamicType P
  qosProfile : Qos
  serialiseToROS2 : Option String

/-- `std::make_shared`, which returns a pointer or throws. -/
def makeMetaPublisher (f : Factory P) (topicName : String) (messageType : DynamicType P) (qosProfile : Qos) :
    Option (MetaPublisher P) :=
  some ⟨topicName, messageType, qosProfile, f.getSerialiseFunction messageType⟩

/-- The serialised message that `publish` publishes on the topic. -/
def MetaPublisher.publish (p : MetaPublisher P) (f : Factory P) (message : P.DynamicData) :
    CallResult P.SerializedMessage :=
  callThrough f.serialiserFactories p.serialiseToROS2 fun serialise => serialise message P.newSerialized

structure MetaSubscriber (P : Platform) where
  topicName : String
  messageType : DynamicType P
  qosProfile : Qos
  callback : P.SubscriptionCallback
  deserialiseToXtypes : Option String

def makeMetaSubscriber (f : Factory P) (topicName : String) (messageType : DynamicType P)
    (callback : P.SubscriptionCallback) (qosProfile : Qos) : Option (MetaSubscriber P) :=
  some ⟨topicName, messageType, qosProfile, callback, f.getDeserialiseFunction messageType⟩

/-- The data that `subscription_callback` passes to the callback of the subscription. -/
def MetaSubscriber.subscriptionCallback (m : MetaSubscriber P) (f : Factory P) (message : P.SerializedMessage) :
    CallResult P.DynamicData :=
  callThrough f.deserialiserFactories m.deserialiseToXtypes fun deserialise =>
    deserialise message (P.newData m.messageType.members)

/-- The pointer is not null, and its entry is there. -/
def Valid {F : Type} (map : String → Option F) (pointer : Option String) : Prop := (pointer.bind map).isSome

section Valid

variable {F α : Type} {map map' : String → Option F} {pointer : Option String} {apply : F → Except String α}
  {name : String}

theorem callThrough_ne_nullPointer (h : Valid map pointer) : callThrough map pointer apply ≠ .nullPointer := by
  obtain ⟨function, hf⟩ := Option.isSome_iff_exists.mp h
  unfold callThrough
  rw [hf]
  cases happly : apply function <;> simp [happly]

theorem Valid.mono (h : Valid map pointer) (hm : ∀ n, (map n).isSome → (map' n).isSome) : Valid map' pointer := by
  unfold Valid at h ⊢
  cases pointer with
  | none => simp at h
  | some n => exact hm n h

/-- The address of an entry is valid exactly when there is such an entry. -/
theorem valid_addressOf_iff : Valid map (Factory.addressOf map name) ↔ (map name).isSome := by
  unfold Valid
  cases h : map name with
  | none => simp [Factory.addressOf, h]
  | some function => simp [Factory.addressOf, h]

end Valid

end Ros2Sh
