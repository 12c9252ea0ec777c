import Mathlib.Logic.Function.Basic
import Ros2Sh.Lib.Table
import Ros2Sh.SystemHandle.Qos

/-!
# The Factory

The libraries generated for the interfaces register with the Factory, under the names of their types, how to create the
dynamic type, how to serialise and deserialise it, and how to make the proxies of a service; the system handle looks
these up.  The registrations are made by the `FactoryRegistrar` objects of a library while it is loaded, so loading a
mix is `loadMix`.

Each map of the Factory is a partial function of the name.  The facts used later are that a registration shows in the
map it is made in and in no other, that an entry is never removed (`Factory.Extends`), and what a mix leaves in each of
the maps: the entries of its registrars, assigned in order (`typeFactories_loadMix` and its companions).
-/

namespace Ros2Sh

open Lib
open SystemHandle (Qos)

/-- The types of the libraries under the system handle whose values it passes on without looking inside, and the
objects it creates of them. -/
structure Platform where
  Members : Type -- the members of an `xtypes::DynamicType`
  DynamicData : Type
  SerializedMessage : Type
  ServiceClient : Type
  ServiceProvider : Type
  RequestCallback : Type
  SubscriptionCallback : Type
  newData : Members → DynamicData -- `xtypes::DynamicData data(type)`
  newSerialized : SerializedMessage

/-- The plainest platform: data and serialised messages are numbers, and nothing else has content. -/
def Platform.plain : Platform where
  Members := Unit
  DynamicData := ℕ
  SerializedMessage := ℕ
  ServiceClient := Unit
  ServiceProvider := Unit
  RequestCallback := Unit
  SubscriptionCallback := Unit
  newData _ := 0
  newSerialized := 0

/-- `xtypes::DynamicType`. -/
structure DynamicType (P : Platform) where
  name : String
  members : P.Members

section Signatures

variable (P : Platform)

/-- A function without arguments: it may throw, and the pointer it returns may be null. -/
abbrev RegisterTypeToFactory := Except String (Option (DynamicType P))

abbrev SerialiseToROS2Function := P.DynamicData → P.SerializedMessage → Except String P.SerializedMessage

abbrev DeserialiseToXtypeFunction := P.SerializedMessage → P.DynamicData → Except String P.DynamicData

abbrev RegisterServiceClientToFactory := String → P.RequestCallback → Qos → Option P.ServiceClient

abbrev RegisterServiceProviderToFactory := String → Qos → Option P.ServiceProvider

/-- The maps of `Factory::Implementation`.  The node is the same in every call, so the factories of the proxies do not
take it. -/
structure Factory where
  typeFactories : String → Option (RegisterTypeToFactory P)
  clientProxyFactories : String → Option (RegisterServiceClientToFactory P)
  serverProxyFactories : String → Option (RegisterServiceProviderToFactory P)
  serialiserFactories : String → Option (SerialiseToROS2Function P)
  deserialiserFactories : String → Option (DeserialiseToXtypeFunction P)

/-- A `FactoryRegistrar`: its constructor makes one registration. -/
inductive FactoryRegistrar
  | typeToFactory (name : String) (factory : RegisterTypeToFactory P)
  | serialiseToROS2Factory (name : String) (function : SerialiseToROS2Function P)
  | deserialiseToXtypeFactory (name : String) (function : DeserialiseToXtypeFunction P)
  | serviceClientToFactory (name : String) (factory : RegisterServiceClientToFactory P)
  | serviceProviderToFactory (name : String) (factory : RegisterServiceProviderToFactory P)

end Signatures

namespace Factory

variable {P : Platform}

/-- The Factory before any library is loaded. -/
def empty : Factory P := ⟨fun _ => none, fun _ => none, fun _ => none, fun _ => none, fun _ => none⟩

/-- `map[name] = value`. -/
def assign {α : Type} (map : String → Option α) (name : String) (value : α) : String → Option α :=
  Function.update map name (some value)

def registerTypeFactory (f : Factory P) (name : String) (factory : RegisterTypeToFactory P) : Factory P :=
  { f with typeFactories := assign f.typeFactories name factory }

def registerSerialiserFactory (f : Factory P) (name : String) (function : SerialiseToROS2Function P) : Factory P :=
  { f with serialiserFactories := assign f.serialiserFactories name function }

def registerDeserialiserFactory (f : Factory P) (name : String) (function : DeserialiseToXtypeFunction P) :
    Factory P :=
  { f with deserialiserFactories := assign f.deserialiserFactories name function }

def registerClientProxyFactory (f : Factory P) (name : String) (factory : RegisterServiceClientToFactory P) :
    Factory P :=
  { f with clientProxyFactories := assign f.clientProxyFactories name factory }

def registerServerProxyFactory (f : Factory P) (name : String) (factory : RegisterServiceProviderToFactory P) :
    Factory P :=
  { f with serverProxyFactories := assign f.serverProxyFactories name factory }

def createType (f : Factory P) (name : String) : Except String (Option (DynamicType P)) :=
  match f.typeFactories name with
  | none => .ok none
  | some factory => factory

/-- `&it->second`, or null: a pointer into a map is the name of the entry it points to. -/
def addressOf {α : Type} (map : String → Option α) (name : String) : Option String :=
  (map name).map fun _ => name

def getSerialiseFunction (f : Factory P) (type : DynamicType P) : Option String :=
  addressOf f.serialiserFactories type.name

def getDeserialiseFunction (f : Factory P) (type : DynamicType P) : Option String :=
  addressOf f.deserialiserFactories type.name

def createClientProxy (f : Factory P) (name serviceName : String) (callback : P.RequestCallback) (qos : Qos) :
    Option P.ServiceClient :=
  match f.clientProxyFactories name with
  | none => none
  | some factory => factory serviceName callback qos

def createServerProxy (f : Factory P) (name serviceName : String) (qos : Qos) : Option P.ServiceProvider :=
  match f.serverProxyFactories name with
  | none => none
  | some factory => factory serviceName qos

/-- The constructor of a `FactoryRegistrar`. -/
def construct (f : Factory P) : FactoryRegistrar P → Factory P
  | .typeToFactory name factory => f.registerTypeFactory name factory
  | .serialiseToROS2Factory name function => f.registerSerialiserFactory name function
  | .deserialiseToXtypeFactory name function => f.registerDeserialiserFactory name function
  | .serviceClientToFactory name factory => f.registerClientProxyFactory name factory
  | .serviceProviderToFactory name factory => f.registerServerProxyFactory name factory

/-- Loading a library constructs its registrars in order. -/
def loadMix (f : Factory P) (registrars : List (FactoryRegistrar P)) : Factory P := registrars.foldl construct f

section Maps

variable {α : Type} {map map' : String → Option α} {name n : String} {value : α}

@[simp] theorem assign_self : assign map name value name = some value := by
  simp [assign]

theorem assign_of_ne (h : n ≠ name) : assign map name value n = map n := by
  simp [assign, h]

theorem isSome_assign (h : (map n).isSome) : (assign map name value n).isSome := by
  by_cases hn : n = name
  · subst hn
    simp
  · rwa [assign_of_ne hn]

end Maps

/-- The entries of `f` are still there in `g`, possibly with other values. -/
structure Extends (f g : Factory P) : Prop where
  types : ∀ n, (f.typeFactories n).isSome → (g.typeFactories n).isSome
  clientProxies : ∀ n, (f.clientProxyFactories n).isSome → (g.clientProxyFactories n).isSome
  serverProxies : ∀ n, (f.serverProxyFactories n).isSome → (g.serverProxyFactories n).isSome
  serialisers : ∀ n, (f.serialiserFactories n).isSome → (g.serialiserFactories n).isSome
  deserialisers : ∀ n, (f.deserialiserFactories n).isSome → (g.deserialiserFactories n).isSome

theorem Extends.refl (f : Factory P) : f.Extends f :=
  ⟨fun _ h => h, fun _ h => h, fun _ h => h, fun _ h => h, fun _ h => h⟩

theorem Extends.trans {f g k : Factory P} (h : f.Extends g) (h' : g.Extends k) : f.Extends k where
  types n hn := h'.types n (h.types n hn)
  clientProxies n hn := h'.clientProxies n (h.clientProxies n hn)
  serverProxies n hn := h'.serverProxies n (h.serverProxies n hn)
  serialisers n hn := h'.serialisers n (h.serialisers n hn)
  deserialisers n hn := h'.deserialisers n (h.deserialisers n hn)

theorem extends_construct (f : Factory P) (r : FactoryRegistrar P) : f.Extends (f.construct r) := by
  have h := Extends.refl f
  cases r with
  | typeToFactory name factory => exact { h with types := fun n hn => isSome_assign hn }
  | serialiseToROS2Factory name function => exact { h with serialisers := fun n hn => isSome_assign hn }
  | deserialiseToXtypeFactory name function => exact { h with deserialisers := fun n hn => isSome_assign hn }
  | serviceClientToFactory name factory => exact { h with clientProxies := fun n hn => isSome_assign hn }
  | serviceProviderToFactory name factory => exact { h with serverProxies := fun n hn => isSome_assign hn }

theorem extends_loadMix (f : Factory P) (registrars : List (FactoryRegistrar P)) :
    f.Extends (f.loadMix registrars) := by
  induction registrars generalizing f with
  | nil => exact Extends.refl f
  | cons r rs ih => exact (extends_construct f r).trans (ih (f.construct r))

end Factory

/-! ### What a mix leaves in the maps -/

namespace FactoryRegistrar

variable {P : Platform}

/-- The entry that the registrar makes in the map of the type factories, if it makes one there. -/
def typeEntry : FactoryRegistrar P → Option (String × RegisterTypeToFactory P)
  | .typeToFactory name factory => some (name, factory)
  | _ => none

def serialiserEntry : FactoryRegistrar P → Option (String × SerialiseToROS2Function P)
  | .serialiseToROS2Factory name function => some (name, function)
  | _ => none

def deserialiserEntry : FactoryRegistrar P → Option (String × DeserialiseToXtypeFunction P)
  | .deserialiseToXtypeFactory name function => some (name, function)
  | _ => none

def clientProxyEntry : FactoryRegistrar P → Option (String × RegisterServiceClientToFactory P)
  | .serviceClientToFactory name factory => some (name, factory)
  | _ => none

def serverProxyEntry : FactoryRegistrar P → Option (String × RegisterServiceProviderToFactory P)
  | .serviceProviderToFactory name factory => some (name, factory)
  | _ => none

end FactoryRegistrar

namespace Factory

variable {P : Platform}

/-- A map whose entries the registrars make one by one. -/
theorem map_loadMix {α : Type} (map : Factory P → String → Option α)
    (entry : FactoryRegistrar P → Option (String × α))
    (hentry : ∀ f r, map (f.construct r) = assignAll (map f) (entry r).toList) (f : Factory P)
    (registrars : List (FactoryRegistrar P)) :
    map (f.loadMix registrars) = assignAll (map f) (registrars.filterMap entry) := by
  induction registrars generalizing f with
  | nil => rfl
  | cons r rs ih =>
    have hcons : (r :: rs).filterMap entry = (entry r).toList ++ rs.filterMap entry := by
      cases h : entry r <;> simp [h]
    rw [hcons, assignAll_append, ← hentry f r]
    exact ih (f.construct r)

section LoadMix

variable (f : Factory P) (registrars : List (FactoryRegistrar P))

theorem typeFactories_loadMix : (f.loadMix registrars).typeFactories =
    assignAll f.typeFactories (registrars.filterMap FactoryRegistrar.typeEntry) :=
  map_loadMix Factory.typeFactories _ (fun f r => by cases r <;> rfl) f registrars

theorem serialiserFactories_loadMix : (f.loadMix registrars).serialiserFactories =
    assignAll f.serialiserFactories (registrars.filterMap FactoryRegistrar.serialiserEntry) :=
  map_loadMix Factory.serialiserFactories _ (fun f r => by cases r <;> rfl) f registrars

theorem deserialiserFactories_loadMix : (f.loadMix registrars).deserialiserFactories =
    assignAll f.deserialiserFactories (registrars.filterMap FactoryRegistrar.deserialiserEntry) :=
  map_loadMix Factory.deserialiserFactories _ (fun f r => by cases r <;> rfl) f registrars

theorem clientProxyFactories_loadMix : (f.loadMix registrars).clientProxyFactories =
    assignAll f.clientProxyFactories (registrars.filterMap FactoryRegistrar.clientProxyEntry) :=
  map_loadMix Factory.clientProxyFactories _ (fun f r => by cases r <;> rfl) f registrars

theorem serverProxyFactories_loadMix : (f.loadMix registrars).serverProxyFactories =
    assignAll f.serverProxyFactories (registrars.filterMap FactoryRegistrar.serverProxyEntry) :=
  map_loadMix Factory.serverProxyFactories _ (fun f r => by cases r <;> rfl) f registrars

end LoadMix

end Factory

end Ros2Sh
