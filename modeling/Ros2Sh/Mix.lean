import Mathlib.Data.Set.Insert
import Mathlib.Tactic.Tauto
import Ros2Sh.Lib.Text
import Ros2Sh.SystemHandle.Configure

/-!
# The mixes of the generated interfaces

A mix is the library that the templates generate for one message or one service.  While it is loaded, the
`FactoryRegistrar` objects of the template register what the library defines, under names made of the package, the kind
and the name of the interface: a message under `<package>/msg/<type>`, a service under `<package>/srv/<type>:request`
and `<package>/srv/<type>:response`.

The part of such a name before the colon tells the interface (`libraryName_of_mem_registrars`, `name_injective`), so the
registrations of distinct interfaces never meet, and the Factory depends only on which mixes were loaded
(`loading_order_irrelevant`).
-/

namespace Ros2Sh

open Lib
open SystemHandle (libraryName libraryName_append libraryName_eq_self)

variable {P : Platform}

/-- The name of a package or of a type. -/
structure PlainName where
  text : String
  plain : ∀ c ∈ text.toList, c ≠ '/' ∧ c ≠ ':'

theorem PlainName.plain_of_all {text : String} (h : text.toList.all fun c => c ≠ '/' && c ≠ ':') :
    ∀ c ∈ text.toList, c ≠ '/' ∧ c ≠ ':' := by
  intro c hc
  simpa using List.all_eq_true.mp h c hc

inductive InterfaceKind
  | msg
  | srv
  deriving DecidableEq, Repr

def InterfaceKind.text : InterfaceKind → String
  | msg => "msg"
  | srv => "srv"

/-- What the library of a message defines.  `type` is the structure found in the embedded IDL text; `type()` throws when
the text cannot be parsed. -/
structure MessageLibrary (P : Platform) where
  type : Except String P.Members
  serialise : SerialiseToROS2Function P
  deserialise : DeserialiseToXtypeFunction P

/-- What the library of a service defines. -/
structure ServiceLibrary (P : Platform) where
  requestType : Except String P.Members
  responseType : Except String P.Members
  makeClient : RegisterServiceClientToFactory P
  makeServer : RegisterServiceProviderToFactory P

inductive Library (P : Platform)
  | message (library : MessageLibrary P)
  | service (library : ServiceLibrary P)

/-- A generated interface with its library. -/
structure Interface (P : Platform) where
  package : PlainName
  type : PlainName
  library : Library P

namespace Interface

def kind (i : Interface P) : InterfaceKind :=
  match i.library with
  | .message _ => .msg
  | .service _ => .srv

/-- `msg_type_string` or `srv_type_string`; for a message this is `g_msg_name`. -/
def name (i : Interface P) : String := i.package.text ++ "/" ++ i.kind.text ++ "/" ++ i.type.text

/-- `g_request_name` -/
def requestName (i : Interface P) : String := i.name ++ ":request"

/-- `g_response_name` -/
def responseName (i : Interface P) : String := i.name ++ ":response"

end Interface

/-- `type()`, `request_type()` and `response_type()` set the name of the structure they found. -/
def namedType (name : String) (type : Except String P.Members) : RegisterTypeToFactory P :=
  type.map fun members => some ⟨name, members⟩

/-- The registrars of the template, in order. -/
def Interface.registrars (i : Interface P) : List (FactoryRegistrar P) :=
  match i.library with
  | .message l =>
    [.typeToFactory i.name (namedType i.name l.type), .serialiseToROS2Factory i.name l.serialise,
      .deserialiseToXtypeFactory i.name l.deserialise]
  | .service l =>
    [.typeToFactory i.requestName (namedType i.requestName l.requestType),
      .typeToFactory i.responseName (namedType i.responseName l.responseType),
      .serviceClientToFactory i.responseName l.makeClient, .serviceProviderToFactory i.requestName l.makeServer]

/-- The mixes are loaded in this order. -/
def Factory.loadAll (f : Factory P) (is : List (Interface P)) : Factory P :=
  is.foldl (fun f i => f.loadMix i.registrars) f

/-- No two interfaces have the same package, kind and type. -/
def Distinct (S : Set (Interface P)) : Prop :=
  ∀ i ∈ S, ∀ j ∈ S, i.package.text = j.package.text → i.kind = j.kind → i.type.text = j.type.text → i = j

/-! ### Names -/

section Names

variable {i j : Interface P} {r : FactoryRegistrar P}

theorem colon_not_mem_name (i : Interface P) : ':' ∉ i.name.toList := by
  intro hmem
  simp only [Interface.name, String.toList_append, List.mem_append] at hmem
  rcases hmem with (((hmem | hmem) | hmem) | hmem) | hmem
  · exact (i.package.plain _ hmem).2 rfl
  · exact absurd hmem (by decide)
  · cases hk : i.kind <;> rw [hk] at hmem <;> exact absurd hmem (by decide)
  · exact absurd hmem (by decide)
  · exact (i.type.plain _ hmem).2 rfl

theorem libraryName_requestName (i : Interface P) : libraryName i.requestName = i.name :=
  libraryName_append (colon_not_mem_name i) (show ":request".toList = ':' :: "request".toList from rfl)

theorem libraryName_responseName (i : Interface P) : libraryName i.responseName = i.name :=
  libraryName_append (colon_not_mem_name i) (show ":response".toList = ':' :: "response".toList from rfl)

theorem requestName_ne_responseName (i : Interface P) : i.requestName ≠ i.responseName := by
  intro heq
  have hlist := congrArg String.toList heq
  simp [Interface.requestName, Interface.responseName] at hlist

/-- The name under which a registrar registers. -/
def FactoryRegistrar.name : FactoryRegistrar P → String
  | typeToFactory name _ | serialiseToROS2Factory name _ | deserialiseToXtypeFactory name _
  | serviceClientToFactory name _ | serviceProviderToFactory name _ => name

/-- The interface can be told from every name that its registrars use. -/
theorem libraryName_of_mem_registrars (h : r ∈ i.registrars) : libraryName r.name = i.name := by
  unfold Interface.registrars at h
  split at h
  · have hname := libraryName_eq_self (colon_not_mem_name i)
    simp only [List.mem_cons, List.not_mem_nil, or_false] at h
    rcases h with rfl | rfl | rfl <;> exact hname
  · simp only [List.mem_cons, List.not_mem_nil, or_false] at h
    rcases h with rfl | rfl | rfl | rfl
    · exact libraryName_requestName i
    · exact libraryName_responseName i
    · exact libraryName_responseName i
    · exact libraryName_requestName i

theorem parts_of_name_eq (h : i.name = j.name) :
    i.package.text = j.package.text ∧ i.kind = j.kind ∧ i.type.text = j.type.text := by
  have hslash : ∀ n : PlainName, '/' ∉ n.text.toList := fun n hmem => (n.plain _ hmem).1 rfl
  have hkind : ∀ k : InterfaceKind, '/' ∉ k.text.toList := by
    intro k
    cases k <;> decide
  have hlist : i.package.text.toList ++ '/' :: (i.kind.text.toList ++ '/' :: i.type.text.toList) =
      j.package.text.toList ++ '/' :: (j.kind.text.toList ++ '/' :: j.type.text.toList) := by
    simpa [Interface.name] using congrArg String.toList h
  obtain ⟨hpackage, hrest⟩ := append_cons_inj (hslash _) (hslash _) hlist
  obtain ⟨hk, htype⟩ := append_cons_inj (hkind _) (hkind _) hrest
  refine ⟨String.toList_inj.mp hpackage, ?_, String.toList_inj.mp htype⟩
  have htext := String.toList_inj.mp hk
  cases hi : i.kind <;> cases hj : j.kind <;> rw [hi, hj] at htext <;> first | rfl | exact absurd htext (by decide)

theorem name_injective {S : Set (Interface P)} (hS : Distinct S) (hi : i ∈ S) (hj : j ∈ S) (h : i.name = j.name) :
    i = j := by
  obtain ⟨hpackage, hkind, htype⟩ := parts_of_name_eq h
  exact hS i hi j hj hpackage hkind htype

end Names

/-! ### The entries of several mixes -/

section Entries

variable {α : Type} {S : Set (Interface P)} {is js : List (Interface P)} {i : Interface P} {e : String × α}
  {entry : FactoryRegistrar P → Option (String × α)}

/-- The entries that the mixes make in one of the maps. -/
def entriesOf (entry : FactoryRegistrar P → Option (String × α)) (is : List (Interface P)) : List (String × α) :=
  (is.flatMap Interface.registrars).filterMap entry

theorem mem_entriesOf : e ∈ entriesOf entry is ↔ ∃ i ∈ is, e ∈ i.registrars.filterMap entry := by
  unfold entriesOf
  rw [List.filterMap_flatMap, List.mem_flatMap]

theorem mem_entriesOf_congr (h : ∀ i, i ∈ is ↔ i ∈ js) : e ∈ entriesOf entry is ↔ e ∈ entriesOf entry js := by
  rw [mem_entriesOf, mem_entriesOf]
  exact exists_congr fun i => and_congr_left fun _ => h i

/-- The registrars make their entries under their names, and those of one interface are consistent. -/
structure Separate (entry : FactoryRegistrar P → Option (String × α)) : Prop where
  name : ∀ r e, entry r = some e → e.1 = r.name
  one : ∀ i : Interface P, Consistent (i.registrars.filterMap entry)

theorem separate_type : Separate (FactoryRegistrar.typeEntry (P := P)) where
  name r e h := by
    cases r <;> cases h
    rfl
  one i := by
    have hne := requestName_ne_responseName i
    unfold Interface.registrars
    cases i.library with
    | message l => simp [Consistent, FactoryRegistrar.typeEntry]
    | service l => simp [Consistent, FactoryRegistrar.typeEntry, hne, hne.symm]

theorem separate_serialiser : Separate (FactoryRegistrar.serialiserEntry (P := P)) where
  name r e h := by
    cases r <;> cases h
    rfl
  one i := by
    unfold Interface.registrars
    cases i.library <;> simp [Consistent, FactoryRegistrar.serialiserEntry]

theorem separate_deserialiser : Separate (FactoryRegistrar.deserialiserEntry (P := P)) where
  name r e h := by
    cases r <;> cases h
    rfl
  one i := by
    unfold Interface.registrars
    cases i.library <;> simp [Consistent, FactoryRegistrar.deserialiserEntry]

theorem separate_clientProxy : Separate (FactoryRegistrar.clientProxyEntry (P := P)) where
  name r e h := by
    cases r <;> cases h
    rfl
  one i := by
    unfold Interface.registrars
    cases i.library <;> simp [Consistent, FactoryRegistrar.clientProxyEntry]

theorem separate_serverProxy : Separate (FactoryRegistrar.serverProxyEntry (P := P)) where
  name r e h := by
    cases r <;> cases h
    rfl
  one i := by
    unfold Interface.registrars
    cases i.library <;> simp [Consistent, FactoryRegistrar.serverProxyEntry]

theorem libraryName_of_mem_entries (h : Separate entry) (he : e ∈ i.registrars.filterMap entry) :
    libraryName e.1 = i.name := by
  obtain ⟨r, hr, her⟩ := List.mem_filterMap.mp he
  rw [h.name r e her]
  exact libraryName_of_mem_registrars hr

/-- **The entries of distinct interfaces do not meet**, so they are consistent. -/
theorem consistent_entriesOf (hS : Distinct S) (his : ∀ i ∈ is, i ∈ S) (h : Separate entry) :
    Consistent (entriesOf entry is) := by
  intro e he e' he' hkey
  obtain ⟨i, hi, hei⟩ := mem_entriesOf.mp he
  obtain ⟨j, hj, hej⟩ := mem_entriesOf.mp he'
  have hnames : i.name = j.name := by
    rw [← libraryName_of_mem_entries h hei, ← libraryName_of_mem_entries h hej, hkey]
  obtain rfl := name_injective hS (his i hi) (his j hj) hnames
  exact h.one i e hei e' hej hkey

end Entries

/-! ### The Factory after several mixes -/

namespace Factory

section LoadAll

variable {α : Type} {S : Set (Interface P)} {f : Factory P} {is js : List (Interface P)} {i : Interface P}
  {entry : FactoryRegistrar P → Option (String × α)}

theorem loadAll_eq (f : Factory P) (is : List (Interface P)) :
    f.loadAll is = f.loadMix (is.flatMap Interface.registrars) := by
  induction is generalizing f with
  | nil => rfl
  | cons i is ih =>
    rw [List.flatMap_cons]
    unfold loadMix
    rw [List.foldl_append]
    exact ih (f.loadMix i.registrars)

theorem loadAll_append (f : Factory P) (is js : List (Interface P)) :
    f.loadAll (is ++ js) = (f.loadAll is).loadAll js := List.foldl_append ..

theorem typeFactories_loadAll :
    (f.loadAll is).typeFactories = assignAll f.typeFactories (entriesOf FactoryRegistrar.typeEntry is) := by
  rw [loadAll_eq, typeFactories_loadMix, entriesOf]

theorem serialiserFactories_loadAll : (f.loadAll is).serialiserFactories =
    assignAll f.serialiserFactories (entriesOf FactoryRegistrar.serialiserEntry is) := by
  rw [loadAll_eq, serialiserFactories_loadMix, entriesOf]

theorem deserialiserFactories_loadAll : (f.loadAll is).deserialiserFactories =
    assignAll f.deserialiserFactories (entriesOf FactoryRegistrar.deserialiserEntry is) := by
  rw [loadAll_eq, deserialiserFactories_loadMix, entriesOf]

theorem clientProxyFactories_loadAll : (f.loadAll is).clientProxyFactories =
    assignAll f.clientProxyFactories (entriesOf FactoryRegistrar.clientProxyEntry is) := by
  rw [loadAll_eq, clientProxyFactories_loadMix, entriesOf]

theorem serverProxyFactories_loadAll : (f.loadAll is).serverProxyFactories =
    assignAll f.serverProxyFactories (entriesOf FactoryRegistrar.serverProxyEntry is) := by
  rw [loadAll_eq, serverProxyFactories_loadMix, entriesOf]

theorem assignAll_entriesOf {table : String → Option α} {e : String × α} (hS : Distinct S) (his : ∀ i ∈ is, i ∈ S)
    (h : Separate entry) (hi : i ∈ is) (he : e ∈ i.registrars.filterMap entry) :
    assignAll table (entriesOf entry is) e.1 = some e.2 :=
  assignAll_of_mem (consistent_entriesOf hS his h) (mem_entriesOf.mpr ⟨i, hi, he⟩)

theorem assignAll_entriesOf_congr {table : String → Option α} (hS : Distinct S) (his : ∀ i ∈ is, i ∈ S)
    (h : Separate entry) (hmem : ∀ i, i ∈ is ↔ i ∈ js) :
    assignAll table (entriesOf entry is) = assignAll table (entriesOf entry js) :=
  assignAll_congr (consistent_entriesOf hS his h) fun _ => mem_entriesOf_congr hmem

/-- Loading the same interfaces, in any order and with any repetitions, leaves the same Factory. -/
theorem loadAll_congr (f : Factory P) (hS : Distinct S) (his : ∀ i ∈ is, i ∈ S) (hmem : ∀ i, i ∈ is ↔ i ∈ js) :
    f.loadAll is = f.loadAll js := by
  have htypes : (f.loadAll is).typeFactories = (f.loadAll js).typeFactories := by
    rw [typeFactories_loadAll, typeFactories_loadAll, assignAll_entriesOf_congr hS his separate_type hmem]
  have hclients : (f.loadAll is).clientProxyFactories = (f.loadAll js).clientProxyFactories := by
    rw [clientProxyFactories_loadAll, clientProxyFactories_loadAll,
      assignAll_entriesOf_congr hS his separate_clientProxy hmem]
  have hservers : (f.loadAll is).serverProxyFactories = (f.loadAll js).serverProxyFactories := by
    rw [serverProxyFactories_loadAll, serverProxyFactories_loadAll,
      assignAll_entriesOf_congr hS his separate_serverProxy hmem]
  have hserialisers : (f.loadAll is).serialiserFactories = (f.loadAll js).serialiserFactories := by
    rw [serialiserFactories_loadAll, serialiserFactories_loadAll,
      assignAll_entriesOf_congr hS his separate_serialiser hmem]
  have hdeserialisers : (f.loadAll is).deserialiserFactories = (f.loadAll js).deserialiserFactories := by
    rw [deserialiserFactories_loadAll, deserialiserFactories_loadAll,
      assignAll_entriesOf_congr hS his separate_deserialiser hmem]
  cases hf : f.loadAll is
  cases hg : f.loadAll js
  simp only [hf, hg] at htypes hclients hservers hserialisers hdeserialisers
  rw [htypes, hclients, hservers, hserialisers, hdeserialisers]

end LoadAll

/-- The function that the pointer from `get_serialise_function` points to. -/
def serialiseFunction (f : Factory P) (type : DynamicType P) : Option (SerialiseToROS2Function P) :=
  (f.getSerialiseFunction type).bind f.serialiserFactories

/-- The function that the pointer from `get_deserialise_function` points to. -/
def deserialiseFunction (f : Factory P) (type : DynamicType P) : Option (DeserialiseToXtypeFunction P) :=
  (f.getDeserialiseFunction type).bind f.deserialiserFactories

theorem serialiseFunction_eq (f : Factory P) (type : DynamicType P) :
    f.serialiseFunction type = f.serialiserFactories type.name := by
  cases h : f.serialiserFactories type.name <;> simp [serialiseFunction, getSerialiseFunction, addressOf, h]

theorem deserialiseFunction_eq (f : Factory P) (type : DynamicType P) :
    f.deserialiseFunction type = f.deserialiserFactories type.name := by
  cases h : f.deserialiserFactories type.name <;> simp [deserialiseFunction, getDeserialiseFunction, addressOf, h]

/-- Two Factories answer every lookup alike. -/
structure SameAnswers (f g : Factory P) : Prop where
  createType : ∀ name, f.createType name = g.createType name
  serialise : ∀ type, f.serialiseFunction type = g.serialiseFunction type
  deserialise : ∀ type, f.deserialiseFunction type = g.deserialiseFunction type
  clientProxy : ∀ name serviceName callback qos,
    f.createClientProxy name serviceName callback qos = g.createClientProxy name serviceName callback qos
  serverProxy : ∀ name serviceName qos,
    f.createServerProxy name serviceName qos = g.createServerProxy name serviceName qos

/-- The lookups of the names of the interface are answered by its own library. -/
def Owns (f : Factory P) (i : Interface P) : Prop :=
  match i.library with
  | .message l =>
    f.createType i.name = namedType i.name l.type ∧
      ∀ type, type.name = i.name →
        f.serialiseFunction type = some l.serialise ∧ f.deserialiseFunction type = some l.deserialise
  | .service l =>
    f.createType i.requestName = namedType i.requestName l.requestType ∧
      f.createType i.responseName = namedType i.responseName l.responseType ∧
        (∀ serviceName callback qos,
          f.createClientProxy i.responseName serviceName callback qos = l.makeClient serviceName callback qos) ∧
          ∀ serviceName qos, f.createServerProxy i.requestName serviceName qos = l.makeServer serviceName qos

section Owns

variable {S : Set (Interface P)} {f : Factory P} {is js : List (Interface P)} {i : Interface P} {name : String}
  {type : RegisterTypeToFactory P}

theorem createType_of_entry (hS : Distinct S) (his : ∀ i ∈ is, i ∈ S) (hi : i ∈ is)
    (he : (name, type) ∈ i.registrars.filterMap FactoryRegistrar.typeEntry) :
    (f.loadAll is).createType name = type := by
  unfold createType
  rw [typeFactories_loadAll, assignAll_entriesOf hS his separate_type hi he]

theorem serialiserFactories_of_mem {l : MessageLibrary P} (hS : Distinct S) (his : ∀ i ∈ is, i ∈ S) (hi : i ∈ is)
    (hl : i.library = .message l) : (f.loadAll is).serialiserFactories i.name = some l.serialise := by
  have he : (i.name, l.serialise) ∈ i.registrars.filterMap FactoryRegistrar.serialiserEntry := by
    simp [Interface.registrars, hl, FactoryRegistrar.serialiserEntry]
  rw [serialiserFactories_loadAll]
  exact assignAll_entriesOf hS his separate_serialiser hi he

theorem deserialiserFactories_of_mem {l : MessageLibrary P} (hS : Distinct S) (his : ∀ i ∈ is, i ∈ S) (hi : i ∈ is)
    (hl : i.library = .message l) : (f.loadAll is).deserialiserFactories i.name = some l.deserialise := by
  have he : (i.name, l.deserialise) ∈ i.registrars.filterMap FactoryRegistrar.deserialiserEntry := by
    simp [Interface.registrars, hl, FactoryRegistrar.deserialiserEntry]
  rw [deserialiserFactories_loadAll]
  exact assignAll_entriesOf hS his separate_deserialiser hi he

theorem clientProxyFactories_of_mem {l : ServiceLibrary P} (hS : Distinct S) (his : ∀ i ∈ is, i ∈ S) (hi : i ∈ is)
    (hl : i.library = .service l) : (f.loadAll is).clientProxyFactories i.responseName = some l.makeClient := by
  have he : (i.responseName, l.makeClient) ∈ i.registrars.filterMap FactoryRegistrar.clientProxyEntry := by
    simp [Interface.registrars, hl, FactoryRegistrar.clientProxyEntry]
  rw [clientProxyFactories_loadAll]
  exact assignAll_entriesOf hS his separate_clientProxy hi he

theorem serverProxyFactories_of_mem {l : ServiceLibrary P} (hS : Distinct S) (his : ∀ i ∈ is, i ∈ S) (hi : i ∈ is)
    (hl : i.library = .service l) : (f.loadAll is).serverProxyFactories i.requestName = some l.makeServer := by
  have he : (i.requestName, l.makeServer) ∈ i.registrars.filterMap FactoryRegistrar.serverProxyEntry := by
    simp [Interface.registrars, hl, FactoryRegistrar.serverProxyEntry]
  rw [serverProxyFactories_loadAll]
  exact assignAll_entriesOf hS his separate_serverProxy hi he

/-- **The interfaces that were loaded own their names**, whatever else was loaded, before or after. -/
theorem owns_of_mem (hS : Distinct S) (his : ∀ i ∈ is, i ∈ S) (hi : i ∈ is) : (f.loadAll is).Owns i := by
  unfold Owns
  cases hl : i.library with
  | message l =>
    refine ⟨createType_of_entry hS his hi ?_, fun t ht => ⟨?_, ?_⟩⟩
    · simp [Interface.registrars, hl, FactoryRegistrar.typeEntry]
    · rw [serialiseFunction_eq, ht, serialiserFactories_of_mem hS his hi hl]
    · rw [deserialiseFunction_eq, ht, deserialiserFactories_of_mem hS his hi hl]
  | service l =>
    refine ⟨createType_of_entry hS his hi ?_, createType_of_entry hS his hi ?_, ?_, ?_⟩
    · simp [Interface.registrars, hl, FactoryRegistrar.typeEntry]
    · simp [Interface.registrars, hl, FactoryRegistrar.typeEntry]
    · intro serviceName callback qos
      unfold createClientProxy
      rw [clientProxyFactories_of_mem hS his hi hl]
    · intro serviceName qos
      unfold createServerProxy
      rw [serverProxyFactories_of_mem hS his hi hl]

theorem SameAnswers.refl (f : Factory P) : f.SameAnswers f :=
  ⟨fun _ => rfl, fun _ => rfl, fun _ => rfl, fun _ _ _ _ => rfl, fun _ _ _ => rfl⟩

/-- **Loading mixes** in any order, with any repetitions, answers every lookup alike, and each name is answered by the
interface that owns it. -/
theorem loading_order_irrelevant (S : Set (Interface P)) (hS : Distinct S) (f : Factory P)
    (is js : List (Interface P)) (his : ∀ i, i ∈ is ↔ i ∈ S) (hjs : ∀ i, i ∈ js ↔ i ∈ S) :
    (f.loadAll is).SameAnswers (f.loadAll js) ∧ ∀ i ∈ S, (f.loadAll is).Owns i ∧ (f.loadAll js).Owns i := by
  have hi : ∀ i ∈ is, i ∈ S := fun i => (his i).mp
  have hj : ∀ i ∈ js, i ∈ S := fun i => (hjs i).mp
  constructor
  · rw [loadAll_congr f hS hi fun i => (his i).trans (hjs i).symm]
    exact SameAnswers.refl _
  · intro i hmem
    exact ⟨owns_of_mem hS hi ((his i).mpr hmem), owns_of_mem hS hj ((hjs i).mpr hmem)⟩

end Owns

end Factory

/-- The mix of `std_msgs/msg/Int32`. -/
def int32Interface : Interface Platform.plain where
  package := ⟨"std_msgs", PlainName.plain_of_all (by decide)⟩
  type := ⟨"Int32", PlainName.plain_of_all (by decide)⟩
  library := .message ⟨.ok (), fun data _ => .ok data, fun serialised _ => .ok serialised⟩

/-- The mix of `std_srvs/srv/Empty`. -/
def emptyInterface : Interface Platform.plain where
  package := ⟨"std_srvs", PlainName.plain_of_all (by decide)⟩
  type := ⟨"Empty", PlainName.plain_of_all (by decide)⟩
  library := .service ⟨.ok (), .ok (), fun _ _ _ => some (), fun _ _ => some ()⟩

theorem distinct_int32_empty : Distinct {int32Interface, emptyInterface} := by
  rintro i (rfl | rfl) j (rfl | rfl) hpackage hkind htype
  · rfl
  · exact absurd hpackage (by decide)
  · exact absurd hpackage (by decide)
  · rfl

theorem loading_order_irrelevant_int32_empty :
    (Factory.empty.loadAll [int32Interface, emptyInterface]).SameAnswers
        (Factory.empty.loadAll [emptyInterface, int32Interface, emptyInterface]) ∧
      ∀ i ∈ ({int32Interface, emptyInterface} : Set (Interface Platform.plain)),
        (Factory.empty.loadAll [int32Interface, emptyInterface]).Owns i ∧
          (Factory.empty.loadAll [emptyInterface, int32Interface, emptyInterface]).Owns i := by
  refine Factory.loading_order_irrelevant _ distinct_int32_empty .empty _ _ (by simp) fun i => ?_
  simp only [List.mem_cons, List.not_mem_nil, or_false, Set.mem_insert_iff, Set.mem_singleton_iff]
  tauto

end Ros2Sh
