import Ros2Sh.Mix
import Ros2Sh.SystemHandle.Registry

/-!
# The proxies of services

`create_client_proxy` and `create_service_proxy` look the name of a service type up in the Factory.  The core hands them
the types that `configure` put into its registry: the request type and the response type of a service.  The overload for
clients passes the response type on, the one for servers the request type, which are the names under which the service
template registers `make_client` and `make_server`.

A process loads mixes and configures handles in any order.  A type that `create_type` returned is found under its own
name, and every later Factory answers for it with the library of the interface that owns the name;
so do the two overloads, for the types that `configure` registered (`lookups_agree`).
-/

namespace Ros2Sh.SystemHandle

open Ros2Sh.Lib Ros2Sh.Lib.Yaml

variable {P : Platform}

/-! ### The functions -/

/-- `SystemHandle::create_client_proxy`, with the proxies that the handle keeps. -/
def createClientProxy (y : Conversions) (f : Factory P) (clientProxies : List P.ServiceClient) (serviceName : String)
    (serviceType : DynamicType P) (callback : P.RequestCallback) (configuration : Node) :
    Except Error (Bool × List P.ServiceClient) := do
  let qosProfile ← parseRmwQosConfiguration y (← configuration.index "qos")
  match f.createClientProxy serviceType.name serviceName callback qosProfile with
  | none => return (false, clientProxies)
  | some clientProxy => return (true, clientProxies ++ [clientProxy])

/-- The overload for a service with two types. -/
def createClientProxyOfTypes (y : Conversions) (f : Factory P) (clientProxies : List P.ServiceClient)
    (serviceName : String) (_requestType replyType : DynamicType P) (callback : P.RequestCallback)
    (configuration : Node) : Except Error (Bool × List P.ServiceClient) :=
  createClientProxy y f clientProxies serviceName replyType callback configuration

/-- `SystemHandle::create_service_proxy`. -/
def createServiceProxy (y : Conversions) (f : Factory P) (serviceName : String) (serviceType : DynamicType P)
    (configuration : Node) : Except Error (Option P.ServiceProvider) := do
  let qosProfile ← parseRmwQosConfiguration y (← configuration.index "qos")
  return f.createServerProxy serviceType.name serviceName qosProfile

/-- The overload for a service with two types. -/
def createServiceProxyOfTypes (y : Conversions) (f : Factory P) (serviceName : String)
    (requestType _replyType : DynamicType P) (configuration : Node) : Except Error (Option P.ServiceProvider) :=
  createServiceProxy y f serviceName requestType configuration

/-- The Factory of the process and the type registry of the core. -/
structure Process (P : Platform) where
  factory : Factory P
  registry : String → Option (DynamicType P)

inductive Event (P : Platform)
  | load (i : Interface P)
  | configure (c : Core P) (types : RequiredTypes)

/-- What `configure` leaves, also when it throws. -/
def left : Except (Thrown P) (Progress P) → Progress P
  | .ok s => s
  | .error e => e.progress

namespace Process

def step (p : Process P) : Event P → Process P
  | .load i => { p with factory := p.factory.loadMix i.registrars }
  | .configure c types =>
    let s := left (SystemHandle.configure c types p.factory p.registry)
    ⟨s.factory, s.registry⟩

def run (p : Process P) (es : List (Event P)) : Process P := es.foldl step p

/-- A process that starts with types in its registry. -/
def initial (prior : String → Option (DynamicType P)) : Process P := ⟨.empty, prior⟩

end Process

/-- Only mixes of the interfaces in `S` are loaded. -/
def Event.LoadsOnly (S : Set (Interface P)) : Event P → Prop
  | .load i => i ∈ S
  | .configure c _ => ∀ path f, ∃ is : List (Interface P), (∀ i ∈ is, i ∈ S) ∧ (c.load path f).2 = f.loadAll is

/-! ### The right answers -/

/-- A type that has the name asked for is answered with the library of the interface: a message with its two
conversions, the request type of a service with its server, and the response type with its client. -/
def AnsweredBy (f : Factory P) (i : Interface P) (name : String) (type : DynamicType P) : Prop :=
  match i.library with
  | .message l =>
    name = i.name → f.serialiseFunction type = some l.serialise ∧ f.deserialiseFunction type = some l.deserialise
  | .service l =>
    (name = i.requestName → f.serverProxyFactories type.name = some l.makeServer) ∧
      (name = i.responseName → f.clientProxyFactories type.name = some l.makeClient)

/-- What `create_client_proxy` returns and keeps of the proxy it got. -/
def kept (clientProxies : List P.ServiceClient) : Option P.ServiceClient → Bool × List P.ServiceClient
  | none => (false, clientProxies)
  | some clientProxy => (true, clientProxies ++ [clientProxy])

/-- The overloads make the proxies of the service. -/
structure MakesProxies (f : Factory P) (l : ServiceLibrary P) (requestType replyType : DynamicType P) : Prop where
  client : ∀ y clientProxies serviceName callback configuration,
    createClientProxyOfTypes y f clientProxies serviceName requestType replyType callback configuration =
      (configuration.index "qos" >>= parseRmwQosConfiguration y).map fun qos =>
        kept clientProxies (l.makeClient serviceName callback qos)
  server : ∀ y serviceName configuration,
    createServiceProxyOfTypes y f serviceName requestType replyType configuration =
      (configuration.index "qos" >>= parseRmwQosConfiguration y).map fun qos => l.makeServer serviceName qos

/-- Every type that the earlier Factory creates has the name it was asked for, and the later one answers for it. -/
def TypesAnswered (S : Set (Interface P)) (earlier later : Factory P) : Prop :=
  ∀ name type, earlier.createType name = .ok (some type) → type.name = name ∧ ∀ i ∈ S, AnsweredBy later i name type

/-- The types of a service that came into the registry after `prior` make its proxies. -/
def ProxiesFound (S : Set (Interface P)) (prior registry : String → Option (DynamicType P)) (later : Factory P) :
    Prop :=
  ∀ i ∈ S, ∀ l, i.library = .service l → prior i.requestName = none → prior i.responseName = none →
    ∀ requestType replyType, registry i.requestName = some requestType → registry i.responseName = some replyType →
      MakesProxies later l requestType replyType

section Types

variable {S : Set (Interface P)} {f : Factory P} {is js : List (Interface P)} {i j : Interface P} {name : String}
  {type : DynamicType P}

theorem exists_entry_of_createType (h : (Factory.empty.loadAll is).createType name = .ok (some type)) :
    ∃ i ∈ is, (name, .ok (some type)) ∈ i.registrars.filterMap FactoryRegistrar.typeEntry := by
  rw [createType_eq, Factory.typeFactories_loadAll] at h
  cases hfactory : assignAll (Factory.empty (P := P)).typeFactories (entriesOf FactoryRegistrar.typeEntry is) name with
  | none =>
    rw [hfactory] at h
    cases h
  | some factory =>
    rw [hfactory] at h
    obtain rfl : factory = .ok (some type) := h
    rcases mem_or_of_assignAll hfactory with hmem | hempty
    · exact mem_entriesOf.mp hmem
    · cases hempty

theorem name_of_namedType {members : Except String P.Members} (h : namedType name members = .ok (some type)) :
    type.name = name := by
  obtain ⟨m, -, hm⟩ := map_eq_ok.mp h
  obtain rfl := Option.some.inj hm
  rfl

/-- The template sets the name of a type to the name under which it registers the type. -/
theorem name_of_entry (h : (name, .ok (some type)) ∈ i.registrars.filterMap FactoryRegistrar.typeEntry) :
    type.name = name := by
  obtain ⟨r, hr, he⟩ := List.mem_filterMap.mp h
  cases r with
  | typeToFactory n factory =>
    obtain ⟨rfl, rfl⟩ := Prod.mk.inj (Option.some.inj he)
    unfold Interface.registrars at hr
    cases hl : i.library with
    | message l =>
      simp only [hl, List.mem_cons, List.not_mem_nil, or_false, FactoryRegistrar.typeToFactory.injEq, reduceCtorEq]
        at hr
      obtain ⟨rfl, htype⟩ := hr
      exact name_of_namedType htype.symm
    | service l =>
      simp only [hl, List.mem_cons, List.not_mem_nil, or_false, FactoryRegistrar.typeToFactory.injEq, reduceCtorEq]
        at hr
      rcases hr with ⟨rfl, htype⟩ | ⟨rfl, htype⟩
      · exact name_of_namedType htype.symm
      · exact name_of_namedType htype.symm
  | serialiseToROS2Factory n function => cases he
  | deserialiseToXtypeFactory n function => cases he
  | serviceClientToFactory n factory => cases he
  | serviceProviderToFactory n factory => cases he

/-- A type that was created once is created again, whatever else is loaded. -/
theorem createType_loadAll (hS : Distinct S) (his : ∀ i ∈ is, i ∈ S) (hjs : ∀ j ∈ js, j ∈ S)
    (h : (Factory.empty.loadAll is).createType name = .ok (some type)) :
    ((Factory.empty.loadAll is).loadAll js).createType name = .ok (some type) := by
  obtain ⟨i, hi, he⟩ := exists_entry_of_createType h
  have hall : ∀ k ∈ is ++ js, k ∈ S := List.forall_mem_append.mpr ⟨his, hjs⟩
  rw [← Factory.loadAll_append]
  exact Factory.createType_of_entry hS hall (List.mem_append_left _ hi) he

theorem answeredBy_of_mem (hS : Distinct S) (his : ∀ i ∈ is, i ∈ S) (hi : i ∈ is) (htype : type.name = name) :
    AnsweredBy (f.loadAll is) i name type := by
  unfold AnsweredBy
  cases hl : i.library with
  | message l =>
    intro hname
    constructor
    · rw [Factory.serialiseFunction_eq, htype, hname, Factory.serialiserFactories_of_mem hS his hi hl]
    · rw [Factory.deserialiseFunction_eq, htype, hname, Factory.deserialiserFactories_of_mem hS his hi hl]
  | service l =>
    constructor
    · intro hname
      rw [htype, hname, Factory.serverProxyFactories_of_mem hS his hi hl]
    · intro hname
      rw [htype, hname, Factory.clientProxyFactories_of_mem hS his hi hl]

theorem answeredBy_of_ne (h : libraryName name ≠ i.name) : AnsweredBy f i name type := by
  unfold AnsweredBy
  cases i.library with
  | message l =>
    rintro rfl
    exact absurd (libraryName_eq_self (colon_not_mem_name i)) h
  | service l =>
    constructor
    · rintro rfl
      exact absurd (libraryName_requestName i) h
    · rintro rfl
      exact absurd (libraryName_responseName i) h

/-- **The types of the mixes** that are loaded are answered rightly, also when further mixes are loaded. -/
theorem typesAnswered_loadAll (hS : Distinct S) (his : ∀ i ∈ is, i ∈ S) (hjs : ∀ j ∈ js, j ∈ S) :
    TypesAnswered S (Factory.empty.loadAll is) ((Factory.empty.loadAll is).loadAll js) := by
  intro name type h
  obtain ⟨j, hj, he⟩ := exists_entry_of_createType h
  have htype := name_of_entry he
  have hall : ∀ k ∈ is ++ js, k ∈ S := List.forall_mem_append.mpr ⟨his, hjs⟩
  refine ⟨htype, fun i hi => ?_⟩
  by_cases hname : libraryName name = i.name
  · have hnames : j.name = i.name := by
      rw [← libraryName_of_mem_entries separate_type he, hname]
    obtain rfl := name_injective hS (his j hj) hi hnames
    rw [← Factory.loadAll_append]
    exact answeredBy_of_mem hS hall (List.mem_append_left _ hj) htype
  · exact answeredBy_of_ne hname

end Types

/-! ### What a process loads -/

section Loads

variable {S : Set (Interface P)} {f g k : Factory P} {i : Interface P} {l : ServiceLibrary P}
  {requestType replyType : DynamicType P}

/-- From `f` to `g`, mixes of interfaces in `S` were loaded. -/
def Grows (S : Set (Interface P)) (f g : Factory P) : Prop :=
  ∃ is : List (Interface P), (∀ i ∈ is, i ∈ S) ∧ g = f.loadAll is

theorem Grows.refl (f : Factory P) : Grows S f f := ⟨[], nofun, rfl⟩

theorem Grows.trans (h : Grows S f g) (h' : Grows S g k) : Grows S f k := by
  obtain ⟨is, his, rfl⟩ := h
  obtain ⟨js, hjs, rfl⟩ := h'
  exact ⟨is ++ js, List.forall_mem_append.mpr ⟨his, hjs⟩, (Factory.loadAll_append f is js).symm⟩

theorem typesAnswered_of_grows (hS : Distinct S) (h : Grows S .empty f) (h' : Grows S f g) :
    TypesAnswered S f g := by
  obtain ⟨is, his, rfl⟩ := h
  obtain ⟨js, hjs, rfl⟩ := h'
  exact typesAnswered_loadAll hS his hjs

theorem createType_of_grows {name : String} {type : DynamicType P} (hS : Distinct S) (h : Grows S .empty f)
    (h' : Grows S f g) (hcreate : f.createType name = .ok (some type)) : g.createType name = .ok (some type) := by
  obtain ⟨is, his, rfl⟩ := h
  obtain ⟨js, hjs, rfl⟩ := h'
  exact createType_loadAll hS his hjs hcreate

/-- The overloads pass on the types under whose names the proxies are registered. -/
theorem makesProxies_of_lookup (hserver : f.serverProxyFactories requestType.name = some l.makeServer)
    (hclient : f.clientProxyFactories replyType.name = some l.makeClient) :
    MakesProxies f l requestType replyType where
  client y clientProxies serviceName callback configuration := by
    unfold createClientProxyOfTypes createClientProxy Factory.createClientProxy
    cases hnode : configuration.index "qos" with
    | error e => rfl
    | ok node =>
      simp only [bind, Except.bind, hclient]
      cases parseRmwQosConfiguration y node with
      | error e => rfl
      | ok qos =>
        show (match l.makeClient serviceName callback qos with
          | none => pure (false, clientProxies)
          | some clientProxy => pure (true, clientProxies ++ [clientProxy])) =
            Except.ok (kept clientProxies (l.makeClient serviceName callback qos))
        cases l.makeClient serviceName callback qos <;> rfl
  server y serviceName configuration := by
    unfold createServiceProxyOfTypes createServiceProxy Factory.createServerProxy
    cases hnode : configuration.index "qos" with
    | error e => rfl
    | ok node =>
      simp only [bind, Except.bind, hserver]
      cases parseRmwQosConfiguration y node <;> rfl

end Loads

/-! ### The run of a process -/

section Process

variable {S : Set (Interface P)} {prior : String → Option (DynamicType P)} {p : Process P} {e : Event P}
  {es : List (Event P)} {f : Factory P} {c : Core P} {types : RequiredTypes} {s t : Progress P} {a : Required}

/-- The invariant: the mixes loaded are those of interfaces in `S`, and a type that came into the registry is one that
the Factory creates. -/
structure Loaded (S : Set (Interface P)) (prior : String → Option (DynamicType P)) (p : Process P) : Prop where
  loaded : Grows S .empty p.factory
  registry : ∀ name type, prior name = none → p.registry name = some type →
    p.factory.createType name = .ok (some type)

theorem loaded_initial (S : Set (Interface P)) (prior : String → Option (DynamicType P)) :
    Loaded S prior (Process.initial prior) where
  loaded := Grows.refl _
  registry name type hprior h := by
    have hnone : prior name = some type := h
    rw [hprior] at hnone
    cases hnone

theorem Loaded.grows (hS : Distinct S) (h : Loaded S prior p) (hg : Grows S p.factory f) :
    Loaded S prior { p with factory := f } where
  loaded := h.loaded.trans hg
  registry name type hprior hreg := createType_of_grows hS h.loaded hg (h.registry name type hprior hreg)

theorem grows_loadedFactory (hc : (Event.configure c types).LoadsOnly S) : Grows S f (loadedFactory c f a) := by
  unfold loadedFactory
  split
  · exact Grows.refl f
  · exact hc a.mixPath f

/-- What a turn creates, the Factory that it leaves creates too. -/
theorem createType_of_created {type : DynamicType P} (h : created c f a = .ok (some type)) :
    (loadedFactory c f a).createType a.typeName = .ok (some type) := by
  unfold created at h
  unfold loadedFactory
  by_cases hpath : a.mixPath = ""
  · rw [if_pos hpath] at h
    cases h
  · rw [if_neg hpath] at h ⊢
    split at h
    · exact h
    · cases h

theorem loaded_requireType (hS : Distinct S) (hc : (Event.configure c types).LoadsOnly S)
    (h : Loaded S prior ⟨s.factory, s.registry⟩) (ht : requireType c s a = .ok t) :
    Grows S s.factory t.factory ∧ Loaded S prior ⟨t.factory, t.registry⟩ := by
  obtain ⟨type, hcreated, hfactory, hregistry⟩ := requireType_ok ht
  have hgrows : Grows S s.factory t.factory := hfactory ▸ grows_loadedFactory hc
  refine ⟨hgrows, (h.grows hS hgrows).loaded, fun name type' hprior hreg => ?_⟩
  change t.registry name = some type' at hreg
  rw [hregistry, Option.or_eq_some_iff] at hreg
  rcases hreg with hold | ⟨-, hnew⟩
  · exact (h.grows hS hgrows).registry name type' hprior hold
  · split at hnew
    · rename_i hname
      subst hname hnew
      change t.factory.createType a.typeName = _
      rw [hfactory]
      exact createType_of_created hcreated
    · cases hnew

theorem loaded_requireType_thrown {e : Thrown P} (hS : Distinct S) (hc : (Event.configure c types).LoadsOnly S)
    (h : Loaded S prior ⟨s.factory, s.registry⟩) (ht : requireType c s a = .error e) :
    Grows S s.factory e.progress.factory ∧ Loaded S prior ⟨e.progress.factory, e.progress.registry⟩ := by
  rcases requireType_eq c s a with ⟨what, -, herror⟩ | ⟨type, -, hok⟩
  · rw [herror] at ht
    obtain rfl := Except.error.inj ht
    have hgrows : Grows S s.factory (loadedFactory c s.factory a) := grows_loadedFactory hc
    exact ⟨hgrows, h.grows hS hgrows⟩
  · rw [hok] at ht
    cases ht

theorem loaded_step (hS : Distinct S) (he : e.LoadsOnly S) (h : Loaded S prior p) :
    Grows S p.factory (p.step e).factory ∧ Loaded S prior (p.step e) := by
  cases e with
  | load i =>
    have hgrows : Grows S p.factory (p.factory.loadMix i.registrars) :=
      ⟨[i], fun j hj => List.mem_singleton.mp hj ▸ he, rfl⟩
    exact ⟨hgrows, h.grows hS hgrows⟩
  | configure c types =>
    let I : Progress P → Prop := fun s => Grows S p.factory s.factory ∧ Loaded S prior ⟨s.factory, s.registry⟩
    have h0 : I ⟨true, p.factory, p.registry⟩ := ⟨Grows.refl _, h⟩
    have hturn : ∀ s, ∀ a ∈ required c types, ∀ t, I s → requireType c s a = .ok t → I t := by
      intro s a _ t hI ht
      obtain ⟨hgrows, hsound⟩ := loaded_requireType hS he hI.2 ht
      exact ⟨hI.1.trans hgrows, hsound⟩
    have hthrow : ∀ s, ∀ a ∈ required c types, ∀ e, I s → requireType c s a = .error e → I e.progress := by
      intro s a _ e hI ht
      obtain ⟨hgrows, hsound⟩ := loaded_requireType_thrown hS he hI.2 ht
      exact ⟨hI.1.trans hgrows, hsound⟩
    show I (left (configure c types p.factory p.registry))
    rw [configure_eq]
    cases hloop : (required c types).foldlM (requireType c) ⟨true, p.factory, p.registry⟩ with
    | ok t => exact foldlM_inv hturn h0 hloop
    | error e => exact foldlM_inv_error (J := fun e => I e.progress) hturn hthrow h0 hloop

theorem loaded_run (hS : Distinct S) (hes : ∀ e ∈ es, e.LoadsOnly S) (h : Loaded S prior p) :
    Grows S p.factory (p.run es).factory ∧ Loaded S prior (p.run es) := by
  induction es generalizing p with
  | nil => exact ⟨Grows.refl _, h⟩
  | cons e es ih =>
    obtain ⟨hgrows, hsound⟩ := loaded_step hS (hes e (List.mem_cons_self ..)) h
    obtain ⟨hgrows', hsound'⟩ := ih (fun e' he' => hes e' (List.mem_cons_of_mem _ he')) hsound
    exact ⟨hgrows.trans hgrows', hsound'⟩

/-- **Registrations and lookups agree.**  What `create_type` returned, and what `configure` put into the registry, is
answered with the library of the interface that owns the name, in every later state. -/
theorem lookups_agree (S : Set (Interface P)) (hS : Distinct S) (prior : String → Option (DynamicType P))
    (es es' : List (Event P)) (hes : ∀ e ∈ es ++ es', e.LoadsOnly S) :
    TypesAnswered S ((Process.initial prior).run es).factory ((Process.initial prior).run (es ++ es')).factory ∧
      ProxiesFound S prior ((Process.initial prior).run es).registry
        ((Process.initial prior).run (es ++ es')).factory := by
  obtain ⟨hbefore, hafter⟩ := List.forall_mem_append.mp hes
  have hrun : (Process.initial prior).run (es ++ es') = ((Process.initial prior).run es).run es' :=
    List.foldl_append ..
  obtain ⟨-, hsound⟩ := loaded_run hS hbefore (loaded_initial S prior)
  obtain ⟨hgrows, -⟩ := loaded_run hS hafter hsound
  have htypes := typesAnswered_of_grows hS hsound.loaded hgrows
  rw [hrun]
  refine ⟨htypes, fun i hi l hl hrequest hresponse requestType replyType hrequest' hresponse' => ?_⟩
  obtain ⟨-, hserver⟩ := htypes _ _ (hsound.registry _ _ hrequest hrequest')
  obtain ⟨-, hclient⟩ := htypes _ _ (hsound.registry _ _ hresponse hresponse')
  have hserver' := hserver i hi
  have hclient' := hclient i hi
  unfold AnsweredBy at hserver' hclient'
  rw [hl] at hserver' hclient'
  exact makesProxies_of_lookup (hserver'.1 rfl) (hclient'.2 rfl)

end Process

/-- A core library that finds the mix of `std_srvs/srv/Empty`. -/
def emptyServiceCore : Core Platform.plain where
  findMessageMix _ := ""
  findServiceMix library := if library = "std_srvs/srv/Empty" then "std_srvs__Empty.mix" else ""
  load _ f := (true, f.loadAll [emptyInterface])

def emptyServiceTypes : RequiredTypes := ⟨[], ["std_srvs/srv/Empty:request", "std_srvs/srv/Empty:response"]⟩

/-- A handle is configured for the service, and then the mix of a message is loaded. -/
theorem lookups_agree_empty_service :
    TypesAnswered {int32Interface, emptyInterface}
        ((Process.initial fun _ => none).run [.configure emptyServiceCore emptyServiceTypes]).factory
        ((Process.initial fun _ => none).run
          [.configure emptyServiceCore emptyServiceTypes, .load int32Interface]).factory ∧
      ProxiesFound {int32Interface, emptyInterface} (fun _ => none)
        ((Process.initial fun _ => none).run [.configure emptyServiceCore emptyServiceTypes]).registry
        ((Process.initial fun _ => none).run
          [.configure emptyServiceCore emptyServiceTypes, .load int32Interface]).factory := by
  refine lookups_agree {int32Interface, emptyInterface} distinct_int32_empty (fun _ => none)
    [.configure emptyServiceCore emptyServiceTypes] [.load int32Interface] fun e he => ?_
  rcases List.mem_cons.mp he with rfl | he
  · intro path f
    exact ⟨[emptyInterface], fun i hi => .inr (List.mem_singleton.mp hi), rfl⟩
  · obtain rfl := List.mem_singleton.mp he
    exact .inl rfl

end Ros2Sh.SystemHandle
