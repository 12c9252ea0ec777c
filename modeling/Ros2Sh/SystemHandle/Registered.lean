import Ros2Sh.SystemHandle.Endpoints
import Ros2Sh.SystemHandle.Proxies

/-!
# Endpoints for registered types

The core makes the endpoints of the handles for types that it finds in its type registry, under the names of messages.
Some of the types were there before, from other middlewares; the others are registered by `configure`.  Handles are
configured, mixes loaded, endpoints made and messages passed on in any order.

`configure` may return false, or true although a type failed, or throw.  Whatever it does, a type that it has registered
comes with its conversions, and endpoints can be made for it at any later time.  So a null pointer can only be called
for a type that was registered before, and whose mix had not been loaded when the endpoint was made
(`registered_sound_iff`).
-/

namespace Ros2Sh.SystemHandle

open Ros2Sh.Lib Ros2Sh.Lib.Yaml

variable {P : Platform}

/-- The registry of the core, and the endpoints of all handles with the one Factory. -/
structure World (P : Platform) where
  registry : String → Option (DynamicType P)
  handles : State P

namespace World

def initial (prior : String → Option (DynamicType P)) : World P := ⟨prior, SystemHandle.initial⟩

inductive Action (P : Platform)
  | configure (c : Core P) (types : RequiredTypes)
  | handle (a : SystemHandle.Action P)

def step (y : Conversions) (w : World P) : Action P → Option (World P)
  | .configure c types =>
    if w.handles.crashed then none
    else
      let s := left (SystemHandle.configure c types w.handles.factory w.registry)
      some ⟨s.registry, { w.handles with factory := s.factory }⟩
  | .handle a => (SystemHandle.step y w.handles a).map fun handles => { w with handles := handles }

/-- Mixes of the interfaces in `S` are loaded, and endpoints are made for types registered under the names of messages,
which have no colon in them. -/
def UsesRegistered (S : Set (Interface P)) (w : World P) : Action P → Prop
  | .configure c types => (Event.configure c types).LoadsOnly S
  | .handle (.loadMix registrars) => ∃ i ∈ S, registrars = i.registrars
  | .handle (.subscribe _ messageType _ _) | .handle (.advertise _ messageType _) =>
    ∃ name, ':' ∉ name.toList ∧ w.registry name = some messageType
  | .handle (.publish _ _) | .handle (.incoming _ _) => True

/-- The Factory answers for the message of the name with the library of this message. -/
def HoldsMix (S : Set (Interface P)) (f : Factory P) (name : String) : Prop :=
  ∃ i ∈ S, i.kind = .msg ∧ i.name = name ∧ f.Owns i

/-- An endpoint for a type that was registered before is made when the mix of the message has been loaded. -/
def PriorLoaded (y : Conversions) (S : Set (Interface P)) (prior : String → Option (DynamicType P)) (w : World P) :
    Action P → Prop
  | .handle (.subscribe _ messageType _ configuration) | .handle (.advertise _ messageType configuration) =>
    QosParses y configuration → (prior messageType.name).isSome → HoldsMix S w.handles.factory messageType.name
  | .configure _ _ | .handle (.loadMix _) | .handle (.publish _ _) | .handle (.incoming _ _) => True

/-- What the error branches of `subscribe` and `advertise` promise. -/
def Reports (y : Conversions) (w : World P) : Action P → Prop
  | .configure _ _ => True
  | .handle a => ReportsFailure y w.handles a

/-- No failure is left unreported along the run, and no null pointer is called in it. -/
def Sound (y : Conversions) (prior : String → Option (DynamicType P)) (as : List (Action P)) (t : World P) : Prop :=
  Along (step y) (Reports y) (initial prior) as ∧ t.handles.crashed = false

/-! ### Messages that the Factory holds -/

section HoldsMix

variable {S : Set (Interface P)} {f : Factory P} {is : List (Interface P)} {i : Interface P} {name : String}
  {type : DynamicType P} {r : FactoryRegistrar P}

/-- The registrars of a service use names with a colon. -/
theorem kind_of_mem_registrars (hr : r ∈ i.registrars) (hcolon : ':' ∉ r.name.toList) : i.kind = .msg := by
  cases hl : i.library with
  | message l => simp [Interface.kind, hl]
  | service l =>
    have hrequest : ':' ∈ i.requestName.toList := by simp [Interface.requestName]
    have hresponse : ':' ∈ i.responseName.toList := by simp [Interface.responseName]
    simp only [Interface.registrars, hl, List.mem_cons, List.not_mem_nil, or_false] at hr
    rcases hr with rfl | rfl | rfl | rfl
    · exact absurd hrequest hcolon
    · exact absurd hresponse hcolon
    · exact absurd hresponse hcolon
    · exact absurd hrequest hcolon

theorem holdsMix_of_entry {α : Type} {entry : FactoryRegistrar P → Option (String × α)} {e : String × α}
    (hS : Distinct S) (his : ∀ i ∈ is, i ∈ S) (hentry : Separate entry) (hi : i ∈ is)
    (he : e ∈ i.registrars.filterMap entry) (hcolon : ':' ∉ e.1.toList) :
    HoldsMix S (Factory.empty.loadAll is) e.1 := by
  have hname : libraryName e.1 = i.name := libraryName_of_mem_entries hentry he
  obtain ⟨r, hr, hre⟩ := List.mem_filterMap.mp he
  rw [hentry.name r e hre] at hcolon
  refine ⟨i, his i hi, kind_of_mem_registrars hr hcolon, ?_, Factory.owns_of_mem hS his hi⟩
  rw [← hname, hentry.name r e hre, libraryName_eq_self hcolon]

theorem holdsMix_of_createType (hS : Distinct S) (hf : Grows S .empty f) (hcolon : ':' ∉ name.toList)
    (h : f.createType name = .ok (some type)) : type.name = name ∧ HoldsMix S f name := by
  obtain ⟨is, his, rfl⟩ := hf
  obtain ⟨i, hi, he⟩ := exists_entry_of_createType h
  exact ⟨name_of_entry he, holdsMix_of_entry hS his separate_type hi he hcolon⟩

theorem holdsMix_of_serialiser (hS : Distinct S) (hf : Grows S .empty f) (hcolon : ':' ∉ name.toList)
    (h : (f.serialiserFactories name).isSome) : HoldsMix S f name := by
  obtain ⟨is, his, rfl⟩ := hf
  obtain ⟨function, hfunction⟩ := Option.isSome_iff_exists.mp h
  rw [Factory.serialiserFactories_loadAll] at hfunction
  rcases mem_or_of_assignAll hfunction with hmem | hempty
  · obtain ⟨i, hi, he⟩ := mem_entriesOf.mp hmem
    exact holdsMix_of_entry hS his separate_serialiser hi he hcolon
  · cases hempty

theorem holdsMix_of_deserialiser (hS : Distinct S) (hf : Grows S .empty f) (hcolon : ':' ∉ name.toList)
    (h : (f.deserialiserFactories name).isSome) : HoldsMix S f name := by
  obtain ⟨is, his, rfl⟩ := hf
  obtain ⟨function, hfunction⟩ := Option.isSome_iff_exists.mp h
  rw [Factory.deserialiserFactories_loadAll] at hfunction
  rcases mem_or_of_assignAll hfunction with hmem | hempty
  · obtain ⟨i, hi, he⟩ := mem_entriesOf.mp hmem
    exact holdsMix_of_entry hS his separate_deserialiser hi he hcolon
  · cases hempty

theorem HoldsMix.conversions (h : HoldsMix S f type.name) :
    (f.serialiserFactories type.name).isSome ∧ (f.deserialiserFactories type.name).isSome := by
  obtain ⟨i, -, hkind, hname, howns⟩ := h
  unfold Factory.Owns at howns
  cases hl : i.library with
  | message l =>
    rw [hl] at howns
    obtain ⟨hserialise, hdeserialise⟩ := howns.2 type hname.symm
    rw [Factory.serialiseFunction_eq] at hserialise
    rw [Factory.deserialiseFunction_eq] at hdeserialise
    exact ⟨Option.isSome_iff_exists.mpr ⟨_, hserialise⟩, Option.isSome_iff_exists.mpr ⟨_, hdeserialise⟩⟩
  | service l => simp [Interface.kind, hl] at hkind

end HoldsMix

/-! ### The registry -/

section Registry

variable {S : Set (Interface P)} {y : Conversions} {prior : String → Option (DynamicType P)} {w w' : World P}
  {a : Action P} {b : SystemHandle.Action P} {c : Core P} {types : RequiredTypes} {s t : State P}
  {as : List (Action P)}

/-- The invariant: the mixes loaded are those of interfaces in `S`, a type that came into the registry is one that the
Factory creates, and the others are still there. -/
structure Inv (S : Set (Interface P)) (prior : String → Option (DynamicType P)) (w : World P) : Prop where
  loaded : Loaded S prior ⟨w.handles.factory, w.registry⟩
  prior : ∀ name type, prior name = some type → w.registry name = some type

theorem inv_initial (S : Set (Interface P)) (prior : String → Option (DynamicType P)) :
    Inv S prior (initial prior) where
  loaded := loaded_initial S prior
  prior _ _ h := h

theorem step_configure (h : step y w (.configure c types) = some w') : w.handles.crashed = false ∧
    w' = ⟨(left (SystemHandle.configure c types w.handles.factory w.registry)).registry,
      { w.handles with factory := (left (SystemHandle.configure c types w.handles.factory w.registry)).factory }⟩ := by
  simp only [step] at h
  split at h
  · cases h
  · rename_i hcrashed
    exact ⟨Bool.eq_false_iff.mpr hcrashed, (Option.some.inj h).symm⟩

theorem step_handle (h : step y w (.handle b) = some w') :
    SystemHandle.step y w.handles b = some w'.handles ∧ w'.registry = w.registry := by
  obtain ⟨t, ht, rfl⟩ := Option.map_eq_some_iff.mp h
  exact ⟨ht, rfl⟩

theorem left_of_outcome {I : Progress P → Prop} {x : Except (Thrown P) (Progress P)}
    (h : Outcome I (fun e => I e.progress) x) : I (left x) := by
  cases x with
  | ok t => exact h
  | error e => exact h

/-- `emplace` leaves the types that are there, and so does a turn that throws. -/
theorem registry_configure {name : String} {type : DynamicType P} {f : Factory P}
    {registry : String → Option (DynamicType P)} (h : registry name = some type) :
    (left (SystemHandle.configure c types f registry)).registry name = some type := by
  have hturn : ∀ s a, s.registry name = some type → Outcome (fun t => t.registry name = some type)
      (fun e => e.progress.registry name = some type) (requireType c s a) := by
    intro s a hs
    rcases requireType_eq c s a with ⟨what, -, herror⟩ | ⟨_, -, hok⟩
    · rw [herror]
      exact hs
    · obtain ⟨_, -, -, hregistry⟩ := requireType_ok hok
      rw [hok]
      show _ = _
      rw [hregistry, hs, Option.some_or]
  have hloop : Outcome (fun t => t.registry name = some type) (fun e => e.progress.registry name = some type)
      ((required c types).foldlM (requireType c) ⟨true, f, registry⟩) :=
    Outcome.foldlM (I := fun _ t => t.registry name = some type) (fun _ a _ s _ hs => hturn s a hs) h
  rw [configure_eq]
  exact left_of_outcome (I := fun t => t.registry name = some type) hloop

theorem factory_of_step (h : SystemHandle.step y s b = some t) :
    t.factory = s.factory ∨ ∃ registrars, b = .loadMix registrars ∧ t.factory = s.factory.loadMix registrars := by
  cases b with
  | loadMix registrars =>
    obtain rfl := step_loadMix h
    exact .inr ⟨registrars, rfl, rfl⟩
  | subscribe topicName messageType callback configuration =>
    rcases step_subscribe h with rfl | ⟨-, qos, rfl⟩ <;> exact .inl rfl
  | advertise topicName messageType configuration =>
    rcases step_advertise h with rfl | ⟨-, qos, rfl⟩ <;> exact .inl rfl
  | publish i message =>
    obtain ⟨-, -, -, hfactory, -⟩ := step_publish h
    exact .inl hfactory
  | incoming i message =>
    obtain ⟨-, -, -, hfactory, -⟩ := step_incoming h
    exact .inl hfactory

theorem grows_step (hS : Distinct S) (hw : Inv S prior w) (ha : UsesRegistered S w a) (h : step y w a = some w') :
    Grows S w.handles.factory w'.handles.factory := by
  cases a with
  | configure c types =>
    obtain ⟨-, rfl⟩ := step_configure h
    exact (loaded_step hS (e := .configure c types) ha hw.loaded).1
  | handle b =>
    obtain ⟨hstep, -⟩ := step_handle h
    rcases factory_of_step hstep with hfactory | ⟨registrars, rfl, hfactory⟩
    · exact hfactory ▸ Grows.refl _
    · obtain ⟨i, hi, rfl⟩ := ha
      exact ⟨[i], fun j hj => List.mem_singleton.mp hj ▸ hi, hfactory⟩

theorem inv_step (hS : Distinct S) (hw : Inv S prior w) (ha : UsesRegistered S w a) (h : step y w a = some w') :
    Inv S prior w' := by
  have hgrows := grows_step hS hw ha h
  cases a with
  | configure c types =>
    obtain ⟨-, rfl⟩ := step_configure h
    exact ⟨(loaded_step hS (e := .configure c types) ha hw.loaded).2,
      fun name type hname => registry_configure (hw.prior name type hname)⟩
  | handle b =>
    obtain ⟨-, hregistry⟩ := step_handle h
    refine ⟨?_, fun name type hname => hregistry ▸ hw.prior name type hname⟩
    rw [hregistry]
    exact hw.loaded.grows hS hgrows

theorem Inv.registered (hS : Distinct S) (hprior : ∀ name type, prior name = some type → type.name = name)
    (hw : Inv S prior w) {name : String} {type : DynamicType P} (hcolon : ':' ∉ name.toList)
    (hname : w.registry name = some type) :
    type.name = name ∧ ((prior name).isSome ∨ HoldsMix S w.handles.factory name) := by
  cases hbefore : prior name with
  | none =>
    obtain ⟨htype, hholds⟩ :=
      holdsMix_of_createType hS hw.loaded.loaded hcolon (hw.loaded.registry name type hbefore hname)
    exact ⟨htype, .inr hholds⟩
  | some type' =>
    obtain rfl := Option.some.inj (hname.symm.trans (hw.prior name type' hbefore))
    exact ⟨hprior name type hbefore, .inl rfl⟩

/-- For registered types, the Factory holds the conversion of an endpoint exactly when the mix of a type that was there
before has been loaded. -/
theorem Inv.convertible_iff (hS : Distinct S) (hprior : ∀ name type, prior name = some type → type.name = name)
    (hw : Inv S prior w) (ha : UsesRegistered S w (.handle b)) :
    Convertible y w.handles b ↔ PriorLoaded y S prior w (.handle b) := by
  cases b with
  | subscribe topicName messageType callback configuration =>
    obtain ⟨name, hcolon, hname⟩ := ha
    obtain ⟨rfl, hor⟩ := hw.registered hS hprior hcolon hname
    constructor
    · exact fun h hqos _ => holdsMix_of_deserialiser hS hw.loaded.loaded hcolon (h hqos)
    · intro h hqos
      rcases hor with hbefore | hholds
      · exact (h hqos hbefore).conversions.2
      · exact hholds.conversions.2
  | advertise topicName messageType configuration =>
    obtain ⟨name, hcolon, hname⟩ := ha
    obtain ⟨rfl, hor⟩ := hw.registered hS hprior hcolon hname
    constructor
    · exact fun h hqos _ => holdsMix_of_serialiser hS hw.loaded.loaded hcolon (h hqos)
    · intro h hqos
      rcases hor with hbefore | hholds
      · exact (h hqos hbefore).conversions.1
      · exact hholds.conversions.1
  | loadMix registrars => exact Iff.rfl
  | publish i message => exact Iff.rfl
  | incoming i message => exact Iff.rfl

theorem Inv.reports_iff (hS : Distinct S) (hprior : ∀ name type, prior name = some type → type.name = name)
    (hw : Inv S prior w) (ha : UsesRegistered S w a) : Reports y w a ↔ PriorLoaded y S prior w a := by
  cases a with
  | configure c types => exact Iff.rfl
  | handle b => exact (reportsFailure_iff y w.handles b).trans (hw.convertible_iff hS hprior ha)

theorem pointersValid_grows {f : Factory P} (hs : PointersValid s) (hf : Grows S s.factory f) :
    PointersValid { s with factory := f } := by
  obtain ⟨is, -, rfl⟩ := hf
  have hext := s.factory.extends_loadMix (is.flatMap Interface.registrars)
  rw [Factory.loadAll_eq]
  exact ⟨fun p hp => (hs.publishers p hp).mono hext.serialisers,
    fun m hm => (hs.subscriptions m hm).mono hext.deserialisers, hs.alive⟩

theorem pointersValid_world_step (hS : Distinct S) (hw : Inv S prior w) (hs : PointersValid w.handles)
    (hprior : ∀ name type, prior name = some type → type.name = name) (ha : UsesRegistered S w a)
    (hloaded : PriorLoaded y S prior w a) (h : step y w a = some w') : PointersValid w'.handles := by
  have hgrows := grows_step hS hw ha h
  cases a with
  | configure c types =>
    obtain ⟨-, rfl⟩ := step_configure h
    exact pointersValid_grows hs hgrows
  | handle b => exact pointersValid_step hs ((hw.convertible_iff hS hprior ha).mpr hloaded) (step_handle h).1

/-- **Registered types can be used.**  In a process that makes endpoints for types that are registered under their own
names, every failure is reported and no null pointer is called exactly when each endpoint for a type that was registered
before `configure` is made when the mix of the message has been loaded. -/
theorem registered_sound_iff (hS : Distinct S) (hprior : ∀ name type, prior name = some type → type.name = name)
    (hc : Along (step y) (UsesRegistered S) (initial prior) as) (hr : run (step y) (initial prior) as = some w) :
    Sound y prior as w ↔ Along (step y) (PriorLoaded y S prior) (initial prior) as := by
  constructor
  · intro h
    exact along_of_inv (fun _ _ _ hw ha ht => inv_step hS hw ha.1 ht)
      (fun _ _ hw ha => (hw.reports_iff hS hprior ha.1).mp ha.2) (inv_initial S prior) (hc.and h.1)
  · intro h
    have hboth := hc.and h
    have hend : Inv S prior w ∧ PointersValid w.handles :=
      run_inv (I := fun w => Inv S prior w ∧ PointersValid w.handles)
        (fun _ _ _ hw ha ht => ⟨inv_step hS hw.1 ha.1 ht,
          pointersValid_world_step hS hw.1 hw.2 hprior ha.1 ha.2 ht⟩)
        ⟨inv_initial S prior, pointersValid_initial⟩ hboth hr
    exact ⟨along_of_inv (fun _ _ _ hw ha ht => inv_step hS hw ha.1 ht)
      (fun _ _ hw ha => (hw.reports_iff hS hprior ha.1).mpr ha.2) (inv_initial S prior) hboth, hend.2.alive⟩

end Registry

/-- The type is registered before. -/
def int32Prior (name : String) : Option (DynamicType Platform.plain) :=
  if name = "std_msgs/msg/Int32" then some int32Type else none

def int32Core : Core Platform.plain where
  findMessageMix name := if name = "std_msgs/msg/Int32" then "std_msgs__Int32.mix" else ""
  findServiceMix _ := ""
  load _ f := (true, f.loadAll [int32Interface])

/-- `configure` loads the mix of a type that is there, and the endpoint made for it can be used. -/
def int32World : List (Action Platform.plain) :=
  [.configure int32Core ⟨["std_msgs/msg/Int32"], []⟩, .handle (.subscribe "numbers" int32Type () (.map [])),
    .handle (.incoming 0 (5 : ℕ))]

theorem registered_sound_iff_int32 :
    ∃ w, run (step scalarConversions) (initial int32Prior) int32World = some w ∧
      Sound scalarConversions int32Prior int32World w := by
  have hS : Distinct {int32Interface} := fun _ hi _ hj _ _ _ => hi.trans hj.symm
  have hmem : ∀ i ∈ [int32Interface], i ∈ ({int32Interface} : Set (Interface Platform.plain)) :=
    fun i hi => List.mem_singleton.mp hi
  have hprior : ∀ name type, int32Prior name = some type → type.name = name := by
    intro name type h
    obtain ⟨rfl, htype⟩ := Option.ite_none_right_eq_some.mp h
    obtain rfl := Option.some.inj htype
    rfl
  have hc : Along (step scalarConversions) (UsesRegistered {int32Interface}) (initial int32Prior) int32World := by
    refine ⟨fun path f => ⟨[int32Interface], hmem, rfl⟩, fun w hw => ?_⟩
    obtain rfl := Option.some.inj hw
    exact ⟨⟨"std_msgs/msg/Int32", by decide, rfl⟩, fun _ _ => ⟨trivial, fun _ _ => trivial⟩⟩
  have hloaded : Along (step scalarConversions) (PriorLoaded scalarConversions {int32Interface} int32Prior)
      (initial int32Prior) int32World := by
    refine ⟨trivial, fun w hw => ⟨fun _ _ => ?_, fun _ _ => ⟨trivial, fun _ _ => trivial⟩⟩⟩
    obtain rfl := Option.some.inj hw
    have hcreate : (Factory.empty.loadAll [int32Interface]).createType "std_msgs/msg/Int32" = .ok (some int32Type) :=
      rfl
    exact (holdsMix_of_createType hS ⟨[int32Interface], hmem, rfl⟩ (by decide) hcreate).2
  exact ⟨_, rfl, (registered_sound_iff hS hprior hc rfl).mpr hloaded⟩

/-- Without the mix, the first message that comes in calls a null pointer. -/
example : (run (step scalarConversions) (initial int32Prior)
    [.handle (.subscribe "numbers" int32Type () (.map [])), .handle (.incoming 0 (5 : ℕ))]).map
      (fun w => w.handles.crashed) = some true := rfl

end World

end Ros2Sh.SystemHandle
