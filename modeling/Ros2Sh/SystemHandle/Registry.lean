import Ros2Sh.SystemHandle.Configure

/-!
# The type registry after `configure`

Each turn of the loops of `configure` loads a mix into the one Factory and asks it for a type, so what a turn creates
may depend on the turns before it.  Here the mixes are assumed to register types of their own interface only
(`LoadsOwn`).  Then the outcome of each turn is known beforehand (`messageOutcome`, `serviceOutcome`), whatever the
order, and so is the registry (`extended`).

What stands in the way is an exception: a failure to find, to load or to create a type ends its own turn only, but
nothing catches what `create_type` throws, and the types after it are not registered (`registryContents_iff`).
-/

namespace Ros2Sh.SystemHandle

open Ros2Sh.Lib

variable {P : Platform}

/-! ### A turn of the loops -/

/-- The Factory that a turn leaves. -/
def loadedFactory (c : Core P) (f : Factory P) (a : Required) : Factory P :=
  if a.mixPath = "" then f else (c.load a.mixPath f).2

/-- What a turn creates: nothing, when the mix is not found or not loaded, or when the type is not registered. -/
def created (c : Core P) (f : Factory P) (a : Required) : Except String (Option (DynamicType P)) :=
  if a.mixPath = "" then .ok none
  else if (c.load a.mixPath f).1 then (c.load a.mixPath f).2.createType a.typeName else .ok none

section Turn

variable {c : Core P} {s t : Progress P} {a : Required} {name n : String} {type : DynamicType P}
  {registry : String → Option (DynamicType P)}

theorem emplace_apply :
    emplace registry name type n = (registry n).or (if n = name then some type else none) := by
  unfold emplace
  by_cases hn : n = name
  · subst hn
    cases hreg : registry n with
    | none => simp
    | some type' => simp [hreg]
  · rw [if_neg hn, Option.or_none]
    split
    · rfl
    · rw [Function.update_of_ne hn]

theorem requireType_eq (c : Core P) (s : Progress P) (a : Required) :
    (∃ what, created c s.factory a = .error what ∧
        requireType c s a = .error ⟨what, { s with factory := loadedFactory c s.factory a }⟩) ∨
      ∃ type, created c s.factory a = .ok type ∧
        requireType c s a = .ok ⟨type.isSome, loadedFactory c s.factory a,
          type.elim s.registry (emplace s.registry a.typeName)⟩ := by
  unfold requireType created loadedFactory
  by_cases hpath : a.mixPath = ""
  · exact .inr ⟨none, by simp [hpath]⟩
  by_cases hload : (c.load a.mixPath s.factory).1 = true
  · rcases hcreate : (c.load a.mixPath s.factory).2.createType a.typeName with what | type
    · exact .inl ⟨what, by simp [hpath, hload, hcreate, registerType, bind, Except.bind]⟩
    · refine .inr ⟨type, ?_⟩
      cases type <;> simp [hpath, hload, hcreate, registerType, bind, Except.bind, pure, Except.pure]
  · exact .inr ⟨none, by simp [hpath, hload]⟩

/-- A turn that goes through extends the registry by what it creates. -/
theorem requireType_ok (h : requireType c s a = .ok t) :
    ∃ type, created c s.factory a = .ok type ∧ t.factory = loadedFactory c s.factory a ∧
      ∀ n, t.registry n = (s.registry n).or (if n = a.typeName then type else none) := by
  rcases requireType_eq c s a with ⟨what, -, herror⟩ | ⟨type, hcreated, hok⟩
  · rw [herror] at h
    cases h
  · rw [hok] at h
    obtain rfl := Except.ok.inj h
    refine ⟨type, hcreated, rfl, fun n => ?_⟩
    cases type with
    | none => simp
    | some type => exact emplace_apply

theorem exists_requireType_ok (h : ∀ what, created c s.factory a ≠ .error what) : ∃ t, requireType c s a = .ok t := by
  rcases requireType_eq c s a with ⟨what, herror, -⟩ | ⟨type, -, hok⟩
  · exact absurd herror (h what)
  · exact ⟨_, hok⟩

end Turn

/-! ### Mixes that register their own types only -/

/-- What loading a mix does: whether it succeeds, and which registrars run, which it depends on the path alone.  The mix
found for a message registers no other type than this message, and that of a service only its request and response. -/
structure LoadsOwn (c : Core P) where
  loads : String → Bool
  registrars : String → List (FactoryRegistrar P)
  load_eq : ∀ path f, c.load path f = (loads path, f.loadMix (registrars path))
  message : ∀ name, c.findMessageMix name ≠ "" →
    ∀ e ∈ (registrars (c.findMessageMix name)).filterMap FactoryRegistrar.typeEntry, e.1 = name
  service : ∀ library, c.findServiceMix library ≠ "" →
    ∀ e ∈ (registrars (c.findServiceMix library)).filterMap FactoryRegistrar.typeEntry,
      e.1 = library ++ ":request" ∨ e.1 = library ++ ":response"

namespace LoadsOwn

variable {c : Core P}

/-- The type factory that the mix registers under the name, if the mix is found. -/
def ownType (o : LoadsOwn c) (path name : String) : Option (RegisterTypeToFactory P) :=
  if path = "" then none
  else assignAll (fun _ => none) ((o.registrars path).filterMap FactoryRegistrar.typeEntry) name

/-- The type factory under the name, when the mixes of the names `done` have been loaded: `group` tells which names
share a mix, and `find` finds it. -/
def loopType (o : LoadsOwn c) (group find : String → String) (done : List String) (name : String) :
    Option (RegisterTypeToFactory P) :=
  if ∃ name' ∈ done, group name' = group name then o.ownType (find (group name)) name else none

/-- The outcome of a turn, when the type factories are `table` before its loop. -/
def outcome (o : LoadsOwn c) (path : String) (table : String → Option (RegisterTypeToFactory P)) (name : String) :
    Except String (Option (DynamicType P)) :=
  if path = "" then .ok none
  else if o.loads path then ((o.ownType path name).or (table name)).getD (.ok none)
  else .ok none

/-- The outcome of the turn of a message, when `configure` starts with the Factory `f`. -/
def messageOutcome (o : LoadsOwn c) (f : Factory P) (name : String) : Except String (Option (DynamicType P)) :=
  o.outcome (c.findMessageMix name) f.typeFactories name

/-- The type factories after the loop over the messages. -/
def afterMessages (o : LoadsOwn c) (types : RequiredTypes) (f : Factory P) (name : String) :
    Option (RegisterTypeToFactory P) :=
  (o.loopType id c.findMessageMix types.messages name).or (f.typeFactories name)

/-- The outcome of the turn of a service. -/
def serviceOutcome (o : LoadsOwn c) (types : RequiredTypes) (f : Factory P) (name : String) :
    Except String (Option (DynamicType P)) :=
  o.outcome (c.findServiceMix (libraryName name)) (o.afterMessages types f) name

end LoadsOwn

/-- The type that was created, if one was. -/
def given : Except String (Option (DynamicType P)) → Option (DynamicType P)
  | .ok type => type
  | .error _ => none

/-- The prior registry, extended for the required names that are not in it and for which a type is created. -/
def LoadsOwn.extended {c : Core P} (o : LoadsOwn c) (types : RequiredTypes) (f : Factory P)
    (registry : String → Option (DynamicType P)) (name : String) : Option (DynamicType P) :=
  (registry name).or ((if name ∈ types.messages then given (o.messageOutcome f name) else none).or
    (if name ∈ types.services then given (o.serviceOutcome types f name) else none))

/-- The same messages and the same services are required, in any order. -/
def RequiredTypes.Same (types types' : RequiredTypes) : Prop :=
  (∀ name, name ∈ types.messages ↔ name ∈ types'.messages) ∧ ∀ name, name ∈ types.services ↔ name ∈ types'.services

/-- In whatever order the required types come, `configure` leaves the extended registry. -/
def RegistryContents {c : Core P} (o : LoadsOwn c) (types : RequiredTypes) (f : Factory P)
    (registry : String → Option (DynamicType P)) : Prop :=
  ∀ types', types.Same types' →
    ∃ s, configure c types' f registry = .ok s ∧ s.registry = o.extended types f registry

/-- `create_type` throws for none of the required types. -/
structure NoneThrows {c : Core P} (o : LoadsOwn c) (types : RequiredTypes) (f : Factory P) : Prop where
  messages : ∀ name ∈ types.messages, ∀ what, o.messageOutcome f name ≠ .error what
  services : ∀ name ∈ types.services, ∀ what, o.serviceOutcome types f name ≠ .error what

/-! ### What the turns find in the Factory -/

section Factories

variable {c : Core P} {o : LoadsOwn c} {f : Factory P} {a : Required} {name n path : String}
  {messages services : List String}

theorem createType_eq (f : Factory P) (name : String) :
    f.createType name = (f.typeFactories name).getD (.ok none) := by
  unfold Factory.createType
  cases f.typeFactories name <;> rfl

theorem typeFactories_loadedFactory (o : LoadsOwn c) :
    (loadedFactory c f a).typeFactories name = (o.ownType a.mixPath name).or (f.typeFactories name) := by
  unfold loadedFactory LoadsOwn.ownType
  by_cases hpath : a.mixPath = ""
  · simp [hpath]
  · rw [if_neg hpath, if_neg hpath, o.load_eq, Factory.typeFactories_loadMix, assignAll_eq_or]

theorem created_eq_outcome (o : LoadsOwn c) : created c f a = o.outcome a.mixPath f.typeFactories a.typeName := by
  unfold created LoadsOwn.outcome
  by_cases hpath : a.mixPath = ""
  · simp [hpath]
  · have hload := @typeFactories_loadedFactory _ c f a a.typeName o
    unfold loadedFactory at hload
    rw [if_neg hpath] at hload
    rw [if_neg hpath, if_neg hpath, createType_eq, hload, o.load_eq]

/-- The mix of a message has entries under the name of the message only. -/
theorem ownType_message_of_ne (o : LoadsOwn c) (hne : n ≠ name) : o.ownType (c.findMessageMix name) n = none := by
  unfold LoadsOwn.ownType
  split
  · rfl
  · rename_i hpath
    exact assignAll_of_forall_ne fun e he heq => hne (heq.symm.trans (o.message name hpath e he))

theorem ownType_service_of_ne (o : LoadsOwn c) (hne : libraryName n ≠ libraryName name) :
    o.ownType (c.findServiceMix (libraryName name)) n = none := by
  unfold LoadsOwn.ownType
  split
  · rfl
  · rename_i hpath
    refine assignAll_of_forall_ne fun e he heq => hne ?_
    have hcolon := colon_not_mem_libraryName name
    rcases o.service _ hpath e he with hkey | hkey
    · rw [← heq, hkey, libraryName_append hcolon (show ":request".toList = ':' :: "request".toList from rfl)]
    · rw [← heq, hkey, libraryName_append hcolon (show ":response".toList = ':' :: "response".toList from rfl)]

end Factories

/-! ### A loop -/

section Loop

variable {c : Core P} {o : LoadsOwn c} {group find : String → String} {s t : Progress P} {name : String}
  {table : String → Option (RegisterTypeToFactory P)} {registry : String → Option (DynamicType P)}
  {done names : List String}

theorem or_if_or {α : Type} (x y : Option α) (p : Prop) [Decidable p] :
    x.or ((if p then x else none).or y) = x.or y := by
  split
  · rw [← Option.or_assoc, Option.or_self]
  · rw [Option.none_or]

/-- What holds when the loop has gone through the names `done`. -/
structure LoopInv (o : LoadsOwn c) (group find : String → String) (table : String → Option (RegisterTypeToFactory P))
    (registry : String → Option (DynamicType P)) (done : List String) (s : Progress P) : Prop where
  factory : ∀ n, s.factory.typeFactories n = (o.loopType group find done n).or (table n)
  registry : ∀ n, s.registry n =
    (registry n).or (if n ∈ done then given (o.outcome (find (group n)) table n) else none)
  noneThrows : ∀ n ∈ done, ∀ what, o.outcome (find (group n)) table n ≠ .error what

/-- The outcome of a turn does not depend on the turns before it in the same loop. -/
theorem LoopInv.created_eq (h : LoopInv o group find table registry done s) (name : String) :
    created c s.factory ⟨name, find (group name)⟩ = o.outcome (find (group name)) table name := by
  have hsame : (o.ownType (find (group name)) name).or (s.factory.typeFactories name) =
      (o.ownType (find (group name)) name).or (table name) := by
    rw [h.factory, LoadsOwn.loopType]
    exact or_if_or _ _ _
  rw [created_eq_outcome o]
  unfold LoadsOwn.outcome
  rw [hsame]

theorem loopInv_initial (hfactory : ∀ n, s.factory.typeFactories n = table n)
    (hregistry : ∀ n, s.registry n = registry n) : LoopInv o group find table registry [] s where
  factory n := by rw [hfactory, LoadsOwn.loopType, if_neg (by simp), Option.none_or]
  registry n := by rw [hregistry, if_neg List.not_mem_nil, Option.or_none]
  noneThrows n hn := by cases hn

theorem LoopInv.turn (hother : ∀ name n, group n ≠ group name → o.ownType (find (group name)) n = none)
    (h : LoopInv o group find table registry done s) (ht : requireType c s ⟨name, find (group name)⟩ = .ok t) :
    LoopInv o group find table registry (done ++ [name]) t := by
  obtain ⟨type, hcreated, hfactory, hregistry⟩ := requireType_ok ht
  rw [h.created_eq] at hcreated
  constructor
  · intro n
    rw [hfactory, typeFactories_loadedFactory o, h.factory]
    by_cases hn : group n = group name
    · have hmem : ∃ name' ∈ done ++ [name], group name' = group n := ⟨name, by simp, hn.symm⟩
      rw [LoadsOwn.loopType, LoadsOwn.loopType, if_pos hmem, ← hn]
      exact or_if_or _ _ _
    · have hmem : (∃ name' ∈ done ++ [name], group name' = group n) ↔ ∃ name' ∈ done, group name' = group n := by
        constructor
        · rintro ⟨name', hname', heq⟩
          rcases List.mem_append.mp hname' with hdone | hlast
          · exact ⟨name', hdone, heq⟩
          · obtain rfl := List.mem_singleton.mp hlast
            exact absurd heq.symm hn
        · rintro ⟨name', hname', heq⟩
          exact ⟨name', List.mem_append_left _ hname', heq⟩
      rw [hother name n hn, Option.none_or, LoadsOwn.loopType, LoadsOwn.loopType, if_congr hmem rfl rfl]
  · intro n
    rw [hregistry, h.registry]
    by_cases hn : n = name
    · subst hn
      rw [if_pos rfl, if_pos (List.mem_append_right _ (List.mem_singleton_self n)), hcreated, Option.or_assoc]
      congr 1
      split <;> simp [given]
    · have hmem : n ∈ done ++ [name] ↔ n ∈ done := by simp [hn]
      rw [if_neg hn, Option.or_none, if_congr hmem rfl rfl]
  · intro n hn what
    rcases List.mem_append.mp hn with hdone | hlast
    · exact h.noneThrows n hdone what
    · obtain rfl := List.mem_singleton.mp hlast
      rw [hcreated]
      exact nofun

/-- The loop goes through the names. -/
def requireAll (c : Core P) (group find : String → String) (s : Progress P) (names : List String) :
    Except (Thrown P) (Progress P) :=
  names.foldlM (fun s name => requireType c s ⟨name, find (group name)⟩) s

theorem loopInv_requireAll (hother : ∀ name n, group n ≠ group name → o.ownType (find (group name)) n = none)
    (h0 : LoopInv o group find table registry [] s) (h : requireAll c group find s names = .ok t) :
    LoopInv o group find table registry names t :=
  foldlM_inv_prefix (fun _ _ _ _ hinv ht => hinv.turn hother ht) h0 h

theorem exists_requireAll_ok (hother : ∀ name n, group n ≠ group name → o.ownType (find (group name)) n = none)
    (h0 : LoopInv o group find table registry [] s)
    (hnone : ∀ name ∈ names, ∀ what, o.outcome (find (group name)) table name ≠ .error what) :
    ∃ t, requireAll c group find s names = .ok t := by
  refine exists_foldlM_ok (fun _ _ _ _ hinv ht => hinv.turn hother ht) ?_ h0
  intro done name hname u hinv
  refine exists_requireType_ok fun what => ?_
  rw [hinv.created_eq]
  exact hnone name hname what

end Loop

/-! ### Both loops -/

section Configure

variable {c : Core P} {o : LoadsOwn c} {f : Factory P} {s t : Progress P} {types types' : RequiredTypes}
  {registry : String → Option (DynamicType P)}

theorem configure_ok_iff : configure c types f registry = .ok t ↔
    ∃ s, requireAll c id c.findMessageMix ⟨true, f, registry⟩ types.messages = .ok s ∧
      requireAll c libraryName c.findServiceMix s types.services = .ok t := by
  unfold configure
  exact bind_eq_ok

/-- What holds between the loops. -/
abbrev MessagesDone (o : LoadsOwn c) (types : RequiredTypes) (f : Factory P)
    (registry : String → Option (DynamicType P)) (s : Progress P) : Prop :=
  LoopInv o id c.findMessageMix f.typeFactories registry types.messages s

/-- What holds at the end. -/
abbrev ServicesDone (o : LoadsOwn c) (types : RequiredTypes) (f : Factory P)
    (registry : String → Option (DynamicType P)) (s : Progress P) : Prop :=
  LoopInv o libraryName c.findServiceMix (o.afterMessages types f) registry types.services s

theorem messagesDone_initial (o : LoadsOwn c) (registry : String → Option (DynamicType P)) :
    LoopInv o id c.findMessageMix f.typeFactories registry [] ⟨true, f, registry⟩ :=
  loopInv_initial (fun _ => rfl) fun _ => rfl

theorem MessagesDone.services (h : MessagesDone o types f registry s) :
    LoopInv o libraryName c.findServiceMix (o.afterMessages types f) s.registry [] s :=
  loopInv_initial h.factory fun _ => rfl

theorem messagesDone_of_ok (h : requireAll c id c.findMessageMix ⟨true, f, registry⟩ types.messages = .ok s) :
    MessagesDone o types f registry s :=
  loopInv_requireAll (fun _ _ => ownType_message_of_ne o) (messagesDone_initial o registry) h

theorem servicesDone_of_ok (hmessages : MessagesDone o types f registry s)
    (h : requireAll c libraryName c.findServiceMix s types.services = .ok t) :
    ServicesDone o types f s.registry t :=
  loopInv_requireAll (fun _ _ => ownType_service_of_ne o) hmessages.services h

/-- When `configure` returns, `create_type` has thrown for no type, and the registry is the extended one. -/
theorem noneThrows_and_registry_of_configure (o : LoadsOwn c) (h : configure c types f registry = .ok t) :
    NoneThrows o types f ∧ t.registry = o.extended types f registry := by
  obtain ⟨s, hs, ht⟩ := configure_ok_iff.mp h
  have hmessages : MessagesDone o types f registry s := messagesDone_of_ok hs
  have hservices : ServicesDone o types f s.registry t := servicesDone_of_ok hmessages ht
  refine ⟨⟨hmessages.noneThrows, hservices.noneThrows⟩, ?_⟩
  funext n
  rw [hservices.registry, hmessages.registry, Option.or_assoc]
  rfl

theorem exists_configure_ok (h : NoneThrows o types f) : ∃ t, configure c types f registry = .ok t := by
  obtain ⟨s, hs⟩ := exists_requireAll_ok (fun _ _ => ownType_message_of_ne o)
    (messagesDone_initial o registry) h.messages
  have hmessages : MessagesDone o types f registry s := messagesDone_of_ok hs
  obtain ⟨t, ht⟩ := exists_requireAll_ok (fun _ _ => ownType_service_of_ne o) hmessages.services h.services
  exact ⟨t, configure_ok_iff.mpr ⟨s, hs, ht⟩⟩

/-! ### The order of the required types -/

theorem afterMessages_congr (h : types.Same types') : o.afterMessages types f = o.afterMessages types' f := by
  have hmem : ∀ n, (∃ name ∈ types.messages, id name = id n) ↔ ∃ name ∈ types'.messages, id name = id n :=
    fun n => exists_congr fun name => and_congr_left fun _ => h.1 name
  funext n
  unfold LoadsOwn.afterMessages LoadsOwn.loopType
  rw [if_congr (hmem n) rfl rfl]

theorem extended_congr (h : types.Same types') : o.extended types f registry = o.extended types' f registry := by
  funext n
  unfold LoadsOwn.extended LoadsOwn.serviceOutcome
  rw [afterMessages_congr h, if_congr (h.1 n) rfl rfl, if_congr (h.2 n) rfl rfl]

theorem NoneThrows.congr (h : NoneThrows o types f) (hsame : types.Same types') : NoneThrows o types' f where
  messages name hname := h.messages name ((hsame.1 name).mpr hname)
  services name hname := by
    have hservice := h.services name ((hsame.2 name).mpr hname)
    unfold LoadsOwn.serviceOutcome at hservice ⊢
    rwa [← afterMessages_congr hsame]

/-- **The registry after `configure`** is the prior one, extended by the types that were found, loaded and created,
whatever the order and whichever of the others failed, exactly when `create_type` throws for none of the required
types. -/
theorem registryContents_iff (o : LoadsOwn c) (types : RequiredTypes) (f : Factory P)
    (registry : String → Option (DynamicType P)) : RegistryContents o types f registry ↔ NoneThrows o types f := by
  constructor
  · intro h
    obtain ⟨t, ht, -⟩ := h types ⟨fun _ => Iff.rfl, fun _ => Iff.rfl⟩
    exact (noneThrows_and_registry_of_configure o ht).1
  · intro h types' hsame
    obtain ⟨t, ht⟩ := exists_configure_ok (h.congr hsame)
    refine ⟨t, ht, ?_⟩
    rw [(noneThrows_and_registry_of_configure o ht).2, extended_congr hsame]

end Configure

/-- The registrars of two message mixes; the IDL text embedded in the first cannot be parsed. -/
def pathAndInt32 (mixPath : String) : List (FactoryRegistrar Platform.plain) :=
  if mixPath = "nav_msgs__Path.mix" then
    [.typeToFactory "nav_msgs/msg/Path" (.error "Failed while parsing type nav_msgs::msg::Path")]
  else if mixPath = "std_msgs__Int32.mix" then
    [.typeToFactory "std_msgs/msg/Int32" (.ok (some ⟨"std_msgs/msg/Int32", ()⟩))]
  else []

/-- A core library that finds and loads these mixes. -/
def pathAndInt32Core : Core Platform.plain where
  findMessageMix name :=
    if name = "nav_msgs/msg/Path" then "nav_msgs__Path.mix"
    else if name = "std_msgs/msg/Int32" then "std_msgs__Int32.mix"
    else ""
  findServiceMix _ := ""
  load path f := (true, f.loadMix (pathAndInt32 path))

def loadsOwn_pathAndInt32 : LoadsOwn pathAndInt32Core where
  loads _ := true
  registrars := pathAndInt32
  load_eq _ _ := rfl
  message name h e he := by
    by_cases hpath : name = "nav_msgs/msg/Path"
    · subst hpath
      obtain rfl := List.mem_singleton.mp he
      rfl
    · by_cases hint : name = "std_msgs/msg/Int32"
      · subst hint
        obtain rfl := List.mem_singleton.mp he
        rfl
      · exact absurd (by simp [pathAndInt32Core, hpath, hint]) h
  service _ h := absurd rfl h

/-- The exception for the first type leaves the second one without registration. -/
theorem not_registryContents_unparsable :
    ¬ RegistryContents loadsOwn_pathAndInt32 ⟨["nav_msgs/msg/Path", "std_msgs/msg/Int32"], []⟩ .empty
      fun _ => none := by
  intro h
  obtain ⟨s, hs, -⟩ := h ⟨["nav_msgs/msg/Path", "std_msgs/msg/Int32"], []⟩ ⟨fun _ => Iff.rfl, fun _ => Iff.rfl⟩
  have hthrows : ∃ e, configure pathAndInt32Core ⟨["nav_msgs/msg/Path", "std_msgs/msg/Int32"], []⟩ .empty
      (fun _ => none) = .error e := ⟨_, rfl⟩
  obtain ⟨e, he⟩ := hthrows
  rw [he] at hs
  cases hs

end Ros2Sh.SystemHandle
