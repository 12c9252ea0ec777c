import Mathlib.Data.List.TakeWhile
import Ros2Sh.Factory
import Ros2Sh.Lib.Fold

/-!
# `SystemHandle::configure`

Once its node exists, `configure` goes through the message types and then through the service types it is required to
know.  For each one it searches the mix file, loads it, and has `register_type` create the type and put it into the type
registry; the flag `success` is what it returns.

The three ways a turn of the loops ends *assign* the flag: a mix that is not found or not loaded makes it false, and
`success = register_type(...)` makes it whatever `register_type` returns, also when it was false.  So the flag tells of
the last required type only, and `configure` is truthful exactly when that type fails or none of the others does
(`truthful_iff`).
-/

namespace Ros2Sh.SystemHandle

open Ros2Sh.Lib

variable {P : Platform}

/-- What `configure` uses of the core library.  The paths found are empty when there is no mix file; loading a mix also
runs the registrars of its library. -/
structure Core (P : Platform) where
  findMessageMix : String → String
  findServiceMix : String → String
  load : String → Factory P → Bool × Factory P

structure RequiredTypes where
  messages : List String
  services : List String

/-- What `configure` changes. -/
structure Progress (P : Platform) where
  success : Bool
  factory : Factory P
  registry : String → Option (DynamicType P)

/-- `create_type` threw; `configure` is left with what it has done so far. -/
structure Thrown (P : Platform) where
  what : String
  progress : Progress P

/-- `type_registry.emplace`: a name that is already there keeps its type. -/
def emplace (registry : String → Option (DynamicType P)) (name : String) (type : DynamicType P) :
    String → Option (DynamicType P) :=
  if (registry name).isSome then registry else Function.update registry name (some type)

/-- `register_type`, with the registry it leaves. -/
def registerType (f : Factory P) (registry : String → Option (DynamicType P)) (typeName : String) :
    Except String (Bool × (String → Option (DynamicType P))) := do
  match ← f.createType typeName with
  | none => return (false, registry)
  | some type => return (true, emplace registry typeName type)

/-- A type of the loops: its name and the mix file found for it. -/
structure Required where
  typeName : String
  mixPath : String

/-- The body of both loops. -/
def requireType (c : Core P) (s : Progress P) (a : Required) : Except (Thrown P) (Progress P) :=
  if a.mixPath = "" then .ok { s with success := false } -- `print_missing_mix_file`
  else
    let loaded := c.load a.mixPath s.factory
    if loaded.1 then
      match registerType loaded.2 s.registry a.typeName with
      | .error what => .error ⟨what, { s with factory := loaded.2 }⟩
      | .ok (success, registry) => .ok ⟨success, loaded.2, registry⟩
    else .ok { s with success := false, factory := loaded.2 }

def requireMessage (c : Core P) (s : Progress P) (typeName : String) : Except (Thrown P) (Progress P) :=
  requireType c s ⟨typeName, c.findMessageMix typeName⟩

/-- `type_name.substr(0, type_name.find(":"))` -/
def libraryName (typeName : String) : String := String.ofList (typeName.toList.takeWhile (· ≠ ':'))

def requireService (c : Core P) (s : Progress P) (typeName : String) : Except (Thrown P) (Progress P) :=
  requireType c s ⟨typeName, c.findServiceMix (libraryName typeName)⟩

/-- `configure`, from its loops on; it returns the flag `success` of the final progress. -/
def configure (c : Core P) (types : RequiredTypes) (f : Factory P) (registry : String → Option (DynamicType P)) :
    Except (Thrown P) (Progress P) := do
  let s ← types.messages.foldlM (requireMessage c) ⟨true, f, registry⟩
  types.services.foldlM (requireService c) s

/-! ### The library of a service -/

section LibraryName

variable {text suffix : String} {rest : List Char}

theorem libraryName_append (h : ':' ∉ text.toList) (hsuffix : suffix.toList = ':' :: rest) :
    libraryName (text ++ suffix) = text := by
  have hbefore : ∀ c ∈ text.toList, decide (c ≠ ':') = true := by
    intro c hc
    have hne : c ≠ ':' := fun heq => h (heq ▸ hc)
    simpa using hne
  unfold libraryName
  rw [String.toList_append, hsuffix, List.takeWhile_append_of_pos hbefore]
  simp

theorem libraryName_eq_self (h : ':' ∉ text.toList) : libraryName text = text := by
  have hall : text.toList.takeWhile (fun c => decide (c ≠ ':')) = text.toList := by
    rw [List.takeWhile_eq_self_iff]
    intro c hc
    have hne : c ≠ ':' := fun heq => h (heq ▸ hc)
    simpa using hne
  unfold libraryName
  rw [hall, String.ofList_toList]

theorem colon_not_mem_libraryName (name : String) : ':' ∉ (libraryName name).toList := by
  unfold libraryName
  rw [String.toList_ofList]
  intro hmem
  have hne := List.mem_takeWhile_imp hmem
  simp at hne

end LibraryName

/-! ### One loop over all the required types -/

/-- The required types, in the order in which the loops reach them. -/
def required (c : Core P) (types : RequiredTypes) : List Required :=
  types.messages.map (fun name => ⟨name, c.findMessageMix name⟩) ++
    types.services.map fun name => ⟨name, c.findServiceMix (libraryName name)⟩

theorem configure_eq (c : Core P) (types : RequiredTypes) (f : Factory P)
    (registry : String → Option (DynamicType P)) :
    configure c types f registry = (required c types).foldlM (requireType c) ⟨true, f, registry⟩ := by
  rw [required, List.foldlM_append, List.foldlM_map]
  unfold configure
  congr 1
  funext s
  rw [List.foldlM_map]
  rfl

/-! ### What one turn does -/

/-- The mix of the type is found and loaded, and its `DynamicType` is created, when the Factory is `f`. -/
def Creates (c : Core P) (f : Factory P) (a : Required) (type : DynamicType P) : Prop :=
  a.mixPath ≠ "" ∧ (c.load a.mixPath f).1 = true ∧ (c.load a.mixPath f).2.createType a.typeName = .ok (some type)

section Turn

variable {c : Core P} {f : Factory P} {s t : Progress P} {a : Required} {name : String} {type : DynamicType P}
  {registry : String → Option (DynamicType P)}

theorem isSome_emplace_self : (emplace registry name type name).isSome := by
  unfold emplace
  split
  · assumption
  · simp

theorem isSome_emplace (h : (registry name).isSome) {name' : String} :
    (emplace registry name' type name).isSome := by
  unfold emplace
  split
  · exact h
  · exact Factory.isSome_assign h

/-- A turn that goes through either creates the type and sets the flag, or does not and clears it. -/
theorem requireType_cases (h : requireType c s a = .ok t) :
    (∃ type, Creates c s.factory a type ∧ t.success = true ∧ t.registry = emplace s.registry a.typeName type) ∨
      ((∀ type, ¬ Creates c s.factory a type) ∧ t.success = false ∧ t.registry = s.registry) := by
  unfold requireType at h
  by_cases hpath : a.mixPath = ""
  · simp only [hpath, if_true, Except.ok.injEq] at h
    subst h
    exact .inr ⟨fun type hc => hc.1 hpath, rfl, rfl⟩
  simp only [hpath, if_false] at h
  by_cases hload : (c.load a.mixPath s.factory).1 = true
  · simp only [hload, if_true, registerType] at h
    rcases hcreate : (c.load a.mixPath s.factory).2.createType a.typeName with what | _ | type
    · simp [hcreate, bind, Except.bind] at h
    · simp only [hcreate, bind, Except.bind, pure, Except.pure, Except.ok.injEq] at h
      subst h
      refine .inr ⟨fun type hc => ?_, rfl, rfl⟩
      have hsome := hc.2.2
      rw [hcreate] at hsome
      simp at hsome
    · simp only [hcreate, bind, Except.bind, pure, Except.pure, Except.ok.injEq] at h
      subst h
      exact .inl ⟨type, ⟨hpath, hload, hcreate⟩, rfl, rfl⟩
  · simp only [hload] at h
    obtain rfl := Except.ok.inj h
    exact .inr ⟨fun type hc => hload hc.2.1, rfl, rfl⟩

theorem requireType_of_creates (h : Creates c s.factory a type) : ∃ t, requireType c s a = .ok t := by
  obtain ⟨hpath, hload, hcreate⟩ := h
  exact ⟨⟨true, (c.load a.mixPath s.factory).2, emplace s.registry a.typeName type⟩, by
    simp [requireType, registerType, hpath, hload, hcreate, bind, Except.bind, pure, Except.pure]⟩

theorem success_iff_creates (h : requireType c s a = .ok t) :
    t.success = true ↔ ∃ type, Creates c s.factory a type := by
  rcases requireType_cases h with ⟨type, hc, hs, -⟩ | ⟨hc, hs, -⟩
  · exact ⟨fun _ => ⟨type, hc⟩, fun _ => hs⟩
  · rw [hs]
    exact ⟨fun hfalse => absurd hfalse (by decide), fun ⟨type, htype⟩ => absurd htype (hc type)⟩

theorem isSome_registry_requireType (h : requireType c s a = .ok t) (hname : (s.registry name).isSome) :
    (t.registry name).isSome := by
  rcases requireType_cases h with ⟨type, -, -, hreg⟩ | ⟨-, -, hreg⟩
  · rw [hreg]
    exact isSome_emplace hname
  · rwa [hreg]

end Turn

/-! ### The whole loop -/

section Run

variable {c : Core P} {s t : Progress P} {as bs : List Required} {a : Required} {i : ℕ} {name : String}

/-- The loop over `as` reaches the `i`-th type, and creates it: its mix is found and loaded and its `DynamicType` is
created, with the Factory that the types before it have left. -/
def CreatesAt (c : Core P) (s : Progress P) (as : List Required) (i : ℕ) : Prop :=
  ∃ a u type, as[i]? = some a ∧ (as.take i).foldlM (requireType c) s = .ok u ∧ Creates c u.factory a type

/-- The flag tells of the last type. -/
theorem success_snoc_iff (h : (as ++ [a]).foldlM (requireType c) s = .ok t) :
    t.success = true ↔ CreatesAt c s (as ++ [a]) as.length := by
  obtain ⟨u, hu, ht⟩ := foldlM_snoc_ok.mp h
  rw [success_iff_creates ht]
  constructor
  · rintro ⟨type, htype⟩
    exact ⟨a, u, type, by simp, by simpa using hu, htype⟩
  · rintro ⟨b, v, type, hb, hv, htype⟩
    simp only [List.getElem?_concat_length, Option.some.injEq] at hb
    simp only [List.take_left', hu, Except.ok.injEq] at hv
    subst hb hv
    exact ⟨type, htype⟩

theorem ok_of_createsAt_last (h : CreatesAt c s (as ++ [a]) as.length) :
    ∃ t, (as ++ [a]).foldlM (requireType c) s = .ok t := by
  obtain ⟨b, u, type, hb, hu, htype⟩ := h
  simp only [List.getElem?_concat_length, Option.some.injEq] at hb
  simp only [List.take_left'] at hu
  subst hb
  obtain ⟨t, ht⟩ := requireType_of_creates htype
  exact ⟨t, foldlM_snoc_ok.mpr ⟨u, hu, ht⟩⟩

theorem isSome_registry_of_createsAt (hi : CreatesAt c s as i) (h : as.foldlM (requireType c) s = .ok t)
    (ha : as[i]? = some a) : (t.registry a.typeName).isSome := by
  obtain ⟨b, u, type, hb, hu, htype⟩ := hi
  obtain rfl : a = b := Option.some.inj (ha.symm.trans hb)
  obtain ⟨hlt, hget⟩ := List.getElem?_eq_some_iff.mp ha
  have hsplit : as = as.take i ++ a :: as.drop (i + 1) := by
    rw [← hget, ← List.drop_eq_getElem_cons hlt, List.take_append_drop]
  rw [hsplit] at h
  obtain ⟨u', hu', hrest⟩ := foldlM_append_ok.mp h
  obtain rfl : u = u' := Except.ok.inj (hu.symm.trans hu')
  obtain ⟨v, hv, hlast⟩ := foldlM_cons_ok.mp hrest
  have hreg : (v.registry a.typeName).isSome := by
    rcases requireType_cases hv with ⟨type', -, -, hv'⟩ | ⟨hnone, -, -⟩
    · rw [hv']
      exact isSome_emplace_self
    · exact absurd htype (hnone type)
  exact foldlM_inv (I := fun w => (w.registry a.typeName).isSome)
    (fun w b _ w' hw hb => isSome_registry_requireType hb hw) hreg hlast

end Run

/-! ### The verdict -/

section Verdict

variable (c : Core P) (types : RequiredTypes) (f : Factory P) (registry : String → Option (DynamicType P))

/-- `configure` returns true. -/
def ReturnsTrue : Prop := ∃ s, configure c types f registry = .ok s ∧ s.success = true

/-- The mix of the `i`-th required type is found and loaded, and its `DynamicType` is created. -/
def Registers (i : ℕ) : Prop := CreatesAt c ⟨true, f, registry⟩ (required c types) i

/-- The `i`-th required type is in the type registry on return. -/
def InRegistry (i : ℕ) : Prop :=
  ∃ a s, (required c types)[i]? = some a ∧ configure c types f registry = .ok s ∧ (s.registry a.typeName).isSome

/-- `configure` returns true if and only if every required type is registered. -/
def Truthful : Prop :=
  ReturnsTrue c types f registry ↔
    ∀ i < (required c types).length, Registers c types f registry i ∧ InRegistry c types f registry i

/-- No required type fails before the last one, unless the last one fails as well. -/
def NoFailureHidden : Prop :=
  Registers c types f registry ((required c types).length - 1) →
    ∀ i < (required c types).length, Registers c types f registry i

/-- The verdict of `configure` is that of the last required type. -/
theorem returnsTrue_iff :
    ReturnsTrue c types f registry ↔
      required c types = [] ∨ Registers c types f registry ((required c types).length - 1) := by
  unfold ReturnsTrue Registers
  rw [configure_eq]
  rcases List.eq_nil_or_concat' (required c types) with hnil | ⟨as, a, hconcat⟩
  · rw [hnil]
    exact ⟨fun _ => .inl rfl, fun _ => ⟨_, rfl, rfl⟩⟩
  · rw [hconcat, List.length_append, List.length_singleton, Nat.add_sub_cancel]
    constructor
    · rintro ⟨s, hs, htrue⟩
      exact .inr ((success_snoc_iff hs).mp htrue)
    · rintro (hnil | hlast)
      · simp at hnil
      · obtain ⟨s, hs⟩ := ok_of_createsAt_last hlast
        exact ⟨s, hs, (success_snoc_iff hs).mpr hlast⟩

theorem inRegistry_of_registers {i : ℕ} (hi : Registers c types f registry i)
    (hret : ReturnsTrue c types f registry) : InRegistry c types f registry i := by
  obtain ⟨a, u, type, ha, hu, htype⟩ := id hi
  obtain ⟨s, hs, -⟩ := hret
  have hloop := hs
  rw [configure_eq] at hloop
  exact ⟨a, s, ha, hs, isSome_registry_of_createsAt hi hloop ha⟩

/-- **The verdict of `configure`** is truthful exactly when it hides no failure: when the last required type is not
registered itself, or every required type is. -/
theorem truthful_iff : Truthful c types f registry ↔ NoFailureHidden c types f registry := by
  unfold Truthful NoFailureHidden
  constructor
  · intro h hlast i hi
    have hret : ReturnsTrue c types f registry := (returnsTrue_iff c types f registry).mpr (.inr hlast)
    exact (h.mp hret i hi).1
  · intro h
    constructor
    · intro hret i hi
      have hreg : Registers c types f registry i := by
        rcases (returnsTrue_iff c types f registry).mp hret with hnil | hlast
        · rw [hnil] at hi
          exact absurd hi (Nat.not_lt_zero i)
        · exact h hlast i hi
      exact ⟨hreg, inRegistry_of_registers c types f registry hreg hret⟩
    · intro hall
      rw [returnsTrue_iff]
      by_cases hnil : required c types = []
      · exact .inl hnil
      · have hlt : (required c types).length - 1 < (required c types).length := by
          have hpos := List.length_pos_iff.mpr hnil
          omega
        exact .inr (hall _ hlt).1

end Verdict

/-- A core library that knows the mix of one message type, whose library registers that type. -/
def twistCore : Core Platform.plain where
  findMessageMix name := if name = "geometry_msgs/msg/Twist" then "geometry_msgs__Twist.mix" else ""
  findServiceMix _ := ""
  load _ f := (true, f.loadMix [.typeToFactory "geometry_msgs/msg/Twist" (.ok (some ⟨"geometry_msgs/msg/Twist", ()⟩))])

/-- A message type without a mix file is forgotten when the next one is registered. -/
theorem untruthful_after_missing_mix :
    ¬ Truthful twistCore ⟨["geometry_msgs/msg/Missing", "geometry_msgs/msg/Twist"], []⟩ .empty fun _ => none := by
  intro h
  have hret : ReturnsTrue twistCore ⟨["geometry_msgs/msg/Missing", "geometry_msgs/msg/Twist"], []⟩ .empty
      fun _ => none := ⟨_, rfl, rfl⟩
  obtain ⟨⟨a, s, type, ha, -, hpath, -⟩, -⟩ := h.mp hret 0 (by decide)
  obtain rfl := Option.some.inj ha
  exact hpath rfl

end Ros2Sh.SystemHandle
