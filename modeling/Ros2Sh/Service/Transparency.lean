import Ros2Sh.Converter.RoundTrip
import Ros2Sh.Service.EndToEnd

/-!
# The bridge is transparent

The proxies of a service use the converters that the service template generates for it.  On the values that have a
counterpart on the other side these converters always succeed (`Transfers`), so they make up the `Converters` of the
service: a value carries the fact that it can be converted, and a conversion returns such a value again.

With them the bridge disappears: a client of the bridged service gets what the server answers to a request that agrees
with its own (`bridge_transparent`).
-/

namespace Ros2Sh.Service

open Ros2Sh.Lib Ros2Sh.Converter

variable {τ R X : Type} {c : IsCore τ R X} {ros2 : τ → R → Prop} {xtypes : τ → X → Prop}

/-! ### Values that can be converted -/

/-- A ROS 2 value of the type that can be converted to xtypes. -/
def Ros2Value (c : IsCore τ R X) (t : FieldType τ) : Type :=
  {m : Value R // t.Shape inRos2 m ∧ ∃ d, t.Counterparts c m d}

/-- Dynamic data of the type that can be converted to ROS 2. -/
def XtypesValue (c : IsCore τ R X) (t : FieldType τ) : Type :=
  {d : Value X // t.Shape inXtypes d ∧ ∃ m, t.Counterparts c m d}

section Convert

variable {ε V W : Type} {convert : V → W → Except ε W} {S : V → W → Prop} {T : W → Prop}

/-- A conversion that transfers, on a value that has a counterpart: it cannot fail. -/
def transfer (h : Transfers convert S T) (v : V) (hv : ∃ w, S v w) (before : W) (hb : T before) :
    {after // S v after ∧ T after} :=
  match hconv : convert v before with
  | .ok after => ⟨after, by
      obtain ⟨w, hw⟩ := hv
      obtain ⟨after', hok, hS, hT⟩ := h v w before hw hb
      rw [hconv] at hok
      obtain rfl := Except.ok.inj hok
      exact ⟨hS, hT⟩⟩
  | .error e => False.elim (by
      obtain ⟨w, hw⟩ := hv
      obtain ⟨after, hok, -, -⟩ := h v w before hw hb
      rw [hconv] at hok
      cases hok)

def toXtypesValue {t : FieldType τ} {convert : Conversion R X}
    (h : Transfers convert (t.Counterparts c) (t.Shape inXtypes)) (m : Ros2Value c t) (before : XtypesValue c t) :
    XtypesValue c t :=
  let after := transfer h m.1 m.2.2 before.1 before.2.1
  ⟨after.1, after.2.2, m.1, after.2.1⟩

def toRos2Value {t : FieldType τ} {convert : Conversion X R}
    (h : Transfers convert (fun d m => t.Counterparts c m d) (t.Shape inRos2)) (d : XtypesValue c t)
    (before : Ros2Value c t) : Ros2Value c t :=
  let after := transfer h d.1 d.2.2 before.1 before.2.1
  ⟨after.1, after.2.2, d.1, after.2.1⟩

/-- A value converted to xtypes and back agrees with itself, whatever the targets held. -/
theorem agree_toRos2Value {t : FieldType τ} {toX : Conversion R X} {toR : Conversion X R}
    (hX : Transfers toX (t.Counterparts c) (t.Shape inXtypes))
    (hR : Transfers toR (fun d m => t.Counterparts c m d) (t.Shape inRos2)) (m before' : Ros2Value c t)
    (before : XtypesValue c t) : t.Agree m.1 (toRos2Value hR (toXtypesValue hX m before) before').1 := by
  have hthere : t.Counterparts c m.1 (toXtypesValue hX m before).1 :=
    (transfer hX m.1 m.2.2 before.1 before.2.1).2.1
  exact counterparts_agree t hthere (transfer hR _ (toXtypesValue hX m before).2.2 before'.1 before'.2.1).2.1

end Convert

/-! ### The converters of a generated service -/

/-- A service without the placeholder in its request or its response, whose messages are converted without loss. -/
structure GeneratedService (τ : Type) where
  request : Structure τ
  response : Structure τ
  wellFormed : (Specification.service request response).WellFormed
  convertible : (Specification.service request response).Convertible

theorem transfers_sortedByName (hc : c.Lawful ros2 xtypes) {s : Structure τ} (hw : s.toType.WellFormed)
    (hs : placeholder ∉ s.fields ∧ ∀ name ∈ s.fields, (s.type name).Convertible) :
    Transfers (toXtype (sortedByName (s.converts c))) (s.toType.Counterparts c) (s.toType.Shape inXtypes) ∧
      Transfers (toRos2 (sortedByName (s.converts c))) (fun d m => s.toType.Counterparts c m d)
        (s.toType.Shape inRos2) := by
  have hsel : Selects c s (sortedByName (s.converts c)) := selects_sortedByName hw.1 hs.1
  constructor
  · exact hsel.toXtype fun name hname _ => transfers_toXtype hc _ (hw.2 name hname) (hs.2 name hname)
  · exact hsel.toRos2 fun name hname _ => transfers_fromXtype hc _ (hw.2 name hname) (hs.2 name hname)

namespace GeneratedService

variable (g : GeneratedService τ) (hc : c.Lawful ros2 xtypes)

/-- The dynamic data of the service: one of the type of its requests and one of the type of its responses. -/
abbrev Data (c : IsCore τ R X) : Type := XtypesValue c g.request.toType × XtypesValue c g.response.toType

/-- The four functions that `convert__srv.cpp.em` generates. -/
def converters :
    Converters (Ros2Value c g.request.toType) (Ros2Value c g.response.toType) (g.Data c) where
  requestToRos2 data := toRos2Value (transfers_sortedByName hc g.wellFormed.1 g.convertible.1).2 data.1
  requestToXtype request data :=
    (toXtypesValue (transfers_sortedByName hc g.wellFormed.1 g.convertible.1).1 request data.1, data.2)
  responseToRos2 data := toRos2Value (transfers_sortedByName hc g.wellFormed.2 g.convertible.2).2 data.2
  responseToXtype response data :=
    (data.1, toXtypesValue (transfers_sortedByName hc g.wellFormed.2 g.convertible.2).1 response data.2)

variable {g hc}

theorem agree_request (request before : Ros2Value c g.request.toType) (data : g.Data c) :
    g.request.toType.Agree request.1
      ((g.converters hc).requestToRos2 ((g.converters hc).requestToXtype request data) before).1 :=
  agree_toRos2Value _ _ request before data.1

theorem agree_response (response before : Ros2Value c g.response.toType) (data : g.Data c) :
    g.response.toType.Agree response.1
      ((g.converters hc).responseToRos2 ((g.converters hc).responseToXtype response data) before).1 :=
  agree_toRos2Value _ _ response before data.2

end GeneratedService

/-! ### The bridged service -/

namespace Bridge

open ClientProxy (RequestId)

variable {ι : Type}

/-- The server answers a request that agrees with this one by a response that agrees with `after`. -/
def AnswersDirectly (g : GeneratedService τ)
    (Serves : Ros2Value c g.request.toType → Ros2Value c g.response.toType → Prop)
    (request : Ros2Value c g.request.toType) (after : Ros2Value c g.response.toType) : Prop :=
  ∃ request' response, g.request.toType.Agree request.1 request'.1 ∧ Serves request' response ∧
    g.response.toType.Agree response.1 after.1

/-- **A bridged service is the service itself**, where its messages are converted without loss.  In every run of the
bridge with the generated converters and timely replies, each client gets for each of its requests what the server
answers to it, every field of it at every depth, or its response object as it was. -/
theorem bridge_transparent [DecidableEq ι] (g : GeneratedService τ) (hc : c.Lawful ros2 xtypes)
    (Serves : Ros2Value c g.request.toType → Ros2Value c g.response.toType → Prop) (requestData : ι → g.Data c)
    (response : ι → Ros2Value c g.response.toType) (request : Ros2Value c g.request.toType) (data : g.Data c)
    (as : List (Action ι (Ros2Value c g.request.toType) (Ros2Value c g.response.toType) (g.Data c)))
    (t : State ι (Ros2Value c g.request.toType) (Ros2Value c g.response.toType) (g.Data c))
    (hr : run (step (g.converters hc)) (initial requestData response request data) as = some t)
    (ha : Along (step (g.converters hc)) (fun s a => Timely s a ∧ Honest Serves s a)
      (initial requestData response request data) as) :
    ∀ i k before after, .returned k before after ∈ (t.client i).trace → ∃ q, (requestsOf i as)[k]? = some q ∧
      (AnswersDirectly g Serves q after ∨ (after = before ∧ ∀ result, .replied k result ∉ (t.client i).trace)) := by
  intro i k before after hm
  obtain ⟨hs, hrequests⟩ := faithful_of_run hr ha
  obtain ⟨q, hq, hout⟩ := hs.outcome hm
  rw [hrequests i] at hq
  refine ⟨q, hq, hout.imp_left ?_⟩
  rintro ⟨response, p₁, p₂, p₃, p₄, hserves, rfl⟩
  exact ⟨_, response, GeneratedService.agree_request q p₂ p₁, hserves, GeneratedService.agree_response response p₄ p₃⟩

/-! ### A service that adds one -/

/-- A structure with one number. -/
def oneNumber (name : String) : Structure Unit := ⟨[name], fun _ => .primitive ()⟩

def addOne : GeneratedService Unit where
  request := oneNumber "a"
  response := oneNumber "sum"
  wellFormed := ⟨⟨by decide, fun _ _ => trivial⟩, by decide, fun _ _ => trivial⟩
  convertible := ⟨⟨by decide, fun _ _ => trivial⟩, by decide, fun _ _ => trivial⟩

/-- The structure with the number `n`. -/
def number (name : String) (n : ℕ) : Value ℕ := (oneNumber name).toType.inhabitant inRos2 fun _ => n

theorem number_hasType (name : String) (n : ℕ) :
    (oneNumber name).toType.HasType (fun _ _ => True) inRos2 (number name n) :=
  hasType_inhabitant (fun _ => trivial) _

def ros2Number (name : String) (n : ℕ) : Ros2Value numberCore (oneNumber name).toType :=
  ⟨number name n, number_hasType name n,
    (exists_xtypes_counterpart numberCore_lawful _ (number_hasType name n)).imp fun _ h => h.1⟩

def xtypesNumber (name : String) (n : ℕ) : XtypesValue numberCore (oneNumber name).toType :=
  ⟨(oneNumber name).toType.inhabitant inXtypes fun _ => n, hasType_inhabitant (fun _ => trivial) _,
    exists_ros2_counterpart numberCore_lawful _ (hasType_inhabitant (fun _ => trivial) _)⟩

/-- The number of a structure. -/
def numberOf (name : String) : Value ℕ → Option ℕ
  | .struct member => match member name with
    | some (.leaf n) => some n
    | _ => none
  | _ => none

/-- One request that is answered in time. -/
def addOneRun : List (Action Unit (Ros2Value numberCore addOne.request.toType)
    (Ros2Value numberCore addOne.response.toType) (addOne.Data numberCore)) :=
  [.client () (.serviceCallback (ros2Number "a" 7) (ros2Number "sum" 0)), .callService () true 0,
    .server (.requestToRos2 0), .server (.asyncSendRequest 0), .server (.waitForResponse 0 (ros2Number "sum" 8) 0),
    .client () .callbackReturns, .server (.responseToXtype 0), .receiveResponse 0, .client () .ready]

theorem bridge_transparent_addOne : ∃ t,
    run (step (addOne.converters numberCore_lawful))
        (initial (fun _ => (xtypesNumber "a" 0, xtypesNumber "sum" 0)) (fun _ => ros2Number "sum" 0) (ros2Number "a" 0)
          (xtypesNumber "a" 0, xtypesNumber "sum" 0)) addOneRun = some t ∧
      ∀ i k before after, .returned k before after ∈ (t.client i).trace → ∃ q, (requestsOf i addOneRun)[k]? = some q ∧
        (AnswersDirectly addOne (fun q r => numberOf "sum" r.1 = (numberOf "a" q.1).map (· + 1)) q after ∨
          (after = before ∧ ∀ result, .replied k result ∉ (t.client i).trace)) :=
  ⟨_, rfl, bridge_transparent addOne numberCore_lawful
    (fun q r => numberOf "sum" r.1 = (numberOf "a" q.1).map (· + 1))
    (fun _ => (xtypesNumber "a" 0, xtypesNumber "sum" 0)) (fun _ => ros2Number "sum" 0) (ros2Number "a" 0)
    (xtypesNumber "a" 0, xtypesNumber "sum" 0) addOneRun _ rfl (by decide)⟩

end Bridge

end Ros2Sh.Service
