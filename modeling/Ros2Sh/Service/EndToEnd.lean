import Mathlib.Data.Fintype.Basic
import Ros2Sh.Service.Bridge

/-!
# What a client gets through the bridge

The results about the bridged service as its clients see it, over every run of the bridge:

* `answers_own_request` — with timely replies, what a client gets back for a request is the translation of a response
  that the server gave to the translation of that very request, or its response object as it was;
* `reply_accepted` — the server proxy answers a request at most once and only when it is awaited, which is what a
  client proxy relies on;
* `no_answer_on_one_executor` — a route whose two sides share one executor never answers: every reply is late.
-/

namespace Ros2Sh.Service.Bridge

open Ros2Sh.Lib
open ClientProxy (RequestId)

variable {ι Req Resp Data : Type}

/-! ### The handover of a response -/

section Handover

variable {c : Converters Req Resp Data} {s t : State ι Req Resp Data}

/-- Where the reply to a client comes from: an accepted call for its request, for which rclcpp passed a response. -/
theorem Linked.answer_of_replied (hs : Linked c s) {i : ι} {k : RequestId} {result : Data}
    (hm : .replied k result ∈ (s.client i).trace) : ∃ j call response prior, s.server.calls[j]? = some call ∧
      call.available = true ∧ call.client = i ∧ call.handle = k ∧ .answered j response ∈ s.server.trace ∧
        result = c.responseToXtype response prior := by
  obtain ⟨j, hj⟩ := hs.replied i k result hm
  obtain ⟨call, hcall, hh⟩ := hs.server.call_of_mem hj
  obtain ⟨hc, hn, response, prior, hans, hresult⟩ :=
    hh.receiveResponse_mem (ServerProxy.mem_history.mpr ⟨hj, rfl⟩)
  exact ⟨j, call, response, prior, hcall, hh.available_of_answered hans, hc.symm, hn.symm,
    (ServerProxy.mem_history.mp hans).1, hresult⟩

variable [DecidableEq ι]

theorem Linked.exists_receiveResponse (hs : Linked c s) {j : ℕ} {call : ServerProxy.Call Resp Data ι RequestId}
    {o p : ℕ} {r : Resp} (hcall : s.server.calls[j]? = some call) (hstage : call.stage = .responseTranslated o p r)
    (hub : (s.client call.client).undefinedBehaviour = false) :
    call.handle ∈ (s.client call.client).outstanding ∧ ∃ u, step c s (.receiveResponse j) = some u := by
  have hawaited : call.handle ∈ (s.client call.client).outstanding :=
    hs.awaited j call hcall (by rw [hstage]; trivial)
  refine ⟨hawaited, ?_⟩
  obtain ⟨server, hserver⟩ : ∃ u, ServerProxy.step c s.server (.receiveResponse j) = some u := by
    simp [ServerProxy.step, hcall, hstage]
  obtain ⟨client, hclient⟩ : ∃ u, ClientProxy.step c (s.client call.client)
      (.receiveResponse call.handle (s.server.responseObject p)) = some u := by
    simp [ClientProxy.step, hub, hawaited]
  exact ⟨{ s with server := server, client := Function.update s.client call.client client }, by
    simp [step, hcall, hstage, hserver, hclient]⟩

/-- **A response is never refused**: in every reachable state, the response that has been translated for a call can be
handed to the client of the call, which awaits it, unless that client has run into undefined behaviour; and a client
only gets replies to requests for which a call was accepted. -/
theorem reply_accepted (c : Converters Req Resp Data) (requestData : ι → Data) (response : ι → Resp) (request : Req)
    (data : Data) (as : List (Action ι Req Resp Data)) (t : State ι Req Resp Data)
    (hr : run (step c) (initial requestData response request data) as = some t) :
    (∀ (j : ℕ) (call : ServerProxy.Call Resp Data ι RequestId) (o p : ℕ) (r : Resp), t.server.calls[j]? = some call →
      call.stage = .responseTranslated o p r → (t.client call.client).undefinedBehaviour = false →
        call.handle ∈ (t.client call.client).outstanding ∧ ∃ u, step c t (.receiveResponse j) = some u) ∧
    ∀ i k result, .replied k result ∈ (t.client i).trace → ∃ (j : ℕ) (call : ServerProxy.Call Resp Data ι RequestId),
      t.server.calls[j]? = some call ∧ call.available = true ∧ call.client = i ∧ call.handle = k := by
  have hs : Linked c t := linked_of_run hr
  constructor
  · intro j call o p r hcall hstage hub
    exact hs.exists_receiveResponse hcall hstage hub
  · intro i k result hm
    obtain ⟨j, call, -, -, hcall, hav, hi, hk, -, -⟩ := hs.answer_of_replied hm
    exact ⟨j, call, hcall, hav, hi, hk⟩

/-- Two clients ask at the same time, and their calls cross; the one that is answered first returns first, and the
other one gives up. -/
def crossingRequests : List (Action Bool ℕ ℕ ℕ) :=
  [.client false (.serviceCallback 7 0), .client true (.serviceCallback 8 0), .callService true true 0,
    .callService false true 1, .server (.requestToRos2 0), .server (.asyncSendRequest 0), .client true .callbackReturns,
    .server (.requestToRos2 1), .server (.asyncSendRequest 1), .server (.waitForResponse 1 70 0),
    .server (.responseToXtype 1), .receiveResponse 1, .client false .callbackReturns, .client false .ready,
    .server (.recycle 1), .client true .timeout]

theorem reply_accepted_crossing : ∃ t,
    run (step oneField) (initial (fun _ => 0) (fun _ => 0) 0 0) (crossingRequests.take 11) = some t ∧
      (∀ (j : ℕ) (call : ServerProxy.Call ℕ ℕ Bool RequestId) (o p : ℕ) (r : ℕ), t.server.calls[j]? = some call →
        call.stage = .responseTranslated o p r → (t.client call.client).undefinedBehaviour = false →
          call.handle ∈ (t.client call.client).outstanding ∧ ∃ u, step oneField t (.receiveResponse j) = some u) ∧
      ∀ i k result, .replied k result ∈ (t.client i).trace → ∃ (j : ℕ) (call : ServerProxy.Call ℕ ℕ Bool RequestId),
        t.server.calls[j]? = some call ∧ call.available = true ∧ call.client = i ∧ call.handle = k :=
  ⟨_, rfl, reply_accepted oneField (fun _ => 0) (fun _ => 0) 0 0 (crossingRequests.take 11) _ rfl⟩

end Handover

/-! ### What a `service_callback` that has returned was given -/

/-- A request whose `service_callback` has returned is not running any more, and what it returned is the translation of
the reply for it, or there was and will be no reply. -/
structure Settled (c : Converters Req Resp Data) (s : ClientProxy.State Resp Data) : Prop where
  not_running : ∀ k before after, .returned k before after ∈ s.trace → ∀ inv, s.running = some inv → inv.id ≠ k
  outcome : ∀ k before after, .returned k before after ∈ s.trace →
    (∃ result prior, .replied k result ∈ s.trace ∧ after = c.responseToRos2 result prior) ∨
      (after = before ∧ ∀ result, .replied k result ∉ s.trace)

section Settled

variable {c : Converters Req Resp Data} {s t : ClientProxy.State Resp Data}

theorem settled_initial (d : Data) (r : Resp) : Settled c (ClientProxy.initial d r) := by
  constructor <;> simp [ClientProxy.initial]

theorem Settled.returnWith (hs : Settled c s) {inv : ClientProxy.Invocation Resp} {after : Resp}
    (ha : ClientProxy.Agrees c s.trace inv.id inv.response after) : Settled c (ClientProxy.returnWith s inv after) where
  not_running := by simp [ClientProxy.returnWith]
  outcome k before after' hm := by
    have hreplied : ∀ k' result, .replied k' result ∈ (ClientProxy.returnWith s inv after).trace ↔
        .replied k' result ∈ s.trace := by simp [ClientProxy.returnWith]
    simp only [hreplied]
    rcases List.mem_cons.mp hm with he | hold
    · obtain ⟨rfl, rfl, rfl⟩ := ClientProxy.Event.returned.inj he
      exact ha
    · exact hs.outcome k before after' hold

/-- A step with a timely reply, if it is one, changes nothing of what has been settled. -/
theorem settled_step {a : ClientProxy.Action Req Resp Data} (hs : Settled c s) (hinv : ClientProxy.Inv c s)
    (hacc : ClientProxy.Accounted s) (ht : ClientProxy.Timely s a) (h : ClientProxy.step c s a = some t) :
    Settled c t := by
  cases a with
  | serviceCallback request response =>
    obtain ⟨-, rfl⟩ := ClientProxy.step_serviceCallback h
    refine ⟨fun k before after hm inv hrun => ?_, fun k before after hm => ?_⟩
    · obtain rfl : _ = inv := by simpa [ClientProxy.serviceCallback] using hrun
      have hlt := hacc.returned_lt k before after (by simpa [ClientProxy.serviceCallback] using hm)
      exact Nat.ne_of_gt hlt
    · simpa [ClientProxy.serviceCallback] using
        hs.outcome k before after (by simpa [ClientProxy.serviceCallback] using hm)
  | callbackReturns =>
    obtain ⟨inv₀, hrun₀, -, rfl⟩ := ClientProxy.step_callbackReturns h
    refine ⟨fun k before after hm inv hrun => ?_, hs.outcome⟩
    obtain rfl := Option.some.inj hrun
    exact hs.not_running k before after hm inv₀ hrun₀
  | ready =>
    obtain ⟨inv, r, hrun, -, hp, rfl⟩ := ClientProxy.step_ready h
    obtain ⟨-, result, prior, hmem, hr⟩ := hinv.isSet inv r hrun hp
    exact hs.returnWith (.inl ⟨result, prior, hmem, hr⟩)
  | timeout =>
    obtain ⟨inv, hrun, -, hp, rfl⟩ := ClientProxy.step_timeout h
    exact hs.returnWith (.inr ⟨rfl, hinv.unset inv hrun hp⟩)
  | receiveResponse k result =>
    obtain ⟨hk, rfl⟩ := ClientProxy.step_receiveResponse h
    obtain ⟨inv, hrun, rfl, -, heq⟩ := hinv.receiveResponse_eq hk ht
    rw [heq]
    refine ⟨fun k' before after hm inv' hrun' => ?_, fun k' before after hm => ?_⟩
    · obtain rfl := Option.some.inj hrun'
      exact hs.not_running k' before after (by simpa using hm) inv hrun
    · have hold : .returned k' before after ∈ s.trace := by simpa using hm
      -- the reply is for the request that is running, so for no request that has returned
      have hne : inv.id ≠ k' := hs.not_running k' before after hold inv hrun
      rcases hs.outcome k' before after hold with ⟨result', prior, hr, hafter⟩ | ⟨hafter, hnone⟩
      · exact .inl ⟨result', prior, List.mem_cons_of_mem _ hr, hafter⟩
      · refine .inr ⟨hafter, fun result' hr => ?_⟩
        rcases List.mem_cons.mp hr with he | hr
        · exact hne (ClientProxy.Event.replied.inj he).1.symm
        · exact hnone result' hr

end Settled

/-! ### Timely replies of a server -/

/-- The reply reaches the client while the `service_callback` of its request is running. -/
def Timely (s : State ι Req Resp Data) : Action ι Req Resp Data → Prop
  | .receiveResponse j =>
    ∀ call ∈ s.server.calls[j]?, ∃ inv ∈ (s.client call.client).running, inv.id = call.handle
  | .client _ _ | .callService _ _ _ | .server _ => True

/-- The contents that were sent for the call `j`. -/
def contentsSent (j : ℕ) (trace : List (ServerProxy.Event Req Resp Data ι RequestId)) : List Req :=
  trace.filterMap fun e => match e with
    | .sent j' content => if j' = j then some content else none
    | _ => none

/-- The ROS 2 server answers as `Serves` says. -/
def Honest (Serves : Req → Resp → Prop) (s : State ι Req Resp Data) : Action ι Req Resp Data → Prop
  | .server (.waitForResponse j response _) => ∀ content ∈ contentsSent j s.server.trace, Serves content response
  | _ => True

/-- The requests of the client `i`, in order. -/
def requestsOf [DecidableEq ι] (i : ι) (as : List (Action ι Req Resp Data)) : List Req :=
  as.flatMap fun a => match a with
    | .client i' a => if i' = i then received a else []
    | .callService _ _ _ | .server _ | .receiveResponse _ => []

/-- `after` is the translation of a response that the server gave to the translation of the request. -/
def Answers (c : Converters Req Resp Data) (Serves : Req → Resp → Prop) (request : Req) (after : Resp) : Prop :=
  ∃ response p₁ p₂ p₃ p₄, Serves (c.requestToRos2 (c.requestToXtype request p₁) p₂) response ∧
    after = c.responseToRos2 (c.responseToXtype response p₃) p₄

instance (s : State ι Req Resp Data) : DecidablePred (Timely s)
  | .receiveResponse j => inferInstanceAs (Decidable (∀ call ∈ s.server.calls[j]?,
      ∃ inv ∈ (s.client call.client).running, inv.id = call.handle))
  | .client _ _ | .callService _ _ _ | .server _ => isTrue trivial

instance (Serves : Req → Resp → Prop) [∀ q r, Decidable (Serves q r)] (s : State ι Req Resp Data) :
    DecidablePred (Honest Serves s)
  | .server (.waitForResponse j response _) =>
    inferInstanceAs (Decidable (∀ content ∈ contentsSent j s.server.trace, Serves content response))
  | .server (.callService _ _) | .server (.requestToRos2 _) | .server (.asyncSendRequest _)
  | .server (.responseToXtype _) | .server (.receiveResponse _) | .server (.recycle _) | .server (.throws _)
  | .client _ _ | .callService _ _ _ | .receiveResponse _ => isTrue trivial

section Timely

variable {c : Converters Req Resp Data} {s t : State ι Req Resp Data} {Serves : Req → Resp → Prop} {j : ℕ}

theorem mem_contentsSent {content : Req} {trace : List (ServerProxy.Event Req Resp Data ι RequestId)} :
    content ∈ contentsSent j trace ↔ .sent j content ∈ trace := by
  unfold contentsSent
  rw [List.mem_filterMap]
  constructor
  · rintro ⟨e, he, hc⟩
    cases e with
    | sent j' content' =>
      simp only [Option.ite_none_right_eq_some, Option.some.injEq] at hc
      obtain ⟨rfl, rfl⟩ := hc
      exact he
    | answered _ _ => cases hc
    | receiveResponse _ _ _ _ => cases hc
  · intro h
    exact ⟨_, h, by simp⟩

/-- The invariant of the runs with timely replies of an honest server. -/
structure Faithful (c : Converters Req Resp Data) (Serves : Req → Resp → Prop) (s : State ι Req Resp Data) : Prop where
  linked : Linked c s
  clients : ∀ i, ClientProxy.Inv c (s.client i)
  settled : ∀ i, Settled c (s.client i)
  /-- A response was given to what was sent for the call. -/
  served : ∀ j response, .answered j response ∈ s.server.trace →
    ∃ content, .sent j content ∈ s.server.trace ∧ Serves content response

theorem sent_of_stage {s : ServerProxy.State Req Resp Data ι RequestId} (hs : ServerProxy.Inv c s)
    {call : ServerProxy.Call Resp Data ι RequestId} {o : ℕ} (hj : s.calls[j]? = some call)
    (ho : call.stage = .sent o) : ∃ content, .sent j content ∈ s.trace := by
  have hh := hs.history j call hj
  rw [ho] at hh
  generalize hist : s.history j = h at hh
  cases hh with
  | sent prior _ =>
    have hmem : .sent j (c.requestToRos2 call.request prior) ∈ s.history j := by
      rw [hist]
      exact List.mem_cons_self ..
    exact ⟨_, (ServerProxy.mem_history.mp hmem).1⟩

theorem Faithful.moveServer (hs : Faithful c Serves s) {a : ServerProxy.Action Resp Data ι RequestId}
    {u : ServerProxy.State Req Resp Data ι RequestId} (h : ServerProxy.step c s.server a = some u)
    (hhonest : ∀ j response p, a = .waitForResponse j response p →
      ∀ content ∈ contentsSent j s.server.trace, Serves content response) :
    ∀ j response, .answered j response ∈ u.trace → ∃ content, .sent j content ∈ u.trace ∧ Serves content response := by
  intro j response hm
  rcases ServerProxy.answered_step h hm with hold | ⟨p, rfl⟩
  · obtain ⟨content, hsent, hserves⟩ := hs.served j response hold
    exact ⟨content, ServerProxy.mem_trace_of_step h hsent, hserves⟩
  · obtain ⟨call, o, -, hcall, ho, -, -⟩ := ServerProxy.step_waitForResponse h
    obtain ⟨content, hsent⟩ := sent_of_stage hs.linked.server hcall ho
    have hserves : Serves content response := hhonest j response p rfl content (mem_contentsSent.mpr hsent)
    exact ⟨content, ServerProxy.mem_trace_of_step h hsent, hserves⟩

theorem faithful_initial (requestData : ι → Data) (response : ι → Resp) (request : Req) (data : Data) :
    Faithful c Serves (initial requestData response request data) where
  linked := linked_initial requestData response request data
  clients i := ClientProxy.inv_initial (requestData i) (response i)
  settled i := settled_initial (requestData i) (response i)
  served := by simp [initial, ServerProxy.initial]

/-- What was sent for a call of a client answers the request of the client. -/
theorem Faithful.answers (hs : Faithful c Serves s) {i : ι} {k : RequestId} {result : Data} {prior : Resp}
    {request : Req} (hk : (s.requests i)[k]? = some request) (hm : .replied k result ∈ (s.client i).trace) :
    Answers c Serves request (c.responseToRos2 result prior) := by
  obtain ⟨j, call, response, p₃, hcall, -, rfl, rfl, hans, rfl⟩ := hs.linked.answer_of_replied hm
  obtain ⟨content, hsent, hserves⟩ := hs.served j response hans
  obtain ⟨call', hcall', hh⟩ := hs.linked.server.call_of_mem hsent
  obtain rfl : call = call' := Option.some.inj (hcall.symm.trans hcall')
  obtain ⟨-, p₂, rfl⟩ := hh.sent_mem (ServerProxy.mem_history.mpr ⟨hsent, rfl⟩)
  obtain ⟨request', p₁, hk', hdata⟩ := hs.linked.forwarded _ _ _ (hs.linked.passed j call hcall)
  obtain rfl : request = request' := Option.some.inj (hk.symm.trans hk')
  exact ⟨response, p₁, p₂, p₃, prior, by rwa [← hdata], rfl⟩

/-- A request of a client that has returned was answered by the server, or nothing came back for it. -/
theorem Faithful.outcome (hs : Faithful c Serves s) {i : ι} {k : RequestId} {before after : Resp}
    (hm : .returned k before after ∈ (s.client i).trace) : ∃ request, (s.requests i)[k]? = some request ∧
      (Answers c Serves request after ∨ (after = before ∧ ∀ result, .replied k result ∉ (s.client i).trace)) := by
  have hlt : k < (s.requests i).length := by
    rw [hs.linked.requests i]
    exact (hs.linked.clients i).returned_lt k before after hm
  refine ⟨_, List.getElem?_eq_getElem hlt, ?_⟩
  rcases (hs.settled i).outcome k before after hm with ⟨result, prior, hreplied, rfl⟩ | hnothing
  · exact .inl (hs.answers (List.getElem?_eq_getElem hlt) hreplied)
  · exact .inr hnothing

variable [DecidableEq ι]

theorem forall_client_update {I : ClientProxy.State Resp Data → Prop} (hs : ∀ i, I (s.client i)) {i : ι}
    {u : ClientProxy.State Resp Data} (hu : I u) : ∀ i', I (Function.update s.client i u i') := by
  intro i'
  rcases eq_or_ne i' i with rfl | hne
  · rwa [Function.update_self]
  · rw [Function.update_of_ne hne]
    exact hs i'

theorem Faithful.moveClient (hs : Faithful c Serves s) {i : ι} {a : ClientProxy.Action Req Resp Data}
    {u : ClientProxy.State Resp Data} (ht : ClientProxy.Timely (s.client i) a)
    (h : ClientProxy.step c (s.client i) a = some u) :
    (∀ i', ClientProxy.Inv c (Function.update s.client i u i')) ∧ ∀ i', Settled c (Function.update s.client i u i') :=
  ⟨forall_client_update hs.clients (ClientProxy.inv_step (hs.clients i) ht h),
    forall_client_update hs.settled (settled_step (hs.settled i) (hs.clients i) (hs.linked.clients i) ht h)⟩

theorem faithful_step {a : Action ι Req Resp Data} (hs : Faithful c Serves s) (ht : Timely s a)
    (hh : Honest Serves s a) (h : step c s a = some t) : Faithful c Serves t := by
  have hlinked : Linked c t := linked_step hs.linked h
  cases a with
  | client i a =>
    obtain ⟨hallows, u, hu, rfl⟩ := step_client h
    have htimely : ClientProxy.Timely (s.client i) a := by
      cases a with
      | receiveResponse k result => exact hallows.elim
      | serviceCallback _ _ => trivial
      | callbackReturns => trivial
      | ready => trivial
      | timeout => trivial
    obtain ⟨hclients, hsettled⟩ := hs.moveClient htimely hu
    exact ⟨hlinked, hclients, hsettled, hs.served⟩
  | callService i available o =>
    obtain ⟨inv, u, -, -, -, hu, rfl⟩ := step_callService h
    exact ⟨hlinked, hs.clients, hs.settled, hs.moveServer hu fun _ _ _ ha => by cases ha⟩
  | server a =>
    obtain ⟨-, u, hu, rfl⟩ := step_server h
    refine ⟨hlinked, hs.clients, hs.settled, hs.moveServer hu ?_⟩
    rintro j response p rfl
    exact hh
  | receiveResponse j =>
    obtain ⟨call, o, p, response, server, client, hcall, -, hserver, hclient, rfl⟩ := step_receiveResponse h
    have htimely : ClientProxy.Timely (s.client call.client)
        (.receiveResponse call.handle (s.server.responseObject p) : ClientProxy.Action Req Resp Data) :=
      ht call hcall
    obtain ⟨hclients, hsettled⟩ := hs.moveClient htimely hclient
    exact ⟨hlinked, hclients, hsettled, hs.moveServer hserver fun _ _ _ ha => by cases ha⟩

theorem requests_step {a : Action ι Req Resp Data} (h : step c s a = some t) (i : ι) :
    t.requests i = s.requests i ++ requestsOf i [a] := by
  cases a with
  | client i' a =>
    obtain ⟨-, u, -, rfl⟩ := step_client h
    rcases eq_or_ne i i' with rfl | hne
    · simp [requestsOf]
    · simp [requestsOf, hne, Ne.symm hne]
  | callService i' available o =>
    obtain ⟨_, _, _, _, _, _, rfl⟩ := step_callService h
    simp [requestsOf]
  | server a =>
    obtain ⟨-, _, -, rfl⟩ := step_server h
    simp [requestsOf]
  | receiveResponse j =>
    obtain ⟨_, _, _, _, _, _, _, _, _, _, rfl⟩ := step_receiveResponse h
    simp [requestsOf]

theorem requests_of_run {as : List (Action ι Req Resp Data)} (hr : run (step c) s as = some t) (i : ι) :
    t.requests i = s.requests i ++ requestsOf i as := by
  induction as generalizing s with
  | nil =>
    obtain rfl : s = t := by simpa using hr
    simp [requestsOf]
  | cons a as ih =>
    obtain ⟨u, hu, ht⟩ := run_cons.mp hr
    rw [ih ht, requests_step hu i, List.append_assoc]
    simp [requestsOf]

theorem faithful_of_run {requestData : ι → Data} {response : ι → Resp} {request : Req} {data : Data}
    {as : List (Action ι Req Resp Data)} (hr : run (step c) (initial requestData response request data) as = some t)
    (hc : Along (step c) (fun s a => Timely s a ∧ Honest Serves s a) (initial requestData response request data) as) :
    Faithful c Serves t ∧ ∀ i, t.requests i = requestsOf i as := by
  constructor
  · exact run_inv (fun _ _ _ hs hc h => faithful_step hs hc.1 hc.2 h)
      (faithful_initial requestData response request data) hc hr
  · intro i
    simpa [initial] using requests_of_run hr i

/-- **A client gets the answer to its own request, or nothing**, in every run of the bridge whose replies are timely,
whatever the interleaving of any number of clients and calls; nothing only if no reply was handed to its proxy. -/
theorem answers_own_request (c : Converters Req Resp Data) (Serves : Req → Resp → Prop) (requestData : ι → Data)
    (response : ι → Resp) (request : Req) (data : Data) (as : List (Action ι Req Resp Data)) (t : State ι Req Resp Data)
    (hr : run (step c) (initial requestData response request data) as = some t)
    (hc : Along (step c) (fun s a => Timely s a ∧ Honest Serves s a) (initial requestData response request data) as) :
    ∀ i k before after, .returned k before after ∈ (t.client i).trace → ∃ q, (requestsOf i as)[k]? = some q ∧
      (Answers c Serves q after ∨ (after = before ∧ ∀ result, .replied k result ∉ (t.client i).trace)) := by
  intro i k before after hm
  obtain ⟨hs, hrequests⟩ := faithful_of_run hr hc
  rw [← hrequests i]
  exact hs.outcome hm

theorem answers_own_request_crossing : ∃ t,
    run (step oneField) (initial (fun _ => 0) (fun _ => 0) 0 0) crossingRequests = some t ∧
      ∀ i k before after, .returned k before after ∈ (t.client i).trace →
        ∃ q, (requestsOf i crossingRequests)[k]? = some q ∧
          (Answers oneField (fun q r => r = 10 * q) q after ∨
            (after = before ∧ ∀ result, .replied k result ∉ (t.client i).trace)) :=
  ⟨_, rfl, answers_own_request oneField (fun q r => r = 10 * q) (fun _ => 0) (fun _ => 0) 0 0 crossingRequests _ rfl
    (by decide)⟩

end Timely

/-! ### Both sides of a route on one executor -/

/-- The callback is running that rclcpp invokes with the response of the call. -/
def InCallback : ServerProxy.Stage Resp → Prop
  | .answered _ _ _ | .responseTranslated _ _ _ | .delivering _ _ => True
  | .refused | .popped _ | .translated _ | .sent _ | .done | .threw => False

/-- No callback of the executor is running, neither a `service_callback` nor one for a response. -/
def Idle (s : State ι Req Resp Data) : Prop :=
  (∀ i, (s.client i).running.isNone) ∧ ∀ call ∈ s.server.calls, ¬ InCallback call.stage

/-- The handles of both sides share their single-threaded executor: a callback is entered when none is running. -/
def OneExecutor (s : State ι Req Resp Data) : Action ι Req Resp Data → Prop
  | .client _ (.serviceCallback _ _) | .server (.waitForResponse _ _ _) => Idle s
  | _ => True

instance : DecidablePred fun stage : ServerProxy.Stage Resp => InCallback stage
  | .answered _ _ _ | .responseTranslated _ _ _ | .delivering _ _ => isTrue trivial
  | .refused | .popped _ | .translated _ | .sent _ | .done | .threw => isFalse id

instance [Fintype ι] (s : State ι Req Resp Data) : Decidable (Idle s) :=
  inferInstanceAs (Decidable ((∀ i, (s.client i).running.isNone) ∧ ∀ call ∈ s.server.calls, ¬ InCallback call.stage))

instance [Fintype ι] (s : State ι Req Resp Data) : DecidablePred (OneExecutor s)
  | .client _ (.serviceCallback _ _) | .server (.waitForResponse _ _ _) => inferInstanceAs (Decidable (Idle s))
  | .client _ .callbackReturns | .client _ .ready | .client _ .timeout | .client _ (.receiveResponse _ _)
  | .server (.callService _ _) | .server (.requestToRos2 _) | .server (.asyncSendRequest _)
  | .server (.responseToXtype _) | .server (.receiveResponse _) | .server (.recycle _) | .server (.throws _)
  | .callService _ _ _ | .receiveResponse _ => isTrue trivial

section OneExecutor

variable {c : Converters Req Resp Data} {s t : State ι Req Resp Data}

theorem inCallback_of_step {s u : ServerProxy.State Req Resp Data ι RequestId}
    {a : ServerProxy.Action Resp Data ι RequestId} (h : ServerProxy.step c s a = some u)
    (ha : ∀ j response p, a ≠ .waitForResponse j response p) {call : ServerProxy.Call Resp Data ι RequestId}
    (hcall : call ∈ u.calls) (hin : InCallback call.stage) : ∃ call₀ ∈ s.calls, InCallback call₀.stage := by
  obtain ⟨j, hj⟩ := List.mem_iff_getElem?.mp hcall
  have hold : (∃ call₀, s.calls[j]? = some call₀ ∧ call₀.toArguments = call.toArguments ∧ InCallback call₀.stage) →
      ∃ call₀ ∈ s.calls, InCallback call₀.stage := fun ⟨call₀, h₀, _, hin₀⟩ => ⟨call₀, List.mem_of_getElem? h₀, hin₀⟩
  cases a with
  | callService args o =>
    rcases ServerProxy.step_callService h with ⟨-, rfl⟩ | ⟨-, pool, -, rfl⟩
    · rcases ServerProxy.getElem?_append_single_cases hj with h₀ | ⟨-, rfl⟩
      · exact ⟨call, List.mem_of_getElem? h₀, hin⟩
      · exact hin.elim
    · rcases ServerProxy.getElem?_append_single_cases hj with h₀ | ⟨-, rfl⟩
      · exact ⟨call, List.mem_of_getElem? h₀, hin⟩
      · exact hin.elim
  | requestToRos2 i =>
    obtain ⟨_, _, hi, -, rfl⟩ := ServerProxy.step_requestToRos2 h
    exact hold (ServerProxy.stage_moveTo hi False.elim hj hin)
  | asyncSendRequest i =>
    obtain ⟨_, _, hi, -, rfl⟩ := ServerProxy.step_asyncSendRequest h
    exact hold (ServerProxy.stage_moveTo hi False.elim hj hin)
  | waitForResponse i response p => exact absurd rfl (ha i response p)
  | responseToXtype i =>
    obtain ⟨_, _, _, _, hi, ho, rfl⟩ := ServerProxy.step_responseToXtype h
    exact hold (ServerProxy.stage_moveTo hi (fun _ => by rw [ho]; trivial) hj hin)
  | receiveResponse i =>
    obtain ⟨_, _, _, _, hi, ho, rfl⟩ := ServerProxy.step_receiveResponse h
    exact hold (ServerProxy.stage_moveTo hi (fun _ => by rw [ho]; trivial) hj hin)
  | recycle i =>
    obtain ⟨_, _, _, hi, -, rfl⟩ := ServerProxy.step_recycle h
    exact hold (ServerProxy.stage_moveTo hi False.elim hj hin)
  | throws i =>
    obtain ⟨_, hi, rfl⟩ := ServerProxy.step_throws h
    exact hold (ServerProxy.stage_moveTo hi False.elim hj hin)

/-- The invariant of the runs on one executor: while a `service_callback` runs, no callback for a response does, so no
promise is ever set in time. -/
structure Excluded (s : State ι Req Resp Data) : Prop where
  exclusive : ∀ i inv, (s.client i).running = some inv → ∀ call ∈ s.server.calls, ¬ InCallback call.stage
  unset : ∀ i inv, (s.client i).running = some inv → inv.responsePromise = none
  untouched : ∀ i k before after, .returned k before after ∈ (s.client i).trace → after = before
  expired : ∀ i k result, .replied k result ∈ (s.client i).trace → .expired k ∈ (s.client i).trace

theorem excluded_initial (requestData : ι → Data) (response : ι → Resp) (request : Req) (data : Data) :
    Excluded (initial requestData response request data) := by
  constructor <;> simp [initial, ClientProxy.initial]

/-- A step of the server proxy that enters no callback for a response, or is taken while no client runs. -/
theorem Excluded.moveServer (hs : Excluded s) {a : ServerProxy.Action Resp Data ι RequestId}
    {u : ServerProxy.State Req Resp Data ι RequestId} (h : ServerProxy.step c s.server a = some u)
    (ha : (∀ j response p, a ≠ .waitForResponse j response p) ∨ ∀ i, (s.client i).running.isNone) :
    Excluded { s with server := u } where
  exclusive i inv hrun call hcall hin := by
    rcases ha with hother | hnone
    · obtain ⟨call₀, hcall₀, hin₀⟩ := inCallback_of_step h hother hcall hin
      exact hs.exclusive i inv hrun call₀ hcall₀ hin₀
    · have hnone' := hnone i
      rw [hrun] at hnone'
      cases hnone'
  unset := hs.unset
  untouched := hs.untouched
  expired := hs.expired

variable [DecidableEq ι]

theorem Excluded.moveClient (hs : Excluded s) {i : ι} {u : ClientProxy.State Resp Data} {requests : ι → List Req}
    (hexclusive : ∀ inv, u.running = some inv → ∀ call ∈ s.server.calls, ¬ InCallback call.stage)
    (hunset : ∀ inv, u.running = some inv → inv.responsePromise = none)
    (huntouched : ∀ k before after, .returned k before after ∈ u.trace → after = before)
    (hexpired : ∀ k result, .replied k result ∈ u.trace → .expired k ∈ u.trace) :
    Excluded { s with client := Function.update s.client i u, requests := requests } where
  exclusive := forall_client_update (I := fun x => ∀ inv, x.running = some inv → ∀ call ∈ s.server.calls,
    ¬ InCallback call.stage) hs.exclusive hexclusive
  unset := forall_client_update (I := fun x => ∀ inv, x.running = some inv → inv.responsePromise = none) hs.unset hunset
  untouched := forall_client_update (I := fun x => ∀ k before after, .returned k before after ∈ x.trace →
    after = before) hs.untouched huntouched
  expired := forall_client_update (I := fun x => ∀ k result, .replied k result ∈ x.trace → .expired k ∈ x.trace)
    hs.expired hexpired

theorem excluded_step {a : Action ι Req Resp Data} (hs : Excluded s) (ha : OneExecutor s a)
    (h : step c s a = some t) : Excluded t := by
  cases a with
  | client i a =>
    obtain ⟨hallows, u, hu, rfl⟩ := step_client h
    cases a with
    | serviceCallback request response =>
      obtain ⟨-, rfl⟩ := ClientProxy.step_serviceCallback hu
      refine hs.moveClient (fun _ _ => ha.2) (fun inv hrun => ?_) (fun k before after hm => ?_) fun k result hm => ?_
      · obtain rfl : _ = inv := by simpa [ClientProxy.serviceCallback] using hrun
        rfl
      · exact hs.untouched i k before after (by simpa [ClientProxy.serviceCallback] using hm)
      · exact List.mem_cons_of_mem _ (hs.expired i k result (by simpa [ClientProxy.serviceCallback] using hm))
    | callbackReturns =>
      obtain ⟨inv₀, hrun₀, -, rfl⟩ := ClientProxy.step_callbackReturns hu
      refine hs.moveClient (fun _ _ => hs.exclusive i inv₀ hrun₀) (fun inv hrun => ?_) (hs.untouched i) (hs.expired i)
      obtain rfl := Option.some.inj hrun
      exact hs.unset i inv₀ hrun₀
    | ready =>
      -- no promise is set, so `wait_for` is never ready
      obtain ⟨inv, r, hrun, -, hp, -⟩ := ClientProxy.step_ready hu
      rw [hs.unset i inv hrun] at hp
      cases hp
    | timeout =>
      obtain ⟨inv, hrun, -, -, rfl⟩ := ClientProxy.step_timeout hu
      refine hs.moveClient (by simp [ClientProxy.returnWith]) (by simp [ClientProxy.returnWith])
        (fun k before after hm => ?_) fun k result hm => ?_
      · rcases List.mem_cons.mp hm with he | hm
        · obtain ⟨-, rfl, rfl⟩ := ClientProxy.Event.returned.inj he
          rfl
        · exact hs.untouched i k before after hm
      · exact List.mem_cons_of_mem _ (hs.expired i k result (by simpa [ClientProxy.returnWith] using hm))
    | receiveResponse k result => exact hallows.elim
  | callService i available o =>
    obtain ⟨inv, u, -, -, -, hu, rfl⟩ := step_callService h
    exact hs.moveServer hu (.inl fun _ _ _ he => by cases he)
  | server a =>
    obtain ⟨-, u, hu, rfl⟩ := step_server h
    refine hs.moveServer hu ?_
    cases a with
    | waitForResponse j response p => exact .inr ha.1
    | _ => exact .inl fun _ _ _ he => by cases he
  | receiveResponse j =>
    obtain ⟨call, o, p, response, server, client, hcall, hstage, hserver, hclient, rfl⟩ := step_receiveResponse h
    have hin : InCallback call.stage := by rw [hstage]; trivial
    have hnone : (s.client call.client).running = none := by
      cases hrun : (s.client call.client).running with
      | none => rfl
      | some inv => exact absurd hin (hs.exclusive _ inv hrun call (List.mem_of_getElem? hcall))
    have hmoved : Excluded { s with server := server } := hs.moveServer hserver (.inl fun _ _ _ he => by cases he)
    obtain ⟨-, hreply⟩ := ClientProxy.step_receiveResponse hclient
    have hdesignated : (s.client call.client).designated = none := by
      unfold ClientProxy.State.designated
      rw [hnone]
      cases (s.client call.client).handle.promise <;> rfl
    rw [ClientProxy.receiveResponse, hdesignated] at hreply
    subst hreply
    refine hmoved.moveClient (by simp [hnone]) (by simp [hnone]) (fun k before after hm => ?_) fun k result hm => ?_
    · exact hs.untouched call.client k before after (by simpa using hm)
    · rcases List.mem_cons.mp (List.mem_of_ne_of_mem (by simp) hm) with he | hm
      · obtain ⟨rfl, -⟩ := ClientProxy.Event.replied.inj he
        exact List.mem_cons_self ..
      · exact List.mem_cons_of_mem _ (List.mem_cons_of_mem _ (hs.expired call.client k result hm))

/-- **A route with both sides on one executor never answers**: every `service_callback` gives up with the response
object as it was, and every reply is written through a promise that no longer exists. -/
theorem no_answer_on_one_executor (c : Converters Req Resp Data) (requestData : ι → Data) (response : ι → Resp)
    (request : Req) (data : Data) (as : List (Action ι Req Resp Data)) (t : State ι Req Resp Data)
    (hr : run (step c) (initial requestData response request data) as = some t)
    (hc : Along (step c) OneExecutor (initial requestData response request data) as) :
    (∀ i k before after, .returned k before after ∈ (t.client i).trace → after = before) ∧
      ∀ i k result, .replied k result ∈ (t.client i).trace → .expired k ∈ (t.client i).trace := by
  have hs : Excluded t :=
    run_inv (fun _ _ _ hs ha h => excluded_step hs ha h) (excluded_initial requestData response request data) hc hr
  exact ⟨hs.untouched, hs.expired⟩

/-- The client gives up before the executor can take the response. -/
def loopedRequest : List (Action Unit ℕ ℕ ℕ) :=
  [.client () (.serviceCallback 7 0), .callService () true 0, .server (.requestToRos2 0), .server (.asyncSendRequest 0),
    .client () .callbackReturns, .client () .timeout, .server (.waitForResponse 0 70 0), .server (.responseToXtype 0),
    .receiveResponse 0]

theorem no_answer_on_one_executor_looped : ∃ t,
    run (step oneField) (initial (fun _ => 0) (fun _ => 0) 0 0) loopedRequest = some t ∧
      (∀ i k before after, .returned k before after ∈ (t.client i).trace → after = before) ∧
        ∀ i k result, .replied k result ∈ (t.client i).trace → .expired k ∈ (t.client i).trace :=
  ⟨_, rfl, no_answer_on_one_executor oneField (fun _ => 0) (fun _ => 0) 0 0 loopedRequest _ rfl (by decide)⟩

end OneExecutor

end Ros2Sh.Service.Bridge
