import Ros2Sh.Service.ClientProxy
import Ros2Sh.Service.Routing

/-!
# A service bridged between two domains

A route of the Integration Service connects the ROS 2 clients of some domains with a ROS 2 server of another one.  Each
client side of the route is a `ClientProxy`, the server side is one `ServerProxy`.  The Integration Service callback of
a `ClientProxy` passes the request, the proxy and the call handle on to `call_service` of the `ServerProxy`, which later
calls `receive_response` of that proxy with that handle.

`step` moves the two machines together, in any interleaving: a proxy takes a step of its own, or `call_service` is
called from inside the callback of a running `service_callback`, or a translated response is handed to
`receive_response` of the client it is for.  Nothing catches an exception on its way to the executors, so a run ends
where one is thrown.

`Linked` ties the two sides together and holds in every state of every run (`linked_of_run`): each call stems from a
request that was forwarded, no request is called for twice, and a response that is on its way is still awaited.  The
last one is what a `ClientProxy` asks of its environment, so the handover is never refused
(`reply_accepted`).
-/

namespace Ros2Sh.Service

open Ros2Sh.Lib
open ClientProxy (RequestId)

variable {ι Req Resp Data : Type}

/-! ### What holds of a `ClientProxy` in every run -/

namespace ClientProxy

/-- The action that makes an event happen, and what it makes of the state. -/
def EmittedBy (c : Converters Req Resp Data) (s : State Resp Data) : Event Resp Data → Action Req Resp Data → Prop
  | .forwarded k data, .serviceCallback request _ => k = s.started ∧ data = c.requestToXtype request s.requestData
  | .replied k result, .receiveResponse k' result' => k = k' ∧ result = result'
  | .returned k _ _, .ready | .returned k _ _, .timeout => ∃ inv, s.running = some inv ∧ inv.id = k
  | .expired _, .receiveResponse _ _ | .alreadySatisfied _, .receiveResponse _ _ => True
  | _, _ => False

section Steps

variable {c : Converters Req Resp Data} {s t : State Resp Data} {a : Action Req Resp Data} {k : RequestId}
  {result : Data}

/-- What a reply changes, whichever promise the handle designates: the reply is no longer owed, and neither the number
of the running invocation nor the data of its request changes. -/
theorem receiveResponse_spec (c : Converters Req Resp Data) (s : State Resp Data) (k : RequestId) (result : Data) :
    (receiveResponse c s k result).started = s.started ∧
      (receiveResponse c s k result).requestData = s.requestData ∧
      (receiveResponse c s k result).outstanding = s.outstanding.filter (· ≠ k) ∧
      (∀ inv, (receiveResponse c s k result).running = some inv →
        ∃ inv₀, s.running = some inv₀ ∧ inv₀.id = inv.id ∧ inv₀.phase = inv.phase) ∧
      ∃ es, (receiveResponse c s k result).trace = es ++ s.trace ∧ .replied k result ∈ es ∧
        ∀ e ∈ es, EmittedBy c s e (.receiveResponse k result) := by
  unfold receiveResponse
  cases hd : s.designated with
  | none =>
    refine ⟨rfl, rfl, rfl, fun inv h => ⟨inv, h, rfl, rfl⟩, [.expired k, .replied k result], rfl, by simp, ?_⟩
    simp [EmittedBy]
  | some inv =>
    cases hp : inv.responsePromise with
    | none =>
      simp only [hp]
      refine ⟨trivial, trivial, trivial, fun inv' h => ?_, [.replied k result], rfl, by simp, by simp [EmittedBy]⟩
      obtain rfl := Option.some.inj h
      have hrun : s.running = some inv := by
        unfold State.designated at hd
        split at hd
        · rename_i hr
          split at hd
          · rw [hr, Option.some.inj hd]
          · cases hd
        · cases hd
      exact ⟨inv, hrun, rfl, rfl⟩
    | some r =>
      simp only [hp]
      refine ⟨trivial, trivial, trivial, fun inv h => ⟨inv, h, rfl, rfl⟩, [.alreadySatisfied k, .replied k result],
        rfl, by simp, ?_⟩
      simp [EmittedBy]

theorem events_of_step (h : step c s a = some t) : ∃ es, t.trace = es ++ s.trace ∧ ∀ e ∈ es, EmittedBy c s e a := by
  cases a with
  | serviceCallback request response =>
    obtain ⟨-, rfl⟩ := step_serviceCallback h
    exact ⟨[.forwarded s.started (c.requestToXtype request s.requestData)], rfl, by simp [EmittedBy]⟩
  | callbackReturns =>
    obtain ⟨_, _, _, rfl⟩ := step_callbackReturns h
    exact ⟨[], rfl, by simp⟩
  | ready =>
    obtain ⟨inv, r, hrun, -, -, rfl⟩ := step_ready h
    exact ⟨[.returned inv.id inv.response r], rfl, by simp [EmittedBy, hrun]⟩
  | timeout =>
    obtain ⟨inv, hrun, -, -, rfl⟩ := step_timeout h
    exact ⟨[.returned inv.id inv.response inv.response], rfl, by simp [EmittedBy, hrun]⟩
  | receiveResponse k result =>
    obtain ⟨-, rfl⟩ := step_receiveResponse h
    obtain ⟨-, -, -, -, es, hes, -, hby⟩ := receiveResponse_spec c s k result
    exact ⟨es, hes, hby⟩

theorem mem_trace_of_step (h : step c s a = some t) {e : Event Resp Data} (he : e ∈ s.trace) : e ∈ t.trace := by
  obtain ⟨es, hes, -⟩ := events_of_step h
  rw [hes]
  exact List.mem_append_right _ he

theorem mem_or_emitted (h : step c s a = some t) {e : Event Resp Data} (he : e ∈ t.trace) :
    e ∈ s.trace ∨ EmittedBy c s e a := by
  obtain ⟨es, hes, hby⟩ := events_of_step h
  rw [hes] at he
  exact (List.mem_append.mp he).symm.imp_right (hby e)

/-- Every request that was received is owed a reply or has got one, and the running invocation is that of a request
whose data the proxy still holds. -/
structure Accounted (s : State Resp Data) : Prop where
  running : ∀ inv, s.running = some inv → inv.id < s.started ∧ .forwarded inv.id s.requestData ∈ s.trace
  owed : ∀ k < s.started, k ∈ s.outstanding ∨ ∃ result, .replied k result ∈ s.trace
  returned_lt : ∀ k before after, .returned k before after ∈ s.trace → k < s.started

theorem accounted_initial (d : Data) (r : Resp) : Accounted (initial d r) where
  running := by simp [initial]
  owed := by simp [initial]
  returned_lt := by simp [initial]

theorem Accounted.returnWith (hs : Accounted s) {inv : Invocation Resp} (hrun : s.running = some inv) (after : Resp) :
    Accounted (returnWith s inv after) where
  running := by simp [ClientProxy.returnWith]
  owed k hk := (hs.owed k hk).imp_right (Exists.imp fun _ => List.mem_cons_of_mem _)
  returned_lt k before after' hm := by
    rcases List.mem_cons.mp hm with he | hm
    · obtain ⟨rfl, -, -⟩ := Event.returned.inj he
      exact (hs.running inv hrun).1
    · exact hs.returned_lt k before after' hm

/-- **Every step keeps the accounts.** -/
theorem accounted_step (hs : Accounted s) (h : step c s a = some t) : Accounted t := by
  cases a with
  | serviceCallback request response =>
    obtain ⟨-, rfl⟩ := step_serviceCallback h
    refine ⟨fun inv hinv => ?_, fun k hk => ?_, fun k before after hm => ?_⟩
    · obtain rfl : _ = inv := by simpa [serviceCallback] using hinv
      exact ⟨Nat.lt_succ_self _, List.mem_cons_self ..⟩
    · rcases Nat.lt_succ_iff_lt_or_eq.mp hk with hlt | rfl
      · exact (hs.owed k hlt).imp (List.mem_cons_of_mem _) (Exists.imp fun _ => List.mem_cons_of_mem _)
      · exact .inl (List.mem_cons_self ..)
    · exact Nat.lt_succ_of_lt (hs.returned_lt k before after (by simpa [serviceCallback] using hm))
  | callbackReturns =>
    obtain ⟨inv₀, hrun, -, rfl⟩ := step_callbackReturns h
    refine ⟨fun inv hinv => ?_, hs.owed, hs.returned_lt⟩
    obtain rfl := Option.some.inj hinv
    exact hs.running inv₀ hrun
  | ready =>
    obtain ⟨inv, r, hrun, -, -, rfl⟩ := step_ready h
    exact hs.returnWith hrun r
  | timeout =>
    obtain ⟨inv, hrun, -, -, rfl⟩ := step_timeout h
    exact hs.returnWith hrun inv.response
  | receiveResponse k result =>
    obtain ⟨-, ht⟩ := step_receiveResponse h
    obtain ⟨hstarted, hdata, hout, hrunning, es, htrace, hreplied, hby⟩ := receiveResponse_spec c s k result
    subst ht
    refine ⟨fun inv hinv => ?_, fun k' hk' => ?_, fun k' before after hm => ?_⟩
    · obtain ⟨inv₀, hrun, hid, -⟩ := hrunning inv hinv
      rw [hstarted, hdata, ← hid]
      exact ⟨(hs.running inv₀ hrun).1, mem_trace_of_step h (hs.running inv₀ hrun).2⟩
    · rw [hstarted] at hk'
      rcases hs.owed k' hk' with hin | ⟨result', hr⟩
      · by_cases hkk : k' = k
        · subst hkk
          exact .inr ⟨result, htrace ▸ List.mem_append_left _ hreplied⟩
        · exact .inl (hout ▸ List.mem_filter.mpr ⟨hin, by simpa using hkk⟩)
      · exact .inr ⟨result', mem_trace_of_step h hr⟩
    · rw [hstarted]
      rcases mem_or_emitted h hm with hold | hnew
      · exact hs.returned_lt k' before after hold
      · exact hnew.elim

/-- A step other than a reply leaves every reply owed that was. -/
theorem outstanding_of_step (h : step c s a = some t) (ha : ∀ k result, a ≠ .receiveResponse k result)
    (hk : k ∈ s.outstanding) : k ∈ t.outstanding := by
  cases a with
  | serviceCallback request response =>
    obtain ⟨-, rfl⟩ := step_serviceCallback h
    exact List.mem_cons_of_mem _ hk
  | callbackReturns => obtain ⟨_, _, _, rfl⟩ := step_callbackReturns h; exact hk
  | ready => obtain ⟨_, _, _, _, _, rfl⟩ := step_ready h; exact hk
  | timeout => obtain ⟨_, _, _, _, rfl⟩ := step_timeout h; exact hk
  | receiveResponse k result => exact absurd rfl (ha k result)

end Steps

end ClientProxy

/-! ### How the calls of a `ServerProxy` move on -/

namespace ServerProxy

variable {Client Handle : Type}

/-- A reply is on its way to the caller, or can still come. -/
def Stage.Pending : Stage Resp → Prop
  | .popped _ | .translated _ | .sent _ | .answered _ _ _ | .responseTranslated _ _ _ => True
  | .refused | .delivering _ _ | .done | .threw => False

/-- `call_service` has not returned yet. -/
def Stage.InCallService : Stage Resp → Prop
  | .popped _ | .translated _ => True
  | _ => False

instance : DecidablePred fun stage : Stage Resp => stage.InCallService
  | .popped _ | .translated _ => isTrue trivial
  | .refused | .sent _ | .answered _ _ _ | .responseTranslated _ _ _ | .delivering _ _ | .done | .threw => isFalse id

section Steps

variable {c : Converters Req Resp Data} {s t : State Req Resp Data Client Handle}
  {a : Action Resp Data Client Handle} {i : ℕ} {call : Call Resp Data Client Handle}

theorem stage_moveTo {In : Stage Resp → Prop} {stage : Stage Resp} {j : ℕ} {call' : Call Resp Data Client Handle}
    (hi : s.calls[i]? = some call) (hstage : In stage → In call.stage)
    (hj : (s.moveTo i call stage).calls[j]? = some call') (hp : In call'.stage) :
    ∃ call₀, s.calls[j]? = some call₀ ∧ call₀.toArguments = call'.toArguments ∧ In call₀.stage := by
  rcases getElem?_set_cases hj with ⟨rfl, rfl⟩ | ⟨-, hold⟩
  · exact ⟨call, hi, rfl, hstage hp⟩
  · exact ⟨call', hold, rfl, hp⟩

theorem pending_of_step (h : step c s a = some t) {j : ℕ} {call' : Call Resp Data Client Handle}
    (hj : t.calls[j]? = some call') (hp : call'.stage.Pending) :
    (∃ call₀, s.calls[j]? = some call₀ ∧ call₀.toArguments = call'.toArguments ∧ call₀.stage.Pending) ∨
      (j = s.calls.length ∧ ∃ o, a = .callService call'.toArguments o) := by
  cases a with
  | callService args o =>
    rcases step_callService h with ⟨-, rfl⟩ | ⟨-, pool, -, rfl⟩
    · rcases getElem?_append_single_cases hj with hold | ⟨-, rfl⟩
      · exact .inl ⟨call', hold, rfl, hp⟩
      · exact hp.elim
    · rcases getElem?_append_single_cases hj with hold | ⟨rfl, rfl⟩
      · exact .inl ⟨call', hold, rfl, hp⟩
      · exact .inr ⟨rfl, o, rfl⟩
  | requestToRos2 i =>
    obtain ⟨call, o, hi, ho, rfl⟩ := step_requestToRos2 h
    exact .inl (stage_moveTo hi (fun _ => by rw [ho]; trivial) hj hp)
  | asyncSendRequest i =>
    obtain ⟨call, o, hi, ho, rfl⟩ := step_asyncSendRequest h
    exact .inl (stage_moveTo hi (fun _ => by rw [ho]; trivial) hj hp)
  | waitForResponse i response p =>
    obtain ⟨call, o, pool, hi, ho, -, rfl⟩ := step_waitForResponse h
    exact .inl (stage_moveTo hi (fun _ => by rw [ho]; trivial) hj hp)
  | responseToXtype i =>
    obtain ⟨call, o, p, response, hi, ho, rfl⟩ := step_responseToXtype h
    exact .inl (stage_moveTo hi (fun _ => by rw [ho]; trivial) hj hp)
  | receiveResponse i =>
    obtain ⟨call, o, p, response, hi, -, rfl⟩ := step_receiveResponse h
    exact .inl (stage_moveTo hi False.elim hj hp)
  | recycle i =>
    obtain ⟨call, o, p, hi, -, rfl⟩ := step_recycle h
    exact .inl (stage_moveTo hi False.elim hj hp)
  | throws i =>
    obtain ⟨call, hi, rfl⟩ := step_throws h
    exact .inl (stage_moveTo hi False.elim hj hp)

theorem mem_trace_of_step (h : step c s a = some t) {e : Event Req Resp Data Client Handle} (he : e ∈ s.trace) :
    e ∈ t.trace := by
  cases a with
  | callService args o => rcases step_callService h with ⟨-, rfl⟩ | ⟨-, pool, -, rfl⟩ <;> exact he
  | requestToRos2 i => obtain ⟨_, _, _, _, rfl⟩ := step_requestToRos2 h; exact he
  | asyncSendRequest i => obtain ⟨_, _, _, _, rfl⟩ := step_asyncSendRequest h; exact List.mem_cons_of_mem _ he
  | waitForResponse i response p =>
    obtain ⟨_, _, _, _, _, _, rfl⟩ := step_waitForResponse h; exact List.mem_cons_of_mem _ he
  | responseToXtype i => obtain ⟨_, _, _, _, _, _, rfl⟩ := step_responseToXtype h; exact he
  | receiveResponse i =>
    obtain ⟨_, _, _, _, _, _, rfl⟩ := step_receiveResponse h; exact List.mem_cons_of_mem _ he
  | recycle i => obtain ⟨_, _, _, _, _, rfl⟩ := step_recycle h; exact he
  | throws i => obtain ⟨_, _, rfl⟩ := step_throws h; exact he

theorem arguments_of_step (h : step c s a = some t) {j : ℕ} {call' : Call Resp Data Client Handle}
    (hj : t.calls[j]? = some call') :
    (∃ call₀, s.calls[j]? = some call₀ ∧ call₀.toArguments = call'.toArguments) ∨
      (j = s.calls.length ∧ ∃ o, a = .callService call'.toArguments o) := by
  have hargs := arguments_step h
  have hj' : (t.calls.map Call.toArguments)[j]? = some call'.toArguments := by simp [hj]
  rw [hargs, List.getElem?_append] at hj'
  split at hj'
  · left
    obtain ⟨call₀, h₀, he⟩ := Option.map_eq_some_iff.mp (List.getElem?_map .. ▸ hj')
    exact ⟨call₀, h₀, he⟩
  · rename_i hlen
    right
    simp only [List.length_map, Nat.not_lt] at hlen
    cases a with
    | callService args o =>
      have hone : callArguments [(.callService args o : Action Resp Data Client Handle)] = [args] := rfl
      rw [hone, List.getElem?_singleton, List.length_map] at hj'
      split at hj'
      · rename_i hzero
        obtain rfl := Option.some.inj hj'
        exact ⟨by omega, o, rfl⟩
      · cases hj'
    | _ => simp [callArguments] at hj'

end Steps

end ServerProxy

/-! ### The two sides together -/

namespace Bridge

/-- The client proxies of a route, its server proxy, and the requests that each client has received so far, in order.
The call handle of a request is named by the number of the request. -/
structure State (ι Req Resp Data : Type) where
  client : ι → ClientProxy.State Resp Data
  server : ServerProxy.State Req Resp Data ι RequestId
  requests : ι → List Req

inductive Action (ι Req Resp Data : Type)
  | client (i : ι) (a : ClientProxy.Action Req Resp Data) -- of the proxy of the client, other than a reply
  | callService (i : ι) (available : Bool) (o : ℕ) -- from the callback of the client, up to `_request_pool.pop()`
  | server (a : ServerProxy.Action Resp Data ι RequestId) -- of the server proxy, between the calls of the other side
  | receiveResponse (j : ℕ) -- the response to the call `j` is handed to its client

def initial (requestData : ι → Data) (response : ι → Resp) (request : Req) (data : Data) : State ι Req Resp Data where
  client i := ClientProxy.initial (requestData i) (response i)
  server := ServerProxy.initial request data
  requests _ := []

/-- The request that a step of a client brings. -/
def received : ClientProxy.Action Req Resp Data → List Req
  | .serviceCallback request _ => [request]
  | _ => []

/-- The request `k` of the client `i` has been passed to `call_service`. -/
def State.Called (s : State ι Req Resp Data) (i : ι) (k : RequestId) : Prop :=
  ∃ call ∈ s.server.calls, call.client = i ∧ call.handle = k

/-- `call_service` is running inside the callback of the client `i`. -/
def State.InCallService (s : State ι Req Resp Data) (i : ι) : Prop :=
  ∃ call ∈ s.server.calls, call.client = i ∧ call.stage.InCallService

/-- The step is one of the client's own, and it may be taken now: the callback returns after `call_service` has. -/
def State.Allows (s : State ι Req Resp Data) (i : ι) : ClientProxy.Action Req Resp Data → Prop
  | .receiveResponse _ _ => False
  | .callbackReturns => ¬ s.InCallService i
  | .serviceCallback _ _ | .ready | .timeout => True

/-- The step is neither one that the other side takes part in, nor an exception. -/
def Internal : ServerProxy.Action Resp Data ι RequestId → Bool
  | .requestToRos2 _ | .asyncSendRequest _ | .waitForResponse _ _ _ | .responseToXtype _ | .recycle _ => true
  | .callService _ _ | .receiveResponse _ | .throws _ => false

section Step

variable [DecidableEq ι]

instance (s : State ι Req Resp Data) (i : ι) (k : RequestId) : Decidable (s.Called i k) :=
  inferInstanceAs (Decidable (∃ call ∈ s.server.calls, call.client = i ∧ call.handle = k))

instance (s : State ι Req Resp Data) (i : ι) : Decidable (s.InCallService i) :=
  inferInstanceAs (Decidable (∃ call ∈ s.server.calls, call.client = i ∧ call.stage.InCallService))

instance (s : State ι Req Resp Data) (i : ι) :
    DecidablePred (s.Allows i : ClientProxy.Action Req Resp Data → Prop)
  | .receiveResponse _ _ => isFalse id
  | .callbackReturns => inferInstanceAs (Decidable (¬ s.InCallService i))
  | .serviceCallback _ _ | .ready | .timeout => isTrue trivial

/-- One step of the bridge. -/
def step (c : Converters Req Resp Data) (s : State ι Req Resp Data) :
    Action ι Req Resp Data → Option (State ι Req Resp Data)
  | .client i a =>
    if s.Allows i a then
      (ClientProxy.step c (s.client i) a).map fun client =>
        { s with
          client := Function.update s.client i client
          requests := Function.update s.requests i (s.requests i ++ received a) }
    else none
  | .callService i available o => do
    let inv ← (s.client i).running
    if inv.phase = .inCallback ∧ ¬ s.Called i inv.id then
      -- `(*_callback)(_request_data, *this, _handle)`
      (ServerProxy.step c s.server (.callService ⟨(s.client i).requestData, i, inv.id, available⟩ o)).map fun server =>
        { s with server := server }
    else none
  | .server a =>
    if Internal a then (ServerProxy.step c s.server a).map fun server => { s with server := server } else none
  | .receiveResponse j => do
    let call ← s.server.calls[j]?
    match call.stage with
    | .responseTranslated _ p _ => do
      let server ← ServerProxy.step c s.server (.receiveResponse j)
      let client ← ClientProxy.step c (s.client call.client) (.receiveResponse call.handle (s.server.responseObject p))
      some { s with server := server, client := Function.update s.client call.client client }
    | _ => none

/-! ### What a step does -/

variable {c : Converters Req Resp Data} {s t : State ι Req Resp Data}

theorem step_client {i : ι} {a : ClientProxy.Action Req Resp Data} (h : step c s (.client i a) = some t) :
    s.Allows i a ∧ ∃ u, ClientProxy.step c (s.client i) a = some u ∧
      t = { s with
        client := Function.update s.client i u
        requests := Function.update s.requests i (s.requests i ++ received a) } := by
  simp only [step, Option.ite_none_right_eq_some] at h
  obtain ⟨hallows, h⟩ := h
  obtain ⟨u, hu, rfl⟩ := Option.map_eq_some_iff.mp h
  exact ⟨hallows, u, hu, rfl⟩

theorem step_callService {i : ι} {available : Bool} {o : ℕ} (h : step c s (.callService i available o) = some t) :
    ∃ inv u, (s.client i).running = some inv ∧ inv.phase = .inCallback ∧ ¬ s.Called i inv.id ∧
      ServerProxy.step c s.server (.callService ⟨(s.client i).requestData, i, inv.id, available⟩ o) = some u ∧
      t = { s with server := u } := by
  obtain ⟨inv, hinv, h⟩ := Option.bind_eq_some_iff.mp h
  rw [Option.ite_none_right_eq_some] at h
  obtain ⟨⟨hphase, hcalled⟩, h⟩ := h
  obtain ⟨u, hu, rfl⟩ := Option.map_eq_some_iff.mp h
  exact ⟨inv, u, hinv, hphase, hcalled, hu, rfl⟩

theorem step_server {a : ServerProxy.Action Resp Data ι RequestId} (h : step c s (.server a) = some t) :
    Internal a ∧ ∃ u, ServerProxy.step c s.server a = some u ∧ t = { s with server := u } := by
  simp only [step, Option.ite_none_right_eq_some] at h
  obtain ⟨hinternal, h⟩ := h
  obtain ⟨u, hu, rfl⟩ := Option.map_eq_some_iff.mp h
  exact ⟨hinternal, u, hu, rfl⟩

theorem step_receiveResponse {j : ℕ} (h : step c s (.receiveResponse j) = some t) :
    ∃ call o p response server client, s.server.calls[j]? = some call ∧
      call.stage = .responseTranslated o p response ∧
      ServerProxy.step c s.server (.receiveResponse j) = some server ∧
      ClientProxy.step c (s.client call.client)
        (.receiveResponse call.handle (s.server.responseObject p)) = some client ∧
      t = { s with server := server, client := Function.update s.client call.client client } := by
  obtain ⟨call, hcall, h⟩ := Option.bind_eq_some_iff.mp h
  split at h
  · rename_i o p response hstage
    obtain ⟨server, hserver, h⟩ := Option.bind_eq_some_iff.mp h
    obtain ⟨client, hclient, h⟩ := Option.bind_eq_some_iff.mp h
    exact ⟨call, o, p, response, server, client, hcall, hstage, hserver, hclient, (Option.some.inj h).symm⟩
  · cases h

end Step

/-! ### The invariant that links the two sides -/

/-- What ties the calls of the server proxy to the requests of the clients, in every state. -/
structure Linked (c : Converters Req Resp Data) (s : State ι Req Resp Data) : Prop where
  server : ServerProxy.Inv c s.server
  clients : ∀ i, ClientProxy.Accounted (s.client i)
  requests : ∀ i, (s.requests i).length = (s.client i).started
  /-- What was forwarded for a request is a translation of it. -/
  forwarded : ∀ i k data, .forwarded k data ∈ (s.client i).trace →
    ∃ request prior, (s.requests i)[k]? = some request ∧ data = c.requestToXtype request prior
  /-- A call passes on what was forwarded for a request. -/
  passed : ∀ (j : ℕ) (call : ServerProxy.Call Resp Data ι RequestId), s.server.calls[j]? = some call →
    .forwarded call.handle call.request ∈ (s.client call.client).trace
  /-- No request is called for twice. -/
  once : ∀ (j j' : ℕ) (call call' : ServerProxy.Call Resp Data ι RequestId), s.server.calls[j]? = some call →
    s.server.calls[j']? = some call' → call.client = call'.client → call.handle = call'.handle → j = j'
  /-- A reply to a client was delivered by the server proxy. -/
  replied : ∀ i k result, .replied k result ∈ (s.client i).trace → ∃ j, .receiveResponse j i k result ∈ s.server.trace
  /-- A reply that can still come is awaited. -/
  awaited : ∀ (j : ℕ) (call : ServerProxy.Call Resp Data ι RequestId), s.server.calls[j]? = some call →
    call.stage.Pending → call.handle ∈ (s.client call.client).outstanding

section Linked

variable {c : Converters Req Resp Data} {s t : State ι Req Resp Data}

theorem linked_initial (requestData : ι → Data) (response : ι → Resp) (request : Req) (data : Data) :
    Linked c (initial requestData response request data) where
  server := ServerProxy.inv_initial request data
  clients i := ClientProxy.accounted_initial (requestData i) (response i)
  requests i := rfl
  forwarded := by simp [initial, ClientProxy.initial]
  passed := by simp [initial, ServerProxy.initial]
  once := by simp [initial, ServerProxy.initial]
  replied := by simp [initial, ClientProxy.initial]
  awaited := by simp [initial, ServerProxy.initial]

/-- A call for a request was made with its number, and a delivery for it came from such a call. -/
theorem Linked.called_of_delivered (hs : Linked c s) {j : ℕ} {i : ι} {k : RequestId} {result : Data}
    (hm : .receiveResponse j i k result ∈ s.server.trace) : s.Called i k := by
  obtain ⟨call, hcall, hh⟩ := hs.server.call_of_mem hm
  obtain ⟨rfl, rfl, -⟩ := hh.receiveResponse_mem (ServerProxy.mem_history.mpr ⟨hm, rfl⟩)
  exact ⟨call, List.mem_of_getElem? hcall, rfl, rfl⟩

/-- The server proxy takes a step; a call it makes is the first one for an awaited request. -/
theorem Linked.moveServer (hs : Linked c s) {a : ServerProxy.Action Resp Data ι RequestId}
    {u : ServerProxy.State Req Resp Data ι RequestId} (h : ServerProxy.step c s.server a = some u)
    (hnew : ∀ args o, a = .callService args o → .forwarded args.handle args.request ∈ (s.client args.client).trace ∧
      ¬ s.Called args.client args.handle ∧ args.handle ∈ (s.client args.client).outstanding) :
    Linked c { s with server := u } where
  server := ServerProxy.inv_step hs.server h
  clients := hs.clients
  requests := hs.requests
  forwarded := hs.forwarded
  passed j call hj := by
    rcases ServerProxy.arguments_of_step h hj with ⟨call₀, h₀, he⟩ | ⟨-, o, rfl⟩
    · have hpassed := hs.passed j call₀ h₀
      rwa [he] at hpassed
    · exact (hnew _ o rfl).1
  once j j' call call' hj hj' hclient hhandle := by
    have hold : ∀ (n : ℕ) (x y : ServerProxy.Call Resp Data ι RequestId) (o : ℕ), s.server.calls[n]? = some x →
        a = .callService y.toArguments o → x.client = y.client → x.handle = y.handle → False := by
      intro n x y o hx ha hc hh
      exact (hnew _ o ha).2.1 ⟨x, List.mem_of_getElem? hx, hc, hh⟩
    rcases ServerProxy.arguments_of_step h hj with ⟨x, hx, he⟩ | ⟨hlen, o, ha⟩
    · rcases ServerProxy.arguments_of_step h hj' with ⟨x', hx', he'⟩ | ⟨-, o, ha⟩
      · refine hs.once j j' x x' hx hx' ?_ ?_
        · rw [he, he', hclient]
        · rw [he, he', hhandle]
      · exact (hold j x call' o hx ha (by rw [he, hclient]) (by rw [he, hhandle])).elim
    · rcases ServerProxy.arguments_of_step h hj' with ⟨x', hx', he'⟩ | ⟨hlen', -, -⟩
      · exact (hold j' x' call o hx' ha (by rw [he', hclient]) (by rw [he', hhandle])).elim
      · rw [hlen, hlen']
  replied i k result hm := by
    obtain ⟨j, hj⟩ := hs.replied i k result hm
    exact ⟨j, ServerProxy.mem_trace_of_step h hj⟩
  awaited j call hj hp := by
    rcases ServerProxy.pending_of_step h hj hp with ⟨call₀, h₀, he, hp₀⟩ | ⟨-, o, rfl⟩
    · have hawaited := hs.awaited j call₀ h₀ hp₀
      rwa [he] at hawaited
    · exact (hnew _ o rfl).2.2

/-- The request of a running invocation that has not been passed on is awaited. -/
theorem Linked.awaited_of_running (hs : Linked c s) {i : ι} {inv : ClientProxy.Invocation Resp}
    (hrun : (s.client i).running = some inv) (hnot : ¬ s.Called i inv.id) : inv.id ∈ (s.client i).outstanding := by
  rcases (hs.clients i).owed inv.id ((hs.clients i).running inv hrun).1 with hin | ⟨result, hr⟩
  · exact hin
  · obtain ⟨j, hj⟩ := hs.replied i inv.id result hr
    exact absurd (hs.called_of_delivered hj) hnot

variable [DecidableEq ι]

theorem Linked.moveClient (hs : Linked c s) {i : ι} {a : ClientProxy.Action Req Resp Data}
    {u : ClientProxy.State Resp Data} (h : ClientProxy.step c (s.client i) a = some u) (hallows : s.Allows i a) :
    Linked c { s with
      client := Function.update s.client i u
      requests := Function.update s.requests i (s.requests i ++ received a) } := by
  have ha : ∀ k result, a ≠ .receiveResponse k result := by
    rintro k result rfl
    exact hallows
  have hstarted : u.started = (s.client i).started + (received a).length := by
    cases a with
    | serviceCallback request response => obtain ⟨-, rfl⟩ := ClientProxy.step_serviceCallback h; rfl
    | callbackReturns => obtain ⟨_, _, _, rfl⟩ := ClientProxy.step_callbackReturns h; rfl
    | ready => obtain ⟨_, _, _, _, _, rfl⟩ := ClientProxy.step_ready h; rfl
    | timeout => obtain ⟨_, _, _, _, rfl⟩ := ClientProxy.step_timeout h; rfl
    | receiveResponse k result => exact absurd rfl (ha k result)
  constructor
  · exact hs.server
  · intro i'
    rcases eq_or_ne i' i with rfl | hne
    · simpa using ClientProxy.accounted_step (hs.clients i') h
    · simpa [hne] using hs.clients i'
  · intro i'
    rcases eq_or_ne i' i with rfl | hne
    · simp [hs.requests i', hstarted]
    · simpa [hne] using hs.requests i'
  · intro i' k data hm
    rcases eq_or_ne i' i with rfl | hne
    · simp only [Function.update_self] at hm ⊢
      rcases ClientProxy.mem_or_emitted h hm with hold | hnew
      · obtain ⟨request, prior, hk, hdata⟩ := hs.forwarded i' k data hold
        have hlt := (List.getElem?_eq_some_iff.mp hk).1
        exact ⟨request, prior, by rw [List.getElem?_append_left hlt, hk], hdata⟩
      · cases a with
        | serviceCallback request response =>
          obtain ⟨rfl, hdata⟩ := hnew
          exact ⟨request, (s.client i').requestData, by rw [← hs.requests i']; simp [received], hdata⟩
        | callbackReturns => exact hnew.elim
        | ready => exact hnew.elim
        | timeout => exact hnew.elim
        | receiveResponse _ _ => exact hnew.elim
    · simp only [Function.update_of_ne hne] at hm ⊢
      exact hs.forwarded i' k data hm
  · intro j call hj
    have hpassed := hs.passed j call hj
    rcases eq_or_ne call.client i with hi | hne
    · rw [hi] at hpassed ⊢
      simpa using ClientProxy.mem_trace_of_step h hpassed
    · simpa [hne] using hpassed
  · exact hs.once
  · intro i' k result hm
    rcases eq_or_ne i' i with rfl | hne
    · simp only [Function.update_self] at hm
      rcases ClientProxy.mem_or_emitted h hm with hold | hnew
      · exact hs.replied i' k result hold
      · cases a with
        | receiveResponse k' result' => exact absurd rfl (ha k' result')
        | _ => exact hnew.elim
    · simp only [Function.update_of_ne hne] at hm
      exact hs.replied i' k result hm
  · intro j call hj hp
    have hawaited := hs.awaited j call hj hp
    rcases eq_or_ne call.client i with hi | hne
    · rw [hi] at hawaited ⊢
      simpa using ClientProxy.outstanding_of_step h ha hawaited
    · simpa [hne] using hawaited

/-- A client proxy is handed the reply to a request that no pending call is for. -/
theorem Linked.reply (hs : Linked c s) {i : ι} {k : RequestId} {result : Data} {u : ClientProxy.State Resp Data}
    (h : ClientProxy.step c (s.client i) (.receiveResponse k result) = some u)
    (hdelivered : ∃ j, .receiveResponse j i k result ∈ s.server.trace)
    (hlast : ∀ (j : ℕ) (call : ServerProxy.Call Resp Data ι RequestId), s.server.calls[j]? = some call →
      call.stage.Pending → ¬ (call.client = i ∧ call.handle = k)) :
    Linked c { s with client := Function.update s.client i u } := by
  obtain ⟨hstarted, -, hout, -, -⟩ := ClientProxy.receiveResponse_spec c (s.client i) k result
  rw [← (ClientProxy.step_receiveResponse h).2] at hstarted hout
  constructor
  · exact hs.server
  · intro i'
    rcases eq_or_ne i' i with rfl | hne
    · simpa using ClientProxy.accounted_step (hs.clients i') h
    · simpa [hne] using hs.clients i'
  · intro i'
    rcases eq_or_ne i' i with rfl | hne
    · simpa [hstarted] using hs.requests i'
    · simpa [hne] using hs.requests i'
  · intro i' k' data hm
    rcases eq_or_ne i' i with rfl | hne
    · simp only [Function.update_self] at hm
      rcases ClientProxy.mem_or_emitted h hm with hold | hnew
      · exact hs.forwarded i' k' data hold
      · exact hnew.elim
    · simp only [Function.update_of_ne hne] at hm
      exact hs.forwarded i' k' data hm
  · intro j call hj
    have hpassed := hs.passed j call hj
    rcases eq_or_ne call.client i with hi | hne
    · rw [hi] at hpassed ⊢
      simpa using ClientProxy.mem_trace_of_step h hpassed
    · simpa [hne] using hpassed
  · exact hs.once
  · intro i' k' result' hm
    rcases eq_or_ne i' i with rfl | hne
    · simp only [Function.update_self] at hm
      rcases ClientProxy.mem_or_emitted h hm with hold | hnew
      · exact hs.replied i' k' result' hold
      · obtain ⟨rfl, rfl⟩ := hnew
        exact hdelivered
    · simp only [Function.update_of_ne hne] at hm
      exact hs.replied i' k' result' hm
  · intro j call hj hp
    have hawaited := hs.awaited j call hj hp
    rcases eq_or_ne call.client i with hi | hne
    · rw [hi] at hawaited ⊢
      have hk : call.handle ≠ k := fun hk => hlast j call hj hp ⟨hi, hk⟩
      simp only [Function.update_self, hout]
      exact List.mem_filter.mpr ⟨hawaited, by simpa using hk⟩
    · simpa [hne] using hawaited

/-- **Every step keeps the two sides linked.** -/
theorem linked_step {a : Action ι Req Resp Data} (hs : Linked c s) (h : step c s a = some t) : Linked c t := by
  cases a with
  | client i a =>
    obtain ⟨hallows, u, hu, rfl⟩ := step_client h
    exact hs.moveClient hu hallows
  | callService i available o =>
    obtain ⟨inv, u, hrun, -, hnot, hu, rfl⟩ := step_callService h
    refine hs.moveServer hu fun args o' hargs => ?_
    obtain ⟨rfl, -⟩ := ServerProxy.Action.callService.inj hargs
    exact ⟨((hs.clients i).running inv hrun).2, hnot, hs.awaited_of_running hrun hnot⟩
  | server a =>
    obtain ⟨hinternal, u, hu, rfl⟩ := step_server h
    refine hs.moveServer hu fun args o hargs => ?_
    rw [hargs] at hinternal
    cases hinternal
  | receiveResponse j =>
    obtain ⟨call, o, p, response, server, client, hcall, hstage, hserver, hclient, rfl⟩ := step_receiveResponse h
    have hmoved : Linked c { s with server := server } := hs.moveServer hserver fun args o hargs => by cases hargs
    obtain ⟨call', o', p', response', hcall', hstage', hserver'⟩ := ServerProxy.step_receiveResponse hserver
    obtain rfl : call = call' := Option.some.inj (hcall.symm.trans hcall')
    obtain ⟨rfl, rfl, rfl⟩ : o = o' ∧ p = p' ∧ response = response' := by
      rw [hstage] at hstage'
      exact ServerProxy.Stage.responseTranslated.inj hstage'
    refine hmoved.reply hclient ⟨j, ?_⟩ fun j' call' hj' hp' hsame => ?_
    · rw [hserver']
      exact List.mem_cons_self ..
    · -- the call `j` is being delivered, and no other call is for its request
      have hdelivering : server.calls[j]? = some { call with stage := .delivering o p } := by
        have hlt := (List.getElem?_eq_some_iff.mp hcall).1
        rw [hserver']
        simp [ServerProxy.State.moveTo, hlt]
      obtain rfl := hmoved.once j' j call' _ hj' hdelivering hsame.1 hsame.2
      obtain rfl := Option.some.inj (hj'.symm.trans hdelivering)
      exact hp'

theorem linked_of_run {requestData : ι → Data} {response : ι → Resp} {request : Req} {data : Data}
    {as : List (Action ι Req Resp Data)}
    (hr : run (step c) (initial requestData response request data) as = some t) : Linked c t :=
  run_inv_of_step (fun _ _ _ hs h => linked_step hs h) (linked_initial requestData response request data) hr

end Linked

end Bridge

end Ros2Sh.Service
