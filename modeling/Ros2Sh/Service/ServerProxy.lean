import Ros2Sh.Lib.Pool
import Ros2Sh.Lib.Run
import Ros2Sh.Service.Converters

/-!
# `ServerProxy`: a ROS 2 server called by the Integration Service

`call_service` gives up when the service is not available.  Otherwise it takes a request object from its pool,
translates the request into it, and hands it to `async_send_request` with a callback that captures the Integration
Service client, the call handle and the request object.  When rclcpp invokes the callback, `_wait_for_response` takes a
response object from its pool, translates the response into it, passes it to the client's `receive_response`, and puts
both objects back.

A call goes through the stages of `Stage`, and `step` moves one call by one stage, so that the calls interleave in any
order: calls made from inside a `receive_response` are the steps taken while another call is `delivering`.  An
exception destroys the objects the call holds.

This file is the machine and what each of its steps does (`step_callService`, …).  `Ownership` proves who holds which
pooled object, and `Routing` which request is sent and which reply is delivered for a call.
-/

namespace Ros2Sh.Service.ServerProxy

open Ros2Sh.Lib

variable {Req Resp Data Client Handle : Type}

/-- Where a call of `call_service` stands; `o` is its request object and `p` its response object. -/
inductive Stage (Resp : Type)
  | refused -- `wait_for_service` failed and `call_service` returned
  | popped (o : ℕ) -- `_request_pool.pop()` done
  | translated (o : ℕ) -- `request_to_ros2` done
  | sent (o : ℕ) -- `async_send_request` done, the callback is pending
  | answered (o p : ℕ) (response : Resp) -- the callback runs, `_response_pool.pop()` done
  | responseTranslated (o p : ℕ) (response : Resp) -- `response_to_xtype` done
  | delivering (o p : ℕ) -- inside `is_client.receive_response`
  | done -- both objects are back in their pools
  | threw -- a conversion or `receive_response` threw, and the objects of the call are gone

/-- The request object a call holds. -/
@[simp] def Stage.request : Stage Resp → List ℕ
  | .popped o | .translated o | .sent o => [o]
  | .answered o _ _ | .responseTranslated o _ _ | .delivering o _ => [o]
  | .refused | .done | .threw => []

/-- The response object a call holds. -/
@[simp] def Stage.response : Stage Resp → List ℕ
  | .answered _ p _ | .responseTranslated _ p _ | .delivering _ p => [p]
  | .refused | .popped _ | .translated _ | .sent _ | .done | .threw => []

/-- The arguments of `call_service`, and whether `wait_for_service` succeeds. -/
structure Arguments (Data Client Handle : Type) where
  request : Data
  client : Client
  handle : Handle
  available : Bool

/-- A call, with what its callback captured. -/
structure Call (Resp Data Client Handle : Type) extends Arguments Data Client Handle where
  stage : Stage Resp

/-- The request object the call holds, if any. -/
@[simp] def Call.heldRequest (call : Call Resp Data Client Handle) : List ℕ := call.stage.request

/-- The response object the call holds, if any. -/
@[simp] def Call.heldResponse (call : Call Resp Data Client Handle) : List ℕ := call.stage.response

/-- What can be observed of a run: `async_send_request` sent a content for the call `i`, rclcpp invoked the callback of
the call with a response, the proxy called `receive_response` on a client for the call.  The calls are numbered in the
order in which they were made. -/
inductive Event (Req Resp Data Client Handle : Type)
  | sent (i : ℕ) (content : Req)
  | answered (i : ℕ) (response : Resp)
  | receiveResponse (i : ℕ) (client : Client) (handle : Handle) (data : Data)

/-- The proxy.  `requestObject` and `responseObject` give the contents of the pooled objects, also of those still to be
created; the objects in `lostRequests` and `lostResponses` were destroyed by an exception. -/
structure State (Req Resp Data Client Handle : Type) where
  requestPool : Pool
  responsePool : Pool
  requestObject : ℕ → Req
  responseObject : ℕ → Data
  lostRequests : List ℕ
  lostResponses : List ℕ
  calls : List (Call Resp Data Client Handle)
  trace : List (Event Req Resp Data Client Handle)

inductive Action (Resp Data Client Handle : Type)
  | callService (args : Arguments Data Client Handle) (o : ℕ) -- up to `_request_pool.pop()`, which returns `o`
  | requestToRos2 (i : ℕ)
  | asyncSendRequest (i : ℕ)
  | waitForResponse (i : ℕ) (response : Resp) (p : ℕ) -- up to `_response_pool.pop()`, which returns `p`
  | responseToXtype (i : ℕ)
  | receiveResponse (i : ℕ)
  | recycle (i : ℕ) -- `receive_response` returns, and both objects are recycled
  | throws (i : ℕ) -- the conversion or the `receive_response` in progress throws

/-- A proxy just constructed: both pools hold one object. -/
def initial (request : Req) (response : Data) : State Req Resp Data Client Handle where
  requestPool := .ofDepth 1
  responsePool := .ofDepth 1
  requestObject _ := request
  responseObject _ := response
  lostRequests := []
  lostResponses := []
  calls := []
  trace := []

/-- The call `i` moves to another stage. -/
def State.moveTo (s : State Req Resp Data Client Handle) (i : ℕ) (call : Call Resp Data Client Handle)
    (stage : Stage Resp) : State Req Resp Data Client Handle :=
  { s with calls := s.calls.set i { call with stage := stage } }

/-- `call_service` up to the request object. -/
def callService (s : State Req Resp Data Client Handle) (args : Arguments Data Client Handle) (o : ℕ) :
    Option (State Req Resp Data Client Handle) :=
  if args.available then
    (s.requestPool.pop o).map fun pool => { s with requestPool := pool, calls := s.calls ++ [⟨args, .popped o⟩] }
  else some { s with calls := s.calls ++ [⟨args, .refused⟩] }

/-- One step of one call. -/
def step (c : Converters Req Resp Data) (s : State Req Resp Data Client Handle) :
    Action Resp Data Client Handle → Option (State Req Resp Data Client Handle)
  | .callService args o => callService s args o
  | .requestToRos2 i => do
    let call ← s.calls[i]?
    match call.stage with
    | .popped o =>
      some { s.moveTo i call (.translated o) with
        requestObject := Function.update s.requestObject o (c.requestToRos2 call.request (s.requestObject o)) }
    | _ => none
  | .asyncSendRequest i => do
    let call ← s.calls[i]?
    match call.stage with
    | .translated o => some { s.moveTo i call (.sent o) with trace := .sent i (s.requestObject o) :: s.trace }
    | _ => none
  | .waitForResponse i response p => do
    let call ← s.calls[i]?
    match call.stage with
    | .sent o =>
      (s.responsePool.pop p).map fun pool =>
        { s.moveTo i call (.answered o p response) with
          responsePool := pool, trace := .answered i response :: s.trace }
    | _ => none
  | .responseToXtype i => do
    let call ← s.calls[i]?
    match call.stage with
    | .answered o p response =>
      some { s.moveTo i call (.responseTranslated o p response) with
        responseObject := Function.update s.responseObject p (c.responseToXtype response (s.responseObject p)) }
    | _ => none
  | .receiveResponse i => do
    let call ← s.calls[i]?
    match call.stage with
    | .responseTranslated o p _ =>
      some { s.moveTo i call (.delivering o p) with
        trace := .receiveResponse i call.client call.handle (s.responseObject p) :: s.trace }
    | _ => none
  | .recycle i => do
    let call ← s.calls[i]?
    match call.stage with
    | .delivering o p =>
      some { s.moveTo i call .done with
        requestPool := s.requestPool.recycle o, responsePool := s.responsePool.recycle p }
    | _ => none
  | .throws i => do
    let call ← s.calls[i]?
    match call.stage with
    | .popped _ | .answered _ _ _ | .delivering _ _ =>
      some { s.moveTo i call .threw with
        lostRequests := call.stage.request ++ s.lostRequests
        lostResponses := call.stage.response ++ s.lostResponses }
    | _ => none

/-- Two calls and a refused one: the second call is made from inside the `receive_response` of the first, whose reply
arrives before that of the second. -/
def nestedCalls : List (Action ℕ ℕ ℕ ℕ) :=
  [.callService ⟨7, 1, 1, true⟩ 0, .requestToRos2 0, .asyncSendRequest 0, .waitForResponse 0 70 0, .responseToXtype 0,
    .receiveResponse 0, .callService ⟨8, 2, 2, true⟩ 1, .requestToRos2 1, .callService ⟨9, 3, 3, false⟩ 0, .recycle 0,
    .asyncSendRequest 1, .waitForResponse 1 80 0]

/-! ### What a step does -/

section Step

variable {c : Converters Req Resp Data} {s t : State Req Resp Data Client Handle} {i : ℕ}

theorem step_callService {args : Arguments Data Client Handle} {o : ℕ}
    (h : step c s (.callService args o) = some t) :
    (args.available = false ∧ t = { s with calls := s.calls ++ [⟨args, .refused⟩] }) ∨
    (args.available = true ∧ ∃ pool, s.requestPool.pop o = some pool ∧
      t = { s with requestPool := pool, calls := s.calls ++ [⟨args, .popped o⟩] }) := by
  simp only [step, callService] at h
  split at h
  · rename_i ha
    obtain ⟨pool, hpool, rfl⟩ := Option.map_eq_some_iff.mp h
    exact Or.inr ⟨ha, pool, hpool, rfl⟩
  · rename_i ha
    exact Or.inl ⟨by simpa using ha, (Option.some.inj h).symm⟩

theorem step_requestToRos2 (h : step c s (.requestToRos2 i) = some t) :
    ∃ call o, s.calls[i]? = some call ∧ call.stage = .popped o ∧
      t = { s.moveTo i call (.translated o) with
        requestObject := Function.update s.requestObject o (c.requestToRos2 call.request (s.requestObject o)) } := by
  obtain ⟨call, hi, h⟩ := Option.bind_eq_some_iff.mp h
  split at h
  · rename_i o ho
    exact ⟨call, o, hi, ho, (Option.some.inj h).symm⟩
  · cases h

theorem step_asyncSendRequest (h : step c s (.asyncSendRequest i) = some t) :
    ∃ call o, s.calls[i]? = some call ∧ call.stage = .translated o ∧
      t = { s.moveTo i call (.sent o) with trace := .sent i (s.requestObject o) :: s.trace } := by
  obtain ⟨call, hi, h⟩ := Option.bind_eq_some_iff.mp h
  split at h
  · rename_i o ho
    exact ⟨call, o, hi, ho, (Option.some.inj h).symm⟩
  · cases h

theorem step_waitForResponse {response : Resp} {p : ℕ} (h : step c s (.waitForResponse i response p) = some t) :
    ∃ call o pool, s.calls[i]? = some call ∧ call.stage = .sent o ∧ s.responsePool.pop p = some pool ∧
      t = { s.moveTo i call (.answered o p response) with
        responsePool := pool, trace := .answered i response :: s.trace } := by
  obtain ⟨call, hi, h⟩ := Option.bind_eq_some_iff.mp h
  split at h
  · rename_i o ho
    obtain ⟨pool, hpool, rfl⟩ := Option.map_eq_some_iff.mp h
    exact ⟨call, o, pool, hi, ho, hpool, rfl⟩
  · cases h

theorem step_responseToXtype (h : step c s (.responseToXtype i) = some t) :
    ∃ call o p response, s.calls[i]? = some call ∧ call.stage = .answered o p response ∧
      t = { s.moveTo i call (.responseTranslated o p response) with
        responseObject := Function.update s.responseObject p (c.responseToXtype response (s.responseObject p)) } := by
  obtain ⟨call, hi, h⟩ := Option.bind_eq_some_iff.mp h
  split at h
  · rename_i o p response ho
    exact ⟨call, o, p, response, hi, ho, (Option.some.inj h).symm⟩
  · cases h

theorem step_receiveResponse (h : step c s (.receiveResponse i) = some t) :
    ∃ call o p response, s.calls[i]? = some call ∧ call.stage = .responseTranslated o p response ∧
      t = { s.moveTo i call (.delivering o p) with
        trace := .receiveResponse i call.client call.handle (s.responseObject p) :: s.trace } := by
  obtain ⟨call, hi, h⟩ := Option.bind_eq_some_iff.mp h
  split at h
  · rename_i o p response ho
    exact ⟨call, o, p, response, hi, ho, (Option.some.inj h).symm⟩
  · cases h

theorem step_recycle (h : step c s (.recycle i) = some t) :
    ∃ call o p, s.calls[i]? = some call ∧ call.stage = .delivering o p ∧
      t = { s.moveTo i call .done with
        requestPool := s.requestPool.recycle o, responsePool := s.responsePool.recycle p } := by
  obtain ⟨call, hi, h⟩ := Option.bind_eq_some_iff.mp h
  split at h
  · rename_i o p ho
    exact ⟨call, o, p, hi, ho, (Option.some.inj h).symm⟩
  · cases h

theorem step_throws (h : step c s (.throws i) = some t) :
    ∃ call, s.calls[i]? = some call ∧
      t = { s.moveTo i call .threw with
        lostRequests := call.stage.request ++ s.lostRequests
        lostResponses := call.stage.response ++ s.lostResponses } := by
  obtain ⟨call, hi, h⟩ := Option.bind_eq_some_iff.mp h
  refine ⟨call, hi, ?_⟩
  split at h
  · exact (Option.some.inj h).symm
  · exact (Option.some.inj h).symm
  · exact (Option.some.inj h).symm
  · cases h

end Step

end Ros2Sh.Service.ServerProxy
