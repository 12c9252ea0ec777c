import Ros2Sh.Lib.Run
import Ros2Sh.Service.Converters

/-!
# `ClientProxy`: a ROS 2 client served by the Integration Service

The generated `ClientProxy` owns a ROS 2 service.  `service_callback` translates the request, stores the address of
its local `response_promise` in the holder `_handle`, hands that holder to the Integration Service callback as the
call handle, and waits for the future of the promise, at most five seconds.  `receive_response` translates the
result and sets the promise the holder designates *at that moment*.

All requests share the one holder, so the model names a promise by the invocation that owns it: the promise exists
while that `service_callback` is running, and the holder designates the promise of the latest invocation.

* `step` — the machine: the executor enters `service_callback` once the previous one has returned, and the
  environment answers every forwarded request at most once, at any later moment;
* `designated_own_iff` — the holder designates the promise of the request being answered exactly when that request's
  `service_callback` is still running;
* `inv_step`, `returns_agree_of_timely`, `promise_safe_of_timely` — what holds of the runs in which every reply
  arrives before its own `service_callback` has returned.
-/

namespace Ros2Sh.Service

open Ros2Sh.Lib

namespace ClientProxy

variable {Req Resp Data : Type}

/-- The requests are numbered in the order in which their `service_callback` is entered. -/
abbrev RequestId := ℕ

/-- Where a running `service_callback` stands. -/
inductive Phase
  /-- inside `(*_callback)(_request_data, *this, _handle)` -/
  | inCallback
  /-- inside `future_response.wait_for` -/
  | inWait
  deriving DecidableEq, Repr

/-- A running `service_callback`: its local promise, with the value it was set to, and the `*response` it was
handed by the executor. -/
structure Invocation (Resp : Type) where
  id : RequestId
  phase : Phase
  responsePromise : Option Resp
  response : Resp

/-- `PromiseHolder`: a bare pointer to a promise, here the invocation whose promise it is. -/
structure PromiseHolder where
  promise : Option RequestId

/-- What can be observed of a run, and how `set_value` can go wrong. -/
inductive Event (Resp Data : Type)
  /-- the request was handed to the Integration Service callback, with its translation -/
  | forwarded (k : RequestId) (data : Data)
  /-- `receive_response` was called for the request, with this result -/
  | replied (k : RequestId) (result : Data)
  /-- `service_callback` returned; `*response` before and after it ran -/
  | returned (k : RequestId) (before after : Resp)
  /-- the reply for the request was written through a promise that no longer exists -/
  | expired (k : RequestId)
  /-- `set_value` threw `promise_already_satisfied` on the reply for the request -/
  | alreadySatisfied (k : RequestId)

/-- The proxy with what the executor and the environment still owe it; `trace` holds the events, newest first. -/
structure State (Resp Data : Type) where
  started : ℕ
  running : Option (Invocation Resp)
  handle : PromiseHolder
  requestData : Data
  response : Resp
  outstanding : List RequestId
  undefinedBehaviour : Bool
  trace : List (Event Resp Data)

inductive Action (Req Resp Data : Type)
  /-- the executor calls `service_callback` with this request and this response object -/
  | serviceCallback (request : Req) (response : Resp)
  /-- the Integration Service callback returns and `wait_for` begins -/
  | callbackReturns
  /-- `wait_for` reports `future_status::ready` -/
  | ready
  /-- `wait_for` reports a timeout -/
  | timeout
  /-- the environment answers the request through the call handle it was given for it -/
  | receiveResponse (k : RequestId) (result : Data)

/-- A proxy just constructed: `make_shared<PromiseHolder>()` holds a null pointer. -/
def initial (requestData : Data) (response : Resp) : State Resp Data where
  started := 0
  running := none
  handle := ⟨none⟩
  requestData := requestData
  response := response
  outstanding := []
  undefinedBehaviour := false
  trace := []

/-- `service_callback` up to the call of the Integration Service callback. -/
def serviceCallback (c : Converters Req Resp Data) (s : State Resp Data) (request : Req) (response : Resp) :
    State Resp Data :=
  let data := c.requestToXtype request s.requestData
  { s with
    started := s.started + 1
    running := some ⟨s.started, .inCallback, none, response⟩
    handle := ⟨some s.started⟩
    requestData := data
    outstanding := s.started :: s.outstanding
    trace := .forwarded s.started data :: s.trace }

/-- The end of `service_callback`: `*response` now holds `after`, and the local promise is destroyed. -/
def returnWith (s : State Resp Data) (inv : Invocation Resp) (after : Resp) : State Resp Data :=
  { s with running := none, trace := .returned inv.id inv.response after :: s.trace }

/-- The invocation whose promise `handle->promise` points to, if that promise still exists. -/
def State.designated (s : State Resp Data) : Option (Invocation Resp) :=
  match s.handle.promise, s.running with
  | some p, some inv => if inv.id = p then some inv else none
  | _, _ => none

/-- `receive_response`: the result is translated into the member `_response`, whose value the promise is set to. -/
def receiveResponse (c : Converters Req Resp Data) (s : State Resp Data) (k : RequestId) (result : Data) :
    State Resp Data :=
  let r := c.responseToRos2 result s.response
  let s' := { s with
    response := r
    outstanding := s.outstanding.filter (· ≠ k)
    trace := .replied k result :: s.trace }
  match s.designated with
  | none => { s' with undefinedBehaviour := true, trace := .expired k :: s'.trace }
  | some inv =>
    match inv.responsePromise with
    | none => { s' with running := some { inv with responsePromise := some r } }
    | some _ => { s' with trace := .alreadySatisfied k :: s'.trace }

/-- One step of the proxy.  Nothing can be said of the program after undefined behaviour, so the machine stops. -/
def step (c : Converters Req Resp Data) (s : State Resp Data) (a : Action Req Resp Data) :
    Option (State Resp Data) :=
  if s.undefinedBehaviour then none
  else
    match a, s.running with
    | .serviceCallback request response, none => some (serviceCallback c s request response)
    | .callbackReturns, some inv =>
      if inv.phase = .inCallback then some { s with running := some { inv with phase := .inWait } } else none
    | .ready, some inv =>
      if inv.phase = .inWait then inv.responsePromise.map fun r => returnWith s inv r else none
    | .timeout, some inv =>
      if inv.phase = .inWait ∧ inv.responsePromise.isNone then some (returnWith s inv inv.response) else none
    | .receiveResponse k result, _ =>
      if k ∈ s.outstanding then some (receiveResponse c s k result) else none
    | _, _ => none

/-! ### What a step does -/

section Step

variable {c : Converters Req Resp Data} {s t : State Resp Data}

theorem step_serviceCallback {request : Req} {response : Resp}
    (h : step c s (.serviceCallback request response) = some t) :
    s.running = none ∧ t = serviceCallback c s request response := by
  unfold step at h
  cases hr : s.running with
  | some inv => simp [hr] at h
  | none =>
    simp only [hr] at h
    split at h
    · cases h
    · exact ⟨rfl, by simpa using h.symm⟩

theorem step_callbackReturns (h : step c s .callbackReturns = some t) :
    ∃ inv, s.running = some inv ∧ inv.phase = .inCallback ∧
      t = { s with running := some { inv with phase := .inWait } } := by
  unfold step at h
  cases hr : s.running with
  | none => simp [hr] at h
  | some inv =>
    simp only [hr, Option.ite_none_left_eq_some, Option.ite_none_right_eq_some, Option.some.injEq] at h
    exact ⟨inv, rfl, h.2.1, h.2.2.symm⟩

theorem step_ready (h : step c s .ready = some t) :
    ∃ inv r, s.running = some inv ∧ inv.phase = .inWait ∧ inv.responsePromise = some r ∧ t = returnWith s inv r := by
  unfold step at h
  cases hr : s.running with
  | none => simp [hr] at h
  | some inv =>
    simp only [hr, Option.ite_none_left_eq_some, Option.ite_none_right_eq_some, Option.map_eq_some_iff] at h
    obtain ⟨-, hp, r, hpr, ht⟩ := h
    exact ⟨inv, r, rfl, hp, hpr, ht.symm⟩

theorem step_timeout (h : step c s .timeout = some t) :
    ∃ inv, s.running = some inv ∧ inv.phase = .inWait ∧ inv.responsePromise = none ∧
      t = returnWith s inv inv.response := by
  unfold step at h
  cases hr : s.running with
  | none => simp [hr] at h
  | some inv =>
    simp only [hr, Option.ite_none_left_eq_some, Option.ite_none_right_eq_some, Option.some.injEq,
      Option.isNone_iff_eq_none] at h
    obtain ⟨-, ⟨hp, hn⟩, ht⟩ := h
    exact ⟨inv, rfl, hp, hn, ht.symm⟩

theorem step_receiveResponse {k : RequestId} {result : Data} (h : step c s (.receiveResponse k result) = some t) :
    k ∈ s.outstanding ∧ t = receiveResponse c s k result := by
  unfold step at h
  simp only [Option.ite_none_left_eq_some, Option.ite_none_right_eq_some, Option.some.injEq] at h
  exact ⟨h.2.1, h.2.2.symm⟩

end Step

/-! ### Which promise the holder designates -/

section Designated

variable {c : Converters Req Resp Data} {s t : State Resp Data}

/-- The holder designates the running invocation: the pointer was written when it was entered. -/
def HolderCurrent (s : State Resp Data) : Prop := ∀ inv, s.running = some inv → s.handle.promise = some inv.id

theorem HolderCurrent.designated_eq (h : HolderCurrent s) : s.designated = s.running := by
  unfold State.designated
  cases hr : s.running with
  | none => cases s.handle.promise <;> rfl
  | some inv => simp [h inv hr]

theorem receiveResponse_handle (k : RequestId) (result : Data) :
    (receiveResponse c s k result).handle = s.handle := by
  unfold receiveResponse
  cases s.designated with
  | none => rfl
  | some inv => cases h : inv.responsePromise <;> simp [h]

theorem receiveResponse_running_id (h : HolderCurrent s) (k : RequestId) (result : Data) :
    (receiveResponse c s k result).running.map (·.id) = s.running.map (·.id) := by
  unfold receiveResponse
  rw [h.designated_eq]
  cases hr : s.running with
  | none => simp
  | some inv => cases hp : inv.responsePromise <;> simp [hp]

theorem holderCurrent_step {a : Action Req Resp Data} (hs : HolderCurrent s) (h : step c s a = some t) :
    HolderCurrent t := by
  cases a with
  | serviceCallback request response =>
    obtain ⟨-, rfl⟩ := step_serviceCallback h
    intro inv hinv
    obtain rfl : _ = inv := by simpa [serviceCallback] using hinv
    rfl
  | callbackReturns =>
    obtain ⟨inv₀, h₀, -, rfl⟩ := step_callbackReturns h
    intro inv hinv
    obtain rfl : _ = inv := by simpa using hinv
    exact hs inv₀ h₀
  | ready =>
    obtain ⟨_, _, _, _, _, rfl⟩ := step_ready h
    intro inv hinv
    simp [returnWith] at hinv
  | timeout =>
    obtain ⟨_, _, _, _, rfl⟩ := step_timeout h
    intro inv hinv
    simp [returnWith] at hinv
  | receiveResponse k result =>
    obtain ⟨-, rfl⟩ := step_receiveResponse h
    intro inv hinv
    rw [receiveResponse_handle]
    have hid := receiveResponse_running_id (c := c) hs k result
    rw [hinv, Option.map_some] at hid
    obtain ⟨inv₀, h₀, he⟩ := Option.map_eq_some_iff.mp hid.symm
    rw [hs inv₀ h₀, he]

theorem holderCurrent_initial (d : Data) (r : Resp) : HolderCurrent (initial d r) := by
  intro inv hinv
  simp [initial] at hinv

/-- The reply arrives while the `service_callback` of its own request is running. -/
def Timely (s : State Resp Data) : Action Req Resp Data → Prop
  | .receiveResponse k _ => ∃ inv, s.running = some inv ∧ inv.id = k
  | _ => True

instance (s : State Resp Data) : DecidablePred (Timely s : Action Req Resp Data → Prop)
  | .receiveResponse k _ =>
    match h : s.running with
    | none => isFalse (by simp [Timely, h])
    | some inv => decidable_of_iff (inv.id = k) (by simp [Timely, h])
  | .serviceCallback .. | .callbackReturns | .ready | .timeout => isTrue trivial

/-- **The call handle designates the promise of the request being answered exactly when that request's
`service_callback` has not returned yet**, in every state of every run.  A later reply finds a promise that no longer
exists, or the promise of another request. -/
theorem designated_own_iff {d : Data} {r : Resp} {as : List (Action Req Resp Data)}
    (hr : run (step c) (initial d r) as = some s) (k : RequestId) (result : Data) :
    (∃ inv, s.designated = some inv ∧ inv.id = k) ↔
      Timely s (.receiveResponse k result : Action Req Resp Data) := by
  have hs : HolderCurrent s :=
    run_inv_of_step (fun _ _ _ h ht => holderCurrent_step h ht) (holderCurrent_initial d r) hr
  rw [hs.designated_eq]
  exact Iff.rfl

end Designated

/-! ### Runs in which every reply is timely -/

/-- What the ROS 2 client gets back for the request `k`: the translation of the result that had been passed to
`receive_response` for `k` itself, or its response object as it was, no reply for `k` having arrived. -/
def Agrees (c : Converters Req Resp Data) (earlier : List (Event Resp Data)) (k : RequestId) (before after : Resp) :
    Prop :=
  (∃ result prior, .replied k result ∈ earlier ∧ after = c.responseToRos2 result prior) ∨
    (after = before ∧ ∀ result, .replied k result ∉ earlier)

/-- Every `service_callback` that returned in the trace agrees with the events before its return. -/
def ReturnsAgree (c : Converters Req Resp Data) : List (Event Resp Data) → Prop
  | [] => True
  | .returned k before after :: earlier => Agrees c earlier k before after ∧ ReturnsAgree c earlier
  | _ :: earlier => ReturnsAgree c earlier

/-- The promise the call handle designates belongs to a `service_callback` that has not returned, and it has not been
satisfied before. -/
def PromiseSafe (s : State Resp Data) : Action Req Resp Data → Prop
  | .receiveResponse k _ => k ∈ s.outstanding → ∃ inv, s.designated = some inv ∧ inv.responsePromise = none
  | _ => True

/-- No reply was written through an expired promise and no promise was set twice. -/
def NoBrokenPromise (trace : List (Event Resp Data)) : Prop :=
  ∀ k, .expired k ∉ trace ∧ .alreadySatisfied k ∉ trace

/-- The invariant of the runs in which every reply is timely. -/
structure Inv (c : Converters Req Resp Data) (s : State Resp Data) : Prop where
  holder : HolderCurrent s
  running_lt : ∀ inv, s.running = some inv → inv.id < s.started
  replied_lt : ∀ k result, .replied k result ∈ s.trace → k < s.started
  /-- An unset promise: no reply for its request yet. -/
  unset : ∀ inv, s.running = some inv → inv.responsePromise = none → ∀ result, .replied inv.id result ∉ s.trace
  /-- A promise that is set holds the translation of the reply for its own request, which is owed no more. -/
  isSet : ∀ inv r, s.running = some inv → inv.responsePromise = some r → inv.id ∉ s.outstanding ∧
    ∃ result prior, .replied inv.id result ∈ s.trace ∧ r = c.responseToRos2 result prior
  outstanding_lt : ∀ k ∈ s.outstanding, k < s.started
  agree : ReturnsAgree c s.trace
  noBroken : NoBrokenPromise s.trace

section Timely

variable {c : Converters Req Resp Data} {s t : State Resp Data}

theorem inv_initial (d : Data) (r : Resp) : Inv c (initial d r) where
  holder := holderCurrent_initial d r
  running_lt := by simp [initial]
  replied_lt := by simp [initial]
  unset := by simp [initial]
  isSet := by simp [initial]
  outstanding_lt := by simp [initial]
  agree := trivial
  noBroken := by simp [NoBrokenPromise, initial]

/-- A timely reply finds the promise of its own request, still unset. -/
theorem Inv.designated_of_timely (hs : Inv c s) {k : RequestId} {result : Data} (hk : k ∈ s.outstanding)
    (ht : Timely s (.receiveResponse k result : Action Req Resp Data)) :
    ∃ inv, s.running = some inv ∧ inv.id = k ∧ s.designated = some inv ∧ inv.responsePromise = none := by
  obtain ⟨inv, hrun, rfl⟩ := ht
  refine ⟨inv, hrun, rfl, by rw [hs.holder.designated_eq, hrun], ?_⟩
  cases hp : inv.responsePromise with
  | none => rfl
  | some r => exact absurd hk (hs.isSet inv r hrun hp).1

/-- A timely reply sets the promise of its own request. -/
theorem Inv.receiveResponse_eq (hs : Inv c s) {k : RequestId} {result : Data} (hk : k ∈ s.outstanding)
    (ht : Timely s (.receiveResponse k result : Action Req Resp Data)) :
    ∃ inv, s.running = some inv ∧ inv.id = k ∧ inv.responsePromise = none ∧
      receiveResponse c s k result = { s with
        response := c.responseToRos2 result s.response
        running := some { inv with responsePromise := some (c.responseToRos2 result s.response) }
        outstanding := s.outstanding.filter (· ≠ k)
        trace := .replied k result :: s.trace } := by
  obtain ⟨inv, hrun, hid, hd, hp⟩ := hs.designated_of_timely hk ht
  refine ⟨inv, hrun, hid, hp, ?_⟩
  unfold receiveResponse
  simp only [hd, hp]

theorem Inv.serviceCallback (hs : Inv c s) (request : Req) (response : Resp) :
    Inv c (serviceCallback c s request response) where
  holder := by
    intro inv hinv
    obtain rfl : _ = inv := by simpa [ClientProxy.serviceCallback] using hinv
    rfl
  running_lt := by simp [ClientProxy.serviceCallback]
  replied_lt := by
    intro k result hk
    exact Nat.lt_succ_of_lt (hs.replied_lt k result (by simpa [ClientProxy.serviceCallback] using hk))
  unset := by
    intro inv hinv _ result hmem
    obtain rfl : _ = inv := by simpa [ClientProxy.serviceCallback] using hinv
    -- the new request has a fresh number, so nothing was replied for it
    exact absurd (hs.replied_lt s.started result (by simpa [ClientProxy.serviceCallback] using hmem)) (Nat.lt_irrefl _)
  isSet := by
    intro inv r hinv hp
    obtain rfl : _ = inv := by simpa [ClientProxy.serviceCallback] using hinv
    simp at hp
  outstanding_lt := by
    intro k hk
    rcases List.mem_cons.mp hk with rfl | hk
    · simp [ClientProxy.serviceCallback]
    · exact Nat.lt_succ_of_lt (hs.outstanding_lt k hk)
  agree := hs.agree
  noBroken := by
    intro k
    simpa [ClientProxy.serviceCallback] using hs.noBroken k

theorem Inv.returnWith (hs : Inv c s) {inv : Invocation Resp} {after : Resp}
    (ha : Agrees c s.trace inv.id inv.response after) : Inv c (returnWith s inv after) where
  holder := by simp [HolderCurrent, ClientProxy.returnWith]
  running_lt := by simp [ClientProxy.returnWith]
  replied_lt := by
    intro k result hk
    exact hs.replied_lt k result (by simpa [ClientProxy.returnWith] using hk)
  unset := by simp [ClientProxy.returnWith]
  isSet := by simp [ClientProxy.returnWith]
  outstanding_lt := hs.outstanding_lt
  agree := ⟨ha, hs.agree⟩
  noBroken := by
    intro k
    simpa [ClientProxy.returnWith] using hs.noBroken k

theorem Inv.receiveResponse (hs : Inv c s) {k : RequestId} {result : Data} (hk : k ∈ s.outstanding)
    (ht : Timely s (.receiveResponse k result : Action Req Resp Data)) : Inv c (receiveResponse c s k result) := by
  obtain ⟨inv, hrun, rfl, hp, heq⟩ := hs.receiveResponse_eq hk ht
  have hlt := hs.running_lt inv hrun
  rw [heq]
  constructor
  · intro inv' hinv'
    obtain rfl : _ = inv' := by simpa using hinv'
    exact hs.holder inv hrun
  · intro inv' hinv'
    obtain rfl : _ = inv' := by simpa using hinv'
    exact hlt
  · intro k' result' hmem
    rcases List.mem_cons.mp hmem with he | hmem
    · obtain ⟨rfl, -⟩ := Event.replied.inj he
      exact hlt
    · exact hs.replied_lt k' result' hmem
  · intro inv' hinv' hnone
    obtain rfl : _ = inv' := by simpa using hinv'
    simp at hnone
  · intro inv' r hinv' hset
    obtain rfl : _ = inv' := by simpa using hinv'
    refine ⟨by simp, result, s.response, List.mem_cons_self .., ?_⟩
    simpa using hset.symm
  · intro k' hk'
    exact hs.outstanding_lt k' (List.mem_of_mem_filter hk')
  · exact hs.agree
  · intro k'
    simpa using hs.noBroken k'

/-- **A step preserves the invariant, as long as a reply is timely.** -/
theorem inv_step {a : Action Req Resp Data} (hs : Inv c s) (ht : Timely s a) (h : step c s a = some t) : Inv c t := by
  cases a with
  | serviceCallback request response =>
    obtain ⟨-, rfl⟩ := step_serviceCallback h
    exact hs.serviceCallback request response
  | callbackReturns =>
    obtain ⟨inv, hrun, -, rfl⟩ := step_callbackReturns h
    constructor
    · intro inv' hinv'
      obtain rfl : _ = inv' := by simpa using hinv'
      exact hs.holder inv hrun
    · intro inv' hinv'
      obtain rfl : _ = inv' := by simpa using hinv'
      exact hs.running_lt inv hrun
    · exact hs.replied_lt
    · intro inv' hinv'
      obtain rfl : _ = inv' := by simpa using hinv'
      exact hs.unset inv hrun
    · intro inv' r hinv'
      obtain rfl : _ = inv' := by simpa using hinv'
      exact hs.isSet inv r hrun
    · exact hs.outstanding_lt
    · exact hs.agree
    · exact hs.noBroken
  | ready =>
    obtain ⟨inv, r, hrun, -, hp, rfl⟩ := step_ready h
    obtain ⟨-, result, prior, hmem, hr⟩ := hs.isSet inv r hrun hp
    exact hs.returnWith (Or.inl ⟨result, prior, hmem, hr⟩)
  | timeout =>
    obtain ⟨inv, hrun, -, hp, rfl⟩ := step_timeout h
    exact hs.returnWith (Or.inr ⟨rfl, hs.unset inv hrun hp⟩)
  | receiveResponse k result =>
    obtain ⟨hk, rfl⟩ := step_receiveResponse h
    exact hs.receiveResponse hk ht

theorem inv_of_timely {d : Data} {r : Resp} {as : List (Action Req Resp Data)}
    (hc : Along (step c) Timely (initial d r) as) (hr : run (step c) (initial d r) as = some t) : Inv c t :=
  run_inv (fun _ _ _ hs ht h => inv_step hs ht h) (inv_initial d r) hc hr

end Timely

/-! ### Request/reply agreement -/

/-- **A run of timely replies hands every ROS 2 client the reply to its own request, or nothing.** -/
theorem returns_agree_of_timely (c : Converters Req Resp Data) (d : Data) (r : Resp)
    (as : List (Action Req Resp Data)) (t : State Resp Data) (hr : run (step c) (initial d r) as = some t)
    (hc : Along (step c) Timely (initial d r) as) : ReturnsAgree c t.trace :=
  (inv_of_timely hc hr).agree

theorem returns_agree_of_timely_two_requests : ∃ t,
    run (step oneField) (initial 0 0) [.serviceCallback 7 0, .receiveResponse 0 70, .callbackReturns, .ready,
      .serviceCallback 8 0, .callbackReturns, .timeout] = some t ∧ ReturnsAgree oneField t.trace :=
  ⟨_, rfl, returns_agree_of_timely oneField 0 0 [.serviceCallback 7 0, .receiveResponse 0 70, .callbackReturns, .ready,
    .serviceCallback 8 0, .callbackReturns, .timeout] _ rfl (by decide)⟩

/-- The first request times out and its reply arrives while the second one waits: the second client gets it. -/
theorem returns_disagree_on_late_reply : ¬ ∀ (as : List (Action ℕ ℕ ℕ)) (t : State ℕ ℕ),
    run (step oneField) (initial 0 0) as = some t → ReturnsAgree oneField t.trace := by
  intro h
  have hlate := h [.serviceCallback 7 0, .callbackReturns, .timeout, .serviceCallback 8 0, .callbackReturns,
    .receiveResponse 0 70, .ready] _ rfl
  simp [ReturnsAgree, Agrees, returnWith, receiveResponse, serviceCallback, initial, oneField, State.designated]
    at hlate

/-! ### Promise safety -/

/-- **In a run of timely replies every `set_value` finds a promise that exists and is unset.** -/
theorem promise_safe_of_timely (c : Converters Req Resp Data) (d : Data) (r : Resp)
    (as : List (Action Req Resp Data)) (t : State Resp Data) (hr : run (step c) (initial d r) as = some t)
    (hc : Along (step c) Timely (initial d r) as) :
    Along (step c) PromiseSafe (initial d r) as ∧ NoBrokenPromise t.trace := by
  refine ⟨?_, (inv_of_timely hc hr).noBroken⟩
  refine along_of_inv (fun _ _ _ hs ht h => inv_step hs ht h) (fun s a hs ht => ?_) (inv_initial d r) hc
  cases a with
  | receiveResponse k result =>
    intro hk
    obtain ⟨inv, -, -, hd, hp⟩ := hs.designated_of_timely hk ht
    exact ⟨inv, hd, hp⟩
  | serviceCallback _ _ => trivial
  | callbackReturns => trivial
  | ready => trivial
  | timeout => trivial

theorem promise_safe_of_timely_two_requests : ∃ t,
    run (step oneField) (initial 0 0) [.serviceCallback 7 0, .callbackReturns, .receiveResponse 0 70, .ready,
      .serviceCallback 8 0, .receiveResponse 1 80] = some t ∧
    Along (step oneField) PromiseSafe (initial 0 0) [.serviceCallback 7 0, .callbackReturns, .receiveResponse 0 70,
      .ready, .serviceCallback 8 0, .receiveResponse 1 80] ∧ NoBrokenPromise t.trace :=
  ⟨_, rfl, promise_safe_of_timely oneField 0 0 _ _ rfl (by decide)⟩

/-- The reply arrives after the timeout, when no `service_callback` is running: the promise no longer exists. -/
theorem promise_unsafe_after_timeout : ¬ ∀ (as : List (Action ℕ ℕ ℕ)) (t : State ℕ ℕ),
    run (step oneField) (initial 0 0) as = some t →
      Along (step oneField) PromiseSafe (initial 0 0) as ∧ NoBrokenPromise t.trace := by
  intro h
  have hlate := (h [.serviceCallback 7 0, .callbackReturns, .timeout, .receiveResponse 0 70] _ rfl).2 0
  simp [returnWith, receiveResponse, serviceCallback, initial, State.designated] at hlate

end ClientProxy

end Ros2Sh.Service
