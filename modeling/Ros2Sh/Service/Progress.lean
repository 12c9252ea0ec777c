import Ros2Sh.Service.EndToEnd

/-!
# A request that waits can still be answered

A `service_callback` that waits is not blocked by the requests and calls that run beside it: from every state of a run
with timely replies the bridge can go on to answer it, with no step of another client.  The request has to have been
passed on to an available service, or it can still be passed on; no other request can be answered any more
(`answerable_iff`).
-/

namespace Ros2Sh.Service

open Ros2Sh.Lib
open ClientProxy (RequestId)

variable {ι Req Resp Data : Type}

/-! ### What is left to do for a call -/

namespace ServerProxy

variable {Client Handle : Type}

/-- The number of steps until the response is handed over, for a call that was accepted. -/
def Stage.remaining : Stage Resp → Option ℕ
  | .popped _ => some 5
  | .translated _ => some 4
  | .sent _ => some 3
  | .answered _ _ _ => some 2
  | .responseTranslated _ _ _ => some 1
  | .delivering _ _ | .done => some 0
  | .refused | .threw => none

theorem Stage.InCallService.remaining_ne_zero {stage : Stage Resp} (h : stage.InCallService) :
    stage.remaining ≠ some 0 := by
  cases stage with
  | popped o => nofun
  | translated o => nofun
  | _ => exact h.elim

section Steps

variable {c : Converters Req Resp Data} {s t : State Req Resp Data Client Handle}
  {a : Action Resp Data Client Handle} {i j : ℕ} {args : Arguments Data Client Handle} {stage : Stage Resp}
  {h : List (Event Req Resp Data Client Handle)}

/-- A call that was accepted has a number of steps left, if no exception ended it. -/
theorem History.remaining_of_available (hh : History c i args stage h) (ha : args.available = true)
    (hthrew : stage ≠ .threw) : ∃ n, stage.remaining = some n := by
  cases hh with
  | refused hunavailable =>
    rw [ha] at hunavailable
    cases hunavailable
  | threw _ => exact absurd rfl hthrew
  | _ => exact ⟨_, rfl⟩

theorem History.receiveResponse_of_remaining (hh : History c i args stage h) (hzero : stage.remaining = some 0) :
    ∃ data, .receiveResponse i args.client args.handle data ∈ h := by
  induction hh with
  | delivering prior _ _ => exact ⟨_, List.mem_cons_self ..⟩
  | done _ ih => exact ih rfl
  | _ => cases hzero

theorem exists_pop (pool : Pool) : ∃ o pool', pool.pop o = some pool' := by
  cases hfree : pool.free with
  | nil => exact ⟨pool.created, _, by simp [Pool.pop, hfree]; rfl⟩
  | cons o free => exact ⟨o, _, by simp [Pool.pop, hfree]; rfl⟩

theorem getElem?_moveTo {call : Call Resp Data Client Handle} (hlt : i < s.calls.length) :
    (s.moveTo i call stage).calls[i]? = some { call with stage := stage } := by
  simp [State.moveTo, hlt]

/-- A call in `call_service` was there before, or was just made, and no call is destroyed but by an exception. -/
theorem stage_of_step (h : step c s a = some t) (ha : ∀ i, a ≠ .throws i) {In : Stage Resp → Prop}
    (hin : ∀ stage, In stage → stage.InCallService ∨ stage = .threw)
    (hpopped : ∀ o, In (.translated o) → In (.popped o))
    {call' : Call Resp Data Client Handle} (hj : t.calls[j]? = some call') (hp : In call'.stage) :
    (∃ call₀, s.calls[j]? = some call₀ ∧ call₀.toArguments = call'.toArguments ∧ In call₀.stage) ∨
      ∃ o, a = .callService call'.toArguments o ∧ call'.stage = .popped o := by
  have hout : ∀ {stage before : Stage Resp}, In stage → ¬ stage.InCallService → stage ≠ .threw → In before :=
    fun hs hstage hthrew => ((hin _ hs).elim hstage hthrew).elim
  cases a with
  | callService args o =>
    rcases step_callService h with ⟨-, rfl⟩ | ⟨-, pool, -, rfl⟩
    · rcases getElem?_append_single_cases hj with hold | ⟨-, rfl⟩
      · exact .inl ⟨call', hold, rfl, hp⟩
      · exact ((hin _ hp).elim id nofun).elim
    · rcases getElem?_append_single_cases hj with hold | ⟨-, rfl⟩
      · exact .inl ⟨call', hold, rfl, hp⟩
      · exact .inr ⟨o, rfl, rfl⟩
  | requestToRos2 i =>
    obtain ⟨call, o, hi, ho, rfl⟩ := step_requestToRos2 h
    exact .inl (stage_moveTo hi (fun hs => by rw [ho]; exact hpopped o hs) hj hp)
  | asyncSendRequest i =>
    obtain ⟨call, o, hi, -, rfl⟩ := step_asyncSendRequest h
    exact .inl (stage_moveTo hi (fun hs => hout hs id (by simp)) hj hp)
  | waitForResponse i response p =>
    obtain ⟨call, o, pool, hi, -, -, rfl⟩ := step_waitForResponse h
    exact .inl (stage_moveTo hi (fun hs => hout hs id (by simp)) hj hp)
  | responseToXtype i =>
    obtain ⟨call, o, p, response, hi, -, rfl⟩ := step_responseToXtype h
    exact .inl (stage_moveTo hi (fun hs => hout hs id (by simp)) hj hp)
  | receiveResponse i =>
    obtain ⟨call, o, p, response, hi, -, rfl⟩ := step_receiveResponse h
    exact .inl (stage_moveTo hi (fun hs => hout hs id (by simp)) hj hp)
  | recycle i =>
    obtain ⟨call, o, p, hi, -, rfl⟩ := step_recycle h
    exact .inl (stage_moveTo hi (fun hs => hout hs id (by simp)) hj hp)
  | throws i => exact absurd rfl (ha i)

theorem receiveResponse_of_step (h : step c s a = some t) {client : Client} {handle : Handle} {data : Data}
    (hm : .receiveResponse j client handle data ∈ t.trace) :
    .receiveResponse j client handle data ∈ s.trace ∨ a = .receiveResponse j := by
  cases a with
  | callService args o => rcases step_callService h with ⟨-, rfl⟩ | ⟨-, pool, -, rfl⟩ <;> exact .inl hm
  | requestToRos2 i => obtain ⟨_, _, _, _, rfl⟩ := step_requestToRos2 h; exact .inl hm
  | asyncSendRequest i =>
    obtain ⟨_, _, _, _, rfl⟩ := step_asyncSendRequest h
    exact .inl (List.mem_of_ne_of_mem (by simp) hm)
  | waitForResponse i response p =>
    obtain ⟨_, _, _, _, _, _, rfl⟩ := step_waitForResponse h
    exact .inl (List.mem_of_ne_of_mem (by simp) hm)
  | responseToXtype i => obtain ⟨_, _, _, _, _, _, rfl⟩ := step_responseToXtype h; exact .inl hm
  | receiveResponse i =>
    obtain ⟨_, _, _, _, _, _, rfl⟩ := step_receiveResponse h
    rcases List.mem_cons.mp hm with he | hm
    · obtain ⟨rfl, -⟩ := Event.receiveResponse.inj he
      exact .inr rfl
    · exact .inl hm
  | recycle i => obtain ⟨_, _, _, _, _, rfl⟩ := step_recycle h; exact .inl hm
  | throws i => obtain ⟨_, _, rfl⟩ := step_throws h; exact .inl hm

end Steps

end ServerProxy

/-! ### What holds besides, in every run with timely replies -/

namespace Bridge

/-- No undefined behaviour and no exception; a `call_service` that is running was called from inside the callback of its
client; and what was handed over has arrived. -/
structure Live (s : State ι Req Resp Data) : Prop where
  defined : ∀ i, (s.client i).undefinedBehaviour = false
  inside : ∀ (j : ℕ) (call : ServerProxy.Call Resp Data ι RequestId), s.server.calls[j]? = some call →
    call.stage.InCallService → ∃ inv, (s.client call.client).running = some inv ∧ inv.id = call.handle ∧
      inv.phase = .inCallback
  unthrown : ∀ (j : ℕ) (call : ServerProxy.Call Resp Data ι RequestId), s.server.calls[j]? = some call →
    call.stage ≠ .threw
  arrived : ∀ j i k result, .receiveResponse j i k result ∈ s.server.trace → .replied k result ∈ (s.client i).trace

section Live

variable {c : Converters Req Resp Data} {s t : State ι Req Resp Data}

theorem live_initial (requestData : ι → Data) (response : ι → Resp) (request : Req) (data : Data) :
    Live (initial requestData response request data) := by
  constructor <;> simp [initial, ClientProxy.initial, ServerProxy.initial]

/-- The server proxy takes a step; what it hands over arrives, and a call it makes comes from a running callback. -/
theorem Live.moveServer (hs : Live s) {a : ServerProxy.Action Resp Data ι RequestId}
    {u : ServerProxy.State Req Resp Data ι RequestId} (h : ServerProxy.step c s.server a = some u)
    (hthrows : ∀ j, a ≠ .throws j)
    (hreceive : ∀ j i k result, a = .receiveResponse j → .receiveResponse j i k result ∈ u.trace →
      .replied k result ∈ (s.client i).trace)
    (hnew : ∀ args o, a = .callService args o → ∃ inv, (s.client args.client).running = some inv ∧
      inv.id = args.handle ∧ inv.phase = .inCallback) : Live { s with server := u } where
  defined := hs.defined
  inside j call hj hin := by
    rcases ServerProxy.stage_of_step h hthrows (fun _ hp => .inl hp) (fun _ _ => trivial) hj hin with
      ⟨call₀, h₀, he, hin₀⟩ | ⟨o, ha, -⟩
    · have hinside := hs.inside j call₀ h₀ hin₀
      rwa [he] at hinside
    · exact hnew _ o ha
  unthrown j call hj hthrew := by
    rcases ServerProxy.stage_of_step h hthrows (fun _ hp => .inr hp) nofun hj hthrew with
      ⟨call₀, h₀, -, hthrew₀⟩ | ⟨o, -, hpopped⟩
    · exact hs.unthrown j call₀ h₀ hthrew₀
    · rw [hthrew] at hpopped
      cases hpopped
  arrived j i k result hm := by
    rcases ServerProxy.receiveResponse_of_step h hm with hold | ha
    · exact hs.arrived j i k result hold
    · exact hreceive j i k result ha hm

variable [DecidableEq ι]

theorem Live.moveClient (hs : Live s) {i : ι} {u : ClientProxy.State Resp Data} {requests : ι → List Req}
    (hdefined : u.undefinedBehaviour = false) (htrace : ∀ e ∈ (s.client i).trace, e ∈ u.trace)
    (hinside : s.InCallService i → ∀ inv, (s.client i).running = some inv → inv.phase = .inCallback →
      ∃ inv', u.running = some inv' ∧ inv'.id = inv.id ∧ inv'.phase = .inCallback) :
    Live { s with client := Function.update s.client i u, requests := requests } where
  defined := forall_client_update (I := fun x => x.undefinedBehaviour = false) hs.defined hdefined
  inside j call hj hin := by
    obtain ⟨inv, hrun, hid, hphase⟩ := hs.inside j call hj hin
    rcases eq_or_ne call.client i with hi | hne
    · rw [hi] at hrun
      obtain ⟨inv', hrun', hid', hphase'⟩ := hinside ⟨call, List.mem_of_getElem? hj, hi, hin⟩ inv hrun hphase
      rw [hi]
      exact ⟨inv', by simpa using hrun', hid'.trans hid, hphase'⟩
    · exact ⟨inv, by simpa [hne] using hrun, hid, hphase⟩
  unthrown := hs.unthrown
  arrived j i' k result hm := by
    have hold := hs.arrived j i' k result hm
    rcases eq_or_ne i' i with rfl | hne
    · simpa using htrace _ hold
    · simpa [hne] using hold

theorem live_step {a : Action ι Req Resp Data} (hs : Live s) (hclients : ∀ i, ClientProxy.Inv c (s.client i))
    (ht : Timely s a) (h : step c s a = some t) : Live t := by
  cases a with
  | client i a =>
    obtain ⟨hallows, u, hu, rfl⟩ := step_client h
    have htrace : ∀ e ∈ (s.client i).trace, e ∈ u.trace := fun e he => ClientProxy.mem_trace_of_step hu he
    have hdefined := hs.defined i
    cases a with
    | serviceCallback request response =>
      obtain ⟨hnone, rfl⟩ := ClientProxy.step_serviceCallback hu
      refine hs.moveClient hdefined htrace fun _ inv hrun => ?_
      rw [hnone] at hrun
      cases hrun
    | callbackReturns =>
      obtain ⟨_, _, _, rfl⟩ := ClientProxy.step_callbackReturns hu
      exact hs.moveClient hdefined htrace fun hin => absurd hin hallows
    | ready =>
      obtain ⟨inv, r, hrun, hphase, -, rfl⟩ := ClientProxy.step_ready hu
      refine hs.moveClient hdefined htrace fun _ inv' hrun' hphase' => ?_
      obtain rfl := Option.some.inj (hrun.symm.trans hrun')
      rw [hphase] at hphase'
      cases hphase'
    | timeout =>
      obtain ⟨inv, hrun, hphase, -, rfl⟩ := ClientProxy.step_timeout hu
      refine hs.moveClient hdefined htrace fun _ inv' hrun' hphase' => ?_
      obtain rfl := Option.some.inj (hrun.symm.trans hrun')
      rw [hphase] at hphase'
      cases hphase'
    | receiveResponse k result => exact hallows.elim
  | callService i available o =>
    obtain ⟨inv, u, hrun, hphase, -, hu, rfl⟩ := step_callService h
    refine hs.moveServer hu nofun nofun fun args o' hargs => ?_
    obtain ⟨rfl, -⟩ := ServerProxy.Action.callService.inj hargs
    exact ⟨inv, hrun, rfl, hphase⟩
  | server a =>
    obtain ⟨hinternal, u, hu, rfl⟩ := step_server h
    cases a with
    | callService _ _ => cases hinternal
    | receiveResponse _ => cases hinternal
    | throws _ => cases hinternal
    | _ => exact hs.moveServer hu nofun nofun nofun
  | receiveResponse j =>
    obtain ⟨call, o, p, response, server, client, hcall, hstage, hserver, hclient, rfl⟩ := step_receiveResponse h
    obtain ⟨hk, rfl⟩ := ClientProxy.step_receiveResponse hclient
    obtain ⟨inv, hrun, -, -, heq⟩ := (hclients call.client).receiveResponse_eq hk (ht call hcall)
    have hmoved : Live { s with
        client := Function.update s.client call.client
          (ClientProxy.receiveResponse c (s.client call.client) call.handle (s.server.responseObject p)) } := by
      refine hs.moveClient ?_ (fun e he => ClientProxy.mem_trace_of_step hclient he) fun _ inv' hrun' hphase => ?_
      · rw [heq]
        exact hs.defined call.client
      · obtain rfl := Option.some.inj (hrun.symm.trans hrun')
        rw [heq]
        exact ⟨_, rfl, rfl, hphase⟩
    refine hmoved.moveServer hserver nofun (fun j' i k result hj' hm => ?_) nofun
    obtain ⟨call', o', p', response', hcall', hstage', rfl⟩ := ServerProxy.step_receiveResponse hserver
    obtain rfl : call = call' := Option.some.inj (hcall.symm.trans hcall')
    obtain ⟨-, rfl, -⟩ : o = o' ∧ p = p' ∧ response = response' := by
      rw [hstage] at hstage'
      exact ServerProxy.Stage.responseTranslated.inj hstage'
    rcases List.mem_cons.mp hm with he | hold
    · obtain ⟨-, rfl, rfl, rfl⟩ := ServerProxy.Event.receiveResponse.inj he
      simp [heq]
    · exact hmoved.arrived j' i k result hold

theorem live_of_run {Serves : Req → Resp → Prop} {requestData : ι → Data} {response : ι → Resp} {request : Req}
    {data : Data} {as : List (Action ι Req Resp Data)}
    (hr : run (step c) (initial requestData response request data) as = some t)
    (hc : Along (step c) (fun s a => Timely s a ∧ Honest Serves s a) (initial requestData response request data) as) :
    Faithful c Serves t ∧ Live t := by
  refine run_inv (I := fun s => Faithful c Serves s ∧ Live s) (fun s a t hs hc h => ?_)
    ⟨faithful_initial requestData response request data, live_initial requestData response request data⟩ hc hr
  exact ⟨faithful_step hs.1 hc.1 hc.2 h, live_step hs.2 hs.1.clients hc.1 h⟩

end Live

/-! ### The way to the reply -/

/-- The bridge can go on, without a step of another client, until the request has been answered and returns. -/
def Answerable [DecidableEq ι] (c : Converters Req Resp Data) (Serves : Req → Resp → Prop) (s : State ι Req Resp Data)
    (i : ι) (k : RequestId) : Prop :=
  ∃ u, Leads (step c) (fun s a => Timely s a ∧ Honest Serves s a) s u ∧ (∀ i' ≠ i, u.client i' = s.client i') ∧
    ∃ before after result request, .returned k before after ∈ (u.client i).trace ∧
      .replied k result ∈ (u.client i).trace ∧ (s.requests i)[k]? = some request ∧ Answers c Serves request after

/-- The request has been passed on to an available service, or its callback has not passed it on yet. -/
def Open (s : State ι Req Resp Data) (i : ι) (inv : ClientProxy.Invocation Resp) : Prop :=
  (∃ call ∈ s.server.calls, call.client = i ∧ call.handle = inv.id ∧ call.available = true) ∨
    (inv.phase = .inCallback ∧ ¬ s.Called i inv.id)

/-- The request `k` of the client `i` is running, and its call has `n` steps left until the response is handed over. -/
structure OnTheWay (c : Converters Req Resp Data) (Serves : Req → Resp → Prop) (start : State ι Req Resp Data) (i : ι)
    (k : RequestId) (n : ℕ) (s : State ι Req Resp Data) : Prop where
  faithful : Faithful c Serves s
  live : Live s
  running : ∃ inv, (s.client i).running = some inv ∧ inv.id = k
  others : ∀ i' ≠ i, s.client i' = start.client i'
  call : ∃ (j : ℕ) (call : ServerProxy.Call Resp Data ι RequestId), s.server.calls[j]? = some call ∧ call.client = i ∧
    call.handle = k ∧ call.stage.remaining = some n

section OnTheWay

variable {c : Converters Req Resp Data} {Serves : Req → Resp → Prop} {start s t : State ι Req Resp Data} {i : ι}
  {k n : ℕ}

theorem exists_served (hserves : ∀ q, ∃ r, Serves q r) {s : ServerProxy.State Req Resp Data ι RequestId}
    (hs : ServerProxy.Inv c s) {j : ℕ} {call : ServerProxy.Call Resp Data ι RequestId} {o : ℕ}
    (hj : s.calls[j]? = some call) (ho : call.stage = .sent o) :
    ∃ r, ∀ content ∈ contentsSent j s.trace, Serves content r := by
  have hh := hs.history j call hj
  rw [ho] at hh
  generalize hist : s.history j = h at hh
  cases hh with
  | sent prior _ =>
    obtain ⟨r, hr⟩ := hserves (c.requestToRos2 call.request prior)
    refine ⟨r, fun content hm => ?_⟩
    have hmem : .sent j content ∈ s.history j := ServerProxy.mem_history.mpr ⟨mem_contentsSent.mp hm, rfl⟩
    rw [hist] at hmem
    obtain ⟨-, rfl⟩ := ServerProxy.Event.sent.inj (List.mem_singleton.mp hmem)
    exact hr

/-- A running request whose response has been handed over has a reply, and its callback has returned or may. -/
theorem OnTheWay.replied (hs : OnTheWay c Serves start i k 0 s) {inv : ClientProxy.Invocation Resp}
    (hrun : (s.client i).running = some inv) :
    inv.id = k ∧ (∃ result, .replied k result ∈ (s.client i).trace) ∧ (∃ r, inv.responsePromise = some r) ∧
      ¬ s.InCallService i := by
  obtain ⟨inv', hrun', rfl⟩ := hs.running
  obtain rfl := Option.some.inj (hrun.symm.trans hrun')
  obtain ⟨j, call, hj, rfl, hk, hzero⟩ := hs.call
  obtain ⟨result, hm⟩ := (hs.faithful.linked.server.history j call hj).receiveResponse_of_remaining hzero
  have hreplied : .replied inv.id result ∈ (s.client call.client).trace :=
    hk ▸ hs.live.arrived j _ _ _ (ServerProxy.mem_history.mp hm).1
  refine ⟨rfl, ⟨result, hreplied⟩, ?_, ?_⟩
  · cases hp : inv.responsePromise with
    | some r => exact ⟨r, rfl⟩
    | none => exact absurd hreplied ((hs.faithful.clients call.client).unset inv hrun hp result)
  · rintro ⟨call', hcall', hclient, hin⟩
    obtain ⟨j', hj'⟩ := List.mem_iff_getElem?.mp hcall'
    obtain ⟨inv', hrun', hid, -⟩ := hs.live.inside j' call' hj' hin
    rw [hclient, hrun] at hrun'
    obtain rfl := Option.some.inj hrun'
    -- the call is the one that has been handed over
    obtain rfl := hs.faithful.linked.once j' j call' call hj' hj hclient (hid.symm.trans hk.symm)
    obtain rfl := Option.some.inj (hj.symm.trans hj')
    exact hin.remaining_ne_zero hzero

variable [DecidableEq ι]

theorem OnTheWay.moveServer (hs : OnTheWay c Serves start i k (n + 1) s) {a : ServerProxy.Action Resp Data ι RequestId}
    (ha : Internal a) {u : ServerProxy.State Req Resp Data ι RequestId} (hu : ServerProxy.step c s.server a = some u)
    (hh : Honest Serves s (.server a)) {j : ℕ} {call : ServerProxy.Call Resp Data ι RequestId}
    (hj : u.calls[j]? = some call) (hi : call.client = i) (hk : call.handle = k) (hn : call.stage.remaining = some n) :
    ∃ a t, (Timely s a ∧ Honest Serves s a) ∧ step c s a = some t ∧ OnTheWay c Serves start i k n t := by
  have hstep : step c s (.server a) = some { s with server := u } := by simp [step, ha, hu]
  have ht : Timely s (.server a) := trivial
  refine ⟨.server a, { s with server := u }, ⟨ht, hh⟩, hstep, ?_⟩
  exact ⟨faithful_step hs.faithful ht hh hstep, live_step hs.live hs.faithful.clients ht hstep, hs.running, hs.others,
    j, call, hj, hi, hk, hn⟩

theorem OnTheWay.handOver (hs : OnTheWay c Serves start i k n s) {j : ℕ}
    {call : ServerProxy.Call Resp Data ι RequestId} {o p : ℕ} {response : Resp} (hj : s.server.calls[j]? = some call)
    (hstage : call.stage = .responseTranslated o p response) (hi : call.client = i) (hk : call.handle = k) :
    ∃ a t, (Timely s a ∧ Honest Serves s a) ∧ step c s a = some t ∧ OnTheWay c Serves start i k 0 t := by
  subst hi hk
  have ht : Timely s (.receiveResponse j) := by
    intro call' hcall'
    obtain rfl := Option.some.inj (hj.symm.trans hcall')
    exact hs.running
  obtain ⟨hawaited, t, hstep⟩ := hs.faithful.linked.exists_receiveResponse hj hstage (hs.live.defined _)
  refine ⟨.receiveResponse j, t, ⟨ht, trivial⟩, hstep, ?_⟩
  have hfaithful := faithful_step hs.faithful ht trivial hstep
  have hlive := live_step hs.live hs.faithful.clients ht hstep
  obtain ⟨call', o', p', response', server, client, hj', -, hserver, hclient, rfl⟩ := step_receiveResponse hstep
  obtain rfl := Option.some.inj (hj.symm.trans hj')
  obtain ⟨-, rfl⟩ := ClientProxy.step_receiveResponse hclient
  obtain ⟨inv, -, hid, -, heq⟩ := (hs.faithful.clients call.client).receiveResponse_eq hawaited (ht call hj)
  obtain ⟨call'', o'', p'', response'', hj'', -, rfl⟩ := ServerProxy.step_receiveResponse hserver
  obtain rfl := Option.some.inj (hj.symm.trans hj'')
  refine ⟨hfaithful, hlive, ?_, fun i' hne => ?_, j, _, ServerProxy.getElem?_moveTo
    (List.getElem?_eq_some_iff.mp hj).1, rfl, rfl, rfl⟩
  · simp only [Function.update_self]
    rw [heq]
    exact ⟨_, rfl, hid⟩
  · simp only [Function.update_of_ne hne, hs.others i' hne]

/-- **A call moves on**, whatever the others do. -/
theorem onTheWay_step (hserves : ∀ q, ∃ r, Serves q r) (hs : OnTheWay c Serves start i k (n + 1) s) :
    ∃ a t, (Timely s a ∧ Honest Serves s a) ∧ step c s a = some t ∧ OnTheWay c Serves start i k n t := by
  obtain ⟨j, call, hj, hi, hk, hn⟩ := hs.call
  have hlt := (List.getElem?_eq_some_iff.mp hj).1
  cases hstage : call.stage with
  | refused => rw [hstage] at hn; cases hn
  | threw => rw [hstage] at hn; cases hn
  | delivering o p => rw [hstage] at hn; cases hn
  | done => rw [hstage] at hn; cases hn
  | popped o =>
    rw [hstage] at hn
    cases hn
    obtain ⟨u, hu⟩ : ∃ u, ServerProxy.step c s.server (.requestToRos2 j) = some u := by
      simp [ServerProxy.step, hj, hstage]
    obtain ⟨call', o', hj', -, rfl⟩ := ServerProxy.step_requestToRos2 hu
    obtain rfl := Option.some.inj (hj.symm.trans hj')
    exact hs.moveServer rfl hu trivial (ServerProxy.getElem?_moveTo hlt) hi hk rfl
  | translated o =>
    rw [hstage] at hn
    cases hn
    obtain ⟨u, hu⟩ : ∃ u, ServerProxy.step c s.server (.asyncSendRequest j) = some u := by
      simp [ServerProxy.step, hj, hstage]
    obtain ⟨call', o', hj', -, rfl⟩ := ServerProxy.step_asyncSendRequest hu
    obtain rfl := Option.some.inj (hj.symm.trans hj')
    exact hs.moveServer rfl hu trivial (ServerProxy.getElem?_moveTo hlt) hi hk rfl
  | sent o =>
    rw [hstage] at hn
    cases hn
    obtain ⟨r, hr⟩ := exists_served hserves hs.faithful.linked.server hj hstage
    obtain ⟨p, pool, hpop⟩ := ServerProxy.exists_pop s.server.responsePool
    obtain ⟨u, hu⟩ : ∃ u, ServerProxy.step c s.server (.waitForResponse j r p) = some u := by
      simp [ServerProxy.step, hj, hstage, hpop]
    obtain ⟨call', o', pool', hj', -, -, rfl⟩ := ServerProxy.step_waitForResponse hu
    obtain rfl := Option.some.inj (hj.symm.trans hj')
    exact hs.moveServer rfl hu hr (ServerProxy.getElem?_moveTo hlt) hi hk rfl
  | answered o p response =>
    rw [hstage] at hn
    cases hn
    obtain ⟨u, hu⟩ : ∃ u, ServerProxy.step c s.server (.responseToXtype j) = some u := by
      simp [ServerProxy.step, hj, hstage]
    obtain ⟨call', o', p', response', hj', -, rfl⟩ := ServerProxy.step_responseToXtype hu
    obtain rfl := Option.some.inj (hj.symm.trans hj')
    exact hs.moveServer rfl hu trivial (ServerProxy.getElem?_moveTo hlt) hi hk rfl
  | responseTranslated o p response =>
    rw [hstage] at hn
    cases hn
    exact hs.handOver hj hstage hi hk

theorem OnTheWay.moveClient (hs : OnTheWay c Serves start i k 0 s) {a : ClientProxy.Action Req Resp Data}
    (hallows : s.Allows i a) {u : ClientProxy.State Resp Data} (hu : ClientProxy.step c (s.client i) a = some u) :
    ∃ t, Leads (step c) (fun s a => Timely s a ∧ Honest Serves s a) s t ∧ Faithful c Serves t ∧ Live t ∧
      (∀ i' ≠ i, t.client i' = start.client i') ∧ t.client i = u ∧ t.server = s.server := by
  have hstep : step c s (.client i a) = some { s with
      client := Function.update s.client i u
      requests := Function.update s.requests i (s.requests i ++ received a) } := by
    simp [step, hallows, hu]
  have ht : Timely s (.client i a) := trivial
  have hh : Honest Serves s (.client i a) := trivial
  refine ⟨_, .head ⟨ht, hh⟩ hstep (.refl _), faithful_step hs.faithful ht hh hstep,
    live_step hs.live hs.faithful.clients ht hstep, fun i' hne => ?_, Function.update_self .., rfl⟩
  simp only [Function.update_of_ne hne, hs.others i' hne]

theorem OnTheWay.leaveCallback (hs : OnTheWay c Serves start i k 0 s) :
    ∃ t inv, Leads (step c) (fun s a => Timely s a ∧ Honest Serves s a) s t ∧ OnTheWay c Serves start i k 0 t ∧
      (t.client i).running = some inv ∧ inv.phase = .inWait := by
  obtain ⟨inv, hrun, hid⟩ := hs.running
  cases hphase : inv.phase with
  | inWait => exact ⟨s, inv, .refl s, hs, hrun, hphase⟩
  | inCallback =>
    obtain ⟨-, -, -, hout⟩ := hs.replied hrun
    obtain ⟨u, hu⟩ : ∃ u, ClientProxy.step c (s.client i) .callbackReturns = some u := by
      simp [ClientProxy.step, hs.live.defined i, hrun, hphase]
    have hallows : s.Allows i (.callbackReturns : ClientProxy.Action Req Resp Data) := hout
    obtain ⟨t, hleads, hfaithful, hlive, hothers, hclient, hserver⟩ := hs.moveClient hallows hu
    obtain ⟨inv', hrun', -, rfl⟩ := ClientProxy.step_callbackReturns hu
    obtain rfl := Option.some.inj (hrun.symm.trans hrun')
    have hwait : (t.client i).running = some { inv with phase := .inWait } := by rw [hclient]
    exact ⟨t, { inv with phase := .inWait }, hleads,
      ⟨hfaithful, hlive, ⟨_, hwait, hid⟩, hothers, by rw [hserver]; exact hs.call⟩, hwait, rfl⟩

/-- The request returns with the answer to it. -/
theorem OnTheWay.answerable (hs : OnTheWay c Serves start i k 0 s)
    (hl : Leads (step c) (fun s a => Timely s a ∧ Honest Serves s a) start s) (hk : k < (start.requests i).length) :
    Answerable c Serves start i k := by
  obtain ⟨t, inv, hwait, ht, hrun, hphase⟩ := hs.leaveCallback
  obtain ⟨rfl, ⟨result, hreplied⟩, ⟨r, hp⟩, -⟩ := ht.replied hrun
  obtain ⟨u, hu⟩ : ∃ u, ClientProxy.step c (t.client i) .ready = some u := by
    simp [ClientProxy.step, ht.live.defined i, hrun, hphase, hp]
  have hallows : t.Allows i (.ready : ClientProxy.Action Req Resp Data) := trivial
  obtain ⟨t', hready, hfaithful, -, hothers, hclient, -⟩ := ht.moveClient hallows hu
  obtain ⟨inv', r', hrun', -, -, hreturn⟩ := ClientProxy.step_ready hu
  obtain rfl := Option.some.inj (hrun.symm.trans hrun')
  have hleads := (hl.trans hwait).trans hready
  have hreturned : .returned inv.id inv.response r' ∈ (t'.client i).trace := by
    rw [hclient, hreturn]
    exact List.mem_cons_self ..
  have hreplied' : .replied inv.id result ∈ (t'.client i).trace := by
    rw [hclient]
    exact ClientProxy.mem_trace_of_step hu hreplied
  refine ⟨t', hleads, hothers, _, _, result, _, hreturned, hreplied', List.getElem?_eq_getElem hk, ?_⟩
  obtain ⟨request, hrequest, hanswers | ⟨-, hnone⟩⟩ := hfaithful.outcome hreturned
  · obtain ⟨as, -, hrun''⟩ := hleads
    rw [requests_of_run hrun'' i, List.getElem?_append_left hk, List.getElem?_eq_getElem hk] at hrequest
    rwa [Option.some.inj hrequest]
  · exact absurd hreplied' (hnone result)

theorem onTheWay_of_open (hs : Faithful c Serves s) (hl : Live s) {inv : ClientProxy.Invocation Resp}
    (hrun : (s.client i).running = some inv) (hopen : Open s i inv) :
    ∃ n t, Leads (step c) (fun s a => Timely s a ∧ Honest Serves s a) s t ∧ OnTheWay c Serves s i inv.id n t := by
  rcases hopen with ⟨call, hcall, hi, hk, hav⟩ | ⟨hphase, hnot⟩
  · obtain ⟨j, hj⟩ := List.mem_iff_getElem?.mp hcall
    obtain ⟨n, hn⟩ := (hs.linked.server.history j call hj).remaining_of_available hav (hl.unthrown j call hj)
    exact ⟨n, s, .refl s, hs, hl, ⟨inv, hrun, rfl⟩, fun _ _ => rfl, j, call, hj, hi, hk, hn⟩
  · obtain ⟨o, pool, hpop⟩ := ServerProxy.exists_pop s.server.requestPool
    obtain ⟨u, hu⟩ : ∃ u, ServerProxy.step c s.server
        (.callService ⟨(s.client i).requestData, i, inv.id, true⟩ o) = some u := by
      simp [ServerProxy.step, ServerProxy.callService, hpop]
    have hstep : step c s (.callService i true o) = some { s with server := u } := by
      simp [step, hrun, hphase, hnot, hu]
    have ht : Timely s (.callService i true o) := trivial
    have hh : Honest Serves s (.callService i true o) := trivial
    refine ⟨5, _, .head ⟨ht, hh⟩ hstep (.refl _), faithful_step hs ht hh hstep, live_step hl hs.clients ht hstep,
      ⟨inv, hrun, rfl⟩, fun _ _ => rfl, s.server.calls.length, ⟨⟨(s.client i).requestData, i, inv.id, true⟩, .popped o⟩,
      ?_, rfl, rfl, rfl⟩
    rcases ServerProxy.step_callService hu with ⟨hunavailable, -⟩ | ⟨-, pool', -, rfl⟩
    · cases hunavailable
    · simp

end OnTheWay

/-! ### What can no longer be answered -/

/-- The request `k` of the client `i` was received, is not called for, and its callback has returned. -/
structure Missed (i : ι) (k : RequestId) (s : State ι Req Resp Data) : Prop where
  received : k < (s.client i).started
  uncalled : ¬ s.Called i k
  waits : ∀ inv, (s.client i).running = some inv → inv.id = k → inv.phase = .inWait

section Missed

variable {c : Converters Req Resp Data} {s t : State ι Req Resp Data} {i : ι} {k : RequestId}

theorem uncalled_of_step (hs : ¬ s.Called i k) {a : ServerProxy.Action Resp Data ι RequestId}
    {u : ServerProxy.State Req Resp Data ι RequestId} (h : ServerProxy.step c s.server a = some u)
    (hnew : ∀ args o, a = .callService args o → ¬ (args.client = i ∧ args.handle = k)) :
    ¬ State.Called { s with server := u } i k := by
  rintro ⟨call, hcall, hi, hk⟩
  obtain ⟨j, hj⟩ := List.mem_iff_getElem?.mp hcall
  rcases ServerProxy.arguments_of_step h hj with ⟨call₀, h₀, he⟩ | ⟨-, o, ha⟩
  · exact hs ⟨call₀, List.mem_of_getElem? h₀, by rw [he, hi], by rw [he, hk]⟩
  · exact hnew _ o ha ⟨hi, hk⟩

theorem arguments_prefix_of_step [DecidableEq ι] {a : Action ι Req Resp Data} (h : step c s a = some t) :
    s.server.calls.map ServerProxy.Call.toArguments <+: t.server.calls.map ServerProxy.Call.toArguments := by
  cases a with
  | client i a =>
    obtain ⟨-, u, -, rfl⟩ := step_client h
    exact List.prefix_refl _
  | callService i available o =>
    obtain ⟨inv, u, -, -, -, hu, rfl⟩ := step_callService h
    exact ⟨_, (ServerProxy.arguments_step hu).symm⟩
  | server a =>
    obtain ⟨-, u, hu, rfl⟩ := step_server h
    exact ⟨_, (ServerProxy.arguments_step hu).symm⟩
  | receiveResponse j =>
    obtain ⟨_, _, _, _, _, _, -, -, hserver, -, rfl⟩ := step_receiveResponse h
    exact ⟨_, (ServerProxy.arguments_step hserver).symm⟩

theorem arguments_prefix_of_leads [DecidableEq ι] {C : State ι Req Resp Data → Action ι Req Resp Data → Prop}
    (h : Leads (step c) C s t) :
    s.server.calls.map ServerProxy.Call.toArguments <+: t.server.calls.map ServerProxy.Call.toArguments :=
  h.inv (I := fun x => s.server.calls.map _ <+: x.server.calls.map ServerProxy.Call.toArguments)
    (fun _ _ _ hs _ h => hs.trans (arguments_prefix_of_step h)) (List.prefix_refl _)

theorem missed_step [DecidableEq ι] {a : Action ι Req Resp Data} (hs : Missed i k s) (h : step c s a = some t) :
    Missed i k t := by
  cases a with
  | client i' a =>
    obtain ⟨hallows, u, hu, rfl⟩ := step_client h
    rcases eq_or_ne i i' with rfl | hne
    · have hreceived := hs.received
      refine ⟨?_, hs.uncalled, fun inv hrun hid => ?_⟩
      · show k < (Function.update s.client i u i).started
        rw [Function.update_self]
        cases a with
        | serviceCallback request response =>
          obtain ⟨-, rfl⟩ := ClientProxy.step_serviceCallback hu
          exact Nat.lt_succ_of_lt hreceived
        | callbackReturns => obtain ⟨_, _, _, rfl⟩ := ClientProxy.step_callbackReturns hu; exact hreceived
        | ready => obtain ⟨_, _, _, _, _, rfl⟩ := ClientProxy.step_ready hu; exact hreceived
        | timeout => obtain ⟨_, _, _, _, rfl⟩ := ClientProxy.step_timeout hu; exact hreceived
        | receiveResponse k result => exact hallows.elim
      · simp only [Function.update_self] at hrun
        cases a with
        | serviceCallback request response =>
          obtain ⟨-, rfl⟩ := ClientProxy.step_serviceCallback hu
          obtain rfl : _ = inv := by simpa [ClientProxy.serviceCallback] using hrun
          exact absurd hid (Nat.ne_of_gt hreceived)
        | callbackReturns =>
          obtain ⟨_, _, _, rfl⟩ := ClientProxy.step_callbackReturns hu
          obtain rfl := Option.some.inj hrun
          rfl
        | ready => obtain ⟨_, _, _, _, _, rfl⟩ := ClientProxy.step_ready hu; cases hrun
        | timeout => obtain ⟨_, _, _, _, rfl⟩ := ClientProxy.step_timeout hu; cases hrun
        | receiveResponse k result => exact hallows.elim
    · exact ⟨by simpa [hne] using hs.received, hs.uncalled, by simpa [hne] using hs.waits⟩
  | callService i' available o =>
    obtain ⟨inv, u, hrun, hphase, -, hu, rfl⟩ := step_callService h
    refine ⟨hs.received, uncalled_of_step hs.uncalled hu fun args o' hargs => ?_, hs.waits⟩
    obtain ⟨rfl, -⟩ := ServerProxy.Action.callService.inj hargs
    rintro ⟨rfl, rfl⟩
    rw [hs.waits inv hrun rfl] at hphase
    cases hphase
  | server a =>
    obtain ⟨hinternal, u, hu, rfl⟩ := step_server h
    refine ⟨hs.received, uncalled_of_step hs.uncalled hu fun args o hargs => ?_, hs.waits⟩
    rw [hargs] at hinternal
    cases hinternal
  | receiveResponse j =>
    obtain ⟨call, o, p, response, server, client, hcall, -, hserver, hclient, rfl⟩ := step_receiveResponse h
    have huncalled := uncalled_of_step hs.uncalled hserver fun args o hargs => by cases hargs
    obtain ⟨-, rfl⟩ := ClientProxy.step_receiveResponse hclient
    obtain ⟨hstarted, -, -, hrunning, -⟩ :=
      ClientProxy.receiveResponse_spec c (s.client call.client) call.handle (s.server.responseObject p)
    refine ⟨?_, huncalled, fun inv hrun hid => ?_⟩
    · rcases eq_or_ne i call.client with rfl | hne
      · simpa [hstarted] using hs.received
      · simpa [hne] using hs.received
    · rcases eq_or_ne i call.client with rfl | hne
      · obtain ⟨inv₀, hrun₀, hid₀, hphase⟩ := hrunning inv (by simpa using hrun)
        exact hphase ▸ hs.waits inv₀ hrun₀ (hid₀.trans hid)
      · exact hs.waits inv (by simpa [hne] using hrun) hid

end Missed

/-- **A request that waits can still be answered** exactly when it has been passed on to an available service or can
still be passed on, in every state of every run with timely replies of a server that answers everything: whatever other
requests and calls are under way, the bridge can go on without a step of another client until the request returns with
the answer to it. -/
theorem answerable_iff [DecidableEq ι] (c : Converters Req Resp Data) (Serves : Req → Resp → Prop)
    (hserves : ∀ q, ∃ r, Serves q r) (requestData : ι → Data) (response : ι → Resp) (request : Req) (data : Data)
    (as : List (Action ι Req Resp Data)) (t : State ι Req Resp Data)
    (hr : run (step c) (initial requestData response request data) as = some t)
    (hc : Along (step c) (fun s a => Timely s a ∧ Honest Serves s a) (initial requestData response request data) as)
    (i : ι) (inv : ClientProxy.Invocation Resp) (hrun : (t.client i).running = some inv) :
    Answerable c Serves t i inv.id ↔ Open t i inv := by
  obtain ⟨hs, hl⟩ := live_of_run hr hc
  have hreceived : inv.id < (t.client i).started := ((hs.linked.clients i).running inv hrun).1
  constructor
  · rintro ⟨u, hleads, -, before, after, result, -, -, hreplied, -, -⟩
    have hlinked : Linked c u := hleads.inv (fun _ _ _ hs _ h => linked_step hs h) hs.linked
    obtain ⟨j, call, -, -, hcall, hav, hi, hk, -, -⟩ := hlinked.answer_of_replied hreplied
    by_cases hcalled : t.Called i inv.id
    · left
      obtain ⟨call₀, hmem, hi₀, hk₀⟩ := hcalled
      obtain ⟨j₀, hj₀⟩ := List.mem_iff_getElem?.mp hmem
      have hprefix : t.server.calls.map ServerProxy.Call.toArguments <+:
          u.server.calls.map ServerProxy.Call.toArguments :=
        arguments_prefix_of_leads hleads
      have hlt : j₀ < (t.server.calls.map ServerProxy.Call.toArguments).length := by
        simpa using (List.getElem?_eq_some_iff.mp hj₀).1
      have hkept : (u.server.calls.map ServerProxy.Call.toArguments)[j₀]? = some call₀.toArguments := by
        obtain ⟨rest, hrest⟩ := hprefix
        rw [← hrest, List.getElem?_append_left hlt, List.getElem?_map, hj₀]
        rfl
      rw [List.getElem?_map] at hkept
      obtain ⟨call₁, hj₁, he⟩ := Option.map_eq_some_iff.mp hkept
      obtain rfl := hlinked.once j j₀ call call₁ hcall hj₁ (by rw [he, hi, hi₀]) (by rw [he, hk, hk₀])
      obtain rfl := Option.some.inj (hcall.symm.trans hj₁)
      exact ⟨call₀, hmem, hi₀, hk₀, he ▸ hav⟩
    · right
      cases hphase : inv.phase with
      | inCallback => exact ⟨rfl, hcalled⟩
      | inWait =>
        have hmissed : Missed i inv.id t := by
          refine ⟨hreceived, hcalled, fun inv' hrun' _ => ?_⟩
          obtain rfl := Option.some.inj (hrun.symm.trans hrun')
          exact hphase
        have hstill : Missed i inv.id u := hleads.inv (fun _ _ _ hs _ h => missed_step hs h) hmissed
        exact absurd ⟨call, List.mem_of_getElem? hcall, hi, hk⟩ hstill.uncalled
  · intro hopen
    obtain ⟨n, s, hl₁, hs₁⟩ := onTheWay_of_open hs hl hrun hopen
    obtain ⟨u, hl₂, hs₂⟩ := leads_of_rank (R := fun n x => OnTheWay c Serves t i inv.id n x)
      (fun n x hx => onTheWay_step hserves hx) hs₁
    exact hs₂.answerable (hl₁.trans hl₂) (hs.linked.requests i ▸ hreceived)

theorem answerable_iff_crossing : ∃ t inv,
    run (step oneField) (initial (fun _ => 0) (fun _ => 0) 0 0) (crossingRequests.take 3) = some t ∧
      (t.client false).running = some inv ∧
        (Answerable oneField (fun q r => r = 10 * q) t false inv.id ↔ Open t false inv) :=
  ⟨_, _, rfl, rfl, answerable_iff oneField (fun q r => r = 10 * q) (fun _ => ⟨_, rfl⟩) (fun _ => 0) (fun _ => 0) 0 0
    (crossingRequests.take 3) _ rfl (by decide) false _ rfl⟩

end Bridge

end Ros2Sh.Service
