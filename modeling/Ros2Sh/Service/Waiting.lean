import Mathlib.Algebra.GroupWithZero.Nat
import Ros2Sh.Lib.Interleave
import Ros2Sh.Service.Progress

/-!
# What moves the requests of a bridge on

A bridge has so much work left: the steps of its calls until both objects are recycled, and the steps of its clients
until their callbacks return.  The steps that are `Useful` do some of it (`work_of_useful`), and close no request to its
answer (`open_of_useful`).  One of them is enabled where the callback for a response is running
(`exists_useful_of_inCallback`), where a request has its reply (`exists_useful_of_isSet`) and where one is open to its
answer (`exists_useful_of_open`); this last one may be to enter the callback for a response.

No reply is late while no request has been given up (`timely_of_kept`).
-/

namespace Ros2Sh.Service

open Ros2Sh.Lib
open ClientProxy (RequestId)

variable {ι Req Resp Data : Type}

/-! ### What a step does to the invocation that is running -/

namespace ClientProxy

variable {c : Converters Req Resp Data} {s t : State Resp Data} {a : Action Req Resp Data} {inv inv' : Invocation Resp}

/-- A reply leaves the invocation that is running, and can only set its promise. -/
theorem running_of_receiveResponse {k : RequestId} {result : Data}
    (hrun : (receiveResponse c s k result).running = some inv') :
    ∃ inv, s.running = some inv ∧ inv.id = inv'.id ∧ inv'.phase = inv.phase ∧
      (inv'.responsePromise = none → inv.responsePromise = none) := by
  obtain ⟨-, -, -, hrunning, -⟩ := receiveResponse_spec c s k result
  obtain ⟨inv, hs, hid, hphase⟩ := hrunning inv' hrun
  refine ⟨inv, hs, hid, hphase.symm, fun hnone => ?_⟩
  unfold receiveResponse at hrun
  cases hd : s.designated with
  | none =>
    rw [hd] at hrun
    obtain rfl := Option.some.inj (hs.symm.trans hrun)
    exact hnone
  | some inv₀ =>
    cases hp : inv₀.responsePromise with
    | none =>
      simp only [hd, hp] at hrun
      obtain rfl := Option.some.inj hrun
      cases hnone
    | some r =>
      simp only [hd, hp] at hrun
      obtain rfl := Option.some.inj (hs.symm.trans hrun)
      exact hnone

theorem receiveResponse_running (k : RequestId) (result : Data) :
    (receiveResponse c s k result).running.map (fun inv => (inv.id, inv.phase)) =
      s.running.map fun inv => (inv.id, inv.phase) := by
  unfold receiveResponse
  cases hd : s.designated with
  | none => rfl
  | some inv =>
    have hrun : s.running = some inv := by
      unfold State.designated at hd
      split at hd
      · rename_i hs
        rw [hs]
        exact (Option.ite_none_right_eq_some.mp hd).2
      · cases hd
    cases hp : inv.responsePromise <;> simp [hp, hrun]

theorem running_of_step (h : step c s a = some t) (hrun : t.running = some inv') :
    (∃ request response, a = .serviceCallback request response) ∨ ∃ inv, s.running = some inv ∧ inv.id = inv'.id ∧
      (inv'.phase = inv.phase ∨ (a = .callbackReturns ∧ inv.phase = .inCallback ∧ inv'.phase = .inWait)) ∧
      (inv'.responsePromise = none → inv.responsePromise = none) := by
  cases a with
  | serviceCallback request response => exact .inl ⟨request, response, rfl⟩
  | callbackReturns =>
    obtain ⟨inv, hs, hphase, rfl⟩ := step_callbackReturns h
    obtain rfl := Option.some.inj hrun
    exact .inr ⟨inv, hs, rfl, .inr ⟨rfl, hphase, rfl⟩, id⟩
  | ready =>
    obtain ⟨_, _, _, _, _, rfl⟩ := step_ready h
    cases hrun
  | timeout =>
    obtain ⟨_, _, _, _, rfl⟩ := step_timeout h
    cases hrun
  | receiveResponse k result =>
    obtain ⟨-, rfl⟩ := step_receiveResponse h
    obtain ⟨inv, hs, hid, hphase, hpromise⟩ := running_of_receiveResponse hrun
    exact .inr ⟨inv, hs, hid, .inl hphase, hpromise⟩

/-- A request that waits goes on waiting, if neither a timeout nor a reply comes. -/
theorem waits_of_step (h : step c s a = some t) (hrun : s.running = some inv) (hp : inv.responsePromise = none)
    (htimeout : a ≠ .timeout) (hreply : ∀ k result, a ≠ .receiveResponse k result) :
    ∃ inv', t.running = some inv' ∧ inv'.id = inv.id ∧ inv'.responsePromise = none := by
  cases a with
  | serviceCallback request response =>
    obtain ⟨hnone, -⟩ := step_serviceCallback h
    rw [hrun] at hnone
    cases hnone
  | callbackReturns =>
    obtain ⟨inv₀, hs, -, rfl⟩ := step_callbackReturns h
    obtain rfl := Option.some.inj (hrun.symm.trans hs)
    exact ⟨_, rfl, rfl, hp⟩
  | ready =>
    obtain ⟨inv₀, r, hs, -, hset, -⟩ := step_ready h
    obtain rfl := Option.some.inj (hrun.symm.trans hs)
    rw [hp] at hset
    cases hset
  | timeout => exact absurd rfl htimeout
  | receiveResponse k result => exact absurd rfl (hreply k result)

/-- No request has been given up: it is running, or its `service_callback` returned after a reply for it. -/
def Kept (s : State Resp Data) : Prop :=
  ∀ k < s.started, (∃ inv, s.running = some inv ∧ inv.id = k) ∨
    ∃ before after result, .returned k before after ∈ s.trace ∧ .replied k result ∈ s.trace

theorem kept_initial (d : Data) (r : Resp) : Kept (initial d r) := fun k hk => absurd hk (Nat.not_lt_zero k)

/-- Only a timeout gives a request up. -/
theorem kept_step (hs : Kept s) (hinv : Inv c s) (ha : a ≠ .timeout) (h : step c s a = some t) : Kept t := by
  have hreturned : ∀ k, (∃ before after result, .returned k before after ∈ s.trace ∧ .replied k result ∈ s.trace) →
      ∃ before after result, .returned k before after ∈ t.trace ∧ .replied k result ∈ t.trace := by
    rintro k ⟨before, after, result, hr, hm⟩
    exact ⟨before, after, result, mem_trace_of_step h hr, mem_trace_of_step h hm⟩
  intro k hk
  cases a with
  | serviceCallback request response =>
    obtain ⟨hnone, rfl⟩ := step_serviceCallback h
    rcases Nat.lt_succ_iff_lt_or_eq.mp hk with hlt | rfl
    · rcases hs k hlt with ⟨inv, hrun, -⟩ | hdone
      · rw [hnone] at hrun
        cases hrun
      · exact .inr (hreturned k hdone)
    · exact .inl ⟨_, rfl, rfl⟩
  | callbackReturns =>
    obtain ⟨inv, hrun, -, rfl⟩ := step_callbackReturns h
    refine (hs k hk).imp ?_ (hreturned k)
    rintro ⟨inv', hrun', rfl⟩
    obtain rfl := Option.some.inj (hrun.symm.trans hrun')
    exact ⟨_, rfl, rfl⟩
  | ready =>
    obtain ⟨inv, r, hrun, -, hp, rfl⟩ := step_ready h
    rcases hs k hk with ⟨inv', hrun', rfl⟩ | hdone
    · obtain rfl := Option.some.inj (hrun.symm.trans hrun')
      obtain ⟨-, result, -, hm, -⟩ := hinv.isSet inv r hrun hp
      exact .inr ⟨_, _, result, List.mem_cons_self .., List.mem_cons_of_mem _ hm⟩
    · exact .inr (hreturned k hdone)
  | timeout => exact absurd rfl ha
  | receiveResponse k' result =>
    obtain ⟨-, rfl⟩ := step_receiveResponse h
    rw [(receiveResponse_spec c s k' result).1] at hk
    refine (hs k hk).imp ?_ (hreturned k)
    rintro ⟨inv, hrun, rfl⟩
    have hid := receiveResponse_running_id (c := c) hinv.holder k' result
    rw [hrun, Option.map_some] at hid
    exact Option.map_eq_some_iff.mp hid

end ClientProxy

/-! ### The work left for the calls -/

namespace ServerProxy

variable {Client Handle : Type}

/-- The steps of a call until its objects are recycled. -/
def Stage.work : Stage Resp → ℕ
  | .popped _ => 6
  | .translated _ => 5
  | .sent _ => 4
  | .answered _ _ _ => 3
  | .responseTranslated _ _ _ => 2
  | .delivering _ _ => 1
  | .refused | .done | .threw => 0

/-- The work left for all calls. -/
def State.work (s : State Req Resp Data Client Handle) : ℕ := (s.calls.map fun call => call.stage.work).sum

section Steps

variable {c : Converters Req Resp Data} {s t : State Req Resp Data Client Handle}
  {a : Action Resp Data Client Handle} {i : ℕ} {call : Call Resp Data Client Handle} {stage : Stage Resp}
  {args : Arguments Data Client Handle} {h : List (Event Req Resp Data Client Handle)}

theorem History.remaining_of_receiveResponse (hh : History c i args stage h) {client : Client} {handle : Handle}
    {data : Data} (hm : .receiveResponse i client handle data ∈ h) : stage.remaining = some 0 ∨ stage = .threw := by
  induction hh with
  | refused _ => cases hm
  | popped _ => cases hm
  | translated _ _ => cases hm
  | sent prior _ _ =>
    have heq := List.mem_singleton.mp hm
    cases heq
  | answered _ ih => rcases ih (List.mem_of_ne_of_mem (by simp) hm) with hzero | hthrew <;> [cases hzero; cases hthrew]
  | responseTranslated _ ih => rcases ih hm with hzero | hthrew <;> [cases hzero; cases hthrew]
  | delivering _ _ _ => exact .inl rfl
  | done _ _ => exact .inl rfl
  | threw _ _ => exact .inr rfl

theorem work_moveTo (stage : Stage Resp) (hi : s.calls[i]? = some call) :
    (s.moveTo i call stage).work + call.stage.work = s.work + stage.work := by
  have hset : ∀ (l : List (Call Resp Data Client Handle)) (n : ℕ), l[n]? = some call →
      ((l.set n { call with stage := stage }).map fun x => x.stage.work).sum + call.stage.work =
        (l.map fun x => x.stage.work).sum + stage.work := by
    intro l
    induction l with
    | nil => intro n hn; cases hn
    | cons x l ih =>
      intro n hn
      cases n with
      | zero =>
        obtain rfl := Option.some.inj hn
        simp only [List.set_cons_zero, List.map_cons, List.sum_cons]
        omega
      | succ n =>
        have hrest := ih n hn
        simp only [List.set_cons_succ, List.map_cons, List.sum_cons]
        omega
  exact hset s.calls i hi

theorem work_callService {o : ℕ} (h : step c s (.callService args o) = some t) (ha : args.available = true) :
    t.work = s.work + 6 := by
  rcases step_callService h with ⟨hunavailable, -⟩ | ⟨-, pool, -, rfl⟩
  · rw [ha] at hunavailable
    cases hunavailable
  · simp [State.work, Stage.work]

theorem work_of_step (h : step c s a = some t) (hcall : ∀ args o, a ≠ .callService args o)
    (hthrows : ∀ i, a ≠ .throws i) : t.work + 1 = s.work := by
  have hmove : ∀ {u : State Req Resp Data Client Handle} {i call stage}, u.calls = (s.moveTo i call stage).calls →
      s.calls[i]? = some call → call.stage.work = stage.work + 1 → u.work + 1 = s.work := by
    intro u i call stage hu hi hwork
    have hmoved := work_moveTo stage hi
    have heq : u.work = (s.moveTo i call stage).work := by simp only [State.work, hu]
    omega
  cases a with
  | callService args o => exact absurd rfl (hcall args o)
  | requestToRos2 i =>
    obtain ⟨call, o, hi, ho, rfl⟩ := step_requestToRos2 h
    exact hmove rfl hi (by rw [ho]; rfl)
  | asyncSendRequest i =>
    obtain ⟨call, o, hi, ho, rfl⟩ := step_asyncSendRequest h
    exact hmove rfl hi (by rw [ho]; rfl)
  | waitForResponse i response p =>
    obtain ⟨call, o, pool, hi, ho, -, rfl⟩ := step_waitForResponse h
    exact hmove rfl hi (by rw [ho]; rfl)
  | responseToXtype i =>
    obtain ⟨call, o, p, response, hi, ho, rfl⟩ := step_responseToXtype h
    exact hmove rfl hi (by rw [ho]; rfl)
  | receiveResponse i =>
    obtain ⟨call, o, p, response, hi, ho, rfl⟩ := step_receiveResponse h
    exact hmove rfl hi (by rw [ho]; rfl)
  | recycle i =>
    obtain ⟨call, o, p, hi, ho, rfl⟩ := step_recycle h
    exact hmove rfl hi (by rw [ho]; rfl)
  | throws i => exact absurd rfl (hthrows i)

end Steps

end ServerProxy

namespace Bridge

/-- The work left for the client: until its callback has made the call, until it returns, and until the request does. -/
def State.clientWork [DecidableEq ι] (s : State ι Req Resp Data) (i : ι) : ℕ :=
  match (s.client i).running with
  | none => 0
  | some inv =>
    match inv.phase with
    | .inWait => 1
    | .inCallback => if s.Called i inv.id then 2 else 9

/-- The work left for the calls and the clients. -/
def State.work [Fintype ι] [DecidableEq ι] (s : State ι Req Resp Data) : ℕ := s.server.work + ∑ i, s.clientWork i

/-- The steps that do some of the work: every step of the server proxy, the call, the handover of a response, the
return of a callback that has made its call, and the return of a request that is answered. -/
def Useful (s : State ι Req Resp Data) : Action ι Req Resp Data → Prop
  | .client i .callbackReturns => ∀ inv ∈ (s.client i).running, s.Called i inv.id
  | .client _ .ready | .server _ | .receiveResponse _ => True
  | .client _ (.serviceCallback _ _) | .client _ .timeout | .client _ (.receiveResponse _ _) => False
  | .callService _ available _ => available = true

/-- The step enters a callback of an executor. -/
def Enters : Action ι Req Resp Data → Prop
  | .client _ (.serviceCallback _ _) | .server (.waitForResponse _ _ _) => True
  | .client _ .callbackReturns | .client _ .ready | .client _ .timeout | .client _ (.receiveResponse _ _)
  | .server (.callService _ _) | .server (.requestToRos2 _) | .server (.asyncSendRequest _)
  | .server (.responseToXtype _) | .server (.receiveResponse _) | .server (.recycle _) | .server (.throws _)
  | .callService _ _ _ | .receiveResponse _ => False

/-! ### What a step does to the requests that wait -/

section Steps

variable [DecidableEq ι] {c : Converters Req Resp Data} {s t : State ι Req Resp Data} {a : Action ι Req Resp Data}
  {i : ι} {inv inv' : ClientProxy.Invocation Resp}

theorem call_of_step (h : step c s a = some t) {call : ServerProxy.Call Resp Data ι RequestId}
    (hcall : call ∈ t.server.calls) : (∃ call₀ ∈ s.server.calls, call₀.toArguments = call.toArguments) ∨
      ∃ inv o, (s.client call.client).running = some inv ∧ inv.phase = .inCallback ∧ ¬ s.Called call.client inv.id ∧
        inv.id = call.handle ∧ a = .callService call.client call.available o := by
  obtain ⟨j, hj⟩ := List.mem_iff_getElem?.mp hcall
  have hserver : ∀ {b : ServerProxy.Action Resp Data ι RequestId} {u : ServerProxy.State Req Resp Data ι RequestId},
      ServerProxy.step c s.server b = some u → u.calls[j]? = some call →
        (∃ call₀ ∈ s.server.calls, call₀.toArguments = call.toArguments) ∨
          ∃ o, b = .callService call.toArguments o := by
    intro b u hu hj
    rcases ServerProxy.arguments_of_step hu hj with ⟨call₀, h₀, he⟩ | ⟨-, o, hb⟩
    · exact .inl ⟨call₀, List.mem_of_getElem? h₀, he⟩
    · exact .inr ⟨o, hb⟩
  cases a with
  | client i a =>
    obtain ⟨-, u, -, rfl⟩ := step_client h
    exact .inl ⟨call, hcall, rfl⟩
  | callService i available o =>
    obtain ⟨inv, u, hrun, hphase, hnot, hu, rfl⟩ := step_callService h
    refine (hserver hu hj).imp_right ?_
    rintro ⟨o', hargs⟩
    obtain ⟨hargs, -⟩ := ServerProxy.Action.callService.inj hargs
    obtain ⟨⟨request, client, handle, available⟩, stage⟩ := call
    obtain ⟨-, rfl, rfl, rfl⟩ := ServerProxy.Arguments.mk.inj hargs
    exact ⟨inv, o, hrun, hphase, hnot, rfl, rfl⟩
  | server a =>
    obtain ⟨hinternal, u, hu, rfl⟩ := step_server h
    refine (hserver hu hj).imp_right ?_
    rintro ⟨o, rfl⟩
    cases hinternal
  | receiveResponse j' =>
    obtain ⟨_, _, _, _, server, client, -, -, hu, -, rfl⟩ := step_receiveResponse h
    refine (hserver hu hj).imp_right ?_
    rintro ⟨o, ho⟩
    cases ho

theorem exists_call_of_step (h : step c s a = some t) {call : ServerProxy.Call Resp Data ι RequestId}
    (hcall : call ∈ s.server.calls) : ∃ call' ∈ t.server.calls, call'.toArguments = call.toArguments :=
  List.mem_map.mp ((arguments_prefix_of_step h).subset (List.mem_map_of_mem hcall))

theorem called_of_step (h : step c s a = some t) {k : RequestId} (hcalled : s.Called i k) : t.Called i k := by
  obtain ⟨call, hcall, rfl, rfl⟩ := hcalled
  obtain ⟨call', hcall', he⟩ := exists_call_of_step h hcall
  exact ⟨call', hcall', by rw [he], by rw [he]⟩

theorem running_of_step (h : step c s a = some t) (hrun : (t.client i).running = some inv') :
    (∃ request response, a = .client i (.serviceCallback request response)) ∨
      ∃ inv, (s.client i).running = some inv ∧ inv.id = inv'.id ∧
        (inv'.phase = inv.phase ∨ (a = .client i .callbackReturns ∧ inv.phase = .inCallback ∧ inv'.phase = .inWait)) ∧
          (inv'.responsePromise = none → inv.responsePromise = none) := by
  cases a with
  | client i' a =>
    obtain ⟨-, u, hu, rfl⟩ := step_client h
    rcases eq_or_ne i i' with rfl | hne
    · rcases ClientProxy.running_of_step hu (by simpa using hrun) with ⟨request, response, rfl⟩ |
        ⟨inv, hs, hid, hphase, hp⟩
      · exact .inl ⟨request, response, rfl⟩
      · refine .inr ⟨inv, hs, hid, hphase.imp_right ?_, hp⟩
        rintro ⟨rfl, hbefore, hafter⟩
        exact ⟨rfl, hbefore, hafter⟩
    · exact .inr ⟨inv', by simpa [hne] using hrun, rfl, .inl rfl, id⟩
  | callService i' available o =>
    obtain ⟨_, _, _, _, _, _, rfl⟩ := step_callService h
    exact .inr ⟨inv', hrun, rfl, .inl rfl, id⟩
  | server a =>
    obtain ⟨-, _, -, rfl⟩ := step_server h
    exact .inr ⟨inv', hrun, rfl, .inl rfl, id⟩
  | receiveResponse j =>
    obtain ⟨call, o, p, response, server, client, -, -, -, hclient, rfl⟩ := step_receiveResponse h
    rcases eq_or_ne i call.client with rfl | hne
    · obtain ⟨-, rfl⟩ := ClientProxy.step_receiveResponse hclient
      obtain ⟨inv, hs, hid, hphase, hp⟩ := ClientProxy.running_of_receiveResponse (by simpa using hrun)
      exact .inr ⟨inv, hs, hid, .inl hphase, hp⟩
    · exact .inr ⟨inv', by simpa [hne] using hrun, rfl, .inl rfl, id⟩

theorem waits_of_step (h : step c s a = some t) (hrun : (s.client i).running = some inv)
    (hp : inv.responsePromise = none) (htimeout : a ≠ .client i .timeout)
    (hreply : ∀ j call, a = .receiveResponse j → s.server.calls[j]? = some call → call.client ≠ i) :
    ∃ inv', (t.client i).running = some inv' ∧ inv'.id = inv.id ∧ inv'.responsePromise = none := by
  cases a with
  | client i' a =>
    obtain ⟨hallows, u, hu, rfl⟩ := step_client h
    rcases eq_or_ne i i' with rfl | hne
    · obtain ⟨inv', hrun', hid, hp'⟩ := ClientProxy.waits_of_step hu hrun hp (fun ha => htimeout (ha ▸ rfl)) <| by
        rintro k result rfl
        exact hallows
      exact ⟨inv', by simpa using hrun', hid, hp'⟩
    · exact ⟨inv, by simpa [hne] using hrun, rfl, hp⟩
  | callService i' available o =>
    obtain ⟨_, _, _, _, _, _, rfl⟩ := step_callService h
    exact ⟨inv, hrun, rfl, hp⟩
  | server a =>
    obtain ⟨-, _, -, rfl⟩ := step_server h
    exact ⟨inv, hrun, rfl, hp⟩
  | receiveResponse j =>
    obtain ⟨call, o, p, response, server, client, hcall, -, -, -, rfl⟩ := step_receiveResponse h
    have hne := hreply j call rfl hcall
    exact ⟨inv, by simpa [hne.symm] using hrun, rfl, hp⟩

theorem inCallback_of_bridge_step (h : step c s a = some t) {call : ServerProxy.Call Resp Data ι RequestId}
    (hcall : call ∈ t.server.calls) (hin : InCallback call.stage) :
    (∃ j response p, a = .server (.waitForResponse j response p)) ∨
      ∃ call₀ ∈ s.server.calls, InCallback call₀.stage := by
  cases a with
  | client i' a =>
    obtain ⟨-, u, -, rfl⟩ := step_client h
    exact .inr ⟨call, hcall, hin⟩
  | callService i' available o =>
    obtain ⟨_, u, _, _, _, hu, rfl⟩ := step_callService h
    exact .inr (inCallback_of_step hu (fun _ _ _ ha => by cases ha) hcall hin)
  | server a =>
    obtain ⟨-, u, hu, rfl⟩ := step_server h
    by_cases ha : ∃ j response p, a = .waitForResponse j response p
    · obtain ⟨j, response, p, rfl⟩ := ha
      exact .inl ⟨j, response, p, rfl⟩
    · exact .inr (inCallback_of_step hu (fun j response p he => ha ⟨j, response, p, he⟩) hcall hin)
  | receiveResponse j =>
    obtain ⟨_, _, _, _, server, client, -, -, hu, -, rfl⟩ := step_receiveResponse h
    exact .inr (inCallback_of_step hu (fun _ _ _ ha => by cases ha) hcall hin)

/-- No step opens a request to its answer. -/
theorem open_of_open (h : step c s a = some t) (hrun : (s.client i).running = some inv) (hid : inv.id = inv'.id)
    (hphase : inv'.phase = .inCallback → inv.phase = .inCallback) (hopen : Open t i inv') : Open s i inv := by
  rcases hopen with ⟨call, hcall, rfl, hk, hav⟩ | ⟨hin, hnot⟩
  · rcases call_of_step h hcall with ⟨call₀, h₀, he⟩ | ⟨inv₀, o, hrun₀, hphase₀, hnot, -, -⟩
    · exact .inl ⟨call₀, h₀, by rw [he], by rw [he, hk, hid], by rw [he, hav]⟩
    · obtain rfl := Option.some.inj (hrun.symm.trans hrun₀)
      exact .inr ⟨hphase₀, hnot⟩
  · exact .inr ⟨hphase hin, fun hcalled => hnot (hid ▸ called_of_step h hcalled)⟩

/-- **A useful step closes no request to its answer.** -/
theorem open_of_useful (h : step c s a = some t) (hu : Useful s a) (hrun : (s.client i).running = some inv)
    (hid : inv.id = inv'.id)
    (hphase : inv'.phase = inv.phase ∨
      (a = .client i .callbackReturns ∧ inv.phase = .inCallback ∧ inv'.phase = .inWait))
    (hopen : Open s i inv) : Open t i inv' := by
  rcases hopen with ⟨call, hcall, rfl, hk, hav⟩ | ⟨hin, hnot⟩
  · obtain ⟨call', hcall', he⟩ := exists_call_of_step h hcall
    exact .inl ⟨call', hcall', by rw [he], by rw [he, hk, hid], by rw [he, hav]⟩
  · by_cases hcalled : t.Called i inv'.id
    · obtain ⟨call, hcall, rfl, hk⟩ := hcalled
      rcases call_of_step h hcall with ⟨call₀, h₀, he⟩ | ⟨inv₀, o, -, -, -, -, rfl⟩
      · exact absurd ⟨call₀, h₀, by rw [he], by rw [he, hk, hid]⟩ hnot
      · exact .inl ⟨call, hcall, rfl, hk, hu⟩
    · rcases hphase with heq | ⟨rfl, -, -⟩
      · exact .inr ⟨heq.trans hin, hcalled⟩
      · exact absurd (hu inv hrun) hnot

end Steps

/-! ### Useful steps do some of the work -/

section Work

variable {c : Converters Req Resp Data} {s t : State ι Req Resp Data} {a : Action ι Req Resp Data} {i : ι}

theorem called_iff_of_arguments {u : ServerProxy.State Req Resp Data ι RequestId}
    {new : List (ServerProxy.Arguments Data ι RequestId)}
    (hu : u.calls.map ServerProxy.Call.toArguments = s.server.calls.map ServerProxy.Call.toArguments ++ new)
    (hnew : ∀ args ∈ new, args.client ≠ i) (k : RequestId) :
    State.Called { s with server := u } i k ↔ s.Called i k := by
  have hmap : ∀ calls : List (ServerProxy.Call Resp Data ι RequestId),
      (∃ call ∈ calls, call.client = i ∧ call.handle = k) ↔
        ∃ args ∈ calls.map ServerProxy.Call.toArguments, args.client = i ∧ args.handle = k := by
    intro calls
    simp
  unfold State.Called
  rw [hmap, hmap, hu]
  constructor
  · rintro ⟨args, hargs, hi, hk⟩
    rcases List.mem_append.mp hargs with hold | hin
    · exact ⟨args, hold, hi, hk⟩
    · exact absurd hi (hnew args hin)
  · rintro ⟨args, hargs, hi, hk⟩
    exact ⟨args, List.mem_append_left _ hargs, hi, hk⟩

variable [DecidableEq ι]

/-- The work left for a client depends on where its callback is, and on whether it has made its call. -/
theorem clientWork_congr (hrun : (t.client i).running.map (fun inv => (inv.id, inv.phase)) =
    (s.client i).running.map fun inv => (inv.id, inv.phase)) (hcalled : ∀ k, t.Called i k ↔ s.Called i k) :
    t.clientWork i = s.clientWork i := by
  unfold State.clientWork
  cases ht : (t.client i).running with
  | none =>
    rw [ht, Option.map_none] at hrun
    rw [Option.map_eq_none_iff.mp hrun.symm]
  | some inv' =>
    rw [ht, Option.map_some] at hrun
    obtain ⟨inv, hs, he⟩ := Option.map_eq_some_iff.mp hrun.symm
    obtain ⟨hid, hphase⟩ := Prod.mk.inj he
    simp only [hs, hid, hphase, hcalled]

/-- **A useful step does some of the work.** -/
theorem work_of_useful [Fintype ι] (h : step c s a = some t) (hu : Useful s a) : t.work < s.work := by
  cases a with
  | client i a =>
    obtain ⟨-, u, hstep, rfl⟩ := step_client h
    have hothers : ∀ j ≠ i, State.clientWork { s with
        client := Function.update s.client i u
        requests := Function.update s.requests i (s.requests i ++ received a) } j = s.clientWork j := by
      intro j hne
      exact clientWork_congr (by simp [hne]) fun _ => Iff.rfl
    have hsum := sum_add_of_eq_off hothers
    unfold State.work
    cases a with
    | serviceCallback request response => exact hu.elim
    | callbackReturns =>
      obtain ⟨inv, hrun, hphase, rfl⟩ := ClientProxy.step_callbackReturns hstep
      have hbefore : s.clientWork i = 2 := by simp [State.clientWork, hrun, hphase, hu inv hrun]
      simp only [State.clientWork, Function.update_self] at hsum hbefore ⊢
      omega
    | ready =>
      obtain ⟨inv, r, hrun, hphase, -, rfl⟩ := ClientProxy.step_ready hstep
      have hbefore : s.clientWork i = 1 := by simp [State.clientWork, hrun, hphase]
      simp only [State.clientWork, Function.update_self, ClientProxy.returnWith] at hsum hbefore ⊢
      omega
    | timeout => exact hu.elim
    | receiveResponse k result => exact hu.elim
  | callService i available o =>
    obtain ⟨inv, u, hrun, hphase, hnot, hstep, rfl⟩ := step_callService h
    have hothers : ∀ j ≠ i, State.clientWork { s with server := u } j = s.clientWork j := by
      intro j hne
      refine clientWork_congr rfl fun k => called_iff_of_arguments (ServerProxy.arguments_step hstep) ?_ k
      rintro args hargs rfl
      obtain rfl := List.mem_singleton.mp hargs
      exact hne rfl
    have hsum := sum_add_of_eq_off hothers
    have hcalls := ServerProxy.work_callService hstep hu
    have hbefore : s.clientWork i = 9 := by simp [State.clientWork, hrun, hphase, hnot]
    have hafter : State.clientWork { s with server := u } i = 2 := by
      have hmem : ⟨(s.client i).requestData, i, inv.id, available⟩ ∈ u.calls.map ServerProxy.Call.toArguments := by
        rw [ServerProxy.arguments_step hstep]
        exact List.mem_append_right _ (List.mem_singleton_self _)
      obtain ⟨call, hcall, he⟩ := List.mem_map.mp hmem
      have hcalled : State.Called { s with server := u } i inv.id := ⟨call, hcall, by rw [he], by rw [he]⟩
      simp [State.clientWork, hrun, hphase, hcalled]
    show u.work + ∑ j, State.clientWork { s with server := u } j < s.server.work + ∑ j, s.clientWork j
    omega
  | server a =>
    obtain ⟨hinternal, u, hstep, rfl⟩ := step_server h
    have hcall : ∀ args o, a ≠ .callService args o := by
      rintro args o rfl
      cases hinternal
    have hothers : ∀ j, State.clientWork { s with server := u } j = s.clientWork j := by
      intro j
      refine clientWork_congr rfl fun k => called_iff_of_arguments (ServerProxy.arguments_step hstep) ?_ k
      cases a with
      | callService args o => cases hinternal
      | receiveResponse j => cases hinternal
      | throws j => cases hinternal
      | _ => simp [ServerProxy.callArguments]
    have hcalls := ServerProxy.work_of_step hstep hcall fun j hj => by rw [hj] at hinternal; cases hinternal
    have hsum : ∑ j, State.clientWork { s with server := u } j = ∑ j, s.clientWork j :=
      Finset.sum_congr rfl fun j _ => hothers j
    show u.work + ∑ j, State.clientWork { s with server := u } j < s.server.work + ∑ j, s.clientWork j
    omega
  | receiveResponse j =>
    obtain ⟨call, o, p, response, server, client, hcall, hstage, hserver, hclient, rfl⟩ := step_receiveResponse h
    obtain ⟨-, rfl⟩ := ClientProxy.step_receiveResponse hclient
    have hcalls := ServerProxy.work_of_step hserver (by simp) (by simp)
    have hothers : ∀ i, State.clientWork { s with
        server := server
        client := Function.update s.client call.client
          (ClientProxy.receiveResponse c (s.client call.client) call.handle (s.server.responseObject p)) } i =
        s.clientWork i := by
      intro i
      refine clientWork_congr ?_ <|
        called_iff_of_arguments (ServerProxy.arguments_step hserver) (by simp [ServerProxy.callArguments])
      rcases eq_or_ne i call.client with rfl | hne
      · simp only [Function.update_self]
        exact ClientProxy.receiveResponse_running call.handle (s.server.responseObject p)
      · simp only [Function.update_of_ne hne]
    unfold State.work
    rw [Finset.sum_congr rfl fun i _ => hothers i]
    show server.work + ∑ i, s.clientWork i < s.server.work + ∑ i, s.clientWork i
    omega

end Work

/-! ### A useful step is enabled -/

section Enabled

variable {c : Converters Req Resp Data} {Serves : Req → Resp → Prop} {s t : State ι Req Resp Data} {i : ι}
  {inv : ClientProxy.Invocation Resp}

theorem exists_call_of_replied (hs : Faithful c Serves s) {k : RequestId} {result : Data}
    (hm : .replied k result ∈ (s.client i).trace) :
    ∃ (j : ℕ) (call : ServerProxy.Call Resp Data ι RequestId), s.server.calls[j]? = some call ∧ call.client = i ∧
      call.handle = k ∧ (call.stage.remaining = some 0 ∨ call.stage = .threw) := by
  obtain ⟨j, hj⟩ := hs.linked.replied i k result hm
  obtain ⟨call, hcall, hh⟩ := hs.linked.server.call_of_mem hj
  have hmem := ServerProxy.mem_history.mpr ⟨hj, rfl⟩
  obtain ⟨hc, hn, -⟩ := hh.receiveResponse_mem hmem
  subst hc hn
  exact ⟨j, call, hcall, rfl, rfl, hh.remaining_of_receiveResponse hmem⟩

/-- A request whose promise is set is one whose response was handed over. -/
theorem onTheWay_of_isSet (hs : Faithful c Serves s) (hl : Live s) (hrun : (s.client i).running = some inv) {r : Resp}
    (hp : inv.responsePromise = some r) : OnTheWay c Serves s i inv.id 0 s := by
  obtain ⟨-, result, -, hreplied, -⟩ := (hs.clients i).isSet inv r hrun hp
  obtain ⟨j, call, hcall, hi, hk, hzero | hthrew⟩ := exists_call_of_replied hs hreplied
  · exact ⟨hs, hl, ⟨inv, hrun, rfl⟩, fun _ _ => rfl, j, call, hcall, hi, hk, hzero⟩
  · exact absurd hthrew (hl.unthrown j call hcall)

variable [DecidableEq ι]

/-- **No reply is late** while no request has been given up. -/
theorem timely_of_kept (hs : Faithful c Serves s) (hk : ∀ i, ClientProxy.Kept (s.client i)) {a : Action ι Req Resp Data}
    (h : step c s a = some t) : Timely s a := by
  cases a with
  | client i a => trivial
  | callService i available o => trivial
  | server a => trivial
  | receiveResponse j =>
    obtain ⟨call, o, p, response, server, client, hcall, hstage, -, -, -⟩ := step_receiveResponse h
    intro call' hcall'
    obtain rfl := Option.some.inj (hcall.symm.trans hcall')
    have hawaited := hs.linked.awaited j call hcall (by rw [hstage]; trivial)
    have hreceived := (hs.clients call.client).outstanding_lt _ hawaited
    rcases hk call.client call.handle hreceived with hrun | ⟨_, _, result, -, hreplied⟩
    · exact hrun
    · -- the call that is for the request has not handed its response over yet
      obtain ⟨j', call', hj', hi, hhandle, hdone⟩ := exists_call_of_replied hs hreplied
      obtain rfl := hs.linked.once j' j call' call hj' hcall hi hhandle
      obtain rfl := Option.some.inj (hcall.symm.trans hj')
      rw [hstage] at hdone
      rcases hdone with hzero | hthrew <;> [cases hzero; cases hthrew]

theorem kept_of_step (hs : Faithful c Serves s) (hk : ∀ i, ClientProxy.Kept (s.client i)) {a : Action ι Req Resp Data}
    (ha : ∀ i, a ≠ .client i .timeout) (h : step c s a = some t) (i : ι) : ClientProxy.Kept (t.client i) := by
  cases a with
  | client i' a =>
    obtain ⟨-, u, hu, rfl⟩ := step_client h
    refine forall_client_update (I := ClientProxy.Kept) hk ?_ i
    exact ClientProxy.kept_step (hk i') (hs.clients i') (fun heq => ha i' (heq ▸ rfl)) hu
  | callService i' available o =>
    obtain ⟨_, _, _, _, _, _, rfl⟩ := step_callService h
    exact hk i
  | server a =>
    obtain ⟨-, _, -, rfl⟩ := step_server h
    exact hk i
  | receiveResponse j =>
    obtain ⟨call, o, p, response, server, client, -, -, -, hclient, rfl⟩ := step_receiveResponse h
    refine forall_client_update (I := ClientProxy.Kept) hk ?_ i
    exact ClientProxy.kept_step (hk call.client) (hs.clients call.client) (by simp) hclient

theorem step_of_internal {a : ServerProxy.Action Resp Data ι RequestId} (ha : Internal a)
    {u : ServerProxy.State Req Resp Data ι RequestId} (hu : ServerProxy.step c s.server a = some u) :
    step c s (.server a) = some { s with server := u } := by
  simp [step, ha, hu]

theorem step_of_allows {a : ClientProxy.Action Req Resp Data} (ha : s.Allows i a) {u : ClientProxy.State Resp Data}
    (hu : ClientProxy.step c (s.client i) a = some u) : step c s (.client i a) = some { s with
      client := Function.update s.client i u
      requests := Function.update s.requests i (s.requests i ++ received a) } := by
  simp [step, ha, hu]

/-- **The callback for a response goes on.** -/
theorem exists_useful_of_inCallback (hs : Faithful c Serves s) (hl : Live s)
    {call : ServerProxy.Call Resp Data ι RequestId} (hcall : call ∈ s.server.calls) (hin : InCallback call.stage) :
    ∃ a t, step c s a = some t ∧ Useful s a ∧ Honest Serves s a ∧ ¬ Enters a := by
  obtain ⟨j, hj⟩ := List.mem_iff_getElem?.mp hcall
  cases hstage : call.stage with
  | answered o p response =>
    obtain ⟨u, hu⟩ : ∃ u, ServerProxy.step c s.server (.responseToXtype j) = some u := by
      simp [ServerProxy.step, hj, hstage]
    exact ⟨.server (.responseToXtype j), _, step_of_internal rfl hu, trivial, trivial, id⟩
  | responseTranslated o p response =>
    obtain ⟨-, t, ht⟩ := hs.linked.exists_receiveResponse hj hstage (hl.defined call.client)
    exact ⟨.receiveResponse j, t, ht, trivial, trivial, id⟩
  | delivering o p =>
    obtain ⟨u, hu⟩ : ∃ u, ServerProxy.step c s.server (.recycle j) = some u := by
      simp [ServerProxy.step, hj, hstage]
    exact ⟨.server (.recycle j), _, step_of_internal rfl hu, trivial, trivial, id⟩
  | _ =>
    rw [hstage] at hin
    exact hin.elim

/-- A request that has its reply returns, or its callback does. -/
theorem exists_useful_of_isSet (hs : Faithful c Serves s) (hl : Live s) (hrun : (s.client i).running = some inv)
    {r : Resp} (hp : inv.responsePromise = some r) :
    ∃ a t, step c s a = some t ∧ Useful s a ∧ Honest Serves s a ∧ ¬ Enters a := by
  have hway := onTheWay_of_isSet hs hl hrun hp
  obtain ⟨-, -, -, hout⟩ := hway.replied hrun
  cases hphase : inv.phase with
  | inWait =>
    obtain ⟨u, hu⟩ : ∃ u, ClientProxy.step c (s.client i) .ready = some u := by
      simp [ClientProxy.step, hl.defined i, hrun, hphase, hp]
    have hallows : s.Allows i (.ready : ClientProxy.Action Req Resp Data) := trivial
    exact ⟨.client i .ready, _, step_of_allows hallows hu, trivial, trivial, id⟩
  | inCallback =>
    obtain ⟨u, hu⟩ : ∃ u, ClientProxy.step c (s.client i) .callbackReturns = some u := by
      simp [ClientProxy.step, hl.defined i, hrun, hphase]
    obtain ⟨j, call, hcall, hi, hk, -⟩ := hway.call
    have huseful : Useful s (.client i .callbackReturns : Action ι Req Resp Data) := by
      intro inv' hrun'
      obtain rfl := Option.some.inj (hrun.symm.trans hrun')
      exact ⟨call, List.mem_of_getElem? hcall, hi, hk⟩
    have hallows : s.Allows i (.callbackReturns : ClientProxy.Action Req Resp Data) := hout
    exact ⟨.client i .callbackReturns, _, step_of_allows hallows hu, huseful, trivial, id⟩

/-- A request that is open to its answer is passed on, or its call goes on; the callback for its response may have to be
entered for that. -/
theorem exists_useful_of_open (hserves : ∀ q, ∃ r, Serves q r) (hs : Faithful c Serves s) (hl : Live s)
    (hrun : (s.client i).running = some inv) (hp : inv.responsePromise = none) (hopen : Open s i inv) :
    ∃ a t, step c s a = some t ∧ Useful s a ∧ Honest Serves s a := by
  rcases hopen with ⟨call, hcall, rfl, hk, hav⟩ | ⟨hphase, hnot⟩
  · obtain ⟨j, hj⟩ := List.mem_iff_getElem?.mp hcall
    obtain ⟨n, hn⟩ := (hs.linked.server.history j call hj).remaining_of_available hav (hl.unthrown j call hj)
    have hcallback : InCallback call.stage → ∃ a t, step c s a = some t ∧ Useful s a ∧ Honest Serves s a := by
      intro hin
      obtain ⟨a, t, ht, hu, hh, -⟩ := exists_useful_of_inCallback hs hl hcall hin
      exact ⟨a, t, ht, hu, hh⟩
    cases hstage : call.stage with
    | refused => rw [hstage] at hn; cases hn
    | threw => rw [hstage] at hn; cases hn
    | popped o =>
      obtain ⟨u, hu⟩ : ∃ u, ServerProxy.step c s.server (.requestToRos2 j) = some u := by
        simp [ServerProxy.step, hj, hstage]
      exact ⟨.server (.requestToRos2 j), _, step_of_internal rfl hu, trivial, trivial⟩
    | translated o =>
      obtain ⟨u, hu⟩ : ∃ u, ServerProxy.step c s.server (.asyncSendRequest j) = some u := by
        simp [ServerProxy.step, hj, hstage]
      exact ⟨.server (.asyncSendRequest j), _, step_of_internal rfl hu, trivial, trivial⟩
    | sent o =>
      obtain ⟨r, hr⟩ := exists_served hserves hs.linked.server hj hstage
      obtain ⟨p, pool, hpop⟩ := ServerProxy.exists_pop s.server.responsePool
      obtain ⟨u, hu⟩ : ∃ u, ServerProxy.step c s.server (.waitForResponse j r p) = some u := by
        simp [ServerProxy.step, hj, hstage, hpop]
      exact ⟨.server (.waitForResponse j r p), _, step_of_internal rfl hu, trivial, hr⟩
    | answered o p response => exact hcallback (by rw [hstage]; trivial)
    | responseTranslated o p response => exact hcallback (by rw [hstage]; trivial)
    | delivering o p => exact hcallback (by rw [hstage]; trivial)
    | done =>
      have hway : OnTheWay c Serves s call.client inv.id 0 s :=
        ⟨hs, hl, ⟨inv, hrun, rfl⟩, fun _ _ => rfl, j, call, hj, rfl, hk, by rw [hstage]; rfl⟩
      obtain ⟨-, -, ⟨r, hr⟩, -⟩ := hway.replied hrun
      rw [hp] at hr
      cases hr
  · obtain ⟨o, pool, hpop⟩ := ServerProxy.exists_pop s.server.requestPool
    obtain ⟨u, hu⟩ : ∃ u, ServerProxy.step c s.server
        (.callService ⟨(s.client i).requestData, i, inv.id, true⟩ o) = some u := by
      simp [ServerProxy.step, ServerProxy.callService, hpop]
    have hstep : step c s (.callService i true o) = some { s with server := u } := by
      simp [step, hrun, hphase, hnot, hu]
    exact ⟨.callService i true o, _, hstep, rfl, trivial⟩

end Enabled

end Bridge

end Ros2Sh.Service
