import Mathlib.Data.Set.Finite.Range
import Ros2Sh.Lib.Tasks
import Ros2Sh.Service.Waiting

/-!
# Services that share executors

A system handle has one node and one single-threaded executor, and `spin_once` runs the callbacks of the node on it, one
at a time: the `service_callback` of every client proxy of the handle, and the callback for a response of every server
proxy of it.  A `service_callback` keeps the executor while it waits for its response, and the callback for that
response needs the executor of the other side of the route, which may be kept by a request of another route.

So the executors wait for each other.  While no request has been given up, a request that is running can be answered
exactly when the executors that it waits for do not wait in a circle, and the requests that wait on them are open to
their answers (`answered_in_time_iff`).  Where the routes between the executors lead in no circle it never comes to
one, and where they do it can (`never_blocked_iff`).
-/

namespace Ros2Sh.Service.Executors

open Ros2Sh.Lib
open Bridge (Honest InCallback Enters Useful Open Answers Faithful Live)
open ClientProxy (RequestId Kept)

variable {ρ ε : Type} {ι Req Resp Data : ρ → Type}

/-! ### The routes of a process and their executors -/

/-- The executors that run the callbacks of each route: those of the handles that its proxies belong to. -/
structure Placement (ρ : Type) (ι : ρ → Type) (ε : Type) where
  client : ∀ r, ι r → ε
  server : ρ → ε

/-- Every route is a bridge. -/
abbrev State (ι Req Resp Data : ρ → Type) : Type := ∀ r, Bridge.State (ι r) (Req r) (Resp r) (Data r)

abbrev Action (ι Req Resp Data : ρ → Type) : Type := Σ r, Bridge.Action (ι r) (Req r) (Resp r) (Data r)

/-- No callback is running on the executor. -/
structure Idle (place : Placement ρ ι ε) (s : State ι Req Resp Data) (e : ε) : Prop where
  client : ∀ r i, place.client r i = e → ((s r).client i).running = none
  server : ∀ r, place.server r = e → ∀ call ∈ (s r).server.calls, ¬ InCallback call.stage

/-- A callback is entered while no other one is running on its executor. -/
def OneAtATime (place : Placement ρ ι ε) (s : State ι Req Resp Data) : Action ι Req Resp Data → Prop
  | ⟨r, .client i (.serviceCallback _ _)⟩ => Idle place s (place.client r i)
  | ⟨r, .server (.waitForResponse _ _ _)⟩ => Idle place s (place.server r)
  | _ => True

/-- No request is given up. -/
def Patient : Action ι Req Resp Data → Prop
  | ⟨_, .client _ .timeout⟩ => False
  | _ => True

/-- The steps of executors that run one callback at a time, before the first timeout, with servers that answer as
`Serves` says. -/
structure Regular (place : Placement ρ ι ε) (Serves : ∀ r, Req r → Resp r → Prop) (s : State ι Req Resp Data)
    (a : Action ι Req Resp Data) : Prop where
  oneAtATime : OneAtATime place s a
  patient : Patient a
  honest : Honest (Serves a.1) (s a.1) a.2

instance [Fintype ρ] [∀ r, Fintype (ι r)] [DecidableEq ε] (place : Placement ρ ι ε) (s : State ι Req Resp Data)
    (e : ε) : Decidable (Idle place s e) :=
  decidable_of_iff ((∀ r i, place.client r i = e → ((s r).client i).running = none) ∧
    ∀ r, place.server r = e → ∀ call ∈ (s r).server.calls, ¬ InCallback call.stage)
    ⟨fun h => ⟨h.1, h.2⟩, fun h => ⟨h.client, h.server⟩⟩

instance [Fintype ρ] [∀ r, Fintype (ι r)] [DecidableEq ε] (place : Placement ρ ι ε) (s : State ι Req Resp Data) :
    DecidablePred (OneAtATime place s)
  | ⟨r, .client i (.serviceCallback _ _)⟩ => inferInstanceAs (Decidable (Idle place s (place.client r i)))
  | ⟨r, .server (.waitForResponse _ _ _)⟩ => inferInstanceAs (Decidable (Idle place s (place.server r)))
  | ⟨_, .client _ .callbackReturns⟩ | ⟨_, .client _ .ready⟩ | ⟨_, .client _ .timeout⟩
  | ⟨_, .client _ (.receiveResponse _ _)⟩ | ⟨_, .server (.callService _ _)⟩ | ⟨_, .server (.requestToRos2 _)⟩
  | ⟨_, .server (.asyncSendRequest _)⟩ | ⟨_, .server (.responseToXtype _)⟩ | ⟨_, .server (.receiveResponse _)⟩
  | ⟨_, .server (.recycle _)⟩ | ⟨_, .server (.throws _)⟩ | ⟨_, .callService _ _ _⟩ | ⟨_, .receiveResponse _⟩ =>
    isTrue trivial

instance : DecidablePred (Patient : Action ι Req Resp Data → Prop)
  | ⟨_, .client _ .timeout⟩ => isFalse id
  | ⟨_, .client _ (.serviceCallback _ _)⟩ | ⟨_, .client _ .callbackReturns⟩ | ⟨_, .client _ .ready⟩
  | ⟨_, .client _ (.receiveResponse _ _)⟩ | ⟨_, .server _⟩ | ⟨_, .callService _ _ _⟩ | ⟨_, .receiveResponse _⟩ =>
    isTrue trivial

instance [Fintype ρ] [∀ r, Fintype (ι r)] [DecidableEq ε] (place : Placement ρ ι ε)
    (Serves : ∀ r, Req r → Resp r → Prop) [∀ r q p, Decidable (Serves r q p)] (s : State ι Req Resp Data) :
    DecidablePred (Regular place Serves s) := fun a =>
  decidable_of_iff (OneAtATime place s a ∧ Patient a ∧ Honest (Serves a.1) (s a.1) a.2)
    ⟨fun h => ⟨h.1, h.2.1, h.2.2⟩, fun h => ⟨h.oneAtATime, h.patient, h.honest⟩⟩

/-! ### What the executors wait for -/

/-- On the executor `e`, a request waits for its response, the callback for which is for the executor `e'` to run. -/
def Waits (place : Placement ρ ι ε) (s : State ι Req Resp Data) (e e' : ε) : Prop :=
  ∃ r i inv, place.client r i = e ∧ ((s r).client i).running = some inv ∧ inv.responsePromise = none ∧
    place.server r = e'

/-- The requests that wait on the executor are open to their answers. -/
def OpenOn (place : Placement ρ ι ε) (s : State ι Req Resp Data) (e : ε) : Prop :=
  ∀ r i inv, place.client r i = e → ((s r).client i).running = some inv → inv.responsePromise = none →
    Open (s r) i inv

/-- The executors that the executor waits for do not wait in a circle, and what they wait for is open to its answer. -/
def Unblocked (place : Placement ρ ι ε) (s : State ι Req Resp Data) (e : ε) : Prop :=
  ∀ e', Relation.ReflTransGen (Waits place s) e e' → OpenOn place s e' ∧ ¬ Relation.TransGen (Waits place s) e' e'

/-- The proxies just constructed. -/
def initial (requestData : ∀ r, ι r → Data r) (response : ∀ r, ι r → Resp r) (request : ∀ r, Req r)
    (data : ∀ r, Data r) : State ι Req Resp Data :=
  fun r => Bridge.initial (requestData r) (response r) (request r) (data r)

/-! ### What holds before the first timeout -/

/-- While a request runs on an executor, no other one does, and no callback for a response. -/
def Exclusive (place : Placement ρ ι ε) (s : State ι Req Resp Data) : Prop :=
  ∀ r i inv, ((s r).client i).running = some inv →
    (∀ r' i' inv', place.client r' i' = place.client r i → ((s r').client i').running = some inv' →
      (⟨r', i'⟩ : Σ r, ι r) = ⟨r, i⟩) ∧
    ∀ r', place.server r' = place.client r i → ∀ call ∈ (s r').server.calls, ¬ InCallback call.stage

variable {c : ∀ r, Converters (Req r) (Resp r) (Data r)} {place : Placement ρ ι ε}
  {Serves : ∀ r, Req r → Resp r → Prop} {s t u : State ι Req Resp Data} {a : Action ι Req Resp Data} {e e' : ε}

/-- The invariant of the runs without a timeout. -/
structure Inv (c : ∀ r, Converters (Req r) (Resp r) (Data r)) (place : Placement ρ ι ε)
    (Serves : ∀ r, Req r → Resp r → Prop) (s : State ι Req Resp Data) : Prop where
  faithful : ∀ r, Faithful (c r) (Serves r) (s r)
  live : ∀ r, Live (s r)
  kept : ∀ r i, Kept ((s r).client i)
  exclusive : Exclusive place s

theorem inv_initial (requestData : ∀ r, ι r → Data r) (response : ∀ r, ι r → Resp r) (request : ∀ r, Req r)
    (data : ∀ r, Data r) : Inv c place Serves (initial requestData response request data) where
  faithful r := Bridge.faithful_initial (requestData r) (response r) (request r) (data r)
  live r := Bridge.live_initial (requestData r) (response r) (request r) (data r)
  kept r i := ClientProxy.kept_initial (requestData r i) (response r i)
  exclusive r i inv hrun := by cases hrun

/-! ### What a step does -/

theorem oneAtATime_of_not_enters {r : ρ} {a : Bridge.Action (ι r) (Req r) (Resp r) (Data r)} (ha : ¬ Enters a) :
    OneAtATime place s ⟨r, a⟩ := by
  match a, ha with
  | .client i (.serviceCallback _ _), ha => exact absurd trivial ha
  | .server (.waitForResponse _ _ _), ha => exact absurd trivial ha
  | .client _ .callbackReturns, _ | .client _ .ready, _ | .client _ .timeout, _ | .client _ (.receiveResponse _ _), _
  | .server (.callService _ _), _ | .server (.requestToRos2 _), _ | .server (.asyncSendRequest _), _
  | .server (.responseToXtype _), _ | .server (.receiveResponse _), _ | .server (.recycle _), _ | .server (.throws _), _
  | .callService _ _ _, _ | .receiveResponse _, _ => trivial

theorem patient_of_useful {r : ρ} {x : Bridge.State (ι r) (Req r) (Resp r) (Data r)}
    {a : Bridge.Action (ι r) (Req r) (Resp r) (Data r)} (ha : Useful x a) :
    Patient (⟨r, a⟩ : Action ι Req Resp Data) := by
  match a, ha with
  | .client _ .timeout, ha => exact ha.elim
  | .client _ (.serviceCallback _ _), _ | .client _ .callbackReturns, _ | .client _ .ready, _
  | .client _ (.receiveResponse _ _), _ | .server _, _ | .callService _ _ _, _ | .receiveResponse _, _ => trivial

theorem oneAtATime_of_useful {r : ρ} {a : Bridge.Action (ι r) (Req r) (Resp r) (Data r)} (ha : Useful (s r) a)
    (hidle : Idle place s (place.server r)) : OneAtATime place s ⟨r, a⟩ := by
  by_cases henters : Enters a
  · match a, ha, henters with
    | .client i (.serviceCallback _ _), ha, _ => exact ha.elim
    | .server (.waitForResponse _ _ _), _, _ => exact hidle
  · exact oneAtATime_of_not_enters henters

theorem Idle.not_running (he : Idle place s e) {r : ρ} {i : ι r} (hi : place.client r i = e)
    {inv : ClientProxy.Invocation (Resp r)} : ((s r).client i).running ≠ some inv := by
  rw [he.client r i hi]
  simp

theorem exists_of_not_idle (he : ¬ Idle place s e) :
    (∃ r, place.server r = e ∧ ∃ call ∈ (s r).server.calls, InCallback call.stage) ∨
      ∃ r i inv, place.client r i = e ∧ ((s r).client i).running = some inv := by
  by_contra hnone
  push Not at hnone
  refine he ⟨fun r i hi => ?_, fun r hr call hcall => hnone.1 r hr call hcall⟩
  exact Option.eq_none_iff_forall_ne_some.mpr fun inv hrun => hnone.2 r i inv hi hrun

/-! ### What is blocked -/

/-- No endless wait begins in an executor that is not blocked. -/
theorem Unblocked.acc [Finite ρ] (hs : Unblocked place s e) : Acc (fun e' e => Waits place s e e') e := by
  have hfinite : {e' | Relation.ReflTransGen (Waits place s) e e'}.Finite := by
    refine ((Set.finite_range place.server).insert e).subset fun e' he => ?_
    rcases Relation.ReflTransGen.cases_tail he with rfl | ⟨_, -, r, i, inv, -, -, -, rfl⟩
    · exact Set.mem_insert _ _
    · exact Set.mem_insert_of_mem _ ⟨r, rfl⟩
  exact (acc_iff_acyclic hfinite).mpr fun e' he => (hs e' he).2

/-- The request waits, and it is not open to its answer, or the executor for its response is blocked. -/
structure Blocked (place : Placement ρ ι ε) (s : State ι Req Resp Data) (r : ρ) (i : ι r)
    (inv : ClientProxy.Invocation (Resp r)) : Prop where
  running : ((s r).client i).running = some inv
  unset : inv.responsePromise = none
  blocked : ¬ Open (s r) i inv ∨ ¬ Unblocked place s (place.server r)

theorem exists_blocked (he : ¬ Unblocked place s e) : ∃ r i inv, place.client r i = e ∧ Blocked place s r i inv := by
  by_contra hnone
  have hwaits : ∀ r i inv, place.client r i = e → ((s r).client i).running = some inv →
      inv.responsePromise = none → Open (s r) i inv ∧ Unblocked place s (place.server r) := by
    intro r i inv hi hrun hp
    by_contra hblocked
    exact hnone ⟨r, i, inv, hi, hrun, hp, not_and_or.mp hblocked⟩
  have hnext : ∀ e', Waits place s e e' → Unblocked place s e' := by
    rintro e' ⟨r, i, inv, hi, hrun, hp, rfl⟩
    exact (hwaits r i inv hi hrun hp).2
  refine he fun e' hreach => ?_
  rcases Relation.ReflTransGen.cases_head hreach with rfl | ⟨e₁, hedge, hrest⟩
  · refine ⟨fun r i inv hi hrun hp => (hwaits r i inv hi hrun hp).1, fun hcycle => ?_⟩
    obtain ⟨e₁, hedge, hrest⟩ := Relation.TransGen.head'_iff.mp hcycle
    exact (hnext e₁ hedge e hrest).2 hcycle
  · exact hnext e₁ hedge e' hrest

/-- The requests that were blocked in `s` wait in `u`. -/
def StillBlocked (place : Placement ρ ι ε) (s u : State ι Req Resp Data) : Prop :=
  ∀ r i inv, Blocked place s r i inv → ∃ inv', ((u r).client i).running = some inv' ∧ inv'.id = inv.id ∧
    inv'.responsePromise = none ∧ (¬ Open (u r) i inv' ∨ ¬ Unblocked place s (place.server r))

theorem stillBlocked_refl (place : Placement ρ ι ε) (s : State ι Req Resp Data) : StillBlocked place s s :=
  fun _ _ inv h => ⟨inv, h.running, rfl, h.unset, h.blocked⟩

/-! ### Routes between executors -/

/-- A route leads from the executor `e` to the executor `e'`. -/
def Routed (place : Placement ρ ι ε) (e e' : ε) : Prop := ∃ r i, place.client r i = e ∧ place.server r = e'

theorem Waits.routed (h : Waits place s e e') : Routed place e e' := by
  obtain ⟨r, i, inv, hi, -, -, hr⟩ := h
  exact ⟨r, i, hi, hr⟩

/-- Requests for executors that lie on circles of routes have entered, and nothing else has happened. -/
structure Entering (place : Placement ρ ι ε) (s : State ι Req Resp Data) : Prop where
  calls : ∀ r, (s r).server.calls = []
  running : ∀ r i inv, ((s r).client i).running = some inv → inv.phase = .inCallback ∧ inv.responsePromise = none ∧
    Relation.TransGen (Routed place) (place.server r) (place.server r)

theorem entering_initial (place : Placement ρ ι ε) (requestData : ∀ r, ι r → Data r) (response : ∀ r, ι r → Resp r)
    (request : ∀ r, Req r) (data : ∀ r, Data r) : Entering place (initial requestData response request data) where
  calls _ := rfl
  running r i inv hrun := by cases hrun

theorem Entering.waits (hs : Entering place s) (he : ¬ Idle place s e) :
    ∃ e', Waits place s e e' ∧ Relation.TransGen (Routed place) e' e' := by
  rcases exists_of_not_idle he with ⟨r, -, call, hcall, -⟩ | ⟨r, i, inv, hi, hrun⟩
  · rw [hs.calls r] at hcall
    cases hcall
  · obtain ⟨-, hp, hcycle⟩ := hs.running r i inv hrun
    exact ⟨place.server r, ⟨r, i, inv, hi, hrun, hp, rfl⟩, hcycle⟩

theorem Entering.openOn (hs : Entering place s) (e : ε) : OpenOn place s e := by
  intro r i inv _ hrun _
  refine .inr ⟨(hs.running r i inv hrun).1, ?_⟩
  rintro ⟨call, hcall, -⟩
  rw [hs.calls r] at hcall
  cases hcall

/-- Where a request waits on every executor of the circles, the circles are blocked. -/
theorem Entering.not_unblocked [Finite ρ] (hs : Entering place s)
    (hbusy : ∀ e, Relation.TransGen (Routed place) e e → ¬ Idle place s e)
    (he : Relation.TransGen (Routed place) e e) : ¬ Unblocked place s e := by
  intro hunblocked
  have hacc := hunblocked.acc
  clear hunblocked
  induction hacc with
  | intro e _ ih =>
    obtain ⟨e', hwaits, hcycle⟩ := hs.waits (hbusy e he)
    exact ih e' hwaits hcycle

section Process

variable [DecidableEq ρ] [∀ r, DecidableEq (ι r)]

/-- One of the routes takes a step. -/
def step (c : ∀ r, Converters (Req r) (Resp r) (Data r)) :
    State ι Req Resp Data → Action ι Req Resp Data → Option (State ι Req Resp Data) :=
  stepEach fun r => Bridge.step (c r)

/-- The process can go on, with no request given up, until the request has been answered and returns. -/
def AnsweredInTime (c : ∀ r, Converters (Req r) (Resp r) (Data r)) (place : Placement ρ ι ε)
    (Serves : ∀ r, Req r → Resp r → Prop) (s : State ι Req Resp Data) (r : ρ) (i : ι r) (k : RequestId) : Prop :=
  ∃ u, Leads (step c) (Regular place Serves) s u ∧ ∃ before after result request,
    .returned k before after ∈ ((u r).client i).trace ∧ .replied k result ∈ ((u r).client i).trace ∧
      ((s r).requests i)[k]? = some request ∧ Answers (c r) (Serves r) request after

/-- In every state that the process reaches before the first timeout, with every request that waits open to its answer,
all the requests that are running can be answered in time. -/
def NeverBlocked (c : ∀ r, Converters (Req r) (Resp r) (Data r)) (place : Placement ρ ι ε)
    (Serves : ∀ r, Req r → Resp r → Prop) (s : State ι Req Resp Data) : Prop :=
  ∀ as t, run (step c) s as = some t → Along (step c) (Regular place Serves) s as → (∀ e, OpenOn place t e) →
    ∀ r i inv, ((t r).client i).running = some inv → AnsweredInTime c place Serves t r i inv.id

theorem running_of_step (h : step c s a = some t) {r : ρ} {i : ι r} {inv' : ClientProxy.Invocation (Resp r)}
    (hrun : ((t r).client i).running = some inv') :
    (∃ request response, a = ⟨r, .client i (.serviceCallback request response)⟩) ∨
      ∃ inv, ((s r).client i).running = some inv ∧ inv.id = inv'.id ∧
        (inv'.phase = inv.phase ∨
          (a = ⟨r, .client i .callbackReturns⟩ ∧ inv.phase = .inCallback ∧ inv'.phase = .inWait)) ∧
          (inv'.responsePromise = none → inv.responsePromise = none) := by
  rcases step_or_eq h r with heq | ⟨a', rfl, hstep⟩
  · rw [heq] at hrun
    exact .inr ⟨inv', hrun, rfl, .inl rfl, id⟩
  · rcases Bridge.running_of_step hstep hrun with ⟨request, response, rfl⟩ | ⟨inv, hs, hid, hphase, hp⟩
    · exact .inl ⟨request, response, rfl⟩
    · refine .inr ⟨inv, hs, hid, hphase.imp_right ?_, hp⟩
      rintro ⟨rfl, hbefore, hafter⟩
      exact ⟨rfl, hbefore, hafter⟩

theorem inCallback_of_step (h : step c s a = some t) {r : ρ}
    {call : ServerProxy.Call (Resp r) (Data r) (ι r) RequestId} (hcall : call ∈ (t r).server.calls)
    (hin : InCallback call.stage) : (∃ j response p, a = ⟨r, .server (.waitForResponse j response p)⟩) ∨
      ∃ call₀ ∈ (s r).server.calls, InCallback call₀.stage := by
  rcases step_or_eq h r with heq | ⟨a', rfl, hstep⟩
  · rw [heq] at hcall
    exact .inr ⟨call, hcall, hin⟩
  · refine (Bridge.inCallback_of_bridge_step hstep hcall hin).imp_left ?_
    rintro ⟨j, response, p, rfl⟩
    exact ⟨j, response, p, rfl⟩

theorem exclusive_step (hs : Exclusive place s) (ha : OneAtATime place s a) (h : step c s a = some t) :
    Exclusive place t := by
  intro r i inv hrun
  constructor
  · intro r' i' inv' hplace hrun'
    rcases running_of_step h hrun with ⟨request, response, rfl⟩ | ⟨inv₀, hold, -⟩
    · rcases running_of_step h hrun' with ⟨_, _, heq⟩ | ⟨inv₁, hold', -⟩
      · cases heq
        rfl
      · exact absurd hold' (Idle.not_running ha hplace)
    · rcases running_of_step h hrun' with ⟨_, _, rfl⟩ | ⟨inv₁, hold', -⟩
      · exact absurd hold (Idle.not_running ha hplace.symm)
      · exact (hs r i inv₀ hold).1 r' i' inv₁ hplace hold'
  · intro r' hplace call hcall hin
    rcases running_of_step h hrun with ⟨request, response, rfl⟩ | ⟨inv₀, hold, -⟩
    · rcases inCallback_of_step h hcall hin with ⟨j, resp, p, heq⟩ | ⟨call₀, h₀, hin₀⟩
      · cases heq
      · exact Idle.server ha r' hplace call₀ h₀ hin₀
    · rcases inCallback_of_step h hcall hin with ⟨j, resp, p, rfl⟩ | ⟨call₀, h₀, hin₀⟩
      · exact absurd hold (Idle.not_running ha hplace.symm)
      · exact (hs r i inv₀ hold).2 r' hplace call₀ h₀ hin₀

/-- **Every step before the first timeout keeps the invariant.** -/
theorem inv_step (hs : Inv c place Serves s) (ha : Regular place Serves s a) (h : step c s a = some t) :
    Inv c place Serves t := by
  obtain ⟨r, a⟩ := a
  have htimely : ∀ x, Bridge.step (c r) (s r) a = some x → Bridge.Timely (s r) a := fun x hx =>
    Bridge.timely_of_kept (hs.faithful r) (hs.kept r) hx
  have hkept : ∀ x, Bridge.step (c r) (s r) a = some x → ∀ i, Kept (x.client i) := fun x hx =>
    Bridge.kept_of_step (hs.faithful r) (hs.kept r) (fun i hi => by subst hi; exact ha.patient) hx
  exact ⟨forall_of_step (I := fun r x => Faithful (c r) (Serves r) x) hs.faithful h fun x hx =>
      Bridge.faithful_step (hs.faithful r) (htimely x hx) ha.honest hx,
    forall_of_step (I := fun _ x => Live x) hs.live h fun x hx =>
      Bridge.live_step (hs.live r) (hs.faithful r).clients (htimely x hx) hx,
    forall_of_step (I := fun _ x => ∀ i, Kept (x.client i)) hs.kept h hkept,
    exclusive_step hs.exclusive ha.oneAtATime h⟩

theorem inv_of_run {requestData : ∀ r, ι r → Data r} {response : ∀ r, ι r → Resp r} {request : ∀ r, Req r}
    {data : ∀ r, Data r} {as : List (Action ι Req Resp Data)}
    (hr : run (step c) (initial requestData response request data) as = some t)
    (hc : Along (step c) (Regular place Serves) (initial requestData response request data) as) :
    Inv c place Serves t :=
  run_inv (fun _ _ _ hs ha h => inv_step hs ha h) (inv_initial requestData response request data) hc hr

/-! ### An executor that is not blocked becomes idle -/

/-- **Something can be done** for an executor on which a callback is running: there, or on an executor that it waits
for. -/
theorem exists_useful (hserves : ∀ r q, ∃ p, Serves r q p) (hs : Inv c place Serves s)
    (hacc : Acc (fun e' e => Waits place s e e') e)
    (hopen : ∀ e', Relation.ReflTransGen (Waits place s) e e' → OpenOn place s e') (hbusy : ¬ Idle place s e) :
    ∃ a t, Regular place Serves s a ∧ step c s a = some t ∧ Useful (s a.1) a.2 := by
  have hmoves : ∀ {r a x}, Bridge.step (c r) (s r) a = some x → Useful (s r) a → Honest (Serves r) (s r) a →
      OneAtATime place s ⟨r, a⟩ → ∃ a t, Regular place Serves s a ∧ step c s a = some t ∧ Useful (s a.1) a.2 := by
    intro r a x hx hu hh hone
    exact ⟨⟨r, a⟩, _, ⟨hone, patient_of_useful hu, hh⟩, stepEach_eq_some.mpr ⟨x, hx, rfl⟩, hu⟩
  induction hacc with
  | intro e _ ih =>
    rcases exists_of_not_idle hbusy with ⟨r, -, call, hcall, hin⟩ | ⟨r, i, inv, rfl, hrun⟩
    · obtain ⟨a, x, hx, hu, hh, henters⟩ :=
        Bridge.exists_useful_of_inCallback (hs.faithful r) (hs.live r) hcall hin
      exact hmoves hx hu hh (oneAtATime_of_not_enters henters)
    · rcases Option.eq_none_or_eq_some inv.responsePromise with hp | ⟨p, hp⟩
      · obtain ⟨a, x, hx, hu, hh⟩ := Bridge.exists_useful_of_open (hserves r) (hs.faithful r) (hs.live r) hrun hp
          (hopen _ .refl r i inv rfl hrun hp)
        by_cases hidle : Idle place s (place.server r)
        · exact hmoves hx hu hh (oneAtATime_of_useful hu hidle)
        · have hwaits : Waits place s (place.client r i) (place.server r) := ⟨r, i, inv, rfl, hrun, hp, rfl⟩
          exact ih _ hwaits (fun e' he => hopen e' (.head hwaits he)) hidle
      · obtain ⟨a, x, hx, hu, hh, henters⟩ :=
          Bridge.exists_useful_of_isSet (hs.faithful r) (hs.live r) hrun hp
        exact hmoves hx hu hh (oneAtATime_of_not_enters henters)

/-- A useful step makes no executor wait. -/
theorem waits_of_useful (h : step c s a = some t) (hu : Useful (s a.1) a.2) (hw : Waits place t e e') :
    Waits place s e e' := by
  obtain ⟨r, i, inv', hi, hrun, hp, hr⟩ := hw
  rcases running_of_step h hrun with ⟨request, response, rfl⟩ | ⟨inv, hs, -, -, hnone⟩
  · exact hu.elim
  · exact ⟨r, i, inv, hi, hs, hnone hp, hr⟩

theorem openOn_of_useful (h : step c s a = some t) (hu : Useful (s a.1) a.2) (ho : OpenOn place s e) :
    OpenOn place t e := by
  intro r i inv' hi hrun hp
  rcases running_of_step h hrun with ⟨request, response, rfl⟩ | ⟨inv, hs, hid, hphase, hnone⟩
  · exact hu.elim
  · have hopen := ho r i inv hi hs (hnone hp)
    rcases step_or_eq h r with heq | ⟨b, rfl, hstep⟩
    · rw [heq] at hrun ⊢
      obtain rfl := Option.some.inj (hs.symm.trans hrun)
      exact hopen
    · refine Bridge.open_of_useful hstep hu hs hid (hphase.imp_right ?_) hopen
      rintro ⟨heq, hbefore, hafter⟩
      cases heq
      exact ⟨rfl, hbefore, hafter⟩

theorem Unblocked.useful (h : step c s a = some t) (hu : Useful (s a.1) a.2) (hs : Unblocked place s e) :
    Unblocked place t e := by
  intro e' he
  obtain ⟨hopen, hacyclic⟩ := hs e' (Relation.ReflTransGen.mono (fun _ _ => waits_of_useful h hu) _ _ he)
  refine ⟨openOn_of_useful h hu hopen, fun hcycle => hacyclic ?_⟩
  exact Relation.TransGen.mono (fun _ _ => waits_of_useful h hu) _ _ hcycle

theorem requests_prefix_of_leads (hl : Leads (step c) (Regular place Serves) s u) (r : ρ) (i : ι r) :
    (s r).requests i <+: (u r).requests i := by
  refine hl.inv (I := fun x => (s r).requests i <+: (x r).requests i) (fun x a y hx _ h => ?_) (List.prefix_refl _)
  rcases step_or_eq h r with heq | ⟨b, rfl, hstep⟩
  · rwa [heq]
  · rw [Bridge.requests_step hstep i]
    exact hx.trans (List.prefix_append _ _)

/-- **An executor that is not blocked becomes idle.** -/
theorem leads_to_idle [Fintype ρ] [∀ r, Fintype (ι r)] (hserves : ∀ r q, ∃ p, Serves r q p)
    (hs : Inv c place Serves s) (he : Unblocked place s e) :
    ∃ u, Leads (step c) (Regular place Serves) s u ∧ Inv c place Serves u ∧ Idle place u e := by
  have hnext : ∀ x, Inv c place Serves x ∧ Unblocked place x e → ¬ Idle place x e →
      ∃ a y, Regular place Serves x a ∧ step c x a = some y ∧ (Inv c place Serves y ∧ Unblocked place y e) ∧
        ∑ r, (y r).work < ∑ r, (x r).work := by
    rintro x ⟨hx, hopen⟩ hbusy
    obtain ⟨a, y, hreg, hy, huseful⟩ := exists_useful hserves hx hopen.acc (fun e' he => (hopen e' he).1) hbusy
    refine ⟨a, y, hreg, hy, ⟨inv_step hx hreg hy, hopen.useful hy huseful⟩, ?_⟩
    exact sum_lt_of_step (w := fun r x => Bridge.State.work x) hy fun z hz => Bridge.work_of_useful hz huseful
  obtain ⟨u, hl, ⟨hu, -⟩, hidle⟩ := leads_of_measure hnext ⟨hs, he⟩
  exact ⟨u, hl, hu, hidle⟩

/-! ### A request that is blocked goes on waiting -/

/-- **A blocked request stays blocked** while no request is given up. -/
theorem stillBlocked_step (hu : Inv c place Serves u) (hs : StillBlocked place s u) (ha : Regular place Serves u a)
    (h : step c u a = some t) : StillBlocked place s t := by
  intro r i inv hblocked
  obtain ⟨inv', hrun, hid, hp, hwhy⟩ := hs r i inv hblocked
  rcases step_or_eq h r with heq | ⟨b, rfl, hstep⟩
  · rw [heq]
    exact ⟨inv', hrun, hid, hp, hwhy⟩
  have hreply : ∀ j call, b = .receiveResponse j → (u r).server.calls[j]? = some call → call.client ≠ i := by
    rintro j call rfl hcall rfl
    obtain ⟨call', o, p, response, _, _, hcall', hstage, -, -, -⟩ := Bridge.step_receiveResponse hstep
    obtain rfl := Option.some.inj (hcall.symm.trans hcall')
    rcases hwhy with hclosed | hserver
    · -- the response is for the request that is running, which is open then
      obtain ⟨inv₀, hrun₀, hhandle⟩ := Bridge.timely_of_kept (hu.faithful r) (hu.kept r) hstep call hcall
      obtain rfl := Option.some.inj (hrun.symm.trans hrun₀)
      have hhistory := (hu.faithful r).linked.server.history j call hcall
      have hav := hhistory.available_of_answered (hhistory.answered_mem (.inr hstage))
      exact hclosed (.inl ⟨call, List.mem_of_getElem? hcall, rfl, hhandle.symm, hav⟩)
    · -- the executor for the response is kept by a request
      obtain ⟨r₂, i₂, inv₂, hplace, hblocked₂⟩ := exists_blocked hserver
      obtain ⟨inv₃, hrun₃, -⟩ := hs r₂ i₂ inv₂ hblocked₂
      refine (hu.exclusive r₂ i₂ inv₃ hrun₃).2 r hplace.symm call (List.mem_of_getElem? hcall) ?_
      rw [hstage]
      trivial
  have htimeout : b ≠ .client i .timeout := by
    rintro rfl
    exact ha.patient
  obtain ⟨inv'', hrun', hid', hp'⟩ := Bridge.waits_of_step hstep hrun hp htimeout hreply
  refine ⟨inv'', hrun', hid'.trans hid, hp', hwhy.imp_left fun hclosed hopen => hclosed ?_⟩
  refine Bridge.open_of_open hstep hrun hid'.symm (fun hin => ?_) hopen
  rcases Bridge.running_of_step hstep hrun' with ⟨request, response, rfl⟩ | ⟨inv₀, hold, -, hphase, -⟩
  · obtain ⟨-, x, hx, -⟩ := Bridge.step_client hstep
    obtain ⟨hnone, -⟩ := ClientProxy.step_serviceCallback hx
    rw [hrun] at hnone
    cases hnone
  · obtain rfl := Option.some.inj (hrun.symm.trans hold)
    rcases hphase with heq | ⟨-, hbefore, -⟩
    · exact heq.symm.trans hin
    · exact hbefore

/-- No blocked request is answered in time. -/
theorem Blocked.not_answeredInTime (hs : Inv c place Serves s) {r : ρ} {i : ι r}
    {inv : ClientProxy.Invocation (Resp r)} (hblocked : Blocked place s r i inv) :
    ¬ AnsweredInTime c place Serves s r i inv.id := by
  rintro ⟨u, hl, before, after, result, request, hreturned, -⟩
  obtain ⟨hu, hstill⟩ := hl.inv (I := fun x => Inv c place Serves x ∧ StillBlocked place s x)
    (fun x a y hx ha h => ⟨inv_step hx.1 ha h, stillBlocked_step hx.1 hx.2 ha h⟩) ⟨hs, stillBlocked_refl place s⟩
  obtain ⟨inv', hrun, hid, -⟩ := hstill r i inv hblocked
  exact ((hu.faithful r).settled i).not_running inv.id before after hreturned inv' hrun hid

theorem answeredInTime_of_idle (hs : Inv c place Serves s) (hl : Leads (step c) (Regular place Serves) s u)
    (hu : Inv c place Serves u) {r : ρ} {i : ι r} {k : RequestId} (hk : k < ((s r).client i).started)
    (hidle : Idle place u (place.client r i)) : AnsweredInTime c place Serves s r i k := by
  have hprefix := requests_prefix_of_leads hl r i
  have hlt : k < ((s r).requests i).length := (hs.faithful r).linked.requests i ▸ hk
  have hlt' : k < ((u r).client i).started :=
    (hu.faithful r).linked.requests i ▸ Nat.lt_of_lt_of_le hlt hprefix.length_le
  rcases hu.kept r i k hlt' with ⟨inv, hrun, -⟩ | ⟨before, after, result, hreturned, hreplied⟩
  · exact absurd hrun (hidle.not_running rfl)
  · obtain ⟨request, hrequest, hanswers | ⟨-, hnone⟩⟩ := (hu.faithful r).outcome hreturned
    · refine ⟨u, hl, before, after, result, request, hreturned, hreplied, ?_, hanswers⟩
      obtain ⟨rest, hrest⟩ := hprefix
      rwa [← hrest, List.getElem?_append_left hlt] at hrequest
    · exact absurd hreplied (hnone result)

/-- A request that is running is answered in time exactly when its executor is not blocked. -/
theorem Inv.answeredInTime_iff [Fintype ρ] [∀ r, Fintype (ι r)] (hserves : ∀ r q, ∃ p, Serves r q p)
    (hs : Inv c place Serves s) {r : ρ} {i : ι r} {inv : ClientProxy.Invocation (Resp r)}
    (hrun : ((s r).client i).running = some inv) :
    AnsweredInTime c place Serves s r i inv.id ↔ Unblocked place s (place.client r i) := by
  constructor
  · intro hanswered
    by_contra he
    obtain ⟨r', i', inv', hplace, hblocked⟩ := exists_blocked he
    have hsame := (hs.exclusive r i inv hrun).1 r' i' inv' hplace hblocked.running
    cases hsame
    obtain rfl := Option.some.inj (hrun.symm.trans hblocked.running)
    exact hblocked.not_answeredInTime hs hanswered
  · intro he
    obtain ⟨u, hl, hu, hidle⟩ := leads_to_idle hserves hs he
    exact answeredInTime_of_idle hs hl hu (((hs.faithful r).clients i).running_lt inv hrun) hidle

/-- **Services that share executors.**  In every state that a process reaches before the first timeout, a request that
is running can be answered without one exactly when the executors that it waits for do not wait in a circle, and every
request among them that waits is open to its answer. -/
theorem answered_in_time_iff [Fintype ρ] [∀ r, Fintype (ι r)] (c : ∀ r, Converters (Req r) (Resp r) (Data r))
    (place : Placement ρ ι ε) (Serves : ∀ r, Req r → Resp r → Prop) (hserves : ∀ r q, ∃ p, Serves r q p)
    (requestData : ∀ r, ι r → Data r) (response : ∀ r, ι r → Resp r) (request : ∀ r, Req r) (data : ∀ r, Data r)
    (as : List (Action ι Req Resp Data)) (t : State ι Req Resp Data)
    (hr : run (step c) (initial requestData response request data) as = some t)
    (hc : Along (step c) (Regular place Serves) (initial requestData response request data) as)
    (r : ρ) (i : ι r) (inv : ClientProxy.Invocation (Resp r)) (hrun : ((t r).client i).running = some inv) :
    AnsweredInTime c place Serves t r i inv.id ↔ Unblocked place t (place.client r i) :=
  (inv_of_run hr hc).answeredInTime_iff hserves hrun

/-- Two handles send requests to each other. -/
def opposite : Placement Bool (fun _ => Unit) Bool where
  client r _ := r
  server r := !r

/-- A request of each handle is running. -/
def oppositeRequests : List (Action (fun _ : Bool => Unit) (fun _ => ℕ) (fun _ => ℕ) (fun _ => ℕ)) :=
  [⟨false, .client () (.serviceCallback 7 0)⟩, ⟨true, .client () (.serviceCallback 8 0)⟩]

theorem answered_in_time_iff_opposite :
    ∃ t : State (fun _ : Bool => Unit) (fun _ => ℕ) (fun _ => ℕ) (fun _ => ℕ),
      run (step fun _ => oneField) (initial (fun _ _ => 0) (fun _ _ => 0) (fun _ => 0) (fun _ => 0)) oppositeRequests =
        some t ∧
      (AnsweredInTime (fun _ => oneField) opposite (fun _ q p => p = 10 * q) t false () 0 ↔
        Unblocked opposite t false) :=
  ⟨_, rfl, answered_in_time_iff (fun _ => oneField) opposite (fun _ q p => p = 10 * q) (fun _ q => ⟨10 * q, rfl⟩)
    (fun _ _ => 0) (fun _ _ => 0) (fun _ => 0) (fun _ => 0) oppositeRequests _ rfl (by decide) false () _ rfl⟩

theorem step_serviceCallback {r : ρ} {i : ι r} {request : Req r} {response : Resp r}
    (h : step c s ⟨r, .client i (.serviceCallback request response)⟩ = some t) :
    (∀ r', (t r').server = (s r').server) ∧
      (∃ inv, ((t r).client i).running = some inv ∧ inv.phase = .inCallback ∧ inv.responsePromise = none) ∧
      ∀ r' i', (⟨r', i'⟩ : Σ r, ι r) ≠ ⟨r, i⟩ → (t r').client i' = (s r').client i' := by
  obtain ⟨x, hx, rfl⟩ := stepEach_eq_some.mp h
  obtain ⟨-, u, hu, rfl⟩ := Bridge.step_client hx
  obtain ⟨-, rfl⟩ := ClientProxy.step_serviceCallback hu
  refine ⟨fun r' => ?_, ⟨⟨((s r).client i).started, .inCallback, none, response⟩, ?_, rfl, rfl⟩, fun r' i' hne => ?_⟩
  · rcases eq_or_ne r' r with rfl | hne
    · rw [Function.update_self]
    · rw [Function.update_of_ne hne]
  · simp [ClientProxy.serviceCallback]
  · rcases eq_or_ne r' r with rfl | hr
    · have hi : i' ≠ i := fun hi => hne (hi ▸ rfl)
      rw [Function.update_self]
      exact Function.update_of_ne hi _ _
    · rw [Function.update_of_ne hr]

theorem exists_serviceCallback (hs : Inv c place Serves s) {r : ρ} {i : ι r}
    (hidle : Idle place s (place.client r i)) (request : Req r) (response : Resp r) :
    Regular place Serves s ⟨r, .client i (.serviceCallback request response)⟩ ∧
      ∃ t, step c s ⟨r, .client i (.serviceCallback request response)⟩ = some t := by
  have hclient : ClientProxy.step (c r) ((s r).client i) (.serviceCallback request response) =
      some (ClientProxy.serviceCallback (c r) ((s r).client i) request response) := by
    simp [ClientProxy.step, (hs.live r).defined i, hidle.client r i rfl]
  have hbridge := Bridge.step_of_allows (s := s r) (a := .serviceCallback request response) trivial hclient
  exact ⟨⟨hidle, trivial, trivial⟩, _, stepEach_eq_some.mpr ⟨_, hbridge, rfl⟩⟩

theorem Entering.serviceCallback {r : ρ} {i : ι r} {request : Req r} {response : Resp r} (hs : Entering place s)
    (hcycle : Relation.TransGen (Routed place) (place.server r) (place.server r))
    (h : step c s ⟨r, .client i (.serviceCallback request response)⟩ = some t) : Entering place t := by
  obtain ⟨hserver, ⟨inv, hentered, hphase, hp⟩, hothers⟩ := step_serviceCallback h
  refine ⟨fun r' => (hserver r').symm ▸ hs.calls r', fun r' i' inv' hrun => ?_⟩
  by_cases heq : (⟨r', i'⟩ : Σ r, ι r) = ⟨r, i⟩
  · cases heq
    obtain rfl := Option.some.inj (hentered.symm.trans hrun)
    exact ⟨hphase, hp, hcycle⟩
  · rw [hothers r' i' heq] at hrun
    exact hs.running r' i' inv' hrun

theorem not_idle_of_serviceCallback (place : Placement ρ ι ε) {r : ρ} {i : ι r} {request : Req r} {response : Resp r}
    (h : step c s ⟨r, .client i (.serviceCallback request response)⟩ = some t) :
    ¬ Idle place t (place.client r i) ∧ ∀ e, ¬ Idle place s e → ¬ Idle place t e := by
  obtain ⟨hserver, ⟨inv, hentered, -⟩, hothers⟩ := step_serviceCallback h
  have hnew : ¬ Idle place t (place.client r i) := fun hidle => hidle.not_running rfl hentered
  refine ⟨hnew, fun e he hidle => ?_⟩
  rcases exists_of_not_idle he with ⟨r', hr', call, hcall, hin⟩ | ⟨r', i', inv', rfl, hrun⟩
  · exact hidle.server r' hr' call ((hserver r').symm ▸ hcall) hin
  · by_cases heq : (⟨r', i'⟩ : Σ r, ι r) = ⟨r, i⟩
    · cases heq
      exact hnew hidle
    · exact hidle.not_running rfl ((hothers r' i' heq).symm ▸ hrun)

/-- The executors of circles of routes can all come to wait. -/
theorem exists_entering (c : ∀ r, Converters (Req r) (Resp r) (Data r)) (place : Placement ρ ι ε)
    (Serves : ∀ r, Req r → Resp r → Prop) (requestData : ∀ r, ι r → Data r) (response : ∀ r, ι r → Resp r)
    (request : ∀ r, Req r) (data : ∀ r, Data r) (E : Finset ε) (hE : ∀ e ∈ E, Relation.TransGen (Routed place) e e) :
    ∃ t, Leads (step c) (Regular place Serves) (initial requestData response request data) t ∧ Inv c place Serves t ∧
      Entering place t ∧ ∀ e ∈ E, ¬ Idle place t e := by
  classical
  induction E using Finset.induction_on with
  | empty =>
    exact ⟨_, .refl _, inv_initial requestData response request data,
      entering_initial place requestData response request data, by simp⟩
  | insert e E _ ih =>
    obtain ⟨t, hl, ht, hen, hbusy⟩ := ih fun e' he' => hE e' (Finset.mem_insert_of_mem he')
    by_cases hidle : Idle place t e
    · obtain ⟨e', ⟨r, i, rfl, rfl⟩, hback⟩ := Relation.TransGen.head'_iff.mp (hE e (Finset.mem_insert_self e E))
      obtain ⟨hreg, u, hstep⟩ := exists_serviceCallback ht hidle (request r) (response r i)
      obtain ⟨hnew, hkept⟩ := not_idle_of_serviceCallback place hstep
      refine ⟨u, hl.trans (.head hreg hstep (.refl u)), inv_step ht hreg hstep,
        hen.serviceCallback (.tail' hback ⟨r, i, rfl, rfl⟩) hstep, fun e' he' => ?_⟩
      rcases Finset.mem_insert.mp he' with rfl | he'
      · exact hnew
      · exact hkept e' (hbusy e' he')
    · refine ⟨t, hl, ht, hen, fun e' he' => ?_⟩
      rcases Finset.mem_insert.mp he' with rfl | he'
      · exact hidle
      · exact hbusy e' he'

/-- **Routes without a circle.**  No request is ever blocked exactly when no way over the routes leads back to the
executor that it starts from. -/
theorem never_blocked_iff [Fintype ρ] [∀ r, Fintype (ι r)] (c : ∀ r, Converters (Req r) (Resp r) (Data r))
    (place : Placement ρ ι ε) (Serves : ∀ r, Req r → Resp r → Prop) (hserves : ∀ r q, ∃ p, Serves r q p)
    (requestData : ∀ r, ι r → Data r) (response : ∀ r, ι r → Resp r) (request : ∀ r, Req r) (data : ∀ r, Data r) :
    NeverBlocked c place Serves (initial requestData response request data) ↔
      ∀ e, ¬ Relation.TransGen (Routed place) e e := by
  constructor
  · intro hanswered e hcycle
    have hfinite : {e | Relation.TransGen (Routed place) e e}.Finite := by
      refine (Set.finite_range place.server).subset fun e he => ?_
      obtain ⟨_, -, r, -, -, hr⟩ := Relation.TransGen.tail'_iff.mp he
      exact ⟨r, hr⟩
    obtain ⟨t, ⟨as, hc, hr⟩, ht, hen, hbusy⟩ := exists_entering c place Serves requestData response request data
      hfinite.toFinset fun e he => hfinite.mem_toFinset.mp he
    have hwaiting : ∀ e, Relation.TransGen (Routed place) e e → ¬ Idle place t e := fun e he =>
      hbusy e (hfinite.mem_toFinset.mpr he)
    obtain ⟨e', ⟨r, i, inv, rfl, hrun, -, -⟩, -⟩ := hen.waits (hwaiting e hcycle)
    exact hen.not_unblocked hwaiting hcycle
      ((ht.answeredInTime_iff hserves hrun).mp (hanswered as t hr hc hen.openOn r i inv hrun))
  · intro hacyclic as t hr hc hopen r i inv hrun
    refine ((inv_of_run hr hc).answeredInTime_iff hserves hrun).mpr fun e _ => ⟨hopen e, fun hcycle => ?_⟩
    exact hacyclic e (Relation.TransGen.mono (fun _ _ => Waits.routed) _ _ hcycle)

/-- A handle sends requests to a second one, which sends requests to a third. -/
def chain : Placement Bool (fun _ => Unit) (Fin 3) where
  client r _ := if r then 1 else 0
  server r := if r then 2 else 1

theorem never_blocked_iff_chain :
    NeverBlocked (fun _ => oneField) chain (fun _ q p => p = 10 * q)
        (initial (fun _ _ => 0) (fun _ _ => 0) (fun _ => 0) (fun _ => 0)) ∧
      ¬ NeverBlocked (fun _ => oneField) opposite (fun _ q p => p = 10 * q)
        (initial (fun _ _ => 0) (fun _ _ => 0) (fun _ => 0) (fun _ => 0)) := by
  constructor
  · have hup : ∀ e e', Routed chain e e' → e.val < e'.val := by
      rintro _ _ ⟨r, i, rfl, rfl⟩
      revert r i
      decide
    exact (never_blocked_iff (fun _ => oneField) chain (fun _ q p => p = 10 * q) (fun _ q => ⟨10 * q, rfl⟩)
      (fun _ _ => 0) (fun _ _ => 0) (fun _ => 0) (fun _ => 0)).mpr (acyclic_of_rank hup)
  · intro hnever
    have hacyclic := (never_blocked_iff (fun _ => oneField) opposite (fun _ q p => p = 10 * q)
      (fun _ q => ⟨10 * q, rfl⟩) (fun _ _ => 0) (fun _ _ => 0) (fun _ => 0) (fun _ => 0)).mp hnever
    exact hacyclic false (.head ⟨false, (), rfl, rfl⟩ (.single ⟨true, (), rfl, rfl⟩))

end Process

end Ros2Sh.Service.Executors
