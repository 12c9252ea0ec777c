import Ros2Sh.Service.Ownership

/-!
# Which request a `ServerProxy` sends, and which reply it delivers

The events of one call (`State.history`) grow with its stage in one way only: `History` lists the shapes they can have,
with the content sent for the call and the data delivered for it.  The content of a request object between
`request_to_ros2` and `async_send_request`, and that of a response object between `response_to_xtype` and
`receive_response`, is what the call itself wrote (`Contents`): no other call holds the object (`Owned`).

`inv_step` preserves all of it, whatever call the step belongs to, and `routed_of_run` reads the routing off.
-/

namespace Ros2Sh.Service.ServerProxy

open Ros2Sh.Lib

variable {Req Resp Data Client Handle : Type}

/-- The call an event belongs to. -/
def Event.call : Event Req Resp Data Client Handle → ℕ
  | .sent i _ => i
  | .answered i _ => i
  | .receiveResponse i _ _ _ => i

/-- The events of the call `i`, newest first. -/
def State.history (s : State Req Resp Data Client Handle) (i : ℕ) : List (Event Req Resp Data Client Handle) :=
  s.trace.filter (·.call = i)

/-- The events of a call in a stage: the content sent is a translation of its request, and what is delivered is a
translation of the response rclcpp passed for it, to its own client and with its own handle. -/
inductive History (c : Converters Req Resp Data) (i : ℕ) (args : Arguments Data Client Handle) :
    Stage Resp → List (Event Req Resp Data Client Handle) → Prop
  | refused : args.available = false → History c i args .refused []
  | popped {o} : args.available = true → History c i args (.popped o) []
  | translated {o} : History c i args (.popped o) [] → History c i args (.translated o) []
  | sent {o} (prior : Req) : History c i args (.translated o) [] →
      History c i args (.sent o) [.sent i (c.requestToRos2 args.request prior)]
  | answered {o p response h} : History c i args (.sent o) h →
      History c i args (.answered o p response) (.answered i response :: h)
  | responseTranslated {o p response h} : History c i args (.answered o p response) h →
      History c i args (.responseTranslated o p response) h
  | delivering {o p response h} (prior : Data) : History c i args (.responseTranslated o p response) h →
      History c i args (.delivering o p)
        (.receiveResponse i args.client args.handle (c.responseToXtype response prior) :: h)
  | done {o p h} : History c i args (.delivering o p) h → History c i args .done h
  | threw {stage h} : History c i args stage h → History c i args .threw h

/-- The number of `receive_response` issued for the call `i`. -/
def deliveries (i : ℕ) (trace : List (Event Req Resp Data Client Handle)) : ℕ :=
  (trace.filter fun e => match e with
    | .receiveResponse j _ _ _ => j = i
    | _ => false).length

/-! ### What the shape of a history says -/

section History

variable {c : Converters Req Resp Data} {i j : ℕ} {args : Arguments Data Client Handle} {stage : Stage Resp}
  {h : List (Event Req Resp Data Client Handle)}

theorem History.answered_mem (hh : History c i args stage h) {o p : ℕ} {response : Resp}
    (hs : stage = .answered o p response ∨ stage = .responseTranslated o p response) :
    Event.answered i response ∈ h := by
  induction hh with
  | answered _ _ =>
    rcases hs with hs | hs
    · cases hs; exact List.mem_cons_self ..
    · cases hs
  | responseTranslated _ ih =>
    rcases hs with hs | hs
    · cases hs
    · cases hs; exact ih (Or.inl rfl)
  | _ => rcases hs with hs | hs <;> cases hs

theorem History.eq_nil (hh : History c i args stage h) {o : ℕ} (hs : stage = .popped o ∨ stage = .translated o) :
    h = [] := by
  cases hh with
  | popped _ => rfl
  | translated _ => rfl
  | refused _ => rfl
  | _ => rcases hs with hs | hs <;> cases hs

theorem History.available_of_translated {o : ℕ} (hh : History c i args (.translated o : Stage Resp) h) :
    args.available = true := by
  cases hh with
  | translated hp =>
    cases hp with
    | popped ha => exact ha

theorem History.sent_mem (hh : History c i args stage h) {content : Req} (hm : Event.sent j content ∈ h) :
    args.available = true ∧ ∃ prior, content = c.requestToRos2 args.request prior := by
  induction hh with
  | refused _ => simp at hm
  | popped _ => simp at hm
  | translated _ ih => exact ih hm
  | sent prior ht _ =>
    obtain ⟨-, rfl⟩ : j = i ∧ content = _ := by simpa using hm
    exact ⟨ht.available_of_translated, prior, rfl⟩
  | answered _ ih => exact ih (by simpa using hm)
  | responseTranslated _ ih => exact ih hm
  | delivering _ _ ih => exact ih (by simpa using hm)
  | done _ ih => exact ih hm
  | threw _ ih => exact ih hm

/-- A history of a call that was answered contains what was sent for it, so the service was available. -/
theorem History.available_of_answered (hh : History c i args stage h) {response : Resp}
    (hm : Event.answered j response ∈ h) : args.available = true := by
  induction hh with
  | refused _ => simp at hm
  | popped ha => exact ha
  | translated _ ih => exact ih hm
  | sent _ _ _ => simp at hm
  | answered hs _ =>
    cases hs with
    | sent prior ht => exact ht.available_of_translated
  | responseTranslated _ ih => exact ih hm
  | delivering _ _ ih => exact ih (by simpa using hm)
  | done _ ih => exact ih hm
  | threw _ ih => exact ih hm

theorem History.receiveResponse_mem (hh : History c i args stage h) {client : Client} {handle : Handle} {data : Data}
    (hm : Event.receiveResponse j client handle data ∈ h) :
    client = args.client ∧ handle = args.handle ∧
      ∃ response prior, Event.answered i response ∈ h ∧ data = c.responseToXtype response prior := by
  induction hh with
  | refused _ => simp at hm
  | popped _ => simp at hm
  | translated _ ih => exact ih hm
  | sent _ _ _ => simp at hm
  | answered _ ih =>
    obtain ⟨h1, h2, response, prior, hr, hd⟩ := ih (by simpa using hm)
    exact ⟨h1, h2, response, prior, List.mem_cons_of_mem _ hr, hd⟩
  | responseTranslated _ ih => exact ih hm
  | delivering prior ht ih =>
    rcases List.mem_cons.mp hm with he | hm
    · obtain ⟨-, rfl, rfl, rfl⟩ := Event.receiveResponse.inj he
      exact ⟨rfl, rfl, _, prior, List.mem_cons_of_mem _ (ht.answered_mem (Or.inr rfl)), rfl⟩
    · obtain ⟨h1, h2, response, prior, hr, hd⟩ := ih hm
      exact ⟨h1, h2, response, prior, List.mem_cons_of_mem _ hr, hd⟩
  | done _ ih => exact ih hm
  | threw _ ih => exact ih hm

/-- How many replies a call in this stage can have been delivered. -/
def Stage.maxDeliveries : Stage Resp → ℕ
  | .delivering _ _ | .done | .threw => 1
  | _ => 0

theorem History.deliveries_le (hh : History c i args stage h) : deliveries i h ≤ stage.maxDeliveries := by
  have hone : ∀ st : Stage Resp, st.maxDeliveries ≤ 1 := by
    intro st
    cases st <;> simp [Stage.maxDeliveries]
  induction hh with
  | refused _ => simp [deliveries]
  | popped _ => simp [deliveries]
  | translated _ _ => simp [deliveries]
  | sent _ _ _ => simp [deliveries]
  | answered _ ih => simpa [deliveries, Stage.maxDeliveries] using ih
  | responseTranslated _ ih => simpa [deliveries, Stage.maxDeliveries] using ih
  | delivering _ _ ih => simpa [deliveries, Stage.maxDeliveries] using ih
  | done _ ih => exact ih
  | threw _ ih => exact Nat.le_trans ih (hone _)

end History

/-! ### The contents of the objects, and the invariant -/

/-- Between a translation and its use, the object holds what the translation wrote. -/
structure Contents (c : Converters Req Resp Data) (s : State Req Resp Data Client Handle) : Prop where
  request : ∀ (i : ℕ) (call : Call Resp Data Client Handle) (o : ℕ), s.calls[i]? = some call →
    call.stage = .translated o → ∃ prior, s.requestObject o = c.requestToRos2 call.request prior
  response : ∀ (i : ℕ) (call : Call Resp Data Client Handle) (o p : ℕ) (response : Resp), s.calls[i]? = some call →
    call.stage = .responseTranslated o p response → ∃ prior, s.responseObject p = c.responseToXtype response prior

/-- The invariant of the proxy. -/
structure Inv (c : Converters Req Resp Data) (s : State Req Resp Data Client Handle) : Prop where
  owned : Owned s
  contents : Contents c s
  history : ∀ (i : ℕ) (call : Call Resp Data Client Handle), s.calls[i]? = some call →
    History c i call.toArguments call.stage (s.history i)
  history_new : ∀ i, s.calls.length ≤ i → s.history i = []

section Inv

variable {c : Converters Req Resp Data} {s t : State Req Resp Data Client Handle} {i j : ℕ}
  {call call' : Call Resp Data Client Handle} {stage : Stage Resp}

theorem history_cons (e : Event Req Resp Data Client Handle) (s : State Req Resp Data Client Handle) (j : ℕ) :
    ({ s with trace := e :: s.trace } : State Req Resp Data Client Handle).history j =
      if e.call = j then e :: s.history j else s.history j := by
  simp [State.history, List.filter_cons]

theorem getElem?_set_cases {l : List (Call Resp Data Client Handle)} (h : (l.set i call)[j]? = some call') :
    (j = i ∧ call' = call) ∨ (j ≠ i ∧ l[j]? = some call') := by
  by_cases hij : j = i
  · subst hij
    left
    rw [List.getElem?_set_self'] at h
    obtain ⟨_, _, hcall⟩ := Option.map_eq_some_iff.mp h
    exact ⟨rfl, hcall.symm⟩
  · right
    rw [List.getElem?_set_ne (Ne.symm hij)] at h
    exact ⟨hij, h⟩

theorem getElem?_append_single_cases {l : List (Call Resp Data Client Handle)}
    (h : (l ++ [call])[j]? = some call') : l[j]? = some call' ∨ (j = l.length ∧ call' = call) := by
  rw [List.getElem?_append] at h
  split at h
  · exact Or.inl h
  · rename_i hj
    have hlen := (List.getElem?_eq_some_iff.mp h).1
    simp only [List.length_cons, List.length_nil] at hlen
    have hj' : j = l.length := by omega
    subst hj'
    simp only [Nat.sub_self, List.getElem?_cons_zero, Option.some.injEq] at h
    exact Or.inr ⟨rfl, h.symm⟩

/-- A call that enters another stage, not by a translation, leaves the contents of the objects alone. -/
theorem Contents.moveTo (hs : Contents c s) (i : ℕ) (call : Call Resp Data Client Handle) {stage : Stage Resp}
    (hreq : ∀ o, stage ≠ .translated o)
    (hres : ∀ o p response, stage ≠ .responseTranslated o p response) :
    Contents c (s.moveTo i call stage) where
  request j call' o hj ho := by
    rcases getElem?_set_cases hj with ⟨-, rfl⟩ | ⟨-, hj⟩
    · exact absurd ho (hreq o)
    · exact hs.request j call' o hj ho
  response j call' o p response hj ho := by
    rcases getElem?_set_cases hj with ⟨-, rfl⟩ | ⟨-, hj⟩
    · exact absurd ho (hres o p response)
    · exact hs.response j call' o p response hj ho

theorem Inv.contents_requestToRos2 (hs : Inv c s) {o : ℕ} (hi : s.calls[i]? = some call)
    (ho : call.stage = .popped o) :
    Contents c { s.moveTo i call (.translated o) with
      requestObject := Function.update s.requestObject o (c.requestToRos2 call.request (s.requestObject o)) } where
  request j call' o' hj ho' := by
    rcases getElem?_set_cases hj with ⟨-, rfl⟩ | ⟨hij, hold⟩
    · obtain rfl : o = o' := by simpa using ho'
      exact ⟨s.requestObject o, by simp⟩
    · have hne : o' ≠ o := by
        intro he
        subst he
        exact hs.owned.request_exclusive hi hold (Ne.symm hij) (o := o') (by simp [ho]) (by simp [ho'])
      obtain ⟨prior, hp⟩ := hs.contents.request j call' o' hold ho'
      exact ⟨prior, by simpa [Function.update_of_ne hne] using hp⟩
  response j call' o' p response hj ho' := by
    rcases getElem?_set_cases hj with ⟨-, rfl⟩ | ⟨-, hj⟩
    · simp at ho'
    · exact hs.contents.response j call' o' p response hj ho'

theorem Inv.contents_responseToXtype (hs : Inv c s) {o p : ℕ} {response : Resp} (hi : s.calls[i]? = some call)
    (ho : call.stage = .answered o p response) :
    Contents c { s.moveTo i call (.responseTranslated o p response) with
      responseObject := Function.update s.responseObject p (c.responseToXtype response (s.responseObject p)) } where
  request j call' o' hj ho' := by
    rcases getElem?_set_cases hj with ⟨-, rfl⟩ | ⟨-, hj⟩
    · simp at ho'
    · exact hs.contents.request j call' o' hj ho'
  response j call' o' p' response' hj ho' := by
    rcases getElem?_set_cases hj with ⟨-, rfl⟩ | ⟨hij, hold⟩
    · obtain ⟨rfl, rfl, rfl⟩ : o = o' ∧ p = p' ∧ response = response' := by simpa using ho'
      exact ⟨s.responseObject p, by simp⟩
    · have hne : p' ≠ p := by
        intro he
        subst he
        exact hs.owned.response_exclusive hi hold (Ne.symm hij) (p := p') (by simp [ho]) (by simp [ho'])
      obtain ⟨prior, hp⟩ := hs.contents.response j call' o' p' response' hold ho'
      exact ⟨prior, by simpa [Function.update_of_ne hne] using hp⟩

/-- A call moves, and the trace grows by its own events only. -/
theorem Inv.history_moveTo (hs : Inv c s) (hi : s.calls[i]? = some call)
    {hist : ℕ → List (Event Req Resp Data Client Handle)} (hne : ∀ j, j ≠ i → hist j = s.history j)
    (hh : History c i call.toArguments stage (hist i)) :
    (∀ (j : ℕ) (call' : Call Resp Data Client Handle), (s.moveTo i call stage).calls[j]? = some call' →
      History c j call'.toArguments call'.stage (hist j)) ∧
    ∀ j, (s.moveTo i call stage).calls.length ≤ j → hist j = [] := by
  constructor
  · intro j call' hj
    rcases getElem?_set_cases hj with ⟨rfl, rfl⟩ | ⟨hij, hold⟩
    · exact hh
    · rw [hne j hij]
      exact hs.history j call' hold
  · intro j hj
    have hlt := (List.getElem?_eq_some_iff.mp hi).1
    simp only [State.moveTo, List.length_set] at hj
    rw [hne j (by omega)]
    exact hs.history_new j hj

theorem Inv.history_silent (hs : Inv c s) (stage : Stage Resp) (hi : s.calls[i]? = some call)
    (hh : History c i call.toArguments stage (s.history i)) :
    (∀ (j : ℕ) (call' : Call Resp Data Client Handle), (s.moveTo i call stage).calls[j]? = some call' →
      History c j call'.toArguments call'.stage (s.history j)) ∧
    ∀ j, (s.moveTo i call stage).calls.length ≤ j → s.history j = [] :=
  hs.history_moveTo hi (fun _ _ => rfl) hh

theorem Inv.history_event (hs : Inv c s) (stage : Stage Resp) (hi : s.calls[i]? = some call)
    {e : Event Req Resp Data Client Handle} (he : e.call = i)
    (hh : History c i call.toArguments stage (e :: s.history i)) :
    (∀ (j : ℕ) (call' : Call Resp Data Client Handle), (s.moveTo i call stage).calls[j]? = some call' →
      History c j call'.toArguments call'.stage
        (({ s with trace := e :: s.trace } : State Req Resp Data Client Handle).history j)) ∧
    ∀ j, (s.moveTo i call stage).calls.length ≤ j →
      ({ s with trace := e :: s.trace } : State Req Resp Data Client Handle).history j = [] := by
  refine hs.history_moveTo hi (fun j hj => ?_) ?_
  · rw [history_cons, if_neg (by rw [he]; exact Ne.symm hj)]
  · rw [history_cons, if_pos he]
    exact hh

theorem Inv.newCall (hs : Inv c s) {pool : Pool} {args : Arguments Data Client Handle}
    (howned : Owned { s with requestPool := pool, calls := s.calls ++ [⟨args, stage⟩] })
    (hreq : ∀ o, stage ≠ .translated o) (hres : ∀ o p response, stage ≠ .responseTranslated o p response)
    (hh : History c s.calls.length args stage ([] : List (Event Req Resp Data Client Handle))) :
    Inv c { s with requestPool := pool, calls := s.calls ++ [⟨args, stage⟩] } where
  owned := howned
  contents := by
    constructor
    · intro j call' o hj ho
      rcases getElem?_append_single_cases hj with hold | ⟨-, rfl⟩
      · exact hs.contents.request j call' o hold ho
      · exact absurd ho (hreq o)
    · intro j call' o p response hj ho
      rcases getElem?_append_single_cases hj with hold | ⟨-, rfl⟩
      · exact hs.contents.response j call' o p response hold ho
      · exact absurd ho (hres o p response)
  history := by
    intro j call' hj
    rcases getElem?_append_single_cases hj with hold | ⟨rfl, rfl⟩
    · exact hs.history j call' hold
    · have hnil : s.history s.calls.length = [] := hs.history_new _ (Nat.le_refl _)
      show History c _ args stage (s.history s.calls.length)
      rw [hnil]
      exact hh
  history_new := by
    intro j hj
    simp only [List.length_append, List.length_cons, List.length_nil] at hj
    exact hs.history_new j (by omega)

theorem inv_initial (request : Req) (response : Data) :
    Inv c (initial request response : State Req Resp Data Client Handle) where
  owned := owned_initial request response
  contents := ⟨by simp [initial], by simp [initial]⟩
  history := by simp [initial]
  history_new := by simp [initial, State.history]

/-- **Every step of every call preserves the invariant.** -/
theorem inv_step {a : Action Resp Data Client Handle} (hs : Inv c s) (h : step c s a = some t) : Inv c t := by
  have howned : Owned t := owned_step hs.owned h
  cases a with
  | callService args o =>
    rcases step_callService h with ⟨ha, rfl⟩ | ⟨ha, pool, -, rfl⟩
    · exact hs.newCall howned (by simp) (by simp) (.refused ha)
    · exact hs.newCall howned (by simp) (by simp) (.popped ha)
  | requestToRos2 i =>
    obtain ⟨call, o, hi, ho, rfl⟩ := step_requestToRos2 h
    have hcall := hs.history i call hi
    have hnil : s.history i = [] := hcall.eq_nil (Or.inl ho)
    rw [ho, hnil] at hcall
    obtain ⟨hh, hnew⟩ := hs.history_silent (.translated o) hi (by rw [hnil]; exact .translated hcall)
    exact ⟨howned, hs.contents_requestToRos2 hi ho, hh, hnew⟩
  | asyncSendRequest i =>
    obtain ⟨call, o, hi, ho, rfl⟩ := step_asyncSendRequest h
    have hcall := hs.history i call hi
    have hnil : s.history i = [] := hcall.eq_nil (Or.inr ho)
    rw [ho, hnil] at hcall
    obtain ⟨prior, hprior⟩ := hs.contents.request i call o hi ho
    obtain ⟨hh, hnew⟩ := hs.history_event (.sent o) hi (e := .sent i (s.requestObject o)) rfl
      (by rw [hnil, hprior]; exact .sent prior hcall)
    have hcont : Contents c (s.moveTo i call (.sent o)) :=
      hs.contents.moveTo i call (by simp) (by simp)
    exact ⟨howned, ⟨hcont.request, hcont.response⟩, hh, hnew⟩
  | waitForResponse i response p =>
    obtain ⟨call, o, pool, hi, ho, -, rfl⟩ := step_waitForResponse h
    have hcall := hs.history i call hi
    rw [ho] at hcall
    obtain ⟨hh, hnew⟩ := hs.history_event (.answered o p response) hi (e := .answered i response) rfl
      (.answered hcall)
    have hcont : Contents c (s.moveTo i call (.answered o p response)) :=
      hs.contents.moveTo i call (by simp) (by simp)
    exact ⟨howned, ⟨hcont.request, hcont.response⟩, hh, hnew⟩
  | responseToXtype i =>
    obtain ⟨call, o, p, response, hi, ho, rfl⟩ := step_responseToXtype h
    have hcall := hs.history i call hi
    rw [ho] at hcall
    obtain ⟨hh, hnew⟩ := hs.history_silent _ hi (.responseTranslated hcall)
    exact ⟨howned, hs.contents_responseToXtype hi ho, hh, hnew⟩
  | receiveResponse i =>
    obtain ⟨call, o, p, response, hi, ho, rfl⟩ := step_receiveResponse h
    have hcall := hs.history i call hi
    rw [ho] at hcall
    obtain ⟨prior, hprior⟩ := hs.contents.response i call o p response hi ho
    obtain ⟨hh, hnew⟩ := hs.history_event (.delivering o p) hi
      (e := .receiveResponse i call.client call.handle (s.responseObject p)) rfl
      (by rw [hprior]; exact .delivering prior hcall)
    have hcont : Contents c (s.moveTo i call (.delivering o p)) :=
      hs.contents.moveTo i call (by simp) (by simp)
    exact ⟨howned, ⟨hcont.request, hcont.response⟩, hh, hnew⟩
  | recycle i =>
    obtain ⟨call, o, p, hi, ho, rfl⟩ := step_recycle h
    have hcall := hs.history i call hi
    rw [ho] at hcall
    obtain ⟨hh, hnew⟩ := hs.history_silent _ hi (.done hcall)
    have hcont : Contents c (s.moveTo i call .done) :=
      hs.contents.moveTo i call (by simp) (by simp)
    exact ⟨howned, ⟨hcont.request, hcont.response⟩, hh, hnew⟩
  | throws i =>
    obtain ⟨call, hi, rfl⟩ := step_throws h
    obtain ⟨hh, hnew⟩ := hs.history_silent _ hi (.threw (hs.history i call hi))
    have hcont : Contents c (s.moveTo i call .threw) :=
      hs.contents.moveTo i call (by simp) (by simp)
    exact ⟨howned, ⟨hcont.request, hcont.response⟩, hh, hnew⟩

theorem inv_of_run {request : Req} {response : Data} {as : List (Action Resp Data Client Handle)}
    (hr : run (step c) (initial request response) as = some t) : Inv c t :=
  run_inv_of_step (fun _ _ _ hs h => inv_step hs h) (inv_initial request response) hr

end Inv

/-! ### Request and reply of every call -/

/-- The arguments of the `call_service` invocations, in order. -/
def callArguments (as : List (Action Resp Data Client Handle)) : List (Arguments Data Client Handle) :=
  as.filterMap fun a => match a with
    | .callService args _ => some args
    | _ => none

/-- What a run sends and delivers.  The call `i` has the arguments of the `i`-th `call_service`. -/
structure Routed (c : Converters Req Resp Data) (as : List (Action Resp Data Client Handle))
    (t : State Req Resp Data Client Handle) : Prop where
  arguments : t.calls.map Call.toArguments = callArguments as
  /-- What is sent for a call is the translation of its request, whatever the request object held before. -/
  sent : ∀ i content, .sent i content ∈ t.trace → ∃ call, t.calls[i]? = some call ∧ call.available = true ∧
    ∀ before, content = c.requestToRos2 call.request before
  /-- What is delivered for a call goes to its client with its handle, and is the translation of the response rclcpp
  passed for it; nothing is delivered for a refused call. -/
  reply : ∀ i client handle data, .receiveResponse i client handle data ∈ t.trace → ∃ call response,
    t.calls[i]? = some call ∧ call.available = true ∧ client = call.client ∧ handle = call.handle ∧
      (∃ p, .waitForResponse i response p ∈ as) ∧ ∀ before, data = c.responseToXtype response before
  once : ∀ i, deliveries i t.trace ≤ 1

section Routed

variable {c : Converters Req Resp Data} {s t : State Req Resp Data Client Handle} {i : ℕ}

theorem mem_history {e : Event Req Resp Data Client Handle} : e ∈ t.history i ↔ e ∈ t.trace ∧ e.call = i := by
  simp [State.history]

theorem deliveries_history (i : ℕ) : deliveries i (t.history i) = deliveries i t.trace := by
  unfold deliveries State.history
  rw [List.filter_filter]
  congr 1
  refine List.filter_congr fun e _ => ?_
  cases e with
  | sent _ _ => simp
  | answered _ _ => simp
  | receiveResponse j _ _ _ => exact Bool.and_self (decide (j = i))

theorem Inv.call_of_mem (hs : Inv c t) {e : Event Req Resp Data Client Handle} (he : e ∈ t.trace) :
    ∃ call, t.calls[e.call]? = some call ∧ History c e.call call.toArguments call.stage (t.history e.call) := by
  have hmem : e ∈ t.history e.call := mem_history.mpr ⟨he, rfl⟩
  have hlt : e.call < t.calls.length := by
    by_contra hge
    rw [hs.history_new _ (Nat.le_of_not_lt hge)] at hmem
    simp at hmem
  exact ⟨_, List.getElem?_eq_getElem hlt, hs.history _ _ (List.getElem?_eq_getElem hlt)⟩

theorem arguments_moveTo {call : Call Resp Data Client Handle} {stage : Stage Resp} (hi : s.calls[i]? = some call) :
    (s.moveTo i call stage).calls.map Call.toArguments = s.calls.map Call.toArguments := by
  obtain ⟨hlt, rfl⟩ := List.getElem?_eq_some_iff.mp hi
  have hlt' : i < (s.calls.map Call.toArguments).length := by simpa using hlt
  have hself := List.set_getElem_self hlt'
  simpa [State.moveTo, List.map_set] using hself

theorem arguments_step {a : Action Resp Data Client Handle} (h : step c s a = some t) :
    t.calls.map Call.toArguments = s.calls.map Call.toArguments ++ callArguments [a] := by
  cases a with
  | callService args o =>
    rcases step_callService h with ⟨-, rfl⟩ | ⟨-, pool, -, rfl⟩ <;> simp [callArguments]
  | requestToRos2 i =>
    obtain ⟨call, o, hi, -, rfl⟩ := step_requestToRos2 h
    simpa [callArguments] using arguments_moveTo hi
  | asyncSendRequest i =>
    obtain ⟨call, o, hi, -, rfl⟩ := step_asyncSendRequest h
    simpa [callArguments] using arguments_moveTo hi
  | waitForResponse i response p =>
    obtain ⟨call, o, pool, hi, -, -, rfl⟩ := step_waitForResponse h
    simpa [callArguments] using arguments_moveTo hi
  | responseToXtype i =>
    obtain ⟨call, o, p, response, hi, -, rfl⟩ := step_responseToXtype h
    simpa [callArguments] using arguments_moveTo hi
  | receiveResponse i =>
    obtain ⟨call, o, p, response, hi, -, rfl⟩ := step_receiveResponse h
    simpa [callArguments] using arguments_moveTo hi
  | recycle i =>
    obtain ⟨call, o, p, hi, -, rfl⟩ := step_recycle h
    simpa [callArguments] using arguments_moveTo hi
  | throws i =>
    obtain ⟨call, hi, rfl⟩ := step_throws h
    simpa [callArguments] using arguments_moveTo hi

theorem arguments_of_run {as : List (Action Resp Data Client Handle)} (hr : run (step c) s as = some t) :
    t.calls.map Call.toArguments = s.calls.map Call.toArguments ++ callArguments as := by
  induction as generalizing s with
  | nil =>
    obtain rfl : s = t := by simpa using hr
    simp [callArguments]
  | cons a as ih =>
    obtain ⟨u, hu, ht⟩ := run_cons.mp hr
    rw [ih ht, arguments_step hu, List.append_assoc]
    simp only [callArguments, ← List.filterMap_append, List.singleton_append]

theorem answered_step {a : Action Resp Data Client Handle} {response : Resp} (h : step c s a = some t)
    (hm : .answered i response ∈ t.trace) :
    .answered i response ∈ s.trace ∨ ∃ p, a = .waitForResponse i response p := by
  cases a with
  | callService args o =>
    rcases step_callService h with ⟨-, rfl⟩ | ⟨-, pool, -, rfl⟩ <;> exact Or.inl hm
  | requestToRos2 j => obtain ⟨call, o, -, -, rfl⟩ := step_requestToRos2 h; exact Or.inl hm
  | asyncSendRequest j =>
    obtain ⟨call, o, -, -, rfl⟩ := step_asyncSendRequest h
    exact Or.inl (by simpa using hm)
  | waitForResponse j response' p =>
    obtain ⟨call, o, pool, -, -, -, rfl⟩ := step_waitForResponse h
    rcases List.mem_cons.mp hm with he | hm
    · obtain ⟨rfl, rfl⟩ := Event.answered.inj he
      exact Or.inr ⟨p, rfl⟩
    · exact Or.inl hm
  | responseToXtype j => obtain ⟨call, o, p, response', -, -, rfl⟩ := step_responseToXtype h; exact Or.inl hm
  | receiveResponse j =>
    obtain ⟨call, o, p, response', -, -, rfl⟩ := step_receiveResponse h
    exact Or.inl (by simpa using hm)
  | recycle j => obtain ⟨call, o, p, -, -, rfl⟩ := step_recycle h; exact Or.inl hm
  | throws j => obtain ⟨call, -, rfl⟩ := step_throws h; exact Or.inl hm

theorem answered_of_run {as : List (Action Resp Data Client Handle)} {response : Resp}
    (hr : run (step c) s as = some t) (hm : .answered i response ∈ t.trace) :
    .answered i response ∈ s.trace ∨ ∃ p, .waitForResponse i response p ∈ as := by
  induction as generalizing s with
  | nil =>
    obtain rfl : s = t := by simpa using hr
    exact Or.inl hm
  | cons a as ih =>
    obtain ⟨u, hu, ht⟩ := run_cons.mp hr
    rcases ih ht with hmu | ⟨p, hp⟩
    · rcases answered_step hu hmu with hms | ⟨p, rfl⟩
      · exact Or.inl hms
      · exact Or.inr ⟨p, List.mem_cons_self ..⟩
    · exact Or.inr ⟨p, List.mem_cons_of_mem _ hp⟩

/-- **Every reply is routed to the client of its own request**, at most once and never for a refused call, and what is
sent for a call is the translation of its own request, in every interleaving of the calls. -/
theorem routed_of_run (c : Converters Req Resp Data) (hreq : Overwrites c.requestToRos2)
    (hres : Overwrites c.responseToXtype) (request : Req) (response : Data)
    (as : List (Action Resp Data Client Handle)) (t : State Req Resp Data Client Handle)
    (hr : run (step c) (initial request response) as = some t) : Routed c as t where
  arguments := by simpa [initial] using arguments_of_run hr
  sent := by
    intro i content hm
    obtain ⟨call, hcall, hh⟩ := (inv_of_run hr).call_of_mem hm
    obtain ⟨ha, prior, rfl⟩ := hh.sent_mem (mem_history.mpr ⟨hm, rfl⟩)
    exact ⟨call, hcall, ha, fun before => hreq _ _ _⟩
  reply := by
    intro i client handle data hm
    obtain ⟨call, hcall, hh⟩ := (inv_of_run hr).call_of_mem hm
    obtain ⟨hc, hn, resp, prior, hmem, rfl⟩ := hh.receiveResponse_mem (mem_history.mpr ⟨hm, rfl⟩)
    have hans := answered_of_run hr (mem_history.mp hmem).1
    simp only [initial, List.not_mem_nil, false_or] at hans
    exact ⟨call, resp, hcall, hh.available_of_answered hmem, hc, hn, hans, fun before => hres _ _ _⟩
  once := by
    intro i
    rw [← deliveries_history]
    cases hcall : t.calls[i]? with
    | none =>
      rw [(inv_of_run hr).history_new i (List.getElem?_eq_none_iff.mp hcall)]
      simp [deliveries]
    | some call =>
      refine Nat.le_trans ((inv_of_run hr).history i call hcall).deliveries_le ?_
      cases call.stage <;> simp [Stage.maxDeliveries]

theorem routed_of_run_nested : ∃ t : State ℕ ℕ ℕ ℕ ℕ,
    run (step oneField) (initial 0 0) nestedCalls = some t ∧ Routed oneField nestedCalls t :=
  ⟨_, rfl, routed_of_run oneField (fun _ _ _ => rfl) (fun _ _ _ => rfl) 0 0 nestedCalls _ rfl⟩

end Routed

end Ros2Sh.Service.ServerProxy
