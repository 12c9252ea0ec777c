import Ros2Sh.Service.ServerProxy

/-!
# Who holds the pooled objects of a `ServerProxy`

`Owned s` says that the request pool with the request objects held by the calls, and the response pool with the
response objects, conserve the objects ever created (`Pool.Conserves`).  Every step preserves it (`owned_step`): an
object moves from the pool to the call that pops it, stays with the call from stage to stage, and moves back to the pool
or, after an exception, to the objects destroyed.  `ownership_of_run` reads the result off in the terms of the calls,
for runs without an exception.
-/

namespace Ros2Sh.Service.ServerProxy

open Ros2Sh.Lib

variable {Req Resp Data Client Handle : Type}

/-- Every request object is in the pool, held by one call or destroyed, and so is every response object. -/
structure Owned (s : State Req Resp Data Client Handle) : Prop where
  requests : s.requestPool.Conserves (heldBy Call.heldRequest s.calls ++ s.lostRequests)
  responses : s.responsePool.Conserves (heldBy Call.heldResponse s.calls ++ s.lostResponses)

section Owned

variable {c : Converters Req Resp Data} {s t : State Req Resp Data Client Handle} {i : ℕ}
  {call : Call Resp Data Client Handle}

theorem owned_initial (request : Req) (response : Data) :
    Owned (initial request response : State Req Resp Data Client Handle) :=
  ⟨Pool.conserves_ofDepth 1, Pool.conserves_ofDepth 1⟩

theorem Owned.moveTo (hs : Owned s) (stage : Stage Resp) (hi : s.calls[i]? = some call)
    (hreq : stage.request = call.stage.request) (hres : stage.response = call.stage.response) :
    Owned (s.moveTo i call stage) where
  requests := hs.requests.congr (List.Perm.append_right _
    (heldBy_set_same (f := Call.heldRequest) (b := { call with stage := stage }) hi hreq).symm)
  responses := hs.responses.congr (List.Perm.append_right _
    (heldBy_set_same (f := Call.heldResponse) (b := { call with stage := stage }) hi hres).symm)

theorem Owned.popRequest (hs : Owned s) {args : Arguments Data Client Handle} {o : ℕ} {pool : Pool}
    (hp : s.requestPool.pop o = some pool) :
    Owned { s with requestPool := pool, calls := s.calls ++ [⟨args, .popped o⟩] } where
  requests := by
    refine (hs.requests.pop hp).congr ?_
    rw [heldBy_append_single, List.append_assoc]
    exact List.perm_middle.symm
  responses := by
    rw [heldBy_append_single]
    simpa using hs.responses

theorem Owned.popResponse (hs : Owned s) {o p : ℕ} {pool : Pool} (response : Resp) (hi : s.calls[i]? = some call)
    (ho : call.stage = .sent o) (hp : s.responsePool.pop p = some pool) :
    Owned { s.moveTo i call (.answered o p response) with responsePool := pool } where
  requests := hs.requests.congr (List.Perm.append_right _
    (heldBy_set_same (f := Call.heldRequest) hi
      (by simp [ho])).symm)
  responses := by
    refine (hs.responses.pop hp).congr ?_
    rw [← List.cons_append]
    refine List.Perm.append_right _ ?_
    exact (heldBy_set_gain (f := Call.heldResponse) (x := [p]) hi
      (by simp [ho])).symm

theorem Owned.recycle (hs : Owned s) {o p : ℕ} (hi : s.calls[i]? = some call) (ho : call.stage = .delivering o p) :
    Owned { s.moveTo i call .done with
      requestPool := s.requestPool.recycle o, responsePool := s.responsePool.recycle p } where
  requests := by
    refine Pool.Conserves.recycle (hs.requests.congr ?_)
    rw [← List.cons_append]
    exact List.Perm.append_right _ (heldBy_set_drop (f := Call.heldRequest)
      (x := [o]) hi (by simp [ho]))
  responses := by
    refine Pool.Conserves.recycle (hs.responses.congr ?_)
    rw [← List.cons_append]
    exact List.Perm.append_right _ (heldBy_set_drop (f := Call.heldResponse)
      (x := [p]) hi (by simp [ho]))

theorem Owned.throws (hs : Owned s) (hi : s.calls[i]? = some call) :
    Owned { s.moveTo i call .threw with
      lostRequests := call.stage.request ++ s.lostRequests
      lostResponses := call.stage.response ++ s.lostResponses } where
  requests := by
    refine hs.requests.congr ?_
    have h := heldBy_set_drop (f := Call.heldRequest)
      (b := { call with stage := .threw }) (x := call.stage.request) hi (by simp)
    refine (List.Perm.append_right s.lostRequests (h.trans List.perm_append_comm)).trans ?_
    rw [List.append_assoc]
    rfl
  responses := by
    refine hs.responses.congr ?_
    have h := heldBy_set_drop (f := Call.heldResponse)
      (b := { call with stage := .threw }) (x := call.stage.response) hi (by simp)
    refine (List.Perm.append_right s.lostResponses (h.trans List.perm_append_comm)).trans ?_
    rw [List.append_assoc]
    rfl

/-- **Every step preserves the ownership of the objects.** -/
theorem owned_step {a : Action Resp Data Client Handle} (hs : Owned s) (h : step c s a = some t) : Owned t := by
  cases a with
  | callService args o =>
    rcases step_callService h with ⟨-, rfl⟩ | ⟨-, pool, hp, rfl⟩
    · constructor
      · rw [heldBy_append_single]
        simpa using hs.requests
      · rw [heldBy_append_single]
        simpa using hs.responses
    · exact hs.popRequest hp
  | requestToRos2 i =>
    obtain ⟨call, o, hi, ho, rfl⟩ := step_requestToRos2 h
    have hm := hs.moveTo (.translated o) hi (by simp [ho]) (by simp [ho])
    exact ⟨hm.requests, hm.responses⟩
  | asyncSendRequest i =>
    obtain ⟨call, o, hi, ho, rfl⟩ := step_asyncSendRequest h
    have hm := hs.moveTo (.sent o) hi (by simp [ho]) (by simp [ho])
    exact ⟨hm.requests, hm.responses⟩
  | waitForResponse i response p =>
    obtain ⟨call, o, pool, hi, ho, hp, rfl⟩ := step_waitForResponse h
    have hm := hs.popResponse response hi ho hp
    exact ⟨hm.requests, hm.responses⟩
  | responseToXtype i =>
    obtain ⟨call, o, p, response, hi, ho, rfl⟩ := step_responseToXtype h
    have hm := hs.moveTo (.responseTranslated o p response) hi (by simp [ho]) (by simp [ho])
    exact ⟨hm.requests, hm.responses⟩
  | receiveResponse i =>
    obtain ⟨call, o, p, response, hi, ho, rfl⟩ := step_receiveResponse h
    have hm := hs.moveTo (.delivering o p) hi (by simp [ho]) (by simp [ho])
    exact ⟨hm.requests, hm.responses⟩
  | recycle i =>
    obtain ⟨call, o, p, hi, ho, rfl⟩ := step_recycle h
    exact hs.recycle hi ho
  | throws i =>
    obtain ⟨call, hi, rfl⟩ := step_throws h
    exact hs.throws hi

theorem Owned.request_exclusive (hs : Owned s) (hi : s.calls[i]? = some call) {j : ℕ}
    {call' : Call Resp Data Client Handle} (hj : s.calls[j]? = some call') (hij : i ≠ j) {o : ℕ}
    (ho : o ∈ call.heldRequest) : o ∉ call'.heldRequest :=
  heldBy_exclusive (List.nodup_append.mp hs.requests.out_nodup).1 hi hj hij ho

theorem Owned.response_exclusive (hs : Owned s) (hi : s.calls[i]? = some call) {j : ℕ}
    {call' : Call Resp Data Client Handle} (hj : s.calls[j]? = some call') (hij : i ≠ j) {p : ℕ}
    (hp : p ∈ call.heldResponse) : p ∉ call'.heldResponse :=
  heldBy_exclusive (List.nodup_append.mp hs.responses.out_nodup).1 hi hj hij hp

theorem owned_of_run {request : Req} {response : Data} {as : List (Action Resp Data Client Handle)}
    (hr : run (step c) (initial request response) as = some t) : Owned t :=
  run_inv_of_step (fun _ _ _ hs h => owned_step hs h) (owned_initial request response) hr

/-- The action is not an exception. -/
def NoThrow : Action Resp Data Client Handle → Prop
  | .throws _ => False
  | _ => True

instance : DecidablePred (NoThrow : Action Resp Data Client Handle → Prop)
  | .throws _ => isFalse id
  | .callService .. | .requestToRos2 _ | .asyncSendRequest _ | .waitForResponse .. | .responseToXtype _
  | .receiveResponse _ | .recycle _ => isTrue trivial

/-- Only an exception destroys objects. -/
theorem lost_step {a : Action Resp Data Client Handle} (ha : NoThrow a) (h : step c s a = some t) :
    t.lostRequests = s.lostRequests ∧ t.lostResponses = s.lostResponses := by
  cases a with
  | callService args o =>
    rcases step_callService h with ⟨-, rfl⟩ | ⟨-, pool, hp, rfl⟩ <;> exact ⟨rfl, rfl⟩
  | requestToRos2 i => obtain ⟨call, o, hi, ho, rfl⟩ := step_requestToRos2 h; exact ⟨rfl, rfl⟩
  | asyncSendRequest i => obtain ⟨call, o, hi, ho, rfl⟩ := step_asyncSendRequest h; exact ⟨rfl, rfl⟩
  | waitForResponse i response p =>
    obtain ⟨call, o, pool, hi, ho, hp, rfl⟩ := step_waitForResponse h; exact ⟨rfl, rfl⟩
  | responseToXtype i => obtain ⟨call, o, p, response, hi, ho, rfl⟩ := step_responseToXtype h; exact ⟨rfl, rfl⟩
  | receiveResponse i => obtain ⟨call, o, p, response, hi, ho, rfl⟩ := step_receiveResponse h; exact ⟨rfl, rfl⟩
  | recycle i => obtain ⟨call, o, p, hi, ho, rfl⟩ := step_recycle h; exact ⟨rfl, rfl⟩
  | throws i => exact ha.elim

theorem lost_of_run {as : List (Action Resp Data Client Handle)} (ha : ∀ a ∈ as, NoThrow a)
    (h0 : s.lostRequests = [] ∧ s.lostResponses = []) (hr : run (step c) s as = some t) :
    t.lostRequests = [] ∧ t.lostResponses = [] := by
  refine run_inv (C := fun _ a => NoThrow a) (I := fun s => s.lostRequests = [] ∧ s.lostResponses = [])
    (fun u a v hu hna h => ?_) h0 (along_of_forall ha) hr
  obtain ⟨h1, h2⟩ := lost_step hna h
  exact ⟨h1.trans hu.1, h2.trans hu.2⟩

end Owned

/-! ### The ownership in the terms of the calls -/

/-- Who holds what: an object in a pool is held by no call, no pool holds an object twice, no two calls hold the same
object, and pool and calls together hold as many objects as were ever created. -/
structure Ownership (s : State Req Resp Data Client Handle) : Prop where
  request_not_pooled : ∀ (i : ℕ) (call : Call Resp Data Client Handle), s.calls[i]? = some call →
    ∀ o ∈ call.heldRequest, o ∉ s.requestPool.free
  response_not_pooled : ∀ (i : ℕ) (call : Call Resp Data Client Handle), s.calls[i]? = some call →
    ∀ p ∈ call.heldResponse, p ∉ s.responsePool.free
  requestPool_nodup : s.requestPool.free.Nodup
  responsePool_nodup : s.responsePool.free.Nodup
  request_exclusive : ∀ (i j : ℕ) (call call' : Call Resp Data Client Handle), s.calls[i]? = some call →
    s.calls[j]? = some call' → i ≠ j → ∀ o ∈ call.heldRequest, o ∉ call'.heldRequest
  response_exclusive : ∀ (i j : ℕ) (call call' : Call Resp Data Client Handle), s.calls[i]? = some call →
    s.calls[j]? = some call' → i ≠ j → ∀ p ∈ call.heldResponse, p ∉ call'.heldResponse
  requests_conserved : s.requestPool.free.length + (heldBy Call.heldRequest s.calls).length = s.requestPool.created
  responses_conserved :
    s.responsePool.free.length + (heldBy Call.heldResponse s.calls).length = s.responsePool.created

theorem Owned.ownership {s : State Req Resp Data Client Handle} (hs : Owned s)
    (hl : s.lostRequests = [] ∧ s.lostResponses = []) : Ownership s := by
  have hreq := hs.requests
  have hres := hs.responses
  rw [hl.1, List.append_nil] at hreq
  rw [hl.2, List.append_nil] at hres
  constructor
  · intro i call hi o ho hfree
    exact hreq.disjoint hfree (mem_heldBy hi ho)
  · intro i call hi p hp hfree
    exact hres.disjoint hfree (mem_heldBy hi hp)
  · exact hreq.free_nodup
  · exact hres.free_nodup
  · intro i j call call' hi hj hij o ho
    exact hs.request_exclusive hi hj hij ho
  · intro i j call call' hi hj hij p hp
    exact hs.response_exclusive hi hj hij hp
  · exact hreq.length
  · exact hres.length

/-- **Ownership of the pooled objects in every reachable state of the runs without an exception**, and a refused call
leaves both pools as they are. -/
theorem ownership_of_run (c : Converters Req Resp Data) (request : Req) (response : Data)
    (as : List (Action Resp Data Client Handle)) (t : State Req Resp Data Client Handle)
    (hr : run (step c) (initial request response) as = some t) (ha : ∀ a ∈ as, NoThrow a) :
    Ownership t ∧ ∀ args o u, args.available = false → step c t (.callService args o) = some u →
      u.requestPool = t.requestPool ∧ u.responsePool = t.responsePool := by
  refine ⟨(owned_of_run hr).ownership (lost_of_run ha ⟨rfl, rfl⟩ hr), fun args o u hav h => ?_⟩
  rcases step_callService h with ⟨-, rfl⟩ | ⟨hav', -⟩
  · exact ⟨rfl, rfl⟩
  · rw [hav] at hav'
    cases hav'

theorem ownership_of_run_nested : ∃ t : State ℕ ℕ ℕ ℕ ℕ,
    run (step oneField) (initial 0 0) nestedCalls = some t ∧ Ownership t ∧
      ∀ args o u, args.available = false → step oneField t (.callService args o) = some u →
        u.requestPool = t.requestPool ∧ u.responsePool = t.responsePool :=
  ⟨_, rfl, ownership_of_run oneField 0 0 nestedCalls _ rfl (by decide)⟩

end Ros2Sh.Service.ServerProxy
