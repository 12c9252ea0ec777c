import Ros2Sh.Service.Ownership

/-!
# How far the pools of a `ServerProxy` grow

A pool creates an object when it is asked for one and holds none, and nothing is ever taken out of it for good but by an
exception.  So it creates as many objects as there were calls in flight at the worst moment, one at least, and one more
for each object that an exception destroyed at most (`pools_grow_to_peak`).
-/

namespace Ros2Sh.Service.ServerProxy

open Ros2Sh.Lib

variable {Req Resp Data Client Handle : Type}

/-- The number of calls that hold a request object. -/
def requestsInFlight (s : State Req Resp Data Client Handle) : ℕ := (heldBy Call.heldRequest s.calls).length

/-- The number of calls that hold a response object. -/
def responsesInFlight (s : State Req Resp Data Client Handle) : ℕ := (heldBy Call.heldResponse s.calls).length

/-- What a step does to a pool: it may create an object, but only when no object is left in the pool, and it may lose
objects. -/
structure GrowsWhenEmpty (pool pool' : Pool) (lost lost' : List ℕ) : Prop where
  created : pool.created ≤ pool'.created
  lost : lost.length ≤ lost'.length
  empty : pool'.created = pool.created ∨ pool'.free = []

section Growth

variable {c : Converters Req Resp Data} {s t : State Req Resp Data Client Handle}

theorem growsWhenEmpty_pop {pool pool' : Pool} {o : ℕ} {lost : List ℕ} (h : pool.pop o = some pool') :
    GrowsWhenEmpty pool pool' lost lost := by
  unfold Pool.pop at h
  split at h
  · obtain rfl := Option.some.inj h
    exact ⟨Nat.le_refl _, Nat.le_refl _, .inl rfl⟩
  · split at h
    · rename_i hnew
      obtain rfl := Option.some.inj h
      exact ⟨Nat.le_succ _, Nat.le_refl _, .inr hnew.1⟩
    · cases h

theorem GrowsWhenEmpty.refl (pool : Pool) (lost : List ℕ) : GrowsWhenEmpty pool pool lost lost :=
  ⟨Nat.le_refl _, Nat.le_refl _, .inl rfl⟩

theorem growsWhenEmpty_step {a : Action Resp Data Client Handle} (h : step c s a = some t) :
    GrowsWhenEmpty s.requestPool t.requestPool s.lostRequests t.lostRequests ∧
      GrowsWhenEmpty s.responsePool t.responsePool s.lostResponses t.lostResponses := by
  cases a with
  | callService args o =>
    rcases step_callService h with ⟨-, rfl⟩ | ⟨-, pool, hp, rfl⟩
    · exact ⟨.refl _ _, .refl _ _⟩
    · exact ⟨growsWhenEmpty_pop hp, .refl _ _⟩
  | requestToRos2 i => obtain ⟨_, _, _, _, rfl⟩ := step_requestToRos2 h; exact ⟨.refl _ _, .refl _ _⟩
  | asyncSendRequest i => obtain ⟨_, _, _, _, rfl⟩ := step_asyncSendRequest h; exact ⟨.refl _ _, .refl _ _⟩
  | waitForResponse i response p =>
    obtain ⟨_, _, pool, _, _, hp, rfl⟩ := step_waitForResponse h
    exact ⟨.refl _ _, growsWhenEmpty_pop hp⟩
  | responseToXtype i => obtain ⟨_, _, _, _, _, _, rfl⟩ := step_responseToXtype h; exact ⟨.refl _ _, .refl _ _⟩
  | receiveResponse i => obtain ⟨_, _, _, _, _, _, rfl⟩ := step_receiveResponse h; exact ⟨.refl _ _, .refl _ _⟩
  | recycle i =>
    obtain ⟨_, _, _, _, _, rfl⟩ := step_recycle h
    exact ⟨⟨Nat.le_refl _, Nat.le_refl _, .inl rfl⟩, Nat.le_refl _, Nat.le_refl _, .inl rfl⟩
  | throws i =>
    obtain ⟨call, _, rfl⟩ := step_throws h
    exact ⟨⟨Nat.le_refl _, by simp, .inl rfl⟩, Nat.le_refl _, by simp, .inl rfl⟩

/-- A pool whose objects are conserved, and that grows only when it is empty, does not grow past the number of objects
in use, but for the ones lost. -/
theorem GrowsWhenEmpty.created_le {pool pool' : Pool} {lost lost' held' : List ℕ} {n : ℕ}
    (h : GrowsWhenEmpty pool pool' lost lost') (hcons : pool'.Conserves (held' ++ lost')) (hheld : held'.length ≤ n)
    (hn : pool.created ≤ n + lost.length) : pool'.created ≤ n + lost'.length := by
  rcases h.empty with hsame | hempty
  · have hlost := h.lost
    omega
  · have hlength := hcons.length
    rw [hempty, List.length_append] at hlength
    simp only [List.length_nil] at hlength
    omega

theorem held_le_created {pool : Pool} {held lost : List ℕ} (h : pool.Conserves (held ++ lost)) :
    held.length ≤ pool.created := by
  have hlength := h.length
  rw [List.length_append] at hlength
  omega

theorem pool_grows_to_peak (pool : State Req Resp Data Client Handle → Pool)
    (held lost : State Req Resp Data Client Handle → List ℕ)
    (hcons : ∀ s, Owned s → (pool s).Conserves (held s ++ lost s))
    (hgrow : ∀ s a t, step c s a = some t → GrowsWhenEmpty (pool s) (pool t) (lost s) (lost t)) (hs : Owned s)
    (hone : (pool s).created = 1) {as : List (Action Resp Data Client Handle)} (hr : run (step c) s as = some t) :
    max 1 (peak (step c) (fun s => (held s).length) s as) ≤ (pool t).created ∧
      (pool t).created ≤ max 1 (peak (step c) (fun s => (held s).length) s as) + (lost t).length := by
  have howned : ∀ (s : State Req Resp Data Client Handle) a t, Owned s → step c s a = some t → Owned t :=
    fun _ _ _ hs h => owned_step hs h
  constructor
  · refine Nat.max_le.mpr ⟨?_, ?_⟩
    · refine run_inv_of_step (I := fun s => 1 ≤ (pool s).created) (fun s a t h1 h => ?_) (Nat.le_of_eq hone.symm) hr
      exact Nat.le_trans h1 (hgrow s a t h).created
    · exact peak_le_of_mono howned (fun s a t _ h => (hgrow s a t h).created)
        (fun s hs => held_le_created (hcons s hs)) hs hr
  · have hpeak := Nat.le_max_right 1 (peak (step c) (fun s => (held s).length) s as)
    have hstart := Nat.le_max_left 1 (peak (step c) (fun s => (held s).length) s as)
    generalize max 1 (peak (step c) (fun s => (held s).length) s as) = n at hpeak hstart ⊢
    refine (run_inv_of_peak (I := fun x => Owned x ∧ (pool x).created ≤ n + (lost x).length) ?_ ⟨hs, ?_⟩ hpeak hr).2
    · intro x a y hx hheld h
      have hy := howned x a y hx.1 h
      exact ⟨hy, (hgrow x a y h).created_le (hcons y hy) hheld hx.2⟩
    · rw [hone]
      exact Nat.le_trans hstart (Nat.le_add_right ..)

/-- **The pools grow to the peak of the calls in flight**: each has created as many objects as calls held at the worst
moment of the run, at least one, and at most the objects destroyed by exceptions on top. -/
theorem pools_grow_to_peak (c : Converters Req Resp Data) (request : Req) (response : Data)
    (as : List (Action Resp Data Client Handle)) (t : State Req Resp Data Client Handle)
    (hr : run (step c) (initial request response) as = some t) :
    (max 1 (peak (step c) requestsInFlight (initial request response) as) ≤ t.requestPool.created ∧
      t.requestPool.created ≤
        max 1 (peak (step c) requestsInFlight (initial request response) as) + t.lostRequests.length) ∧
    max 1 (peak (step c) responsesInFlight (initial request response) as) ≤ t.responsePool.created ∧
      t.responsePool.created ≤
        max 1 (peak (step c) responsesInFlight (initial request response) as) + t.lostResponses.length := by
  have hs : Owned (initial request response : State Req Resp Data Client Handle) := owned_initial request response
  constructor
  · exact pool_grows_to_peak State.requestPool (fun s => heldBy Call.heldRequest s.calls) State.lostRequests
      (fun s hs => hs.requests) (fun s a t h => (growsWhenEmpty_step h).1) hs rfl hr
  · exact pool_grows_to_peak State.responsePool (fun s => heldBy Call.heldResponse s.calls) State.lostResponses
      (fun s hs => hs.responses) (fun s a t h => (growsWhenEmpty_step h).2) hs rfl hr

theorem pools_grow_to_peak_nested : ∃ t : State ℕ ℕ ℕ ℕ ℕ, run (step oneField) (initial 0 0) nestedCalls = some t ∧
    (max 1 (peak (step oneField) requestsInFlight (initial 0 0) nestedCalls) ≤ t.requestPool.created ∧
      t.requestPool.created ≤
        max 1 (peak (step oneField) requestsInFlight (initial 0 0) nestedCalls) + t.lostRequests.length) ∧
    max 1 (peak (step oneField) responsesInFlight (initial 0 0) nestedCalls) ≤ t.responsePool.created ∧
      t.responsePool.created ≤
        max 1 (peak (step oneField) responsesInFlight (initial 0 0) nestedCalls) + t.lostResponses.length :=
  ⟨_, rfl, pools_grow_to_peak oneField 0 0 nestedCalls _ rfl⟩

end Growth

end Ros2Sh.Service.ServerProxy
