import Mathlib.Logic.Function.Basic
import Ros2Sh.Lib.Fold
import Ros2Sh.Lib.Run
import Ros2Sh.Lib.Yaml

/-!
# The life of the system handles

A process has several handles.  The constructor, the first part of `configure`, `okay`, `spin_once` and the destructor
are about the `rclcpp` context and the node of a handle: each handle that is configured creates its node in a context of
its own, so that it can have its own domain, and the destructor shuts the context down.

What `rclcpp` does is a parameter.  Whatever that is, the node of a handle is made with the settings of its own
configuration, in a context that no other handle uses (`isolated_of_run`).  Where `rclcpp` does what it is documented to
do (`Rclcpp.Lawful`), handles never get in the way of each other either: `okay` and `spin_once` say of each of them what
became of it (`running_of_run`).  A handle whose `configure` did not get far has no context, and shuts the default
context down when it is destroyed, which no handle uses.
-/

namespace Ros2Sh.SystemHandle.Lifecycle

open Ros2Sh.Lib Ros2Sh.Lib.Yaml

/-! ### `rclcpp` -/

/-- `rclcpp::Node`, by what its constructor is given. -/
structure RclcppNode where
  name : String
  ns : String
  context : ℕ
  deriving DecidableEq, Repr

/-- The calls of `rclcpp`, with whether those that may throw return.  A context is numbered by the calls that were made
before it, and a null pointer stands for the default context. -/
inductive Call
  | init
  | shutdown (context : Option ℕ)
  | contextInit (context domainId : ℕ) (returns : Bool)
  | makeNode (node : RclcppNode) (returns : Bool)
  | spinNodeOnce (node : RclcppNode)
  | interrupt -- the signal handler that `init` installs
  deriving DecidableEq, Repr

/-- What `rclcpp` does, in states `K`. -/
structure Rclcpp (K : Type) where
  ok (k : K) (context : Option ℕ) : Bool
  call (k : K) (c : Call) : K

variable {K : Type}

/-- A context is okay once it is initialised and until it is shut down, by itself or by a signal; nothing that is done
to another context matters. -/
structure Rclcpp.Lawful (r : Rclcpp K) : Prop where
  init : ∀ k c, r.ok (r.call k .init) (some c) = r.ok k (some c)
  shutdown : ∀ k context c, context ≠ some c → r.ok (r.call k (.shutdown context)) (some c) = r.ok k (some c)
  contextInit : ∀ k c domainId, r.ok (r.call k (.contextInit c domainId true)) (some c) = true
  contextInit_ne : ∀ k c domainId returns c', c' ≠ c →
    r.ok (r.call k (.contextInit c domainId returns)) (some c') = r.ok k (some c')
  makeNode : ∀ k node returns c, r.ok (r.call k (.makeNode node returns)) (some c) = r.ok k (some c)
  spinNodeOnce : ∀ k node c, r.ok (r.call k (.spinNodeOnce node)) (some c) = r.ok k (some c)
  interrupt : ∀ k c, r.ok (r.call k .interrupt) (some c) = false

/-- The state of `rclcpp`, and the calls that were made. -/
structure Library (K : Type) where
  state : K
  calls : List Call

def Library.call (r : Rclcpp K) (l : Library K) (c : Call) : Library K := ⟨r.call l.state c, l.calls ++ [c]⟩

/-! ### The functions -/

/-- What `configure` reads of its node. -/
structure Settings where
  ns : String
  name : String
  domain : ℕ
  deriving DecidableEq, Repr

/-- `node.as<std::string>(fallback)` -/
def asStringOr (y : Conversions) (fallback : String) (node : Node) : String :=
  match y.asString node with
  | .error _ => fallback
  | .ok text => text

/-- The settings of the node that `configure` creates; `random` is what `rand()` returns. -/
def readSettings (y : Conversions) (random : ℕ) (configuration : Node) : Except Error Settings := do
  let namespaceNode ← configuration.index "namespace"
  let ns := if namespaceNode.isDefined then asStringOr y "" namespaceNode else ""
  let nameNode ← configuration.index "node_name"
  let name := if nameNode.isDefined then asStringOr y "" nameNode else "is_ros2_node_" ++ toString random
  let domainNode ← configuration.index "domain"
  let domain ← if domainNode.isDefined then y.asUnsigned domainNode else pure 0
  return ⟨ns, name, domain⟩

/-- `SystemHandle`; the options of the executor, and the executor itself, are given by their context. -/
structure Handle where
  context : Option ℕ
  executorOptions : Option ℕ
  node : Option RclcppNode
  executor : Option ℕ
  deriving DecidableEq, Repr

/-- The constructor. -/
def newHandle : Handle := ⟨none, none, none, none⟩

/-- Whether `Context::init` and the constructor of the node return. -/
structure Answers where
  context : Bool
  node : Bool

/-- `create_node`, in a new context; whether it returned, and what it left. -/
def createNode (r : Rclcpp K) (answers : Answers) (l : Library K) (h : Handle) (settings : Settings) :
    Bool × Library K × Handle :=
  let context := l.calls.length
  let h := { h with context := some context }
  let l := l.call r (.contextInit context settings.domain answers.context)
  if answers.context then
    let h := { h with executorOptions := h.context }
    let node := ⟨settings.name, settings.ns, context⟩
    let l := l.call r (.makeNode node answers.node)
    if answers.node then (true, l, { h with node := some node }) else (false, l, h)
  else (false, l, h)

/-- `configure`, up to its loops; what it leaves, also when it throws. -/
def configure (r : Rclcpp K) (y : Conversions) (answers : Answers) (l : Library K) (h : Handle) (random : ℕ)
    (configuration : Node) : Library K × Handle :=
  let l := if r.ok l.state none then l else l.call r .init
  match readSettings y random configuration with
  | .error _ => (l, h)
  | .ok settings =>
    match createNode r answers l h settings with
    | (false, l, h) => (l, h)
    | (true, l, h) => (l, { h with executor := h.executorOptions })

/-- `okay`. -/
def okay (r : Rclcpp K) (l : Library K) (h : Handle) : Bool := if h.node.isSome then r.ok l.state h.context else false

/-- What `spin_once` returns, and what it leaves; `none` when there is no executor to call, or no node to spin. -/
def spinOnce (r : Rclcpp K) (l : Library K) (h : Handle) : Option (Bool × Library K) := do
  let _ ← h.executor
  let node ← h.node
  let l := l.call r (.spinNodeOnce node)
  return (r.ok l.state h.context, l)

/-! ### The process -/

/-- A handle that was destroyed leaves its place empty. -/
structure State (K : Type) where
  library : Library K
  handles : List (Option Handle)

def initial (k : K) : State K := ⟨⟨k, []⟩, []⟩

/-- The handle `i`, if it is alive. -/
def State.handle (s : State K) (i : ℕ) : Option Handle := s.handles[i]?.join

inductive Action
  | create
  | configure (i random : ℕ) (configuration : Node) (answers : Answers)
  | spinOnce (i : ℕ)
  | destroy (i : ℕ)
  | interrupt

/-- One call, or a signal.  A handle that has a context is not configured again. -/
def step (r : Rclcpp K) (y : Conversions) (s : State K) : Action → Option (State K)
  | .create => some { s with handles := s.handles ++ [some newHandle] }
  | .configure i random configuration answers => do
    let h ← s.handle i
    if h.context.isSome then none
    else
      let (l, h) := configure r y answers s.library h random configuration
      return ⟨l, s.handles.set i (some h)⟩
  | .spinOnce i => do
    let h ← s.handle i
    let (_, l) ← spinOnce r s.library h
    return { s with library := l }
  | .destroy i => do
    let h ← s.handle i
    return ⟨s.library.call r (.shutdown h.context), s.handles.set i none⟩
  | .interrupt => some { s with library := s.library.call r .interrupt }

/-- The domain ID that the context was initialised with. -/
def domainOf (calls : List Call) (context : ℕ) : Option ℕ :=
  match calls[context]? with
  | some (.contextInit _ domainId _) => some domainId
  | _ => none

/-- What the node of the handle was made with, and the domain ID of its context. -/
def Handle.made (calls : List Call) (h : Handle) : Option Settings := do
  let node ← h.node
  let domain ← domainOf calls node.context
  return ⟨node.ns, node.name, domain⟩

def State.made (s : State K) (i : ℕ) : Option Settings := (s.handle i).bind (Handle.made s.library.calls)

/-- The settings of the node that `configure` makes, if it makes one. -/
def started (y : Conversions) (random : ℕ) (configuration : Node) (answers : Answers) : Option Settings :=
  match readSettings y random configuration with
  | .error _ => none
  | .ok settings => if answers.context && answers.node then some settings else none

/-- What the nodes of the handles are to be made with. -/
def follow (y : Conversions) (nodes : ℕ → Option Settings) : Action → ℕ → Option Settings
  | .create | .spinOnce _ | .interrupt => nodes
  | .configure i random configuration answers => Function.update nodes i (started y random configuration answers)
  | .destroy i => Function.update nodes i none

/-- Which nodes are to be running. -/
def followRunning (y : Conversions) (nodes : ℕ → Option Settings) : Action → ℕ → Option Settings
  | .interrupt => fun _ => none
  | .create => follow y nodes .create
  | .configure i random configuration answers => follow y nodes (.configure i random configuration answers)
  | .spinOnce i => follow y nodes (.spinOnce i)
  | .destroy i => follow y nodes (.destroy i)

/-! ### The calls -/

/-- A context is initialised once, by the call with its number. -/
def Numbered (calls : List Call) : Prop :=
  ∀ (i context domainId : ℕ) (returns : Bool), calls[i]? = some (.contextInit context domainId returns) → i = context

/-- The calls that made the node, and before it the context that it is in. -/
structure Recorded (calls : List Call) (node : RclcppNode) : Prop where
  context : ∃ domainId, calls[node.context]? = some (.contextInit node.context domainId true)
  node : .makeNode node true ∈ calls

/-- The node was made, in a context that was initialised with this domain ID, and with no other. -/
structure MadeIn (calls : List Call) (node : RclcppNode) (domainId : ℕ) : Prop where
  initialised : .contextInit node.context domainId true ∈ calls
  once : ∀ domainId' returns, .contextInit node.context domainId' returns ∈ calls → domainId' = domainId
  made : .makeNode node true ∈ calls

section Calls

variable {calls calls' : List Call} {c : Call} {node : RclcppNode} {i : ℕ}

theorem numbered_nil : Numbered [] := by
  intro i context domainId returns h
  cases h

theorem Numbered.append (h : Numbered calls)
    (hc : ∀ context domainId returns, c = .contextInit context domainId returns → context = calls.length) :
    Numbered (calls ++ [c]) := by
  intro i context domainId returns hi
  rw [List.getElem?_append] at hi
  split at hi
  · exact h i context domainId returns hi
  · rename_i hlt
    have hlast : i = calls.length := by
      have hone : i - calls.length < 1 := (List.getElem?_eq_some_iff.mp hi).1
      omega
    rw [hlast, Nat.sub_self] at hi
    exact hlast.trans (hc context domainId returns (Option.some.inj hi)).symm

theorem getElem?_mono (h : calls <+: calls') (hi : calls[i]? = some c) : calls'[i]? = some c := by
  obtain ⟨hlt, rfl⟩ := List.getElem?_eq_some_iff.mp hi
  exact List.prefix_iff_getElem?.mp h i hlt

theorem Recorded.mono (h : Recorded calls node) (hkept : calls <+: calls') : Recorded calls' node := by
  obtain ⟨domainId, hcontext⟩ := h.context
  exact ⟨⟨domainId, getElem?_mono hkept hcontext⟩, hkept.subset h.node⟩

theorem domainOf_of_getElem? {context domainId : ℕ} {returns : Bool}
    (h : calls[context]? = some (.contextInit context domainId returns)) : domainOf calls context = some domainId := by
  simp [domainOf, h]

theorem Recorded.madeIn (h : Recorded calls node) (hcalls : Numbered calls) :
    ∃ domainId, domainOf calls node.context = some domainId ∧ MadeIn calls node domainId := by
  obtain ⟨domainId, hcontext⟩ := h.context
  refine ⟨domainId, domainOf_of_getElem? hcontext, List.mem_of_getElem? hcontext, fun domainId' returns hmem => ?_,
    h.node⟩
  obtain ⟨i, hi⟩ := List.mem_iff_getElem?.mp hmem
  obtain rfl := hcalls i _ _ _ hi
  cases hcontext.symm.trans hi
  rfl

/-- More calls do not change what a node was made with. -/
theorem Recorded.domainOf_eq (h : Recorded calls node) (hkept : calls <+: calls') :
    domainOf calls' node.context = domainOf calls node.context := by
  obtain ⟨domainId, hcontext⟩ := h.context
  rw [domainOf_of_getElem? hcontext, domainOf_of_getElem? (getElem?_mono hkept hcontext)]

end Calls

/-! ### What `configure` does -/

section Configure

variable {r : Rclcpp K} {y : Conversions} {answers : Answers} {l : Library K} {h h' : Handle} {random : ℕ}
  {configuration : Node} {settings : Settings} {calls calls' calls'' : List Call}

/-- What `configure` leaves of a handle that had no context, when these calls had been made: the node that was started,
in a new context. -/
structure Starts (calls calls' : List Call) (h' : Handle) (settings : Option Settings) : Prop where
  kept : calls <+: calls'
  numbered : Numbered calls → Numbered calls'
  context : ∀ c, h'.context = some c → calls.length ≤ c ∧ c < calls'.length
  node : ∀ n, h'.node = some n → h'.context = some n.context ∧ Recorded calls' n
  executor : h'.node.isSome → h'.executor = h'.context
  made : h'.made calls' = settings

theorem made_of_node_eq_none (hn : h.node = none) (calls : List Call) : h.made calls = none := by
  simp [Handle.made, hn]

/-- It makes no difference what was called before. -/
theorem Starts.after {settings : Option Settings} (h : Starts calls' calls'' h' settings) (hkept : calls <+: calls')
    (hnumbered : Numbered calls → Numbered calls') : Starts calls calls'' h' settings where
  kept := hkept.trans h.kept
  numbered hcalls := h.numbered (hnumbered hcalls)
  context c hc := ⟨Nat.le_trans hkept.length_le (h.context c hc).1, (h.context c hc).2⟩
  node := h.node
  executor := h.executor
  made := h.made

theorem starts_none (hcontext : h.context = none) (hnode : h.node = none) (calls : List Call) :
    Starts calls calls h none where
  kept := List.prefix_refl _
  numbered := id
  context c hc := by rw [hcontext] at hc; cases hc
  node n hn := by rw [hnode] at hn; cases hn
  executor hn := by rw [hnode] at hn; cases hn
  made := made_of_node_eq_none hnode calls

theorem numbered_contextInit (calls : List Call) (domainId : ℕ) (returns : Bool) (hcalls : Numbered calls) :
    Numbered (calls ++ [.contextInit calls.length domainId returns]) :=
  hcalls.append fun context _ _ h => by cases h; rfl

/-- A context is left without a node when `rclcpp` throws. -/
theorem starts_rejected (hnode : h.node = none) (hkept : calls <+: calls') (hlt : calls.length < calls'.length)
    (hnumbered : Numbered calls → Numbered calls') (options : Option ℕ) :
    Starts calls calls' { h with context := some calls.length, executorOptions := options } none where
  kept := hkept
  numbered := hnumbered
  context c hc := by
    obtain rfl := Option.some.inj hc
    exact ⟨Nat.le_refl _, hlt⟩
  node n hn := by
    have hn' : h.node = some n := hn
    rw [hnode] at hn'
    cases hn'
  executor hn := by
    have hn' : h.node.isSome := hn
    rw [hnode] at hn'
    cases hn'
  made := made_of_node_eq_none hnode _

theorem numbered_makeNode (calls : List Call) (domainId : ℕ) (node : RclcppNode) (returns : Bool)
    (hcalls : Numbered calls) :
    Numbered (calls ++ [.contextInit calls.length domainId true] ++ [.makeNode node returns]) :=
  (numbered_contextInit calls domainId true hcalls).append (by simp)

theorem starts_created (calls : List Call) (settings : Settings) :
    Starts calls (calls ++ [.contextInit calls.length settings.domain true] ++
        [.makeNode ⟨settings.name, settings.ns, calls.length⟩ true])
      ⟨some calls.length, some calls.length, some ⟨settings.name, settings.ns, calls.length⟩, some calls.length⟩
      (some settings) where
  kept := (List.prefix_append _ _).trans (List.prefix_append _ _)
  numbered := numbered_makeNode calls settings.domain _ true
  context c hc := by
    obtain rfl := Option.some.inj hc
    simp
  node n hn := by
    obtain rfl := Option.some.inj hn
    exact ⟨rfl, ⟨settings.domain, by simp⟩, by simp⟩
  executor _ := rfl
  made := by simp [Handle.made, domainOf]

/-- `rclcpp::init` makes no context. -/
theorem calls_init (r : Rclcpp K) (l : Library K) :
    l.calls <+: (if r.ok l.state none then l else l.call r .init).calls ∧
      (Numbered l.calls → Numbered (if r.ok l.state none then l else l.call r .init).calls) := by
  split
  · exact ⟨List.prefix_refl _, id⟩
  · exact ⟨List.prefix_append _ _, fun hcalls => hcalls.append (by simp)⟩

/-- **`configure`**, of a handle without a context. -/
theorem configure_starts (r : Rclcpp K) (y : Conversions) (answers : Answers) (l : Library K) (random : ℕ)
    (configuration : Node) (hcontext : h.context = none) (hnode : h.node = none) :
    Starts l.calls (configure r y answers l h random configuration).1.calls
      (configure r y answers l h random configuration).2 (started y random configuration answers) := by
  unfold configure started
  obtain ⟨hkept, hnumbered⟩ := calls_init r l
  generalize (if r.ok l.state none then l else l.call r .init) = l' at hkept hnumbered ⊢
  refine Starts.after ?_ hkept hnumbered
  obtain ⟨answerContext, answerNode⟩ := answers
  cases readSettings y random configuration with
  | error e => exact starts_none hcontext hnode _
  | ok settings =>
    simp only [createNode, Library.call]
    cases answerContext with
    | false => exact starts_rejected hnode (List.prefix_append _ _) (by simp) (numbered_contextInit _ _ _) _
    | true =>
      cases answerNode with
      | false =>
        exact starts_rejected hnode ((List.prefix_append _ _).trans (List.prefix_append _ _)) (by simp)
          (numbered_makeNode _ _ _ _) _
      | true => exact starts_created _ _

/-- `configure` leaves the other contexts as they are, and the new one is okay when there is a node in it. -/
theorem ok_configure (hr : r.Lawful) (y : Conversions) (answers : Answers) (l : Library K) (random : ℕ)
    (configuration : Node) (hnode : h.node = none) :
    (∀ c < l.calls.length,
      r.ok (configure r y answers l h random configuration).1.state (some c) = r.ok l.state (some c)) ∧
    okay r (configure r y answers l h random configuration).1 (configure r y answers l h random configuration).2 =
      (started y random configuration answers).isSome := by
  unfold configure started
  have hkept := (calls_init r l).1.length_le
  have hinit : ∀ c, r.ok (if r.ok l.state none then l else l.call r .init).state (some c) = r.ok l.state (some c) := by
    intro c
    split
    · rfl
    · exact hr.init l.state c
  generalize (if r.ok l.state none then l else l.call r .init) = l' at hkept hinit ⊢
  have hcontext : ∀ domain returns, ∀ c < l.calls.length,
      r.ok (r.call l'.state (.contextInit l'.calls.length domain returns)) (some c) = r.ok l.state (some c) := by
    intro domain returns c hc
    rw [hr.contextInit_ne _ _ _ _ _ (Nat.ne_of_lt (Nat.lt_of_lt_of_le hc hkept)), hinit]
  obtain ⟨answerContext, answerNode⟩ := answers
  cases readSettings y random configuration with
  | error e => exact ⟨fun c _ => hinit c, by simp [okay, hnode]⟩
  | ok settings =>
    simp only [createNode, Library.call]
    cases answerContext with
    | false => exact ⟨hcontext _ _, by simp [okay, hnode]⟩
    | true =>
      cases answerNode with
      | false => exact ⟨fun c hc => (hr.makeNode _ _ _ c).trans (hcontext _ _ c hc), by simp [okay, hnode]⟩
      | true =>
        refine ⟨fun c hc => (hr.makeNode _ _ _ c).trans (hcontext _ _ c hc), ?_⟩
        simp [okay, hr.makeNode, hr.contextInit]

end Configure

/-! ### Isolation -/

/-- The invariant: every context in use belongs to one handle, whose node and executor are in it, and contexts are
initialised once. -/
structure Isolated (s : State K) : Prop where
  made : ∀ i h c, s.handle i = some h → h.context = some c → c < s.library.calls.length
  own : ∀ i j h h' c, s.handle i = some h → s.handle j = some h' → h.context = some c → h'.context = some c → i = j
  node : ∀ i h n, s.handle i = some h → h.node = some n → h.context = some n.context
  executor : ∀ i h, s.handle i = some h → h.node.isSome → h.executor = h.context
  recorded : ∀ i h n, s.handle i = some h → h.node = some n → Recorded s.library.calls n
  numbered : Numbered s.library.calls

section Handles

variable {s : State K} {i j : ℕ} {h : Handle} {o : Option Handle} {l : Library K}

theorem handle_append : (⟨l, s.handles ++ [o]⟩ : State K).handle j =
    if j = s.handles.length then o else s.handle j := by
  unfold State.handle
  simp only [List.getElem?_append]
  by_cases hlt : j < s.handles.length
  · rw [if_pos hlt, if_neg (Nat.ne_of_lt hlt)]
  · by_cases heq : j = s.handles.length
    · subst heq
      simp
    · have hout : s.handles[j]? = none := List.getElem?_eq_none (Nat.le_of_not_lt hlt)
      have hsub : [o][j - s.handles.length]? = none := List.getElem?_eq_none (by simp; omega)
      rw [if_neg hlt, if_neg heq, hout, hsub]

theorem handle_set (hi : s.handle i = some h) : (⟨l, s.handles.set i o⟩ : State K).handle j =
    if j = i then o else s.handle j := by
  have hlt : i < s.handles.length := by
    by_contra hge
    have hout : s.handles[i]? = none := List.getElem?_eq_none (Nat.le_of_not_lt hge)
    unfold State.handle at hi
    rw [hout] at hi
    cases hi
  unfold State.handle
  simp only [List.getElem?_set]
  by_cases heq : i = j
  · subst heq
    simp [hlt]
  · rw [if_neg heq, if_neg (Ne.symm heq)]

theorem eq_newHandle_or (hj : (⟨l, s.handles ++ [some newHandle]⟩ : State K).handle j = some h) :
    h = newHandle ∨ s.handle j = some h := by
  rw [handle_append] at hj
  split at hj
  · exact .inl (Option.some.inj hj).symm
  · exact .inr hj

theorem handle_length (s : State K) : s.handle s.handles.length = none := by
  simp [State.handle]

/-- A new handle makes no difference to what cannot tell it from an empty place. -/
theorem apply_create {β : Type} (f : Option Handle → β) (hf : f (some newHandle) = f none) :
    f ((⟨l, s.handles ++ [some newHandle]⟩ : State K).handle j) = f (s.handle j) := by
  rw [handle_append]
  split
  · rename_i hj
    subst hj
    rw [handle_length s, hf]
  · rfl

end Handles

section Steps

variable {s : State K} {i j : ℕ} {h : Handle} {o : Option Handle} {l : Library K}

theorem isolated_initial (k : K) : Isolated (initial k) where
  made i h c hi := by simp [initial, State.handle] at hi
  own i j h h' c hi := by simp [initial, State.handle] at hi
  node i h n hi := by simp [initial, State.handle] at hi
  executor i h hi := by simp [initial, State.handle] at hi
  recorded i h n hi := by simp [initial, State.handle] at hi
  numbered := numbered_nil

theorem Isolated.withLibrary (hs : Isolated s) (hl : s.library.calls <+: l.calls) (hnumbered : Numbered l.calls) :
    Isolated { s with library := l } where
  made i h c hi hc := Nat.lt_of_lt_of_le (hs.made i h c hi hc) hl.length_le
  own := hs.own
  node := hs.node
  executor := hs.executor
  recorded i h n hi hn := (hs.recorded i h n hi hn).mono hl
  numbered := hnumbered

theorem Isolated.set (hs : Isolated s) (hi : s.handle i = some h) (hl : s.library.calls <+: l.calls)
    (hnumbered : Numbered l.calls)
    (hmade : ∀ h' c, o = some h' → h'.context = some c →
      c < l.calls.length ∧ ∀ j g, j ≠ i → s.handle j = some g → g.context ≠ some c)
    (hnode : ∀ h' n, o = some h' → h'.node = some n → h'.context = some n.context ∧ Recorded l.calls n)
    (hexecutor : ∀ h', o = some h' → h'.node.isSome → h'.executor = h'.context) :
    Isolated ⟨l, s.handles.set i o⟩ where
  made j g c hj hc := by
    rw [handle_set hi] at hj
    split at hj
    · exact (hmade g c hj hc).1
    · exact Nat.lt_of_lt_of_le (hs.made j g c hj hc) hl.length_le
  own j k g g' c hj hk hc hc' := by
    rw [handle_set hi] at hj hk
    by_cases hji : j = i
    · by_cases hki : k = i
      · exact hji.trans hki.symm
      · rw [if_pos hji] at hj
        rw [if_neg hki] at hk
        exact absurd hc' ((hmade g c hj hc).2 k g' hki hk)
    · rw [if_neg hji] at hj
      by_cases hki : k = i
      · rw [if_pos hki] at hk
        exact absurd hc ((hmade g' c hk hc').2 j g hji hj)
      · rw [if_neg hki] at hk
        exact hs.own j k g g' c hj hk hc hc'
  node j g n hj hn := by
    rw [handle_set hi] at hj
    split at hj
    · exact (hnode g n hj hn).1
    · exact hs.node j g n hj hn
  executor j g hj hn := by
    rw [handle_set hi] at hj
    split at hj
    · exact hexecutor g hj hn
    · exact hs.executor j g hj hn
  recorded j g n hj hn := by
    rw [handle_set hi] at hj
    split at hj
    · exact (hnode g n hj hn).2
    · exact (hs.recorded j g n hj hn).mono hl
  numbered := hnumbered

theorem Isolated.create (hs : Isolated s) : Isolated { s with handles := s.handles ++ [some newHandle] } := by
  refine ⟨fun j g c hj hc => ?_, fun j k g g' c hj hk hc hc' => ?_, fun j g n hj hn => ?_, fun j g hj hn => ?_,
    fun j g n hj hn => ?_, hs.numbered⟩
  · rcases eq_newHandle_or hj with rfl | hj
    · cases hc
    · exact hs.made j g c hj hc
  · rcases eq_newHandle_or hj with rfl | hj
    · cases hc
    · rcases eq_newHandle_or hk with rfl | hk
      · cases hc'
      · exact hs.own j k g g' c hj hk hc hc'
  · rcases eq_newHandle_or hj with rfl | hj
    · cases hn
    · exact hs.node j g n hj hn
  · rcases eq_newHandle_or hj with rfl | hj
    · cases hn
    · exact hs.executor j g hj hn
  · rcases eq_newHandle_or hj with rfl | hj
    · cases hn
    · exact hs.recorded j g n hj hn

theorem Isolated.node_eq_none (hs : Isolated s) (hi : s.handle i = some h) (hcontext : h.context = none) :
    h.node = none := by
  cases hn : h.node with
  | none => rfl
  | some n =>
    rw [hs.node i h n hi hn] at hcontext
    cases hcontext

variable {r : Rclcpp K} {y : Conversions} {answers : Answers} {random : ℕ} {configuration : Node}

/-- The context of the handle that is configured is none of those in use. -/
theorem Isolated.configure (hs : Isolated s) (hi : s.handle i = some h) (hcontext : h.context = none) :
    Isolated ⟨(configure r y answers s.library h random configuration).1,
      s.handles.set i (some (configure r y answers s.library h random configuration).2)⟩ := by
  have hstarts := configure_starts r y answers s.library random configuration hcontext (hs.node_eq_none hi hcontext)
  refine hs.set hi hstarts.kept (hstarts.numbered hs.numbered) ?_ ?_ ?_
  · rintro h' c ⟨⟩ hc
    obtain ⟨hle, hlt⟩ := hstarts.context c hc
    exact ⟨hlt, fun j g _ hj hown => absurd (hs.made j g c hj hown) (Nat.not_lt_of_le hle)⟩
  · rintro h' n ⟨⟩ hn
    exact hstarts.node n hn
  · rintro h' ⟨⟩ hn
    exact hstarts.executor hn

/-- More calls leave what the nodes were made with. -/
theorem made_library (hs : Isolated s) (hl : s.library.calls <+: l.calls) :
    (s.handle j).bind (Handle.made l.calls) = s.made j := by
  unfold State.made
  cases hj : s.handle j with
  | none => rfl
  | some g =>
    cases hn : g.node with
    | none => simp [Handle.made, hn]
    | some n => simp [Handle.made, hn, (hs.recorded j g n hj hn).domainOf_eq hl]

theorem made_set (hs : Isolated s) (hi : s.handle i = some h) (hl : s.library.calls <+: l.calls) :
    (⟨l, s.handles.set i o⟩ : State K).made j = if j = i then o.bind (Handle.made l.calls) else s.made j := by
  unfold State.made
  rw [handle_set hi]
  split
  · rfl
  · exact made_library hs hl

theorem made_create : (⟨l, s.handles ++ [some newHandle]⟩ : State K).made j =
    (⟨l, s.handles⟩ : State K).made j :=
  apply_create (fun o => o.bind (Handle.made l.calls)) rfl

/-- The state is isolated, and its nodes were made with these settings. -/
structure Represents (s : State K) (nodes : ℕ → Option Settings) : Prop where
  isolated : Isolated s
  made : ∀ i, s.made i = nodes i

variable {nodes : ℕ → Option Settings} {t : State K} {a : Action}

theorem step_cases (h : step r y s a = some t) :
    (a = .create ∧ t = { s with handles := s.handles ++ [some newHandle] }) ∨
    (∃ i random configuration answers h, a = .configure i random configuration answers ∧ s.handle i = some h ∧
      h.context = none ∧ t = ⟨(configure r y answers s.library h random configuration).1,
        s.handles.set i (some (configure r y answers s.library h random configuration).2)⟩) ∨
    (∃ i h node, a = .spinOnce i ∧ s.handle i = some h ∧ h.node = some node ∧
      t = { s with library := s.library.call r (.spinNodeOnce node) }) ∨
    (∃ i h, a = .destroy i ∧ s.handle i = some h ∧
      t = ⟨s.library.call r (.shutdown h.context), s.handles.set i none⟩) ∨
    a = .interrupt ∧ t = { s with library := s.library.call r .interrupt } := by
  cases a with
  | create => exact .inl ⟨rfl, (Option.some.inj h).symm⟩
  | configure i random configuration answers =>
    obtain ⟨g, hi, h⟩ := Option.bind_eq_some_iff.mp h
    split at h
    · cases h
    · rename_i hcontext
      exact .inr (.inl ⟨i, random, configuration, answers, g, rfl, hi, by simpa using hcontext,
        (Option.some.inj h).symm⟩)
  | spinOnce i =>
    obtain ⟨g, hi, h⟩ := Option.bind_eq_some_iff.mp h
    obtain ⟨⟨returned, l⟩, hspin, h⟩ := Option.bind_eq_some_iff.mp h
    obtain ⟨executor, -, hspin⟩ := Option.bind_eq_some_iff.mp hspin
    obtain ⟨node, hnode, hspin⟩ := Option.bind_eq_some_iff.mp hspin
    cases hspin
    exact .inr (.inr (.inl ⟨i, g, node, rfl, hi, hnode, (Option.some.inj h).symm⟩))
  | destroy i =>
    obtain ⟨g, hi, h⟩ := Option.bind_eq_some_iff.mp h
    exact .inr (.inr (.inr (.inl ⟨i, g, rfl, hi, (Option.some.inj h).symm⟩)))
  | interrupt => exact .inr (.inr (.inr (.inr ⟨rfl, (Option.some.inj h).symm⟩)))

/-- A call that is not about a handle. -/
theorem Represents.call (hs : Represents s nodes) {c : Call}
    (hc : ∀ context domainId returns, c = .contextInit context domainId returns → context = s.library.calls.length) :
    Represents { s with library := s.library.call r c } nodes where
  isolated := hs.isolated.withLibrary (List.prefix_append _ _) (hs.isolated.numbered.append hc)
  made i := (made_library hs.isolated (List.prefix_append _ _)).trans (hs.made i)

theorem represents_step (hs : Represents s nodes) (h : step r y s a = some t) : Represents t (follow y nodes a) := by
  rcases step_cases h with ⟨rfl, rfl⟩ | ⟨i, random, configuration, answers, g, rfl, hi, hcontext, rfl⟩ |
    ⟨i, g, node, rfl, -, -, rfl⟩ | ⟨i, g, rfl, hi, rfl⟩ | ⟨rfl, rfl⟩
  · exact ⟨hs.isolated.create, fun j => made_create.trans (hs.made j)⟩
  · have hstarts := configure_starts r y answers s.library random configuration hcontext
      (hs.isolated.node_eq_none hi hcontext)
    refine ⟨hs.isolated.configure hi hcontext, fun j => ?_⟩
    rw [made_set hs.isolated hi hstarts.kept, hs.made]
    simp only [follow, Function.update_apply, Option.bind_some, hstarts.made]
  · exact hs.call (by simp)
  · have hnumbered : Numbered (s.library.call r (.shutdown g.context)).calls := hs.isolated.numbered.append (by simp)
    refine ⟨hs.isolated.set hi (List.prefix_append _ _) hnumbered (by simp) (by simp) (by simp), fun j => ?_⟩
    refine (made_set hs.isolated hi (List.prefix_append _ _)).trans ?_
    rw [hs.made]
    simp only [follow, Function.update_apply, Option.bind_none]
  · exact hs.call (by simp)

theorem represents_of_run {k : K} {as : List Action} (hr : run (step r y) (initial k) as = some t) :
    Represents t (as.foldl (follow y) fun _ => none) := by
  have hinitial : Represents (initial k) fun _ => none :=
    ⟨isolated_initial k, fun i => by simp [State.made, State.handle, initial]⟩
  exact run_simulates (fun _ _ _ _ hs h => represents_step hs h) hinitial hr

end Steps

/-! ### Which handles are okay -/

section Running

variable {r : Rclcpp K} {y : Conversions} {s t : State K} {i j : ℕ} {h : Handle} {o : Option Handle} {l : Library K}
  {nodes : ℕ → Option Settings} {a : Action}

/-- Only its own context tells whether a handle is okay. -/
theorem okay_congr (hs : Isolated s) (hi : s.handle i = some h)
    (hcontext : ∀ c, h.context = some c → r.ok l.state (some c) = r.ok s.library.state (some c)) :
    okay r l h = okay r s.library h := by
  unfold okay
  cases hn : h.node with
  | none => rfl
  | some n =>
    rw [hs.node i h n hi hn]
    exact hcontext n.context (hs.node i h n hi hn)

/-- The handle `i` is alive and okay. -/
def State.Okay (r : Rclcpp K) (s : State K) (i : ℕ) : Prop := ∃ h, s.handle i = some h ∧ okay r s.library h = true

theorem okay_set_ne (hs : Isolated s) (hi : s.handle i = some h) (hj : j ≠ i)
    (hl : ∀ c < s.library.calls.length, h.context ≠ some c →
      r.ok l.state (some c) = r.ok s.library.state (some c)) :
    (⟨l, s.handles.set i o⟩ : State K).Okay r j ↔ s.Okay r j := by
  unfold State.Okay
  rw [handle_set hi, if_neg hj]
  refine exists_congr fun g => and_congr_right fun hg => ?_
  show okay r l g = true ↔ _
  rw [okay_congr hs hg fun c hc => hl c (hs.made j g c hg hc) fun hown => hj (hs.own j i g h c hg hi hc hown)]

theorem okay_set_self (hi : s.handle i = some h) :
    (⟨l, s.handles.set i o⟩ : State K).Okay r i ↔ ∃ g, o = some g ∧ okay r l g = true := by
  unfold State.Okay
  rw [handle_set hi, if_pos rfl]

theorem okay_create : (⟨l, s.handles ++ [some newHandle]⟩ : State K).Okay r j ↔
    (⟨l, s.handles⟩ : State K).Okay r j :=
  Iff.of_eq (apply_create (fun o => ∃ h, o = some h ∧ okay r l h = true) (by simp [newHandle, okay]))

theorem not_okay_interrupt (hr : r.Lawful) (hs : Isolated s) :
    ¬ State.Okay r { s with library := s.library.call r .interrupt } j := by
  rintro ⟨g, hg, hokay⟩
  unfold okay at hokay
  split at hokay
  · rename_i hnode
    obtain ⟨n, hn⟩ := Option.isSome_iff_exists.mp hnode
    rw [hs.node j g n hg hn] at hokay
    exact absurd ((hr.interrupt _ _).symm.trans hokay) Bool.false_ne_true
  · cases hokay

/-- **Every step follows the calls and the signals.** -/
theorem okay_step (hr : r.Lawful) (hs : Isolated s) (hokay : ∀ i, s.Okay r i ↔ (nodes i).isSome)
    (h : step r y s a = some t) (j : ℕ) : t.Okay r j ↔ (followRunning y nodes a j).isSome := by
  rcases step_cases h with ⟨rfl, rfl⟩ | ⟨i, random, configuration, answers, g, rfl, hi, hcontext, rfl⟩ |
    ⟨i, g, node, rfl, -, -, rfl⟩ | ⟨i, g, rfl, hi, rfl⟩ | ⟨rfl, rfl⟩
  · exact okay_create.trans (hokay j)
  · obtain ⟨hkept, hnew⟩ :=
      ok_configure hr y answers s.library random configuration (hs.node_eq_none hi hcontext)
    by_cases hj : j = i
    · subst hj
      rw [okay_set_self hi]
      simp [followRunning, follow, hnew]
    · rw [okay_set_ne hs hi hj fun c hc _ => hkept c hc, hokay j]
      simp [followRunning, follow, hj]
  · refine Iff.trans ?_ (hokay j)
    refine exists_congr fun g => and_congr_right fun hg => ?_
    rw [okay_congr hs hg fun c _ => hr.spinNodeOnce s.library.state node c]
  · by_cases hj : j = i
    · subst hj
      rw [okay_set_self hi]
      simp [followRunning, follow]
    · rw [okay_set_ne hs hi hj fun c _ hc => hr.shutdown s.library.state g.context c hc, hokay j]
      simp [followRunning, follow, hj]
  · exact iff_of_false (not_okay_interrupt hr hs) (by simp [followRunning])

theorem okay_of_run (hr : r.Lawful) {k : K} {as : List Action} (ht : run (step r y) (initial k) as = some t) (i : ℕ) :
    t.Okay r i ↔ (as.foldl (followRunning y) (fun _ => none) i).isSome := by
  have hinitial : Isolated (initial k) ∧ ∀ i, (initial k).Okay r i ↔ (none : Option Settings).isSome :=
    ⟨isolated_initial k, fun i => by simp [State.Okay, State.handle, initial]⟩
  refine (run_simulates (R := fun (s : State K) (nodes : ℕ → Option Settings) =>
    Isolated s ∧ ∀ i, s.Okay r i ↔ (nodes i).isSome) (fun s nodes a t hs h => ?_) hinitial ht).2 i
  have hrepresents : Represents s fun i => s.made i := ⟨hs.1, fun _ => rfl⟩
  exact ⟨(represents_step hrepresents h).isolated, okay_step hr hs.1 hs.2 h⟩

theorem spinOnce_eq (hr : r.Lawful) (hs : Isolated s) (hi : s.handle i = some h) (hnode : h.node.isSome) :
    (spinOnce r s.library h).map Prod.fst = some (okay r s.library h) := by
  obtain ⟨n, hn⟩ := Option.isSome_iff_exists.mp hnode
  have hcontext := hs.node i h n hi hn
  have hexecutor := (hs.executor i h hi hnode).trans hcontext
  simp [spinOnce, okay, Library.call, hexecutor, hn, hcontext, hr.spinNodeOnce]

end Running

/-! ### What the configurations ask for -/

section Follow

variable {y : Conversions} {nodes running : ℕ → Option Settings} {as : List Action} {random : ℕ} {configuration : Node}
  {settings : Settings} {i : ℕ}

/-- What a configuration asks for: what it has under a key, or the default. -/
structure Asks (y : Conversions) (random : ℕ) (configuration : Node) (settings : Settings) : Prop where
  ns : ∃ node, configuration.index "namespace" = .ok node ∧
    settings.ns = if node.isDefined then asStringOr y "" node else ""
  name : ∃ node, configuration.index "node_name" = .ok node ∧
    settings.name = if node.isDefined then asStringOr y "" node else "is_ros2_node_" ++ toString random
  domain : ∃ node, configuration.index "domain" = .ok node ∧
    if node.isDefined then y.asUnsigned node = .ok settings.domain else settings.domain = 0

theorem asks_of_readSettings (h : readSettings y random configuration = .ok settings) :
    Asks y random configuration settings := by
  obtain ⟨namespaceNode, hns, h⟩ := bind_eq_ok.mp h
  obtain ⟨nameNode, hname, h⟩ := bind_eq_ok.mp h
  obtain ⟨domainNode, hdomain, h⟩ := bind_eq_ok.mp h
  obtain ⟨domain, hvalue, rfl⟩ : ∃ domain, (if domainNode.isDefined then y.asUnsigned domainNode = .ok domain
      else domain = 0) ∧ (⟨_, _, domain⟩ : Settings) = settings := by
    dsimp only at h
    split at h
    · obtain ⟨domain, hd, h⟩ := bind_eq_ok.mp h
      exact ⟨domain, by rwa [if_pos ‹_›], Except.ok.inj h⟩
    · exact ⟨0, by rw [if_neg ‹_›], Except.ok.inj h⟩
  exact ⟨⟨namespaceNode, hns, rfl⟩, ⟨nameNode, hname, rfl⟩, ⟨domainNode, hdomain, hvalue⟩⟩

theorem follow_eq_some {a : Action} (h : follow y nodes a i = some settings) : nodes i = some settings ∨
    ∃ random configuration answers, a = .configure i random configuration answers ∧
      readSettings y random configuration = .ok settings := by
  cases a with
  | create | spinOnce j | interrupt => exact .inl h
  | destroy j =>
    simp only [follow, Function.update_apply] at h
    split at h
    · cases h
    · exact .inl h
  | configure j random configuration answers =>
    simp only [follow, Function.update_apply] at h
    split at h
    · rename_i hj
      subst hj
      unfold started at h
      split at h
      · cases h
      · rename_i settings' hread
        obtain ⟨-, heq⟩ := Option.ite_none_right_eq_some.mp h
        obtain rfl := Option.some.inj heq
        exact .inr ⟨random, configuration, answers, rfl, hread⟩
    · exact .inl h

theorem exists_configure_of_follow (h : as.foldl (follow y) nodes i = some settings) :
    nodes i = some settings ∨ ∃ random configuration answers,
      .configure i random configuration answers ∈ as ∧ readSettings y random configuration = .ok settings := by
  induction as generalizing nodes with
  | nil => exact .inl h
  | cons a as ih =>
    rcases ih h with hnodes | ⟨random, configuration, answers, hmem, hread⟩
    · rcases follow_eq_some hnodes with hold | ⟨random, configuration, answers, rfl, hread⟩
      · exact .inl hold
      · exact .inr ⟨random, configuration, answers, List.mem_cons_self .., hread⟩
    · exact .inr ⟨random, configuration, answers, List.mem_cons_of_mem _ hmem, hread⟩

/-- A node that is to be running was made. -/
theorem follow_of_followRunning (hle : ∀ i settings, running i = some settings → nodes i = some settings)
    (h : as.foldl (followRunning y) running i = some settings) : as.foldl (follow y) nodes i = some settings := by
  induction as generalizing nodes running with
  | nil => exact hle i settings h
  | cons a as ih =>
    refine ih (fun i settings hi => ?_) h
    cases a with
    | interrupt => cases hi
    | create | spinOnce j => exact hle i settings hi
    | configure j random configuration answers | destroy j =>
      simp only [followRunning, follow, Function.update_apply] at hi ⊢
      split at hi
      · rwa [if_pos ‹_›]
      · rw [if_neg ‹_›]
        exact hle i settings hi

end Follow

/-! ### Three handles -/

/-- An `rclcpp` that knows which contexts are okay. -/
def contextFlags : Rclcpp (Option ℕ → Bool) where
  ok k context := k context
  call k
    | .init => Function.update k none true
    | .shutdown context => Function.update k context false
    | .contextInit context _ returns => Function.update k (some context) returns
    | .makeNode _ _ | .spinNodeOnce _ => k
    | .interrupt => fun _ => false

theorem contextFlags_lawful : contextFlags.Lawful where
  init k c := by simp [contextFlags]
  shutdown k context c hc := by simp [contextFlags, hc.symm]
  contextInit k c domainId := by simp [contextFlags]
  contextInit_ne k c domainId returns c' hc := by simp [contextFlags, hc]
  makeNode k node returns c := rfl
  spinNodeOnce k node c := rfl
  interrupt k c := rfl

/-- A handle of the domain 5 and one of the domain 10, and a third one that is destroyed before it is configured. -/
def domainChange : List Action :=
  [.create, .create, .create,
    .configure 0 7 (.map [("type", .scalar "ros2"), ("domain", .scalar "5"), ("node_name", .scalar "is_node_5")])
      ⟨true, true⟩,
    .configure 1 8 (.map [("type", .scalar "ros2"), ("domain", .scalar "10")]) ⟨true, true⟩, .spinOnce 0, .destroy 2]

/-- Conversions that read these two numbers. -/
def domainConversions : Conversions where
  asString
    | .scalar text => .ok text
    | _ => .error .badConversion
  asUnsigned
    | .scalar text => if text = "5" then .ok 5 else if text = "10" then .ok 10 else .error .badConversion
    | _ => .error .badConversion

/-- **Handles are isolated** in every run, whatever `rclcpp` does: no two share a context, the node and the executor of
a handle are in its context, and its node has the name, the namespace and the domain ID that its own configuration asks
for. -/
theorem isolated_of_run (r : Rclcpp K) (y : Conversions) (k : K) (as : List Action) (t : State K)
    (ht : run (step r y) (initial k) as = some t) :
    Isolated t ∧ ∀ i h n, t.handle i = some h → h.node = some n →
      ∃ domain, MadeIn t.library.calls n domain ∧
        as.foldl (follow y) (fun _ => none) i = some ⟨n.ns, n.name, domain⟩ ∧
          ∃ random configuration answers, .configure i random configuration answers ∈ as ∧
            Asks y random configuration ⟨n.ns, n.name, domain⟩ := by
  have hrepresents := represents_of_run ht
  refine ⟨hrepresents.isolated, fun i h n hi hn => ?_⟩
  obtain ⟨domain, hdomain, hmadeIn⟩ := (hrepresents.isolated.recorded i h n hi hn).madeIn hrepresents.isolated.numbered
  have hmade : t.made i = some ⟨n.ns, n.name, domain⟩ := by
    simp [State.made, hi, Handle.made, hn, hdomain]
  rw [hrepresents.made] at hmade
  refine ⟨domain, hmadeIn, hmade, ?_⟩
  rcases exists_configure_of_follow hmade with hnone | ⟨random, configuration, answers, hmem, hread⟩
  · cases hnone
  · exact ⟨random, configuration, answers, hmem, asks_of_readSettings hread⟩

theorem isolated_of_run_domainChange : ∃ t h n,
    run (step contextFlags domainConversions) (initial fun _ => false) domainChange = some t ∧ Isolated t ∧
      t.handle 1 = some h ∧ h.node = some n ∧ n.name = "is_ros2_node_8" ∧ MadeIn t.library.calls n 10 := by
  have hfollow : domainChange.foldl (follow domainConversions) (fun _ => none) 1 =
      some ⟨"", "is_ros2_node_8", 10⟩ := by
    decide
  obtain ⟨t, ht, h, n, hh, hn⟩ : ∃ t, run (step contextFlags domainConversions) (initial fun _ => false) domainChange =
      some t ∧ ∃ h n, t.handle 1 = some h ∧ h.node = some n := ⟨_, rfl, _, _, rfl, rfl⟩
  obtain ⟨hisolated, hmade⟩ := isolated_of_run contextFlags domainConversions (fun _ => false) domainChange t ht
  obtain ⟨domain, hmadeIn, hsettings, -⟩ := hmade 1 h n hh hn
  have heq := Option.some.inj (hfollow.symm.trans hsettings)
  obtain rfl := congrArg Settings.domain heq
  exact ⟨t, h, n, ht, hisolated, hh, hn, (congrArg Settings.name heq).symm, hmadeIn⟩

/-- **What `okay` and `spin_once` say** of a handle, in every run with an `rclcpp` that does what it is documented to
do, is what became of it: it was configured with settings that can be read and that `rclcpp` accepted, and has neither
been destroyed nor interrupted by a signal since.  No other handle makes a difference. -/
theorem running_of_run (r : Rclcpp K) (hr : r.Lawful) (y : Conversions) (k : K) (as : List Action) (t : State K)
    (ht : run (step r y) (initial k) as = some t) (i : ℕ) :
    (t.handle i = none → as.foldl (followRunning y) (fun _ => none) i = none) ∧
      ∀ h, t.handle i = some h →
        okay r t.library h = (as.foldl (followRunning y) (fun _ => none) i).isSome ∧
        (h.node.isSome → (spinOnce r t.library h).map Prod.fst =
          some (as.foldl (followRunning y) (fun _ => none) i).isSome) ∧
        ∀ settings, as.foldl (followRunning y) (fun _ => none) i = some settings →
          h.made t.library.calls = some settings := by
  have hrepresents := represents_of_run ht
  have hokay := okay_of_run hr ht i
  constructor
  · intro hi
    rw [← Option.not_isSome_iff_eq_none, ← hokay]
    rintro ⟨h, hh, -⟩
    rw [hi] at hh
    cases hh
  · intro h hi
    have heq : okay r t.library h = (as.foldl (followRunning y) (fun _ => none) i).isSome := by
      rw [Bool.eq_iff_iff, ← hokay]
      unfold State.Okay
      simp [hi]
    refine ⟨heq, fun hnode => ?_, fun settings hsettings => ?_⟩
    · rw [spinOnce_eq hr hrepresents.isolated hi hnode, heq]
    · have hmade := follow_of_followRunning (fun _ _ hnone => hnone) hsettings
      rw [← hrepresents.made i, State.made, hi] at hmade
      exact hmade

theorem running_of_run_domainChange : ∃ t h,
    run (step contextFlags domainConversions) (initial fun _ => false) domainChange = some t ∧ t.handle 1 = some h ∧
      okay contextFlags t.library h = true ∧ (spinOnce contextFlags t.library h).map Prod.fst = some true ∧
        h.made t.library.calls = some ⟨"", "is_ros2_node_8", 10⟩ := by
  have hfollow : domainChange.foldl (followRunning domainConversions) (fun _ => none) 1 =
      some ⟨"", "is_ros2_node_8", 10⟩ := by
    decide
  obtain ⟨t, ht, h, hh, hnode⟩ : ∃ t, run (step contextFlags domainConversions) (initial fun _ => false) domainChange =
      some t ∧ ∃ h, t.handle 1 = some h ∧ h.node.isSome := ⟨_, rfl, _, rfl, rfl⟩
  obtain ⟨hokay, hspin, hmade⟩ := (running_of_run contextFlags contextFlags_lawful domainConversions (fun _ => false)
    domainChange t ht 1).2 h hh
  rw [hfollow] at hokay hspin
  exact ⟨t, h, ht, hh, hokay, hspin hnode, hmade _ hfollow⟩

end Ros2Sh.SystemHandle.Lifecycle
