import Ros2Sh.Lib.Yaml

/-!
# The quality of service of an endpoint

`parse_rmw_qos_configuration` reads the `qos` node of a topic or of a service and sets the policies it names on
`rclcpp::QoS(10)`.  The definitions follow its sections in their order.  A section that is absent leaves its policy as
it is, a kind that is not one of the documented ones too (the source logs a warning), and a value that does not convert
throws.
-/

namespace Ros2Sh.SystemHandle

open Ros2Sh.Lib.Yaml

inductive History
  | keepLast | keepAll
  deriving DecidableEq, Repr

inductive Reliability
  | reliable | bestEffort
  deriving DecidableEq, Repr

inductive Durability
  | volatile | transientLocal
  deriving DecidableEq, Repr

inductive Liveliness
  | systemDefault | automatic | manualByTopic
  deriving DecidableEq, Repr

/-- `rmw_time_t`. -/
structure Time where
  sec : ℕ
  nsec : ℕ
  deriving DecidableEq, Repr

/-- `rclcpp::QoS`, as far as the handle sets it. -/
structure Qos where
  history : History
  depth : ℕ
  reliability : Reliability
  durability : Durability
  deadline : Time
  lifespan : Time
  liveliness : Liveliness
  livelinessLeaseDuration : Time
  deriving DecidableEq, Repr

namespace Qos

/-- `rclcpp::QoS(depth)`. -/
def ofDepth (depth : ℕ) : Qos where
  history := .keepLast
  depth := depth
  reliability := .reliable
  durability := .volatile
  deadline := ⟨0, 0⟩
  lifespan := ⟨0, 0⟩
  liveliness := .systemDefault
  livelinessLeaseDuration := ⟨0, 0⟩

/-- `qos.keep_last(depth)` also sets the kind of history. -/
def keepLast (qos : Qos) (depth : ℕ) : Qos := { qos with history := .keepLast, depth := depth }

end Qos

/-- `if (parent[key]) { … parent[key] … }` -/
def ifGiven (parent : Node) (key : String) (set : Node → Qos → Except Error Qos) (qos : Qos) : Except Error Qos := do
  let node ← parent.index key
  if node.isDefined then set node qos else return qos

/-- A policy given by the name of its kind. -/
def parseKind (y : Conversions) (set : String → Qos → Qos) (node : Node) (qos : Qos) : Except Error Qos :=
  return set (← y.asString node) qos

def setHistory (kind : String) (qos : Qos) : Qos :=
  if kind = "KEEP_LAST" then { qos with history := .keepLast }
  else if kind = "KEEP_ALL" then { qos with history := .keepAll }
  else qos

def setReliability (kind : String) (qos : Qos) : Qos :=
  if kind = "RELIABLE" then { qos with reliability := .reliable }
  else if kind = "BEST_EFFORT" then { qos with reliability := .bestEffort }
  else qos

def setDurability (kind : String) (qos : Qos) : Qos :=
  if kind = "VOLATILE" then { qos with durability := .volatile }
  else if kind = "TRANSIENT_LOCAL" then { qos with durability := .transientLocal }
  else qos

def setLiveliness (kind : String) (qos : Qos) : Qos :=
  if kind = "AUTOMATIC" then { qos with liveliness := .automatic }
  else if kind = "MANUAL_BY_TOPIC" then { qos with liveliness := .manualByTopic }
  else qos

/-- `if (section[key]) { … = section[readKey].as<uint64_t>(); }`, of a variable that starts at zero. -/
def parseTimeField (y : Conversions) (node : Node) (key readKey : String) : Except Error ℕ := do
  if (← node.index key).isDefined then y.asUnsigned (← node.index readKey) else return 0

/-- A period with the keys `sec` and `nanosec`; its nanoseconds are read from `nanosecKey`. -/
def parseTime (y : Conversions) (nanosecKey : String) (node : Node) : Except Error Time := do
  let sec ← parseTimeField y node "sec" "sec"
  let nsec ← parseTimeField y node "nanosec" nanosecKey
  return ⟨sec, nsec⟩

def parseHistory (y : Conversions) (node : Node) (qos : Qos) : Except Error Qos := do
  let qos ← ifGiven node "kind" (parseKind y setHistory) qos
  ifGiven node "depth" (fun depth qos => return qos.keepLast (← y.asUnsigned depth)) qos

def parseReliability (y : Conversions) : Node → Qos → Except Error Qos := parseKind y setReliability

def parseDurability (y : Conversions) : Node → Qos → Except Error Qos := parseKind y setDurability

def parseDeadline (y : Conversions) (node : Node) (qos : Qos) : Except Error Qos := do
  let period ← parseTime y "nanosec" node
  return { qos with deadline := period }

def parseLifespan (y : Conversions) (node : Node) (qos : Qos) : Except Error Qos := do
  let duration ← parseTime y "nanosec" node
  return { qos with lifespan := duration }

def parseLiveliness (y : Conversions) (node : Node) (qos : Qos) : Except Error Qos := do
  let qos ← ifGiven node "kind" (parseKind y setLiveliness) qos
  -- the source reads the seconds again here
  let leaseDuration ← parseTime y "sec" node
  return { qos with livelinessLeaseDuration := leaseDuration }

/-- `parse_rmw_qos_configuration`. -/
def parseRmwQosConfiguration (y : Conversions) (configuration : Node) : Except Error Qos := do
  let qos := Qos.ofDepth 10
  if configuration.isDefined then
    let qos ← ifGiven configuration "history" (parseHistory y) qos
    let qos ← ifGiven configuration "reliability" (parseReliability y) qos
    let qos ← ifGiven configuration "durability" (parseDurability y) qos
    let qos ← ifGiven configuration "deadline" (parseDeadline y) qos
    let qos ← ifGiven configuration "lifespan" (parseLifespan y) qos
    ifGiven configuration "liveliness" (parseLiveliness y) qos
  else return qos

end Ros2Sh.SystemHandle
