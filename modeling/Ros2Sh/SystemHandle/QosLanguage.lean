import Mathlib.Tactic.SplitIfs
import Ros2Sh.Lib.Fold
import Ros2Sh.SystemHandle.Qos

/-!
# The configuration language of the quality of service

The README documents the keys of a `qos` node and what they mean.  A `QosConfiguration` is what such a node says, with
the keys that are not given left out; `Describes` ties it to the node.

For a node that says `config`, `parse_rmw_qos_configuration` returns the profile of `profile_eq`, unless the lease
duration cannot be read (`parse_eq`).  It departs from the documented language in two places: the nanoseconds of the
lease duration are read from the key `sec` (`periodsDecoded_iff`), and a depth resets the kind of the history to
`KEEP_LAST` (`followsLanguage_iff`).
-/

namespace Ros2Sh.SystemHandle

open Ros2Sh.Lib Ros2Sh.Lib.Yaml

/-! ### What a node says -/

structure PeriodConfiguration where
  sec : Option ℕ
  nanosec : Option ℕ

structure HistoryConfiguration where
  kind : Option String
  depth : Option ℕ

structure LivelinessConfiguration where
  kind : Option String
  leaseDuration : PeriodConfiguration

structure QosConfiguration where
  history : Option HistoryConfiguration
  reliability : Option String
  durability : Option String
  deadline : Option PeriodConfiguration
  lifespan : Option PeriodConfiguration
  liveliness : Option LivelinessConfiguration

/-- The key is absent, or given with a node that is read as the value. -/
def Given {α : Type} (reads : Node → α → Prop) (parent : Node) (key : String) : Option α → Prop
  | none => parent.index key = .ok .undefined
  | some value => ∃ node, parent.index key = .ok node ∧ node.isDefined = true ∧ reads node value

section Describes

variable (y : Conversions) (node : Node)

def ReadsString (kind : String) : Prop := y.asString node = .ok kind

def ReadsUnsigned (n : ℕ) : Prop := y.asUnsigned node = .ok n

structure ReadsPeriod (config : PeriodConfiguration) : Prop where
  sec : Given (ReadsUnsigned y) node "sec" config.sec
  nanosec : Given (ReadsUnsigned y) node "nanosec" config.nanosec

structure ReadsHistory (config : HistoryConfiguration) : Prop where
  kind : Given (ReadsString y) node "kind" config.kind
  depth : Given (ReadsUnsigned y) node "depth" config.depth

structure ReadsLiveliness (config : LivelinessConfiguration) : Prop where
  kind : Given (ReadsString y) node "kind" config.kind
  leaseDuration : ReadsPeriod y node config.leaseDuration

structure ReadsSections (config : QosConfiguration) : Prop where
  history : Given (ReadsHistory y) node "history" config.history
  reliability : Given (ReadsString y) node "reliability" config.reliability
  durability : Given (ReadsString y) node "durability" config.durability
  deadline : Given (ReadsPeriod y) node "deadline" config.deadline
  lifespan : Given (ReadsPeriod y) node "lifespan" config.lifespan
  liveliness : Given (ReadsLiveliness y) node "liveliness" config.liveliness

/-- The `qos` node says `config`; a node that is not there says nothing. -/
def Describes (config : QosConfiguration) : Prop :=
  if node.isDefined then ReadsSections y node config else config = ⟨none, none, none, none, none, none⟩

end Describes

/-! ### What it means -/

/-- The documented value of a kind; without a kind, and for any other kind, the default. -/
def documented {α : Type} (names : List (String × α)) (kind : Option String) (default : α) : α :=
  (kind.bind fun name => names.lookup name).getD default

def historyKinds : List (String × History) := [("KEEP_LAST", .keepLast), ("KEEP_ALL", .keepAll)]

def reliabilityKinds : List (String × Reliability) := [("RELIABLE", .reliable), ("BEST_EFFORT", .bestEffort)]

def durabilityKinds : List (String × Durability) := [("VOLATILE", .volatile), ("TRANSIENT_LOCAL", .transientLocal)]

def livelinessKinds : List (String × Liveliness) := [("AUTOMATIC", .automatic), ("MANUAL_BY_TOPIC", .manualByTopic)]

def PeriodConfiguration.time (config : PeriodConfiguration) : Time := ⟨config.sec.getD 0, config.nanosec.getD 0⟩

namespace QosConfiguration

variable (config : QosConfiguration)

def historyKind : Option String := config.history.bind HistoryConfiguration.kind

def depth : Option ℕ := config.history.bind HistoryConfiguration.depth

def livelinessKind : Option String := config.liveliness.bind LivelinessConfiguration.kind

def leaseDuration : Option PeriodConfiguration := config.liveliness.map LivelinessConfiguration.leaseDuration

end QosConfiguration

/-- The period of a section; the default when the section is absent. -/
def decoded (config : Option PeriodConfiguration) (default : Time) : Time :=
  (config.map PeriodConfiguration.time).getD default

/-- `parse_rmw_qos_configuration` returns, and it has set the three periods to what the configuration says. -/
def PeriodsDecoded (y : Conversions) (node : Node) (config : QosConfiguration) : Prop :=
  ∃ qos, parseRmwQosConfiguration y node = .ok qos ∧
    qos.deadline = decoded config.deadline (Qos.ofDepth 10).deadline ∧
      qos.lifespan = decoded config.lifespan (Qos.ofDepth 10).lifespan ∧
        qos.livelinessLeaseDuration = decoded config.leaseDuration (Qos.ofDepth 10).livelinessLeaseDuration

/-- The profile has the policies that the documentation gives to the configuration. -/
structure FollowsLanguage (config : QosConfiguration) (qos : Qos) : Prop where
  keepAll : qos.history = .keepAll ↔ config.historyKind = some "KEEP_ALL"
  keepLast : config.historyKind ≠ some "KEEP_ALL" → qos.history = .keepLast ∧ qos.depth = config.depth.getD 10
  reliability : qos.reliability = documented reliabilityKinds config.reliability (Qos.ofDepth 10).reliability
  durability : qos.durability = documented durabilityKinds config.durability (Qos.ofDepth 10).durability
  liveliness : qos.liveliness = documented livelinessKinds config.livelinessKind (Qos.ofDepth 10).liveliness

/-! ### The sections -/

/-- A change to the profile that is made when the value is given. -/
def whenGiven {α : Type} (value : Option α) (f : α → Qos → Qos) (qos : Qos) : Qos := value.elim qos fun a => f a qos

section Sections

variable {y : Conversions} {node parent : Node} {key kind : String} {qos : Qos} {α : Type}

theorem ifGiven_eq {reads : Node → α → Prop} {set : Node → Qos → Except Error Qos} {f : α → Qos → Except Error Qos}
    {value : Option α} (h : Given reads parent key value)
    (hset : ∀ node a, reads node a → ∀ qos, set node qos = f a qos) :
    ifGiven parent key set qos = value.elim (.ok qos) fun a => f a qos := by
  cases value with
  | none =>
    have hindex : parent.index key = .ok .undefined := h
    unfold ifGiven
    rw [hindex]
    rfl
  | some a =>
    obtain ⟨node, hindex, hdefined, hreads⟩ := h
    unfold ifGiven
    rw [hindex]
    show (if node.isDefined then set node qos else pure qos) = f a qos
    rw [if_pos hdefined, hset node a hreads]

theorem ifGiven_ok {reads : Node → α → Prop} {set : Node → Qos → Except Error Qos} {f : α → Qos → Qos}
    {value : Option α} (h : Given reads parent key value)
    (hset : ∀ node a, reads node a → ∀ qos, set node qos = .ok (f a qos)) :
    ifGiven parent key set qos = .ok (whenGiven value f qos) := by
  rw [ifGiven_eq h hset]
  cases value <;> rfl

theorem parseKind_eq {set : String → Qos → Qos} (h : ReadsString y node kind) :
    parseKind y set node qos = .ok (set kind qos) := by
  have hkind : y.asString node = .ok kind := h
  unfold parseKind
  rw [hkind]
  rfl

theorem parseTimeField_eq {value : Option ℕ} (readKey : String) (h : Given (ReadsUnsigned y) node key value) :
    parseTimeField y node key readKey =
      value.elim (.ok 0) fun _ => node.index readKey >>= y.asUnsigned := by
  unfold parseTimeField
  cases value with
  | none =>
    have hindex : node.index key = .ok .undefined := h
    rw [hindex]
    rfl
  | some n =>
    obtain ⟨child, hindex, hdefined, -⟩ := h
    rw [hindex]
    show (if child.isDefined then node.index readKey >>= y.asUnsigned else pure 0) = _
    rw [if_pos hdefined]
    rfl

theorem index_bind_asUnsigned {value : Option ℕ} (h : Given (ReadsUnsigned y) node key value) :
    (node.index key >>= y.asUnsigned) = value.elim (y.asUnsigned .undefined) .ok := by
  cases value with
  | none =>
    have hindex : node.index key = .ok .undefined := h
    rw [hindex]
    rfl
  | some n =>
    obtain ⟨child, hindex, -, hreads⟩ := h
    rw [hindex]
    exact hreads

theorem parseTimeField_own {value : Option ℕ} (h : Given (ReadsUnsigned y) node key value) :
    parseTimeField y node key key = .ok (value.getD 0) := by
  rw [parseTimeField_eq key h, index_bind_asUnsigned h]
  cases value <;> rfl

/-- The nanoseconds that the code finds for the lease duration: those of the key `sec`, if `nanosec` is given. -/
def PeriodConfiguration.leaseNanosec (y : Conversions) (config : PeriodConfiguration) : Except Error ℕ :=
  config.nanosec.elim (.ok 0) fun _ => config.sec.elim (y.asUnsigned .undefined) .ok

theorem parseTime_eq {config : PeriodConfiguration} (h : ReadsPeriod y node config) :
    parseTime y "nanosec" node = .ok config.time := by
  unfold parseTime
  rw [parseTimeField_own h.sec, parseTimeField_own h.nanosec]
  rfl

theorem parseTime_lease {config : PeriodConfiguration} (h : ReadsPeriod y node config) :
    parseTime y "sec" node = (config.leaseNanosec y).map fun nsec => ⟨config.sec.getD 0, nsec⟩ := by
  unfold parseTime PeriodConfiguration.leaseNanosec
  rw [parseTimeField_own h.sec, parseTimeField_eq "sec" h.nanosec, index_bind_asUnsigned h.sec]
  generalize (config.nanosec.elim (.ok 0) fun _ => config.sec.elim (y.asUnsigned .undefined) .ok) = nsec
  cases nsec <;> rfl

/-- What a `history` section does to the profile. -/
def HistoryConfiguration.apply (config : HistoryConfiguration) (qos : Qos) : Qos :=
  whenGiven config.depth (fun depth qos => qos.keepLast depth) (whenGiven config.kind setHistory qos)

theorem parseHistory_eq {config : HistoryConfiguration} (h : ReadsHistory y node config) :
    parseHistory y node qos = .ok (config.apply qos) := by
  have hkind : ∀ node kind, ReadsString y node kind → ∀ qos,
      parseKind y setHistory node qos = .ok (setHistory kind qos) := fun _ _ hreads _ => parseKind_eq hreads
  have hdepth : ∀ node n, ReadsUnsigned y node n → ∀ qos : Qos,
      (do return qos.keepLast (← y.asUnsigned node) : Except Error Qos) = .ok (qos.keepLast n) := by
    intro node n hreads qos
    have hn : y.asUnsigned node = .ok n := hreads
    rw [hn]
    rfl
  unfold parseHistory
  rw [ifGiven_ok h.kind hkind]
  exact ifGiven_ok h.depth hdepth

/-- What a `liveliness` section does to the profile, when the nanoseconds found are `nsec`. -/
def LivelinessConfiguration.apply (config : LivelinessConfiguration) (nsec : ℕ) (qos : Qos) : Qos :=
  { whenGiven config.kind setLiveliness qos with
    livelinessLeaseDuration := ⟨config.leaseDuration.sec.getD 0, nsec⟩ }

theorem parseLiveliness_eq {config : LivelinessConfiguration} (h : ReadsLiveliness y node config) :
    parseLiveliness y node qos =
      (config.leaseDuration.leaseNanosec y).map fun nsec => config.apply nsec qos := by
  have hkind : ∀ node kind, ReadsString y node kind → ∀ qos,
      parseKind y setLiveliness node qos = .ok (setLiveliness kind qos) := fun _ _ hreads _ => parseKind_eq hreads
  unfold parseLiveliness
  rw [ifGiven_ok h.kind hkind, parseTime_lease h.leaseDuration]
  cases config.leaseDuration.leaseNanosec y <;> rfl

/-! ### The whole node -/

/-- The nanoseconds that the code finds for the lease duration. -/
def QosConfiguration.leaseNanosec (y : Conversions) (config : QosConfiguration) : Except Error ℕ :=
  config.leaseDuration.elim (.ok 0) (PeriodConfiguration.leaseNanosec y)

/-- What the sections do to `rclcpp::QoS(10)`, one after the other. -/
def QosConfiguration.profile (config : QosConfiguration) (nsec : ℕ) : Qos :=
  whenGiven config.liveliness (fun liveliness qos => liveliness.apply nsec qos) <|
    whenGiven config.lifespan (fun duration qos => { qos with lifespan := duration.time }) <|
      whenGiven config.deadline (fun period qos => { qos with deadline := period.time }) <|
        whenGiven config.durability setDurability <|
          whenGiven config.reliability setReliability <|
            whenGiven config.history HistoryConfiguration.apply (Qos.ofDepth 10)

theorem parse_of_sections {config : QosConfiguration} (hdefined : node.isDefined = true)
    (h : ReadsSections y node config) :
    parseRmwQosConfiguration y node = (config.leaseNanosec y).map config.profile := by
  have hreliability : ∀ node kind, ReadsString y node kind → ∀ qos,
      parseReliability y node qos = .ok (setReliability kind qos) := fun _ _ hreads _ => parseKind_eq hreads
  have hdurability : ∀ node kind, ReadsString y node kind → ∀ qos,
      parseDurability y node qos = .ok (setDurability kind qos) := fun _ _ hreads _ => parseKind_eq hreads
  have hdeadline : ∀ node period, ReadsPeriod y node period → ∀ qos,
      parseDeadline y node qos = .ok { qos with deadline := period.time } := by
    intro node period hreads qos
    unfold parseDeadline
    rw [parseTime_eq hreads]
    rfl
  have hlifespan : ∀ node duration, ReadsPeriod y node duration → ∀ qos,
      parseLifespan y node qos = .ok { qos with lifespan := duration.time } := by
    intro node duration hreads qos
    unfold parseLifespan
    rw [parseTime_eq hreads]
    rfl
  have hhistory : ∀ node history, ReadsHistory y node history → ∀ qos,
      parseHistory y node qos = .ok (history.apply qos) := fun _ _ hreads _ => parseHistory_eq hreads
  have hliveliness : ∀ node liveliness, ReadsLiveliness y node liveliness → ∀ qos, parseLiveliness y node qos =
      (liveliness.leaseDuration.leaseNanosec y).map fun nsec => liveliness.apply nsec qos :=
    fun _ _ hreads _ => parseLiveliness_eq hreads
  unfold parseRmwQosConfiguration
  rw [if_pos hdefined, ifGiven_ok h.history hhistory]
  simp only [bind, Except.bind]
  rw [ifGiven_ok h.reliability hreliability]
  simp only
  rw [ifGiven_ok h.durability hdurability]
  simp only
  rw [ifGiven_ok h.deadline hdeadline]
  simp only
  rw [ifGiven_ok h.lifespan hlifespan]
  simp only
  rw [ifGiven_eq h.liveliness hliveliness]
  unfold QosConfiguration.leaseNanosec QosConfiguration.leaseDuration QosConfiguration.profile
  cases config.liveliness <;> rfl

/-- **The parser on a described node** returns a profile, unless the nanoseconds of the lease duration cannot be
read. -/
theorem parse_eq {config : QosConfiguration} (h : Describes y node config) :
    parseRmwQosConfiguration y node = (config.leaseNanosec y).map config.profile := by
  unfold Describes at h
  split at h
  · rename_i hdefined
    exact parse_of_sections hdefined h
  · rename_i hundefined
    subst h
    unfold parseRmwQosConfiguration
    rw [if_neg hundefined]
    rfl

end Sections

/-! ### The policies of the profile -/

section Profile

variable (config : QosConfiguration) (nsec : ℕ) (qos : Qos) (kind : Option String)

theorem documented_pair {α : Type} (a b name : String) (x z default : α) :
    documented [(a, x), (b, z)] (some name) default = if name = a then x else if name = b then z else default := by
  by_cases ha : name = a
  · simp [documented, ha]
  · by_cases hb : name = b
    · subst hb
      simp [documented, List.lookup_cons, beq_false_of_ne ha, ha]
    · simp [documented, List.lookup_cons, beq_false_of_ne ha, beq_false_of_ne hb, ha, hb]

theorem whenGiven_kind {α : Type} {set : String → Qos → Qos} {a b : String} {x z default : α} (update : α → Qos)
    (hset : ∀ kind, set kind qos = if kind = a then update x else if kind = b then update z else qos)
    (hself : update default = qos) :
    whenGiven kind set qos = update (documented [(a, x), (b, z)] kind default) := by
  cases kind with
  | none => exact hself.symm
  | some kind =>
    show set kind qos = _
    rw [hset, documented_pair]
    split_ifs
    · rfl
    · rfl
    · exact hself.symm

theorem setHistory_eq : whenGiven kind setHistory qos =
    { qos with history := documented historyKinds kind qos.history } :=
  whenGiven_kind qos kind (fun history => { qos with history := history }) (fun _ => rfl) rfl

theorem setReliability_eq : whenGiven kind setReliability qos =
    { qos with reliability := documented reliabilityKinds kind qos.reliability } :=
  whenGiven_kind qos kind (fun reliability => { qos with reliability := reliability }) (fun _ => rfl) rfl

theorem setDurability_eq : whenGiven kind setDurability qos =
    { qos with durability := documented durabilityKinds kind qos.durability } :=
  whenGiven_kind qos kind (fun durability => { qos with durability := durability }) (fun _ => rfl) rfl

theorem setLiveliness_eq : whenGiven kind setLiveliness qos =
    { qos with liveliness := documented livelinessKinds kind qos.liveliness } :=
  whenGiven_kind qos kind (fun liveliness => { qos with liveliness := liveliness }) (fun _ => rfl) rfl

/-- A depth makes the history one of kind `KEEP_LAST`, whatever kind was set before. -/
theorem applyHistory_eq : whenGiven config.history HistoryConfiguration.apply qos =
    { qos with
      history := if config.depth.isSome then .keepLast else documented historyKinds config.historyKind qos.history
      depth := config.depth.getD qos.depth } := by
  unfold QosConfiguration.depth QosConfiguration.historyKind
  cases config.history with
  | none => rfl
  | some history =>
    show history.apply qos = _
    unfold HistoryConfiguration.apply
    rw [setHistory_eq, Option.bind_some, Option.bind_some]
    cases history.depth <;> rfl

theorem applyLiveliness_eq :
    whenGiven config.liveliness (fun liveliness qos => liveliness.apply nsec qos) qos =
    { qos with
      liveliness := documented livelinessKinds config.livelinessKind qos.liveliness
      livelinessLeaseDuration :=
        (config.leaseDuration.map fun period => ⟨period.sec.getD 0, nsec⟩).getD qos.livelinessLeaseDuration } := by
  unfold QosConfiguration.livelinessKind QosConfiguration.leaseDuration
  cases config.liveliness with
  | none => rfl
  | some liveliness =>
    show liveliness.apply nsec qos = _
    unfold LivelinessConfiguration.apply
    rw [setLiveliness_eq]
    rfl

/-- Each policy of the profile in terms of its own section. -/
theorem profile_eq : config.profile nsec =
    { history := if config.depth.isSome then .keepLast else documented historyKinds config.historyKind .keepLast
      depth := config.depth.getD 10
      reliability := documented reliabilityKinds config.reliability .reliable
      durability := documented durabilityKinds config.durability .volatile
      deadline := decoded config.deadline ⟨0, 0⟩
      lifespan := decoded config.lifespan ⟨0, 0⟩
      liveliness := documented livelinessKinds config.livelinessKind .systemDefault
      livelinessLeaseDuration := (config.leaseDuration.map fun period => ⟨period.sec.getD 0, nsec⟩).getD ⟨0, 0⟩ } := by
  have hdeadline : ∀ qos : Qos, whenGiven config.deadline (fun period qos => { qos with deadline := period.time }) qos =
      { qos with deadline := decoded config.deadline qos.deadline } := by
    intro qos
    cases config.deadline <;> rfl
  have hlifespan : ∀ qos : Qos,
      whenGiven config.lifespan (fun duration qos => { qos with lifespan := duration.time }) qos =
        { qos with lifespan := decoded config.lifespan qos.lifespan } := by
    intro qos
    cases config.lifespan <;> rfl
  unfold QosConfiguration.profile
  rw [applyHistory_eq, setReliability_eq, setDurability_eq, hdeadline, hlifespan, applyLiveliness_eq]
  rfl

end Profile

/-! ### Where the profile departs from the language -/

section Language

variable (y : Conversions) (node : Node) (config : QosConfiguration) (qos : Qos)

/-- The nanoseconds of the lease duration, if they are given, can be found under the key `sec`. -/
def LeaseFromSeconds : Prop :=
  ∀ period, config.leaseDuration = some period → ∀ n, period.nanosec = some n → period.sec = some n

/-- `KEEP_ALL` comes without a depth. -/
def NoDepthWithKeepAll : Prop := config.historyKind = some "KEEP_ALL" → config.depth = none

/-- The nanoseconds of the lease duration come with its seconds. -/
def SecondsWithNanoseconds : Prop :=
  ∀ period, config.leaseDuration = some period → period.nanosec.isSome → period.sec.isSome

variable {y node config qos}

theorem leaseNanosec_of_leaseFromSeconds (h : LeaseFromSeconds config) :
    config.leaseNanosec y = .ok ((config.leaseDuration.bind PeriodConfiguration.nanosec).getD 0) := by
  unfold QosConfiguration.leaseNanosec
  cases hlease : config.leaseDuration with
  | none => rfl
  | some period =>
    show period.leaseNanosec y = .ok (period.nanosec.getD 0)
    unfold PeriodConfiguration.leaseNanosec
    cases hnanosec : period.nanosec with
    | none => rfl
    | some n =>
      rw [h period hlease n hnanosec]
      rfl

theorem leaseFromSeconds_of_leaseNanosec {period : PeriodConfiguration} {n : ℕ}
    (hy : ∃ e, y.asUnsigned .undefined = .error e) (hlease : config.leaseDuration = some period)
    (h : config.leaseNanosec y = .ok (period.nanosec.getD 0)) (hnanosec : period.nanosec = some n) :
    period.sec = some n := by
  unfold QosConfiguration.leaseNanosec at h
  rw [hlease] at h
  change period.leaseNanosec y = _ at h
  unfold PeriodConfiguration.leaseNanosec at h
  rw [hnanosec] at h
  change period.sec.elim (y.asUnsigned .undefined) .ok = .ok n at h
  cases hsec : period.sec with
  | none =>
    obtain ⟨e, he⟩ := hy
    rw [hsec] at h
    change y.asUnsigned .undefined = .ok n at h
    rw [he] at h
    cases h
  | some m =>
    rw [hsec] at h
    rw [Except.ok.inj h]

/-- The nanoseconds of the lease duration are read, rightly or not, when there are seconds. -/
theorem exists_leaseNanosec_iff (hy : ∃ e, y.asUnsigned .undefined = .error e) :
    (∃ n, config.leaseNanosec y = .ok n) ↔ SecondsWithNanoseconds config := by
  unfold QosConfiguration.leaseNanosec SecondsWithNanoseconds
  cases config.leaseDuration with
  | none => exact ⟨fun _ _ h => (nomatch h), fun _ => ⟨0, rfl⟩⟩
  | some period =>
    have hperiod : (∃ n, period.leaseNanosec y = .ok n) ↔ (period.nanosec.isSome → period.sec.isSome) := by
      unfold PeriodConfiguration.leaseNanosec
      cases period.nanosec with
      | none => exact ⟨fun _ h => (nomatch h), fun _ => ⟨0, rfl⟩⟩
      | some n =>
        cases period.sec with
        | none =>
          obtain ⟨e, he⟩ := hy
          refine ⟨fun ⟨m, hm⟩ => ?_, fun h => (nomatch h rfl)⟩
          change y.asUnsigned .undefined = .ok m at hm
          rw [he] at hm
          cases hm
        | some m => exact ⟨fun _ _ => rfl, fun _ => ⟨m, rfl⟩⟩
    refine hperiod.trans ⟨fun h period' heq => ?_, fun h => h period rfl⟩
    obtain rfl := Option.some.inj heq
    exact h

/-- **The three periods** are decoded faithfully exactly when the nanoseconds of the lease duration are not given, or
are the same number as its seconds. -/
theorem periodsDecoded_iff (y : Conversions) (hy : ∃ e, y.asUnsigned .undefined = .error e) (node : Node)
    (config : QosConfiguration) (h : Describes y node config) :
    PeriodsDecoded y node config ↔ LeaseFromSeconds config := by
  constructor
  · rintro ⟨qos, hqos, -, -, hduration⟩ period hlease n hnanosec
    rw [parse_eq h] at hqos
    obtain ⟨nsec, hnsec, rfl⟩ := map_eq_ok.mp hqos
    unfold decoded at hduration
    rw [profile_eq, hlease] at hduration
    have htime : (⟨period.sec.getD 0, nsec⟩ : Time) = ⟨period.sec.getD 0, period.nanosec.getD 0⟩ := hduration
    obtain rfl : nsec = period.nanosec.getD 0 := congrArg Time.nsec htime
    exact leaseFromSeconds_of_leaseNanosec hy hlease hnsec hnanosec
  · intro hlease
    have hnsec := leaseNanosec_of_leaseFromSeconds (y := y) hlease
    refine ⟨_, by rw [parse_eq h, hnsec]; rfl, ?_, ?_, ?_⟩
    · rw [profile_eq]
      rfl
    · rw [profile_eq]
      rfl
    · rw [profile_eq]
      unfold decoded
      cases config.leaseDuration <;> rfl

theorem documented_history_eq_keepAll_iff {kind : Option String} :
    documented historyKinds kind .keepLast = .keepAll ↔ kind = some "KEEP_ALL" := by
  cases kind with
  | none => simp [documented]
  | some name =>
    rw [historyKinds, documented_pair]
    by_cases hlast : name = "KEEP_LAST"
    · subst hlast
      simp
    · by_cases hall : name = "KEEP_ALL"
      · subst hall
        simp
      · simp [hlast, hall]

theorem history_profile_eq_keepAll_iff (config : QosConfiguration) (nsec : ℕ) :
    (config.profile nsec).history = .keepAll ↔ config.depth = none ∧ config.historyKind = some "KEEP_ALL" := by
  rw [profile_eq]
  show (if config.depth.isSome then .keepLast else documented historyKinds config.historyKind .keepLast) =
    History.keepAll ↔ _
  cases config.depth with
  | none => exact documented_history_eq_keepAll_iff.trans (and_iff_right rfl).symm
  | some n => exact ⟨fun h => (nomatch h), fun h => nomatch h.1⟩

theorem followsLanguage_profile_iff (config : QosConfiguration) (nsec : ℕ) :
    FollowsLanguage config (config.profile nsec) ↔ NoDepthWithKeepAll config := by
  have hhistory := history_profile_eq_keepAll_iff config nsec
  constructor
  · intro hfollows hkind
    exact (hhistory.mp (hfollows.keepAll.mpr hkind)).1
  · intro hdepth
    have hkeepAll : (config.profile nsec).history = .keepAll ↔ config.historyKind = some "KEEP_ALL" :=
      hhistory.trans (and_iff_right_of_imp hdepth)
    refine ⟨hkeepAll, fun hkind => ⟨?_, ?_⟩, ?_, ?_, ?_⟩
    · cases hlast : (config.profile nsec).history with
      | keepLast => rfl
      | keepAll => exact absurd (hkeepAll.mp hlast) hkind
    · rw [profile_eq]
    · rw [profile_eq]
      rfl
    · rw [profile_eq]
      rfl
    · rw [profile_eq]
      rfl

/-- **The policies** of the profile that is returned follow the documented language exactly when no depth is given with
`KEEP_ALL`; and a profile is returned exactly when the seconds of the lease duration are given with its nanoseconds. -/
theorem followsLanguage_iff (y : Conversions) (hy : ∃ e, y.asUnsigned .undefined = .error e) (node : Node)
    (config : QosConfiguration) (h : Describes y node config) :
    (∃ qos, parseRmwQosConfiguration y node = .ok qos ∧ FollowsLanguage config qos) ↔
      NoDepthWithKeepAll config ∧ SecondsWithNanoseconds config := by
  rw [parse_eq h, ← exists_leaseNanosec_iff hy]
  constructor
  · rintro ⟨qos, hqos, hfollows⟩
    obtain ⟨nsec, hnsec, rfl⟩ := map_eq_ok.mp hqos
    exact ⟨(followsLanguage_profile_iff config nsec).mp hfollows, nsec, hnsec⟩
  · rintro ⟨hdepth, nsec, hnsec⟩
    exact ⟨config.profile nsec, map_eq_ok.mpr ⟨nsec, hnsec, rfl⟩, (followsLanguage_profile_iff config nsec).mpr hdepth⟩

end Language

/-! ### The example of the README -/

/-- Conversions that read scalars only, and numbers in decimal digits. -/
def decimalConversions : Conversions where
  asString
    | .scalar text => .ok text
    | .undefined | .null | .sequence _ | .map _ => .error .badConversion
  asUnsigned
    | .scalar text =>
      if text.toList.all Char.isDigit then .ok (Nat.ofDigitChars 10 text.toList 0) else .error .badConversion
    | .undefined | .null | .sequence _ | .map _ => .error .badConversion

/-- `deadline: { sec: 1, nanosec: 10}, …, liveliness: { kind: AUTOMATIC, sec: 2, nanosec: 0 }, reliability: RELIABLE` -/
def documentedNode : Node :=
  .map [("deadline", .map [("sec", .scalar "1"), ("nanosec", .scalar "10")]),
    ("durability", .scalar "VOLATILE"),
    ("history", .map [("kind", .scalar "KEEP_LAST"), ("depth", .scalar "10")]),
    ("lifespan", .map [("sec", .scalar "2"), ("nanosec", .scalar "20")]),
    ("liveliness", .map [("kind", .scalar "AUTOMATIC"), ("sec", .scalar "2"), ("nanosec", .scalar "0")]),
    ("reliability", .scalar "RELIABLE")]

def documentedConfiguration : QosConfiguration where
  history := some ⟨some "KEEP_LAST", some 10⟩
  reliability := some "RELIABLE"
  durability := some "VOLATILE"
  deadline := some ⟨some 1, some 10⟩
  lifespan := some ⟨some 2, some 20⟩
  liveliness := some ⟨some "AUTOMATIC", some 2, some 0⟩

theorem describes_documented : Describes decimalConversions documentedNode documentedConfiguration where
  history := ⟨_, rfl, rfl, ⟨_, rfl, rfl, rfl⟩, ⟨_, rfl, rfl, rfl⟩⟩
  reliability := ⟨_, rfl, rfl, rfl⟩
  durability := ⟨_, rfl, rfl, rfl⟩
  deadline := ⟨_, rfl, rfl, ⟨_, rfl, rfl, rfl⟩, ⟨_, rfl, rfl, rfl⟩⟩
  lifespan := ⟨_, rfl, rfl, ⟨_, rfl, rfl, rfl⟩, ⟨_, rfl, rfl, rfl⟩⟩
  liveliness := ⟨_, rfl, rfl, ⟨_, rfl, rfl, rfl⟩, ⟨_, rfl, rfl, rfl⟩, ⟨_, rfl, rfl, rfl⟩⟩

theorem periodsDecoded_iff_documented :
    PeriodsDecoded decimalConversions documentedNode documentedConfiguration ↔
      LeaseFromSeconds documentedConfiguration :=
  periodsDecoded_iff decimalConversions ⟨_, rfl⟩ documentedNode documentedConfiguration describes_documented

/-- The lease duration of the README's example gets two nanoseconds instead of none. -/
theorem not_periodsDecoded_documented :
    Describes decimalConversions documentedNode documentedConfiguration ∧
      ¬ PeriodsDecoded decimalConversions documentedNode documentedConfiguration := by
  refine ⟨describes_documented, ?_⟩
  rintro ⟨qos, hqos, -, -, hduration⟩
  have hparse : (parseRmwQosConfiguration decimalConversions documentedNode).map Qos.livelinessLeaseDuration =
      .ok ⟨2, 2⟩ := rfl
  rw [hqos] at hparse
  have htime : qos.livelinessLeaseDuration = ⟨2, 2⟩ := Except.ok.inj hparse
  rw [htime] at hduration
  exact absurd hduration (by decide)

theorem followsLanguage_iff_documented :
    (∃ qos, parseRmwQosConfiguration decimalConversions documentedNode = .ok qos ∧
        FollowsLanguage documentedConfiguration qos) ↔
      NoDepthWithKeepAll documentedConfiguration ∧ SecondsWithNanoseconds documentedConfiguration :=
  followsLanguage_iff decimalConversions ⟨_, rfl⟩ documentedNode documentedConfiguration describes_documented

def keepAllNode : Node := .map [("history", .map [("kind", .scalar "KEEP_ALL"), ("depth", .scalar "5")])]

def keepAllConfiguration : QosConfiguration where
  history := some ⟨some "KEEP_ALL", some 5⟩
  reliability := none
  durability := none
  deadline := none
  lifespan := none
  liveliness := none

/-- With a depth of five, `KEEP_ALL` becomes `KEEP_LAST`. -/
theorem not_followsLanguage_keepAll :
    Describes decimalConversions keepAllNode keepAllConfiguration ∧
      ¬ ∃ qos, parseRmwQosConfiguration decimalConversions keepAllNode = .ok qos ∧
        FollowsLanguage keepAllConfiguration qos := by
  refine ⟨⟨⟨_, rfl, rfl, ⟨_, rfl, rfl, rfl⟩, ⟨_, rfl, rfl, rfl⟩⟩, rfl, rfl, rfl, rfl, rfl⟩, ?_⟩
  rintro ⟨qos, hqos, hfollows⟩
  have hparse : parseRmwQosConfiguration decimalConversions keepAllNode =
      .ok { Qos.ofDepth 10 with depth := 5 } := rfl
  obtain rfl := Except.ok.inj (hparse.symm.trans hqos)
  exact absurd (hfollows.keepAll.mpr rfl) (by decide)

end Ros2Sh.SystemHandle
