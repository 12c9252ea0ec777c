import Ros2Sh.SystemHandle.QosLanguage

/-!
# The profiles that can be configured

Which profiles `parse_rmw_qos_configuration` returns at all, over all nodes: those of `Configurable`.  The two places
where the function departs from the documented language leave their mark on them.  A history of kind `KEEP_ALL` has the
default depth, and the nanoseconds of a lease duration are none or as many as its seconds; no configuration, documented
or not, can have it otherwise (`configurable_iff`).

That nothing else is lost needs a node for each configuration (`exists_describes`).
-/

namespace Ros2Sh.SystemHandle

open Ros2Sh.Lib Ros2Sh.Lib.Yaml

/-- What is assumed of the conversions: each string and each 64-bit number is what some node is read as, and a number
that is read has 64 bits. -/
structure ReadsAll (y : Conversions) : Prop where
  string : ∀ kind, ∃ node, node.isDefined = true ∧ y.asString node = .ok kind
  unsigned : ∀ n < UInt64.size, ∃ node, node.isDefined = true ∧ y.asUnsigned node = .ok n
  range : ∀ node n, y.asUnsigned node = .ok n → n < UInt64.size
  undefined : ∃ e, y.asUnsigned .undefined = .error e

def Time.Fits (t : Time) : Prop := t.sec < UInt64.size ∧ t.nsec < UInt64.size

structure Configurable (qos : Qos) : Prop where
  keepAll : qos.history = .keepAll → qos.depth = 10
  depth : qos.depth < UInt64.size
  deadline : qos.deadline.Fits
  lifespan : qos.lifespan.Fits
  lease : qos.livelinessLeaseDuration.sec < UInt64.size
  leaseNanosec : qos.livelinessLeaseDuration.nsec = 0 ∨
    qos.livelinessLeaseDuration.nsec = qos.livelinessLeaseDuration.sec

/-! ### What is returned -/

section Returned

variable {y : Conversions} {node parent : Node} {key readKey : String} {qos t : Qos} {n : ℕ}

theorem ifGiven_inv {I : Qos → Prop} {set : Node → Qos → Except Error Qos}
    (hset : ∀ node t, set node qos = .ok t → I t) (hqos : I qos) (h : ifGiven parent key set qos = .ok t) : I t := by
  obtain ⟨node, -, h⟩ := bind_eq_ok.mp h
  split at h
  · exact hset node t h
  · obtain rfl := Except.ok.inj h
    exact hqos

theorem parseTimeField_cases (h : parseTimeField y node key readKey = .ok n) :
    n = 0 ∨ (node.index readKey >>= y.asUnsigned) = .ok n := by
  obtain ⟨child, -, h⟩ := bind_eq_ok.mp h
  split at h
  · exact .inr h
  · exact .inl (Except.ok.inj h).symm

theorem lt_of_parseTimeField (hy : ReadsAll y) (h : parseTimeField y node key readKey = .ok n) : n < UInt64.size := by
  rcases parseTimeField_cases h with rfl | hread
  · decide
  · obtain ⟨child, -, hchild⟩ := bind_eq_ok.mp hread
    exact hy.range child n hchild

theorem parseTime_inv {nanosecKey : String} {time : Time} (h : parseTime y nanosecKey node = .ok time) :
    parseTimeField y node "sec" "sec" = .ok time.sec ∧ parseTimeField y node "nanosec" nanosecKey = .ok time.nsec := by
  obtain ⟨sec, hsec, h⟩ := bind_eq_ok.mp h
  obtain ⟨nsec, hnsec, h⟩ := bind_eq_ok.mp h
  obtain rfl := Except.ok.inj h
  exact ⟨hsec, hnsec⟩

theorem fits_of_parseTime (hy : ReadsAll y) {nanosecKey : String} {time : Time}
    (h : parseTime y nanosecKey node = .ok time) : time.Fits := by
  obtain ⟨hsec, hnsec⟩ := parseTime_inv h
  exact ⟨lt_of_parseTimeField hy hsec, lt_of_parseTimeField hy hnsec⟩

/-- When the nanoseconds are read from the key `sec`, this is where the seconds came from. -/
theorem nsec_of_parseTime (hy : ReadsAll y) {time : Time} (h : parseTime y "sec" node = .ok time) :
    time.nsec = 0 ∨ time.nsec = time.sec := by
  obtain ⟨hsec, hnsec⟩ := parseTime_inv h
  rcases parseTimeField_cases hnsec with hzero | hread
  · exact .inl hzero
  refine .inr ?_
  obtain ⟨child, hchild, hunsigned⟩ := bind_eq_ok.mp hread
  unfold parseTimeField at hsec
  rw [hchild] at hsec
  change (if child.isDefined then y.asUnsigned child else pure 0) = .ok time.sec at hsec
  split at hsec
  · exact Except.ok.inj (hunsigned.symm.trans hsec)
  · rename_i hundefined
    have hchild : child = .undefined := by
      cases child <;> first | rfl | exact absurd rfl hundefined
    obtain ⟨e, he⟩ := hy.undefined
    rw [hchild, he] at hunsigned
    cases hunsigned

theorem configurable_ofDepth : Configurable (Qos.ofDepth 10) :=
  ⟨nofun, by decide, ⟨by decide, by decide⟩, ⟨by decide, by decide⟩, by decide, .inl rfl⟩

theorem configurable_of_parseKind {α : Type} {set : String → Qos → Qos} (update : α → Qos)
    (hset : ∀ kind, ∃ a, set kind qos = update a) (hupdate : ∀ a, Configurable (update a))
    (h : parseKind y set node qos = .ok t) : Configurable t := by
  obtain ⟨kind, -, h⟩ := bind_eq_ok.mp h
  obtain rfl := Except.ok.inj h
  obtain ⟨a, ha⟩ := hset kind
  rw [ha]
  exact hupdate a

theorem Configurable.history (hy : ReadsAll y) (hqos : Configurable qos) (hdepth : qos.depth = 10)
    (h : parseHistory y node qos = .ok t) : Configurable t := by
  obtain ⟨u, hkind, h⟩ := bind_eq_ok.mp h
  have hu : Configurable u := by
    refine ifGiven_inv (I := Configurable) (fun node t => ?_) hqos hkind
    exact configurable_of_parseKind (fun history => { qos with history := history })
      (fun kind => ⟨_, setHistory_eq qos (some kind)⟩)
      fun _ => ⟨fun _ => hdepth, hqos.depth, hqos.deadline, hqos.lifespan, hqos.lease, hqos.leaseNanosec⟩
  refine ifGiven_inv (I := Configurable) (fun node t ht => ?_) hu h
  obtain ⟨n, hn, ht⟩ := bind_eq_ok.mp ht
  obtain rfl := Except.ok.inj ht
  exact ⟨nofun, hy.range node n hn, hu.deadline, hu.lifespan, hu.lease, hu.leaseNanosec⟩

theorem Configurable.reliability (hqos : Configurable qos) (h : parseReliability y node qos = .ok t) :
    Configurable t :=
  configurable_of_parseKind (fun reliability => { qos with reliability := reliability })
    (fun kind => ⟨_, setReliability_eq qos (some kind)⟩)
    (fun _ => ⟨hqos.keepAll, hqos.depth, hqos.deadline, hqos.lifespan, hqos.lease, hqos.leaseNanosec⟩) h

theorem Configurable.durability (hqos : Configurable qos) (h : parseDurability y node qos = .ok t) :
    Configurable t :=
  configurable_of_parseKind (fun durability => { qos with durability := durability })
    (fun kind => ⟨_, setDurability_eq qos (some kind)⟩)
    (fun _ => ⟨hqos.keepAll, hqos.depth, hqos.deadline, hqos.lifespan, hqos.lease, hqos.leaseNanosec⟩) h

theorem Configurable.setDeadline (hy : ReadsAll y) (hqos : Configurable qos) (h : parseDeadline y node qos = .ok t) :
    Configurable t := by
  obtain ⟨period, hperiod, h⟩ := bind_eq_ok.mp h
  obtain rfl := Except.ok.inj h
  exact ⟨hqos.keepAll, hqos.depth, fits_of_parseTime hy hperiod, hqos.lifespan, hqos.lease, hqos.leaseNanosec⟩

theorem Configurable.setLifespan (hy : ReadsAll y) (hqos : Configurable qos) (h : parseLifespan y node qos = .ok t) :
    Configurable t := by
  obtain ⟨duration, hduration, h⟩ := bind_eq_ok.mp h
  obtain rfl := Except.ok.inj h
  exact ⟨hqos.keepAll, hqos.depth, hqos.deadline, fits_of_parseTime hy hduration, hqos.lease, hqos.leaseNanosec⟩

theorem Configurable.liveliness (hy : ReadsAll y) (hqos : Configurable qos)
    (h : parseLiveliness y node qos = .ok t) : Configurable t := by
  obtain ⟨u, hkind, h⟩ := bind_eq_ok.mp h
  have hu : Configurable u := by
    refine ifGiven_inv (I := Configurable) (fun node t => ?_) hqos hkind
    exact configurable_of_parseKind (fun liveliness => { qos with liveliness := liveliness })
      (fun kind => ⟨_, setLiveliness_eq qos (some kind)⟩)
      fun _ => ⟨hqos.keepAll, hqos.depth, hqos.deadline, hqos.lifespan, hqos.lease, hqos.leaseNanosec⟩
  obtain ⟨leaseDuration, hlease, h⟩ := bind_eq_ok.mp h
  obtain rfl := Except.ok.inj h
  exact ⟨hu.keepAll, hu.depth, hu.deadline, hu.lifespan, (fits_of_parseTime hy hlease).1, nsec_of_parseTime hy hlease⟩

/-- **Every profile that is returned** is one of these. -/
theorem configurable_of_parse (hy : ReadsAll y) (h : parseRmwQosConfiguration y node = .ok qos) :
    Configurable qos := by
  unfold parseRmwQosConfiguration at h
  split at h
  · obtain ⟨q₁, h₁, h⟩ := bind_eq_ok.mp h
    obtain ⟨q₂, h₂, h⟩ := bind_eq_ok.mp h
    obtain ⟨q₃, h₃, h⟩ := bind_eq_ok.mp h
    obtain ⟨q₄, h₄, h⟩ := bind_eq_ok.mp h
    obtain ⟨q₅, h₅, h⟩ := bind_eq_ok.mp h
    have hq₁ := ifGiven_inv (I := Configurable) (fun _ _ => configurable_ofDepth.history hy rfl)
      configurable_ofDepth h₁
    have hq₂ := ifGiven_inv (I := Configurable) (fun _ _ => hq₁.reliability) hq₁ h₂
    have hq₃ := ifGiven_inv (I := Configurable) (fun _ _ => hq₂.durability) hq₂ h₃
    have hq₄ := ifGiven_inv (I := Configurable) (fun _ _ => hq₃.setDeadline hy) hq₃ h₄
    have hq₅ := ifGiven_inv (I := Configurable) (fun _ _ => hq₄.setLifespan hy) hq₄ h₅
    exact ifGiven_inv (I := Configurable) (fun _ _ => hq₅.liveliness hy) hq₅ h
  · obtain rfl := Except.ok.inj h
    exact configurable_ofDepth

end Returned

/-! ### A node for each configuration -/

/-- The entries of the keys that are given. -/
def present (entries : List (String × Option Node)) : List (String × Node) :=
  entries.filterMap fun entry => entry.2.map fun node => (entry.1, node)

section Nodes

variable {y : Conversions} {α : Type} {reads : Node → α → Prop} {value : Option α} {key : String}
  {entries : List (String × Option Node)} {node? : Option Node}

/-- The node, if there is one, is read as the value. -/
def Written (reads : Node → α → Prop) : Option α → Option Node → Prop :=
  Option.Rel fun a node => node.isDefined = true ∧ reads node a

theorem exists_written (h : ∀ a ∈ value, ∃ node, node.isDefined = true ∧ reads node a) :
    ∃ node?, Written reads value node? := by
  cases value with
  | none => exact ⟨none, .none⟩
  | some a =>
    obtain ⟨node, hnode⟩ := h a rfl
    exact ⟨some node, .some hnode⟩

theorem lookup_present (hkeys : (entries.map (·.1)).Nodup) (hentry : (key, node?) ∈ entries) :
    (present entries).lookup key = node? := by
  induction entries with
  | nil => cases hentry
  | cons entry entries ih =>
    obtain ⟨key', node'?⟩ := entry
    obtain ⟨hfresh, hrest⟩ := List.nodup_cons.mp hkeys
    rcases List.mem_cons.mp hentry with heq | hmem
    · obtain ⟨rfl, rfl⟩ := Prod.mk.inj heq
      have hnone : (present entries).lookup key = none := by
        refine List.lookup_eq_none_iff.mpr fun later hlater => bne_iff_ne.mpr fun heq => hfresh ?_
        obtain ⟨entry, hmem, hlater⟩ := List.mem_filterMap.mp hlater
        obtain ⟨node, -, rfl⟩ := Option.map_eq_some_iff.mp hlater
        exact List.mem_map.mpr ⟨entry, hmem, heq.symm⟩
      cases node? with
      | none => exact hnone
      | some node =>
        show List.lookup key ((key, node) :: present entries) = some node
        rw [List.lookup_cons, beq_self_eq_true]
    · have hne : (key == key') = false :=
        beq_false_of_ne fun heq => hfresh (List.mem_map.mpr ⟨(key, node?), hmem, heq⟩)
      cases node'? with
      | none => exact ih hrest hmem
      | some node =>
        show List.lookup key ((key', node) :: present entries) = node?
        rw [List.lookup_cons, hne]
        exact ih hrest hmem

theorem given_present (hkeys : (entries.map (·.1)).Nodup) (hentry : (key, node?) ∈ entries)
    (h : Written reads value node?) : Given reads (.map (present entries)) key value := by
  have hindex : Node.index (.map (present entries)) key = .ok (node?.getD .undefined) := by
    show Except.ok (((present entries).lookup key).getD .undefined) = _
    rw [lookup_present hkeys hentry]
  cases h with
  | none => exact hindex
  | some hnode => exact ⟨_, hindex, hnode⟩

end Nodes

def PeriodConfiguration.Fits (config : PeriodConfiguration) : Prop :=
  (∀ n ∈ config.sec, n < UInt64.size) ∧ ∀ n ∈ config.nanosec, n < UInt64.size

/-- The numbers of the configuration have 64 bits. -/
structure QosConfiguration.Fits (config : QosConfiguration) : Prop where
  depth : ∀ n ∈ config.depth, n < UInt64.size
  deadline : ∀ period ∈ config.deadline, period.Fits
  lifespan : ∀ duration ∈ config.lifespan, duration.Fits
  leaseDuration : ∀ period ∈ config.leaseDuration, period.Fits

section Describes

variable {y : Conversions}

theorem exists_string (hy : ReadsAll y) (kind : Option String) : ∃ node?, Written (ReadsString y) kind node? :=
  exists_written fun kind _ => hy.string kind

theorem exists_unsigned (hy : ReadsAll y) {value : Option ℕ} (h : ∀ n ∈ value, n < UInt64.size) :
    ∃ node?, Written (ReadsUnsigned y) value node? :=
  exists_written fun n hn => hy.unsigned n (h n hn)

theorem exists_period (hy : ReadsAll y) {config : PeriodConfiguration} (h : config.Fits) :
    ∃ node, node.isDefined = true ∧ ReadsPeriod y node config := by
  obtain ⟨sec, hsec⟩ := exists_unsigned hy h.1
  obtain ⟨nanosec, hnanosec⟩ := exists_unsigned hy h.2
  refine ⟨.map (present [("sec", sec), ("nanosec", nanosec)]), rfl, ?_, ?_⟩
  · exact given_present (by simp) (by simp) hsec
  · exact given_present (by simp) (by simp) hnanosec

theorem exists_history (hy : ReadsAll y) {config : HistoryConfiguration} (h : ∀ n ∈ config.depth, n < UInt64.size) :
    ∃ node, node.isDefined = true ∧ ReadsHistory y node config := by
  obtain ⟨kind, hkind⟩ := exists_string hy config.kind
  obtain ⟨depth, hdepth⟩ := exists_unsigned hy h
  refine ⟨.map (present [("kind", kind), ("depth", depth)]), rfl, ?_, ?_⟩
  · exact given_present (by simp) (by simp) hkind
  · exact given_present (by simp) (by simp) hdepth

theorem exists_liveliness (hy : ReadsAll y) {config : LivelinessConfiguration} (h : config.leaseDuration.Fits) :
    ∃ node, node.isDefined = true ∧ ReadsLiveliness y node config := by
  obtain ⟨kind, hkind⟩ := exists_string hy config.kind
  obtain ⟨sec, hsec⟩ := exists_unsigned hy h.1
  obtain ⟨nanosec, hnanosec⟩ := exists_unsigned hy h.2
  refine ⟨.map (present [("kind", kind), ("sec", sec), ("nanosec", nanosec)]), rfl, ?_, ?_, ?_⟩
  · exact given_present (by simp) (by simp) hkind
  · exact given_present (by simp) (by simp) hsec
  · exact given_present (by simp) (by simp) hnanosec

/-- **Each configuration** is what some node says. -/
theorem exists_describes (hy : ReadsAll y) {config : QosConfiguration} (h : config.Fits) :
    ∃ node, Describes y node config := by
  obtain ⟨history, hhistory⟩ : ∃ node?, Written (ReadsHistory y) config.history node? :=
    exists_written fun history hmem => exists_history hy fun n hn =>
      h.depth n (Option.mem_bind_iff.mpr ⟨history, hmem, hn⟩)
  obtain ⟨reliability, hreliability⟩ := exists_string hy config.reliability
  obtain ⟨durability, hdurability⟩ := exists_string hy config.durability
  obtain ⟨deadline, hdeadline⟩ : ∃ node?, Written (ReadsPeriod y) config.deadline node? :=
    exists_written fun period hmem => exists_period hy (h.deadline period hmem)
  obtain ⟨lifespan, hlifespan⟩ : ∃ node?, Written (ReadsPeriod y) config.lifespan node? :=
    exists_written fun duration hmem => exists_period hy (h.lifespan duration hmem)
  obtain ⟨liveliness, hliveliness⟩ : ∃ node?, Written (ReadsLiveliness y) config.liveliness node? :=
    exists_written fun liveliness hmem => exists_liveliness hy
      (h.leaseDuration _ (Option.mem_map_of_mem _ hmem))
  refine ⟨.map (present [("history", history), ("reliability", reliability), ("durability", durability),
    ("deadline", deadline), ("lifespan", lifespan), ("liveliness", liveliness)]), ?_⟩
  show ReadsSections y _ config
  constructor
  · exact given_present (by simp) (by simp) hhistory
  · exact given_present (by simp) (by simp) hreliability
  · exact given_present (by simp) (by simp) hdurability
  · exact given_present (by simp) (by simp) hdeadline
  · exact given_present (by simp) (by simp) hlifespan
  · exact given_present (by simp) (by simp) hliveliness

end Describes

/-! ### A configuration for each profile -/

/-- The name of a value in a list of kinds; the default has none. -/
def kindOf {α : Type} [DecidableEq α] (names : List (String × α)) (value : α) : Option String :=
  (names.find? fun entry => entry.2 = value).map (·.1)

def Time.configuration (t : Time) : PeriodConfiguration := ⟨some t.sec, some t.nsec⟩

/-- What to write for a profile.  A depth goes with `KEEP_LAST` only, and nanoseconds of the lease duration are given
when there are any. -/
def Qos.configuration (qos : Qos) : QosConfiguration where
  history := some ⟨kindOf historyKinds qos.history, if qos.history = .keepAll then none else some qos.depth⟩
  reliability := kindOf reliabilityKinds qos.reliability
  durability := kindOf durabilityKinds qos.durability
  deadline := some qos.deadline.configuration
  lifespan := some qos.lifespan.configuration
  liveliness := some ⟨kindOf livelinessKinds qos.liveliness, some qos.livelinessLeaseDuration.sec,
    if qos.livelinessLeaseDuration.nsec = 0 then none else some qos.livelinessLeaseDuration.nsec⟩

section Profiles

variable {y : Conversions} {qos : Qos}

theorem Configurable.fits (h : Configurable qos) : qos.configuration.Fits where
  depth n hn := by
    change n ∈ (if qos.history = .keepAll then none else some qos.depth) at hn
    split at hn
    · cases hn
    · obtain rfl := Option.mem_some.mp hn
      exact h.depth
  deadline period hperiod := by
    obtain rfl := Option.mem_some.mp hperiod
    exact ⟨fun n hn => Option.mem_some.mp hn ▸ h.deadline.1, fun n hn => Option.mem_some.mp hn ▸ h.deadline.2⟩
  lifespan duration hduration := by
    obtain rfl := Option.mem_some.mp hduration
    exact ⟨fun n hn => Option.mem_some.mp hn ▸ h.lifespan.1, fun n hn => Option.mem_some.mp hn ▸ h.lifespan.2⟩
  leaseDuration period hperiod := by
    obtain rfl := Option.mem_some.mp hperiod
    refine ⟨fun n hn => Option.mem_some.mp hn ▸ h.lease, fun n hn => ?_⟩
    change n ∈ (if qos.livelinessLeaseDuration.nsec = 0 then none else some qos.livelinessLeaseDuration.nsec) at hn
    split at hn
    · cases hn
    · rename_i hne
      obtain rfl := Option.mem_some.mp hn
      rw [h.leaseNanosec.resolve_left hne]
      exact h.lease

theorem Configurable.leaseNanosec_eq (h : Configurable qos) :
    qos.configuration.leaseNanosec y = .ok qos.livelinessLeaseDuration.nsec := by
  show (if qos.livelinessLeaseDuration.nsec = 0 then none else some qos.livelinessLeaseDuration.nsec).elim (.ok 0)
    (fun _ => .ok qos.livelinessLeaseDuration.sec) = Except.ok qos.livelinessLeaseDuration.nsec
  split
  · rename_i hzero
    rw [hzero]
    rfl
  · rename_i hne
    rw [h.leaseNanosec.resolve_left hne]
    rfl

theorem Configurable.profile_eq_self (h : Configurable qos) :
    qos.configuration.profile qos.livelinessLeaseDuration.nsec = qos := by
  obtain ⟨history, depth, reliability, durability, deadline, lifespan, liveliness, lease⟩ := qos
  rw [profile_eq]
  cases history with
  | keepLast => cases reliability <;> cases durability <;> cases liveliness <;> rfl
  | keepAll =>
    obtain rfl : depth = 10 := h.keepAll rfl
    cases reliability <;> cases durability <;> cases liveliness <;> rfl

/-- **The profiles that can be configured**, of the documented kinds. -/
theorem configurable_iff (hy : ReadsAll y) (qos : Qos) :
    (∃ node, parseRmwQosConfiguration y node = .ok qos) ↔ Configurable qos := by
  constructor
  · rintro ⟨node, h⟩
    exact configurable_of_parse hy h
  · intro h
    obtain ⟨node, hnode⟩ := exists_describes hy h.fits
    refine ⟨node, ?_⟩
    rw [parse_eq hnode, h.leaseNanosec_eq]
    exact congrArg Except.ok h.profile_eq_self

end Profiles

/-- Decimal conversions that reject numbers of more than 64 bits. -/
def decimal64 : Conversions where
  asString := decimalConversions.asString
  asUnsigned node := do
    let n ← decimalConversions.asUnsigned node
    if n < UInt64.size then return n else .error .badConversion

theorem asUnsigned_toString (n : ℕ) : decimalConversions.asUnsigned (.scalar (toString n)) = .ok n := by
  have hdigits : (toString n).toList.all Char.isDigit = true := by
    refine List.all_eq_true.mpr fun c hc => ?_
    rw [Nat.toString_eq_repr, Nat.toList_repr] at hc
    exact Nat.isDigit_of_mem_toDigits (by decide) (by decide) hc
  have hvalue : Nat.ofDigitChars 10 (toString n).toList 0 = n := by
    rw [Nat.toString_eq_repr, Nat.toList_repr, Nat.ofDigitChars_ten_toDigits]
  show (if (toString n).toList.all Char.isDigit then _ else _) = _
  rw [if_pos hdigits, hvalue]

theorem readsAll_decimal64 : ReadsAll decimal64 where
  string kind := ⟨.scalar kind, rfl, rfl⟩
  unsigned n hn := by
    refine ⟨.scalar (toString n), rfl, ?_⟩
    show decimalConversions.asUnsigned _ >>= _ = _
    rw [asUnsigned_toString]
    exact if_pos hn
  range node n h := by
    obtain ⟨m, -, h⟩ := bind_eq_ok.mp h
    split at h
    · rename_i hlt
      obtain rfl := Except.ok.inj h
      exact hlt
    · cases h
  undefined := ⟨_, rfl⟩

/-- No node makes a history of kind `KEEP_ALL` with a depth of five. -/
theorem configurable_iff_keepAll :
    ¬ ∃ node, parseRmwQosConfiguration decimal64 node = .ok { Qos.ofDepth 5 with history := .keepAll } := by
  intro h
  have hconfigurable := (configurable_iff readsAll_decimal64 _).mp h
  exact absurd (hconfigurable.keepAll rfl) (by decide)

end Ros2Sh.SystemHandle
