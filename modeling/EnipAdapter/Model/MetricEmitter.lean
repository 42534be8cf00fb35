import EnipAdapter.Foundation.KeyedStates
import EnipAdapter.Model.ConnectLadder
import EnipAdapter.Model.SignalsCommand

/-!
# The metric families and their emitter

`metrics.rs`: the families a device reports, what its engines record in them, and the emissions. A
row is a family with one combination of dimensions. An emission drains rows under the lock, which
resets their intervals, and hands them to the metric service one by one afterwards; the task of a
device and the task of its certificate may be in the middle of an emission at the same time.

The counters count events, so they are natural numbers that become floats where they are reported,
and the values of the gauges are the numbers before they are rounded. What the service does with a
row, and the log line of an emission it refuses, are left out.
-/

set_option autoImplicit false

namespace EnipAdapter.Model

open EnipAdapter.Foundation

/-! ## The definitions -/

structure MeasureDef where
  name : String
  unit : String
  res : ℕ
deriving DecidableEq, Repr

structure FamilyDef where
  name : String
  dimensions : List String
  measures : List MeasureDef
deriving DecidableEq, Repr

def unitCount : String := "Count"

def unitMs : String := "Milliseconds"

/-- The two measures of a counter. -/
def pairDefs (stem : String) : List MeasureDef :=
  [⟨stem ++ "Total", unitCount, 60⟩, ⟨stem ++ "Interval", unitCount, 60⟩]

def familyDefs : List FamilyDef := [
  ⟨"southbound_health", ["instance"],
    [⟨"connectionState", unitCount, 1⟩, ⟨"signalsSubscribed", unitCount, 1⟩,
      ⟨"pollLatencyMs", unitMs, 1⟩, ⟨"publishLatencyMs", unitMs, 1⟩, ⟨"readErrors", unitCount, 60⟩,
      ⟨"writeErrors", unitCount, 60⟩, ⟨"staleSignals", unitCount, 60⟩,
      ⟨"reconnects", unitCount, 60⟩]⟩,
  ⟨"EtherNetIpConnection", ["instance", "connectionMode"],
    ⟨"sessionConnected", unitCount, 1⟩ ::
      ["connectAttempts", "connectFailures", "connectionDrops", "reconnects",
        "tlsHandshakeFailures", "certReloads", "estEnrollments", "estFailures"].flatMap pairDefs ++
      [⟨"certExpiryDays", unitCount, 60⟩, ⟨"connectLatencyMs", unitMs, 60⟩,
        ⟨"connectedDurationMs", unitMs, 60⟩]⟩,
  ⟨"EtherNetIpInventory", ["instance", "pollGroup"],
    [⟨"configuredSignals", unitCount, 60⟩, ⟨"arraySignals", unitCount, 60⟩,
      ⟨"writableSignals", unitCount, 60⟩, ⟨"configuredPollIntervalMs", unitMs, 60⟩,
      ⟨"requestsPerCycle", unitCount, 60⟩]⟩,
  ⟨"EtherNetIpPoll", ["instance", "pollGroup", "result"],
    pairDefs "pollCycles" ++ ⟨"pollDurationMs", unitMs, 60⟩ ::
      ["tagReads", "tagReadErrors", "samplesGood", "samplesBad", "samplesUncertain",
        "samplesChanged", "samplesSuppressed", "pollOverruns"].flatMap pairDefs⟩,
  ⟨"EtherNetIpPublish", ["instance", "publishMode"],
    ["dataMessagesPublished", "samplesPublished", "publishFailures", "batchFlushes"].flatMap
        pairDefs ++
      [⟨"batchSize", unitCount, 60⟩, ⟨"publishLatencyMs", unitMs, 60⟩]⟩,
  ⟨"EtherNetIpCommand", ["instance", "verb", "result"],
    ["commandRequests", "commandErrors"].flatMap pairDefs ++ ⟨"commandLatencyMs", unitMs, 60⟩ ::
      ["readSignals", "writeSignals", "writeFailures", "browsedTags", "pauseRequests",
        "resumeRequests", "reconnectRequests", "repollRequests"].flatMap pairDefs⟩,
  ⟨"EtherNetIpIo", ["instance"],
    ⟨"ioConnectionState", unitCount, 1⟩ ::
      ["forwardOpens", "forwardOpenFailures", "framesConsumed", "framesProduced",
        "staleFramesDropped", "sequenceGaps", "sizeMismatchDropped", "malformedFrames",
        "ioTimeouts", "produceOverruns", "sendErrors", "recvErrors", "sourceMismatchDatagrams",
        "refusedRedirects"].flatMap pairDefs ++
      [⟨"interFrameMs", unitMs, 1⟩, ⟨"runMode", unitCount, 1⟩]⟩]

/-! ## Rows -/

/-- The values of a row. A counter stands for its two measures. -/
structure MetricValues where
  gauges : List (String × ℚ)
  counters : List (String × Pair) := []
deriving DecidableEq, Repr

def MetricValues.measures (v : MetricValues) : List (String × ℚ) :=
  v.gauges ++ v.counters.flatMap fun (stem, p) =>
    [(stem ++ "Total", (p.total : ℚ)), (stem ++ "Interval", (p.interval : ℚ))]

/-- `drain_into`: the interval starts again once it is written. -/
def Pair.drained (p : Pair) : Pair := { p with interval := 0 }

def boolGauge (b : Bool) : ℚ := if b then 1 else 0

def millis (d : Duration) : ℚ := (d : ℚ) / 1000000

structure ConnFamilyCounters extends ConnectionCounters where
  certReloads : Pair := {}
  estEnrollments : Pair := {}
  estFailures : Pair := {}
  /-- Unknown until the client certificate was read. -/
  certExpiryDays : Option ℤ := none
deriving DecidableEq, Repr

namespace ConnFamilyCounters

def onCertReload (c : ConnFamilyCounters) : ConnFamilyCounters :=
  { c with certReloads := c.certReloads.add 1 }

def setCertExpiryDays (c : ConnFamilyCounters) (days : ℤ) : ConnFamilyCounters :=
  { c with certExpiryDays := some days }

def onEstEnrollment (c : ConnFamilyCounters) (success : Bool) : ConnFamilyCounters :=
  if success then { c with estEnrollments := c.estEnrollments.add 1 }
  else { c with estFailures := c.estFailures.add 1 }

def counters (c : ConnFamilyCounters) : List (String × Pair) :=
  [("connectAttempts", c.connectAttempts), ("connectFailures", c.connectFailures),
    ("connectionDrops", c.connectionDrops), ("reconnects", c.reconnects),
    ("tlsHandshakeFailures", c.tlsHandshakeFailures), ("certReloads", c.certReloads),
    ("estEnrollments", c.estEnrollments), ("estFailures", c.estFailures)]

/-- The time connected is brought up to date first. -/
def drain (now : Instant) (c : ConnFamilyCounters) : ConnFamilyCounters × MetricValues :=
  let c := { c with toConnectionCounters := c.accrue now }
  ({ c with
      connectAttempts := c.connectAttempts.drained
      connectFailures := c.connectFailures.drained
      connectionDrops := c.connectionDrops.drained
      reconnects := c.reconnects.drained
      tlsHandshakeFailures := c.tlsHandshakeFailures.drained
      certReloads := c.certReloads.drained
      estEnrollments := c.estEnrollments.drained
      estFailures := c.estFailures.drained
      connectedAccrued := 0 },
    { gauges :=
        ("sessionConnected", boolGauge c.sessionConnected) ::
          (c.certExpiryDays.map fun days => ("certExpiryDays", (days : ℚ))).toList ++
          [("connectLatencyMs", (c.connectLatencyMs : ℚ)),
            ("connectedDurationMs", millis c.connectedAccrued)]
      counters := c.counters })

end ConnFamilyCounters

structure PollCounters where
  pollCycles : Pair := {}
  pollDurationMs : ℕ := 0
  tagReads : Pair := {}
  tagReadErrors : Pair := {}
  samplesGood : Pair := {}
  samplesBad : Pair := {}
  samplesUncertain : Pair := {}
  samplesChanged : Pair := {}
  samplesSuppressed : Pair := {}
  pollOverruns : Pair := {}
deriving DecidableEq, Repr

instance : Inhabited PollCounters := ⟨{}⟩

/-- One completed poll cycle. -/
structure PollCycle where
  durationMs : ℕ
  tagReads : ℕ
  overran : Bool
  good : ℕ
  bad : ℕ
  uncertain : ℕ
  changed : ℕ
  suppressed : ℕ
deriving DecidableEq, Repr

namespace PollCounters

/-- A BAD read is a bad sample and a tag-read error. -/
def recordPollCycle (cycle : PollCycle) (c : PollCounters) : PollCounters where
  pollCycles := c.pollCycles.add 1
  pollDurationMs := c.pollDurationMs + cycle.durationMs
  tagReads := c.tagReads.add cycle.tagReads
  tagReadErrors := c.tagReadErrors.add cycle.bad
  samplesGood := c.samplesGood.add cycle.good
  samplesBad := c.samplesBad.add cycle.bad
  samplesUncertain := c.samplesUncertain.add cycle.uncertain
  samplesChanged := c.samplesChanged.add cycle.changed
  samplesSuppressed := c.samplesSuppressed.add cycle.suppressed
  pollOverruns := if cycle.overran then c.pollOverruns.add 1 else c.pollOverruns

def counters (c : PollCounters) : List (String × Pair) :=
  [("pollCycles", c.pollCycles), ("tagReads", c.tagReads), ("tagReadErrors", c.tagReadErrors),
    ("samplesGood", c.samplesGood), ("samplesBad", c.samplesBad),
    ("samplesUncertain", c.samplesUncertain), ("samplesChanged", c.samplesChanged),
    ("samplesSuppressed", c.samplesSuppressed), ("pollOverruns", c.pollOverruns)]

def drain (c : PollCounters) : PollCounters × MetricValues :=
  ({  pollCycles := c.pollCycles.drained
      tagReads := c.tagReads.drained
      tagReadErrors := c.tagReadErrors.drained
      samplesGood := c.samplesGood.drained
      samplesBad := c.samplesBad.drained
      samplesUncertain := c.samplesUncertain.drained
      samplesChanged := c.samplesChanged.drained
      samplesSuppressed := c.samplesSuppressed.drained
      pollOverruns := c.pollOverruns.drained },
    { gauges := [("pollDurationMs", (c.pollDurationMs : ℚ))], counters := c.counters })

end PollCounters

structure PubCounters where
  dataMessages : Pair := {}
  samples : Pair := {}
  failures : Pair := {}
  batchFlushes : Pair := {}
  batchSize : ℕ := 0
  publishLatencyMs : ℕ := 0
deriving DecidableEq, Repr

instance : Inhabited PubCounters := ⟨{}⟩

namespace PubCounters

/-- One message of `samples` samples; a failed one publishes none of them. -/
def recordPublish (samples : ℕ) (fromBatch : Bool) (latencyMs : ℕ) (ok : Bool)
    (c : PubCounters) : PubCounters where
  dataMessages := c.dataMessages.add 1
  samples := if ok then c.samples.add samples else c.samples
  publishLatencyMs := if ok then c.publishLatencyMs + latencyMs else c.publishLatencyMs
  failures := if ok then c.failures else c.failures.add 1
  batchFlushes := if fromBatch then c.batchFlushes.add 1 else c.batchFlushes
  batchSize := if fromBatch then samples else c.batchSize

def counters (c : PubCounters) : List (String × Pair) :=
  [("dataMessagesPublished", c.dataMessages), ("samplesPublished", c.samples),
    ("publishFailures", c.failures), ("batchFlushes", c.batchFlushes)]

def drain (c : PubCounters) : PubCounters × MetricValues :=
  ({ c with
      dataMessages := c.dataMessages.drained
      samples := c.samples.drained
      failures := c.failures.drained
      batchFlushes := c.batchFlushes.drained
      publishLatencyMs := 0 },
    { gauges := [("batchSize", (c.batchSize : ℚ)), ("publishLatencyMs", (c.publishLatencyMs : ℚ))]
      counters := c.counters })

end PubCounters

inductive CommandVerb where
  | status
  | read
  | write
  | signals
  | browse
  | pause
  | resume
  | reconnect
  | repoll
deriving DecidableEq, Repr

def CommandVerb.asStr : CommandVerb → String
  | .status => "sb/status"
  | .read => "sb/read"
  | .write => "sb/write"
  | .signals => "sb/signals"
  | .browse => "sb/browse"
  | .pause => "sb/pause"
  | .resume => "sb/resume"
  | .reconnect => "reconnect"
  | .repoll => "repoll"

def commandVerbs : List CommandVerb :=
  [.status, .read, .write, .signals, .browse, .pause, .resume, .reconnect, .repoll]

inductive MetricResult where
  | success
  | error
deriving DecidableEq, Repr

def MetricResult.asStr : MetricResult → String
  | .success => "success"
  | .error => "error"

def metricResults : List MetricResult := [.success, .error]

/-- What a command adds to its row besides the request. -/
structure CommandCounts where
  readSignals : ℕ := 0
  writeSignals : ℕ := 0
  writeFailures : ℕ := 0
  browsedTags : ℕ := 0
deriving DecidableEq, Repr

structure CmdCounters where
  commandRequests : Pair := {}
  commandErrors : Pair := {}
  commandLatencyMs : ℕ := 0
  readSignals : Pair := {}
  writeSignals : Pair := {}
  writeFailures : Pair := {}
  browsedTags : Pair := {}
  pauseRequests : Pair := {}
  resumeRequests : Pair := {}
  reconnectRequests : Pair := {}
  repollRequests : Pair := {}
deriving DecidableEq, Repr

instance : Inhabited CmdCounters := ⟨{}⟩

namespace CmdCounters

def recordCommand (verb : CommandVerb) (ok : Bool) (latencyMs : ℕ) (tally : CommandCounts)
    (c : CmdCounters) : CmdCounters where
  commandRequests := c.commandRequests.add 1
  commandLatencyMs := c.commandLatencyMs + latencyMs
  commandErrors := if ok then c.commandErrors else c.commandErrors.add 1
  readSignals := c.readSignals.add tally.readSignals
  writeSignals := c.writeSignals.add tally.writeSignals
  writeFailures := c.writeFailures.add tally.writeFailures
  browsedTags := c.browsedTags.add tally.browsedTags
  pauseRequests := if verb = .pause then c.pauseRequests.add 1 else c.pauseRequests
  resumeRequests := if verb = .resume then c.resumeRequests.add 1 else c.resumeRequests
  reconnectRequests := if verb = .reconnect then c.reconnectRequests.add 1 else c.reconnectRequests
  repollRequests := if verb = .repoll then c.repollRequests.add 1 else c.repollRequests

def counters (c : CmdCounters) : List (String × Pair) :=
  [("commandRequests", c.commandRequests), ("commandErrors", c.commandErrors),
    ("readSignals", c.readSignals), ("writeSignals", c.writeSignals),
    ("writeFailures", c.writeFailures), ("browsedTags", c.browsedTags),
    ("pauseRequests", c.pauseRequests), ("resumeRequests", c.resumeRequests),
    ("reconnectRequests", c.reconnectRequests), ("repollRequests", c.repollRequests)]

def drain (c : CmdCounters) : CmdCounters × MetricValues :=
  ({  commandRequests := c.commandRequests.drained
      commandErrors := c.commandErrors.drained
      readSignals := c.readSignals.drained
      writeSignals := c.writeSignals.drained
      writeFailures := c.writeFailures.drained
      browsedTags := c.browsedTags.drained
      pauseRequests := c.pauseRequests.drained
      resumeRequests := c.resumeRequests.drained
      reconnectRequests := c.reconnectRequests.drained
      repollRequests := c.repollRequests.drained },
    { gauges := [("commandLatencyMs", (c.commandLatencyMs : ℚ))], counters := c.counters })

end CmdCounters

/-- The counters of the class-1 family. -/
structure IoFamilyCounters extends IoLinkCounters where
  forwardOpens : Pair := {}
  forwardOpenFailures : Pair := {}
deriving DecidableEq, Repr

namespace IoFamilyCounters

def onForwardOpen (io : IoFamilyCounters) (ok : Bool) : IoFamilyCounters :=
  if ok then { io with forwardOpens := io.forwardOpens.add 1 }
  else { io with forwardOpenFailures := io.forwardOpenFailures.add 1 }

def counters (io : IoFamilyCounters) : List (String × Pair) :=
  [("forwardOpens", io.forwardOpens), ("forwardOpenFailures", io.forwardOpenFailures),
    ("framesConsumed", io.framesConsumed), ("framesProduced", io.framesProduced),
    ("staleFramesDropped", io.staleFramesDropped), ("sequenceGaps", io.sequenceGaps),
    ("sizeMismatchDropped", io.sizeMismatchDropped), ("malformedFrames", io.malformedFrames),
    ("ioTimeouts", io.ioTimeouts), ("produceOverruns", io.produceOverruns),
    ("sendErrors", io.sendErrors), ("recvErrors", io.recvErrors),
    ("sourceMismatchDatagrams", io.sourceMismatchDatagrams),
    ("refusedRedirects", io.refusedRedirects)]

def drain (io : IoFamilyCounters) : IoFamilyCounters × MetricValues :=
  ({ io with
      forwardOpens := io.forwardOpens.drained
      forwardOpenFailures := io.forwardOpenFailures.drained
      framesConsumed := io.framesConsumed.drained
      framesProduced := io.framesProduced.drained
      staleFramesDropped := io.staleFramesDropped.drained
      sequenceGaps := io.sequenceGaps.drained
      sizeMismatchDropped := io.sizeMismatchDropped.drained
      malformedFrames := io.malformedFrames.drained
      ioTimeouts := io.ioTimeouts.drained
      produceOverruns := io.produceOverruns.drained
      sendErrors := io.sendErrors.drained
      recvErrors := io.recvErrors.drained
      sourceMismatchDatagrams := io.sourceMismatchDatagrams.drained
      refusedRedirects := io.refusedRedirects.drained },
    { gauges :=
        [("ioConnectionState", boolGauge io.ioConnectionState),
          ("interFrameMs", millis io.interFrame), ("runMode", boolGauge io.runMode)]
      counters := io.counters })

end IoFamilyCounters

/-! ## What the engines record -/

/-- The counters of `Health` that an emission takes. -/
inductive HealthCounter where
  | readErrors
  | writeErrors
  | reconnects
deriving DecidableEq, Repr

/-- What of `Health` (`app.rs`) is in the metric. -/
structure HealthValues where
  connectionState : ℕ := 0
  pollLatencyMs : ℕ := 0
  publishLatencyMs : ℕ := 0
  staleSignals : ℕ := 0
  counted : HealthCounter → ℕ := fun _ => 0

structure MetricState where
  health : HealthValues := {}
  conn : ConnFamilyCounters := {}
  poll : AList (fun _ : String × MetricResult => PollCounters) := ∅
  publish : AList (fun _ : PublishMode => PubCounters) := ∅
  command : AList (fun _ : CommandVerb × MetricResult => CmdCounters) := ∅
  io : IoFamilyCounters := {}

/-- A call from the engines or the supervisor. -/
inductive MetricCall where
  | counted (counter : HealthCounter)
  | setLink (state : LinkState)
  | pollLatency (ms : ℕ)
  | publishLatency (ms : ℕ)
  | staleSignals (n : ℕ)
  | connectAttempt
  | connected (latencyMs : ℕ) (now : Instant)
  | connectFailure
  | tlsHandshakeFailure
  | certReload
  | certExpiryDays (days : ℤ)
  | estEnrollment (success : Bool)
  | connectionDropped (now : Instant)
  | pollCycle (group : String) (result : MetricResult) (cycle : PollCycle)
  | publish (mode : PublishMode) (samples : ℕ) (fromBatch : Bool) (latencyMs : ℕ) (ok : Bool)
  | forwardOpen (ok : Bool)
  | ioUp (o2tApiMs t2oApiMs : UInt32)
  | frameConsumed (sequence : UInt16) (receivedAt : Instant) (runMode : Bool)
  | ioStats (stats : IoLinkStats)
  | ioLost
  | ioLinkReplaced
  | command (verb : CommandVerb) (ok : Bool) (latencyMs : ℕ) (tally : CommandCounts)

/-- Change the row under a key; a row that is not there starts from zero. -/
def updateRow {κ σ : Type} [DecidableEq κ] [Inhabited σ] (m : AList (fun _ : κ => σ)) (k : κ)
    (f : σ → σ) : AList (fun _ : κ => σ) :=
  m.insert k (f (entry m k))

namespace MetricState

def onConn (s : MetricState) (f : ConnectionCounters → ConnectionCounters) : MetricState :=
  { s with conn := { s.conn with toConnectionCounters := f s.conn.toConnectionCounters } }

def onIo (s : MetricState) (f : IoLinkCounters → IoLinkCounters) : MetricState :=
  { s with io := { s.io with toIoLinkCounters := f s.io.toIoLinkCounters } }

def record (s : MetricState) : MetricCall → MetricState
  | .counted counter =>
    { s with health.counted := fun c => s.health.counted c + if c = counter then 1 else 0 }
  | .setLink state => { s with health.connectionState := if state = .online then 1 else 0 }
  | .pollLatency ms => { s with health.pollLatencyMs := ms }
  | .publishLatency ms => { s with health.publishLatencyMs := ms }
  | .staleSignals n => { s with health.staleSignals := n }
  | .connectAttempt => s.onConn (·.onConnectAttempt)
  | .connected latencyMs now => s.onConn (·.onConnected latencyMs now)
  | .connectFailure => s.onConn (·.onConnectFailure)
  | .tlsHandshakeFailure => s.onConn (·.onTlsHandshakeFailure)
  | .certReload => { s with conn := s.conn.onCertReload }
  | .certExpiryDays days => { s with conn := s.conn.setCertExpiryDays days }
  | .estEnrollment success => { s with conn := s.conn.onEstEnrollment success }
  | .connectionDropped now => s.onConn (·.onConnectionDropped now)
  | .pollCycle group result cycle =>
    { s with poll := updateRow s.poll (group, result) (PollCounters.recordPollCycle cycle) }
  | .publish mode samples fromBatch latencyMs ok =>
    { s with
      publish := updateRow s.publish mode
        (PubCounters.recordPublish samples fromBatch latencyMs ok) }
  | .forwardOpen ok => { s with io := s.io.onForwardOpen ok }
  | .ioUp o2tApiMs t2oApiMs => s.onIo (·.onIoUp o2tApiMs t2oApiMs)
  | .frameConsumed sequence receivedAt runMode =>
    s.onIo (·.recordFrameConsumed sequence receivedAt runMode)
  | .ioStats stats => s.onIo (fun io => (io.recordIoStats stats).1)
  | .ioLost => s.onIo (·.onIoLost)
  | .ioLinkReplaced => s.onIo (·.onIoLinkReplaced)
  | .command verb ok latencyMs tally =>
    let result : MetricResult := if ok then .success else .error
    { s with
      command := updateRow s.command (verb, result)
        (CmdCounters.recordCommand verb ok latencyMs tally) }

end MetricState

/-! ## The setup -/

/-- A family with one combination of dimensions. -/
inductive MetricCombo where
  | health
  | connection
  | inventory (group : String)
  | poll (group : String) (result : MetricResult)
  | publish (mode : PublishMode)
  | command (verb : CommandVerb) (result : MetricResult)
  | io
deriving DecidableEq, Repr

/-- The static gauges of a poll group. -/
structure InventoryRow where
  group : String
  configuredSignals : ℕ
  arraySignals : ℕ
  writableSignals : ℕ
  pollIntervalMs : ℕ
  requestsPerCycle : ℕ
deriving DecidableEq, Repr

/-- What of `DeviceMetrics` never changes. -/
structure MetricSetup where
  device : DeviceConfig
  isPush : Bool
  publishModes : List PublishMode
  inventory : List InventoryRow
  signalsTotal : ℕ

namespace MetricSetup

def inventoryRow (device : DeviceConfig) (task : TaskConfig) (g : ScheduledGroup) :
    InventoryRow where
  group := g.id.getD "group"
  configuredSignals := g.signals.length
  arraySignals := (g.signals.filter (·.arrayCount.isSome)).length
  writableSignals := (g.signals.filter fun s => device.writes.permits s.tagPath).length
  pollIntervalMs := task.effectivePollMs g
  -- One request for each signal of the group.
  requestsPerCycle := g.signals.length

/-- The modes of the groups, each once, in the order they come. -/
def groupModes (task : TaskConfig) : List PublishMode :=
  task.groups.foldl (fun set g =>
    let mode := task.effectivePublishMode g
    if mode ∈ set then set else set ++ [mode]) []

/-- `DeviceMetrics::new`, what it reads of the configuration. -/
def new (device : DeviceConfig) (task : TaskConfig) : MetricSetup where
  device := device
  isPush := device.mode = .push
  publishModes :=
    match device.mode with
    | .push => [task.pushMode]
    | .poll => if groupModes task = [] then [.onChange] else groupModes task
  inventory := task.groups.map (inventoryRow device task)
  signalsTotal :=
    match device.mode with
    | .push => (device.io.map fun io =>
        io.input.signals.length + io.outputSignals.length).getD 0
    | .poll => (task.groups.flatMap (·.signals)).length

/-- `DeviceMetrics::new`, the rows it starts with. -/
def start (setup : MetricSetup) : MetricState where
  poll := (setup.inventory.flatMap fun row => metricResults.map (row.group, ·)).foldl
    (fun m k => updateRow m k id) ∅
  publish := setup.publishModes.foldl (fun m k => updateRow m k id) ∅
  command := (commandVerbs.flatMap fun verb => metricResults.map (verb, ·)).foldl
    (fun m k => updateRow m k id) ∅

def connectionMode (setup : MetricSetup) : String :=
  if setup.device.connection.connected then "connected" else "unconnected"

end MetricSetup

def MetricCombo.family : MetricCombo → String
  | .health => "southbound_health"
  | .connection => "EtherNetIpConnection"
  | .inventory _ => "EtherNetIpInventory"
  | .poll _ _ => "EtherNetIpPoll"
  | .publish _ => "EtherNetIpPublish"
  | .command _ _ => "EtherNetIpCommand"
  | .io => "EtherNetIpIo"

def MetricSetup.dimensions (setup : MetricSetup) : MetricCombo → List (String × String)
  | .health | .io => [("instance", setup.device.id)]
  | .connection =>
    [("instance", setup.device.id), ("connectionMode", setup.connectionMode)]
  | .inventory group => [("instance", setup.device.id), ("pollGroup", group)]
  | .poll group result =>
    [("instance", setup.device.id), ("pollGroup", group), ("result", result.asStr)]
  | .publish mode => [("instance", setup.device.id), ("publishMode", mode.asStr)]
  | .command verb result =>
    [("instance", setup.device.id), ("verb", verb.asStr), ("result", result.asStr)]

/-- The rows that are defined at startup. -/
def MetricSetup.defineAll (setup : MetricSetup) : List MetricCombo :=
  [.health, .connection] ++ setup.publishModes.map .publish ++
    (commandVerbs.flatMap fun verb => metricResults.map (.command verb ·)) ++
    if setup.isPush then [.io]
    else setup.inventory.flatMap fun row =>
      .inventory row.group :: metricResults.map (.poll row.group ·)

/-! ## Emission -/

def pairLe (a b : String × String) : Bool :=
  decide (a.1 < b.1) || (a.1 == b.1 && decide (a.2 ≤ b.2))

/-- The keys of a map, in the order of their names. -/
def inOrder {κ σ : Type} (name : κ → String × String) (m : AList (fun _ : κ => σ)) : List κ :=
  m.keys.mergeSort fun a b => pairLe (name a) (name b)

/-- Drain every row of a map. -/
def drainRows {κ σ : Type} [DecidableEq κ] [Inhabited σ] (name : κ → String × String)
    (drain : σ → σ × MetricValues) (m : AList (fun _ : κ => σ)) :
    AList (fun _ : κ => σ) × List (κ × MetricValues) :=
  foldKeyed id (fun _ => drain) (inOrder name m) m

/-- The parts of an emission, each of which takes the lock once. -/
inductive EmitPart where
  | health
  | connection
  | publish
  | command
  | io
  | inventory
  | poll
deriving DecidableEq, Repr

/-- `emit_health`: three of the counters start again. -/
def drainHealth (setup : MetricSetup) (h : HealthValues) : HealthValues × MetricValues :=
  ({ h with counted := fun _ => 0 },
    { gauges := [
        ("connectionState", (h.connectionState : ℚ)),
        ("signalsSubscribed", if h.connectionState = 1 then (setup.signalsTotal : ℚ) else 0),
        ("pollLatencyMs", (h.pollLatencyMs : ℚ)),
        ("publishLatencyMs", (h.publishLatencyMs : ℚ)),
        ("readErrors", (h.counted .readErrors : ℚ)),
        ("writeErrors", (h.counted .writeErrors : ℚ)),
        ("staleSignals", (h.staleSignals : ℚ)),
        ("reconnects", (h.counted .reconnects : ℚ))] })

def InventoryRow.values (row : InventoryRow) : MetricValues where
  gauges := [
    ("configuredSignals", (row.configuredSignals : ℚ)),
    ("arraySignals", (row.arraySignals : ℚ)),
    ("writableSignals", (row.writableSignals : ℚ)),
    ("configuredPollIntervalMs", (row.pollIntervalMs : ℚ)),
    ("requestsPerCycle", (row.requestsPerCycle : ℚ))]

/-- What a part of an emission takes out of the counters. -/
def MetricState.collect (setup : MetricSetup) (now : Instant) (s : MetricState) :
    EmitPart → MetricState × List (MetricCombo × MetricValues)
  | .health =>
    let (health, values) := drainHealth setup s.health
    ({ s with health := health }, [(.health, values)])
  | .connection =>
    let (conn, values) := s.conn.drain now
    ({ s with conn := conn }, [(.connection, values)])
  | .publish =>
    let (publish, rows) := drainRows (fun mode => (mode.asStr, "")) PubCounters.drain s.publish
    ({ s with publish := publish }, rows.map fun row => (.publish row.1, row.2))
  | .command =>
    let (command, rows) :=
      drainRows (fun k => (k.1.asStr, k.2.asStr)) CmdCounters.drain s.command
    ({ s with command := command }, rows.map fun row => (.command row.1.1 row.1.2, row.2))
  | .io =>
    let (io, values) := s.io.drain
    ({ s with io := io }, [(.io, values)])
  | .inventory => (s, setup.inventory.map fun row => (.inventory row.group, row.values))
  | .poll =>
    let (poll, rows) := drainRows (fun k => (k.1, k.2.asStr)) PollCounters.drain s.poll
    ({ s with poll := poll }, rows.map fun row => (.poll row.1.1 row.1.2, row.2))

/-- A row on its way to the metric service. -/
structure Emission where
  name : String
  dimensions : List (String × String)
  values : MetricValues
  /-- `emit_metric_now` instead of `emit_metric`. -/
  now : Bool
deriving DecidableEq, Repr

def emitCombo (setup : MetricSetup) (now : Bool) (row : MetricCombo × MetricValues) : Emission where
  name := row.1.family
  dimensions := setup.dimensions row.1
  values := row.2
  now := now

def emitPeriodic (setup : MetricSetup) : List EmitPart :=
  [.health, .connection, .publish, .command] ++ if setup.isPush then [.io] else [.inventory, .poll]

def emitNow (setup : MetricSetup) : List EmitPart :=
  [.health, .connection] ++ if setup.isPush then [.io] else []

/-- An emission under way: the parts it has not come to, and the rows of the current part that
are not handed over. -/
structure EmitTask where
  now : Bool
  parts : List EmitPart
  hand : List Emission := []

/-- The emitter of an instance among the tasks that use it. The rows drained so far are kept in the
order the lock was taken. -/
structure MetricSystem where
  state : MetricState
  tasks : List EmitTask := []
  drained : List Emission := []
  emitted : List Emission := []

inductive MetricInput where
  | record (call : MetricCall)
  /-- Some task starts a periodic emission, or one of a transition. -/
  | start (now : Bool)
  /-- An emission under way takes its next step. -/
  | turn (task : ℕ) (now : Instant)

def MetricSystem.turn (setup : MetricSetup) (s : MetricSystem) (i : ℕ) (task : EmitTask)
    (now : Instant) : MetricSystem :=
  match task.hand, task.parts with
  | row :: hand, _ =>
    { s with
      emitted := s.emitted ++ [row]
      tasks := s.tasks.set i { task with hand := hand } }
  | [], part :: parts =>
    let (state, rows) := s.state.collect setup now part
    let hand := rows.map (emitCombo setup task.now)
    { s with
      state := state
      drained := s.drained ++ hand
      tasks := s.tasks.set i { task with parts := parts, hand := hand } }
  | [], [] => s

def metricStep (setup : MetricSetup) (s : MetricSystem) : MetricInput → MetricSystem
  | .record call => { s with state := s.state.record call }
  | .start now =>
    let parts := if now then emitNow setup else emitPeriodic setup
    { s with tasks := s.tasks ++ [{ now := now, parts := parts }] }
  | .turn i now =>
    match s.tasks[i]? with
    | some task => s.turn setup i task now
    | none => s

end EnipAdapter.Model
