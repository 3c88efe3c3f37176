import ChainKVM.Robot.Protocol

/-!
# Revocation measurements: `internal/metrics/revocation.go`

The agent shares one pointer, `currentRevocation`, between `OnRevoked` (which
sets it) and the safe-stop callback (which completes and clears it). The
records a revocation allocates are kept in a list and a pointer is an index
into it.
-/

namespace ChainKVM.Robot

/-- `RevocationTimestamps`; a time that is not set is `zeroTime`. -/
structure RevocationTimestamps where
  sessionID : String
  messageReceived : Time
  handlerStarted : Time
  transportClosed : Time
  sessionTerminated : Time
  safeStopTriggered : Time
  safeStopCompleted : Time
  hardwareStopIssued : Time
  deriving DecidableEq, Repr

/-- The stages after the first, which sets `messageReceived`. -/
inductive RevocationStage where
  | handlerStarted
  | transportClosed
  | sessionTerminated
  | safeStopTriggered
  | safeStopCompleted
  | hardwareStopIssued
  deriving DecidableEq, Repr

namespace RevocationTimestamps

/-- `&RevocationTimestamps{SessionID, MessageReceived}`. -/
def start (sessionID : String) (now : Time) : RevocationTimestamps :=
  ⟨sessionID, now, zeroTime, zeroTime, zeroTime, zeroTime, zeroTime, zeroTime⟩

/-- Set the time of one stage. -/
def stamp (ts : RevocationTimestamps) (now : Time) : RevocationStage → RevocationTimestamps
  | .handlerStarted => { ts with handlerStarted := now }
  | .transportClosed => { ts with transportClosed := now }
  | .sessionTerminated => { ts with sessionTerminated := now }
  | .safeStopTriggered => { ts with safeStopTriggered := now }
  | .safeStopCompleted => { ts with safeStopCompleted := now }
  | .hardwareStopIssued => { ts with hardwareStopIssued := now }

end RevocationTimestamps

/-- `RevocationCollector`. -/
structure RevocationCollector where
  measurements : List RevocationTimestamps
  maxSamples : Nat
  deriving DecidableEq, Repr

/-- `Record`: a full collector drops its oldest measurement. -/
def RevocationCollector.record (c : RevocationCollector) (ts : RevocationTimestamps) :
    RevocationCollector :=
  if c.maxSamples ≤ c.measurements.length then
    { c with measurements := c.measurements.tail ++ [ts] }
  else { c with measurements := c.measurements ++ [ts] }

/-- The agent's revocation measurements. -/
structure RevocationLog where
  records : List RevocationTimestamps
  currentRevocation : Option Nat
  revocationMetrics : RevocationCollector
  deriving DecidableEq, Repr

namespace RevocationLog

/-- `NewRevocationCollector(100)` and no revocation yet. -/
def new : RevocationLog := ⟨[], none, ⟨[], 100⟩⟩

/-- `OnRevoked` allocates a record and makes it the current one. -/
def start (l : RevocationLog) (sessionID : String) (now : Time) : Nat × RevocationLog :=
  (l.records.length,
    { l with
      records := l.records ++ [.start sessionID now]
      currentRevocation := some l.records.length })

/-- Write one stage through a pointer. -/
def stamp (l : RevocationLog) (ts : Nat) (now : Time) (stage : RevocationStage) : RevocationLog :=
  { l with records := l.records.modify ts fun r => r.stamp now stage }

/-- `recordRevocationTimestamp`: write one stage of the current record. -/
def recordTimestamp (l : RevocationLog) (now : Time) (stage : RevocationStage) : RevocationLog :=
  match l.currentRevocation with
  | none => l
  | some ts => l.stamp ts now stage

/-- `completeRevocationMeasurement`. -/
def complete (l : RevocationLog) (now : Time) : RevocationLog :=
  match l.currentRevocation with
  | none => l
  | some ts =>
    match (l.stamp ts now .safeStopCompleted).records[ts]? with
    | none => l
    | some r =>
      { l.stamp ts now .safeStopCompleted with
        currentRevocation := none
        revocationMetrics := l.revocationMetrics.record r }

end RevocationLog

end ChainKVM.Robot
