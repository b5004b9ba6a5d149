import PathMtu.Fault
import PathMtu.Line

namespace PathMtu

/-- Something to be told about faults of one code. It may refuse a fault by raising. -/
structure Callback where
  id : String
  raises : Fault → Bool

/-- The faults reported so far: the latest ones, how often each code occurred, and who is told. -/
structure FaultLog where
  recent : List Fault := []
  counts : List (FaultCode × Nat) := []
  callbacks : List (FaultCode × Callback) := []
  logging : Bool := true

inductive ReportEffect where
  | logged (fault : Fault)
  | called (callback : Callback) (fault : Fault)

structure Dispatch where
  effects : List ReportEffect
  raisedBy : Option Callback

def Fault.logLine (fault : Fault) : String :=
  s!"ERROR: {fault.describe}"

/-- The line that an effect writes. What a callback does is up to the callback. -/
def ReportEffect.line? : ReportEffect → Option Line
  | logged fault => some (Line.diagnostic fault.logLine)
  | called _ _ => none

def Dispatch.lines (dispatch : Dispatch) : List Line :=
  dispatch.effects.filterMap ReportEffect.line?

namespace FaultLog

/-- Only this many faults are kept; older ones go first. -/
def capacity : Nat := 100

/-- Appends to the kept faults and drops from the front what no longer fits. -/
def remember (recent : List Fault) (fault : Fault) : List Fault :=
  let all := recent ++ [fault]
  all.drop (all.length - capacity)

/-- Counts one more occurrence. Entries stay in ascending order of their codes. -/
def count (code : FaultCode) : List (FaultCode × Nat) → List (FaultCode × Nat)
  | [] => [(code, 1)]
  | (c, n) :: rest =>
    if c = code then (c, n + 1) :: rest
    else if code.number < c.number then (code, 1) :: (c, n) :: rest
    else (c, n) :: count code rest

/-- The callbacks that are called: all up to the first that raises. -/
def callUntilRaised (fault : Fault) : List Callback → List Callback × Option Callback
  | [] => ([], none)
  | callback :: rest =>
    if callback.raises fault then ([callback], some callback)
    else
      let (called, raisedBy) := callUntilRaised fault rest
      (callback :: called, raisedBy)

def registered (log : FaultLog) (code : FaultCode) : List Callback :=
  (log.callbacks.filter fun entry => entry.1 = code).map Prod.snd

def dispatch (log : FaultLog) (fault : Fault) : Dispatch :=
  let (called, raisedBy) := callUntilRaised fault (log.registered fault.code)
  { effects := (if log.logging then [.logged fault] else []) ++ called.map (.called · fault)
    raisedBy }

/-- The fault is stored before anyone is told, so a raising callback loses nothing. -/
def store (log : FaultLog) (fault : Fault) : FaultLog :=
  { log with recent := remember log.recent fault, counts := count fault.code log.counts }

def report (log : FaultLog) (fault : Fault) : FaultLog × Dispatch :=
  (log.store fault, log.dispatch fault)

def subscribe (log : FaultLog) (code : FaultCode) (callback : Callback) : FaultLog :=
  { log with callbacks := log.callbacks ++ [(code, callback)] }

def switchLogging (log : FaultLog) (enabled : Bool) : FaultLog :=
  { log with logging := enabled }

/-- Forgets faults and counts; callbacks and logging stay as they are. -/
def clear (log : FaultLog) : FaultLog :=
  { log with recent := [], counts := [] }

inductive Operation where
  | report (fault : Fault)
  | subscribe (code : FaultCode) (callback : Callback)
  | switchLogging (enabled : Bool)
  | clear

/-- Only a report is dispatched. -/
def perform (log : FaultLog) : Operation → FaultLog × Option Dispatch
  | .report fault => ((log.report fault).1, some (log.report fault).2)
  | .subscribe code callback => (log.subscribe code callback, none)
  | .switchLogging enabled => (log.switchLogging enabled, none)
  | .clear => (log.clear, none)

def run (log : FaultLog) : List Operation → FaultLog × List (Option Dispatch)
  | [] => (log, [])
  | op :: ops =>
    let (next, dispatched) := log.perform op
    let (final, rest) := next.run ops
    (final, dispatched :: rest)

def storeAll (log : FaultLog) (faults : List Fault) : FaultLog :=
  faults.foldl store log

end FaultLog

end PathMtu
