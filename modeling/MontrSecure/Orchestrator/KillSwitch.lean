import MontrSecure.Contracts.Scan

/-!
# Kill switch

`packages/orchestrator/src/kill-switch.ts`. An `AbortController` and its signal are one cell of a
heap, numbered in the order of creation, that holds the reason once it is aborted; the registry maps
scans to such cells.
-/

namespace MontrSecure

/-- A signal: the number of its cell. -/
abbrev SignalId := ℕ

/-- `KillRegistry`, with the heap of signals. -/
structure KillRegistry where
  /-- The controllers, in the order they were registered. -/
  controllers : List (ScanId × SignalId) := []
  killed : List ScanId := []
  globalKilled : Bool := false
  /-- The reason each signal was aborted for, `none` while it is not. -/
  signals : List (Option Err) := []

namespace KillRegistry

/-- The controller of a scan. -/
def controller? (kills : KillRegistry) (scanId : ScanId) : Option SignalId :=
  kills.controllers.lookup scanId

/-- Why a signal was aborted. -/
def reason? (kills : KillRegistry) (signal : SignalId) : Option Err :=
  (kills.signals[signal]?).join

/-- `signal.aborted`. -/
def aborted (kills : KillRegistry) (signal : SignalId) : Bool := (kills.reason? signal).isSome

/-- `isKilled`. -/
def isKilled (kills : KillRegistry) (scanId : ScanId) : Bool :=
  kills.globalKilled || kills.killed.contains scanId

/-- `isGlobalKilled`. -/
def isGlobalKilled (kills : KillRegistry) : Bool := kills.globalKilled

/-- `activeScanIds`. -/
def activeScanIds (kills : KillRegistry) : List ScanId := kills.controllers.map (·.1)

/-- `register`: the controller of the scan, created when there is none. -/
def register (kills : KillRegistry) (scanId : ScanId) : KillRegistry × SignalId :=
  match kills.controller? scanId with
  | some signal => (kills, signal)
  | none =>
    ({ kills with
        controllers := kills.controllers ++ [(scanId, kills.signals.length)]
        signals := kills.signals ++ [none] },
      kills.signals.length)

/-- `signalFor`: the signal of the scan's controller; a fresh aborted one for a killed scan. -/
def signalFor (kills : KillRegistry) (scanId : ScanId) : KillRegistry × SignalId :=
  if kills.isKilled scanId then
    ({ kills with signals := kills.signals ++ [some (.killSwitchActivated "scan already killed")] },
      kills.signals.length)
  else kills.register scanId

/-- `controller.abort(reason)`, unless it is aborted already. -/
def abort (kills : KillRegistry) (signal : SignalId) (reason : String) : KillRegistry :=
  if kills.aborted signal then kills
  else { kills with signals := kills.signals.set signal (some (.killSwitchActivated reason)) }

/-- `abortScan`. -/
def abortScan (kills : KillRegistry) (scanId : ScanId) (reason : String) : KillRegistry :=
  let kills := { kills with killed := scanId :: kills.killed }
  match kills.controller? scanId with
  | some signal => kills.abort signal reason
  | none => kills

/-- `abortAll`. -/
def abortAll (kills : KillRegistry) (reason : String) : KillRegistry :=
  kills.controllers.foldl
    (fun kills entry =>
      { kills with killed := entry.1 :: kills.killed }.abort entry.2 reason)
    { kills with globalKilled := true }

/-- `clear`. -/
def clear (kills : KillRegistry) (scanId : ScanId) : KillRegistry :=
  { kills with controllers := kills.controllers.filter (·.1 ≠ scanId) }

end KillRegistry

end MontrSecure
