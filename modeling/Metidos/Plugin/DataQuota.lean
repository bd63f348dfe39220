import Metidos.Library.Transition
import Metidos.Plugin.NetworkAllowlist

/-!
The quota of a plugin's `.data` area, `src/bun/plugin/data.ts` and the writes, copies and moves of
`src/bun/plugin/fs-write.ts` that it admits.  An operation measures what it adds and replaces, waits
for the quota lock, measures the whole area, and after the lock is released writes; each measurement
walks the area while other operations go on.
-/

namespace Metidos.Plugin

/-- The names on the way from the `.data` directory to an entry. -/
abbrev DataPath := List Text

structure DataFile where
  path : DataPath
  bytes : Nat
  deriving DecidableEq

/-- The files of the `.data` area. -/
abbrev DataArea := List DataFile

structure PluginDataQuotaSettings where
  maxDataBytes : Nat
  maxFileBytes : Nat
  maxFiles : Nat

structure PluginDataQuotaUsage where
  bytes : Nat
  files : Nat
  largestFileBytes : Nat
  deriving DecidableEq

def emptyQuotaUsage : PluginDataQuotaUsage where
  bytes := 0
  files := 0
  largestFileBytes := 0

def combineQuotaUsage (left right : PluginDataQuotaUsage) : PluginDataQuotaUsage where
  bytes := left.bytes + right.bytes
  files := left.files + right.files
  largestFileBytes := max left.largestFileBytes right.largestFileBytes

def fileQuotaUsage (bytes : Nat) : PluginDataQuotaUsage where
  bytes := bytes
  files := 1
  largestFileBytes := bytes

namespace DataArea

def usage (area : DataArea) : PluginDataQuotaUsage :=
  (area.map fun file => fileQuotaUsage file.bytes).foldr combineQuotaUsage emptyQuotaUsage

def under (area : DataArea) (path : DataPath) : DataArea :=
  area.filter fun file => path.isPrefixOf file.path

def outside (area : DataArea) (path : DataPath) : DataArea :=
  area.filter fun file => !path.isPrefixOf file.path

def bytes (area : DataArea) : Nat := (area.map DataFile.bytes).sum

def put (area : DataArea) (path : DataPath) (bytes : Nat) : DataArea :=
  area.filter (fun file => file.path ≠ path) ++ [{ path := path, bytes := bytes }]

@[grind =] def rename (area : DataArea) (source target : DataPath) : DataArea :=
  (area.outside source).outside target ++
    (area.under source).map fun file =>
      { file with path := target ++ file.path.drop source.length }

def reduce (area : DataArea) (path : DataPath) : Option Nat → DataArea
  | none => area.filter fun file => file.path ≠ path
  | some bytes => area.map fun file =>
    if file.path = path then { file with bytes := min file.bytes bytes } else file

end DataArea

inductive PluginDataQuotaErrorCode
  | pluginDataQuotaExceeded
  | pluginDataQuotaUnavailable
  deriving DecidableEq

structure PluginDataQuotaError where
  attempted : Int
  code : PluginDataQuotaErrorCode
  limit : Nat
  message : String
  deriving DecidableEq

def assertQuotaForPlannedStorageChange (quota : PluginDataQuotaSettings)
    (currentUsage addedUsage replacedUsage : PluginDataQuotaUsage)
    (operationLargestFileBytes : Nat) : Option PluginDataQuotaError :=
  let resultingBytes : Int := currentUsage.bytes + addedUsage.bytes - replacedUsage.bytes
  let resultingFiles : Int := currentUsage.files + addedUsage.files - replacedUsage.files
  if operationLargestFileBytes > quota.maxFileBytes then
    some { attempted := operationLargestFileBytes, code := .pluginDataQuotaExceeded,
           limit := quota.maxFileBytes,
           message := "Plugin data operation exceeds the per-file quota." }
  else if resultingBytes > quota.maxDataBytes then
    some { attempted := resultingBytes, code := .pluginDataQuotaExceeded,
           limit := quota.maxDataBytes,
           message := "Plugin data operation exceeds the total storage quota." }
  else if resultingFiles > quota.maxFiles then
    some { attempted := resultingFiles, code := .pluginDataQuotaExceeded,
           limit := quota.maxFiles,
           message := "Plugin data operation exceeds the file-count quota." }
  else none

/-- Where the source of a copy or a move lies. -/
inductive DataSource
  | data (path : DataPath)
  | project (isDirectory : Bool)
  deriving DecidableEq

inductive DataOperation
  | write (target : DataPath) (bytes : Nat)
  | copy (source : DataSource) (target : DataPath)
  | move (source : DataSource) (target : DataPath)
  deriving DecidableEq

namespace DataOperation

@[grind =] def target : DataOperation → DataPath
  | .write target _ => target
  | .copy _ target => target
  | .move _ target => target

def sourceUsage (area : DataArea) : DataOperation → Option PluginDataQuotaUsage
  | .write _ bytes => some (fileQuotaUsage bytes)
  | .copy (.data path) _ | .move (.data path) _ => some (area.under path).usage
  | .copy (.project _) _ | .move (.project _) _ => none

def replacedUsage (area : DataArea) : DataOperation → PluginDataQuotaUsage
  | .move (.data source) target =>
    if source.isPrefixOf target then emptyQuotaUsage else (area.under target).usage
  | operation => (area.under operation.target).usage

def addedUsage (source : PluginDataQuotaUsage) : DataOperation → PluginDataQuotaUsage
  | .move (.data _) _ => emptyQuotaUsage
  | _ => source

def copiesOverDirectory (area : DataArea) : DataOperation → Bool
  | .copy source target =>
    (match source with
      | .data path => area.all fun file => file.path ≠ path
      | .project isDirectory => isDirectory) && !(area.under target).isEmpty
  | _ => false

def writes (path : DataPath) (bytes : Nat) : DataOperation → Bool
  | .write target contents => path = target && bytes = contents
  | .copy _ target => target.isPrefixOf path
  | .move (.project _) target => target.isPrefixOf path
  | .move (.data _) _ => false

end DataOperation

/-- How far an operation has come.  A measurement that began at a version of the area is exact while
the version stays. -/
inductive QuotaPhase
  | measuring
  | queued
  | totalling (since : Nat) (retried : Bool)
  | collecting
  | admitted
  | ended
  deriving DecidableEq

structure RunningOperation where
  operation : DataOperation
  phase : QuotaPhase
  started : Nat
  source : PluginDataQuotaUsage
  replaced : PluginDataQuotaUsage
  total : PluginDataQuotaUsage
  deriving DecidableEq

namespace RunningOperation

@[grind =] def target (running : RunningOperation) : DataPath := running.operation.target

def added (running : RunningOperation) : PluginDataQuotaUsage :=
  running.operation.addedUsage running.source

end RunningOperation

/-- The area with the version that each change of it raises, the operations so far and the queue of
the quota lock, whose first operation holds it. -/
structure QuotaState where
  area : DataArea
  version : Nat
  operations : List RunningOperation
  queue : List Nat

inductive QuotaEvent
  | start (operation : DataOperation)
  | measured (index : Nat) (source replaced : PluginDataQuotaUsage)
  | acquire (index : Nat)
  | totalled (index : Nat) (total : PluginDataQuotaUsage)
  | collected (index : Nat)
  | put (index : Nat) (path : DataPath) (bytes : Nat)
  | rename (index : Nat)
  | finish (index : Nat)
  | reduce (path : DataPath) (bytes : Option Nat)
  deriving DecidableEq

namespace QuotaState

def setOperation (state : QuotaState) (index : Nat) (running : RunningOperation) : QuotaState :=
  { state with operations := state.operations.set index running }

def changeArea (state : QuotaState) (area : DataArea) : QuotaState :=
  { state with area, version := state.version + 1 }

def mayMeasure (state : QuotaState) (running : RunningOperation)
    (source replaced : PluginDataQuotaUsage) : Bool :=
  (match running.operation with
    | .write _ bytes => source = fileQuotaUsage bytes
    | _ => true) &&
  (running.started != state.version ||
    (((running.operation.sourceUsage state.area).all (· = source)) &&
      replaced = running.operation.replacedUsage state.area))

def afterTotal (quota : PluginDataQuotaSettings) (runGc : Bool) (retried : Bool)
    (running : RunningOperation) (total : PluginDataQuotaUsage) : QuotaPhase :=
  match assertQuotaForPlannedStorageChange quota total running.added running.replaced
      running.source.largestFileBytes with
  | none => .admitted
  | some _ => if runGc && !retried then .collecting else .ended

@[grind =] def step (quota : PluginDataQuotaSettings) (runGc : Bool) (state : QuotaState) :
    QuotaEvent → Option QuotaState
  | .start operation =>
    some { state with
      operations := state.operations ++
        [{ operation, phase := .measuring, started := state.version, source := emptyQuotaUsage,
           replaced := emptyQuotaUsage, total := emptyQuotaUsage }] }
  | .measured index source replaced =>
    (state.operations[index]?).bind fun running =>
      if running.phase = .measuring && state.mayMeasure running source replaced then
        if running.operation.copiesOverDirectory state.area then
          some (state.setOperation index { running with phase := .ended })
        else
          some { state.setOperation index { running with phase := .queued, source, replaced } with
            queue := state.queue ++ [index] }
      else none
  | .acquire index =>
    (state.operations[index]?).bind fun running =>
      if running.phase = .queued && state.queue.head? = some index then
        some (state.setOperation index { running with phase := .totalling state.version false })
      else none
  | .totalled index total =>
    (state.operations[index]?).bind fun running =>
      match running.phase with
      | .totalling since retried =>
        if since != state.version || total = state.area.usage then
          let phase := afterTotal quota runGc retried running total
          some { state.setOperation index { running with phase, total } with
            queue := if phase = .collecting then state.queue else state.queue.tail }
        else none
      | _ => none
  | .collected index =>
    (state.operations[index]?).bind fun running =>
      if running.phase = .collecting then
        some (state.setOperation index { running with phase := .totalling state.version true })
      else none
  | .put index path bytes =>
    (state.operations[index]?).bind fun running =>
      if running.phase = .admitted && running.operation.writes path bytes then
        some (state.changeArea (state.area.put path bytes))
      else none
  | .rename index =>
    (state.operations[index]?).bind fun running =>
      match running.operation with
      | .move (.data source) target =>
        if running.phase = .admitted && !source.isPrefixOf target && !target.isPrefixOf source then
          some ((state.setOperation index { running with phase := .ended }).changeArea
            (state.area.rename source target))
        else none
      | _ => none
  | .finish index =>
    (state.operations[index]?).bind fun running =>
      if running.phase = .queued then none
      else
        some { state.setOperation index { running with phase := .ended } with
          queue := match running.phase with
            | .totalling _ _ | .collecting => state.queue.tail
            | _ => state.queue }
  | .reduce path bytes => some (state.changeArea (state.area.reduce path bytes))

end QuotaState

end Metidos.Plugin
