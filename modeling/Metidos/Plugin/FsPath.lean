import Metidos.Library.ExceptRules
import Metidos.Library.FileTree
import Metidos.Plugin.NetworkAllowlist

/-!
Virtual paths of plugins and the places that they name, `src/bun/plugin/fs-path.ts`, on a host
that separates names by slashes.  An absolute path is its names, and file operations see one file
tree from their first check to their last.
-/

namespace Metidos.Plugin

open ExceptRules

def backslash : Nat := 0x5C

def tilde : Nat := 0x7E

def dot : Nat := 0x2E

def dotdot : Text := [dot, dot]

abbrev AbsolutePath := List Text

abbrev FileNode := FileTree.Node Text (List UInt8)

def IsFileName (name : Text) : Prop :=
  name ≠ [] ∧ slash ∉ name ∧ 0 ∉ name ∧ name ≠ [dot] ∧ name ≠ dotdot

instance (name : Text) : Decidable (IsFileName name) :=
  inferInstanceAs (Decidable (_ ∧ _))

structure FileSystem where
  root : FileNode
  rooted : root.isSymlink = false
  named : root.allNames (fun name => decide (IsFileName name)) = true

inductive PluginFsRootKind
  | pluginData
  | project
  | thread
  deriving DecidableEq

inductive PluginFsPathAccess
  | delete
  | read
  | write
  deriving DecidableEq

inductive PluginFsPathErrorCode
  | forbiddenDirectory
  | invalidVirtualPath
  | missingProjectContext
  | pathOutsideRoot
  | pathUnavailable
  | pluginSourceDenied
  | rootUnavailable
  deriving DecidableEq

inductive PluginFsReadErrorCode
  | invalidGlobPattern
  | notADirectory
  | notAFile
  | permissionDenied
  | readFailed
  deriving DecidableEq

inductive PluginFsWriteErrorCode
  | copyFailed
  | deleteFailed
  | mkdirFailed
  | moveFailed
  | notADirectory
  | permissionDenied
  | writeFailed
  deriving DecidableEq

inductive PluginContextErrorCode
  | pluginContextError
  | projectContextUnavailable
  deriving DecidableEq

inductive FsFailure
  | path (code : PluginFsPathErrorCode) (message : String) (virtualPath : Text)
  | read (code : PluginFsReadErrorCode) (message : String) (virtualPath : Text)
  | write (code : PluginFsWriteErrorCode) (message : String) (virtualPath : Text)
  | context (code : PluginContextErrorCode) (message : String) (virtualPath : Text)
  | fileSystem (failure : FileTree.Failure)
  deriving DecidableEq

def ensure (condition : Bool) (failure : FsFailure) : Except FsFailure Unit :=
  if condition then .ok () else .error failure

@[simp] theorem ensure_eq_ok {condition : Bool} {failure : FsFailure} {value : Unit} :
    ensure condition failure = .ok value ↔ condition = true := by
  cases condition with
  | true => simp [ensure]
  | false => simp [ensure]

def someOr {α : Type} (found : Option α) (failure : FsFailure) : Except FsFailure α :=
  match found with
  | some value => .ok value
  | none => .error failure

@[simp] theorem someOr_eq_ok {α : Type} {found : Option α} {failure : FsFailure} {value : α} :
    someOr found failure = .ok value ↔ found = some value := by
  cases found with
  | none => simp [someOr]
  | some other => simp [someOr]

def forbiddenDirectoryNames : List Text := [units ".git", units ".ssh"]

def joinSegments (segments : List Text) : Text := [slash].intercalate segments

def splitRelativePathSegments (relativePath : Text) : List Text :=
  (relativePath.splitOnP fun unit => unit = slash || unit = backslash).filter (· ≠ [])

def relativeNames : AbsolutePath → AbsolutePath → List Text
  | [], target => target
  | base, [] => base.map fun _ => dotdot
  | first :: base, name :: target =>
    if first = name then relativeNames base target
    else (first :: base).map (fun _ => dotdot) ++ name :: target

def relative (base target : AbsolutePath) : Text := joinSegments (relativeNames base target)

def pathIsContainedByDirectory (parentDirectoryPath candidatePath : AbsolutePath) : Bool :=
  let relativePath := relative parentDirectoryPath candidatePath
  relativePath = [] || (!dotdot.isPrefixOf relativePath && relativePath.head? ≠ some slash)

def relativeSegments (rootPath targetPath : AbsolutePath) : List Text :=
  splitRelativePathSegments (relative rootPath targetPath)

def normalizedVirtualPath (rootKind : PluginFsRootKind) (segments : List Text) : Text :=
  (if rootKind = .pluginData then [tilde, slash] else [dot, slash]) ++ joinSegments segments

def toPluginFsVirtualPath (absolutePath : AbsolutePath) (rootKind : PluginFsRootKind)
    (rootPath : AbsolutePath) : Text :=
  normalizedVirtualPath rootKind (relativeSegments rootPath absolutePath)

structure FsRoots where
  pluginPath : AbsolutePath
  projectRootPath : Option AbsolutePath
  threadRootPath : Option AbsolutePath
  deriving DecidableEq

structure ParsedVirtualPath where
  rootKind : PluginFsRootKind
  rootPath : AbsolutePath
  segments : List Text
  virtualPath : Text
  deriving DecidableEq

def resolvePluginDataDirectoryPath (pluginPath : AbsolutePath) : AbsolutePath :=
  pluginPath ++ [units ".data"]

def isProjectVirtualPath (virtualPath : Text) : Bool :=
  virtualPath = [dot] || [dot, slash].isPrefixOf virtualPath

def isDataVirtualPath (virtualPath : Text) : Bool :=
  virtualPath = [tilde] || [tilde, slash].isPrefixOf virtualPath

def parseSegments (virtualPath : Text) : List Text → Except FsFailure (List Text)
  | [] => .ok []
  | segment :: rest =>
    if segment = [] ∨ segment = [dot] then parseSegments virtualPath rest
    else if segment = dotdot then
      .error (.path .pathOutsideRoot "Plugin fs virtual path traversal is denied." virtualPath)
    else if segment ∈ forbiddenDirectoryNames then
      .error (.path .forbiddenDirectory "Plugin fs access to .git and .ssh is denied."
        virtualPath)
    else do
      .ok (segment :: (← parseSegments virtualPath rest))

def parseRoot (roots : FsRoots) (virtualPath : Text) :
    Except FsFailure (PluginFsRootKind × AbsolutePath) :=
  if isDataVirtualPath virtualPath then
    .ok (.pluginData, resolvePluginDataDirectoryPath roots.pluginPath)
  else if isProjectVirtualPath virtualPath then
    match roots.threadRootPath, roots.projectRootPath with
    | some rootPath, _ => .ok (.thread, rootPath)
    | none, some rootPath => .ok (.project, rootPath)
    | none, none =>
      .error (.path .missingProjectContext
        "Plugin fs ./ paths require a current thread or project context." virtualPath)
  else
    .error (.path .invalidVirtualPath "Plugin fs virtual paths must start with ~/ or ./."
      virtualPath)

def parsePluginFsVirtualPath (roots : FsRoots) (virtualPath : Text) :
    Except FsFailure ParsedVirtualPath := do
  ensure (0 ∉ virtualPath)
    (.path .invalidVirtualPath "Plugin fs virtual paths cannot contain NUL bytes." virtualPath)
  let (rootKind, rootPath) ← parseRoot roots virtualPath
  let segments ← parseSegments virtualPath ((virtualPath.drop 2).splitOn slash)
  return { rootKind, rootPath, segments, virtualPath := normalizedVirtualPath rootKind segments }

structure ResolvedPluginFsPath where
  absolutePath : AbsolutePath
  existing : Bool
  realPath : AbsolutePath
  rootKind : PluginFsRootKind
  rootPath : AbsolutePath
  virtualPath : Text
  deriving DecidableEq

namespace FileSystem

variable (fs : FileSystem)

@[grind =] def realpath (path : AbsolutePath) : Except FileTree.Failure AbsolutePath :=
  FileTree.realpath fs.root path

@[grind =] def lstat (path : AbsolutePath) : Except FileTree.Failure FileNode :=
  FileTree.lstat fs.root path

def pathExistsOrIsSymlink (path : AbsolutePath) : Except FsFailure Bool :=
  match fs.lstat path with
  | .ok _ => .ok true
  | .error .missing => .ok false
  | .error failure => .error (.fileSystem failure)

def nearestExistingPathWithinRoot (rootPath targetPath : AbsolutePath) :
    Except FsFailure (Option AbsolutePath) := do
  if ← fs.pathExistsOrIsSymlink targetPath then return some targetPath
  if targetPath = rootPath ∨ targetPath = [] then return none
  nearestExistingPathWithinRoot rootPath targetPath.dropLast
  termination_by targetPath.length
  decreasing_by
    have notEmpty : targetPath ≠ [] := by grind
    have positive := List.length_pos_iff.mpr notEmpty
    rw [List.length_dropLast]
    omega

/-- Where `realpath` fails, a path with a backslash is resolved by way of its parent. -/
def realpathExistingPath (path : AbsolutePath) : Except FileTree.Failure AbsolutePath :=
  match fs.realpath path with
  | .ok real => .ok real
  | .error failure =>
    if path.all (backslash ∉ ·) then .error failure
    else
      match fs.lstat path with
      | .error failure => .error failure
      | .ok node =>
        if node.isSymlink ∨ path = [] then .error failure
        else do
          .ok ((← realpathExistingPath path.dropLast) ++ path.drop (path.length - 1))
  termination_by path.length
  decreasing_by
    have notEmpty : path ≠ [] := by grind
    have positive := List.length_pos_iff.mpr notEmpty
    rw [List.length_dropLast]
    omega

def realpathOr (path : AbsolutePath) (failure : FsFailure) : Except FsFailure AbsolutePath :=
  match fs.realpathExistingPath path with
  | .ok real => .ok real
  | .error _ => .error failure

def assertNoForbiddenRealPathSegments (realRootPath realPath : AbsolutePath)
    (virtualPath : Text) : Except FsFailure Unit :=
  ensure ((relativeSegments realRootPath realPath).all (· ∉ forbiddenDirectoryNames))
    (.path .forbiddenDirectory "Plugin fs access to .git and .ssh is denied." virtualPath)

def assertOutsidePluginSource (pluginPath realPath : AbsolutePath) (rootKind : PluginFsRootKind)
    (virtualPath : Text) : Except FsFailure Unit :=
  if rootKind = .pluginData then .ok ()
  else do
    let denied := .path .pluginSourceDenied
      "Plugin fs access to plugin source files is denied." virtualPath
    let realPluginPath ← fs.realpathOr pluginPath denied
    ensure (!pathIsContainedByDirectory realPluginPath realPath) denied

def resolvePluginFsVirtualPath (roots : FsRoots) (access : PluginFsPathAccess)
    (virtualPath : Text) : Except FsFailure ResolvedPluginFsPath := do
  let parsed ← parsePluginFsVirtualPath roots virtualPath
  let targetPath := parsed.rootPath ++ parsed.segments
  ensure (pathIsContainedByDirectory parsed.rootPath targetPath)
    (.path .pathOutsideRoot "Plugin fs virtual path escaped its allowed root." virtualPath)
  let realRootPath ← fs.realpathOr parsed.rootPath
    (.path .rootUnavailable "Plugin fs root is unavailable." parsed.virtualPath)
  let nearestPath ← someOr (← fs.nearestExistingPathWithinRoot parsed.rootPath targetPath)
    (.path .rootUnavailable "Plugin fs root is unavailable." parsed.virtualPath)
  let existing := nearestPath = targetPath
  ensure (existing || access = .write)
    (.path .pathUnavailable "Plugin fs path is unavailable." parsed.virtualPath)
  let realNearestPath ← fs.realpathOr nearestPath
    (.path .pathOutsideRoot "Plugin fs path could not be safely resolved." parsed.virtualPath)
  ensure (pathIsContainedByDirectory realRootPath realNearestPath)
    (.path .pathOutsideRoot "Plugin fs symlink escape is denied." parsed.virtualPath)
  let realPath := realNearestPath ++ targetPath.drop nearestPath.length
  ensure (pathIsContainedByDirectory realRootPath realPath)
    (.path .pathOutsideRoot "Plugin fs path escaped its allowed root." parsed.virtualPath)
  assertNoForbiddenRealPathSegments realRootPath realPath parsed.virtualPath
  fs.assertOutsidePluginSource roots.pluginPath realPath parsed.rootKind parsed.virtualPath
  return {
    absolutePath := targetPath
    existing := existing
    realPath := realPath
    rootKind := parsed.rootKind
    rootPath := parsed.rootPath
    virtualPath := parsed.virtualPath }

def revalidateResolvedPluginFsPath (roots : FsRoots) (access : PluginFsPathAccess)
    (resolved : ResolvedPluginFsPath) : Except FsFailure ResolvedPluginFsPath := do
  let current ← fs.resolvePluginFsVirtualPath roots access resolved.virtualPath
  ensure (current.realPath = resolved.realPath && current.rootKind = resolved.rootKind &&
      current.rootPath = resolved.rootPath && current.virtualPath = resolved.virtualPath)
    (.path .pathOutsideRoot "Plugin fs path changed during safety revalidation."
      resolved.virtualPath)
  return current

end FileSystem

theorem splitOnP_intercalate_of_forall_not {α : Type} {splits : α → Bool} {mark : α}
    {pieces : List (List α)} (isMark : splits mark = true)
    (solid : ∀ piece ∈ pieces, ∀ unit ∈ piece, splits unit = false) (notEmpty : pieces ≠ []) :
    ([mark].intercalate pieces).splitOnP splits = pieces := by
  induction pieces with
  | nil => exact absurd rfl notEmpty
  | cons piece rest ih =>
    cases rest with
    | nil =>
      rw [List.intercalate_singleton]
      exact List.splitOnP_eq_singleton (solid piece (by simp))
    | cons next others =>
      have tail := ih (fun other member => solid other (by simp [member])) (by simp)
      rw [List.intercalate_cons_cons, List.append_assoc, List.singleton_append,
        List.splitOnP_append_cons_of_forall_mem (solid piece (by simp)) mark isMark, tail]

theorem filter_splitOnP_joinSegments {splits : Nat → Bool} {segments : List Text}
    (isMark : splits slash = true)
    (solid : ∀ segment ∈ segments, segment ≠ [] ∧ ∀ unit ∈ segment, splits unit = false) :
    ((joinSegments segments).splitOnP splits).filter (· ≠ []) = segments := by
  by_cases empty : segments = []
  · subst empty
    simp [joinSegments]
  · rw [joinSegments, splitOnP_intercalate_of_forall_not isMark
      (fun segment member => (solid segment member).2) empty]
    exact List.filter_eq_self.mpr fun segment member => by simp [(solid segment member).1]

def IsSegment (segment : Text) : Prop := segment ≠ [] ∧ slash ∉ segment

theorem filter_splitOn_joinSegments {segments : List Text}
    (solid : ∀ segment ∈ segments, IsSegment segment) :
    ((joinSegments segments).splitOn slash).filter (· ≠ []) = segments := by
  rw [List.splitOn_eq_splitOnP]
  refine filter_splitOnP_joinSegments (by simp) fun segment member => ?_
  refine ⟨(solid segment member).1, fun unit inside => ?_⟩
  have notSlash : unit ≠ slash := fun same => (solid segment member).2 (same ▸ inside)
  simp [notSlash]

theorem parseSegments_eq_ok {virtualPath : Text} {parts segments : List Text} :
    parseSegments virtualPath parts = .ok segments ↔
      (∀ part ∈ parts, part ≠ dotdot ∧ part ∉ forbiddenDirectoryNames) ∧
        segments = (parts.filter (· ≠ [])).filter (· ≠ [dot]) := by
  induction parts generalizing segments with
  | nil => simp [parseSegments, eq_comm]
  | cons part rest ih =>
    rw [parseSegments]
    split
    · rename_i skipped
      have allowed : part ≠ dotdot ∧ part ∉ forbiddenDirectoryNames := by
        rcases skipped with rfl | rfl
        · decide
        · decide
      have left : ((part :: rest).filter (· ≠ [])).filter (· ≠ [dot]) =
          (rest.filter (· ≠ [])).filter (· ≠ [dot]) := by
        rcases skipped with rfl | rfl
        · simp
        · simp
      rw [ih, left]
      simp [allowed.1, allowed.2]
    · rename_i kept
      obtain ⟨notEmpty, notDot⟩ := not_or.mp kept
      split
      · rename_i isDotdot
        simp [isDotdot]
      · rename_i notDotdot
        split
        · rename_i forbidden
          simp [forbidden]
        · rename_i notForbidden
          simp only [bind_eq_ok, Except.ok.injEq, ih]
          constructor
          · rintro ⟨_, ⟨allowed, rfl⟩, rfl⟩
            simp_all
          · rintro ⟨allowed, rfl⟩
            refine ⟨_, ⟨fun other member => allowed other (by simp [member]), rfl⟩, ?_⟩
            simp [notEmpty, notDot]

def IsParsedSegment (segment : Text) : Prop :=
  IsFileName segment ∧ segment ∉ forbiddenDirectoryNames

theorem IsParsedSegment.isSegment {segment : Text} (parsed : IsParsedSegment segment) :
    IsSegment segment :=
  ⟨parsed.1.1, parsed.1.2.1⟩

theorem slash_not_mem_of_mem_splitOn {text piece : Text} (member : piece ∈ text.splitOn slash) :
    slash ∉ piece := by
  induction text generalizing piece with
  | nil =>
    simp only [List.splitOn_nil, List.mem_singleton] at member
    simp [member]
  | cons unit rest ih =>
    rw [List.splitOn_cons_eq_if_modifyHead] at member
    split at member
    · rcases List.mem_cons.mp member with rfl | later
      · simp
      · exact ih later
    · rename_i notSlash
      cases pieces : rest.splitOn slash with
      | nil => simp [pieces] at member
      | cons head others =>
        rw [pieces, List.modifyHead_cons] at member
        rcases List.mem_cons.mp member with rfl | later
        · have inHead := ih (pieces ▸ List.mem_cons_self : head ∈ rest.splitOn slash)
          have differs : slash ≠ unit := fun same => notSlash (by simp [same])
          simp [inHead, differs]
        · exact ih (pieces ▸ List.mem_cons_of_mem _ later)

theorem parsedSegments_of_parse {roots : FsRoots} {virtualPath : Text}
    {parsed : ParsedVirtualPath}
    (parses : parsePluginFsVirtualPath roots virtualPath = .ok parsed) :
    (∀ segment ∈ parsed.segments, IsParsedSegment segment) ∧
      parseRoot roots virtualPath = .ok (parsed.rootKind, parsed.rootPath) ∧
      parsed.virtualPath = normalizedVirtualPath parsed.rootKind parsed.segments := by
  simp only [parsePluginFsVirtualPath, bind_eq_ok, ensure_eq_ok, decide_eq_true_eq] at parses
  obtain ⟨_, noNul, ⟨rootKind, rootPath⟩, rooted, segments, segmented, built⟩ := parses
  cases built
  obtain ⟨allowed, rfl⟩ := parseSegments_eq_ok.mp segmented
  refine ⟨fun segment member => ?_, rooted, rfl⟩
  simp only [List.mem_filter, decide_eq_true_eq] at member
  obtain ⟨⟨isPart, notEmpty⟩, notDot⟩ := member
  have noNulInside : 0 ∉ segment := fun inside =>
    noNul (List.mem_of_mem_drop (JsText.mem_of_mem_splitOn isPart inside))
  exact ⟨⟨notEmpty, slash_not_mem_of_mem_splitOn isPart, noNulInside, notDot,
    (allowed segment isPart).1⟩, (allowed segment isPart).2⟩

theorem isDataVirtualPath_normalized (rootKind : PluginFsRootKind) (segments : List Text) :
    isDataVirtualPath (normalizedVirtualPath rootKind segments) = decide (rootKind = .pluginData) := by
  by_cases isData : rootKind = .pluginData
  · simp [isDataVirtualPath, normalizedVirtualPath, isData]
  · simp [isDataVirtualPath, normalizedVirtualPath, isData, tilde, dot, List.isPrefixOf]

theorem isProjectVirtualPath_normalized (rootKind : PluginFsRootKind) (segments : List Text) :
    isProjectVirtualPath (normalizedVirtualPath rootKind segments) =
      decide (rootKind ≠ .pluginData) := by
  by_cases isData : rootKind = .pluginData
  · simp [isProjectVirtualPath, normalizedVirtualPath, isData, tilde, dot, List.isPrefixOf]
  · simp [isProjectVirtualPath, normalizedVirtualPath, isData]

theorem rootKind_of_parseRoot {roots : FsRoots} {virtualPath : Text}
    {rootKind : PluginFsRootKind} {rootPath : AbsolutePath}
    (rooted : parseRoot roots virtualPath = .ok (rootKind, rootPath)) :
    isDataVirtualPath virtualPath = decide (rootKind = .pluginData) ∧
      (isDataVirtualPath virtualPath || isProjectVirtualPath virtualPath) = true := by
  rw [parseRoot] at rooted
  split at rooted
  · rename_i isData
    cases rooted
    simp [isData]
  · rename_i notData
    split at rooted
    · rename_i isProject
      split at rooted
      · cases rooted
        simp [notData, isProject]
      · cases rooted
        simp [notData, isProject]
      · cases rooted
    · cases rooted

theorem parseRoot_normalized {roots : FsRoots} {virtualPath : Text}
    {rootKind : PluginFsRootKind} {rootPath : AbsolutePath}
    (rooted : parseRoot roots virtualPath = .ok (rootKind, rootPath)) (segments : List Text) :
    parseRoot roots (normalizedVirtualPath rootKind segments) = .ok (rootKind, rootPath) := by
  obtain ⟨isData, supported⟩ := rootKind_of_parseRoot rooted
  rw [parseRoot] at rooted ⊢
  rw [isDataVirtualPath_normalized, isProjectVirtualPath_normalized]
  by_cases kind : rootKind = .pluginData
  · rw [isData] at rooted
    simpa [kind] using rooted
  · rw [isData] at rooted supported
    simp only [kind, decide_false, Bool.false_or] at supported
    simp only [kind, decide_false, Bool.false_eq_true, if_false, supported, if_true] at rooted
    simp only [kind, decide_false, Bool.false_eq_true, if_false, ne_eq, not_false_eq_true,
      decide_true, if_true]
    cases thread : roots.threadRootPath with
    | some path =>
      rw [thread] at rooted
      exact rooted
    | none =>
      rw [thread] at rooted
      cases project : roots.projectRootPath with
      | some path =>
        rw [project] at rooted
        exact rooted
      | none =>
        rw [project] at rooted
        cases rooted

theorem zero_not_mem_joinSegments {segments : List Text}
    (noNul : ∀ segment ∈ segments, 0 ∉ segment) : 0 ∉ joinSegments segments := by
  rw [joinSegments]
  induction segments with
  | nil => simp
  | cons segment rest ih =>
    have tail := ih fun other member => noNul other (by simp [member])
    cases rest with
    | nil => simpa using noNul segment (by simp)
    | cons next others =>
      rw [List.intercalate_cons_cons]
      simp only [List.mem_append, not_or]
      exact ⟨⟨noNul segment (by simp), by decide⟩, tail⟩

theorem normalized_drop (rootKind : PluginFsRootKind) (segments : List Text) :
    (normalizedVirtualPath rootKind segments).drop 2 = joinSegments segments := by
  rw [normalizedVirtualPath]
  split <;> rfl

theorem parse_virtualPath {roots : FsRoots} {virtualPath : Text} {parsed : ParsedVirtualPath}
    (parses : parsePluginFsVirtualPath roots virtualPath = .ok parsed) :
    parsePluginFsVirtualPath roots parsed.virtualPath = .ok parsed := by
  obtain ⟨valid, rooted, normal⟩ := parsedSegments_of_parse parses
  obtain ⟨rootKind, rootPath, segments, virtual⟩ := parsed
  dsimp only at valid rooted normal ⊢
  subst normal
  have solid : ∀ segment ∈ segments, IsSegment segment :=
    fun segment member => (valid segment member).isSegment
  have noNul : 0 ∉ normalizedVirtualPath rootKind segments := by
    rw [normalizedVirtualPath, List.mem_append, not_or]
    refine ⟨?_, zero_not_mem_joinSegments fun segment member => (valid segment member).1.2.2.1⟩
    split <;> decide
  have segmented : ∀ text, parseSegments text
      (((normalizedVirtualPath rootKind segments).drop 2).splitOn slash) = .ok segments := by
    intro text
    rw [normalized_drop]
    refine parseSegments_eq_ok.mpr ⟨?_, ?_⟩
    · intro part member
      by_cases empty : part = []
      · subst empty
        decide
      · have isSegment : part ∈ segments := by
          rw [← filter_splitOn_joinSegments solid]
          simp [member, empty]
        exact ⟨(valid part isSegment).1.2.2.2.2, (valid part isSegment).2⟩
    · rw [filter_splitOn_joinSegments solid]
      exact (List.filter_eq_self.mpr fun part member => by
        simp [(valid part member).1.2.2.2.1]).symm
  rw [parsePluginFsVirtualPath]
  simp only [bind_eq_ok, ensure_eq_ok, decide_eq_true_eq]
  exact ⟨(), noNul, _, parseRoot_normalized rooted segments, segments, segmented _, rfl⟩

namespace FileSystem

variable {fs : FileSystem} {roots : FsRoots} {access : PluginFsPathAccess}
  {virtualPath : Text} {parsed : ParsedVirtualPath} {resolved : ResolvedPluginFsPath}

theorem realpathOr_eq_ok {path real : AbsolutePath} {failure : FsFailure} :
    fs.realpathOr path failure = .ok real ↔ fs.realpathExistingPath path = .ok real := by
  rw [realpathOr]
  split
  · rename_i found isFound
    simp [isFound]
  · rename_i notFound
    simp [notFound]

theorem realpath_of_lstat {path : AbsolutePath} {node : FileNode}
    (found : fs.lstat path = .ok node) (notLink : node.isSymlink = false) :
    ∃ real, fs.realpath path = .ok real := by
  obtain ⟨real, resolves, _⟩ := FileTree.realpath_of_lstat fs.rooted found notLink
  exact ⟨real, resolves⟩

theorem realpathExistingPath_eq_ok {path real : AbsolutePath} :
    fs.realpathExistingPath path = .ok real ↔ fs.realpath path = .ok real := by
  rw [realpathExistingPath]
  split
  · rename_i found isFound
    simp [isFound]
  · rename_i failure isFailure
    refine ⟨fun resolvedSo => ?_, fun impossible => by simp [isFailure] at impossible⟩
    exfalso
    split at resolvedSo
    · cases resolvedSo
    · split at resolvedSo
      · cases resolvedSo
      · rename_i node found
        split at resolvedSo
        · cases resolvedSo
        · rename_i notLink
          obtain ⟨noLink, _⟩ := not_or.mp notLink
          obtain ⟨other, isOther⟩ := realpath_of_lstat found (by simpa using noLink)
          simp [isFailure] at isOther

structure Resolution (fs : FileSystem) (roots : FsRoots) (access : PluginFsPathAccess)
    (parsed : ParsedVirtualPath) (resolved : ResolvedPluginFsPath)
    (realRootPath nearestPath realNearestPath : AbsolutePath) : Prop where
  targetContained : pathIsContainedByDirectory parsed.rootPath (parsed.rootPath ++ parsed.segments)
  realRoot : fs.realpath parsed.rootPath = .ok realRootPath
  nearest : fs.nearestExistingPathWithinRoot parsed.rootPath (parsed.rootPath ++ parsed.segments) =
    .ok (some nearestPath)
  exists' : nearestPath = parsed.rootPath ++ parsed.segments ∨ access = .write
  realNearest : fs.realpath nearestPath = .ok realNearestPath
  nearestContained : pathIsContainedByDirectory realRootPath realNearestPath
  contained : pathIsContainedByDirectory realRootPath resolved.realPath
  notForbidden : ∀ segment ∈ relativeSegments realRootPath resolved.realPath,
    segment ∉ forbiddenDirectoryNames
  outsideSource : parsed.rootKind = .pluginData ∨ ∃ realPluginPath,
    fs.realpath roots.pluginPath = .ok realPluginPath ∧
      pathIsContainedByDirectory realPluginPath resolved.realPath = false
  is : resolved = {
    absolutePath := parsed.rootPath ++ parsed.segments
    existing := nearestPath = parsed.rootPath ++ parsed.segments
    realPath := realNearestPath ++ (parsed.rootPath ++ parsed.segments).drop nearestPath.length
    rootKind := parsed.rootKind
    rootPath := parsed.rootPath
    virtualPath := parsed.virtualPath }

theorem assertOutsidePluginSource_eq_ok {pluginPath realPath : AbsolutePath}
    {rootKind : PluginFsRootKind} {virtual : Text} {value : Unit} :
    fs.assertOutsidePluginSource pluginPath realPath rootKind virtual = .ok value ↔
      rootKind = .pluginData ∨ ∃ realPluginPath, fs.realpath pluginPath = .ok realPluginPath ∧
        pathIsContainedByDirectory realPluginPath realPath = false := by
  rw [assertOutsidePluginSource]
  split
  · rename_i isData
    simp [isData]
  · rename_i notData
    simp only [bind_eq_ok, realpathOr_eq_ok, realpathExistingPath_eq_ok, ensure_eq_ok,
      Bool.not_eq_true', notData, false_or]

theorem resolve_eq_ok :
    fs.resolvePluginFsVirtualPath roots access virtualPath = .ok resolved ↔
      ∃ parsed, parsePluginFsVirtualPath roots virtualPath = .ok parsed ∧
        ∃ realRootPath nearestPath realNearestPath,
          Resolution fs roots access parsed resolved realRootPath nearestPath realNearestPath := by
  rw [resolvePluginFsVirtualPath, bind_eq_ok]
  refine exists_congr fun parsed => and_congr_right fun _ => ?_
  simp only [bind_eq_ok, ensure_eq_ok, someOr_eq_ok, realpathOr_eq_ok,
    realpathExistingPath_eq_ok, assertNoForbiddenRealPathSegments,
    assertOutsidePluginSource_eq_ok, pure_eq_ok, Except.ok.injEq]
  constructor
  · rintro ⟨_, targetContained, realRootPath, realRoot, _, nearest, nearestPath, rfl, _, exists',
      realNearestPath, realNearest, _, nearestContained, _, contained, _, notForbidden, _,
      outsideSource, rfl⟩
    exact ⟨realRootPath, nearestPath, realNearestPath, targetContained, realRoot, nearest,
      by simpa using exists', realNearest, nearestContained, contained,
      by simpa using notForbidden, outsideSource, rfl⟩
  · rintro ⟨realRootPath, nearestPath, realNearestPath, resolution⟩
    obtain ⟨targetContained, realRoot, nearest, exists', realNearest, nearestContained, contained,
      notForbidden, outsideSource, rfl⟩ := resolution
    exact ⟨(), targetContained, realRootPath, realRoot, _, nearest, nearestPath, rfl, (),
      by simpa using exists', realNearestPath, realNearest, (), nearestContained, (), contained,
      (), by simpa using notForbidden, (), outsideSource, rfl⟩

theorem resolve_virtualPath {again : PluginFsPathAccess}
    (resolves : fs.resolvePluginFsVirtualPath roots access virtualPath = .ok resolved)
    (allows : again = access ∨ resolved.existing = true) :
    fs.resolvePluginFsVirtualPath roots again resolved.virtualPath = .ok resolved := by
  obtain ⟨parsed, parses, realRootPath, nearestPath, realNearestPath, resolution⟩ :=
    resolve_eq_ok.mp resolves
  have sameVirtual : resolved.virtualPath = parsed.virtualPath := by rw [resolution.is]
  rw [sameVirtual]
  refine resolve_eq_ok.mpr ⟨parsed, parse_virtualPath parses, realRootPath, nearestPath,
    realNearestPath, { resolution with exists' := ?_ }⟩
  rcases allows with rfl | existing
  · exact resolution.exists'
  · rw [resolution.is] at existing
    exact Or.inl (of_decide_eq_true existing)

theorem revalidate_eq_ok {again : PluginFsPathAccess}
    (resolves : fs.resolvePluginFsVirtualPath roots access virtualPath = .ok resolved)
    (allows : again = access ∨ resolved.existing = true) :
    fs.revalidateResolvedPluginFsPath roots again resolved = .ok resolved := by
  rw [revalidateResolvedPluginFsPath, resolve_virtualPath resolves allows, ok_bind]
  simp [ensure]

end FileSystem

end Metidos.Plugin
