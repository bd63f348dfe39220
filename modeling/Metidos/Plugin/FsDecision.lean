import Metidos.Plugin.FsPolicy

/-!
What the file policy of a plugin decides about a text, and what the path that it judges has to do
with the canonical path of the file.
-/

namespace Metidos.Plugin

open ExceptRules

/-- What a virtual path is passed to a file operation for. -/
inductive FsUse
  | existence
  | stat
  | read
  | write
  | mkdir
  | rm
  | rmdir
  | copyFrom
  | copyTo
  | moveFrom
  | moveTo
  deriving DecidableEq

namespace FsUse

def kinds : FsUse → List PluginFsPathAccess
  | .existence | .stat | .read | .copyFrom => [.read]
  | .write | .mkdir | .copyTo | .moveTo => [.write]
  | .rm | .rmdir => [.delete]
  | .moveFrom => [.read, .delete]

def pathAccess : FsUse → PluginFsPathAccess
  | .stat | .read | .copyFrom | .moveFrom => .read
  | .rm | .rmdir => .delete
  | .existence | .write | .mkdir | .copyTo | .moveTo => .write

variable (fs : FileSystem) (context : PluginFsContext)

def decide (virtualPath : Text) : FsUse → Except FsFailure ResolvedPluginFsPath
  | .existence => do
      let resolved ← FsRead.resolveReadablePath fs context .write virtualPath
      if resolved.existing then
        fs.revalidateResolvedPluginFsPath context.roots .read resolved
      else return resolved
  | .stat | .read => do
      let resolved ← FsRead.resolveReadablePath fs context .read virtualPath
      fs.revalidateResolvedPluginFsPath context.roots .read resolved
  | .copyFrom => do
      let resolved ← FsWrite.resolvePathForOperation fs context .read .read virtualPath
      fs.revalidateResolvedPluginFsPath context.roots .read resolved
  | .write | .mkdir | .copyTo | .moveTo => do
      let resolved ← FsWrite.resolvePathForOperation fs context .write .write virtualPath
      fs.revalidateResolvedPluginFsPath context.roots .write resolved
  | .rm | .rmdir => do
      let resolved ← FsWrite.resolvePathForOperation fs context .delete .delete virtualPath
      fs.revalidateResolvedPluginFsPath context.roots .delete resolved
  | .moveFrom => do
      let resolved ← FsWrite.resolvePathForOperation fs context .read .read virtualPath
      let _ ← FsWrite.resolvePathForOperation fs context .delete .delete virtualPath
      fs.revalidateResolvedPluginFsPath context.roots .delete resolved

end FsUse

def FilePatterns.permit (patterns : FilePatterns) (virtualPath : Text) : Bool :=
  pathMatchesAllowlist patterns.allowlist virtualPath &&
    !pathMatchesDenylist patterns.denylist virtualPath

def canonicalVirtualPath (realRootPath realPath : AbsolutePath) : Text :=
  normalizedVirtualPath .project (relativeNames realRootPath realPath)

variable {fs : FileSystem} {context : PluginFsContext}

@[simp] theorem patternsAdmit_eq_ok {patterns : FilePatterns} {virtualPath : Text}
    {notCovered denied : FsFailure} {value : Unit} :
    patternsAdmit patterns false virtualPath notCovered denied = .ok value ↔
      patterns.permit virtualPath = true := by
  simp [patternsAdmit, bind_eq_ok, FilePatterns.permit]

theorem resolved_eq_ok {decision : PluginCapabilityDecision} {virtualPath : Text}
    {permissionError : FsFailure} {resolved : ResolvedPluginFsPath} :
    decision.resolved virtualPath permissionError = .ok resolved ↔
      decision = .allowed resolved := by
  cases decision with
  | allowed resolvedPath => simp [PluginCapabilityDecision.resolved]
  | denied code message => cases code <;> simp [PluginCapabilityDecision.resolved]

theorem evaluateFsCapability_allowed {access pathAccess : PluginFsPathAccess}
    {virtualPath : Text} {resolved : ResolvedPluginFsPath}
    (isProject : isProjectVirtualPath virtualPath = true) :
    evaluateFsCapability fs context access pathAccess virtualPath = .ok (.allowed resolved) ↔
      hasPermission context access.projectPermission = true ∧
        context.contextKind = .threadTool ∧
        fs.resolvePluginFsVirtualPath context.roots pathAccess virtualPath = .ok resolved := by
  simp only [evaluateFsCapability, isProject, if_true, Bool.true_and]
  by_cases permitted : hasPermission context access.projectPermission = true
  · by_cases threaded : context.contextKind = .threadTool
    · simp [permitted, threaded, bind_eq_ok]
    · simp [permitted, threaded]
  · simp [permitted]

def Granted (context : PluginFsContext) (kind : PluginFsPathAccess) : Prop :=
  hasPermission context kind.storagePermission = true ∧
    hasPermission context kind.projectPermission = true ∧ context.contextKind = .threadTool

/-- The lists of the kind of access permit the text as it is passed and the path that the code
takes the file's real path for. -/
def Judged (context : PluginFsContext) (kind : PluginFsPathAccess) (virtualPath : Text)
    (resolved : ResolvedPluginFsPath) : Prop :=
  (operationPatterns context kind).permit virtualPath = true ∧
    (operationPatterns context kind).permit (resolvedRealVirtualPath resolved) = true

variable {virtualPath : Text} {resolved : ResolvedPluginFsPath}
  {operation pathAccess : PluginFsPathAccess}

theorem isDataVirtualPath_of_project (isProject : isProjectVirtualPath virtualPath = true) :
    isDataVirtualPath virtualPath = false := by
  cases virtualPath with
  | nil => simp [isProjectVirtualPath] at isProject
  | cons first rest =>
    have isDot : first = dot := by
      simp only [isProjectVirtualPath, Bool.or_eq_true, decide_eq_true_eq, List.cons.injEq,
        List.isPrefixOf_cons_cons, Bool.and_eq_true, beq_iff_eq] at isProject
      rcases isProject with ⟨same, _⟩ | ⟨same, _⟩
      · exact same
      · exact same.symm
    subst isDot
    simp [isDataVirtualPath, List.isPrefixOf, tilde, dot]

theorem rootKind_of_resolve (isProject : isProjectVirtualPath virtualPath = true)
    (resolves : fs.resolvePluginFsVirtualPath context.roots pathAccess virtualPath =
      .ok resolved) : resolved.rootKind ≠ .pluginData := by
  obtain ⟨parsed, parses, _, _, _, resolution⟩ := FileSystem.resolve_eq_ok.mp resolves
  obtain ⟨_, rooted, _⟩ := parsedSegments_of_parse parses
  have notData := (rootKind_of_parseRoot rooted).1
  rw [isDataVirtualPath_of_project isProject] at notData
  rw [resolution.is]
  exact of_decide_eq_false notData.symm

theorem resolveReadablePath_eq_ok (isProject : isProjectVirtualPath virtualPath = true) :
    FsRead.resolveReadablePath fs context pathAccess virtualPath = .ok resolved ↔
      Granted context .read ∧
        fs.resolvePluginFsVirtualPath context.roots pathAccess virtualPath = .ok resolved ∧
        Judged context .read virtualPath resolved := by
  simp only [FsRead.resolveReadablePath, FsRead.assertReadContextAllowsPath, bind_eq_ok,
    ensure_eq_ok, resolved_eq_ok, isProject, if_true, patternsAdmit_eq_ok, pure_eq_ok,
    Except.ok.injEq]
  constructor
  · rintro ⟨_, ⟨_, stored, _, evaluates, _, rfl, _, textPermitted, rfl⟩, _, checked, rfl⟩
    obtain ⟨granted, threaded, resolves⟩ := (evaluateFsCapability_allowed isProject).mp evaluates
    rw [FsRead.assertResolvedProjectPathAllowed,
      if_neg (rootKind_of_resolve isProject resolves), patternsAdmit_eq_ok] at checked
    exact ⟨⟨stored, granted, threaded⟩, resolves, textPermitted, checked⟩
  · rintro ⟨⟨stored, granted, threaded⟩, resolves, textPermitted, realPermitted⟩
    refine ⟨resolved, ⟨(), stored, _,
      (evaluateFsCapability_allowed isProject).mpr ⟨granted, threaded, resolves⟩, _, rfl, (),
      textPermitted, rfl⟩, (), ?_, rfl⟩
    rw [FsRead.assertResolvedProjectPathAllowed,
      if_neg (rootKind_of_resolve isProject resolves), patternsAdmit_eq_ok]
    exact realPermitted

theorem parseRoot_isSome {roots : FsRoots} {rooted : PluginFsRootKind × AbsolutePath}
    (isProject : isProjectVirtualPath virtualPath = true)
    (parses : parseRoot roots virtualPath = .ok rooted) :
    (roots.threadRootPath.isSome || roots.projectRootPath.isSome) = true := by
  rw [parseRoot, isDataVirtualPath_of_project isProject, isProject] at parses
  simp only [Bool.false_eq_true, if_false, if_true] at parses
  split at parses
  · rename_i isThread
    simp [isThread]
  · rename_i _ isRoot
    simp [isRoot]
  · cases parses

theorem resolvePathForOperation_eq_ok (isProject : isProjectVirtualPath virtualPath = true) :
    FsWrite.resolvePathForOperation fs context operation pathAccess virtualPath = .ok resolved ↔
      Granted context operation ∧
        fs.resolvePluginFsVirtualPath context.roots pathAccess virtualPath = .ok resolved ∧
        Judged context operation virtualPath resolved := by
  simp only [FsWrite.resolvePathForOperation, FsWrite.assertContextAllowsPath,
    FsWrite.assertPluginProjectRootContext, bind_eq_ok, ensure_eq_ok, resolved_eq_ok, isProject,
    if_true, patternsAdmit_eq_ok, pure_eq_ok, Except.ok.injEq, decide_eq_true_eq]
  constructor
  · rintro ⟨_, ⟨_, stored, _, _, _, _, textPermitted⟩, _, evaluates, _, rfl, _, checked, rfl⟩
    obtain ⟨granted, threaded, resolves⟩ := (evaluateFsCapability_allowed isProject).mp evaluates
    rw [FsWrite.assertResolvedProjectPathAllowed,
      if_neg (rootKind_of_resolve isProject resolves), patternsAdmit_eq_ok] at checked
    exact ⟨⟨stored, granted, threaded⟩, resolves, textPermitted, checked⟩
  · rintro ⟨⟨stored, granted, threaded⟩, resolves, textPermitted, realPermitted⟩
    obtain ⟨parsed, parses, _⟩ := FileSystem.resolve_eq_ok.mp resolves
    have hasRoot := parseRoot_isSome isProject (parsedSegments_of_parse parses).2.1
    refine ⟨(), ⟨(), stored, (), ⟨(), threaded, hasRoot⟩, (), granted, textPermitted⟩, _,
      (evaluateFsCapability_allowed isProject).mpr ⟨granted, threaded, resolves⟩, _, rfl, (),
      ?_, rfl⟩
    rw [FsWrite.assertResolvedProjectPathAllowed,
      if_neg (rootKind_of_resolve isProject resolves), patternsAdmit_eq_ok]
    exact realPermitted

theorem existing_of_resolve (resolves : fs.resolvePluginFsVirtualPath context.roots pathAccess
    virtualPath = .ok resolved) (notWrite : pathAccess ≠ .write) : resolved.existing = true := by
  obtain ⟨parsed, _, _, _, _, resolution⟩ := FileSystem.resolve_eq_ok.mp resolves
  rw [resolution.is]
  exact decide_eq_true (resolution.exists'.resolve_right notWrite)

theorem bind_revalidate {check : Except FsFailure ResolvedPluginFsPath}
    {again : PluginFsPathAccess}
    (sound : ∀ found, check = .ok found →
      fs.resolvePluginFsVirtualPath context.roots pathAccess virtualPath = .ok found)
    (allows : again = pathAccess ∨ pathAccess ≠ .write) :
    (check >>= fun found => fs.revalidateResolvedPluginFsPath context.roots again found) =
      .ok resolved ↔ check = .ok resolved := by
  have unchanged : ∀ found, check = .ok found →
      fs.revalidateResolvedPluginFsPath context.roots again found = .ok found := by
    intro found checked
    refine FileSystem.revalidate_eq_ok (sound found checked) ?_
    exact allows.imp_right (existing_of_resolve (sound found checked))
  rw [bind_eq_ok]
  constructor
  · rintro ⟨found, checked, revalidated⟩
    rw [unchanged found checked] at revalidated
    cases revalidated
    exact checked
  · intro checked
    exact ⟨resolved, checked, unchanged resolved checked⟩

theorem revalidated_read_eq_ok (isProject : isProjectVirtualPath virtualPath = true) :
    (FsRead.resolveReadablePath fs context .read virtualPath >>= fun found =>
        fs.revalidateResolvedPluginFsPath context.roots .read found) = .ok resolved ↔
      Granted context .read ∧
        fs.resolvePluginFsVirtualPath context.roots .read virtualPath = .ok resolved ∧
        Judged context .read virtualPath resolved :=
  (bind_revalidate (fun _ checked => ((resolveReadablePath_eq_ok isProject).mp checked).2.1)
    (Or.inl rfl)).trans (resolveReadablePath_eq_ok isProject)

theorem revalidated_operation_eq_ok (isProject : isProjectVirtualPath virtualPath = true) :
    (FsWrite.resolvePathForOperation fs context operation operation virtualPath >>= fun found =>
        fs.revalidateResolvedPluginFsPath context.roots operation found) = .ok resolved ↔
      Granted context operation ∧
        fs.resolvePluginFsVirtualPath context.roots operation virtualPath = .ok resolved ∧
        Judged context operation virtualPath resolved :=
  (bind_revalidate (fun _ checked => ((resolvePathForOperation_eq_ok isProject).mp checked).2.1)
    (Or.inl rfl)).trans (resolvePathForOperation_eq_ok isProject)

theorem decide_exists_eq_ok (isProject : isProjectVirtualPath virtualPath = true) :
    FsUse.existence.decide fs context virtualPath = .ok resolved ↔
      Granted context .read ∧
        fs.resolvePluginFsVirtualPath context.roots .write virtualPath = .ok resolved ∧
        Judged context .read virtualPath resolved := by
  rw [← resolveReadablePath_eq_ok isProject, FsUse.decide, bind_eq_ok]
  have unchanged : ∀ found,
      FsRead.resolveReadablePath fs context .write virtualPath = .ok found →
      (if found.existing then fs.revalidateResolvedPluginFsPath context.roots .read found
        else pure found) = .ok found := by
    intro found checked
    have resolves := ((resolveReadablePath_eq_ok isProject).mp checked).2.1
    split
    · rename_i existing
      exact FileSystem.revalidate_eq_ok resolves (Or.inr existing)
    · rfl
  constructor
  · rintro ⟨found, checked, ended⟩
    rw [unchanged found checked] at ended
    cases ended
    exact checked
  · intro checked
    exact ⟨resolved, checked, unchanged resolved checked⟩

theorem resolve_again {again : PluginFsPathAccess}
    (resolves : fs.resolvePluginFsVirtualPath context.roots pathAccess virtualPath = .ok resolved)
    (notWrite : pathAccess ≠ .write) :
    fs.resolvePluginFsVirtualPath context.roots again virtualPath = .ok resolved := by
  have existing := existing_of_resolve resolves notWrite
  obtain ⟨parsed, parses, realRootPath, nearestPath, realNearestPath, resolution⟩ :=
    FileSystem.resolve_eq_ok.mp resolves
  refine FileSystem.resolve_eq_ok.mpr ⟨parsed, parses, realRootPath, nearestPath,
    realNearestPath, { resolution with exists' := ?_ }⟩
  rw [resolution.is] at existing
  exact Or.inl (of_decide_eq_true existing)

theorem decide_moveFrom_eq_ok (isProject : isProjectVirtualPath virtualPath = true) :
    FsUse.moveFrom.decide fs context virtualPath = .ok resolved ↔
      (Granted context .read ∧ Granted context .delete) ∧
        fs.resolvePluginFsVirtualPath context.roots .read virtualPath = .ok resolved ∧
        Judged context .read virtualPath resolved ∧
        Judged context .delete virtualPath resolved := by
  simp only [FsUse.decide, bind_eq_ok, resolvePathForOperation_eq_ok isProject]
  constructor
  · rintro ⟨found, ⟨mayRead, resolves, judged⟩, other, ⟨mayDelete, resolvesToo, judgedToo⟩,
      revalidated⟩
    have again := @resolve_again _ _ _ _ _ .delete resolves (by decide)
    rw [again] at resolvesToo
    cases resolvesToo
    rw [FileSystem.revalidate_eq_ok resolves
      (Or.inr (existing_of_resolve resolves (by decide)))] at revalidated
    cases revalidated
    exact ⟨⟨mayRead, mayDelete⟩, resolves, judged, judgedToo⟩
  · rintro ⟨⟨mayRead, mayDelete⟩, resolves, judged, judgedToo⟩
    exact ⟨resolved, ⟨mayRead, resolves, judged⟩, resolved,
      ⟨mayDelete, resolve_again resolves (by decide), judgedToo⟩,
      FileSystem.revalidate_eq_ok resolves
        (Or.inr (existing_of_resolve resolves (by decide)))⟩

/-- A use is let through if the context may, the path resolves and the lists permit both paths that
the code judges. -/
theorem decide_eq_ok {use : FsUse} (isProject : isProjectVirtualPath virtualPath = true) :
    use.decide fs context virtualPath = .ok resolved ↔
      (∀ kind ∈ use.kinds, Granted context kind) ∧
        fs.resolvePluginFsVirtualPath context.roots use.pathAccess virtualPath = .ok resolved ∧
        ∀ kind ∈ use.kinds, Judged context kind virtualPath resolved := by
  cases use with
  | existence =>
    simp only [FsUse.kinds, List.forall_mem_singleton]
    exact decide_exists_eq_ok isProject
  | stat | read =>
    simp only [FsUse.kinds, List.forall_mem_singleton]
    exact revalidated_read_eq_ok isProject
  | copyFrom | write | mkdir | copyTo | moveTo | rm | rmdir =>
    simp only [FsUse.kinds, List.forall_mem_singleton]
    exact revalidated_operation_eq_ok isProject
  | moveFrom =>
    simp only [FsUse.kinds, List.forall_mem_cons, List.not_mem_nil, false_implies, implies_true,
      and_true]
    exact decide_moveFrom_eq_ok isProject

def FsUse.permits (use : FsUse) (context : PluginFsContext) (virtualPath : Text) : Prop :=
  ∀ kind ∈ use.kinds, (operationPatterns context kind).permit virtualPath = true

def FsUse.permitsCanonical (use : FsUse) (fs : FileSystem) (context : PluginFsContext)
    (resolved : ResolvedPluginFsPath) : Prop :=
  ∀ realRootPath, fs.realpath resolved.rootPath = .ok realRootPath →
    use.permits context (canonicalVirtualPath realRootPath resolved.realPath)

def FsUse.names (use : FsUse) (fs : FileSystem) (context : PluginFsContext) (virtualPath : Text)
    (resolved : ResolvedPluginFsPath) : Prop :=
  fs.resolvePluginFsVirtualPath context.roots use.pathAccess virtualPath = .ok resolved

def FsUse.letsThrough (use : FsUse) (fs : FileSystem) (context : PluginFsContext)
    (virtualPath : Text) : Prop :=
  ∃ resolved, use.decide fs context virtualPath = .ok resolved

/-- The use touches a file only if its canonical path is permitted, and two texts that name one
file are decided alike. -/
structure DecidedOnCanonicalPath (fs : FileSystem) (context : PluginFsContext) (use : FsUse)
    (virtualPath other : Text) : Prop where
  touches : ∀ resolved, use.decide fs context virtualPath = .ok resolved →
    use.permitsCanonical fs context resolved
  alike : ∀ first second, use.names fs context virtualPath first →
    use.names fs context other second → first.realPath = second.realPath →
    (use.letsThrough fs context virtualPath ↔ use.letsThrough fs context other)

/-- The lists do not tell the paths that the code matches from the canonical path: permitting the
text and the path from the unresolved root they permit the path from the real root, and where they
permit that of a file they answer alike for its two texts. -/
structure ListsFollowCanonicalPath (fs : FileSystem) (context : PluginFsContext) (use : FsUse)
    (virtualPath other : Text) : Prop where
  canonical : ∀ resolved, use.names fs context virtualPath resolved →
    use.permits context virtualPath → use.permits context (resolvedRealVirtualPath resolved) →
    use.permitsCanonical fs context resolved
  texts : ∀ first second, use.names fs context virtualPath first →
    use.names fs context other second → first.realPath = second.realPath →
    use.permits context (resolvedRealVirtualPath first) →
    (use.permits context virtualPath ↔ use.permits context other)

theorem letsThrough_iff {use : FsUse} (isProject : isProjectVirtualPath virtualPath = true)
    (named : use.names fs context virtualPath resolved) :
    use.letsThrough fs context virtualPath ↔
      (∀ kind ∈ use.kinds, Granted context kind) ∧ use.permits context virtualPath ∧
        use.permits context (resolvedRealVirtualPath resolved) := by
  constructor
  · rintro ⟨found, decided⟩
    obtain ⟨granted, resolves, judged⟩ := (decide_eq_ok isProject).mp decided
    have same : found = resolved := Except.ok.inj (resolves.symm.trans named)
    subst same
    exact ⟨granted, fun kind member => (judged kind member).1,
      fun kind member => (judged kind member).2⟩
  · rintro ⟨granted, text, real⟩
    exact ⟨resolved, (decide_eq_ok isProject).mpr
      ⟨granted, named, fun kind member => ⟨text kind member, real kind member⟩⟩⟩

theorem resolvedRealVirtualPath_eq {other : Text} {first second : ResolvedPluginFsPath}
    {firstAccess : PluginFsPathAccess}
    (isProject : isProjectVirtualPath virtualPath = true)
    (otherProject : isProjectVirtualPath other = true)
    (resolvesFirst : fs.resolvePluginFsVirtualPath context.roots firstAccess virtualPath =
      .ok first)
    (resolvesSecond : fs.resolvePluginFsVirtualPath context.roots pathAccess other = .ok second)
    (sameFile : first.realPath = second.realPath) :
    resolvedRealVirtualPath first = resolvedRealVirtualPath second := by
  have roots : ∀ {text found access}, isProjectVirtualPath text = true →
      fs.resolvePluginFsVirtualPath context.roots access text = .ok found →
      parseRoot context.roots [dot] = .ok (found.rootKind, found.rootPath) := by
    intro text found access project resolves
    obtain ⟨parsed, parses, _, _, _, resolution⟩ := FileSystem.resolve_eq_ok.mp resolves
    have rooted := (parsedSegments_of_parse parses).2.1
    rw [resolution.is]
    rw [parseRoot, isDataVirtualPath_of_project project, project] at rooted
    rw [parseRoot]
    simp only [Bool.false_eq_true, if_false, if_true] at rooted
    split at rooted
    · exact rooted
    · exact rooted
    · cases rooted
  have firstRoot := roots isProject resolvesFirst
  rw [roots otherProject resolvesSecond] at firstRoot
  simp only [Except.ok.injEq, Prod.mk.injEq] at firstRoot
  rw [resolvedRealVirtualPath, resolvedRealVirtualPath, sameFile, firstRoot.1, firstRoot.2]

def linkedProject : FileSystem where
  root := .directory [
    (units "plugin", .directory []),
    (units "real", .directory [
      (units "notes", .file []),
      (units "secret", .directory [(units "key", .file [])])]),
    (units "work", .symlink { absolute := true, steps := [some (units "real")] })]
  rooted := by decide +kernel
  named := by decide +kernel

def secretless (rootName : String) : PluginFsContext where
  contextKind := .threadTool
  filesDelete := { allowlist := none, denylist := none }
  filesRead := { allowlist := some [units "./**"], denylist := some [units "./secret/**"] }
  filesWrite := { allowlist := none, denylist := none }
  permissions := ["storage:read", "files:read"]
  roots := {
    pluginPath := [units "plugin"]
    projectRootPath := some [units rootName]
    threadRootPath := none }

end Metidos.Plugin
