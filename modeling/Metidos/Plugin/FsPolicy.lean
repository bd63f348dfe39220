import Metidos.Plugin.FsPath

/-!
The file policy of a plugin: the checks that `src/bun/plugin/fs-read.ts`,
`src/bun/plugin/fs-write.ts` and the gate of `src/bun/plugin/capability-gate.ts` make of a virtual
path before an operation goes on with the place that it names.
-/

namespace Metidos.Plugin

open ExceptRules

inductive PluginCallbackContextKind
  | cron
  | gc
  | global
  | init
  | notificationProvider
  | oauthProvider
  | providerConfig
  | providerExecution
  | startup
  | threadTool
  deriving DecidableEq

structure FilePatterns where
  allowlist : Option (List Text)
  denylist : Option (List Text)
  deriving DecidableEq

structure PluginFsContext where
  contextKind : PluginCallbackContextKind
  filesDelete : FilePatterns
  filesRead : FilePatterns
  filesWrite : FilePatterns
  permissions : List String
  roots : FsRoots
  deriving DecidableEq

def hasPermission (context : PluginFsContext) (permission : String) : Bool :=
  permission ∈ context.permissions

def normalizeVirtualPathForMatch (virtualPath : Text) : Text :=
  if virtualPath = [tilde] then [tilde, slash]
  else if virtualPath = [dot] then [dot, slash]
  else virtualPath

def virtualPathSegments (virtualPath : Text) : List Text :=
  let normalized := normalizeVirtualPathForMatch virtualPath
  if normalized = [tilde, slash] ∨ normalized = [dot, slash] then []
  else ((normalized.drop 2).splitOn slash).filter (· ≠ [])

def virtualPathMatchesPattern (pattern virtualPath : Text) : Bool :=
  let normalizedPattern := normalizeVirtualPathForMatch pattern
  let normalizedVirtualPath := normalizeVirtualPathForMatch virtualPath
  normalizedPattern.take 2 = normalizedVirtualPath.take 2 &&
    globSegmentsMatch (virtualPathSegments normalizedPattern)
      (virtualPathSegments normalizedVirtualPath)

def pathMatchesAllowlist (allowlist : Option (List Text)) (virtualPath : Text) : Bool :=
  (allowlist.getD []).any fun pattern => virtualPathMatchesPattern pattern virtualPath

def pathMatchesDenylist (denylist : Option (List Text)) (virtualPath : Text) : Bool :=
  (denylist.getD []).any fun pattern => virtualPathMatchesPattern pattern virtualPath

def literalStaticPrefixSegments (pattern : Text) : List Text :=
  (virtualPathSegments pattern).takeWhile fun segment => !containsGlobPattern segment

def segmentsStartWith (candidateSegments prefixSegments : List Text) : Bool :=
  prefixSegments.isPrefixOf candidateSegments

def pathMayContainAllowlistedPath (allowlist : Option (List Text)) (virtualPath : Text) : Bool :=
  pathMatchesAllowlist allowlist virtualPath ||
    (allowlist.getD []).any fun pattern =>
      segmentsStartWith (literalStaticPrefixSegments pattern) (virtualPathSegments virtualPath)

namespace PluginFsPathAccess

def noun : PluginFsPathAccess → String
  | .delete => "delete"
  | .read => "read"
  | .write => "write"

def storagePermission (operation : PluginFsPathAccess) : String := "storage:" ++ operation.noun

def projectPermission (operation : PluginFsPathAccess) : String := "files:" ++ operation.noun

def description (operation : PluginFsPathAccess) : String := operation.noun ++ "s"

def allowlistName (operation : PluginFsPathAccess) : String := "files.allow." ++ operation.noun

def denylistName (operation : PluginFsPathAccess) : String := "files.deny." ++ operation.noun

end PluginFsPathAccess

def operationPatterns (context : PluginFsContext) : PluginFsPathAccess → FilePatterns
  | .delete => context.filesDelete
  | .read => context.filesRead
  | .write => context.filesWrite

inductive PluginCapabilityDecisionCode
  | pluginPermissionError
  | projectContextUnavailable
  deriving DecidableEq

inductive PluginCapabilityDecision
  | allowed (resolvedPath : ResolvedPluginFsPath)
  | denied (code : PluginCapabilityDecisionCode) (message : String)
  deriving DecidableEq

variable (fs : FileSystem) (context : PluginFsContext)

def evaluateFsCapability (access pathAccess : PluginFsPathAccess) (virtualPath : Text) :
    Except FsFailure PluginCapabilityDecision :=
  let permission :=
    if isProjectVirtualPath virtualPath then access.projectPermission else access.storagePermission
  if !hasPermission context permission then
    .ok (.denied .pluginPermissionError
      ("metidos.fs." ++ access.noun ++ " requires " ++ permission ++ "."))
  else if isProjectVirtualPath virtualPath && context.contextKind ≠ .threadTool then
    .ok (.denied .projectContextUnavailable
      "Plugin fs ./ paths are available only in thread tool contexts.")
  else do
    .ok (.allowed (← fs.resolvePluginFsVirtualPath context.roots pathAccess virtualPath))

def PluginCapabilityDecision.resolved (virtualPath : Text) (permissionError : FsFailure) :
    PluginCapabilityDecision → Except FsFailure ResolvedPluginFsPath
  | .allowed resolvedPath => .ok resolvedPath
  | .denied .pluginPermissionError _ => .error permissionError
  | .denied .projectContextUnavailable message =>
    .error (.context .projectContextUnavailable message virtualPath)

def resolvedRealVirtualPath (resolved : ResolvedPluginFsPath) : Text :=
  toPluginFsVirtualPath resolved.realPath resolved.rootKind resolved.rootPath

/-- The lists of a kind of access let a path through; as a directory it need only be able to hold
such a path. -/
def patternsAdmit (patterns : FilePatterns) (allowDirectoryPrefix : Bool) (virtualPath : Text)
    (notCovered denied : FsFailure) : Except FsFailure Unit := do
  ensure (if allowDirectoryPrefix then pathMayContainAllowlistedPath patterns.allowlist virtualPath
    else pathMatchesAllowlist patterns.allowlist virtualPath) notCovered
  ensure (allowDirectoryPrefix || !pathMatchesDenylist patterns.denylist virtualPath) denied

namespace FsRead

def notCovered (virtualPath : Text) : FsFailure :=
  .read .permissionDenied "Plugin fs ./ read path is not covered by files.allow.read." virtualPath

def denied (virtualPath : Text) : FsFailure :=
  .read .permissionDenied "Plugin fs ./ read path is denied by files.deny.read." virtualPath

def assertReadContextAllowsPath (access : PluginFsPathAccess) (allowDirectoryPrefix : Bool)
    (virtualPath : Text) : Except FsFailure ResolvedPluginFsPath := do
  ensure (hasPermission context PluginFsPathAccess.read.storagePermission)
    (.read .permissionDenied "Plugin fs reads require storage:read permission." virtualPath)
  let decision ← evaluateFsCapability fs context .read access virtualPath
  let resolvedPath ← decision.resolved virtualPath
    (.read .permissionDenied "Plugin fs ./ reads require files:read permission." virtualPath)
  if isProjectVirtualPath virtualPath then
    patternsAdmit context.filesRead allowDirectoryPrefix virtualPath (notCovered virtualPath)
      (denied virtualPath)
  return resolvedPath

def assertResolvedProjectPathAllowed (allowDirectoryPrefix : Bool)
    (resolved : ResolvedPluginFsPath) : Except FsFailure Unit :=
  if resolved.rootKind = .pluginData then .ok ()
  else
    patternsAdmit context.filesRead allowDirectoryPrefix (resolvedRealVirtualPath resolved)
      (notCovered resolved.virtualPath) (denied resolved.virtualPath)

def resolveReadablePath (access : PluginFsPathAccess) (virtualPath : Text) :
    Except FsFailure ResolvedPluginFsPath := do
  let resolved ← assertReadContextAllowsPath fs context access false virtualPath
  assertResolvedProjectPathAllowed context false resolved
  return resolved

end FsRead

namespace FsWrite

def notCovered (operation : PluginFsPathAccess) (virtualPath : Text) : FsFailure :=
  .write .permissionDenied ("Plugin fs ./ " ++ operation.noun ++ " path is not covered by " ++
    operation.allowlistName ++ ".") virtualPath

def denied (operation : PluginFsPathAccess) (virtualPath : Text) : FsFailure :=
  .write .permissionDenied ("Plugin fs ./ " ++ operation.noun ++ " path is denied by " ++
    operation.denylistName ++ ".") virtualPath

def requiresPermission (operation : PluginFsPathAccess) (paths permission : String)
    (virtualPath : Text) : FsFailure :=
  .write .permissionDenied ("Plugin fs " ++ paths ++ operation.description ++ " require " ++
    permission ++ " permission.") virtualPath

def assertPluginProjectRootContext (operation : PluginFsPathAccess) (virtualPath : Text) :
    Except FsFailure Unit := do
  ensure (context.contextKind = .threadTool)
    (.context .projectContextUnavailable ("Plugin fs ./ " ++ operation.description ++
      " are available only in thread tool contexts.") virtualPath)
  ensure (context.roots.threadRootPath.isSome || context.roots.projectRootPath.isSome)
    (.context .projectContextUnavailable ("Plugin fs ./ " ++ operation.description ++
      " require a current thread or project context.") virtualPath)

def assertContextAllowsPath (operation : PluginFsPathAccess) (virtualPath : Text) :
    Except FsFailure Unit := do
  ensure (hasPermission context operation.storagePermission)
    (requiresPermission operation "" operation.storagePermission virtualPath)
  if isProjectVirtualPath virtualPath then
    assertPluginProjectRootContext context operation virtualPath
    ensure (hasPermission context operation.projectPermission)
      (requiresPermission operation "./ " operation.projectPermission virtualPath)
    patternsAdmit (operationPatterns context operation) false virtualPath
      (notCovered operation virtualPath) (denied operation virtualPath)

def assertResolvedProjectPathAllowed (operation : PluginFsPathAccess)
    (resolved : ResolvedPluginFsPath) : Except FsFailure Unit :=
  if resolved.rootKind = .pluginData then .ok ()
  else
    patternsAdmit (operationPatterns context operation) false (resolvedRealVirtualPath resolved)
      (notCovered operation resolved.virtualPath) (denied operation resolved.virtualPath)

def resolvePathForOperation (operation pathAccess : PluginFsPathAccess) (virtualPath : Text) :
    Except FsFailure ResolvedPluginFsPath := do
  assertContextAllowsPath context operation virtualPath
  let decision ← evaluateFsCapability fs context operation pathAccess virtualPath
  let resolved ← decision.resolved virtualPath
    (requiresPermission operation "" operation.storagePermission virtualPath)
  assertResolvedProjectPathAllowed context operation resolved
  return resolved

end FsWrite

end Metidos.Plugin
