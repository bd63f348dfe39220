import Metidos.Library.JsNumerals
import Metidos.Plugin.GlobMatch

/-!
URL allow patterns of plugins, `src/bun/plugin/network-allowlist.ts`.  The URL parser is a
parameter of the functions that parse.
-/

namespace Metidos.Plugin

open Glob

def units (text : String) : Text := JsText.utf16 text.toList

def colon : Nat := 0x3A

def slash : Nat := 0x2F

def closingBracket : Nat := 0x5D

inductive Protocol
  | http
  | https
  | ws
  | wss
  | other (name : Text)
  deriving DecidableEq

namespace Protocol

def defaultPort : Protocol → Option Nat
  | .http | .ws => some 80
  | .https | .wss => some 443
  | .other _ => none

def fetches (protocol : Protocol) : Bool := protocol = .http || protocol = .https

def connects (protocol : Protocol) : Bool := protocol = .ws || protocol = .wss

def supported (protocol : Protocol) : Bool := protocol.fetches || protocol.connects

end Protocol

/-- A URL as the parser leaves it, with the port that its text writes.  A host with colons is an
address in brackets, and a URL of a supported protocol has a host and a rooted path. -/
structure Url where
  protocol : Protocol
  username : Text
  password : Text
  hostname : Text
  writtenPort : Option Nat
  pathname : Text
  bracketed : colon ∉ hostname ∨ hostname.getLast? = some closingBracket
  hosted : protocol.supported = true → hostname ≠ []
  rooted : protocol.supported = true → pathname.head? = some slash
  deriving DecidableEq

abbrev ParseUrl := Text → Option Url

def portText (port : Nat) : Text := (JsText.stringOfNumber port).map Char.toNat

namespace Url

def port (url : Url) : Text :=
  match url.writtenPort with
  | none => []
  | some port => if some port = url.protocol.defaultPort then [] else portText port

def host (url : Url) : Text :=
  if url.port = [] then url.hostname else url.hostname ++ colon :: url.port

def hasCredentials (url : Url) : Bool := url.username ≠ [] || url.password ≠ []

end Url

def isLetter (unit : Nat) : Bool :=
  (0x41 ≤ unit && unit ≤ 0x5A) || (0x61 ≤ unit && unit ≤ 0x7A)

def isDigit (unit : Nat) : Bool := 0x30 ≤ unit && unit ≤ 0x39

def isSchemeUnit (unit : Nat) : Bool :=
  isLetter unit || isDigit unit || unit = 0x2B || unit = 0x2E || unit = 0x2D

def hasSchemePrefix (pattern : Text) : Bool :=
  match pattern with
  | [] => false
  | first :: rest =>
    isLetter first && (units "://").isPrefixOf (rest.dropWhile isSchemeUnit)

inductive AllowKind
  | fetch
  | websocket
  deriving DecidableEq

def AllowKind.defaultProtocol : AllowKind → Text
  | .fetch => units "https"
  | .websocket => units "wss"

def AllowKind.secureProtocol : AllowKind → Protocol
  | .fetch => .https
  | .websocket => .wss

def AllowKind.allows : AllowKind → Protocol → Bool
  | .fetch, protocol => protocol.fetches
  | .websocket, protocol => protocol.connects

def patternWithDefaultProtocol (pattern : Text) (kind : AllowKind) : Text :=
  if hasSchemePrefix pattern then pattern
  else if (units "//").isPrefixOf pattern then kind.defaultProtocol ++ colon :: pattern
  else kind.defaultProtocol ++ units "://" ++ pattern

def pathnameSegments (pathname : Text) : List Text :=
  let withoutLeadingSlash := if pathname.head? = some slash then pathname.tail else pathname
  if withoutLeadingSlash = [] then [] else withoutLeadingSlash.splitOn slash

def pathnameMatchesPattern (patternPathname pathname : Text) : Bool :=
  if containsGlobPattern patternPathname then
    globSegmentsMatch (pathnameSegments patternPathname) (pathnameSegments pathname)
  else patternPathname = pathname

def isAllDomainHostPattern (hostname : Text) : Bool := hostname = [star] || hostname = doubleStar

/-- The digits after the colon of a host that is `*` or `**`. -/
def allDomainPort (host : Text) : Option Text :=
  let (stars, rest) := (host.takeWhile (· = star), host.dropWhile (· = star))
  if isAllDomainHostPattern stars then
    match rest with
    | [] => none
    | first :: digits =>
      if first = colon && digits ≠ [] && digits.all isDigit then some digits else none
  else none

def effectiveUrlPort (url : Url) : Text :=
  if url.port ≠ [] then url.port
  else if url.protocol = .https || url.protocol = .wss then units "443"
  else if url.protocol = .http || url.protocol = .ws then units "80"
  else []

def lowerCaseUnit (unit : Nat) : Nat := if 0x41 ≤ unit ∧ unit ≤ 0x5A then unit + 0x20 else unit

def toLowerCase (text : Text) : Text := text.map lowerCaseUnit

structure CompiledPluginNetworkAllowPattern where
  allDomains : Bool
  host : Text
  pathname : Text
  protocol : Protocol
  source : Text
  deriving DecidableEq

def hostMatchesPattern (pattern : CompiledPluginNetworkAllowPattern) (url : Url) : Bool :=
  if !pattern.allDomains then pattern.host = toLowerCase url.host
  else
    match allDomainPort pattern.host with
    | none => true
    | some requiredPort => requiredPort = effectiveUrlPort url

inductive PluginNetworkAllowlistCompileIssueCode
  | credentialedNetworkAllowPattern
  | invalidNetworkAllowPattern
  | networkHttpsRequired
  | unsafeNetworkAllDomainRequired
  deriving DecidableEq

structure PluginNetworkAllowlistCompileIssue where
  code : PluginNetworkAllowlistCompileIssueCode
  index : Nat
  message : String
  pattern : Text
  deriving DecidableEq

structure PluginNetworkAllowlistInput where
  allowUnsafeAllDomains : Option Bool
  enforceHttps : Option Bool
  kind : Option AllowKind
  patterns : List Text

structure PluginNetworkAllowlistCompileResult where
  issues : List PluginNetworkAllowlistCompileIssue
  patterns : List CompiledPluginNetworkAllowPattern
  deriving DecidableEq

namespace PluginNetworkAllowlistInput

def enforcedHttps (input : PluginNetworkAllowlistInput) : Bool := input.enforceHttps.getD true

def allowKind (input : PluginNetworkAllowlistInput) : AllowKind := input.kind.getD .fetch

end PluginNetworkAllowlistInput

def protocolMessage : AllowKind → String
  | .websocket => "Expected a ws or wss URL pattern."
  | .fetch => "Expected an http or https URL pattern."

def secureMessage : AllowKind → String
  | .websocket => "network.enforceHttps defaults to true; use wss URL patterns or set " ++
      "enforceHttps to false explicitly."
  | .fetch => "network.enforceHttps defaults to true; use https URL patterns or set " ++
      "enforceHttps to false explicitly."

def patternIssues (input : PluginNetworkAllowlistInput) (index : Nat) (pattern : Text)
    (url : Url) : List PluginNetworkAllowlistCompileIssue :=
  let allDomains := isAllDomainHostPattern url.hostname
  (if input.allowKind.allows url.protocol then []
    else [{ code := .invalidNetworkAllowPattern, index, pattern,
            message := protocolMessage input.allowKind }]) ++
  (if url.hasCredentials then
      [{ code := .credentialedNetworkAllowPattern, index, pattern,
         message := "URL allow patterns must not include credentials." }]
    else []) ++
  (if url.hostname = [] || (containsGlobPattern url.hostname && !allDomains) then
      [{ code := .invalidNetworkAllowPattern, index, pattern,
         message := "URL allow patterns must include a valid literal host, or use " ++
           "https://**/** with the unsafe permission for all-domain access." }]
    else []) ++
  (if allDomains && input.allowUnsafeAllDomains != some true then
      [{ code := .unsafeNetworkAllDomainRequired, index, pattern,
         message := "All-domain network allow patterns require the plugin to declare the " ++
           "unsafe permission." }]
    else []) ++
  (if input.enforcedHttps && url.protocol != input.allowKind.secureProtocol then
      [{ code := .networkHttpsRequired, index, pattern,
         message := secureMessage input.allowKind }]
    else [])

def compiledPattern (pattern : Text) (url : Url) : CompiledPluginNetworkAllowPattern where
  allDomains := isAllDomainHostPattern url.hostname
  host := toLowerCase url.host
  pathname := url.pathname
  protocol := url.protocol
  source := pattern

def compileFrom (parseUrl : ParseUrl) (input : PluginNetworkAllowlistInput) :
    Nat → List Text → PluginNetworkAllowlistCompileResult
  | _, [] => { issues := [], patterns := [] }
  | index, pattern :: rest =>
    let later := compileFrom parseUrl input (index + 1) rest
    match parseUrl (patternWithDefaultProtocol pattern input.allowKind) with
    | none =>
      { later with
        issues := { code := .invalidNetworkAllowPattern, index, pattern,
                    message := "Expected an http(s) URL pattern with a valid host." } ::
          later.issues }
    | some url =>
      let issues := patternIssues input index pattern url
      { issues := issues ++ later.issues,
        patterns := if issues = [] then compiledPattern pattern url :: later.patterns
          else later.patterns }

def compilePluginNetworkAllowlist (parseUrl : ParseUrl) (input : PluginNetworkAllowlistInput) :
    PluginNetworkAllowlistCompileResult :=
  compileFrom parseUrl input 0 input.patterns

inductive PluginNetworkAllowlistMatchFailureCode
  | credentialedNetworkUrl
  | invalidNetworkUrl
  | networkUrlNotAllowed
  deriving DecidableEq

inductive PluginNetworkAllowlistMatchResult
  | allowed (pattern : CompiledPluginNetworkAllowPattern) (url : Url)
  | refused (code : PluginNetworkAllowlistMatchFailureCode) (message : String) (url : Option Url)
  deriving DecidableEq

def PluginNetworkAllowlistMatchResult.isAllowed : PluginNetworkAllowlistMatchResult → Bool
  | .allowed _ _ => true
  | .refused _ _ _ => false

def patternMatches (url : Url) (pattern : CompiledPluginNetworkAllowPattern) : Bool :=
  pattern.protocol = url.protocol && hostMatchesPattern pattern url &&
    pathnameMatchesPattern pattern.pathname url.pathname

def matchPluginNetworkAllowlist (parseUrl : ParseUrl)
    (allowlist : List CompiledPluginNetworkAllowPattern) (requestUrl : Text) :
    PluginNetworkAllowlistMatchResult :=
  match parseUrl requestUrl with
  | none =>
    .refused .invalidNetworkUrl "Expected an http(s) or ws(s) URL with a valid host." none
  | some url =>
    if !url.protocol.supported || url.hostname = [] then
      .refused .invalidNetworkUrl "Expected an http(s) or ws(s) URL with a valid host." none
    else if url.hasCredentials then
      .refused .credentialedNetworkUrl "Plugin fetch URLs must not include credentials."
        (some url)
    else
      match allowlist.find? (patternMatches url) with
      | some pattern => .allowed pattern url
      | none =>
        .refused .networkUrlNotAllowed "Plugin fetch URL is not covered by network.allow."
          (some url)

structure PluginNetworkAllowlistError where
  code : PluginNetworkAllowlistMatchFailureCode
  message : String
  url : Text

def assertPluginNetworkUrlAllowed (parseUrl : ParseUrl)
    (allowlist : List CompiledPluginNetworkAllowPattern) (requestUrl : Text) :
    Except PluginNetworkAllowlistError Url :=
  match matchPluginNetworkAllowlist parseUrl allowlist requestUrl with
  | .allowed _ url => .ok url
  | .refused code message _ => .error { code, message, url := requestUrl }

end Metidos.Plugin
