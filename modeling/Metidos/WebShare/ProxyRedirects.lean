import Metidos.Library.JsText

/-!
Redirects of a shared web server in `src/bun/pi/web-server/share-thread.ts`.  URLs and references are
given by their components, and resolved as a URL parser resolves them against a base with authority.
-/

namespace Metidos.WebShare

open JsText (stringOfNumber)

abbrev Text := List Char

def isSingleDot (segment : Text) : Bool :=
  segment = ['.'] || segment.map Char.toLower = ['%', '2', 'e']

def isDoubleDot (segment : Text) : Bool :=
  [['.', '.'], ['.', '%', '2', 'e'], ['%', '2', 'e', '.'],
    ['%', '2', 'e', '%', '2', 'e']].contains (segment.map Char.toLower)

def IsPlain (segments : List Text) : Prop :=
  ∀ segment ∈ segments, isSingleDot segment = false ∧ isDoubleDot segment = false

structure Path where
  segments : List Text
  nonempty : segments ≠ []
  plain : IsPlain segments
  deriving DecidableEq

/-- The getters of a URL, `port` empty for the default one. -/
structure Url where
  protocol : Text
  hostname : Text
  port : Text
  path : Path
  search : Text
  hash : Text
  deriving DecidableEq

inductive Reference
  | schemeRelative (hostname port : Text) (segments : List Text) (search hash : Text)
  | pathAbsolute (segments : List Text) (search hash : Text)
  | pathRelative (segments : List Text) (search hash : Text)
  | queryOnly (search hash : Text)
  | fragmentOnly (hash : Text)

/-- A parsed `Location`.  With a scheme but no slashes it is a reference for a base of this scheme and
a URL for any other. -/
inductive Location
  | absolute (url : Url)
  | schemed (url : Url) (reference : Reference)
  | relative (reference : Reference)

def enter (done : List Text) (segment : Text) : List Text :=
  if isDoubleDot segment then done.dropLast
  else if isSingleDot segment then done
  else done ++ [segment]

def walk (done : List Text) : List Text → List Text
  | [] => done ++ [[]]
  | [last] =>
    if isDoubleDot last || isSingleDot last then enter done last ++ [[]] else enter done last
  | segment :: next :: rest => walk (enter done segment) (next :: rest)

theorem enter_plain {done : List Text} (plain : IsPlain done) (segment : Text) :
    IsPlain (enter done segment) := by
  unfold enter
  split
  · exact fun found member => plain found (List.dropLast_subset _ member)
  · rename_i notDouble
    split
    · exact plain
    · rename_i notSingle
      intro found member
      rcases List.mem_append.mp member with earlier | isLast
      · exact plain found earlier
      · rw [List.mem_singleton.mp isLast]
        exact ⟨eq_false_of_ne_true notSingle, eq_false_of_ne_true notDouble⟩

theorem plain_empty {done : List Text} (plain : IsPlain done) : IsPlain (done ++ [[]]) := by
  intro found member
  rcases List.mem_append.mp member with earlier | isLast
  · exact plain found earlier
  · rw [List.mem_singleton.mp isLast]
    exact ⟨rfl, rfl⟩

theorem walk_plain {done : List Text} (plain : IsPlain done) (segments : List Text) :
    walk done segments ≠ [] ∧ IsPlain (walk done segments) := by
  fun_induction walk done segments with
  | case1 done => exact ⟨by simp, plain_empty plain⟩
  | case2 done last dots => exact ⟨by simp, plain_empty (enter_plain plain last)⟩
  | case3 done last noDots =>
    refine ⟨?_, enter_plain plain last⟩
    simp only [Bool.or_eq_true, not_or] at noDots
    simp [enter, noDots]
  | case4 done segment next rest ih => exact ih (enter_plain plain segment)

def Path.dir (path : Path) : List Text := path.segments.dropLast

theorem Path.dir_plain (path : Path) : IsPlain path.dir :=
  fun segment member => path.plain segment (List.dropLast_subset _ member)

def walkPath (done : List Text) (plain : IsPlain done) (segments : List Text) : Path :=
  ⟨walk done segments, (walk_plain plain segments).1, (walk_plain plain segments).2⟩

def rootPath (segments : List Text) : Path := walkPath [] (fun _ member => by simp at member) segments

def defaultHttpPort : Text := "80".toList

def defaultHttpsPort : Text := "443".toList

def defaultPort (protocol : Text) : Text :=
  if protocol = "http:".toList then defaultHttpPort
  else if protocol = "https:".toList then defaultHttpsPort
  else []

def portOf (protocol port : Text) : Text := if port = defaultPort protocol then [] else port

def resolve (base : Url) : Reference → Url
  | .schemeRelative hostname port segments search hash =>
    ⟨base.protocol, hostname, portOf base.protocol port, rootPath segments, search, hash⟩
  | .pathAbsolute segments search hash => { base with path := rootPath segments, search, hash }
  | .pathRelative segments search hash =>
    { base with path := walkPath base.path.dir base.path.dir_plain segments, search, hash }
  | .queryOnly search hash => { base with search, hash }
  | .fragmentOnly hash => { base with hash }

/-- `new URL(location, base)`. -/
def resolveLocation (base : Url) : Location → Url
  | .absolute url => url
  | .schemed url reference => if url.protocol = base.protocol then resolve base reference else url
  | .relative reference => resolve base reference

def normalizedOriginPort (url : Url) : Text :=
  if url.port ≠ [] then url.port else defaultPort url.protocol

def stripBrackets (hostname : Text) : Text :=
  match hostname with
  | '[' :: rest => if rest.getLast? = some ']' then rest.dropLast else hostname
  | _ => hostname

def normalizedLoopbackHost (hostname : Text) : Text :=
  let normalizedHostname := stripBrackets (hostname.map Char.toLower)
  if (["localhost", "127.0.0.1", "::1", "0:0:0:0:0:0:0:1"].map String.toList).contains
      normalizedHostname then
    "loopback".toList
  else normalizedHostname

def locationTargetsUpstreamOrigin (location upstreamUrl : Url) : Bool :=
  location.protocol = upstreamUrl.protocol &&
    normalizedOriginPort location = normalizedOriginPort upstreamUrl &&
      normalizedLoopbackHost location.hostname = normalizedLoopbackHost upstreamUrl.hostname

/-- The segments of the share route before those of a path. -/
def routeSegments (threadId serverId : Nat) : List Text :=
  [['s'], stringOfNumber threadId, stringOfNumber serverId]

/-- The reference that the route path of a URL's path, its query and its fragment make up. -/
def buildWebServerShareRoutePath (threadId serverId : Nat) (location : Url) : Reference :=
  .pathAbsolute (routeSegments threadId serverId ++ location.path.segments) location.search
    location.hash

def originOf (url : Url) : Url := { url with path := rootPath [], search := [], hash := [] }

/-- The header, as it is parsed again. -/
def rewriteProxyLocationHeader (location : Location) (requestUrl : Url) (serverId threadId : Nat)
    (upstreamOrigin : Url) : Location :=
  let parsedLocation := resolveLocation requestUrl location
  if !locationTargetsUpstreamOrigin parsedLocation upstreamOrigin then .absolute (originOf requestUrl)
  else .absolute (resolve requestUrl (buildWebServerShareRoutePath threadId serverId parsedLocation))

def webServerShareUpstreamHost : Text := "127.0.0.1".toList

def maxSafeInteger : Nat := 2 ^ 53 - 1

def parseStableShareRouteId (value : Text) : Option Nat :=
  let parsed := JsText.numberOfDigits value
  if parsed = 0 ∨ maxSafeInteger < parsed ∨ stringOfNumber parsed ≠ value then none else some parsed

structure ShareRoute where
  remainingPath : Path
  serverId : Nat
  threadId : Nat

/-- No segment but the last is empty, and none decodes to dots. -/
def normalizeStableShareRemainingPath (decodeURIComponent : Text → Option Text)
    (segments : List Text) : Bool :=
  segments.dropLast.all (fun segment => !segment.isEmpty) &&
    segments.all fun segment =>
      segment.isEmpty ||
      match decodeURIComponent segment with
      | none => false
      | some decoded => decoded ≠ ['.'] && decoded ≠ ['.', '.']

def parseThreadAndServerIds (decodeURIComponent : Text → Option Text) (pathname : Path) :
    Option ShareRoute :=
  match pathname.segments with
  | ['s'] :: thread :: server :: rest =>
    if JsText.isDigits thread && JsText.isDigits server &&
        normalizeStableShareRemainingPath decodeURIComponent rest then
      match parseStableShareRouteId thread, parseStableShareRouteId server with
      | some threadId, some serverId => some ⟨rootPath rest, serverId, threadId⟩
      | _, _ => none
    else none
  | _ => none

/-- The upstream URL that is fetched for a request. -/
def upstreamUrlOf (route : ShareRoute) (targetPort : Nat) (requestUrl : Url) : Url where
  protocol := "http:".toList
  hostname := webServerShareUpstreamHost
  port := portOf "http:".toList (stringOfNumber targetPort)
  path := route.remainingPath
  search := requestUrl.search
  hash := []

def routeUrl (route : ShareRoute) (requestUrl url : Url) : Url :=
  { requestUrl with
    path := rootPath (routeSegments route.threadId route.serverId ++ url.path.segments)
    search := url.search
    hash := url.hash }

/-- What the header should lead to: the share route for a target on the upstream origin, else the
share server's own origin. -/
def expectedTarget (route : ShareRoute) (upstreamUrl requestUrl : Url) (location : Location) : Url :=
  let denoted := resolveLocation upstreamUrl location
  if locationTargetsUpstreamOrigin denoted upstreamUrl then
    routeUrl route requestUrl denoted
  else originOf requestUrl

def KeepsTarget (route : ShareRoute) (upstreamUrl requestUrl : Url) (location : Location) : Prop :=
  resolveLocation requestUrl (rewriteProxyLocationHeader location requestUrl route.serverId
      route.threadId upstreamUrl) =
    expectedTarget route upstreamUrl requestUrl location

/-- The number of steps up that a path has no directory for. -/
def climbs (depth : Nat) : List Text → Nat
  | [] => 0
  | segment :: rest =>
    if isDoubleDot segment then (if depth = 0 then 1 else 0) + climbs (depth - 1) rest
    else if isSingleDot segment then climbs depth rest
    else climbs (depth + 1) rest

section

variable (upstreamUrl requestUrl : Url)

/-- Two URLs on the upstream origin have the same path, query and fragment, or neither is on it. -/
def SameTarget (left right : Url) : Prop :=
  locationTargetsUpstreamOrigin left upstreamUrl = locationTargetsUpstreamOrigin right upstreamUrl ∧
    (locationTargetsUpstreamOrigin right upstreamUrl = true →
      left.path = right.path ∧ left.search = right.search ∧ left.hash = right.hash)

def ReferenceFits : Reference → Prop
  | .schemeRelative hostname port segments search hash =>
    requestUrl.protocol = upstreamUrl.protocol ∨
      locationTargetsUpstreamOrigin
        (resolve upstreamUrl (.schemeRelative hostname port segments search hash))
        upstreamUrl = false
  | .pathAbsolute _ _ _ => locationTargetsUpstreamOrigin requestUrl upstreamUrl = true
  | .pathRelative segments _ _ =>
    locationTargetsUpstreamOrigin requestUrl upstreamUrl = true ∧
      requestUrl.path.dir.length ≤
        upstreamUrl.path.dir.length + climbs upstreamUrl.path.dir.length segments
  | .queryOnly _ _ => False
  | .fragmentOnly _ => False

/-- The request URL as a base leads to the same target as the upstream URL. -/
def LocationFits : Location → Prop
  | .absolute _ => True
  | .schemed url reference =>
    if url.protocol ≠ upstreamUrl.protocol then True
    else if requestUrl.protocol = upstreamUrl.protocol then
      ReferenceFits upstreamUrl requestUrl reference
    else SameTarget upstreamUrl url (resolve upstreamUrl reference)
  | .relative reference => ReferenceFits upstreamUrl requestUrl reference

end

section Walk

theorem enter_append (above dir : List Text) (segment : Text) :
    enter (above ++ dir) segment =
        above.take (above.length - if isDoubleDot segment && dir.isEmpty then 1 else 0) ++
          enter dir segment := by
  unfold enter
  split
  · rename_i isDouble
    rw [isDouble]
    cases dir with
    | nil =>
      rw [List.append_nil, List.dropLast_eq_take]
      exact (List.append_nil _).symm
    | cons first rest =>
      rw [List.dropLast_append_of_ne_nil (by simp)]
      exact congrArg (· ++ _) List.take_length.symm
  · rename_i notDouble
    rw [eq_false_of_ne_true notDouble, Bool.false_and]
    simp only [Bool.false_eq_true, if_false, Nat.sub_zero, List.take_length]
    split
    · rfl
    · rw [List.append_assoc]

theorem climbs_enter (dir : List Text) (segment : Text) (rest : List Text) :
    climbs dir.length (segment :: rest) =
      (if isDoubleDot segment && dir.isEmpty then 1 else 0) +
        climbs (enter dir segment).length rest := by
  rw [climbs, enter]
  split
  · rename_i isDouble
    rw [isDouble, List.length_dropLast, Bool.true_and]
    cases dir <;> simp
  · rename_i notDouble
    rw [eq_false_of_ne_true notDouble]
    split
    · simp
    · simp

theorem walk_append (above dir segments : List Text) :
    walk (above ++ dir) segments =
      above.take (above.length - climbs dir.length segments) ++ walk dir segments := by
  fun_induction walk dir segments generalizing above with
  | case1 dir =>
    rw [climbs, Nat.sub_zero, List.take_length, walk, List.append_assoc]
  | case2 dir last dots =>
    rw [walk, if_pos dots, enter_append, List.append_assoc]
    congr 2
    cases isDouble : isDoubleDot last with
    | true => simp [climbs, isDouble]
    | false =>
      rw [isDouble, Bool.false_or] at dots
      simp [climbs, isDouble, dots]
  | case3 dir last noDots =>
    rw [walk, if_neg noDots, enter_append]
    simp only [Bool.or_eq_true, not_or, Bool.not_eq_true] at noDots
    simp [climbs, noDots]
  | case4 dir segment next rest ih =>
    rw [walk, enter_append, ih, climbs_enter dir segment, List.take_take, List.length_take]
    congr 2
    omega

theorem walk_append_eq_iff (above dir segments : List Text) :
    walk (above ++ dir) segments = walk dir segments ↔
      above.length ≤ climbs dir.length segments := by
  rw [walk_append]
  constructor
  · intro same
    have length := congrArg List.length same
    rw [List.length_append, List.length_take] at length
    omega
  · intro climbed
    rw [Nat.sub_eq_zero_of_le climbed, List.take_zero, List.nil_append]

theorem walk_of_plain (done : List Text) {segments : List Text} (plain : IsPlain segments)
    (nonempty : segments ≠ []) : walk done segments = done ++ segments := by
  have step (done : List Text) {segment : Text}
      (isPlain : isSingleDot segment = false ∧ isDoubleDot segment = false) :
      enter done segment = done ++ [segment] := by
    simp [enter, isPlain]
  fun_induction walk done segments with
  | case1 done => exact absurd rfl nonempty
  | case2 done last dots =>
    have isPlain := plain last List.mem_cons_self
    simp [isPlain] at dots
  | case3 done last noDots => exact step done (plain last List.mem_cons_self)
  | case4 done segment next rest ih =>
    rw [ih (fun found member => plain found (List.mem_cons_of_mem _ member)) (by simp),
      step done (plain segment List.mem_cons_self), List.append_assoc]
    rfl

theorem Path.ext_segments {left right : Path} (same : left.segments = right.segments) :
    left = right := by
  cases left
  cases right
  simpa using same

theorem digit_not_dot {first : Char} (digit : first.isDigit = true) (rest : Text) :
    isSingleDot (first :: rest) = false ∧ isDoubleDot (first :: rest) = false := by
  have code := JsText.digit_code digit
  have same : first = Char.ofNat first.toNat := (Char.ofNat_toNat first).symm
  generalize first.toNat = value at code same
  subst same
  obtain ⟨low, high⟩ := code
  interval_cases value <;> simp [isSingleDot, isDoubleDot]

theorem routeSegments_plain (threadId serverId : Nat) :
    IsPlain (routeSegments threadId serverId) := by
  have digits (value : Nat) : isSingleDot (stringOfNumber value) = false ∧
      isDoubleDot (stringOfNumber value) = false := by
    obtain ⟨first, rest, isText⟩ := List.exists_cons_of_ne_nil (JsText.stringOfNumber_ne_nil value)
    have digit : first.isDigit = true :=
      JsText.isDigit_of_mem_stringOfNumber (isText ▸ List.mem_cons_self)
    rw [isText]
    exact digit_not_dot digit rest
  intro segment member
  simp only [routeSegments, List.mem_cons, List.not_mem_nil, or_false] at member
  rcases member with rfl | rfl | rfl
  · exact ⟨rfl, rfl⟩
  · exact digits threadId
  · exact digits serverId

theorem route_segments (threadId serverId : Nat) (path : Path) :
    (rootPath (routeSegments threadId serverId ++ path.segments)).segments =
      routeSegments threadId serverId ++ path.segments := by
  refine walk_of_plain [] (fun segment member => ?_) (by simp [routeSegments])
  rcases List.mem_append.mp member with isRoute | isPath
  · exact routeSegments_plain threadId serverId segment isRoute
  · exact path.plain segment isPath

end Walk

section Targets

variable {upstreamUrl requestUrl : Url} {route : ShareRoute}

theorem routeUrl_ne_origin (url : Url) : routeUrl route requestUrl url ≠ originOf requestUrl := by
  intro same
  have segments := congrArg (fun url => url.path.segments) same
  dsimp only [routeUrl, originOf] at segments
  rw [route_segments] at segments
  exact absurd (congrArg List.length segments) (by simp [routeSegments, rootPath, walkPath, walk])

theorem routeUrl_injective {left right : Url}
    (same : routeUrl route requestUrl left = routeUrl route requestUrl right) :
    left.path = right.path ∧ left.search = right.search ∧ left.hash = right.hash := by
  have segments := congrArg (fun url => url.path.segments) same
  have search := congrArg Url.search same
  have hash := congrArg Url.hash same
  dsimp only [routeUrl] at segments search hash
  rw [route_segments, route_segments] at segments
  exact ⟨Path.ext_segments (List.append_cancel_left segments), search, hash⟩

theorem keepsTarget_iff (location : Location) :
    KeepsTarget route upstreamUrl requestUrl location ↔
      SameTarget upstreamUrl (resolveLocation requestUrl location)
        (resolveLocation upstreamUrl location) := by
  unfold KeepsTarget SameTarget
  generalize denotes : resolveLocation upstreamUrl location = denoted
  generalize parses : resolveLocation requestUrl location = parsed
  have rewritten : resolveLocation requestUrl (rewriteProxyLocationHeader location requestUrl
      route.serverId route.threadId upstreamUrl) =
        if locationTargetsUpstreamOrigin parsed upstreamUrl then routeUrl route requestUrl parsed
        else originOf requestUrl := by
    rw [rewriteProxyLocationHeader, parses]
    cases locationTargetsUpstreamOrigin parsed upstreamUrl <;> rfl
  rw [rewritten, expectedTarget, denotes]
  cases locationTargetsUpstreamOrigin parsed upstreamUrl <;>
    cases locationTargetsUpstreamOrigin denoted upstreamUrl
  · simp
  · simpa using (routeUrl_ne_origin denoted).symm
  · simpa using routeUrl_ne_origin parsed
  · simp only [if_true, true_and, forall_const]
    refine ⟨routeUrl_injective, fun ⟨path, search, hash⟩ => ?_⟩
    rw [routeUrl, routeUrl, path, search, hash]

theorem targets_of_base {base url : Url} (protocol : url.protocol = base.protocol)
    (hostname : url.hostname = base.hostname) (port : url.port = base.port) :
    locationTargetsUpstreamOrigin url upstreamUrl =
      locationTargetsUpstreamOrigin base upstreamUrl := by
  unfold locationTargetsUpstreamOrigin normalizedOriginPort
  rw [protocol, hostname, port]

theorem targets_self (url : Url) : locationTargetsUpstreamOrigin url url = true := by
  simp [locationTargetsUpstreamOrigin]

structure Above (upstreamUrl requestUrl : Url) : Prop where
  paths : requestUrl.path ≠ upstreamUrl.path
  dirs : ∃ above, requestUrl.path.dir = above ++ upstreamUrl.path.dir

theorem referenceFits_iff (lies : Above upstreamUrl requestUrl) (reference : Reference) :
    SameTarget upstreamUrl (resolve requestUrl reference) (resolve upstreamUrl reference) ↔
      ReferenceFits upstreamUrl requestUrl reference := by
  have own {url : Url} (protocol : url.protocol = upstreamUrl.protocol)
      (hostname : url.hostname = upstreamUrl.hostname) (port : url.port = upstreamUrl.port) :
      locationTargetsUpstreamOrigin url upstreamUrl = true :=
    (targets_of_base protocol hostname port).trans (targets_self upstreamUrl)
  unfold SameTarget
  cases reference with
  | schemeRelative hostname port segments search hash =>
    rw [ReferenceFits]
    by_cases same : requestUrl.protocol = upstreamUrl.protocol
    · have equal : resolve requestUrl (.schemeRelative hostname port segments search hash) =
          resolve upstreamUrl (.schemeRelative hostname port segments search hash) := by
        rw [resolve, resolve, same]
      rw [equal]
      exact iff_of_true ⟨rfl, fun _ => ⟨rfl, rfl, rfl⟩⟩ (Or.inl same)
    · have other : locationTargetsUpstreamOrigin
          (resolve requestUrl (.schemeRelative hostname port segments search hash))
          upstreamUrl = false := by
        simp [locationTargetsUpstreamOrigin, resolve, same]
      rw [other]
      refine ⟨fun both => Or.inr both.1.symm, fun either => ?_⟩
      have apart := either.resolve_left same
      exact ⟨apart.symm, fun targets => absurd (apart.symm.trans targets) (by simp)⟩
  | pathAbsolute segments search hash =>
    rw [ReferenceFits, @own (resolve upstreamUrl (.pathAbsolute segments search hash)) rfl rfl rfl,
      @targets_of_base _ requestUrl (resolve requestUrl (.pathAbsolute segments search hash)) rfl rfl rfl]
    exact ⟨And.left, fun targets => ⟨targets, fun _ => ⟨rfl, rfl, rfl⟩⟩⟩
  | pathRelative segments search hash =>
    rw [ReferenceFits, @own (resolve upstreamUrl (.pathRelative segments search hash)) rfl rfl rfl,
      @targets_of_base _ requestUrl (resolve requestUrl (.pathRelative segments search hash)) rfl rfl rfl]
    refine and_congr_right fun _ => ?_
    obtain ⟨above, isAbove⟩ := lies.dirs
    have lengths : requestUrl.path.dir.length = above.length + upstreamUrl.path.dir.length := by
      rw [isAbove, List.length_append]
    have walks := walk_append_eq_iff above upstreamUrl.path.dir segments
    rw [← isAbove] at walks
    constructor
    · intro same
      have climbed := walks.mp (congrArg Path.segments (same rfl).1)
      omega
    · intro climbed _
      exact ⟨Path.ext_segments (walks.mpr (by omega)), rfl, rfl⟩
  | queryOnly search hash =>
    rw [ReferenceFits, @own (resolve upstreamUrl (.queryOnly search hash)) rfl rfl rfl]
    exact iff_of_false (fun both => lies.paths (both.2 rfl).1) not_false
  | fragmentOnly hash =>
    rw [ReferenceFits, @own (resolve upstreamUrl (.fragmentOnly hash)) rfl rfl rfl]
    exact iff_of_false (fun both => lies.paths (both.2 rfl).1) not_false

theorem locationFits_iff (lies : Above upstreamUrl requestUrl) (location : Location) :
    SameTarget upstreamUrl (resolveLocation requestUrl location)
        (resolveLocation upstreamUrl location) ↔
      LocationFits upstreamUrl requestUrl location := by
  have refl (url : Url) : SameTarget upstreamUrl url url := ⟨rfl, fun _ => ⟨rfl, rfl, rfl⟩⟩
  cases location with
  | absolute url => exact iff_of_true (refl url) trivial
  | relative reference => exact referenceFits_iff lies reference
  | schemed url reference =>
    rw [LocationFits, resolveLocation, resolveLocation]
    by_cases upstream : url.protocol = upstreamUrl.protocol
    · rw [if_neg (not_not.mpr upstream), if_pos upstream]
      by_cases request : requestUrl.protocol = upstreamUrl.protocol
      · rw [if_pos request, if_pos (upstream.trans request.symm)]
        exact referenceFits_iff lies reference
      · rw [if_neg request, if_neg fun same => request (same.symm.trans upstream)]
    · rw [if_pos upstream, if_neg upstream]
      refine iff_of_true ?_ trivial
      have apart {other : Url} (protocol : other.protocol = url.protocol) :
          locationTargetsUpstreamOrigin other upstreamUrl = false := by
        simp [locationTargetsUpstreamOrigin, protocol, upstream]
      split
      · rename_i request
        have protocol : (resolve requestUrl reference).protocol = url.protocol := by
          cases reference <;> exact request.symm
        exact ⟨(apart protocol).trans (apart rfl).symm,
          fun targets => absurd ((apart rfl).symm.trans targets) (by simp)⟩
      · exact refl url

end Targets

theorem above_of_route {decodeURIComponent : Text → Option Text} {requestUrl : Url}
    {route : ShareRoute} (targetPort : Nat)
    (parsed : parseThreadAndServerIds decodeURIComponent requestUrl.path = some route) :
    Above (upstreamUrlOf route targetPort requestUrl) requestUrl := by
  unfold parseThreadAndServerIds at parsed
  split at parsed
  · rename_i thread server rest segments
    split at parsed
    · split at parsed
      · obtain rfl := Option.some.inj parsed
        have plain : IsPlain rest := fun segment member => requestUrl.path.plain segment (by
          rw [segments]
          simp [member])
        have remaining : (rootPath rest).segments = if rest = [] then [[]] else rest := by
          split
          · rename_i isNil
            rw [isNil]
            rfl
          · rename_i some
            exact walk_of_plain [] plain some
        constructor
        · intro same
          have lengths := congrArg (fun path => path.segments.length) same
          dsimp only [upstreamUrlOf] at lengths
          rw [segments, remaining] at lengths
          split at lengths
          · rename_i isNil
            simp [isNil] at lengths
          · simp only [List.length_cons] at lengths
            omega
        · dsimp only [upstreamUrlOf]
          rw [Path.dir, Path.dir, segments, remaining]
          by_cases isNil : rest = []
          · exact ⟨[['s'], thread], by simp [isNil]⟩
          · refine ⟨[['s'], thread, server], ?_⟩
            rw [if_neg isNil]
            exact @List.dropLast_append_of_ne_nil _ rest [['s'], thread, server] isNil
      · exact absurd parsed (by simp)
    · exact absurd parsed (by simp)
  · exact absurd parsed (by simp)

/-- A redirect of the upstream server keeps its target if and only if the request URL leads to it
too. -/
theorem rewriteProxyLocationHeader_keeps (decodeURIComponent : Text → Option Text)
    (requestUrl : Url) (route : ShareRoute) (targetPort : Nat)
    (parsed : parseThreadAndServerIds decodeURIComponent requestUrl.path = some route)
    (location : Location) :
    KeepsTarget route (upstreamUrlOf route targetPort requestUrl) requestUrl location ↔
      LocationFits (upstreamUrlOf route targetPort requestUrl) requestUrl location :=
  (keepsTarget_iff location).trans (locationFits_iff (above_of_route targetPort parsed) location)

/-- The request for `/s/1/2/a` on `http://127.0.0.1:7599`. -/
def shareRequest : Url where
  protocol := "http:".toList
  hostname := "127.0.0.1".toList
  port := "7599".toList
  path := rootPath [['s'], ['1'], ['2'], ['a']]
  search := []
  hash := []

theorem rewriteProxyLocationHeader_keeps_absolute :
    KeepsTarget ⟨rootPath [['a']], 2, 1⟩ (upstreamUrlOf ⟨rootPath [['a']], 2, 1⟩ 5000 shareRequest)
      shareRequest (.absolute ⟨"http:".toList, "localhost".toList, "5000".toList,
        rootPath [['b']], [], []⟩) :=
  (rewriteProxyLocationHeader_keeps some shareRequest ⟨rootPath [['a']], 2, 1⟩ 5000 (by rfl)
    _).mpr trivial

/-- The redirect to `/b` leads to the start page of the share server. -/
theorem rewriteProxyLocationHeader_keeps_path :
    ¬ ∀ (decodeURIComponent : Text → Option Text) (requestUrl : Url) (route : ShareRoute)
        (targetPort : Nat),
      parseThreadAndServerIds decodeURIComponent requestUrl.path = some route →
        ∀ location,
          KeepsTarget route (upstreamUrlOf route targetPort requestUrl) requestUrl location := by
  intro always
  have keeps := always some shareRequest ⟨rootPath [['a']], 2, 1⟩ 5000 (by rfl)
    (.relative (.pathAbsolute [['b']] [] []))
  exact absurd keeps (by unfold KeepsTarget; decide)

end Metidos.WebShare
