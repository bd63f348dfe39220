import Metidos.Plugin.NetworkAllowlist

/-!
The decision about a URL against what the accepted patterns declare: protocol, host, port and
path glob.
-/

namespace Metidos.Plugin

open Glob

def Url.effectivePort (url : Url) : Option Nat := url.writtenPort.or url.protocol.defaultPort

structure Accepted (parseUrl : ParseUrl) (input : PluginNetworkAllowlistInput) (source : Text)
    (pattern : Url) : Prop where
  parsed : parseUrl (patternWithDefaultProtocol source input.allowKind) = some pattern
  protocol : input.allowKind.allows pattern.protocol = true
  credentialFree : pattern.hasCredentials = false
  hosted : pattern.hostname ≠ []
  host : containsGlobPattern pattern.hostname = true →
    isAllDomainHostPattern pattern.hostname = true
  permitted : isAllDomainHostPattern pattern.hostname = true →
    input.allowUnsafeAllDomains = some true
  secure : input.enforcedHttps = true → pattern.protocol = input.allowKind.secureProtocol

def DeclaresHost (pattern url : Url) : Prop :=
  if isAllDomainHostPattern pattern.hostname then
    ∀ port, pattern.writtenPort = some port → url.effectivePort = some port
  else
    toLowerCase pattern.hostname = toLowerCase url.hostname ∧
      pattern.effectivePort = url.effectivePort

def DeclaresPath (lone : Nat → Prop) (pattern url : Url) : Prop :=
  PathGlob lone (pathnameSegments pattern.pathname) (pathnameSegments url.pathname)

structure Declares (pattern url : Url) : Prop where
  protocol : pattern.protocol = url.protocol
  host : DeclaresHost pattern url
  path : DeclaresPath NoUnit pattern url

/-- The pattern allows the URL, and where a star of it meets a star of the path it stands for that
star alone. -/
structure Keeps (pattern url : Url) : Prop where
  declared : Declares pattern url
  starred : DeclaresPath IsStar pattern url

/-- The pattern allows the URL only by a star that begins at a star of the path and stands for
something else. -/
structure MeetsStar (pattern url : Url) : Prop where
  declared : Declares pattern url
  unstarred : ¬ DeclaresPath IsStar pattern url

/-- The pattern is for all domains and writes its protocol's default port, and the URL has another
port but the protocol and a path of the pattern. -/
structure LosesPort (pattern url : Url) : Prop where
  allDomains : isAllDomainHostPattern pattern.hostname = true
  default : pattern.writtenPort = pattern.protocol.defaultPort
  protocol : pattern.protocol = url.protocol
  other : url.effectivePort ≠ pattern.writtenPort
  path : DeclaresPath IsStar pattern url

variable {parseUrl : ParseUrl} {input : PluginNetworkAllowlistInput}

theorem ite_singleton_eq_nil {α : Type} {condition : Prop} [Decidable condition] {value : α} :
    (if condition then [value] else []) = [] ↔ ¬ condition := by
  split <;> simp_all

theorem ite_nil_eq_nil {α : Type} {condition : Prop} [Decidable condition] {value : α} :
    (if condition then [] else [value]) = [] ↔ condition := by
  split <;> simp_all

theorem accepted_iff {source : Text} {pattern : Url} (index : Nat)
    (parsed : parseUrl (patternWithDefaultProtocol source input.allowKind) = some pattern) :
    Accepted parseUrl input source pattern ↔ patternIssues input index source pattern = [] := by
  simp only [patternIssues, List.append_eq_nil_iff, ite_singleton_eq_nil, ite_nil_eq_nil]
  constructor
  · rintro ⟨-, protocol, credentialFree, hosted, host, permitted, secure⟩
    refine ⟨⟨⟨⟨protocol, by simp [credentialFree]⟩, ?_⟩, ?_⟩, ?_⟩
    · simp only [Bool.or_eq_true, decide_eq_true_eq, Bool.and_eq_true, Bool.not_eq_true', not_or,
        not_and, Bool.not_eq_false]
      exact ⟨hosted, host⟩
    · simp only [Bool.and_eq_true, bne_iff_ne, not_and, ne_eq, Decidable.not_not]
      exact permitted
    · simp only [Bool.and_eq_true, bne_iff_ne, not_and, ne_eq, Decidable.not_not]
      exact secure
  · simp only [Bool.or_eq_true, decide_eq_true_eq, Bool.and_eq_true, Bool.not_eq_true', not_or,
      not_and, Bool.not_eq_false, bne_iff_ne, ne_eq, Decidable.not_not, Bool.not_eq_true]
    rintro ⟨⟨⟨⟨protocol, credentialFree⟩, hosted, host⟩, permitted⟩, secure⟩
    exact ⟨parsed, protocol, credentialFree, hosted, host, permitted, secure⟩

theorem mem_compileFrom {patterns : List Text} {compiled : CompiledPluginNetworkAllowPattern}
    (index : Nat) : compiled ∈ (compileFrom parseUrl input index patterns).patterns ↔
      ∃ source ∈ patterns, ∃ pattern, Accepted parseUrl input source pattern ∧
        compiled = compiledPattern source pattern := by
  induction patterns generalizing index with
  | nil => simp [compileFrom]
  | cons source rest ih =>
    rw [compileFrom]
    dsimp only
    simp only [List.mem_cons, exists_eq_or_imp]
    cases parsed : parseUrl (patternWithDefaultProtocol source input.allowKind) with
    | none =>
      have never : ¬ ∃ pattern, Accepted parseUrl input source pattern ∧
          compiled = compiledPattern source pattern := by
        rintro ⟨pattern, accepted, -⟩
        exact absurd (parsed.symm.trans accepted.parsed) (by simp)
      rw [or_iff_right never]
      exact ih (index + 1)
    | some pattern =>
      have same : (∃ other, Accepted parseUrl input source other ∧
            compiled = compiledPattern source other) ↔
          patternIssues input index source pattern = [] ∧
            compiled = compiledPattern source pattern := by
        rw [← accepted_iff index parsed]
        constructor
        · rintro ⟨other, accepted, isCompiled⟩
          obtain rfl := Option.some.inj (parsed.symm.trans accepted.parsed)
          exact ⟨accepted, isCompiled⟩
        · rintro ⟨accepted, isCompiled⟩
          exact ⟨pattern, accepted, isCompiled⟩
      rw [same]
      dsimp only
      split
      · rename_i clean
        rw [List.mem_cons, ih (index + 1), and_iff_right clean]
      · rename_i issues
        rw [ih (index + 1), or_iff_right fun both => issues both.1]

theorem mem_compiled_patterns {compiled : CompiledPluginNetworkAllowPattern} :
    compiled ∈ (compilePluginNetworkAllowlist parseUrl input).patterns ↔
      ∃ source ∈ input.patterns, ∃ pattern, Accepted parseUrl input source pattern ∧
        compiled = compiledPattern source pattern :=
  mem_compileFrom 0

theorem Accepted.supported {source : Text} {pattern : Url}
    (accepted : Accepted parseUrl input source pattern) : pattern.protocol.supported = true := by
  have protocol := accepted.protocol
  rw [Protocol.supported, Bool.or_eq_true]
  cases kind : input.allowKind with
  | fetch => exact Or.inl (by simpa [kind, AllowKind.allows] using protocol)
  | websocket => exact Or.inr (by simpa [kind, AllowKind.allows] using protocol)

theorem isDigit_portText {port unit : Nat} (member : unit ∈ portText port) :
    isDigit unit = true := by
  obtain ⟨char, inText, rfl⟩ := List.mem_map.mp member
  have bounds := JsText.digit_code (JsText.isDigit_of_mem_stringOfNumber inText)
  simp [isDigit, bounds]

theorem portText_ne_nil (port : Nat) : portText port ≠ [] := by
  simp [portText, JsText.stringOfNumber_ne_nil]

theorem portText_injective : Function.Injective portText := by
  intro left right same
  exact JsText.stringOfNumber_injective
    (List.map_injective_iff.mpr (fun _ _ => Char.toNat_inj.mp) same)

namespace Url

def shownPort (url : Url) : Option Nat :=
  if url.writtenPort = url.protocol.defaultPort then none else url.writtenPort

theorem port_eq (url : Url) : url.port = (url.shownPort.map portText).getD [] := by
  rw [Url.port, shownPort]
  cases url.writtenPort with
  | none => simp
  | some port =>
    by_cases isDefault : some port = url.protocol.defaultPort
    · simp only [if_pos isDefault, Option.map_none, Option.getD_none]
    · simp only [if_neg isDefault, Option.map_some, Option.getD_some]

theorem port_eq_nil_iff (url : Url) : url.port = [] ↔ url.shownPort = none := by
  rw [port_eq]
  cases url.shownPort with
  | none => simp
  | some port => simp [portText_ne_nil]

theorem port_eq_iff (left right : Url) : left.port = right.port ↔
    left.shownPort = right.shownPort := by
  rw [port_eq, port_eq]
  cases left.shownPort with
  | none =>
    cases right.shownPort with
    | none => simp
    | some port => simp [(portText_ne_nil port).symm]
  | some port =>
    cases right.shownPort with
    | none => simp [portText_ne_nil]
    | some other => simp [portText_injective.eq_iff]

theorem effectivePort_eq (url : Url) :
    url.effectivePort = url.shownPort.or url.protocol.defaultPort := by
  rw [effectivePort, shownPort]
  split
  · rename_i isDefault
    rw [isDefault, Option.none_or, Option.or_self]
  · rfl

theorem shownPort_eq (url : Url) : url.shownPort =
    if url.effectivePort = url.protocol.defaultPort then none else url.effectivePort := by
  rw [effectivePort, shownPort]
  cases url.writtenPort with
  | none => simp
  | some port => rfl

theorem shownPort_eq_iff {left right : Url} (same : left.protocol = right.protocol) :
    left.shownPort = right.shownPort ↔ left.effectivePort = right.effectivePort := by
  constructor
  · intro shown
    rw [effectivePort_eq, effectivePort_eq, shown, same]
  · intro effective
    rw [shownPort_eq, shownPort_eq, effective, same]

end Url

theorem effectiveUrlPort_eq {url : Url} (supported : url.protocol.supported = true) :
    effectiveUrlPort url = (url.effectivePort.map portText).getD [] := by
  rw [effectiveUrlPort, Url.effectivePort_eq]
  by_cases hidden : url.port = []
  · have isDefault := (Url.port_eq_nil_iff url).mp hidden
    rw [if_neg (not_not.mpr hidden), isDefault, Option.none_or]
    cases protocol : url.protocol with
    | other name => simp [protocol, Protocol.supported, Protocol.fetches, Protocol.connects] at supported
    | _ => decide
  · have shown := mt (Url.port_eq_nil_iff url).mpr hidden
    obtain ⟨port, isPort⟩ := Option.ne_none_iff_exists'.mp shown
    rw [if_pos hidden, Url.port_eq, isPort, Option.some_or]

theorem lowerCaseUnit_eq_iff {unit expected : Nat}
    (small : expected < 0x41 ∨ 0x5A < expected ∧ expected < 0x61) :
    lowerCaseUnit unit = expected ↔ unit = expected := by
  rw [lowerCaseUnit]
  split <;> omega

def Bracketed (hostname : Text) : Prop :=
  colon ∉ hostname ∨ hostname.getLast? = some closingBracket

theorem Bracketed.toLowerCase {hostname : Text} (bracketed : Bracketed hostname) :
    Bracketed (toLowerCase hostname) := by
  rcases bracketed with absent | last
  · left
    intro inLower
    obtain ⟨unit, member, isColon⟩ := List.mem_map.mp inLower
    rw [lowerCaseUnit_eq_iff (by decide)] at isColon
    exact absent (isColon ▸ member)
  · right
    rw [Plugin.toLowerCase, List.getLast?_map, last]
    rfl

inductive PortSuffix : Text → Prop
  | nothing : PortSuffix []
  | port {digits : Text} (some : digits ≠ []) (digit : ∀ unit ∈ digits, isDigit unit = true) :
      PortSuffix (colon :: digits)

theorem PortSuffix.not_inside {hostname other digits : Text} (bracketed : Bracketed hostname)
    (some' : digits ≠ []) (digit : ∀ unit ∈ digits, isDigit unit = true) :
    hostname ≠ other ++ colon :: digits := by
  rintro rfl
  rcases bracketed with absent | last
  · exact absent (by simp)
  · obtain ⟨unit, isLast⟩ := Option.isSome_iff_exists.mp
      (List.getLast?_isSome.mpr some')
    have inDigits := List.mem_of_getLast? isLast
    rw [List.getLast?_append, List.getLast?_cons, isLast] at last
    simp only [Option.getD_some, Option.some_or, Option.some.injEq] at last
    exact absurd (last ▸ digit unit inDigits) (by decide)

theorem no_second_colon {digits between rest : Text}
    (digit : ∀ unit ∈ digits, isDigit unit = true) : digits ≠ between ++ colon :: rest := by
  rintro rfl
  exact absurd (digit colon (by simp)) (by decide)

theorem host_append_inj {left right leftPort rightPort : Text} (leftBracketed : Bracketed left)
    (rightBracketed : Bracketed right) (isLeft : PortSuffix leftPort)
    (isRight : PortSuffix rightPort) :
    left ++ leftPort = right ++ rightPort ↔ left = right ∧ leftPort = rightPort := by
  refine ⟨fun same => ?_, fun both => by rw [both.1, both.2]⟩
  cases isLeft with
  | nothing =>
    cases isRight with
    | nothing => simpa using same
    | port some' digit =>
      rw [List.append_nil] at same
      exact absurd same (PortSuffix.not_inside leftBracketed some' digit)
  | port some' digit =>
    cases isRight with
    | nothing =>
      rw [List.append_nil] at same
      exact absurd same.symm (PortSuffix.not_inside rightBracketed some' digit)
    | port someRight digitRight =>
      rcases List.append_eq_append_iff.mp same with ⟨between, rfl, rest⟩ | ⟨between, rfl, rest⟩
      · cases between with
        | nil => simpa using rest
        | cons first between => exact absurd (List.cons.inj rest).2 (no_second_colon digit)
      · cases between with
        | nil => simpa [eq_comm] using rest
        | cons first between =>
          exact absurd (List.cons.inj rest).2 (no_second_colon digitRight)

theorem toLowerCase_of_digits {digits : Text} (digit : ∀ unit ∈ digits, isDigit unit = true) :
    toLowerCase digits = digits := by
  have each : ∀ unit ∈ digits, lowerCaseUnit unit = unit := by
    intro unit member
    have bounds := digit unit member
    simp only [isDigit, Bool.and_eq_true, decide_eq_true_eq] at bounds
    rw [lowerCaseUnit, if_neg (by omega)]
  exact (List.map_congr_left each).trans (List.map_id digits)

namespace Url

def portSuffix (url : Url) : Text := if url.port = [] then [] else colon :: url.port

theorem host_eq (url : Url) : url.host = url.hostname ++ url.portSuffix := by
  rw [host, portSuffix]
  split <;> simp

theorem isDigit_port {url : Url} {unit : Nat} (member : unit ∈ url.port) :
    isDigit unit = true := by
  rw [port_eq] at member
  cases shown : url.shownPort with
  | none => simp [shown] at member
  | some port =>
    rw [shown] at member
    exact isDigit_portText member

theorem portSuffix_isSuffix (url : Url) : PortSuffix url.portSuffix := by
  rw [portSuffix]
  split
  · exact .nothing
  · rename_i shown
    exact .port shown fun unit => isDigit_port

theorem portSuffix_eq_iff (left right : Url) :
    left.portSuffix = right.portSuffix ↔ left.port = right.port := by
  rw [portSuffix, portSuffix]
  by_cases leftNone : left.port = []
  · by_cases rightNone : right.port = []
    · simp [leftNone, rightNone]
    · simp [leftNone, rightNone, Ne.symm rightNone]
  · by_cases rightNone : right.port = []
    · simp [leftNone, rightNone]
    · simp [leftNone, rightNone]

theorem toLowerCase_host (url : Url) :
    toLowerCase url.host = toLowerCase url.hostname ++ url.portSuffix := by
  rw [host_eq, toLowerCase, List.map_append]
  refine congrArg _ ?_
  rw [portSuffix]
  split
  · rfl
  · exact congrArg (colon :: ·) (toLowerCase_of_digits fun unit => isDigit_port)

end Url

theorem literal_host_iff {pattern url : Url} (same : pattern.protocol = url.protocol) :
    toLowerCase pattern.host = toLowerCase url.host ↔
      toLowerCase pattern.hostname = toLowerCase url.hostname ∧
        pattern.effectivePort = url.effectivePort := by
  rw [Url.toLowerCase_host, Url.toLowerCase_host,
    host_append_inj (Bracketed.toLowerCase pattern.bracketed) (Bracketed.toLowerCase url.bracketed)
      pattern.portSuffix_isSuffix url.portSuffix_isSuffix,
    Url.portSuffix_eq_iff, Url.port_eq_iff, Url.shownPort_eq_iff same]

theorem allDomainPort_eq {pattern : Url} (all : isAllDomainHostPattern pattern.hostname = true) :
    allDomainPort (toLowerCase pattern.host) = pattern.shownPort.map portText := by
  have stars : toLowerCase pattern.hostname = pattern.hostname ∧
      ∀ unit ∈ pattern.hostname, unit = star := by
    simp only [isAllDomainHostPattern, Bool.or_eq_true, decide_eq_true_eq] at all
    rcases all with one | two
    · rw [one]
      decide
    · rw [two]
      decide
  rw [Url.toLowerCase_host, stars.1, allDomainPort, Url.portSuffix]
  have shown := Url.port_eq pattern
  have isStar : ∀ unit ∈ pattern.hostname, decide (unit = star) = true :=
    fun unit member => decide_eq_true (stars.2 unit member)
  rw [List.takeWhile_append_of_pos isStar, List.dropWhile_append_of_pos isStar]
  cases port : pattern.shownPort with
  | none =>
    rw [port, Option.map_none, Option.getD_none] at shown
    rw [shown, if_pos rfl]
    simp [all]
  | some number =>
    rw [port, Option.map_some, Option.getD_some] at shown
    have digits : ∀ unit ∈ portText number, isDigit unit = true := fun _ => isDigit_portText
    rw [shown, if_neg (portText_ne_nil number), List.takeWhile_cons_of_neg (by decide),
      List.dropWhile_cons_of_neg (by decide)]
    simpa [all, portText_ne_nil] using digits

theorem allDomain_host_iff {pattern url : Url} (source : Text)
    (all : isAllDomainHostPattern pattern.hostname = true)
    (supported : url.protocol.supported = true) :
    hostMatchesPattern (compiledPattern source pattern) url = true ↔
      ∀ port, pattern.shownPort = some port → url.effectivePort = some port := by
  rw [hostMatchesPattern, compiledPattern, all, allDomainPort_eq all,
    effectiveUrlPort_eq supported]
  cases pattern.shownPort with
  | none => simp
  | some number =>
    cases effective : url.effectivePort with
    | none => simp [portText_ne_nil]
    | some other => simp [portText_injective.eq_iff, eq_comm]

/-- The host check of a compiled pattern is the declared one, or lets the default port of a pattern
for all domains go. -/
theorem hostMatchesPattern_iff {pattern url : Url} (source : Text)
    (same : pattern.protocol = url.protocol) (supported : url.protocol.supported = true) :
    hostMatchesPattern (compiledPattern source pattern) url = true ↔
      DeclaresHost pattern url ∨
        isAllDomainHostPattern pattern.hostname = true ∧
          pattern.writtenPort = pattern.protocol.defaultPort ∧
          url.effectivePort ≠ pattern.writtenPort := by
  rw [DeclaresHost]
  by_cases all : isAllDomainHostPattern pattern.hostname = true
  · rw [allDomain_host_iff source all supported, if_pos all, Url.shownPort]
    by_cases isDefault : pattern.writtenPort = pattern.protocol.defaultPort
    · rw [if_pos isDefault]
      refine iff_of_true nofun ?_
      by_cases effective : url.effectivePort = pattern.writtenPort
      · exact Or.inl fun port written => effective.trans written
      · exact Or.inr ⟨all, isDefault, effective⟩
    · rw [if_neg isDefault]
      exact (or_iff_left fun loses => isDefault loses.2.1).symm
  · rw [if_neg all, hostMatchesPattern]
    have literal : (compiledPattern source pattern).allDomains = false :=
      Bool.eq_false_iff.mpr all
    rw [literal, Bool.not_false, if_pos rfl, decide_eq_true_eq]
    exact (literal_host_iff same).trans (or_iff_left fun loses => all loses.1).symm

theorem segmentGlob_literal_iff {lone : Nat → Prop} {pattern segment : Text}
    (literal : containsGlobPattern pattern = false) :
    SegmentGlob lone pattern segment ↔ pattern = segment := by
  refine matches_literal_iff fun unit member => ?_
  have notGlob := (List.any_eq_false.mp literal) unit member
  simp only [Bool.or_eq_true, decide_eq_true_eq, not_or] at notGlob
  exact ⟨some unit, unitPlace_literal notGlob.1.1 notGlob.1.2, fun _ => Iff.rfl⟩

theorem pathGlob_literal_iff {lone : Nat → Prop} {patternSegments segments : List Text}
    (literal : ∀ head ∈ patternSegments, containsGlobPattern head = false) :
    PathGlob lone patternSegments segments ↔ patternSegments = segments := by
  refine matches_literal_iff fun head member => ?_
  have notRun : head ≠ doubleStar := by
    rintro rfl
    exact absurd (literal doubleStar member) (by decide)
  exact ⟨head, if_neg notRun, fun other => segmentGlob_literal_iff (literal head member)⟩

theorem literal_of_mem_pathnameSegments {pathname head : Text}
    (literal : containsGlobPattern pathname = false) (member : head ∈ pathnameSegments pathname) :
    containsGlobPattern head = false := by
  have inside : ∀ unit ∈ head, unit ∈ pathname := by
    intro unit inHead
    rw [pathnameSegments] at member
    split at member
    · split at member
      · exact absurd member List.not_mem_nil
      · exact List.mem_of_mem_tail (JsText.mem_of_mem_splitOn member inHead)
    · split at member
      · exact absurd member List.not_mem_nil
      · exact JsText.mem_of_mem_splitOn member inHead
  rw [containsGlobPattern, List.any_eq_false] at literal ⊢
  exact fun unit inHead => literal unit (inside unit inHead)

theorem pathnameSegments_rooted (rest : Text) : pathnameSegments (slash :: rest) =
    if rest = [] then [] else rest.splitOn slash := rfl

theorem pathnameSegments_inj {left right : Text} (leftRooted : left.head? = some slash)
    (rightRooted : right.head? = some slash) :
    pathnameSegments left = pathnameSegments right ↔ left = right := by
  obtain ⟨leftRest, rfl⟩ := List.head?_eq_some_iff.mp leftRooted
  obtain ⟨rightRest, rfl⟩ := List.head?_eq_some_iff.mp rightRooted
  refine ⟨fun same => ?_, congrArg _⟩
  rw [pathnameSegments_rooted, pathnameSegments_rooted] at same
  have whole := congrArg ([slash].intercalate ·) same
  by_cases leftEmpty : leftRest = []
  · by_cases rightEmpty : rightRest = []
    · rw [leftEmpty, rightEmpty]
    · rw [if_pos leftEmpty, if_neg rightEmpty] at same
      exact absurd same.symm (List.splitOn_ne_nil slash rightRest)
  · by_cases rightEmpty : rightRest = []
    · rw [if_neg leftEmpty, if_pos rightEmpty] at same
      exact absurd same (List.splitOn_ne_nil slash leftRest)
    · simp only [if_neg leftEmpty, if_neg rightEmpty, List.intercalate_splitOn] at whole
      rw [whole]

theorem pathnameMatchesPattern_iff {pattern url : Url} (rooted : pattern.protocol.supported = true)
    (urlRooted : url.protocol.supported = true) :
    pathnameMatchesPattern pattern.pathname url.pathname = true ↔
      DeclaresPath IsStar pattern url := by
  rw [pathnameMatchesPattern, DeclaresPath]
  split
  · exact globSegmentsMatch_iff _ _
  · rename_i literal
    have plain : containsGlobPattern pattern.pathname = false := Bool.eq_false_iff.mpr literal
    rw [pathGlob_literal_iff fun head => literal_of_mem_pathnameSegments plain,
      pathnameSegments_inj (pattern.rooted rooted) (url.rooted urlRooted), decide_eq_true_eq]

def DeclaredAllowed (parseUrl : ParseUrl) (input : PluginNetworkAllowlistInput)
    (requestUrl : Text) : Prop :=
  ∃ url, parseUrl requestUrl = some url ∧ url.hasCredentials = false ∧
    ∃ source ∈ input.patterns, ∃ pattern, Accepted parseUrl input source pattern ∧
      Declares pattern url

def SomePattern (parseUrl : ParseUrl) (input : PluginNetworkAllowlistInput)
    (relation : Url → Url → Prop) (url : Url) : Prop :=
  ∃ source ∈ input.patterns, ∃ pattern, Accepted parseUrl input source pattern ∧
    relation pattern url

theorem compiled_matches_iff {source : Text} {pattern url : Url}
    (accepted : Accepted parseUrl input source pattern) (supported : url.protocol.supported = true) :
    patternMatches url (compiledPattern source pattern) = true ↔
      Keeps pattern url ∨ LosesPort pattern url := by
  rw [patternMatches, Bool.and_eq_true, Bool.and_eq_true, decide_eq_true_eq]
  constructor
  · rintro ⟨⟨same, host⟩, path⟩
    have starred := (pathnameMatchesPattern_iff accepted.supported supported).mp path
    rcases (hostMatchesPattern_iff source same supported).mp host with declared | ⟨all, isDefault, other⟩
    · exact Or.inl ⟨⟨same, declared, starred.free⟩, starred⟩
    · exact Or.inr ⟨all, isDefault, same, other, starred⟩
  · rintro (⟨⟨same, host, -⟩, starred⟩ | ⟨all, isDefault, same, other, starred⟩)
    · exact ⟨⟨same, (hostMatchesPattern_iff source same supported).mpr (Or.inl host)⟩,
        (pathnameMatchesPattern_iff accepted.supported supported).mpr starred⟩
    · exact ⟨⟨same, (hostMatchesPattern_iff source same supported).mpr
        (Or.inr ⟨all, isDefault, other⟩)⟩,
        (pathnameMatchesPattern_iff accepted.supported supported).mpr starred⟩

theorem some_compiled_matches_iff {url : Url} (supported : url.protocol.supported = true) :
    (∃ compiled ∈ (compilePluginNetworkAllowlist parseUrl input).patterns,
        patternMatches url compiled = true) ↔
      SomePattern parseUrl input Keeps url ∨ SomePattern parseUrl input LosesPort url := by
  constructor
  · rintro ⟨compiled, member, matched⟩
    obtain ⟨source, isSource, pattern, accepted, rfl⟩ := mem_compiled_patterns.mp member
    rcases (compiled_matches_iff accepted supported).mp matched with keeps | loses
    · exact Or.inl ⟨source, isSource, pattern, accepted, keeps⟩
    · exact Or.inr ⟨source, isSource, pattern, accepted, loses⟩
  · rintro (⟨source, isSource, pattern, accepted, keeps⟩ |
      ⟨source, isSource, pattern, accepted, loses⟩)
    · exact ⟨_, mem_compiled_patterns.mpr ⟨source, isSource, pattern, accepted, rfl⟩,
        (compiled_matches_iff accepted supported).mpr (Or.inl keeps)⟩
    · exact ⟨_, mem_compiled_patterns.mpr ⟨source, isSource, pattern, accepted, rfl⟩,
        (compiled_matches_iff accepted supported).mpr (Or.inr loses)⟩

theorem SomePattern.supported {relation : Url → Url → Prop} {url : Url}
    (found : SomePattern parseUrl input relation url)
    (protocol : ∀ pattern, relation pattern url → pattern.protocol = url.protocol) :
    url.protocol.supported = true := by
  obtain ⟨source, -, pattern, accepted, related⟩ := found
  exact protocol pattern related ▸ accepted.supported

theorem isAllowed_iff {requestUrl : Text} :
    (matchPluginNetworkAllowlist parseUrl
        (compilePluginNetworkAllowlist parseUrl input).patterns requestUrl).isAllowed = true ↔
      ∃ url, parseUrl requestUrl = some url ∧ url.hasCredentials = false ∧
        (SomePattern parseUrl input Keeps url ∨ SomePattern parseUrl input LosesPort url) := by
  rw [matchPluginNetworkAllowlist]
  cases parsed : parseUrl requestUrl with
  | none => simp [PluginNetworkAllowlistMatchResult.isAllowed]
  | some url =>
    simp only [Option.some.injEq, exists_eq_left']
    by_cases supported : url.protocol.supported = true
    · simp only [supported, Bool.not_true, url.hosted supported, decide_false, Bool.or_false,
        Bool.false_eq_true, if_false]
      by_cases credentials : url.hasCredentials = true
      · simp [credentials, PluginNetworkAllowlistMatchResult.isAllowed]
      · rw [if_neg credentials, and_iff_right (Bool.eq_false_iff.mpr credentials),
          ← some_compiled_matches_iff supported, ← List.find?_isSome]
        cases List.find? (patternMatches url)
          (compilePluginNetworkAllowlist parseUrl input).patterns with
        | none => exact iff_of_false Bool.false_ne_true Bool.false_ne_true
        | some pattern => exact iff_of_true rfl rfl
    · have neither : ¬(SomePattern parseUrl input Keeps url ∨
          SomePattern parseUrl input LosesPort url) := by
        rintro (keeps | loses)
        · exact supported (keeps.supported fun _ related => related.declared.protocol)
        · exact supported (loses.supported fun _ related => related.protocol)
      simp [supported, neither, PluginNetworkAllowlistMatchResult.isAllowed]

theorem declaredAllowed_iff {requestUrl : Text} : DeclaredAllowed parseUrl input requestUrl ↔
    ∃ url, parseUrl requestUrl = some url ∧ url.hasCredentials = false ∧
      (SomePattern parseUrl input Keeps url ∨ SomePattern parseUrl input MeetsStar url) := by
  refine exists_congr fun url => and_congr_right fun _ => and_congr_right fun _ => ?_
  constructor
  · rintro ⟨source, isSource, pattern, accepted, declared⟩
    by_cases starred : DeclaresPath IsStar pattern url
    · exact Or.inl ⟨source, isSource, pattern, accepted, declared, starred⟩
    · exact Or.inr ⟨source, isSource, pattern, accepted, declared, starred⟩
  · rintro (⟨source, isSource, pattern, accepted, keeps⟩ |
      ⟨source, isSource, pattern, accepted, meets⟩)
    · exact ⟨source, isSource, pattern, accepted, keeps.declared⟩
    · exact ⟨source, isSource, pattern, accepted, meets.declared⟩

/-- The decision is the declared one just when some accepted pattern keeps its declared meaning
for the URL, or patterns that lose their port and patterns whose stars meet stars of the path are
there both or not at all. -/
theorem allowlist_decides_declared_iff (parseUrl : ParseUrl)
    (input : PluginNetworkAllowlistInput) (requestUrl : Text) :
    ((matchPluginNetworkAllowlist parseUrl
          (compilePluginNetworkAllowlist parseUrl input).patterns requestUrl).isAllowed = true ↔
        DeclaredAllowed parseUrl input requestUrl) ↔
      ∀ url, parseUrl requestUrl = some url → url.hasCredentials = false →
        SomePattern parseUrl input Keeps url ∨
          (SomePattern parseUrl input LosesPort url ↔
            SomePattern parseUrl input MeetsStar url) := by
  rw [isAllowed_iff, declaredAllowed_iff]
  cases parsed : parseUrl requestUrl with
  | none => simp
  | some url =>
    simp only [Option.some.injEq, exists_eq_left', forall_eq']
    by_cases credentials : url.hasCredentials = false
    · simp only [credentials, true_and, forall_const]
      exact ⟨fun same => or_iff_not_imp_left.mpr fun never => by
        rwa [or_iff_right never, or_iff_right never] at same,
        fun either => either.elim (fun keeps => iff_of_true (Or.inl keeps) (Or.inl keeps))
          fun same => or_congr_right same⟩
    · simp [credentials]

namespace Sample

def everywhereUrl : Url where
  protocol := .https
  username := []
  password := []
  hostname := doubleStar
  writtenPort := some 443
  pathname := units "/**"
  bracketed := Or.inl (by decide)
  hosted := by decide
  rooted := by decide

def portUrl : Url where
  protocol := .https
  username := []
  password := []
  hostname := units "x"
  writtenPort := some 8443
  pathname := units "/"
  bracketed := Or.inl (by decide)
  hosted := by decide
  rooted := by decide

def parse : ParseUrl := fun text =>
  if text = units "https://**:443/**" then some everywhereUrl
  else if text = units "https://x:8443/" then some portUrl
  else none

def everywhere : PluginNetworkAllowlistInput where
  allowUnsafeAllDomains := some true
  enforceHttps := none
  kind := none
  patterns := [units "https://**:443/**"]

end Sample

theorem lost_port_allowed :
    ¬((matchPluginNetworkAllowlist Sample.parse
          (compilePluginNetworkAllowlist Sample.parse Sample.everywhere).patterns
          (units "https://x:8443/")).isAllowed = true ↔
        DeclaredAllowed Sample.parse Sample.everywhere (units "https://x:8443/")) := by
  have allowed : (matchPluginNetworkAllowlist Sample.parse
      (compilePluginNetworkAllowlist Sample.parse Sample.everywhere).patterns
      (units "https://x:8443/")).isAllowed = true := by decide +kernel
  rw [iff_true_left allowed]
  rintro ⟨url, isUrl, -, source, isSource, pattern, accepted, declared⟩
  obtain rfl := List.mem_singleton.mp isSource
  obtain rfl := Option.some.inj ((show Sample.parse (units "https://x:8443/") =
    some Sample.portUrl by decide +kernel).symm.trans isUrl)
  obtain rfl := Option.some.inj ((show Sample.parse (patternWithDefaultProtocol
    (units "https://**:443/**") .fetch) = some Sample.everywhereUrl by decide +kernel).symm.trans
    accepted.parsed)
  have host := declared.host
  rw [DeclaresHost, if_pos (by decide)] at host
  exact absurd (host 443 rfl) (by decide)

end Metidos.Plugin
