import Metidos.Library.JsText
import Metidos.Library.UrlReference

/-!
`src/mainview/getdown/src/react/GetDown.tsx`: the default sanitisers of link targets and image
sources, and what a browser makes of the text that they return.
-/

namespace Metidos.LinkSanitizing

open JsText (isWhiteSpace trim trim_eq_nil_iff)
open UrlReference

structure SanitizeOptions where
  allowedSchemes : List Text
  allowRelative : Bool

def isKept (character : Char) : Bool :=
  0x1f < character.toNat && character.toNat != 0x7f && !isWhiteSpace character

def sanitizeUrl (value : Text) (options : SanitizeOptions) : Option Text :=
  let trimmed := trim value
  if trimmed = [] then some []
  else
    let normalized := trimmed.filter isKept
    match readScheme normalized with
    | some (scheme, _) => if options.allowedSchemes.contains scheme then some trimmed else none
    | none =>
      if "//".toList <+: normalized then none
      else if options.allowRelative then some trimmed
      else none

def linkOptions : SanitizeOptions where
  allowedSchemes := ["http", "https", "mailto", "tel"].map String.toList
  allowRelative := true

def imageOptions : SanitizeOptions where
  allowedSchemes := ["http", "https"].map String.toList
  allowRelative := true

def defaultSanitizeLinkHref (href : Text) : Option Text := sanitizeUrl href linkOptions

def defaultSanitizeImageSrc (src : Text) : Option Text :=
  if trim src = [] then none else sanitizeUrl src imageOptions

/-- The URL of a text on a page has an allowed scheme and, unless the text has a scheme itself, the
origin of the page. -/
def StaysAllowed (authority : Authority) (page : Origin) (allowedSchemes : List Text) (text : Text) :
    Prop :=
  ∀ url, resolve authority page text = some url →
    url.scheme ∈ allowedSchemes ∧ (readScheme (clean text) = none → url.origin = some page)

def IsSafe (authority : Authority) (page : Origin) (allowedSchemes : List Text)
    (sanitize : Text → Option Text) (text : Text) : Prop :=
  ∀ returned, sanitize text = some returned → returned ≠ [] →
    StaysAllowed authority page allowedSchemes returned

/-- A text that starts with two slashes of which one is a backslash names the page's own origin, or
none. -/
def BackslashesFit (authority : Authority) (page : Origin) (text : Text) : Prop :=
  ∀ first second rest, clean (trim text) = first :: second :: rest →
    isSlash first = true → isSlash second = true → ¬(first = '/' ∧ second = '/') →
      ∀ host port, authority page.scheme (rest.dropWhile isSlash) = some (host, port) →
        (⟨page.scheme, host, port⟩ : Origin) = page

section

variable {authority : Authority} {page : Origin} {text : Text} {options : SanitizeOptions}

theorem control_not_kept (character : Char) (control : isControlOrSpace character = true) :
    isKept character = false := by
  rw [isControlOrSpace, decide_eq_true_eq] at control
  by_cases space : character.toNat = 0x20
  · simp [isKept, isWhiteSpace, space]
  · have low : ¬0x1f < character.toNat := by omega
    simp [isKept, low]

theorem schemeChar_kept (character : Char) (inScheme : isSchemeChar character = true) :
    isKept character = true := by
  have range : 0x20 < character.toNat ∧ character.toNat < 0x7f := by
    rw [isSchemeChar] at inScheme
    delta Char.isAlphanum Char.isAlpha Char.isUpper Char.isLower Char.isDigit at inScheme
    simp only [Bool.or_eq_true, Bool.and_eq_true, decide_eq_true_eq, beq_iff_eq, ge_iff_le,
      UInt32.le_iff_toNat_le] at inScheme
    change (((((65 ≤ character.toNat ∧ character.toNat ≤ 90) ∨
      (97 ≤ character.toNat ∧ character.toNat ≤ 122)) ∨
        (48 ≤ character.toNat ∧ character.toNat ≤ 57)) ∨ character = '+') ∨ character = '-') ∨
          character = '.' at inScheme
    rcases inScheme with ((alnum | rfl) | rfl) | rfl
    · omega
    · decide
    · decide
    · decide
  simp only [isKept, isWhiteSpace, Bool.and_eq_true, Bool.not_eq_true', decide_eq_true_eq, bne_iff_ne,
    Bool.or_eq_false_iff, Bool.and_eq_false_iff, decide_eq_false_iff_not, beq_eq_false_iff_ne]
  omega

theorem slash_kept {character : Char} (slash : isSlash character = true) :
    isKept character = true := by
  rw [isSlash, Bool.or_eq_true, beq_iff_eq, beq_iff_eq] at slash
  rcases slash with rfl | rfl <;> rfl

theorem normalized_scheme {scheme rest : Text}
    (read : readScheme (clean (trim text)) = some (scheme, rest)) :
    readScheme ((trim text).filter isKept) = some (scheme, rest.filter isKept) := by
  rw [← filter_clean control_not_kept]
  exact readScheme_filter rfl schemeChar_kept read

theorem normalized_slashes {first second : Char} {rest : Text}
    (starts : clean (trim text) = first :: second :: rest) (isFirst : isSlash first = true)
    (isSecond : isSlash second = true) :
    (trim text).filter isKept = first :: second :: rest.filter isKept := by
  rw [← filter_clean control_not_kept, starts, List.filter_cons_of_pos (slash_kept isFirst),
    List.filter_cons_of_pos (slash_kept isSecond)]

theorem sanitizeUrl_returned {returned : Text}
    (sanitized : sanitizeUrl text options = some returned) : returned = trim text := by
  unfold sanitizeUrl at sanitized
  dsimp only at sanitized
  split at sanitized
  · rename_i isEmpty
    rw [isEmpty, Option.some.inj sanitized]
  · split at sanitized
    · split at sanitized
      · exact (Option.some.inj sanitized).symm
      · exact absurd sanitized (by simp)
    · split at sanitized
      · exact absurd sanitized (by simp)
      · split at sanitized
        · exact (Option.some.inj sanitized).symm
        · exact absurd sanitized (by simp)

theorem sanitizeUrl_scheme {scheme rest returned : Text}
    (read : readScheme (clean (trim text)) = some (scheme, rest))
    (sanitized : sanitizeUrl text options = some returned) (nonempty : returned ≠ []) :
    scheme ∈ options.allowedSchemes := by
  unfold sanitizeUrl at sanitized
  dsimp only at sanitized
  rw [normalized_scheme read] at sanitized
  dsimp only at sanitized
  split at sanitized
  · exact absurd (Option.some.inj sanitized).symm nonempty
  · split at sanitized
    · rename_i allowed
      exact List.contains_iff_mem.mp allowed
    · exact absurd sanitized (by simp)

theorem sanitizeUrl_backslash (relatives : options.allowRelative = true) {first second : Char}
    {rest : Text} (starts : clean (trim text) = first :: second :: rest)
    (isFirst : isSlash first = true) (isSecond : isSlash second = true) :
    sanitizeUrl text options =
      if first = '/' ∧ second = '/' then none else some (trim text) := by
  have nonempty : trim text ≠ [] := by
    intro isEmpty
    rw [isEmpty] at starts
    exact absurd starts (by simp [clean, strip])
  unfold sanitizeUrl
  rw [if_neg nonempty, normalized_slashes starts isFirst isSecond]
  dsimp only
  rw [readScheme_slash isFirst, relatives]
  refine ite_congr (propext ?_) (fun _ => rfl) fun _ => rfl
  show ['/', '/'] <+: first :: second :: rest.filter isKept ↔ _
  rw [List.cons_prefix_cons, List.cons_prefix_cons]
  constructor
  · rintro ⟨one, two, _⟩
    exact ⟨one.symm, two.symm⟩
  · rintro ⟨one, two⟩
    exact ⟨one.symm, two.symm, List.nil_prefix⟩

theorem sanitizeUrl_safe (relatives : options.allowRelative = true)
    (secure : page.scheme ∈ options.allowedSchemes) :
    IsSafe authority page options.allowedSchemes (sanitizeUrl · options) text ↔
      BackslashesFit authority page text := by
  constructor
  · intro safe first second rest starts isFirst isSecond mixed host port read
    have returned := sanitizeUrl_backslash relatives starts isFirst isSecond
    rw [if_neg mixed] at returned
    have nonempty : trim text ≠ [] := by
      intro isEmpty
      rw [isEmpty] at starts
      exact absurd starts (by simp [clean, strip])
    have noScheme : readScheme (clean (trim text)) = none := by
      rw [starts, readScheme_slash isFirst]
    have resolved : resolve authority page (trim text) =
        some ⟨page.scheme, some ⟨page.scheme, host, port⟩⟩ := by
      rw [resolve, noScheme, starts]
      dsimp only
      rw [relative, isFirst, isSecond, Bool.and_self, if_pos rfl, ofAuthority, read]
      rfl
    exact Option.some.inj ((safe _ returned nonempty _ resolved).2 noScheme)
  · intro fits returned sanitized nonempty url resolved
    dsimp only at sanitized
    obtain rfl := sanitizeUrl_returned sanitized
    cases read : readScheme (clean (trim text)) with
    | some found =>
      obtain ⟨scheme, rest⟩ := found
      rw [resolve_scheme read resolved]
      exact ⟨sanitizeUrl_scheme read sanitized nonempty, fun none => absurd none (by simp)⟩
    | none =>
      rw [resolve, read] at resolved
      dsimp only at resolved
      rw [relative_scheme resolved]
      refine ⟨secure, fun _ => ?_⟩
      by_cases plain : ∀ first second rest, clean (trim text) = first :: second :: rest →
          ¬(isSlash first = true ∧ isSlash second = true)
      · rw [relative_plain plain] at resolved
        obtain rfl := Option.some.inj resolved
        rfl
      · simp only [not_forall, not_not] at plain
        obtain ⟨first, second, rest, starts, isFirst, isSecond⟩ := plain
        rw [sanitizeUrl_backslash relatives starts isFirst isSecond] at sanitized
        split at sanitized
        · exact absurd sanitized (by simp)
        · rename_i mixed
          rw [starts, relative, isFirst, isSecond, Bool.and_self, if_pos rfl, ofAuthority,
            Option.map_eq_some_iff] at resolved
          obtain ⟨⟨host, port⟩, named, rfl⟩ := resolved
          exact congrArg some (fits first second rest starts isFirst isSecond mixed host port named)

end

/-- What the default sanitisers return stays allowed on an `https` page if and only if slashes with
a backslash among the first two do not name another origin. -/
theorem defaultSanitizers_safe (authority : Authority) (host : Text) (port : Option Nat)
    (text : Text) :
    (IsSafe authority ⟨"https".toList, host, port⟩ linkOptions.allowedSchemes
        defaultSanitizeLinkHref text ↔
      BackslashesFit authority ⟨"https".toList, host, port⟩ text) ∧
    (IsSafe authority ⟨"https".toList, host, port⟩ imageOptions.allowedSchemes
        defaultSanitizeImageSrc text ↔
      BackslashesFit authority ⟨"https".toList, host, port⟩ text) := by
  refine ⟨sanitizeUrl_safe rfl (by simp [linkOptions]), ?_⟩
  rw [← @sanitizeUrl_safe authority _ text imageOptions rfl (by simp [imageOptions])]
  refine forall_congr' fun returned => ?_
  rw [defaultSanitizeImageSrc]
  split
  · rename_i isEmpty
    refine iff_of_true (fun none => absurd none (by simp)) fun sanitized nonempty => ?_
    exact absurd ((sanitizeUrl_returned sanitized).trans isEmpty) nonempty
  · exact Iff.rfl

/-- The text `/\evil.example` passes and leads to another origin. -/
theorem defaultSanitizers_safe_backslash :
    ¬ ∀ (authority : Authority) (host : Text) (port : Option Nat) (text : Text),
      IsSafe authority ⟨"https".toList, host, port⟩ linkOptions.allowedSchemes
          defaultSanitizeLinkHref text ∧
        IsSafe authority ⟨"https".toList, host, port⟩ imageOptions.allowedSchemes
          defaultSanitizeImageSrc text := by
  intro always
  have safe := (always (fun _ rest => some (rest.takeWhile fun char => !isSlash char, none))
    "metidos.example".toList none "/\\evil.example".toList).1
  have stays := safe "/\\evil.example".toList (by decide) (by decide)
    ⟨"https".toList, some ⟨"https".toList, "evil.example".toList, none⟩⟩ (by decide)
  exact absurd (stays.2 (by decide)) (by decide)

end Metidos.LinkSanitizing
