import Mathlib.Data.List.Basic

/-!
How a URL parser reads a reference against a page: the stripped text, the scheme, and the slashes
that start an authority.  What an authority says is a parameter.
-/

namespace UrlReference

abbrev Text := List Char

def isControlOrSpace (char : Char) : Bool := char.toNat ≤ 0x20

def isTabOrNewline (char : Char) : Bool := char == '\t' || char == '\n' || char == '\r'

def isSlash (char : Char) : Bool := char == '/' || char == '\\'

def strip (drop : Char → Bool) (text : Text) : Text :=
  ((text.dropWhile drop).reverse.dropWhile drop).reverse

/-- The text without control characters and spaces around it and without tabs and newlines. -/
def clean (text : Text) : Text :=
  (strip isControlOrSpace text).filter fun char => !isTabOrNewline char

def isSchemeChar (char : Char) : Bool :=
  char.isAlphanum || char == '+' || char == '-' || char == '.'

def readSchemeRest : Text → Option (Text × Text)
  | [] => none
  | char :: rest =>
    if char = ':' then some ([], rest)
    else if isSchemeChar char then
      (readSchemeRest rest).map fun read => (char.toLower :: read.1, read.2)
    else none

def readScheme : Text → Option (Text × Text)
  | [] => none
  | char :: rest => if char.isAlpha then readSchemeRest (char :: rest) else none

structure Origin where
  scheme : Text
  host : Text
  port : Option Nat
  deriving DecidableEq

/-- A URL has an origin unless this is opaque. -/
structure Url where
  scheme : Text
  origin : Option Origin
  deriving DecidableEq

/-- The host and port that an authority of a scheme has, from the text after its slashes. -/
abbrev Authority := Text → Text → Option (Text × Option Nat)

section

variable (authority : Authority) (page : Origin)

def ofAuthority (scheme rest : Text) : Option Url :=
  (authority scheme (rest.dropWhile isSlash)).map fun read =>
    ⟨scheme, some ⟨scheme, read.1, read.2⟩⟩

def relative : Text → Option Url
  | first :: second :: rest =>
    if isSlash first && isSlash second then ofAuthority authority page.scheme rest
    else some ⟨page.scheme, some page⟩
  | _ => some ⟨page.scheme, some page⟩

def specialSchemes : List Text := ["ftp", "http", "https", "ws", "wss"].map String.toList

/-- The URL of a text on a page with a special scheme.  The origins of `file` and `blob` URLs are
not followed further. -/
def resolve (text : Text) : Option Url :=
  match readScheme (clean text) with
  | none => relative authority page (clean text)
  | some (scheme, rest) =>
    if specialSchemes.contains scheme then
      if scheme = page.scheme ∧ ¬"//".toList <+: rest then relative authority page rest
      else ofAuthority authority scheme rest
    else if "//".toList <+: rest then (authority scheme (rest.drop 2)).map fun _ => ⟨scheme, none⟩
    else some ⟨scheme, none⟩

end

theorem filter_strip {drop keep : Char → Bool}
    (apart : ∀ char, drop char = true → keep char = false) (text : Text) :
    (strip drop text).filter keep = text.filter keep := by
  have start (text : Text) : (text.dropWhile drop).filter keep = text.filter keep := by
    induction text with
    | nil => rfl
    | cons char rest ih =>
      rw [List.dropWhile_cons]
      split
      · rename_i drops
        rw [ih, List.filter_cons_of_neg (by simp [apart char drops])]
      · rfl
  rw [strip, ← List.reverse_reverse (text.filter keep), List.filter_reverse, start,
    List.filter_reverse, start]

theorem filter_clean {keep : Char → Bool}
    (apart : ∀ char, isControlOrSpace char = true → keep char = false) (text : Text) :
    (clean text).filter keep = text.filter keep := by
  rw [clean, List.filter_filter, ← filter_strip apart text]
  refine List.filter_congr fun char _ => ?_
  cases isKept : keep char with
  | false => rfl
  | true =>
    have visible : isTabOrNewline char = false := by
      by_contra isBlank
      rw [Bool.not_eq_false] at isBlank
      have control : isControlOrSpace char = true := by
        simp only [isTabOrNewline, Bool.or_eq_true, beq_iff_eq] at isBlank
        rcases isBlank with (rfl | rfl) | rfl <;> rfl
      exact absurd (isKept.symm.trans (apart char control)) (by simp)
    rw [visible]
    rfl

section

variable {keep : Char → Bool} {text scheme rest : Text}

theorem readSchemeRest_filter (colon : keep ':' = true)
    (keeps : ∀ char, isSchemeChar char = true → keep char = true)
    (read : readSchemeRest text = some (scheme, rest)) :
    readSchemeRest (text.filter keep) = some (scheme, rest.filter keep) := by
  induction text generalizing scheme with
  | nil => exact absurd read (by simp [readSchemeRest])
  | cons char tail ih =>
    rw [readSchemeRest] at read
    split at read
    · rename_i isColon
      obtain ⟨rfl, rfl⟩ := Prod.mk.inj (Option.some.inj read)
      rw [isColon, List.filter_cons_of_pos colon, readSchemeRest, if_pos rfl]
    · rename_i notColon
      split at read
      · rename_i inScheme
        obtain ⟨later, found, same⟩ := Option.map_eq_some_iff.mp read
        obtain ⟨rfl, rfl⟩ := Prod.mk.inj same
        rw [List.filter_cons_of_pos (keeps char inScheme), readSchemeRest, if_neg notColon,
          if_pos inScheme, ih found]
        rfl
      · exact absurd read (by simp)

theorem readScheme_filter (colon : keep ':' = true)
    (keeps : ∀ char, isSchemeChar char = true → keep char = true)
    (read : readScheme text = some (scheme, rest)) :
    readScheme (text.filter keep) = some (scheme, rest.filter keep) := by
  cases text with
  | nil => exact absurd read (by simp [readScheme])
  | cons char tail =>
    rw [readScheme] at read
    split at read
    · rename_i isAlpha
      have inScheme : isSchemeChar char = true := by simp [isSchemeChar, Char.isAlphanum, isAlpha]
      have filtered := readSchemeRest_filter colon keeps read
      rw [List.filter_cons_of_pos (keeps char inScheme)] at filtered ⊢
      rw [readScheme, if_pos isAlpha, filtered]
    · exact absurd read (by simp)

end

theorem readScheme_slash {char : Char} (slash : isSlash char = true) (rest : Text) :
    readScheme (char :: rest) = none := by
  rw [isSlash, Bool.or_eq_true, beq_iff_eq, beq_iff_eq] at slash
  rcases slash with rfl | rfl <;> rfl

section

variable {authority : Authority} {page : Origin} {text : Text}

theorem relative_plain
    (plain : ∀ first second rest, text = first :: second :: rest →
      ¬(isSlash first = true ∧ isSlash second = true)) :
    relative authority page text = some ⟨page.scheme, some page⟩ := by
  unfold relative
  split
  · rename_i first second rest
    rw [if_neg]
    rw [Bool.and_eq_true]
    exact plain first second rest rfl
  · rfl

theorem relative_scheme {url : Url} (resolved : relative authority page text = some url) :
    url.scheme = page.scheme := by
  unfold relative at resolved
  split at resolved
  · split at resolved
    · obtain ⟨_, _, rfl⟩ := Option.map_eq_some_iff.mp resolved
      rfl
    · obtain rfl := Option.some.inj resolved
      rfl
  · obtain rfl := Option.some.inj resolved
    rfl

theorem resolve_scheme {scheme rest : Text} {url : Url}
    (read : readScheme (clean text) = some (scheme, rest))
    (resolved : resolve authority page text = some url) : url.scheme = scheme := by
  rw [resolve, read] at resolved
  dsimp only at resolved
  split at resolved
  · split at resolved
    · rename_i samePage
      rw [relative_scheme resolved, samePage.1]
    · obtain ⟨_, _, rfl⟩ := Option.map_eq_some_iff.mp resolved
      rfl
  · split at resolved
    · obtain ⟨_, _, rfl⟩ := Option.map_eq_some_iff.mp resolved
      rfl
    · obtain rfl := Option.some.inj resolved
      rfl

end

end UrlReference
