import Mathlib.Data.List.TakeWhile
import Metidos.Ingress.IngressMessages

/-!
The data URLs of `src/shared/chat-images.ts`, and when an accepted image is what it claims to be:
its padding has to fit its length, which only the first bytes are asked for.
-/

namespace Metidos.Ingress

open JsText

structure ChatImage where
  data : Text
  mimeType : Text
  byteSize : Nat
  src : Text
  deriving DecidableEq

def dataUrlOf (mimeType data : Text) : Text :=
  "data:".toList ++ (mimeType ++ (";base64,".toList ++ data))

def inMimeType (char : Char) : Bool := !(char = ';' || char = ',' || isWhiteSpace char)

/-- The match of `/^data:([^;,\s]+);base64,([A-Za-z0-9+\/=\s]+)$/u`: the first group ends at the
first character that it excludes. -/
def matchDataUrl (text : Text) : Option (Text × Text) :=
  let mimeType := (text.drop 5).takeWhile inMimeType
  let rest := (text.drop 5).dropWhile inMimeType
  let data := rest.drop 8
  if "data:".toList.isPrefixOf text ∧ mimeType ≠ [] ∧ ";base64,".toList.isPrefixOf rest ∧
      data ≠ [] ∧
      data.all (fun char => (base64Value char).isSome || char = '=' || isWhiteSpace char) then
    some (mimeType, data)
  else none

def parseChatImageDataUrl (src : Text) : Except String ChatImage :=
  match matchDataUrl (trim src) with
  | none => .error "Image data URL must use base64 image data."
  | some (declaredMimeType, matched) =>
    let data := matched.filter fun char => !isWhiteSpace char
    match normalizeChatImageMimeType data declaredMimeType with
    | .error error => .error error
    | .ok mimeType =>
      let byteSize := estimateBase64ByteLength data
      if isChatImageByteSizeAllowed byteSize then
        .ok { data, mimeType, byteSize, src := dataUrlOf mimeType data }
      else .error "Image data is too large."

def HasSignature (mimeType : Text) (bytes : List Nat) : Prop :=
  (mimeType = "image/png".toList ∧ [0x89, 0x50, 0x4e, 0x47, 0x0d, 0x0a, 0x1a, 0x0a] <+: bytes) ∨
  (mimeType = "image/jpeg".toList ∧ [0xff, 0xd8, 0xff] <+: bytes) ∨
  (mimeType = "image/gif".toList ∧
    (bytesOfAscii "GIF87a" <+: bytes ∨ bytesOfAscii "GIF89a" <+: bytes)) ∨
  (mimeType = "image/webp".toList ∧ bytesOfAscii "RIFF" <+: bytes ∧
    bytesOfAscii "WEBP" <+: bytes.drop 8)

def decodePadded (text : Text) : Option (List Nat) := if text.length % 4 = 0 then atob text else none

/-- What an accepted image claims, for a notion of decodable base 64. -/
def IsWhatItClaims (decode : Text → Option (List Nat)) (data mimeType : Text) : Prop :=
  (∃ bytes, decode (trim data) = some bytes ∧ HasSignature mimeType bytes ∧
    estimateBase64ByteLength data = bytes.length) ∧
  ∀ src image, parseChatImageDataUrl src = .ok image → image.data = trim data →
    parseChatImageDataUrl image.src = .ok image

theorem mapM_base64Value {digits : Text}
    (digital : ∀ char ∈ digits, (base64Value char).isSome = true) :
    digits.mapM base64Value = some (digits.map fun char => (base64Value char).getD 0) := by
  induction digits with
  | nil => rfl
  | cons char digits ih =>
    obtain ⟨value, isValue⟩ := Option.isSome_iff_exists.mp (digital char (by simp))
    have tail := ih fun other member => digital other (List.mem_cons_of_mem _ member)
    simp [List.mapM_cons, isValue, tail]

theorem length_bytesOfSextets (values : List Nat) :
    (bytesOfSextets values).length = values.length * 3 / 4 := by
  fun_induction bytesOfSextets values with
  | case1 first second third fourth rest ih =>
    simp only [List.length_cons, ih]
    omega
  | case2 => simp
  | case3 => simp
  | case4 values noFour noThree noTwo =>
    match values with
    | [] => simp
    | [_] => simp
    | [first, second] => exact absurd rfl (noTwo first second)
    | [first, second, third] => exact absurd rfl (noThree first second third)
    | first :: second :: third :: fourth :: rest =>
      exact absurd rfl (noFour first second third fourth rest)

theorem bytesOfSextets_take (groups : Nat) (values : List Nat) :
    bytesOfSextets (values.take (4 * groups)) <+: bytesOfSextets values := by
  induction groups generalizing values with
  | zero =>
    rw [Nat.mul_zero, List.take_zero]
    exact List.nil_prefix
  | succ groups ih =>
    match values with
    | [] => simp
    | [_] => simp [bytesOfSextets, Nat.mul_succ]
    | [_, _] => simp [Nat.mul_succ]
    | [_, _, _] => simp [Nat.mul_succ]
    | first :: second :: third :: fourth :: rest =>
      have four : 4 * (groups + 1) = 4 * groups + 1 + 1 + 1 + 1 := by omega
      simp only [four, List.take_succ_cons, bytesOfSextets, List.cons_prefix_cons, true_and]
      exact ih rest

theorem isBase64Text_split {text : Text} (accepted : isBase64Text text = true) :
    ∃ digits padding, text = digits ++ List.replicate padding '=' ∧ padding ≤ 2 ∧
      ∀ char ∈ digits, (base64Value char).isSome = true := by
  simp only [isBase64Text, Bool.and_eq_true, decide_eq_true_eq, List.all_eq_true] at accepted
  have ends : (text.reverse.takeWhile (· = '=')).reverse =
      List.replicate (text.reverse.takeWhile (· = '=')).length '=' := by
    refine List.eq_replicate_iff.mpr ⟨List.length_reverse, fun char member => ?_⟩
    simpa using List.mem_takeWhile_imp (List.mem_reverse.mp member)
  have joined : text = (text.reverse.dropWhile (· = '=')).reverse ++
      (text.reverse.takeWhile (· = '=')).reverse := by
    rw [← List.reverse_append, List.takeWhile_append_dropWhile, List.reverse_reverse]
  refine ⟨_, _, joined.trans (by rw [ends]), accepted.1, fun char member => accepted.2 char ?_⟩
  have start : text.take (text.length - (text.reverse.takeWhile (· = '=')).length) =
      (text.reverse.dropWhile (· = '=')).reverse := by
    conv_lhs => rw [joined]
    refine List.take_left' ?_
    rw [List.length_append, List.length_reverse, List.length_reverse]
    simp only [← joined]
    omega
  exact start ▸ member

variable {digits : Text} {padding : Nat}

theorem equals_notMem (digital : ∀ char ∈ digits, (base64Value char).isSome = true) :
    '=' ∉ digits := by
  intro member
  exact absurd (digital '=' member) (by decide)

theorem isSuffixOf_padding (plain : '=' ∉ digits) (few : padding ≤ 2) :
    ("==".toList.isSuffixOf (digits ++ List.replicate padding '=') = true ↔ padding = 2) ∧
      ("=".toList.isSuffixOf (digits ++ List.replicate padding '=') = true ↔ padding ≠ 0) := by
  rw [List.isSuffixOf_iff_suffix, List.isSuffixOf_iff_suffix]
  match padding, few with
  | 0, _ =>
    rw [List.replicate_zero, List.append_nil]
    refine ⟨⟨fun ends => ?_, by simp⟩, fun ends => ?_, by simp⟩
    · exact absurd (ends.subset (by simp)) plain
    · exact absurd (ends.subset (by simp)) plain
  | 1, _ =>
    refine ⟨⟨fun ends => ?_, by simp⟩, by simp, fun _ => ⟨digits, rfl⟩⟩
    obtain ⟨before, same⟩ := ends
    have shorter : before ++ ['='] = digits := by
      have joined : (before ++ ['=']) ++ ['='] = digits ++ ['='] := by
        rw [← List.replicate_one, ← same, List.append_assoc]
        rfl
      exact List.append_cancel_right joined
    exact absurd (shorter ▸ by simp) plain
  | 2, _ =>
    refine ⟨⟨fun _ => rfl, fun _ => ⟨digits, rfl⟩⟩, by simp, fun _ => ⟨digits ++ ['='], ?_⟩⟩
    rw [List.append_assoc]
    rfl

theorem atob_fits (digital : ∀ char ∈ digits, (base64Value char).isSome = true)
    (few : padding ≤ 2) (whole : (digits ++ List.replicate padding '=').length % 4 ≠ 1)
    (fits : padding = 0 ∨ (digits ++ List.replicate padding '=').length % 4 = 0) :
    atob (digits ++ List.replicate padding '=') =
      some (bytesOfSextets (digits.map fun char => (base64Value char).getD 0)) := by
  obtain ⟨two, one⟩ := isSuffixOf_padding (equals_notMem digital) few
  have body : (if (digits ++ List.replicate padding '=').length % 4 ≠ 0 then
        digits ++ List.replicate padding '='
      else if "==".toList.isSuffixOf (digits ++ List.replicate padding '=') then
        (digits ++ List.replicate padding '=').dropLast.dropLast
      else if "=".toList.isSuffixOf (digits ++ List.replicate padding '=') then
        (digits ++ List.replicate padding '=').dropLast
      else digits ++ List.replicate padding '=') = digits := by
    simp only [two, one]
    match padding, few, fits with
    | 0, _, _ => simp
    | 1, _, fits =>
      rw [if_neg (not_not.mpr (fits.resolve_left (by decide)))]
      simp
    | 2, _, fits =>
      have ended : digits ++ List.replicate 2 '=' = (digits ++ ['=']) ++ ['='] := by simp
      rw [if_neg (not_not.mpr (fits.resolve_left (by decide))), ended]
      simp only [if_true, List.dropLast_concat]
  have enough : digits.length % 4 ≠ 1 := by
    rw [List.length_append, List.length_replicate] at whole fits
    omega
  rw [atob, body, if_neg enough, mapM_base64Value digital, Option.map_some]

theorem mapM_base64Value_equals {text : Text} (member : '=' ∈ text) :
    text.mapM base64Value = none := by
  induction text with
  | nil => simp at member
  | cons char text ih =>
    rw [List.mapM_cons]
    rcases List.mem_cons.mp member with rfl | later
    · rfl
    · rw [ih later]
      cases base64Value char with
      | none => rfl
      | some value => rfl

theorem atob_misfit {text : Text} (member : '=' ∈ text) (misfit : text.length % 4 ≠ 0) :
    atob text = none := by
  simp only [atob, misfit, ne_eq, not_false_iff, if_true, mapM_base64Value_equals member,
    Option.map_none, ite_self]

theorem decodeBase64PrefixBytes_spec {data : Text} {bytes : List Nat}
    (accepted : decodeBase64PrefixBytes data 16 = some bytes) :
    ∃ digits padding, trim data = digits ++ List.replicate padding '=' ∧ padding ≤ 2 ∧
      (∀ char ∈ digits, (base64Value char).isSome = true) ∧ (trim data).length % 4 ≠ 1 ∧
      trim data ≠ [] ∧ atob ((trim data).take 24) = some bytes := by
  simp only [decodeBase64PrefixBytes, Bool.not_eq_true'] at accepted
  split at accepted
  · exact absurd accepted (by simp)
  · rename_i sound
    obtain ⟨present, sound⟩ := not_or.mp sound
    obtain ⟨whole, isText⟩ := not_or.mp sound
    obtain ⟨digits, padding, joined, few, digital⟩ :=
      isBase64Text_split (Bool.eq_true_of_not_eq_false isText)
    exact ⟨digits, padding, joined, few, digital, whole, present, accepted⟩

theorem atob_trim {data : Text} {bytes : List Nat}
    (accepted : decodeBase64PrefixBytes data 16 = some bytes)
    (fits : '=' ∉ trim data ∨ (trim data).length % 4 = 0) :
    ∃ whole, atob (trim data) = some whole ∧ bytes <+: whole ∧
      estimateBase64ByteLength data = whole.length := by
  obtain ⟨digits, padding, joined, few, digital, whole, present, looked⟩ :=
    decodeBase64PrefixBytes_spec accepted
  have size : (trim data).length = digits.length + padding := by
    rw [joined, List.length_append, List.length_replicate]
  have padded : padding = 0 ∨ (trim data).length % 4 = 0 := by
    refine fits.imp_left fun plain => ?_
    by_contra some
    refine plain (joined ▸ List.mem_append_right _ ?_)
    exact List.mem_replicate.mpr ⟨some, rfl⟩
  have decoded : atob (trim data) =
      some (bytesOfSextets (digits.map fun char => (base64Value char).getD 0)) := by
    rw [joined] at whole padded ⊢
    exact atob_fits digital few whole padded
  refine ⟨_, decoded, ?_, ?_⟩
  · by_cases short : (trim data).length ≤ 24
    · rw [List.take_of_length_le short, decoded] at looked
      exact Option.some.inj looked ▸ List.prefix_rfl
    · have enough : 24 ≤ digits.length := by omega
      have first : (trim data).take 24 = digits.take 24 := by
        rw [joined, List.take_append_of_le_length enough]
      have plain := @atob_fits (digits.take 24) 0
        (fun char member => digital char (List.mem_of_mem_take member)) (by decide)
      simp only [List.replicate_zero, List.append_nil, List.length_take, Nat.min_eq_left enough,
        List.map_take] at plain
      rw [first, plain (by decide) (Or.inl trivial)] at looked
      exact Option.some.inj looked ▸ bytesOfSextets_take 6 _
  · obtain ⟨two, one⟩ := isSuffixOf_padding (equals_notMem digital) few
    rw [← joined] at two one
    simp only [estimateBase64ByteLength, two, one, size, length_bytesOfSextets, List.length_map]
    rw [size] at padded whole
    split
    · omega
    · split <;> omega

theorem hasSignature_of_detected {bytes whole : List Nat} {mimeType : Text}
    (detected : detectedChatImageMimeType bytes = some mimeType) (start : bytes <+: whole) :
    HasSignature mimeType whole := by
  obtain ⟨more, rfl⟩ := start
  have taken : ∀ (count : Nat) (mark bytes : List Nat), bytes.take count = mark →
      mark <+: bytes := fun count mark bytes same => same ▸ List.take_prefix count bytes
  have further : ∀ mark : List Nat, mark <+: bytes → mark <+: bytes ++ more :=
    fun mark found => found.trans (List.prefix_append _ _)
  unfold detectedChatImageMimeType at detected
  split at detected
  · rename_i found
    exact Or.inl ⟨(Option.some.inj detected).symm, further _ (List.isPrefixOf_iff_prefix.mp found)⟩
  · split at detected
    · rename_i found
      exact Or.inr (Or.inl
        ⟨(Option.some.inj detected).symm, further _ (List.isPrefixOf_iff_prefix.mp found)⟩)
    · split at detected
      · rename_i found
        refine Or.inr (Or.inr (Or.inl ⟨(Option.some.inj detected).symm, ?_⟩))
        exact found.imp (fun same => further _ (taken 6 _ _ same))
          fun same => further _ (taken 6 _ _ same)
      · split at detected
        · rename_i found
          obtain ⟨riff, webp⟩ := found
          refine Or.inr (Or.inr (Or.inr ⟨(Option.some.inj detected).symm,
            further _ (taken 4 _ _ riff), ?_⟩))
          have inside : bytesOfAscii "WEBP" <+: bytes.drop 8 := taken 4 _ _ webp
          rw [List.drop_append]
          exact inside.trans (List.prefix_append _ _)
        · exact absurd detected (by simp)

theorem normalizeChatImageMimeType_ok {data declared mimeType : Text}
    (accepted : normalizeChatImageMimeType data declared = .ok mimeType) :
    ∃ bytes, decodeBase64PrefixBytes data 16 = some bytes ∧
      detectedChatImageMimeType bytes = some mimeType := by
  unfold normalizeChatImageMimeType at accepted
  dsimp only at accepted
  split at accepted
  · exact absurd accepted (by simp)
  · rename_i bytes decoded
    split at accepted
    · exact absurd accepted (by simp)
    · rename_i detected found
      refine ⟨bytes, decoded, found.trans ?_⟩
      split at accepted
      · exact congrArg some (Except.ok.inj accepted)
      · split at accepted
        · exact absurd accepted (by simp)
        · split at accepted
          · exact congrArg some (Except.ok.inj accepted)
          · exact absurd accepted (by simp)

theorem detected_supported {bytes : List Nat} {mimeType : Text}
    (detected : detectedChatImageMimeType bytes = some mimeType) :
    mimeType ∈ supportedChatImageMimeTypes := by
  unfold detectedChatImageMimeType at detected
  split at detected
  · exact Option.some.inj detected ▸ by decide
  · split at detected
    · exact Option.some.inj detected ▸ by decide
    · split at detected
      · exact Option.some.inj detected ▸ by decide
      · split at detected
        · exact Option.some.inj detected ▸ by decide
        · exact absurd detected (by simp)

theorem supported_plain : ∀ mimeType ∈ supportedChatImageMimeTypes,
    normalizeChatImageMimeTypeAlias mimeType = mimeType ∧
      isSupportedChatImageMimeType mimeType = true ∧ mimeType ≠ [] ∧
      mimeType.all inMimeType = true := by
  decide

theorem normalizeChatImageMimeType_again {data declared mimeType : Text}
    (accepted : normalizeChatImageMimeType data declared = .ok mimeType) :
    normalizeChatImageMimeType data mimeType = .ok mimeType := by
  obtain ⟨bytes, decoded, detected⟩ := normalizeChatImageMimeType_ok accepted
  obtain ⟨plain, supported, -, -⟩ := supported_plain mimeType (detected_supported detected)
  simp only [normalizeChatImageMimeType, decoded, detected, plain, supported, Bool.not_true,
    Bool.false_eq_true, if_false, if_true, ite_self]

theorem matchDataUrl_dataUrlOf {mimeType data : Text}
    (supported : mimeType ∈ supportedChatImageMimeTypes) (present : data ≠ [])
    (digital : ∀ char ∈ data, ((base64Value char).isSome || char = '=' || isWhiteSpace char) = true) :
    matchDataUrl (dataUrlOf mimeType data) = some (mimeType, data) := by
  obtain ⟨-, -, named, plain⟩ := supported_plain mimeType supported
  have inside : (dataUrlOf mimeType data).drop 5 = mimeType ++ (";base64,".toList ++ data) := rfl
  have stops : (";base64,".toList ++ data).takeWhile inMimeType = [] := rfl
  have stays : (";base64,".toList ++ data).dropWhile inMimeType = ";base64,".toList ++ data := rfl
  have first : (mimeType ++ (";base64,".toList ++ data)).takeWhile inMimeType = mimeType := by
    rw [List.takeWhile_append_of_pos (List.all_eq_true.mp plain), stops, List.append_nil]
  have rest : (mimeType ++ (";base64,".toList ++ data)).dropWhile inMimeType =
      ";base64,".toList ++ data := by
    rw [List.dropWhile_append_of_pos (List.all_eq_true.mp plain), stays]
  have opened : "data:".toList.isPrefixOf (dataUrlOf mimeType data) = true :=
    List.isPrefixOf_iff_prefix.mpr (List.prefix_append _ _)
  have marked : ";base64,".toList.isPrefixOf (";base64,".toList ++ data) = true :=
    List.isPrefixOf_iff_prefix.mpr (List.prefix_append _ _)
  have after : (";base64,".toList ++ data).drop 8 = data := rfl
  unfold matchDataUrl
  rw [inside, first, rest]
  dsimp only
  rw [after, if_pos]
  exact ⟨opened, named, marked, present, List.all_eq_true.mpr digital⟩

theorem matchDataUrl_data {text declared data : Text}
    (matched : matchDataUrl text = some (declared, data)) :
    ∀ char ∈ data, ((base64Value char).isSome || char = '=' || isWhiteSpace char) = true := by
  unfold matchDataUrl at matched
  dsimp only at matched
  split at matched
  · rename_i fits
    obtain ⟨-, rfl⟩ := Prod.mk.inj (Option.some.inj matched)
    exact List.all_eq_true.mp fits.2.2.2.2
  · exact absurd matched (by simp)

theorem trim_dataUrlOf {mimeType data : Text} (present : data ≠ [])
    (solid : ∀ char ∈ data, isWhiteSpace char = false) :
    trim (dataUrlOf mimeType data) = dataUrlOf mimeType data := by
  apply trim_eq_self
  · intro char first
    obtain rfl : 'd' = char := Option.some.inj first
    decide
  · intro char last
    refine solid char (List.mem_of_mem_getLast? ?_)
    rw [dataUrlOf, ← List.append_assoc, ← List.append_assoc, List.getLast?_append] at last
    rw [List.getLast?_eq_some_getLast present] at last ⊢
    exact last

theorem parseChatImageDataUrl_src {src : Text} {image : ChatImage}
    (parsed : parseChatImageDataUrl src = .ok image) :
    parseChatImageDataUrl image.src = .ok image := by
  unfold parseChatImageDataUrl at parsed
  split at parsed
  · exact absurd parsed (by simp)
  · rename_i declared matched found
    dsimp only at parsed
    split at parsed
    · exact absurd parsed (by simp)
    · rename_i mimeType accepted
      split at parsed
      · rename_i allowed
        obtain rfl := Except.ok.inj parsed
        generalize isData : (matched.filter fun char => !isWhiteSpace char) = data at *
        have solid : ∀ char ∈ data, isWhiteSpace char = false := by
          intro char member
          rw [← isData] at member
          simpa using (List.mem_filter.mp member).2
        have digital : ∀ char ∈ data,
            ((base64Value char).isSome || char = '=' || isWhiteSpace char) = true := by
          intro char member
          rw [← isData] at member
          exact matchDataUrl_data found char (List.mem_filter.mp member).1
        obtain ⟨bytes, decoded, detected⟩ := normalizeChatImageMimeType_ok accepted
        have present : data ≠ [] := by
          rintro rfl
          cases decoded
        have again : data.filter (fun char => !isWhiteSpace char) = data := by
          rw [List.filter_eq_self]
          intro char member
          rw [solid char member]
          rfl
        rw [parseChatImageDataUrl]
        simp only [trim_dataUrlOf present solid,
          matchDataUrl_dataUrlOf (detected_supported detected) present digital, again,
          normalizeChatImageMimeType_again accepted, allowed, if_true]
      · exact absurd parsed (by simp)

/-- Of an accepted image everything that it claims holds exactly when its padding fits its length:
for the decoder of the platform, which needs none, and for one that does. -/
theorem chatImage_isWhatItClaims_iff {data declared mimeType : Text}
    (accepted : normalizeChatImageMimeType data declared = .ok mimeType) :
    (IsWhatItClaims atob data mimeType ↔ '=' ∉ trim data ∨ (trim data).length % 4 = 0) ∧
      (IsWhatItClaims decodePadded data mimeType ↔ (trim data).length % 4 = 0) := by
  obtain ⟨bytes, decoded, detected⟩ := normalizeChatImageMimeType_ok accepted
  have claims : ∀ decode : Text → Option (List Nat), decode (trim data) = atob (trim data) →
      '=' ∉ trim data ∨ (trim data).length % 4 = 0 → IsWhatItClaims decode data mimeType := by
    intro decode same fits
    obtain ⟨whole, isWhole, start, size⟩ := atob_trim decoded fits
    exact ⟨⟨whole, same.trans isWhole, hasSignature_of_detected detected start, size⟩,
      fun _ _ parsed _ => parseChatImageDataUrl_src parsed⟩
  refine ⟨⟨?_, claims atob rfl⟩, ?_, fun fits => claims decodePadded (if_pos fits) (Or.inr fits)⟩
  · rintro ⟨⟨whole, isWhole, -⟩, -⟩
    by_contra misfit
    obtain ⟨padded, misfit⟩ := not_or.mp misfit
    rw [atob_misfit (not_not.mp padded) misfit] at isWhole
    exact absurd isWhole (by simp)
  · rintro ⟨⟨whole, isWhole, -⟩, -⟩
    by_contra misfit
    rw [decodePadded, if_neg misfit] at isWhole
    exact absurd isWhole (by simp)

def pngDigits : Text := "iVBORw0KGgoAAAAAAAAAAAAA".toList

theorem chatImage_isWhatItClaims_png : normalizeChatImageMimeType pngDigits [] =
      .ok "image/png".toList ∧ IsWhatItClaims atob pngDigits "image/png".toList := by
  have accepted : normalizeChatImageMimeType pngDigits [] = .ok "image/png".toList := by decide
  exact ⟨accepted, (chatImage_isWhatItClaims_iff accepted).1.mpr (Or.inr (by decide))⟩

/-- One more digit and one `=` are accepted, and no decoder takes the whole. -/
theorem chatImage_accepted_undecodable : ∃ data mimeType,
    normalizeChatImageMimeType data "image/png".toList = .ok mimeType ∧
      ¬IsWhatItClaims atob data mimeType ∧ ¬IsWhatItClaims decodePadded data mimeType := by
  refine ⟨pngDigits ++ "A=".toList, "image/png".toList, by decide, ?_, ?_⟩
  · rintro ⟨⟨whole, isWhole, -⟩, -⟩
    exact absurd isWhole (by rw [show atob (trim (pngDigits ++ "A=".toList)) = none by decide]; simp)
  · rintro ⟨⟨whole, isWhole, -⟩, -⟩
    exact absurd isWhole
      (by rw [show decodePadded (trim (pngDigits ++ "A=".toList)) = none by decide]; simp)

end Metidos.Ingress
