import Metidos.Library.JsNumerals

/-!
The messages of `src/bun/plugin/ingress.ts` and the image checks of `src/shared/chat-images.ts`.
-/

namespace Metidos.Ingress

open JsText

abbrev Text := List Char

def maxChatImageBytes : Nat := 10 * 1024 * 1024

def isChatImageByteSizeAllowed (byteSize : Nat) : Bool := byteSize ≤ maxChatImageBytes

def supportedChatImageMimeTypes : List Text :=
  ["image/gif".toList, "image/jpeg".toList, "image/png".toList, "image/webp".toList]

def normalizeChatImageMimeTypeAlias (mimeType : Text) : Text :=
  let normalized := toLowerCase (trim mimeType)
  if normalized = "image/jpg".toList then "image/jpeg".toList else normalized

def isSupportedChatImageMimeType (mimeType : Text) : Bool :=
  supportedChatImageMimeTypes.contains (normalizeChatImageMimeTypeAlias mimeType)

def estimateBase64ByteLength (data : Text) : Nat :=
  let normalized := trim data
  let padding :=
    if "==".toList.isSuffixOf normalized then 2
    else if "=".toList.isSuffixOf normalized then 1 else 0
  normalized.length * 3 / 4 - padding

def base64Value (char : Char) : Option Nat :=
  if 'A' ≤ char ∧ char ≤ 'Z' then some (char.toNat - 65)
  else if 'a' ≤ char ∧ char ≤ 'z' then some (char.toNat - 71)
  else if '0' ≤ char ∧ char ≤ '9' then some (char.toNat + 4)
  else if char = '+' then some 62
  else if char = '/' then some 63
  else none

def bytesOfSextets : List Nat → List Nat
  | first :: second :: third :: fourth :: rest =>
    (first * 4 + second / 16) :: (second % 16 * 16 + third / 4) ::
      (third % 4 * 64 + fourth) :: bytesOfSextets rest
  | [first, second, third] => [first * 4 + second / 16, second % 16 * 16 + third / 4]
  | [first, second] => [first * 4 + second / 16]
  | _ => []

def atob (text : Text) : Option (List Nat) :=
  let body :=
    if text.length % 4 ≠ 0 then text
    else if "==".toList.isSuffixOf text then text.dropLast.dropLast
    else if "=".toList.isSuffixOf text then text.dropLast else text
  if body.length % 4 = 1 then none else (body.mapM base64Value).map bytesOfSextets

/-- The regular expression test of `decodeBase64PrefixBytes`, at most two `=` and at the end. -/
def isBase64Text (text : Text) : Bool :=
  let padding := (text.reverse.takeWhile (· = '=')).length
  padding ≤ 2 && (text.take (text.length - padding)).all fun char => (base64Value char).isSome

def decodeBase64PrefixBytes (data : Text) (byteCount : Nat) : Option (List Nat) :=
  let normalized := trim data
  if normalized = [] ∨ normalized.length % 4 = 1 ∨ !isBase64Text normalized then none
  else atob (normalized.take ((byteCount + 2) / 3 * 4))

def bytesOfAscii (text : String) : List Nat := text.toList.map Char.toNat

def detectedChatImageMimeType (bytes : List Nat) : Option Text :=
  if [0x89, 0x50, 0x4e, 0x47, 0x0d, 0x0a, 0x1a, 0x0a].isPrefixOf bytes then
    some "image/png".toList
  else if [0xff, 0xd8, 0xff].isPrefixOf bytes then some "image/jpeg".toList
  else if bytes.take 6 = bytesOfAscii "GIF87a" ∨ bytes.take 6 = bytesOfAscii "GIF89a" then
    some "image/gif".toList
  else if bytes.take 4 = bytesOfAscii "RIFF" ∧ (bytes.drop 8).take 4 = bytesOfAscii "WEBP" then
    some "image/webp".toList
  else none

def normalizeChatImageMimeType (data mimeType : Text) : Except String Text :=
  let normalizedMimeType := normalizeChatImageMimeTypeAlias mimeType
  match decodeBase64PrefixBytes data 16 with
  | none => .error "Image data must be valid base64."
  | some bytes =>
    match detectedChatImageMimeType bytes with
    | none => .error "Image data does not match a supported image type."
    | some detectedMimeType =>
      if normalizedMimeType = [] then .ok detectedMimeType
      else if !isSupportedChatImageMimeType normalizedMimeType then
        .error "Only PNG, JPEG, GIF, and WebP images are supported."
      else if normalizedMimeType = detectedMimeType then .ok detectedMimeType
      else .error "Image data does not match the declared image type."

end Metidos.Ingress
