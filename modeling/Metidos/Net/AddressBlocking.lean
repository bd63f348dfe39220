import Metidos.Net.AddressText

/-!
What the block decision on an IPv6 address depends on: every spelling of an address is read as
its hextets, and the verdict is a function of these.
-/

namespace Metidos.Net

open JsText

def Spelling (address : BitVec 128) (spelling : List Char) : Prop :=
  ∃ text, TextForm true (hextets address) text ∧
    (spelling = text ∨ spelling = '[' :: (text ++ [']']))

/-- What `node:net` documents of `isIP` on the texts of addresses. -/
structure DocumentedIsIP (isIP : List Char → Nat) : Prop where
  ipv6 : ∀ {address : BitVec 128} {text : List Char},
    TextForm true (hextets address) text → isIP text = 6
  ipv4 : ∀ {high low : Nat}, high < 65536 → low < 65536 → isIP (dottedText high low) = 4

theorem TextForm.no_bracket {dotted : Bool} {values : List Nat} {text : List Char}
    (written : TextForm dotted values text) : text.head? ≠ some '[' := by
  intro first
  rcases written.chars '[' (List.mem_of_mem_head? (by rw [first]; rfl)) with digit | same | same
  · exact absurd digit (by decide)
  · exact absurd same (by decide)
  · exact absurd same (by decide)

theorem normalizeIpHost_brackets (text : List Char) :
    normalizeIpHost ('[' :: (text ++ [']'])) = text := by
  have last : ('[' :: (text ++ [']'])).getLast? = some ']' := by
    rw [← List.cons_append, List.getLast?_append]
    rfl
  simp [normalizeIpHost, last]

theorem normalizeIpHost_plain {text : List Char} (plain : text.head? ≠ some '[') :
    normalizeIpHost text = text := by
  simp [normalizeIpHost, plain]

theorem Spelling.normalize {address : BitVec 128} {spelling : List Char}
    (spelled : Spelling address spelling) :
    TextForm true (hextets address) (normalizeIpHost spelling) := by
  obtain ⟨text, written, rfl | rfl⟩ := spelled
  · rw [normalizeIpHost_plain written.no_bracket]
    exact written
  · rw [normalizeIpHost_brackets]
    exact written

theorem Spelling.lower {address : BitVec 128} {spelling : List Char}
    (spelled : Spelling address spelling) : Spelling address (toLowerCase spelling) := by
  obtain ⟨text, written, rfl | rfl⟩ := spelled
  · exact ⟨toLowerCase _, textForm_toLowerCase.mpr written, Or.inl rfl⟩
  · refine ⟨toLowerCase text, textForm_toLowerCase.mpr written, Or.inr ?_⟩
    have opening : lowerCaseOf '[' = ['['] := rfl
    have closing : lowerCaseOf ']' = [']'] := rfl
    simp [toLowerCase, opening, closing]

theorem parseIpv6Hextets_form {address : BitVec 128} {text : List Char}
    (written : TextForm true (hextets address) text) :
    parseIpv6Hextets text = some (hextets address) :=
  parseIpv6Hextets_iff.mpr ⟨hextets_length address, written⟩

theorem parseIpv6Hextets_no_form {text : List Char}
    (absent : ∀ address, ¬ TextForm true (hextets address) text) :
    parseIpv6Hextets text = none := by
  cases read : parseIpv6Hextets text with
  | none => rfl
  | some values =>
    obtain ⟨eight, written⟩ := parseIpv6Hextets_iff.mp read
    obtain ⟨address, rfl⟩ := hextets_surjective eight written.bounds
    exact absurd written (absent address)

theorem isBlockedOutboundAddress_ipv6 {isIP : List Char → Nat} (documented : DocumentedIsIP isIP)
    {address : BitVec 128} {spelling : List Char} (spelled : Spelling address spelling) :
    isBlockedOutboundAddress isIP spelling = isBlockedHextets (hextets address) := by
  have written := spelled.lower.normalize
  have version := documented.ipv6 written
  have read := parseIpv6Hextets_form written
  simp [isBlockedOutboundAddress, version, isBlockedIpv6, read, hextets_length]

theorem dottedText_lower (high low : Nat) :
    toLowerCase (dottedText high low) = dottedText high low := by
  have single : ∀ char ∈ dottedText high low, lowerCaseOf char = [char] := by
    intro char member
    have below : char.toNat < 65 := by
      rcases mem_dottedText member with rfl | digit
      · decide
      · have range := digit_code digit
        omega
    unfold lowerCaseOf
    split
    · omega
    · omega
    · have fixed : char.toLower = char := by
        apply Char.toNat_inj.mp
        rw [toLower_toNat, if_neg (by omega)]
      rw [fixed]
  rw [toLowerCase, List.flatMap_congr single, List.flatMap_singleton']

theorem dottedText_no_bracket (high low : Nat) : (dottedText high low).head? ≠ some '[' := by
  intro first
  rcases mem_dottedText (List.mem_of_mem_head? (by rw [first]; rfl)) with same | digit
  · exact absurd same (by decide)
  · exact absurd digit (by decide)

theorem isBlockedOutboundAddress_ipv4 {isIP : List Char → Nat} (documented : DocumentedIsIP isIP)
    {high low : Nat} (highBound : high < 65536) (lowBound : low < 65536) :
    isBlockedOutboundAddress isIP (dottedText high low) = isBlockedIpv4 (dottedText high low) := by
  have version := documented.ipv4 highBound lowBound
  simp [isBlockedOutboundAddress, dottedText_lower,
    normalizeIpHost_plain (dottedText_no_bracket high low), version]

theorem ipv4FromHextets_eq (front : List Nat) (six : front.length = 6) (high low : Nat) :
    ipv4FromHextets (front ++ [high, low]) = dottedText high low := by
  have first : (front ++ [high, low]).getD 6 0 = high := by
    simp [List.getD_eq_getElem?_getD, six]
  have second : (front ++ [high, low]).getD 7 0 = low := by
    simp [List.getD_eq_getElem?_getD, six]
  have shift : ∀ value : Nat, value >>> 8 = value / 256 := fun value =>
    Nat.shiftRight_eq_div_pow value 8
  have mask : ∀ value : Nat, value &&& 0xff = value % 256 := fun value =>
    Nat.and_two_pow_sub_one_eq_mod value 8
  simp only [ipv4FromHextets, first, second, shift, mask, dottedText]

theorem isBlockedIpv4_low {low : Nat} (bound : low < 65536) :
    isBlockedIpv4 (dottedText 0 low) = true := by
  simp [isBlockedIpv4, parseIpv4Address_dotted (by decide : 0 < 65536) bound]

theorem isBlockedHextets_mapped (high low : Nat) :
    isBlockedHextets [0, 0, 0, 0, 0, 0xffff, high, low] = isBlockedIpv4 (dottedText high low) := by
  have embedded := ipv4FromHextets_eq [0, 0, 0, 0, 0, 0xffff] rfl high low
  rw [List.cons_append, List.cons_append, List.cons_append, List.cons_append, List.cons_append,
    List.cons_append, List.nil_append] at embedded
  simp [isBlockedHextets, embedded]

theorem isBlockedHextets_compatible {high low : Nat} (lowBound : low < 65536) :
    isBlockedHextets [0, 0, 0, 0, 0, 0, high, low] = isBlockedIpv4 (dottedText high low) := by
  have embedded := ipv4FromHextets_eq [0, 0, 0, 0, 0, 0] rfl high low
  rw [List.cons_append, List.cons_append, List.cons_append, List.cons_append, List.cons_append,
    List.cons_append, List.nil_append] at embedded
  by_cases none : high = 0
  · subst none
    simp [isBlockedHextets, embedded, isBlockedIpv4_low lowBound]
  · simp [isBlockedHextets, embedded, none]

theorem brackets_not_read :
    ¬ ∀ (address : BitVec 128) (spelling : List Char), Spelling address spelling →
      parseIpv6Hextets spelling = some (hextets address) := by
  intro every
  have piece : PiecesText true [1] ['1'] := PiecesText.piece (by decide)
  have loopback : TextForm true (hextets 1) ([] ++ ':' :: ':' :: ['1']) :=
    TextForm.compressed (by decide : 0 < 7) (by decide) (Or.inl ⟨rfl, rfl⟩) (Or.inr piece)
  have read := every 1 _ ⟨_, loopback, Or.inr rfl⟩
  exact absurd read (by decide +kernel)

theorem blocking_by_address (isIP : List Char → Nat) (documented : DocumentedIsIP isIP) :
    (∀ (address : BitVec 128) (text : List Char), TextForm true (hextets address) text →
      parseIpv6Hextets text = some (hextets address)) ∧
    (∀ text : List Char, (∀ address, ¬ TextForm true (hextets address) text) →
      parseIpv6Hextets text = none) ∧
    (∀ (address : BitVec 128) (spelling : List Char), Spelling address spelling →
      parseIpv6Hextets (normalizeIpHost spelling) = some (hextets address)) ∧
    (∀ (address : BitVec 128) (spelling other : List Char), Spelling address spelling →
      Spelling address other →
        isBlockedOutboundAddress isIP spelling = isBlockedOutboundAddress isIP other) ∧
    (∀ (address : BitVec 128) (spelling : List Char) (high low : Nat),
      Spelling address spelling → high < 65536 → low < 65536 →
      (hextets address = [0, 0, 0, 0, 0, 0xffff, high, low] ∨
        hextets address = [0, 0, 0, 0, 0, 0, high, low]) →
      isBlockedOutboundAddress isIP spelling =
        isBlockedOutboundAddress isIP (dottedText high low)) := by
  refine ⟨fun address text => parseIpv6Hextets_form, fun text => parseIpv6Hextets_no_form,
    ?_, ?_, ?_⟩
  · intro address spelling spelled
    exact parseIpv6Hextets_form spelled.normalize
  · intro address spelling other spelled otherSpelled
    rw [isBlockedOutboundAddress_ipv6 documented spelled,
      isBlockedOutboundAddress_ipv6 documented otherSpelled]
  · intro address spelling high low spelled highBound lowBound embeds
    rw [isBlockedOutboundAddress_ipv6 documented spelled,
      isBlockedOutboundAddress_ipv4 documented highBound lowBound]
    rcases embeds with mapped | compatible
    · rw [mapped, isBlockedHextets_mapped]
    · rw [compatible, isBlockedHextets_compatible lowBound]

def sampleIsIP (text : List Char) : Nat :=
  if (parseIpv6Hextets text).isSome then 6 else if (parseIpv4Address text).isSome then 4 else 0

theorem sampleIsIP_documented : DocumentedIsIP sampleIsIP where
  ipv6 written := by simp [sampleIsIP, parseIpv6Hextets_form written]
  ipv4 := by
    intro high low highBound lowBound
    have unread : parseIpv6Hextets (dottedText high low) = none := by
      apply parseIpv6Hextets_no_form
      intro address written
      have alone := dottedText_no_colon high low
      generalize equal : hextets address = values at written
      have eight : values.length = 8 := by
        rw [← equal]
        rfl
      generalize dottedText high low = text at written alone
      cases written with
      | full written =>
        cases written with
        | piece => simp at eight
        | quad => simp at eight
        | cons => simp at alone
      | compressed => simp at alone
    simp [sampleIsIP, unread, parseIpv4Address_dotted highBound lowBound]

theorem blocking_by_address_one :
    isBlockedOutboundAddress sampleIsIP "[::FFFF:10.0.0.1]".toList =
      isBlockedOutboundAddress sampleIsIP "10.0.0.1".toList := by
  have quad : PiecesText true [0xffff, 2560, 1] ("FFFF".toList ++ ':' :: dottedText 2560 1) :=
    PiecesText.cons (by decide) (PiecesText.quad rfl (by decide) (by decide))
  have mapped : TextForm true (hextets 0xffff0a000001)
      ([] ++ ':' :: ':' :: ("FFFF".toList ++ ':' :: dottedText 2560 1)) :=
    TextForm.compressed (by decide : 0 < 5) (by decide) (Or.inl ⟨rfl, rfl⟩) (Or.inr quad)
  have decision := (blocking_by_address sampleIsIP sampleIsIP_documented).2.2.2.2 0xffff0a000001
    "[::FFFF:10.0.0.1]".toList 2560 1 ⟨_, mapped, Or.inr (by decide +kernel)⟩ (by decide)
    (by decide) (Or.inl (by decide))
  have same : dottedText 2560 1 = "10.0.0.1".toList := by decide +kernel
  rw [same] at decision
  exact decision

end Metidos.Net

/-!
The metadata check of the private-network mode, and which of the IPv6 addresses that embed an
IPv4 address it decodes.
-/

namespace Metidos.Net

open JsText

def isListedMetadata (ipHost : List Char) : Bool :=
  ipHost == "100.100.100.200".toList || ipHost == "169.254.169.254".toList ||
    ipHost == "169.254.170.2".toList

def isMappedHextets (hextets : List Nat) : Bool :=
  (hextets.take 5).all (· == 0) && hextets[5]? == some 0xffff

def isMetadataHextets (hextets : List Nat) : Bool :=
  hextets[0]? == some 0xfd00 && hextets[1]? == some 0x0ec2 &&
    ((hextets.take 7).drop 2).all (· == 0) && hextets[7]? == some 0x0254

/-- The check calls itself on the dotted text of a mapped address; no answer means that the calls
are nested deeper than the given depth. -/
@[grind =] def isBlockedPrivateNetworkMetadataAddress (isIP : List Char → Nat) :
    Nat → List Char → Option Bool
  | 0, _ => none
  | depth + 1, address =>
    let ipHost := normalizeIpHost (toLowerCase address)
    let ipVersion := isIP ipHost
    if ipVersion = 4 then some (isListedMetadata ipHost)
    else if ipVersion ≠ 6 then some true
    else
      match parseIpv6Hextets ipHost with
      | none => some true
      | some hextets =>
        if hextets.length ≠ 8 then some true
        else if isMappedHextets hextets then
          isBlockedPrivateNetworkMetadataAddress isIP depth (ipv4FromHextets hextets)
        else some (isMetadataHextets hextets)

/-- The forms in which the safe mode recognises an embedded IPv4 address. -/
inductive Ipv4Embedding
  | mapped
  | compatible
  | sixToFour (rest : Fin 5 → Fin 65536)
  | nat64 (middle : Fin 4 → Fin 65536)

def Ipv4Embedding.hextets (high low : Nat) : Ipv4Embedding → List Nat
  | mapped => [0, 0, 0, 0, 0, 0xffff, high, low]
  | compatible => [0, 0, 0, 0, 0, 0, high, low]
  | sixToFour rest => [0x2002, high, low, rest 0, rest 1, rest 2, rest 3, rest 4]
  | nat64 middle => [0x64, 0xff9b, middle 0, middle 1, middle 2, middle 3, high, low]

def Ipv4Embedding.isMapped : Ipv4Embedding → Bool
  | mapped => true
  | _ => false

variable {isIP : List Char → Nat} {high low : Nat}

theorem metadata_dotted (documented : DocumentedIsIP isIP) (highBound : high < 65536)
    (lowBound : low < 65536) (depth : Nat) :
    isBlockedPrivateNetworkMetadataAddress isIP (depth + 1) (dottedText high low) =
      some (isListedMetadata (dottedText high low)) := by
  have version := documented.ipv4 highBound lowBound
  simp [isBlockedPrivateNetworkMetadataAddress, dottedText_lower,
    normalizeIpHost_plain (dottedText_no_bracket high low), version]

theorem metadata_ipv6 (documented : DocumentedIsIP isIP) {address : BitVec 128}
    {spelling : List Char} (spelled : Spelling address spelling) (depth : Nat) :
    isBlockedPrivateNetworkMetadataAddress isIP (depth + 1) spelling =
      if isMappedHextets (hextets address) then
        isBlockedPrivateNetworkMetadataAddress isIP depth (ipv4FromHextets (hextets address))
      else some (isMetadataHextets (hextets address)) := by
  have written := spelled.lower.normalize
  have version := documented.ipv6 written
  have read := parseIpv6Hextets_form written
  rw [isBlockedPrivateNetworkMetadataAddress]
  simp [version, read, hextets_length]

theorem metadata_embedded (documented : DocumentedIsIP isIP) {embedding : Ipv4Embedding}
    {address : BitVec 128} {spelling : List Char} (spelled : Spelling address spelling)
    (embeds : hextets address = embedding.hextets high low) (highBound : high < 65536)
    (lowBound : low < 65536) (depth : Nat) :
    isBlockedPrivateNetworkMetadataAddress isIP (depth + 2) spelling =
      some (embedding.isMapped && isListedMetadata (dottedText high low)) := by
  rw [metadata_ipv6 documented spelled, embeds]
  cases embedding with
  | mapped =>
    have dotted := ipv4FromHextets_eq [0, 0, 0, 0, 0, 0xffff] rfl high low
    have mapped : isMappedHextets (Ipv4Embedding.mapped.hextets high low) = true := rfl
    rw [if_pos mapped]
    have inner : ipv4FromHextets (Ipv4Embedding.mapped.hextets high low) = dottedText high low :=
      dotted
    rw [inner, metadata_dotted documented highBound lowBound, Ipv4Embedding.isMapped,
      Bool.true_and]
  | compatible =>
    simp [Ipv4Embedding.hextets, isMappedHextets, isMetadataHextets, Ipv4Embedding.isMapped]
  | sixToFour rest =>
    simp [Ipv4Embedding.hextets, isMappedHextets, isMetadataHextets, Ipv4Embedding.isMapped]
  | nat64 middle =>
    simp [Ipv4Embedding.hextets, isMappedHextets, isMetadataHextets, Ipv4Embedding.isMapped]

/-- The private-network mode blocks an IPv6 address whenever it blocks the embedded IPv4 address if
and only if the address is mapped or the IPv4 address is not on the list. -/
theorem metadata_blocked_with_embedded (isIP : List Char → Nat)
    (documented : DocumentedIsIP isIP) (embedding : Ipv4Embedding) (address : BitVec 128)
    (spelling : List Char) (high low depth : Nat) (spelled : Spelling address spelling)
    (embeds : hextets address = embedding.hextets high low) (highBound : high < 65536)
    (lowBound : low < 65536) :
    (isBlockedPrivateNetworkMetadataAddress isIP (depth + 2) (dottedText high low) = some true →
      isBlockedPrivateNetworkMetadataAddress isIP (depth + 2) spelling = some true) ↔
    embedding = .mapped ∨ isListedMetadata (dottedText high low) = false := by
  rw [metadata_dotted documented highBound lowBound,
    metadata_embedded documented spelled embeds highBound lowBound]
  cases isListedMetadata (dottedText high low) with
  | false => simp
  | true => cases embedding <;> simp [Ipv4Embedding.isMapped]

theorem compatible_metadata_spelling :
    Spelling 0xa9fea9fe ("::".toList ++ dottedText 0xa9fe 0xa9fe) := by
  have quad : PiecesText true [0xa9fe, 0xa9fe] (dottedText 0xa9fe 0xa9fe) :=
    PiecesText.quad rfl (by decide) (by decide)
  have compressed : TextForm true (hextets 0xa9fea9fe)
      ([] ++ ':' :: ':' :: dottedText 0xa9fe 0xa9fe) :=
    TextForm.compressed (by decide : 0 < 6) (by decide) (Or.inl ⟨rfl, rfl⟩) (Or.inr quad)
  exact ⟨_, compressed, Or.inl rfl⟩

theorem metadata_blocked_with_embedded_compatible :
    ¬(isBlockedPrivateNetworkMetadataAddress sampleIsIP 2 "169.254.169.254".toList = some true →
      isBlockedPrivateNetworkMetadataAddress sampleIsIP 2 "::169.254.169.254".toList =
        some true) := by
  have dotted : dottedText 0xa9fe 0xa9fe = "169.254.169.254".toList := by decide +kernel
  have decision := metadata_blocked_with_embedded sampleIsIP sampleIsIP_documented .compatible
    0xa9fea9fe _ 0xa9fe 0xa9fe 0 compatible_metadata_spelling (by decide) (by decide) (by decide)
  rw [dotted] at decision
  intro blocked
  rcases decision.mp blocked with mapped | unlisted
  · cases mapped
  · exact absurd unlisted (by decide)

theorem not_metadata_blocked_with_embedded : ¬∀ (isIP : List Char → Nat), DocumentedIsIP isIP →
    ∀ (embedding : Ipv4Embedding) (address : BitVec 128) (spelling : List Char)
      (high low depth : Nat), Spelling address spelling →
      hextets address = embedding.hextets high low → high < 65536 → low < 65536 →
        isBlockedPrivateNetworkMetadataAddress isIP (depth + 2) (dottedText high low) =
          some true →
        isBlockedPrivateNetworkMetadataAddress isIP (depth + 2) spelling = some true := by
  intro blocks
  have embeds : hextets 0xa9fea9fe = Ipv4Embedding.compatible.hextets 0xa9fe 0xa9fe := by decide
  have dotted : isBlockedPrivateNetworkMetadataAddress sampleIsIP 2 (dottedText 0xa9fe 0xa9fe) =
      some true := by
    rw [metadata_dotted sampleIsIP_documented (by decide) (by decide)]
    decide +kernel
  have blocked := blocks sampleIsIP sampleIsIP_documented .compatible 0xa9fea9fe _ 0xa9fe 0xa9fe 0
    compatible_metadata_spelling embeds (by decide) (by decide) dotted
  have passed := metadata_embedded sampleIsIP_documented compatible_metadata_spelling embeds
    (by decide) (by decide) 0
  rw [passed] at blocked
  cases blocked

end Metidos.Net
