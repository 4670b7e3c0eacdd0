import SpendCheck.Bytes.Hex
import SpendCheck.Proofs.Trace.Outcome

/-!
# What reads as hex

Reading works on the UTF-8 bytes of a text, and yet what it accepts is told by characters: an
even number of them, all of them digits in either case.  A character outside ASCII is no way
around that, since its first byte is no digit.  What is read writes the text again but for the
case of its letters, so that two texts spell the same bytes just where they differ in nothing
else.
-/

namespace SpendCheck.Hex

def digits : List Char :=
  ['0', '1', '2', '3', '4', '5', '6', '7', '8', '9', 'a', 'b', 'c', 'd', 'e', 'f', 'A', 'B', 'C',
    'D', 'E', 'F']

/-- A text that spells bytes. -/
def IsHex (text : String) : Prop := text.length % 2 = 0 ∧ ∀ c ∈ text.toList, c ∈ digits

variable {text : String} {data : Bytes}

/-! ## Digits and their bytes -/

/-- The byte of an ASCII character. -/
def byteOf (c : Char) : UInt8 := UInt8.ofNat c.toNat

theorem utf8EncodeChar_ascii {c : Char} (h : c.toNat ≤ 127) :
    String.utf8EncodeChar c = [byteOf c] := by
  have hval : c.val.toNat ≤ 127 := h
  rw [String.utf8EncodeChar]
  simp only [hval, if_true]
  rfl

theorem utf8_digits (h : ∀ c ∈ text.toList, c ∈ digits) : utf8 text = text.toList.map byteOf := by
  have hascii : ∀ c ∈ digits, c.toNat ≤ 127 := by simp [digits]
  rw [utf8, List.map_eq_flatMap]
  exact List.flatMap_congr fun c hc => utf8EncodeChar_ascii (hascii c (h c hc))

theorem mem_digits_of_digitValue? {b : UInt8} (h : (digitValue? b).isSome = true) :
    b.toNat ≤ 127 ∧ Char.ofNat b.toNat ∈ digits := by
  have hall : ∀ b : UInt8, (digitValue? b).isSome = true →
      b.toNat ≤ 127 ∧ Char.ofNat b.toNat ∈ digits := forall_byte (by decide +kernel)
  exact hall b h

/-- The value of a digit is written as the digit in lower case. -/
theorem digitValue?_byteOf {c : Char} (h : c ∈ digits) :
    ∃ value, digitValue? (byteOf c) = some value ∧ value < 16 ∧ digit value = c.toLower := by
  have hall : ∀ c ∈ digits,
      (digitValue? (byteOf c)).any (fun value => value < 16 && digit value = c.toLower) := by
    simp [digits, byteOf, digitValue?, digit, digitByte]
  obtain ⟨value, hvalue, hdigit⟩ := (Option.any_eq_true ..).mp (hall c h)
  obtain ⟨hlt, hlower⟩ : value < 16 ∧ digit value = c.toLower := by simpa using hdigit
  exact ⟨value, hvalue, hlt, hlower⟩

/-- The encoding of a character outside ASCII starts with a byte outside ASCII. -/
theorem exists_byte_of_not_ascii {c : Char} (h : ¬ c.toNat ≤ 127) :
    ∃ b ∈ String.utf8EncodeChar c, ¬ b.toNat ≤ 127 := by
  fun_cases String.utf8EncodeChar c with
  | case1 v hv => exact absurd hv h
  | case2 v | case3 v | case4 v =>
    refine ⟨_, List.mem_cons_self, ?_⟩
    rw [UInt8.toNat_ofNat']
    omega

/-- A character is a digit where all its bytes are. -/
theorem mem_digits_of_utf8EncodeChar {c : Char}
    (h : ∀ b ∈ String.utf8EncodeChar c, (digitValue? b).isSome = true) : c ∈ digits := by
  by_cases hascii : c.toNat ≤ 127
  · rw [utf8EncodeChar_ascii hascii] at h
    obtain ⟨-, hmem⟩ := mem_digits_of_digitValue? (h _ (List.mem_singleton_self _))
    have hsize : c.toNat < UInt8.size := Nat.lt_of_le_of_lt hascii (by decide)
    have hbyte : (byteOf c).toNat = c.toNat := UInt8.toNat_ofNat_of_lt' hsize
    rwa [hbyte, Char.ofNat_toNat] at hmem
  · obtain ⟨b, hb, hlarge⟩ := exists_byte_of_not_ascii hascii
    exact absurd (mem_digits_of_digitValue? (h b hb)).1 hlarge

/-! ## Pairs of digits -/

/-- A pair of digits reads as the byte that is written as the pair in lower case. -/
theorem decodePair_byteOf {high low : Char} (hhigh : high ∈ digits) (hlow : low ∈ digits) :
    ∃ byte, decodePair (byteOf high) (byteOf low) = .ok byte ∧
      digit (byte / 16) = high.toLower ∧ digit (byte % 16) = low.toLower := by
  obtain ⟨h, hh, hh16, hhdigit⟩ := digitValue?_byteOf hhigh
  obtain ⟨l, hl, hl16, hldigit⟩ := digitValue?_byteOf hlow
  have hdiv : (16 * h + l) / 16 = h := by grind
  have hmod : (16 * h + l) % 16 = l := by grind
  refine ⟨16 * h + l, ?_, by rw [hdiv, hhdigit], by rw [hmod, hldigit]⟩
  simp only [decodePair, hh, hl]

theorem isSome_of_decodePair {high low byte : UInt8} (h : decodePair high low = .ok byte) :
    (digitValue? high).isSome = true ∧ (digitValue? low).isSome = true := by
  cases hhigh : digitValue? high with
  | none => simp [decodePair, hhigh] at h
  | some _ =>
    cases hlow : digitValue? low with
    | none => simp [decodePair, hhigh, hlow] at h
    | some _ => exact ⟨rfl, rfl⟩

/-- Bytes that read pair by pair are digits. -/
theorem isSome_of_decodePairs {bytes : Bytes} (heven : bytes.length % 2 = 0)
    (h : decodePairs bytes = .ok data) : ∀ b ∈ bytes, (digitValue? b).isSome = true := by
  fun_induction decodePairs bytes generalizing data with
  | case1 high low rest ih =>
    obtain ⟨byte, hpair, hrest⟩ := bind_eq_ok.mp h
    obtain ⟨bytes, hbytes, -⟩ := bind_eq_ok.mp hrest
    obtain ⟨hhigh, hlow⟩ := isSome_of_decodePair hpair
    have hlength : rest.length % 2 = 0 := by
      rw [List.length_cons, List.length_cons] at heven
      omega
    have hall := ih hlength hbytes
    exact List.forall_mem_cons.mpr ⟨hhigh, List.forall_mem_cons.mpr ⟨hlow, hall⟩⟩
  | case2 bytes hshort =>
    match bytes with
    | [] => simp
    | [_] => simp at heven
    | high :: low :: rest => exact absurd rfl (hshort high low rest)

theorem isHex_of_decode (h : decode text = .ok data) : IsHex text := by
  by_cases hodd : (utf8 text).length % 2 = 1
  · simp [decode, hodd] at h
  · have hpairs : decodePairs (utf8 text) = .ok data := by simpa [decode, hodd] using h
    have heven : (utf8 text).length % 2 = 0 := by omega
    have hbytes := isSome_of_decodePairs heven hpairs
    have hdigits : ∀ c ∈ text.toList, c ∈ digits := fun c hc =>
      mem_digits_of_utf8EncodeChar fun b hb => hbytes b (List.mem_flatMap.mpr ⟨c, hc, hb⟩)
    refine ⟨?_, hdigits⟩
    rwa [utf8_digits hdigits, List.length_map, String.length_toList] at heven

/-- Digits in pairs read as bytes that are written as the digits in lower case. -/
theorem decodePairs_map_byteOf {chars : List Char} (heven : chars.length % 2 = 0)
    (h : ∀ c ∈ chars, c ∈ digits) : ∃ data, decodePairs (chars.map byteOf) = .ok data ∧
      (encode data).toList = chars.map Char.toLower := by
  match chars with
  | [] => exact ⟨[], rfl, rfl⟩
  | [_] => simp at heven
  | high :: low :: rest =>
    obtain ⟨hhigh, hlow, hrest⟩ : high ∈ digits ∧ low ∈ digits ∧ ∀ c ∈ rest, c ∈ digits := by
      simpa using h
    have hlength : rest.length % 2 = 0 := by
      rw [List.length_cons, List.length_cons] at heven
      omega
    obtain ⟨byte, hpair, hwritten⟩ := decodePair_byteOf hhigh hlow
    obtain ⟨data, hdata, hlower⟩ := decodePairs_map_byteOf hlength hrest
    refine ⟨byte :: data, ?_, ?_⟩
    · simp only [List.map_cons, decodePairs, hpair, hdata]
      rfl
    · rw [encode, String.toList_ofList] at hlower ⊢
      simp [hwritten, hlower]

theorem exists_decode (h : IsHex text) :
    ∃ data, decode text = .ok data ∧ encode data = text.toLower := by
  obtain ⟨heven, hdigits⟩ := h
  have hlength : text.toList.length % 2 = 0 := by rwa [String.length_toList]
  obtain ⟨data, hdata, hlower⟩ := decodePairs_map_byteOf hlength hdigits
  refine ⟨data, ?_, ?_⟩
  · rw [decode, utf8_digits hdigits, hdata]
    simp [hlength]
  · rw [← String.toList_inj, hlower, String.toLower, String.toList_map]

/-! ## Texts -/

theorem encode_inj {data' : Bytes} : encode data = encode data' ↔ data = data' := by
  constructor
  · intro h
    have hread := decode_encode data
    rw [h, decode_encode] at hread
    exact (Except.ok.inj hread).symm
  · rintro rfl
    rfl

/-- A text reads as the bytes that are written as the text in lower case, if it is hex, and not at
all if it is not. -/
theorem decode_eq_ok_iff : decode text = .ok data ↔ IsHex text ∧ encode data = text.toLower := by
  constructor
  · intro h
    obtain ⟨data', hdata', hlower⟩ := exists_decode (isHex_of_decode h)
    obtain rfl := Except.ok.inj (h.symm.trans hdata')
    exact ⟨isHex_of_decode h, hlower⟩
  · rintro ⟨hhex, hlower⟩
    obtain ⟨data', hdata', hlower'⟩ := exists_decode hhex
    obtain rfl := encode_inj.mp (hlower.trans hlower'.symm)
    exact hdata'

theorem not_isHex_of_decode {error : HexError} (h : decode text = .error error) :
    ¬ IsHex text := by
  intro hhex
  obtain ⟨data, hdata, -⟩ := exists_decode hhex
  rw [hdata] at h
  cases h

/-- Texts spell the same bytes where they differ in the case of letters only. -/
theorem eq_iff_toLower_eq {text' : String} {data' : Bytes} (h : decode text = .ok data)
    (h' : decode text' = .ok data') : data = data' ↔ text.toLower = text'.toLower := by
  obtain ⟨-, hlower⟩ := decode_eq_ok_iff.mp h
  obtain ⟨-, hlower'⟩ := decode_eq_ok_iff.mp h'
  rw [← encode_inj, hlower, hlower']

end SpendCheck.Hex
