import RtmpModule.Streamer.PublishToStreamer

/-!
# Base64

The codec information of a stream is sent as text. `Base64::Decode` reads up to the
first padding and writes into a string it has made room in before, from the number
of letters and of paddings at the end; what does not fit together is not caught. On
what `Encode` writes it gives the bytes back, unless there are none or the sizes of
both strings do not fit into an `int`.
-/

namespace Rtmp

namespace Base64

/-- `b64_lookup`. -/
def b64Lookup (c : UInt8) : UInt8 :=
  if 0x41 ≤ c ∧ c ≤ 0x5a then c - 0x41
  else if 0x61 ≤ c ∧ c ≤ 0x7a then c - 71
  else if 0x30 ≤ c ∧ c ≤ 0x39 then c + 4
  else if c = 0x2b then 62
  else if c = 0x2f then 63
  else 255

/-- `a4_to_a3`. -/
def a4ToA3 (a b c d : UInt8) : List UInt8 :=
  [(a <<< 2) + ((b &&& 0x30) >>> 4), ((b &&& 0xf) <<< 4) + ((c &&& 0x3c) >>> 2),
    ((c &&& 0x3) <<< 6) + d]

/-- What `Decode` writes for letters; those missing in a last group are looked up as zeros. -/
def decodeGroups : List UInt8 → List UInt8
  | a :: b :: c :: d :: rest =>
      a4ToA3 (b64Lookup a) (b64Lookup b) (b64Lookup c) (b64Lookup d) ++ decodeGroups rest
  | [a, b, c] => (a4ToA3 (b64Lookup a) (b64Lookup b) (b64Lookup c) (b64Lookup 0)).take 2
  | [a, b] => (a4ToA3 (b64Lookup a) (b64Lookup b) (b64Lookup 0) (b64Lookup 0)).take 1
  | [_] => []
  | [] => []

/-- `=`. -/
def padding : UInt8 := 0x3d

/-- The ways in which `Encode` and `Decode` do not return: an access outside of a string, an `int`
that overflows, or a string that cannot be resized. A size that is no `int` counts as an
overflow. -/
inductive CodingFault where
  | outOfBounds
  | overflow
  | lengthError
  deriving DecidableEq, Repr

/-- `DecodedLength`, which goes back over the paddings as long as there are any. -/
def decodedLength (input : List UInt8) : Except CodingFault Int :=
  if input.all (· = padding) then .error .outOfBounds
  else if 2 ^ 31 ≤ 6 * input.length then .error .overflow
  else .ok ((6 * input.length) / 8 - (input.reverse.takeWhile (· = padding)).length)

/-- Bytes written one after the other into a string of a size, and whether they are as many. A zero
may be written where the string ends, and nothing else from there on. -/
def fill (size : Nat) (written : List UInt8) : Except CodingFault (Bool × List UInt8) :=
  match written.drop size with
  | [] => .ok (decide (written.length = size),
      written ++ List.replicate (size - written.length) 0)
  | [0] => .ok (false, written.take size)
  | _ => .error .outOfBounds

/-- `Base64::Decode` with an empty string to write to. -/
def decode (input : List UInt8) : Except CodingFault (Bool × List UInt8) :=
  match decodedLength input with
  | .error fault => .error fault
  | .ok length =>
      if length < 0 then .error .lengthError
      else fill length.toNat (decodeGroups (input.takeWhile (· ≠ padding)))

/-- The `int` that is made of the length of a text. -/
def encodedInt (length : Nat) : Int := Int.bmod (encodedLength length) (2 ^ 32)

/-- `Base64::Encode` with an empty string to write to. The number of bytes is an `int`, too. -/
def encode (input : List UInt8) : Except CodingFault (Bool × List UInt8) :=
  if encodedInt input.length < 0 then .error .lengthError
  else if 2 ^ 31 ≤ input.length then .error .overflow
  else fill (encodedInt input.length).toNat (encodeGroups input)

section Bits

theorem forall_byte {P : UInt8 → Prop} (h : ∀ n : Fin 256, P (UInt8.ofNat n)) : ∀ b, P b := by
  intro b
  have hb := h ⟨b.toNat, UInt8.toNat_lt b⟩
  rwa [UInt8.ofNat_toNat] at hb

/-- The parts of a byte that the letters are made of. -/
theorem byte_parts (b : UInt8) :
    ((b &&& 0xfc) >>> 2).toNat = b.toNat / 4 ∧ ((b &&& 0x03) <<< 4).toNat = b.toNat % 4 * 16 ∧
      ((b &&& 0xf0) >>> 4).toNat = b.toNat / 16 ∧ ((b &&& 0x0f) <<< 2).toNat = b.toNat % 16 * 4 ∧
      ((b &&& 0xc0) >>> 6).toNat = b.toNat / 64 ∧ (b &&& 0x3f).toNat = b.toNat % 64 := by
  revert b
  refine forall_byte ?_
  decide +kernel

/-- The parts of a value of six bits that the bytes are made of. -/
theorem value_parts (v : UInt8) :
    (v <<< 2).toNat = v.toNat * 4 % 256 ∧ ((v &&& 0x30) >>> 4).toNat = v.toNat / 16 % 4 ∧
      ((v &&& 0xf) <<< 4).toNat = v.toNat % 16 * 16 ∧
      ((v &&& 0x3c) >>> 2).toNat = v.toNat / 4 % 16 ∧
      ((v &&& 0x3) <<< 6).toNat = v.toNat % 4 * 64 := by
  revert v
  refine forall_byte ?_
  decide +kernel

/-- A letter of the alphabet is found there, and is no padding. -/
theorem letter_lookup {v : UInt8} (h : v.toNat < 64) :
    b64Lookup (letter v) = v ∧ letter v ≠ padding := by
  have hall : ∀ n : Fin 64, b64Lookup (letter (UInt8.ofNat n)) = UInt8.ofNat n ∧
      letter (UInt8.ofNat n) ≠ padding := by decide +kernel
  have hv := hall ⟨v.toNat, h⟩
  rwa [UInt8.ofNat_toNat] at hv

/-- The values `a3_to_a4` makes, which have six bits. -/
theorem a3ToA4_toNat (a b c : UInt8) :
    (a3ToA4 a b c).map UInt8.toNat =
      [a.toNat / 4, a.toNat % 4 * 16 + b.toNat / 16, b.toNat % 16 * 4 + c.toNat / 64,
        c.toNat % 64] := by
  obtain ⟨ha, ha', -, -, -, -⟩ := byte_parts a
  obtain ⟨-, -, hb, hb', -, -⟩ := byte_parts b
  obtain ⟨-, -, -, -, hc, hc'⟩ := byte_parts c
  have hlt := UInt8.toNat_lt b
  have hlt' := UInt8.toNat_lt c
  have hsecond : (a.toNat % 4 * 16 + b.toNat / 16) % 2 ^ 8 = a.toNat % 4 * 16 + b.toNat / 16 :=
    Nat.mod_eq_of_lt (by omega)
  have hthird : (b.toNat % 16 * 4 + c.toNat / 64) % 2 ^ 8 = b.toNat % 16 * 4 + c.toNat / 64 :=
    Nat.mod_eq_of_lt (by omega)
  simp only [a3ToA4, List.map_cons, List.map_nil, UInt8.toNat_add, ha, ha', hb, hb', hc, hc',
    hsecond, hthird]

variable {v₀ v₁ v₂ v₃ b : UInt8}

/-- A first byte is in the first value and the high bits of the second. -/
theorem first_byte (h₀ : v₀.toNat = b.toNat / 4) (h₁ : v₁.toNat / 16 = b.toNat % 4) :
    (v₀ <<< 2) + ((v₁ &&& 0x30) >>> 4) = b := by
  obtain ⟨hv₀, -⟩ := value_parts v₀
  obtain ⟨-, hv₁, -⟩ := value_parts v₁
  have hb := UInt8.toNat_lt b
  apply UInt8.toNat_inj.mp
  rw [UInt8.toNat_add, hv₀, hv₁]
  omega

theorem second_byte (h₁ : v₁.toNat % 16 = b.toNat / 16) (h₂ : v₂.toNat / 4 = b.toNat % 16) :
    ((v₁ &&& 0xf) <<< 4) + ((v₂ &&& 0x3c) >>> 2) = b := by
  obtain ⟨-, -, hv₁, -⟩ := value_parts v₁
  obtain ⟨-, -, -, hv₂, -⟩ := value_parts v₂
  have hb := UInt8.toNat_lt b
  apply UInt8.toNat_inj.mp
  rw [UInt8.toNat_add, hv₁, hv₂]
  omega

theorem third_byte (h₂ : v₂.toNat % 4 = b.toNat / 64) (h₃ : v₃.toNat = b.toNat % 64) :
    ((v₂ &&& 0x3) <<< 6) + v₃ = b := by
  obtain ⟨-, -, -, -, hv₂⟩ := value_parts v₂
  have hb := UInt8.toNat_lt b
  apply UInt8.toNat_inj.mp
  rw [UInt8.toNat_add, hv₂]
  omega

end Bits

/-- The letters in front of the padding of an encoded list, which are decoded to it. -/
structure Lettered (input letters : List UInt8) (paddings : Nat) : Prop where
  encoded : encodeGroups input = letters ++ List.replicate paddings padding
  unpadded : ∀ l ∈ letters, l ≠ padding
  decoded : decodeGroups letters = input
  length : ∃ n, letters.length + paddings = 4 * n ∧ input.length + paddings = 3 * n
  few : paddings ≤ 2

/-- The four values of a group have six bits, and the three bytes are in them. -/
structure Values (a b c v₀ v₁ v₂ v₃ : UInt8) : Prop where
  six : v₀.toNat < 64 ∧ v₁.toNat < 64 ∧ v₂.toNat < 64 ∧ v₃.toNat < 64
  first : (v₀ <<< 2) + ((v₁ &&& 0x30) >>> 4) = a
  second : ((v₁ &&& 0xf) <<< 4) + ((v₂ &&& 0x3c) >>> 2) = b
  third : ((v₂ &&& 0x3) <<< 6) + v₃ = c

theorem exists_values (a b c : UInt8) :
    ∃ v₀ v₁ v₂ v₃, a3ToA4 a b c = [v₀, v₁, v₂, v₃] ∧ Values a b c v₀ v₁ v₂ v₃ := by
  have hvalues := a3ToA4_toNat a b c
  have ha := UInt8.toNat_lt a
  have hb := UInt8.toNat_lt b
  have hc := UInt8.toNat_lt c
  obtain ⟨v₀, v₁, v₂, v₃, hfour⟩ : ∃ v₀ v₁ v₂ v₃, a3ToA4 a b c = [v₀, v₁, v₂, v₃] :=
    ⟨_, _, _, _, rfl⟩
  rw [hfour] at hvalues
  simp only [List.map_cons, List.map_nil, List.cons.injEq, and_true] at hvalues
  obtain ⟨h₀, h₁, h₂, h₃⟩ := hvalues
  refine ⟨v₀, v₁, v₂, v₃, hfour, ?_, ?_, ?_, ?_⟩
  · omega
  · exact first_byte h₀ (by omega)
  · exact second_byte (by omega) (by omega)
  · exact third_byte (by omega) h₃

/-- Group by group; the last may have one or two bytes. -/
theorem exists_lettered (input : List UInt8) :
    ∃ letters paddings, Lettered input letters paddings := by
  induction input using encodeGroups.induct with
  | case1 a b c rest ih =>
      obtain ⟨letters, paddings, h⟩ := ih
      obtain ⟨v₀, v₁, v₂, v₃, hfour, hvalues⟩ := exists_values a b c
      obtain ⟨hs₀, hs₁, hs₂, hs₃⟩ := hvalues.six
      obtain ⟨n, hletters, hinput⟩ := h.length
      refine ⟨letter v₀ :: letter v₁ :: letter v₂ :: letter v₃ :: letters, paddings, ?_, ?_, ?_,
        ⟨n + 1, ?_, ?_⟩, h.few⟩
      · rw [encodeGroups, hfour, h.encoded]
        rfl
      · simp only [List.forall_mem_cons]
        exact ⟨(letter_lookup hs₀).2, (letter_lookup hs₁).2, (letter_lookup hs₂).2,
          (letter_lookup hs₃).2, h.unpadded⟩
      · rw [decodeGroups, (letter_lookup hs₀).1, (letter_lookup hs₁).1, (letter_lookup hs₂).1,
          (letter_lookup hs₃).1, h.decoded, a4ToA3, hvalues.first, hvalues.second, hvalues.third]
        rfl
      · simp only [List.length_cons]
        omega
      · simp only [List.length_cons]
        omega
  | case2 a b =>
      obtain ⟨v₀, v₁, v₂, v₃, hfour, hvalues⟩ := exists_values a b 0
      obtain ⟨hs₀, hs₁, hs₂, -⟩ := hvalues.six
      refine ⟨[letter v₀, letter v₁, letter v₂], 1, ?_, ?_, ?_, ⟨1, rfl, rfl⟩, by decide⟩
      · rw [encodeGroups, hfour]
        rfl
      · simp only [List.forall_mem_cons]
        exact ⟨(letter_lookup hs₀).2, (letter_lookup hs₁).2, (letter_lookup hs₂).2, by simp⟩
      · rw [decodeGroups, (letter_lookup hs₀).1, (letter_lookup hs₁).1, (letter_lookup hs₂).1,
          a4ToA3, hvalues.first, hvalues.second]
        rfl
  | case3 a =>
      obtain ⟨v₀, v₁, v₂, v₃, hfour, hvalues⟩ := exists_values a 0 0
      obtain ⟨hs₀, hs₁, -, -⟩ := hvalues.six
      refine ⟨[letter v₀, letter v₁], 2, ?_, ?_, ?_, ⟨1, rfl, rfl⟩, by decide⟩
      · rw [encodeGroups, hfour]
        rfl
      · simp only [List.forall_mem_cons]
        exact ⟨(letter_lookup hs₀).2, (letter_lookup hs₁).2, by simp⟩
      · rw [decodeGroups, (letter_lookup hs₀).1, (letter_lookup hs₁).1, a4ToA3, hvalues.first]
        rfl
  | case4 => exact ⟨[], 0, rfl, by simp, rfl, ⟨0, rfl, rfl⟩, by simp⟩

/-- The paddings are found again from both ends. -/
theorem Lettered.ends {input letters : List UInt8} {paddings : Nat}
    (h : Lettered input letters paddings) :
    (encodeGroups input).takeWhile (· ≠ padding) = letters ∧
      (letters ≠ [] →
        ((encodeGroups input).reverse.takeWhile (· = padding)).length = paddings) := by
  rw [h.encoded]
  constructor
  · rw [List.takeWhile_append_of_pos (by simpa using h.unpadded)]
    cases paddings <;> simp [List.replicate_succ]
  · intro hne
    rw [List.reverse_append, List.reverse_replicate, List.takeWhile_append_of_pos (by simp),
      ← List.dropLast_append_getLast hne, List.reverse_append, List.reverse_singleton,
      List.singleton_append, List.takeWhile_cons_of_neg]
    · rw [List.append_nil, List.length_replicate]
    · simpa using h.unpadded _ (List.getLast_mem hne)

theorem fill_length (written : List UInt8) : fill written.length written = .ok (true, written) := by
  simp [fill]

/-- A string that is filled is what was written. -/
theorem eq_of_fill {size : Nat} {written text : List UInt8}
    (h : fill size written = .ok (true, text)) : text = written := by
  rw [fill] at h
  split at h
  · obtain ⟨hsize, htext⟩ := Prod.mk.inj (Except.ok.inj h)
    rw [← htext, of_decide_eq_true hsize, Nat.sub_self, List.replicate_zero, List.append_nil]
  · cases h
  · cases h

/-- What `Encode` wrote, as long as its size can be computed, is decoded again; no letters are
none to end at, however. -/
theorem decode_encodeGroups {input : List UInt8} (h : 6 * (encodeGroups input).length < 2 ^ 31) :
    decode (encodeGroups input) =
      if input = [] then .error .outOfBounds else .ok (true, input) := by
  obtain ⟨letters, paddings, hlettered⟩ := exists_lettered input
  obtain ⟨hfront, hback⟩ := hlettered.ends
  obtain ⟨n, hletters, hinput⟩ := hlettered.length
  split
  case isTrue hnil =>
    subst hnil
    rfl
  case isFalse hne =>
    have hsome : letters ≠ [] := by
      intro hnone
      have hdecoded := hlettered.decoded
      rw [hnone, decodeGroups] at hdecoded
      exact hne hdecoded.symm
    have hlength : (encodeGroups input).length = 4 * n := by
      rw [hlettered.encoded, List.length_append, List.length_replicate, hletters]
    have hsize : decodedLength (encodeGroups input) = .ok input.length := by
      rw [decodedLength, if_neg, if_neg (by omega), hback hsome, hlength]
      · congr 1
        omega
      · obtain ⟨last, hlast⟩ := List.exists_mem_of_ne_nil _ hsome
        rw [hlettered.encoded, List.all_append, Bool.and_eq_true, not_and_or]
        left
        simpa using ⟨last, hlast, hlettered.unpadded last hlast⟩
    rw [decode, hsize]
    simp only [Int.toNat_natCast, hfront, hlettered.decoded, fill_length]
    rw [if_neg (by omega)]

theorem encodedLength_eq (length : Nat) : encodedLength length = (length + 2) / 3 * 4 := by
  rw [encodedLength]
  omega

/-- The length of a text fits into an `int` up to 1610612733 bytes; then it is negative at first. -/
theorem encodedInt_of_lt {length : Nat} (h : length < 1610612734) :
    encodedInt length = encodedLength length := by
  have hlt : encodedLength length < 2147483648 := by
    rw [encodedLength_eq]
    omega
  exact Int.bmod_eq_of_le (by omega) (by omega)

/-- As an `int` of 32 bits, a number is negative from 2147483648 on. -/
theorem bmod_neg {n : Nat} (h : 2147483648 ≤ n) (hlt : n < 4294967296) :
    Int.bmod n (2 ^ 32) < 0 := by
  rw [Int.bmod_def]
  push_cast
  rw [if_neg (by omega)]
  omega

/-- The text is written as long as its length is an `int`. -/
theorem encode_iff (input : List UInt8) :
    encode input = .ok (true, encodeGroups input) ↔ input.length < 1610612734 := by
  by_cases hlength : input.length < 1610612734
  · refine iff_of_true ?_ hlength
    rw [encode, encodedInt_of_lt hlength, if_neg (by omega), if_neg (by omega),
      Int.toNat_natCast, ← length_encodeGroups, fill_length]
  · refine iff_of_false ?_ hlength
    intro hencode
    rw [encode] at hencode
    split at hencode
    · cases hencode
    · next hnonneg =>
      split at hencode
      · cases hencode
      · next hint =>
        apply hnonneg
        apply bmod_neg
        · rw [encodedLength_eq]
          omega
        · rw [encodedLength_eq]
          omega

/-- What `Encode` returns with true is the text. -/
theorem eq_of_encode {input text : List UInt8} (h : encode input = .ok (true, text)) :
    text = encodeGroups input := by
  rw [encode] at h
  split at h
  · cases h
  · split at h
    · cases h
    · exact eq_of_fill h

/-- `Encode` returns true for the lists that are shorter than 1610612734, and `Decode` undoes it
for those that are not empty and whose text is short enough for its size to be computed. -/
theorem round_trip (input : List UInt8) :
    (encode input = .ok (true, encodeGroups input) ↔ input.length < 1610612734) ∧
    ((∃ text, encode input = .ok (true, text) ∧ decode text = .ok (true, input)) ↔
      input ≠ [] ∧ 6 * encodedLength input.length < 2 ^ 31) := by
  refine ⟨encode_iff input, ?_⟩
  by_cases hsize : 6 * (encodeGroups input).length < 2 ^ 31
  · have hshort : input.length < 1610612734 := by
      rw [length_encodeGroups, encodedLength] at hsize
      omega
    have hdecode := decode_encodeGroups hsize
    rw [length_encodeGroups] at hsize
    constructor
    · rintro ⟨text, hencode, htext⟩
      refine ⟨?_, hsize⟩
      rintro rfl
      rw [eq_of_encode hencode, hdecode] at htext
      cases htext
    · rintro ⟨hne, -⟩
      rw [if_neg hne] at hdecode
      exact ⟨encodeGroups input, (encode_iff input).mpr hshort, hdecode⟩
  · refine iff_of_false ?_ fun h => hsize (length_encodeGroups input ▸ h.2)
    rintro ⟨text, hencode, hdecode⟩
    rw [eq_of_encode hencode] at hdecode
    have hoverflow : decodedLength (encodeGroups input) = .error .outOfBounds ∨
        decodedLength (encodeGroups input) = .error .overflow := by
      rw [decodedLength, if_pos (Nat.le_of_not_lt hsize)]
      split
      · exact .inl rfl
      · exact .inr rfl
    rw [decode] at hdecode
    rcases hoverflow with hfault | hfault <;> rw [hfault] at hdecode <;> cases hdecode

end Base64

end Rtmp
