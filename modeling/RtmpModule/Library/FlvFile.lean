import RtmpModule.Library.Bytes
import Mathlib.Data.List.Induction
import Mathlib.Tactic.Common

/-!
# FLV files

An FLV file is a header and a list of tags, each behind it with its own size, so that
the file can be read from both ends. The encoding is prefix-free: neither a tag nor
the header can be taken for the beginning of something else.
-/

namespace FlvFile

open Bytes

inductive TagType where
  | audio
  | video
  deriving DecidableEq, Repr

namespace TagType

def code : TagType → UInt8
  | audio => 8
  | video => 9

def ofByte (value : UInt8) : Option TagType :=
  if value = 8 then some audio
  else if value = 9 then some video
  else none

@[simp] theorem ofByte_code (type : TagType) : ofByte type.code = some type := by
  cases type <;> rfl

end TagType

/-- A tag, whose size is a number of 24 bits. -/
structure Tag where
  type : TagType
  timestamp : UInt32
  body : List UInt8
  body_lt : body.length < 2 ^ 24

/-- The 11 bytes in front of the body: type, size, the low 24 bits of the time and its high 8
bits, and the stream id, which is 0. -/
def Tag.head (tag : Tag) : List UInt8 :=
  [tag.type.code] ++ toBE 3 tag.body.length ++ toBE 3 tag.timestamp.toNat ++
    [UInt8.ofNat (tag.timestamp.toNat / 2 ^ 24)] ++ [0, 0, 0]

/-- A tag and, behind it, the size of the tag. -/
def Tag.encode (tag : Tag) : List UInt8 :=
  tag.head ++ tag.body ++ toBE 4 (11 + tag.body.length)

/-- The header: audio and video, 9 bytes, and the size 0 of the tag in front of the first one. -/
def header : List UInt8 :=
  [0x46, 0x4c, 0x56, 0x01, 0x05, 0x00, 0x00, 0x00, 0x09, 0x00, 0x00, 0x00, 0x00]

/-- The tags of a file behind its header. -/
def encodeTags (tags : List Tag) : List UInt8 := tags.flatMap Tag.encode

def sizeField (bytes : List UInt8) : Nat := ofBE ((bytes.drop 1).take 3)

def timeField (bytes : List UInt8) : Nat :=
  ofBE ((bytes.drop 7).take 1) * 2 ^ 24 + ofBE ((bytes.drop 4).take 3)

/-- The first tag of some bytes, and what follows the size behind it. -/
def parseTag (bytes : List UInt8) : Option (Tag × List UInt8) :=
  match TagType.ofByte (bytes.headD 0) with
  | none => none
  | some type =>
      if h : sizeField bytes < 2 ^ 24 ∧ 15 + sizeField bytes ≤ bytes.length ∧
          (bytes.drop 8).take 3 = [0, 0, 0] ∧
          ofBE ((bytes.drop (11 + sizeField bytes)).take 4) = 11 + sizeField bytes then
        some ({ type
                timestamp := UInt32.ofNat (timeField bytes)
                body := (bytes.drop 11).take (sizeField bytes)
                body_lt := Nat.lt_of_le_of_lt (List.length_take_le _ _) h.1 },
          bytes.drop (15 + sizeField bytes))
      else none

theorem parseTag_length {bytes rest : List UInt8} {tag : Tag}
    (h : parseTag bytes = some (tag, rest)) : rest.length < bytes.length := by
  rw [parseTag] at h
  split at h
  · cases h
  · split at h
    · next hfields =>
      cases h
      rw [List.length_drop]
      omega
    · cases h

/-- The tags of a file, from the first one on. -/
def parseTags (bytes : List UInt8) : Option (List Tag) :=
  match bytes with
  | [] => some []
  | b :: bytes =>
      match _h : parseTag (b :: bytes) with
      | none => none
      | some (tag, rest) => (parseTags rest).map (tag :: ·)
termination_by bytes.length
decreasing_by exact parseTag_length _h

/-- The place of the last tag, by the size behind it. -/
def lastTag (bytes : List UInt8) : Nat :=
  bytes.length - (4 + ofBE (bytes.drop (bytes.length - 4)))

/-- The tags of a file, found from the last one on. -/
def parseTagsBackwards (bytes : List UInt8) : Option (List Tag) :=
  if _h : bytes = [] then some []
  else
    match parseTag (bytes.drop (lastTag bytes)) with
    | some (tag, []) => (parseTagsBackwards (bytes.take (lastTag bytes))).map (· ++ [tag])
    | _ => none
termination_by bytes.length
decreasing_by
  have := List.length_pos_iff.mpr _h
  rw [List.length_take, lastTag]
  omega

section Fields

variable (tag : Tag) (rest : List UInt8)

theorem toBE_three (n : Nat) :
    toBE 3 n = [UInt8.ofNat (n / 256 / 256), UInt8.ofNat (n / 256), UInt8.ofNat n] := rfl

@[simp] theorem Tag.length_head : tag.head.length = 11 := by simp [Tag.head]

theorem sizeField_encode : sizeField (tag.encode ++ rest) = tag.body.length := by
  have hfield : ((tag.encode ++ rest).drop 1).take 3 = toBE 3 tag.body.length := by
    simp [Tag.encode, Tag.head, toBE_three]
  rw [sizeField, hfield, ofBE_toBE_of_lt tag.body_lt]

theorem timeField_encode : timeField (tag.encode ++ rest) = tag.timestamp.toNat := by
  have hlow : ((tag.encode ++ rest).drop 4).take 3 = toBE 3 tag.timestamp.toNat := by
    simp [Tag.encode, Tag.head, toBE_three]
  have hhigh : ((tag.encode ++ rest).drop 7).take 1 =
      [UInt8.ofNat (tag.timestamp.toNat / 2 ^ 24)] := by
    simp [Tag.encode, Tag.head, toBE_three]
  have hlt := UInt32.toNat_lt tag.timestamp
  rw [timeField, hlow, hhigh, ofBE_toBE, ofBE_cons, ofBE_nil, UInt8.toNat_ofNat', List.length_nil]
  omega

/-- A tag is parsed back, whatever follows it. -/
theorem parseTag_encode : parseTag (tag.encode ++ rest) = some (tag, rest) := by
  have htype : (tag.encode ++ rest).headD 0 = tag.type.code := rfl
  have hstream : ((tag.encode ++ rest).drop 8).take 3 = [0, 0, 0] := by
    simp [Tag.encode, Tag.head, toBE_three]
  have hbehind : (tag.encode ++ rest).drop (11 + tag.body.length) =
      toBE 4 (11 + tag.body.length) ++ rest := by
    rw [Tag.encode, List.append_assoc, List.drop_left' (by simp)]
  have hbody : ((tag.encode ++ rest).drop 11).take tag.body.length = tag.body := by
    rw [Tag.encode, List.append_assoc, List.append_assoc, List.drop_left' (by simp),
      List.take_left' rfl]
  have hrest : (tag.encode ++ rest).drop (15 + tag.body.length) = rest := by
    apply List.drop_left'
    simp only [Tag.encode, List.length_append, Tag.length_head, length_toBE]
    omega
  have hsize : ofBE (((tag.encode ++ rest).drop (11 + tag.body.length)).take 4) =
      11 + tag.body.length := by
    have := tag.body_lt
    rw [hbehind, List.take_left' (length_toBE _ _), ofBE_toBE_of_lt (by omega)]
  have hlength : 15 + tag.body.length ≤ (tag.encode ++ rest).length := by
    simp only [Tag.encode, List.length_append, Tag.length_head, length_toBE]
    omega
  rw [parseTag, htype, TagType.ofByte_code]
  simp only [sizeField_encode, timeField_encode]
  rw [dif_pos ⟨tag.body_lt, hlength, hstream, hsize⟩]
  simp only [hbody, hrest, UInt32.ofNat_toNat]

end Fields

section Files

theorem encodeTags_cons (tag : Tag) (tags : List Tag) :
    encodeTags (tag :: tags) = tag.encode ++ encodeTags tags := List.flatMap_cons

theorem encodeTags_concat (tags : List Tag) (tag : Tag) :
    encodeTags (tags ++ [tag]) = encodeTags tags ++ tag.encode := by
  rw [encodeTags, List.flatMap_append, List.flatMap_singleton, encodeTags]

theorem parseTags_of_parseTag {bytes rest : List UInt8} {tag : Tag}
    (h : parseTag bytes = some (tag, rest)) :
    parseTags bytes = (parseTags rest).map (tag :: ·) := by
  cases bytes with
  | nil => cases h
  | cons b bytes =>
      rw [parseTags]
      split
      · next hnone =>
        rw [h] at hnone
        cases hnone
      · next hsome =>
        rw [h] at hsome
        cases hsome
        rfl

/-- Reading from the front gives back the tags. -/
theorem parseTags_encodeTags (tags : List Tag) : parseTags (encodeTags tags) = some tags := by
  induction tags with
  | nil => rw [encodeTags, List.flatMap_nil, parseTags]
  | cons tag tags ih =>
      rw [encodeTags_cons, parseTags_of_parseTag (parseTag_encode tag (encodeTags tags)), ih]
      rfl

/-- The size behind the last tag leads to its first byte. -/
theorem lastTag_append (front : List UInt8) (tag : Tag) :
    lastTag (front ++ tag.encode) = front.length := by
  have hlast : (front ++ tag.encode).drop ((front ++ tag.encode).length - 4) =
      toBE 4 (11 + tag.body.length) := by
    rw [Tag.encode, ← List.append_assoc]
    apply List.drop_left'
    simp only [List.length_append, Tag.length_head, length_toBE]
    omega
  have hlt := tag.body_lt
  rw [lastTag, hlast, ofBE_toBE_of_lt (by omega)]
  simp only [Tag.encode, List.length_append, Tag.length_head, length_toBE]
  omega

/-- Reading from the end gives back the tags. -/
theorem parseTagsBackwards_encodeTags (tags : List Tag) :
    parseTagsBackwards (encodeTags tags) = some tags := by
  induction tags using List.reverseRecOn with
  | nil => rw [encodeTags, List.flatMap_nil, parseTagsBackwards, dif_pos rfl]
  | append_singleton tags tag ih =>
      have hne : encodeTags tags ++ tag.encode ≠ [] := by simp [Tag.encode, Tag.head]
      have hparse := parseTag_encode tag []
      rw [List.append_nil] at hparse
      rw [encodeTags_concat, parseTagsBackwards, dif_neg hne]
      simp only [lastTag_append, List.drop_left, hparse, List.take_left, ih]
      rfl

end Files

/-- The header and, behind it, tags only. -/
def IsFile (bytes : List UInt8) : Prop := ∃ tags, bytes = header ++ encodeTags tags

/-- What is written to files: the header, or a tag. -/
inductive Piece where
  | header
  | tag (tag : Tag)

namespace Piece

def encode : Piece → List UInt8
  | header => FlvFile.header
  | tag t => t.encode

/-- The bytes of some pieces. -/
def flatten (pieces : List Piece) : List UInt8 := pieces.flatMap encode

/-- The first byte of the header is not the type of a tag. -/
theorem header_ne_tag (t : Tag) (x y : List UInt8) :
    FlvFile.header ++ x ≠ t.encode ++ y := by
  intro h
  have htype : (0x46 : UInt8) = t.type.code := (List.cons.inj h).1
  cases hcase : t.type <;> rw [hcase] at htype <;> cases htype

/-- No encoding is the beginning of another one. -/
theorem encode_inj {p q : Piece} {x y : List UInt8} (h : encode p ++ x = encode q ++ y) :
    p = q ∧ x = y := by
  cases p with
  | header =>
      cases q with
      | header => exact ⟨rfl, List.append_cancel_left h⟩
      | tag t => exact (header_ne_tag t x y h).elim
  | tag t =>
      cases q with
      | header => exact (header_ne_tag t y x h.symm).elim
      | tag u =>
          have hparse := parseTag_encode t x
          have hbytes : t.encode ++ x = u.encode ++ y := h
          rw [hbytes, parseTag_encode u y] at hparse
          cases hparse
          exact ⟨rfl, rfl⟩

theorem encode_ne_nil (p : Piece) : encode p ≠ [] := by
  cases p with
  | header => exact List.cons_ne_nil _ _
  | tag t => exact List.cons_ne_nil _ _

theorem flatten_cons (p : Piece) (pieces : List Piece) :
    flatten (p :: pieces) = encode p ++ flatten pieces := List.flatMap_cons

theorem flatten_singleton (p : Piece) : flatten [p] = encode p :=
  List.flatMap_singleton encode p

theorem flatten_append (pieces more : List Piece) :
    flatten (pieces ++ more) = flatten pieces ++ flatten more := List.flatMap_append

theorem flatten_eq_nil {pieces : List Piece} : flatten pieces = [] ↔ pieces = [] := by
  cases pieces with
  | nil => exact iff_of_true rfl rfl
  | cons p pieces =>
      refine iff_of_false ?_ (List.cons_ne_nil _ _)
      rw [flatten_cons, List.append_eq_nil_iff]
      exact fun h => encode_ne_nil p h.1

/-- Bytes tell what pieces they are made of. -/
theorem flatten_injective {pieces others : List Piece} (h : flatten pieces = flatten others) :
    pieces = others := by
  induction pieces generalizing others with
  | nil => exact (flatten_eq_nil.mp h.symm).symm
  | cons p pieces ih =>
      cases others with
      | nil => exact absurd (flatten_eq_nil.mp h) (List.cons_ne_nil _ _)
      | cons q others =>
          rw [flatten_cons, flatten_cons] at h
          obtain ⟨rfl, hrest⟩ := encode_inj h
          rw [ih hrest]

theorem flatten_tags (tags : List Tag) : flatten (tags.map tag) = encodeTags tags := by
  rw [flatten, List.flatMap_map]
  rfl

/-- Pieces make up a file when the first of them is the header and the others are tags. -/
theorem isFile_flatten {pieces : List Piece} :
    IsFile (flatten pieces) ↔ ∃ tags : List Tag, pieces = header :: tags.map tag := by
  constructor
  · rintro ⟨tags, h⟩
    refine ⟨tags, flatten_injective ?_⟩
    rw [h, flatten_cons, flatten_tags]
    rfl
  · rintro ⟨tags, rfl⟩
    refine ⟨tags, ?_⟩
    rw [flatten_cons, flatten_tags]
    rfl

/-- A tag goes behind a file, and not to the beginning of one. -/
theorem isFile_concat_tag {pieces : List Piece} {t : Tag} :
    IsFile (flatten (pieces ++ [tag t])) ↔ IsFile (flatten pieces) := by
  rw [isFile_flatten, isFile_flatten]
  constructor
  · rintro ⟨tags, h⟩
    cases pieces with
    | nil => cases h
    | cons p pieces =>
        rw [List.cons_append, List.cons.injEq] at h
        obtain ⟨rfl, h⟩ := h
        obtain ⟨front, back, rfl, hfront, -⟩ := List.map_eq_append_iff.mp h.symm
        exact ⟨front, by rw [hfront]⟩
  · rintro ⟨tags, rfl⟩
    exact ⟨tags ++ [t], by simp⟩

/-- The header only goes to the beginning of a file. -/
theorem isFile_header_tag {pieces : List Piece} {t : Tag} :
    IsFile (flatten (pieces ++ [header, tag t])) ↔ pieces = [] := by
  rw [isFile_flatten]
  constructor
  · rintro ⟨tags, h⟩
    cases pieces with
    | nil => rfl
    | cons p pieces =>
        rw [List.cons_append, List.cons.injEq] at h
        have hmem : header ∈ tags.map tag := by
          rw [← h.2]
          simp
        obtain ⟨u, -, hu⟩ := List.mem_map.mp hmem
        cases hu
  · rintro rfl
    exact ⟨[t], rfl⟩

end Piece

end FlvFile
