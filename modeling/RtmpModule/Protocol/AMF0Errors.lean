import RtmpModule.Protocol.AMF0Grammar
import Mathlib.Logic.Relation

/-!
# Errors in the properties of an object

The loops over the properties of an object and of an ECMA array do not look at what
`consume_any_property` returns. When a property is broken they go on where it was given
up, and the object can still be accepted.
-/

namespace Rtmp

namespace AMF0Serializer

open StreamUtil Bytes Amf0

/-- A call of one of the functions, or a loop with what it has still to do. -/
inductive Call where
  | any (stream : List UInt8)
  | property (stream : List UInt8)
  | properties (stream : List UInt8)
  | items (count : Nat) (stream : List UInt8)
  | full (stream : List UInt8)

namespace Call

variable (uninit : Uninit)

/-- What a call returns. -/
def ok : Call → Bool
  | any stream => (consumeAny uninit stream).ok
  | property stream => (consumeAnyProperty uninit stream).ok
  | properties stream => (consumeProperties uninit stream).ok
  | items count stream => (consumeItems uninit count stream).ok
  | full stream => (consumeFull uninit stream).ok

/-- The calls that are made in a call, and what a loop has to do behind its first turn. -/
def calls : Call → List Call
  | any [] => []
  | any (type :: stream) =>
      match AMF0Type.ofByte type with
      | .object => [properties stream]
      | .mixedArray => [properties (readNumber4byte stream).2]
      | .array =>
          [items ((readNumber4byte stream).1.getD (uninit stream.length)).toNat
            (readNumber4byte stream).2]
      | _ => []
  | property stream =>
      match readShortString stream false with
      | (none, _) => []
      | (some _, rest) => [any rest]
  | properties stream =>
      if checkRedableLength stream 3 = true ∧ stream.take 3 ≠ [0, 0, 9] then
        [property stream, properties (consumeAnyProperty uninit stream).rest]
      else []
  | items 0 _ => []
  | items (count + 1) stream =>
      any stream ::
        if (consumeAny uninit stream).ok then [items count (consumeAny uninit stream).rest] else []
  | full [] => []
  | full (b :: stream) =>
      any (b :: stream) ::
        if (consumeAny uninit (b :: stream)).ok then
          [full (consumeAny uninit (b :: stream)).rest]
        else []

/-- A call is made while another one runs. -/
def Within : Call → Call → Prop :=
  Relation.ReflTransGen fun call inner => inner ∈ call.calls uninit

/-- Every property that is read while a call runs is read without an error. -/
def AllRead (call : Call) : Prop :=
  ∀ stream, Within uninit call (property stream) → (property stream).ok uninit = true

/-- When a call returns `true`, no property was broken. -/
def ErrorsPropagate (call : Call) : Prop := call.ok uninit = true → AllRead uninit call

variable {uninit}

theorem allRead_iff {call : Call} :
    AllRead uninit call ↔ (∀ stream, call = property stream → call.ok uninit = true) ∧
      ∀ inner ∈ call.calls uninit, AllRead uninit inner := by
  constructor
  · intro h
    constructor
    · rintro stream rfl
      exact h stream .refl
    · intro inner hinner stream hwithin
      exact h stream (.head hinner hwithin)
  · rintro ⟨hself, hinner⟩ stream hwithin
    rcases Relation.ReflTransGen.cases_head hwithin with rfl | ⟨inner, hcall, hrest⟩
    · exact hself stream rfl
    · exact hinner inner hcall stream hrest

section Equations

variable {stream rest : List UInt8}

/-- A call that is not the reading of a property has read all of them when the calls in it have. -/
theorem allRead_of_calls {call : Call} {inner : List Call} (hcall : ∀ s, call ≠ property s)
    (h : call.calls uninit = inner) :
    AllRead uninit call ↔ ∀ c ∈ inner, AllRead uninit c := by
  rw [allRead_iff, h]
  exact and_iff_right fun s hs => absurd hs (hcall s)

theorem allRead_leaf {call : Call} (hcall : ∀ s, call ≠ property s)
    (h : call.calls uninit = []) : AllRead uninit call :=
  (allRead_of_calls hcall h).mpr (List.forall_mem_nil _)

theorem allRead_single {call inner : Call} (hcall : ∀ s, call ≠ property s)
    (h : call.calls uninit = [inner]) : AllRead uninit call ↔ AllRead uninit inner := by
  rw [allRead_of_calls hcall h, List.forall_mem_singleton]

theorem allRead_pair {call inner next : Call} (hcall : ∀ s, call ≠ property s)
    (h : call.calls uninit = [inner, next]) :
    AllRead uninit call ↔ AllRead uninit inner ∧ AllRead uninit next := by
  rw [allRead_of_calls hcall h, List.forall_mem_cons, List.forall_mem_singleton]

theorem calls_bare {type : UInt8} (h : isBare type = true) :
    (any (type :: stream)).calls uninit = [] := by
  simp only [isBare, Bool.or_eq_true, decide_eq_true_eq] at h
  rcases h with (rfl | rfl) | rfl
  · rfl
  · rfl
  · rfl

/-- A property with a key has been read when its value was. -/
theorem allRead_property {key : Text} (hkey : key.bytes.length < 32768) :
    AllRead uninit (property (key.encode ++ stream)) ↔
      (skipAny uninit stream).1 = true ∧ AllRead uninit (any stream) := by
  have hread : readShortString (key.encode ++ stream) false = (some key.bytes, stream) :=
    readShortString_text hkey
  have hcalls : (property (key.encode ++ stream)).calls uninit = [any stream] := by
    rw [calls, hread]
  have hok : (property (key.encode ++ stream)).ok uninit = (skipAny uninit stream).1 :=
    congrArg Prod.fst (skipProperty_value hkey)
  rw [allRead_iff, hcalls, List.forall_mem_singleton, hok]
  exact and_congr_left fun _ => ⟨fun h => h _ rfl, fun h _ _ => h⟩

theorem allRead_properties (hlength : 3 ≤ stream.length) (hmarker : stream.take 3 ≠ endMarker) :
    AllRead uninit (properties stream) ↔ AllRead uninit (property stream) ∧
      AllRead uninit (properties (skipProperty uninit stream).2) := by
  apply allRead_pair (fun _ => Call.noConfusion)
  exact if_pos ⟨decide_eq_true hlength, hmarker⟩

theorem allRead_items {count : Nat} {middle : List UInt8}
    (h : skipAny uninit stream = (true, middle)) :
    AllRead uninit (items (count + 1) stream) ↔
      AllRead uninit (any stream) ∧ AllRead uninit (items count middle) := by
  obtain ⟨hok, hrest⟩ := Prod.mk.inj h
  apply allRead_pair (fun _ => Call.noConfusion)
  rw [calls, if_pos hok, hrest]

theorem allRead_full {middle : List UInt8} (h : skipAny uninit stream = (true, middle)) :
    AllRead uninit (full stream) ↔ AllRead uninit (any stream) ∧ AllRead uninit (full middle) := by
  obtain ⟨hok, hrest⟩ := Prod.mk.inj h
  obtain ⟨b, stream, rfl⟩ := List.exists_cons_of_ne_nil (ne_nil_of_skipAny hok)
  apply allRead_pair (fun _ => Call.noConfusion)
  rw [calls, if_pos hok, hrest]

end Equations

end Call

/-- The call that reads a form. -/
def Form.call (stream : List UInt8) : Form → Call
  | value | broken => .any stream
  | items count => .items count stream
  | properties => .properties stream
  | values => .full stream

open Call

/-- All properties are read without an error exactly when none in the grammar is broken. -/
theorem Reads.allRead_iff {uninit : Uninit} {form : Form} {stream rest : List UInt8}
    {damaged : Bool} (h : Reads uninit form stream rest damaged) (hform : form ≠ .broken) :
    AllRead uninit (form.call stream) ↔ damaged = false := by
  have hleaf : ∀ {type : UInt8} {stream : List UInt8}, (any (type :: stream)).calls uninit = [] →
      (AllRead uninit (any (type :: stream)) ↔ false = false) :=
    fun h => iff_of_true (allRead_leaf (fun _ => Call.noConfusion) h) rfl
  induction h with
  | number h => exact hleaf rfl
  | boolean h => exact hleaf rfl
  | string h => exact hleaf rfl
  | bare h => exact hleaf (calls_bare h)
  | unknown htype h => exact hleaf (by rw [calls, ofByte_unknown _ htype])
  | unknownToEnd htype h => exact hleaf (by rw [calls, ofByte_unknown _ htype])
  | object h ih => exact (allRead_single (fun _ => Call.noConfusion) rfl).trans (ih nofun)
  | mixedArray h ih =>
      refine (allRead_single (fun _ => Call.noConfusion) rfl).trans ?_
      rw [readNumber4byte_append]
      exact ih nofun
  | mixedArrayToEnd hlength h ih =>
      refine (allRead_single (fun _ => Call.noConfusion) rfl).trans ?_
      rw [readNumber4byte_short hlength]
      exact ih nofun
  | array h ih =>
      refine (allRead_single (fun _ => Call.noConfusion) rfl).trans ?_
      rw [readNumber4byte_append]
      exact ih nofun
  | arrayToEnd hlength h ih =>
      refine (allRead_single (fun _ => Call.noConfusion) rfl).trans ?_
      rw [readNumber4byte_short hlength]
      exact ih nofun
  | noItems => exact iff_of_true (allRead_leaf (fun _ => Call.noConfusion) rfl) rfl
  | item h hitems ih ihitems =>
      refine (allRead_items h.skips).trans ?_
      rw [Bool.or_eq_false_iff]
      exact and_congr (ih nofun) (ihitems nofun)
  | ended => exact iff_of_true (allRead_leaf (fun _ => Call.noConfusion) rfl) rfl
  | property hkey hmarker h hproperties ih ihproperties =>
      have hlength := length_of_skipProperties (Reads.property hkey hmarker h hproperties).skips
      have hproperty := (skipProperty_value hkey).trans h.skips
      refine (allRead_properties hlength hmarker).trans ?_
      rw [hproperty, allRead_property hkey, h.skips, Bool.or_eq_false_iff]
      exact and_congr ((and_iff_right rfl).trans (ih nofun)) (ihproperties nofun)
  | badKey h hproperties ih =>
      have hlength := length_of_skipProperties (Reads.badKey h hproperties).skips
      refine iff_of_false (fun hall => ?_) Bool.noConfusion
      have hread := ((allRead_properties hlength (take_ne_of_badLength h)).mp hall).1 _ .refl
      exact Bool.noConfusion ((congrArg Prod.fst (skipProperty_badKey h)).symm.trans hread)
  | badValue hkey h hproperties ih ihproperties =>
      have hlength := length_of_skipProperties (Reads.badValue hkey h hproperties).skips
      refine iff_of_false (fun hall => ?_) Bool.noConfusion
      have hread := ((allRead_properties hlength (take_ne_of_broken h.skips)).mp hall).1
      have hvalue := ((allRead_property hkey).mp hread).1
      exact Bool.noConfusion ((congrArg Prod.fst h.skips).symm.trans hvalue)
  | badBoolean h => exact absurd rfl hform
  | badNumber h => exact absurd rfl hform
  | badString h => exact absurd rfl hform
  | badArray hlt hitems h ihitems ih => exact absurd rfl hform
  | noValues => exact iff_of_true (allRead_leaf (fun _ => Call.noConfusion) rfl) rfl
  | values h hvalues ih ihvalues =>
      refine (allRead_full h.skips).trans ?_
      rw [Bool.or_eq_false_iff]
      exact and_congr (ih nofun) (ihvalues nofun)

/-- Errors propagate exactly when the grammar does not take the bytes for something with a broken
property in it. -/
theorem Form.propagates_iff {uninit : Uninit} {form : Form} {stream : List UInt8}
    (hform : form ≠ .broken) (hread : ∀ rest, form.Skips uninit stream rest →
      ∃ damaged, Reads uninit form stream rest damaged)
    (hok : (form.call stream).ok uninit = true ↔ ∃ rest, form.Skips uninit stream rest) :
    ErrorsPropagate uninit (form.call stream) ↔ ¬∃ rest, Reads uninit form stream rest true := by
  constructor
  · rintro hpropagate ⟨rest, h⟩
    have hall := hpropagate (hok.mpr ⟨rest, h.skips⟩)
    exact Bool.noConfusion ((h.allRead_iff hform).mp hall)
  · intro hnone hacc
    obtain ⟨rest, hskips⟩ := hok.mp hacc
    obtain ⟨damaged, h⟩ := hread rest hskips
    refine (h.allRead_iff hform).mpr ?_
    cases damaged with
    | false => rfl
    | true => exact absurd ⟨rest, h⟩ hnone

/-- Errors in the properties of a value, or of the values of a message, propagate exactly when the
grammar takes no key and no value of a property in them for a broken one. -/
theorem errorsPropagate_iff (uninit : Uninit) (stream : List UInt8) :
    (ErrorsPropagate uninit (any stream) ↔ ¬∃ rest, Reads uninit .value stream rest true) ∧
      (ErrorsPropagate uninit (full stream) ↔
        ¬∃ rest, Reads uninit .values stream rest true) := by
  constructor
  · refine @Form.propagates_iff _ .value _ nofun (fun rest => skipAny_iff.mp) ?_
    exact ⟨fun h => ⟨_, skip_eq_of_fst h⟩, fun ⟨rest, h⟩ => congrArg Prod.fst h⟩
  · refine @Form.propagates_iff _ .values _ nofun (fun rest => skipFull_iff.mp) ?_
    exact ⟨fun h => ⟨_, Prod.ext h rfl⟩, fun ⟨rest, h⟩ => congrArg Prod.fst h⟩

/-- An object whose only property is a boolean that is neither 0 nor 1 is accepted. -/
theorem not_errorsPropagate_boolean :
    ¬∀ (uninit : Uninit) (body : List UInt8), ErrorsPropagate uninit (any (0x03 :: body)) := by
  intro h
  have hkey : (Text.mk [0x61] (by decide)).bytes.length < 32768 := by decide
  have hboolean : Reads (fun _ => 0) .broken [0x01, 0x02, 0x00, 0x00, 0x09]
      [0x00, 0x00, 0x09] true := .badBoolean (by decide)
  have hread : Reads (fun _ => 0) .value
      [0x03, 0x00, 0x01, 0x61, 0x01, 0x02, 0x00, 0x00, 0x09] [] true :=
    .object (.badValue hkey hboolean .ended)
  have hall := h (fun _ => 0) _ (congrArg Prod.fst hread.skips)
  exact Bool.noConfusion ((hread.allRead_iff nofun).mp hall)

end AMF0Serializer

end Rtmp
