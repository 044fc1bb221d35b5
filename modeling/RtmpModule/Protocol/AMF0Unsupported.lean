import RtmpModule.Protocol.AMF0Values
import RtmpModule.Protocol.AMF0Writer
import RtmpModule.Protocol.MessageParsers

/-!
# Values of unsupported types

Of a value of another type than those it knows `consume_any` does not look for the end:
it goes on to the next end marker. When the value has none, that is the marker of a
later value of the same object, with all that is between them lost, or the one the loop
of the object waits for, which then goes on behind the object.
-/

namespace Amf0

/-- The values `consume_any` does not decode. -/
def Value.undecoded : Value → Bool
  | .number _ | .boolean _ | .string _ | .object _ | .null | .undefined | .ecmaArray _ _
  | .strictArray _ _ => false
  | _ => true

mutual

/-- Reading the value takes a number of the end markers behind it. Of the items of an array only
the last may. -/
def Value.RunsOn : Value → Nat → Prop
  | .number _, n | .boolean _, n | .null, n | .undefined, n => n = 0
  | .string text, n => text.bytes.length < 32768 ∧ n = 0
  | .object properties, n | .ecmaArray _ properties, n => properties.RunsOn n
  | .strictArray count items, n =>
      (∀ i, (items i).RunsOn (if i.val + 1 = count.toNat then n else 0)) ∧
        (count.toNat = 0 → n = 0)
  | v, n => UpToMarker v.encode.tail ∧ n = 0

/-- Reading the value ends in a search for the end marker, from these bytes on. -/
def Value.Searches : Value → List UInt8 → Prop
  | .strictArray count items, bytes =>
      ∃ last : Fin count.toNat, last.val + 1 = count.toNat ∧
        (∀ i < last, (items i).RunsOn 0) ∧ (items last).Searches bytes
  | v, bytes => v.undecoded = true ∧ bytes = v.encode.tail

/-- Reading properties takes a number of the end markers behind their own. -/
def Properties.RunsOn : Properties → Nat → Prop
  | .nil, n => n = 0
  | .cons key value properties, n =>
      key.bytes.length < 32768 ∧
        ((∃ first others, value.RunsOn first ∧ properties.RunsOn others ∧ n = first + others) ∨
          (∃ bytes, value.Searches bytes ∧ properties.TakenUpTo bytes n))

/-- The first end marker in the bytes of a value that is not decoded and what comes behind it ends
a property, or is that of the properties. -/
def Properties.TakenUpTo : Properties → List UInt8 → Nat → Prop
  | .nil, before, n => UpToMarker (before ++ endMarker) ∧ n = 1
  | .cons key value properties, before, n =>
      (UpToMarker (before ++ (key.encode ++ value.encode)) ∧ properties.RunsOn n) ∨
        properties.TakenUpTo (before ++ (key.encode ++ value.encode)) n

end

end Amf0

namespace Rtmp

namespace AMF0Serializer

open StreamUtil Bytes Amf0

/-- What has properties and an end marker of its own. -/
inductive Container where
  | object (properties : Properties)
  | ecmaArray (count : UInt32) (properties : Properties)

def Container.value : Container → Value
  | object properties => .object properties
  | ecmaArray count properties => .ecmaArray count properties

/-- A container is accepted, and its own end marker is the last that is taken. -/
def StaysInside (uninit : Uninit) (c : Container) (rest : List UInt8) : Prop :=
  (consumeAny uninit (c.value.encode ++ rest)).ok = true ∧
    (consumeAny uninit (c.value.encode ++ rest)).rest = rest

/-- The body of an `@setDataFrame` message with some values. -/
def dataFrame (values : List Value) : List UInt8 :=
  0x02 :: (toBE 2 DataMsgParser.setDataFrame.length ++ DataMsgParser.setDataFrame ++
    values.flatMap Value.encode)

/-- What is left when properties are read a number of times from what comes behind a value. -/
def runOn (uninit : Uninit) : Nat → List UInt8 → Skip
  | 0, rest => (true, rest)
  | n + 1, rest => skipProperties uninit (runOn uninit n rest).2

variable {uninit : Uninit} {stream rest : List UInt8} {n : Nat}

section Lengths

theorem skipProperties_length_le : (skipProperties uninit stream).2.length ≤ stream.length :=
  (consumeProperties uninit stream).suffix.length_le

/-- Properties end behind where they begin. -/
theorem skipProperties_length_lt (h : skipProperties uninit stream = (true, rest)) :
    rest.length < stream.length := by
  have hlength := length_of_skipProperties h
  by_cases hmarker : stream.take 3 = endMarker
  · rw [← List.take_append_drop 3 stream, hmarker] at h
    have hrest : stream.drop 3 = rest :=
      (Prod.mk.inj ((skipProperties_ended uninit _).symm.trans h)).2
    rw [← hrest, List.length_drop]
    omega
  · rw [skipProperties_next uninit _ hlength hmarker] at h
    have hlt : (skipProperty uninit stream).2.length < stream.length :=
      (consumeAnyProperty uninit stream).progress (by omega)
    have hle : rest.length ≤ (skipProperty uninit stream).2.length := by
      have hsuffix := @skipProperties_length_le uninit (skipProperty uninit stream).2
      rwa [h] at hsuffix
    exact hle.trans_lt hlt

theorem runOn_length_le : (runOn uninit n rest).2.length ≤ rest.length := by
  induction n with
  | zero => exact le_rfl
  | succ n ih => exact skipProperties_length_le.trans ih

/-- Reading that runs on never ends where it should. -/
theorem runOn_eq_iff : runOn uninit n rest = (true, rest) ↔ n = 0 := by
  cases n with
  | zero => exact iff_of_true rfl rfl
  | succ n =>
      refine iff_of_false ?_ n.succ_ne_zero
      intro h
      exact Nat.not_lt.mpr runOn_length_le (skipProperties_length_lt h)

/-- At the end of a message it fails. -/
theorem runOn_nil : runOn uninit (n + 1) [] = (false, []) := by
  have hnil : (runOn uninit n []).2 = [] :=
    List.eq_nil_of_length_eq_zero (Nat.le_zero.mp runOn_length_le)
  rw [runOn, hnil]
  exact skipProperties_short uninit [] (by decide)

end Lengths

section Reading

/-- A value that runs on into the properties behind it ends their loop for them. -/
theorem runOn_add {others : Nat} (h : skipProperties uninit stream = runOn uninit others rest)
    (first : Nat) : runOn uninit (first + 1) stream = runOn uninit (first + others) rest := by
  induction first with
  | zero =>
      rw [Nat.zero_add, Nat.zero_add]
      exact h
  | succ first ih => rw [runOn, ih, Nat.succ_add, runOn]

theorem skipItems_one : skipItems uninit stream 1 = skipAny uninit stream := by
  cases hok : (skipAny uninit stream).1 with
  | true =>
      rw [skipItems_ok uninit _ hok, skipItems_zero]
      exact Prod.ext hok.symm rfl
  | false =>
      rw [skipItems_failed uninit _ hok]
      exact Prod.ext hok.symm rfl

theorem skipItems_encode_nil {count : Nat} {items : Fin count → List UInt8} (h : count = 0) :
    skipItems uninit ((List.ofFn items).flatten ++ rest) count = (true, rest) := by
  subst h
  exact skipItems_zero uninit rest

/-- When the other items are each read to their end, an array is left as its last item is. -/
theorem skipItems_encode {count : Nat} {items : Fin count → List UInt8} (last : Fin count)
    (hlast : last.val + 1 = count)
    (h : ∀ i < last, ∀ rest, skipAny uninit (items i ++ rest) = (true, rest))
    (rest : List UInt8) :
    skipItems uninit ((List.ofFn items).flatten ++ rest) count =
      skipAny uninit (items last ++ rest) := by
  induction count with
  | zero => exact last.elim0
  | succ count ih =>
      rw [List.ofFn_succ, List.flatten_cons, List.append_assoc]
      induction last using Fin.cases with
      | zero =>
          obtain rfl : count = 0 := by
            rw [Fin.val_zero] at hlast
            omega
          rw [List.ofFn_zero, List.flatten_nil, List.nil_append, skipItems_one]
      | succ last =>
          have hfirst := h 0 last.succ_pos ((List.ofFn fun i => items i.succ).flatten ++ rest)
          rw [skipItems_ok uninit _ (congrArg Prod.fst hfirst), hfirst]
          rw [Fin.val_succ, Nat.add_right_cancel_iff] at hlast
          exact ih last hlast fun i hi => h i.succ (Fin.succ_lt_succ_iff.mpr hi)

/-- The loop over properties goes on behind the value of the first. -/
theorem skipProperties_cons {key : Text} (hkey : key.bytes.length < 32768) (v : Value)
    (rest : List UInt8) :
    skipProperties uninit (key.encode ++ (v.encode ++ rest)) =
      skipProperties uninit (skipAny uninit (v.encode ++ rest)).2 := by
  obtain ⟨type, body, hv, -⟩ := v.encode_eq_cons
  have hlength : 3 ≤ (key.encode ++ (v.encode ++ rest)).length := by
    simp only [hv, Text.encode, List.length_append, List.length_cons, length_toBE]
    omega
  rw [skipProperties_next uninit _ hlength (take_property_ne key v rest), skipProperty_value hkey]

theorem skipAny_undecoded {v : Value} (h : v.undecoded = true) (rest : List UInt8) :
    skipAny uninit (v.encode ++ rest) =
      (true, consumeUntilEndOfObject (v.encode.tail ++ rest)) := by
  cases v with
  | number _ | boolean _ | string _ | object _ | null | undefined | ecmaArray _ _
  | strictArray _ _ => cases h
  | _ => exact skipAny_unknown uninit _ rfl

mutual

theorem skipAny_encode {n : Nat} (v : Value) (h : v.RunsOn n) (rest : List UInt8) :
    skipAny uninit (v.encode ++ rest) = runOn uninit n rest := by
  match v with
  | .number bits =>
      obtain rfl : n = 0 := h
      exact (reads_value (.number bits) trivial rest).skips
  | .boolean value =>
      obtain rfl : n = 0 := h
      exact (reads_value (.boolean value) trivial rest).skips
  | .string text =>
      obtain ⟨htext, rfl⟩ : text.bytes.length < 32768 ∧ n = 0 := h
      exact (reads_value (.string text) htext rest).skips
  | .null | .undefined =>
      obtain rfl : n = 0 := h
      exact skipAny_bare uninit _ rfl
  | .object properties =>
      rw [Value.encode, List.cons_append, List.append_assoc, skipAny_object]
      exact skipProperties_encode properties h rest
  | .ecmaArray count properties =>
      rw [Value.encode, List.cons_append, List.append_assoc, List.append_assoc,
        skipAny_mixedArray, readNumber4byte_append]
      exact skipProperties_encode properties h rest
  | .strictArray count items =>
      obtain ⟨hitems, hnone⟩ := h
      rw [Value.encode, List.cons_append, List.append_assoc, skipAny_array_count]
      by_cases hcount : count.toNat = 0
      · rw [hnone hcount, skipItems_encode_nil hcount]
        rfl
      · obtain ⟨last, hlast⟩ : ∃ last : Fin count.toNat, last.val + 1 = count.toNat :=
          ⟨⟨count.toNat - 1, by omega⟩, Nat.sub_add_cancel (by omega)⟩
        have hrunsOn := hitems last
        rw [if_pos hlast] at hrunsOn
        rw [skipItems_encode last hlast]
        · exact skipAny_encode (items last) hrunsOn rest
        · intro i hi
          have hitem := hitems i
          rw [if_neg (by rw [Fin.lt_def] at hi; omega)] at hitem
          exact skipAny_encode (items i) hitem
  | .movieClip _ | .reference _ | .date _ _ | .longString _ | .unsupported | .recordSet _
  | .xmlDocument _ | .typedObject _ _ | .avmPlus _ =>
      obtain ⟨hmarker, rfl⟩ := h
      rw [skipAny_undecoded rfl, scan_upToMarker hmarker]
      rfl

theorem skipAny_searches (v : Value) {bytes : List UInt8} (h : v.Searches bytes)
    (rest : List UInt8) :
    skipAny uninit (v.encode ++ rest) = (true, consumeUntilEndOfObject (bytes ++ rest)) := by
  match v with
  | .strictArray count items =>
      obtain ⟨last, hlast, hothers, hsearches⟩ := h
      rw [Value.encode, List.cons_append, List.append_assoc, skipAny_array_count,
        skipItems_encode last hlast fun i hi => skipAny_encode (items i) (hothers i hi)]
      exact skipAny_searches (items last) hsearches rest
  | .number _ | .boolean _ | .string _ | .object _ | .null | .undefined | .ecmaArray _ _ =>
      exact absurd h.1 Bool.false_ne_true
  | .movieClip _ | .reference _ | .date _ _ | .longString _ | .unsupported | .recordSet _
  | .xmlDocument _ | .typedObject _ _ | .avmPlus _ =>
      obtain ⟨-, rfl⟩ := h
      exact skipAny_undecoded rfl rest

theorem skipProperties_encode {n : Nat} (properties : Properties) (h : properties.RunsOn n)
    (rest : List UInt8) :
    skipProperties uninit (properties.encode ++ (endMarker ++ rest)) = runOn uninit n rest := by
  match properties with
  | .nil =>
      obtain rfl : n = 0 := h
      exact skipProperties_ended uninit rest
  | .cons key value properties =>
      obtain ⟨hkey, hvalue⟩ := h
      rw [Properties.encode, List.append_assoc, List.append_assoc, skipProperties_cons hkey]
      rcases hvalue with ⟨first, others, hfirst, hothers, rfl⟩ | ⟨bytes, hsearches, htaken⟩
      · rw [skipAny_encode value hfirst]
        exact runOn_add (skipProperties_encode properties hothers rest) first
      · rw [skipAny_searches value hsearches]
        exact skipProperties_scan properties bytes htaken rest

theorem skipProperties_scan {n : Nat} (properties : Properties) (before : List UInt8)
    (h : properties.TakenUpTo before n) (rest : List UInt8) :
    skipProperties uninit
        (consumeUntilEndOfObject (before ++ (properties.encode ++ (endMarker ++ rest)))) =
      runOn uninit n rest := by
  match properties with
  | .nil =>
      obtain ⟨hmarker, rfl⟩ : UpToMarker (before ++ endMarker) ∧ n = 1 := h
      have hscan := scan_upToMarker hmarker rest
      rw [List.append_assoc] at hscan
      rw [Properties.encode, List.nil_append, hscan]
      rfl
  | .cons key value properties =>
      have hbytes : before ++ ((Properties.cons key value properties).encode ++
          (endMarker ++ rest)) = before ++ (key.encode ++ value.encode) ++
            (properties.encode ++ (endMarker ++ rest)) := by
        rw [Properties.encode, List.append_assoc _ properties.encode, List.append_assoc before]
      rw [hbytes]
      rcases h with ⟨hmarker, hproperties⟩ | htaken
      · rw [scan_upToMarker hmarker]
        exact skipProperties_encode properties hproperties rest
      · exact skipProperties_scan properties _ htaken rest

end

/-- Values that are each read to their end are skipped, and what comes behind them is next. -/
theorem skipFull_append (values : List Value) (h : ∀ v ∈ values, v.RunsOn 0)
    (rest : List UInt8) :
    skipFull uninit (values.flatMap Value.encode ++ rest) = skipFull uninit rest := by
  induction values with
  | nil => rfl
  | cons v values ih =>
      have hv : skipAny uninit (v.encode ++ (values.flatMap Value.encode ++ rest)) = (true, _) :=
        skipAny_encode v (h v List.mem_cons_self) _
      have hok := congrArg Prod.fst hv
      rw [List.flatMap_cons, List.append_assoc, skipFull_ok uninit _ (ne_nil_of_skipAny hok) hok,
        hv]
      exact ih fun u hu => h u (List.mem_cons_of_mem v hu)

/-- A message is skipped whole when no value in it runs on, and not when the last one does. -/
theorem skipFull_runsOn {v : Value} (h : v.RunsOn n) (before after : List Value)
    (hothers : ∀ u ∈ before ++ after, u.RunsOn 0) (hlast : n = 0 ∨ after = []) :
    skipFull uninit ((before ++ v :: after).flatMap Value.encode) = (decide (n = 0), []) := by
  have hbefore := fun u hu => hothers u (List.mem_append_left after hu)
  have hafter := fun u hu => hothers u (List.mem_append_right before hu)
  rw [List.flatMap_append, skipFull_append before hbefore, List.flatMap_cons]
  cases n with
  | zero =>
      have hv : skipAny uninit (v.encode ++ after.flatMap Value.encode) = (true, _) :=
        skipAny_encode v h _
      have hok := congrArg Prod.fst hv
      have hskip := @skipFull_append uninit after hafter []
      rw [List.append_nil] at hskip
      rw [skipFull_ok uninit _ (ne_nil_of_skipAny hok) hok, hv, hskip, skipFull_nil]
      rfl
  | succ n =>
      obtain rfl : after = [] := hlast.resolve_left n.succ_ne_zero
      obtain ⟨type, body, hbytes, -⟩ := v.encode_eq_cons
      have hv : skipAny uninit (v.encode ++ []) = (false, []) :=
        (skipAny_encode v h []).trans runOn_nil
      have hne : v.encode ++ [] ≠ [] := by
        rw [hbytes]
        exact List.cons_ne_nil _ _
      rw [List.flatMap_nil, skipFull_failed uninit _ hne (congrArg Prod.fst hv), hv]
      rfl

end Reading

/-- An `@setDataFrame` message is accepted when the values in it are skipped. -/
theorem parseDataMsg_dataFrame (p : DataMsgParser) (header : RtmpHeader) (values : List Value) :
    (p.parseDataMsg uninit header (dataFrame values)).1 =
      .ok (skipFull uninit (values.flatMap Value.encode)).1 := by
  have hname : readShortString (dataFrame values) true =
      (some DataMsgParser.setDataFrame, values.flatMap Value.encode) := by
    have htext : readShortString
        ((Text.mk DataMsgParser.setDataFrame (by decide)).encode ++
          values.flatMap Value.encode) false =
        (some DataMsgParser.setDataFrame, values.flatMap Value.encode) :=
      readShortString_text (by decide)
    exact (readShortString_typed _ true).trans htext
  rw [DataMsgParser.parseDataMsg, hname]
  change _ = Except.ok (consumeFull uninit (values.flatMap Value.encode)).ok
  cases hok : (consumeFull uninit (values.flatMap Value.encode)).ok with
  | false => simp [hok]
  | true => simp [hok]

/-- When reading a container takes `n` end markers behind its own, it is read to its end exactly
when `n` is 0, and so is a data message that ends with it. -/
theorem staysInside_iff (uninit : Uninit) (c : Container) (n : Nat) (h : c.value.RunsOn n) :
    (∀ rest, StaysInside uninit c rest ↔ n = 0) ∧
      ∀ (p : DataMsgParser) (header : RtmpHeader) (before after : List Value),
        (∀ v ∈ before ++ after, v.RunsOn 0) → n = 0 ∨ after = [] →
          (p.parseDataMsg uninit header (dataFrame (before ++ c.value :: after))).1 =
            .ok (decide (n = 0)) := by
  constructor
  · intro rest
    rw [← @runOn_eq_iff uninit rest n, ← skipAny_encode c.value h]
    exact ⟨fun hstays => Prod.ext hstays.1 hstays.2, Prod.mk.inj⟩
  · intro p header before after hothers hlast
    rw [parseDataMsg_dataFrame, skipFull_runsOn h before after hothers hlast]

/-- An object with a date in it. -/
def creationDate : Container := .object (.cons ⟨[0x64], by decide⟩ (.date 0 0) .nil)

/-- The date takes the end marker of the object. -/
theorem creationDate_runsOn : creationDate.value.RunsOn 1 :=
  ⟨by decide, .inr ⟨_, ⟨rfl, rfl⟩, by decide, rfl⟩⟩

/-- An array with a date in it, and an empty object behind it. -/
def dateAndObject : Container :=
  .ecmaArray 2 (.cons ⟨[0x64], by decide⟩ (.date 0 0)
    (.cons ⟨[0x6f], by decide⟩ (.object .nil) .nil))

theorem staysInside_iff_dates :
    (∀ rest, StaysInside (fun _ => 0) dateAndObject rest) ∧
      ({ : DataMsgParser }.parseDataMsg (fun _ => 0) {}
        (dataFrame [.null, dateAndObject.value, .number 0])).1 = .ok true ∧
      (∀ rest, ¬StaysInside (fun _ => 0) creationDate rest) ∧
      ({ : DataMsgParser }.parseDataMsg (fun _ => 0) {}
        (dataFrame [.null, creationDate.value])).1 = .ok false := by
  have hkept : dateAndObject.value.RunsOn 0 :=
    ⟨by decide, .inr ⟨_, ⟨rfl, rfl⟩, .inl ⟨by decide, rfl⟩⟩⟩
  have hothers : ∀ v ∈ [Value.null] ++ [.number 0], v.RunsOn 0 := by
    intro v hv
    rcases List.mem_pair.mp hv with rfl | rfl <;> rfl
  have hbefore : ∀ v ∈ [Value.null] ++ [], v.RunsOn 0 := by
    intro v hv
    rw [List.mem_singleton.mp hv]
    rfl
  obtain ⟨hstays, haccepts⟩ := staysInside_iff (fun _ => 0) dateAndObject 0 hkept
  obtain ⟨hleaves, hrefuses⟩ := staysInside_iff (fun _ => 0) creationDate 1 creationDate_runsOn
  refine ⟨fun rest => (hstays rest).mpr rfl, haccepts {} {} [.null] [.number 0] hothers (.inl rfl),
    fun rest hrest => Nat.one_ne_zero ((hleaves rest).mp hrest), ?_⟩
  exact hrefuses {} {} [.null] [] hbefore (.inr rfl)

/-- The object is not accepted at the end of a message. -/
theorem not_staysInside_creationDate :
    ¬∀ (uninit : Uninit) (c : Container) (rest : List UInt8), StaysInside uninit c rest := by
  intro h
  obtain ⟨hok, -⟩ := h (fun _ => 0) creationDate []
  have hskip : skipAny (fun _ => 0) (creationDate.value.encode ++ []) = (false, []) :=
    (skipAny_encode creationDate.value creationDate_runsOn []).trans runOn_nil
  exact Bool.noConfusion ((congrArg Prod.fst hskip).symm.trans hok)

end AMF0Serializer

end Rtmp
