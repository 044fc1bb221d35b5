import Mathlib.Logic.Relation
import RtmpModule.Streamer.PublishToStreamer

/-!
# What publishing does, one request at a time

A call of `publish_to_streamer` is a sequence of acts, each of them one call of a
publish function together with what its outcome changes in the context. An act says
in which state it is made and what it finds in the queue; whatever holds of every
act holds of every call.
-/

namespace Rtmp

/-- One call of a publish function and its effect. -/
inductive PublishAct (p : Publisher) : Publisher → Prop
  | beginFailed {ec : Int} (hstate : p.context.publishState = .begin) (hec : ec ≠ 0) :
      PublishAct p (p.record .beginPublish ec)
  | begun {uploadId addr : List UInt8} (hstate : p.context.publishState = .begin) :
      PublishAct p { p.record .beginPublish 0 with
        context := { p.context with
          publishId := uploadId, publishEsAddrPort := addr, publishState := .init,
          client := true } }
  | initFailed {ec : Int} (hstate : p.context.publishState = .init)
      (hready : p.context.readyToSend = true) (hec : ec ≠ 0) :
      PublishAct p (p.record .initPublish ec)
  | inited (hstate : p.context.publishState = .init) (hready : p.context.readyToSend = true) :
      PublishAct p { p.record .initPublish 0 with
        context := { p.context with publishState := .publishing } }
  | esFailed {ec : Int} (hstate : p.context.publishState = .publishing)
      (hne : p.context.mediaEs ≠ []) (hec : ec ≠ 0) :
      PublishAct p (p.record .publishEs ec)
  | uploaded (hstate : p.context.publishState = .publishing) (hne : p.context.mediaEs ≠ []) :
      PublishAct p { p.record .publishEs 0 with
        context := { p.context with mediaEs := p.context.mediaEs.tail } }
  | endFailed {ec : Int} (hstate : p.context.publishState ≠ .begin)
      (hempty : p.context.mediaEs = []) (hec : ec ≠ 0) :
      PublishAct p (p.record .endPublish ec)
  | ended (hstate : p.context.publishState ≠ .begin) (hempty : p.context.mediaEs = []) :
      PublishAct p { p.record .endPublish 0 with
        context := { p.context with publishState := .ended } }

/-- What every act keeps, any number of them keep. -/
theorem PublishAct.run_invariant {inv : Publisher → Prop}
    (hact : ∀ p q, inv p → PublishAct p q → inv q) {p q : Publisher} (hp : inv p)
    (hacts : Relation.ReflTransGen PublishAct p q) : inv q := by
  induction hacts with
  | refl => exact hp
  | tail _ hlast ih => exact hact _ _ ih hlast

namespace Publisher

variable {http : List PublishCall → HttpRequest → HttpResult} {json : List UInt8 → JsonDocument}
variable {p q : Publisher} {goesOn : Bool}

open Relation

theorem beginPart_acts (h : p.beginPart http json = .ok (q, goesOn)) :
    ReflTransGen PublishAct p q ∧ (goesOn = true → q.context.publishState ≠ .begin) := by
  rw [beginPart] at h
  split at h
  · next hstate =>
    split at h
    · cases h
    · next r _ =>
      by_cases hec : r.ec = 0
      · simp only [hec, ne_eq, not_true_eq_false, if_false, Except.ok.injEq, Prod.mk.injEq] at h
        obtain ⟨rfl, rfl⟩ := h
        exact ⟨.single (.begun hstate), fun _ => by simp⟩
      · simp only [ne_eq, hec, not_false_eq_true, if_true, Except.ok.injEq, Prod.mk.injEq] at h
        obtain ⟨rfl, rfl⟩ := h
        exact ⟨.single (.beginFailed hstate hec), by simp⟩
  · next hstate =>
    cases h
    exact ⟨.refl, fun _ => hstate⟩

theorem initPart_acts (hp : p.context.publishState ≠ .begin)
    (h : p.initPart http = (q, goesOn)) :
    ReflTransGen PublishAct p q ∧ q.context.publishState ≠ .begin := by
  rw [initPart] at h
  split at h
  · next hready =>
    by_cases hec : initPublish (http p.calls) p.context = 0
    · simp only [hec, ne_eq, not_true_eq_false, if_false, Prod.mk.injEq] at h
      obtain ⟨rfl, rfl⟩ := h
      exact ⟨.single (.inited hready.1 hready.2), by simp⟩
    · simp only [ne_eq, hec, not_false_eq_true, if_true, Prod.mk.injEq] at h
      obtain ⟨rfl, rfl⟩ := h
      exact ⟨.single (.initFailed hready.1 hready.2 hec), hp⟩
  · cases h
    exact ⟨.refl, hp⟩

theorem esLoop_idle (h : ¬ (p.context.publishState = .publishing ∧ p.context.mediaEs ≠ [])) :
    p.esLoop http = (p, true) := by
  rw [esLoop, dif_neg h]

theorem esLoop_failed (hstate : p.context.publishState = .publishing)
    (hne : p.context.mediaEs ≠ []) (hec : publishEs (http p.calls) p.context ≠ 0) :
    p.esLoop http = (p.record .publishEs (publishEs (http p.calls) p.context), false) := by
  rw [esLoop, dif_pos ⟨hstate, hne⟩]
  simp only [ne_eq, hec, not_false_eq_true, if_true]

/-- The state behind a frame that was uploaded, or had no bytes to upload. -/
def afterUpload (p : Publisher) : Publisher :=
  { p.record .publishEs 0 with context := { p.context with mediaEs := p.context.mediaEs.tail } }

theorem esLoop_uploaded (hstate : p.context.publishState = .publishing)
    (hne : p.context.mediaEs ≠ []) (hec : publishEs (http p.calls) p.context = 0) :
    p.esLoop http = p.afterUpload.esLoop http := by
  rw [esLoop, dif_pos ⟨hstate, hne⟩]
  simp only [hec, ne_eq, not_true_eq_false, if_false]
  rfl

/-- Induction over the frames that wait; the state does not change in the loop. -/
theorem esLoop_acts (hp : p.context.publishState ≠ .begin) (h : p.esLoop http = (q, goesOn)) :
    ReflTransGen PublishAct p q ∧ q.context.publishState ≠ .begin := by
  induction hn : p.context.mediaEs.length generalizing p with
  | zero =>
      have hempty : p.context.mediaEs = [] := List.length_eq_zero_iff.mp hn
      rw [esLoop_idle (by simp [hempty])] at h
      cases h
      exact ⟨.refl, hp⟩
  | succ n ih =>
      have hne : p.context.mediaEs ≠ [] := by
        intro hempty
        simp [hempty] at hn
      by_cases hstate : p.context.publishState = .publishing
      · by_cases hec : publishEs (http p.calls) p.context = 0
        · rw [esLoop_uploaded hstate hne hec] at h
          obtain ⟨hacts, hq⟩ := @ih p.afterUpload hp h (by simp [afterUpload, hn])
          exact ⟨.head (.uploaded hstate hne) hacts, hq⟩
        · rw [esLoop_failed hstate hne hec] at h
          cases h
          exact ⟨.single (.esFailed hstate hne hec), hp⟩
      · rw [esLoop_idle fun h => hstate h.1] at h
        cases h
        exact ⟨.refl, hp⟩

theorem endPart_acts (hp : p.context.publishState ≠ .begin) :
    ReflTransGen PublishAct p (p.endPart http) := by
  rw [endPart]
  split
  · next hend =>
    have hempty : p.context.mediaEs = [] := List.isEmpty_iff.mp hend.1
    by_cases hec : endPublish (http p.calls) p.context = 0
    · simp only [hec, ne_eq, not_true_eq_false, if_false]
      exact .single (.ended hp hempty)
    · simp only [ne_eq, hec, not_false_eq_true, if_true]
      exact .single (.endFailed hp hempty hec)
  · exact .refl

/-- A call of `publish_to_streamer` is a sequence of acts. -/
theorem publishToStreamer_acts (h : p.publishToStreamer http json = .ok q) :
    ReflTransGen PublishAct p q := by
  rw [publishToStreamer] at h
  split at h
  · cases h
  · next hbegin =>
    cases h
    exact (beginPart_acts hbegin).1
  · next p₁ hbegin =>
    obtain ⟨hacts₁, hstate₁⟩ := beginPart_acts hbegin
    split at h
    · next hinit =>
      cases h
      exact hacts₁.trans (initPart_acts (hstate₁ rfl) hinit).1
    · next p₂ hinit =>
      obtain ⟨hacts₂, hstate₂⟩ := initPart_acts (hstate₁ rfl) hinit
      split at h
      · next hloop =>
        cases h
        exact (hacts₁.trans hacts₂).trans (esLoop_acts hstate₂ hloop).1
      · next p₃ hloop =>
        cases h
        obtain ⟨hacts₃, hstate₃⟩ := esLoop_acts hstate₂ hloop
        exact ((hacts₁.trans hacts₂).trans hacts₃).trans (endPart_acts hstate₃)

end Publisher

end Rtmp
