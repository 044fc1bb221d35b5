import Mathlib.Data.List.Induction
import Mathlib.Tactic.Common

/-!
# Histories and runs

A history is a list of entries in the order in which they were made; it is lawful
when every entry is allowed after those before it. A run carries a state through a
list of events with a step that can fail, and stops at a failure. What one step
keeps, a run keeps, also of the outputs its steps were seen to make.
-/

namespace History

variable {α : Type*} {allowed : List α → α → Prop}

/-- Every entry is allowed after the entries before it. -/
def Lawful (allowed : List α → α → Prop) (history : List α) : Prop :=
  ∀ before x after, history = before ++ x :: after → allowed before x

theorem lawful_nil : Lawful allowed [] := by
  intro before x after h
  simp at h

theorem lawful_concat {history : List α} {x : α} :
    Lawful allowed (history ++ [x]) ↔ Lawful allowed history ∧ allowed history x := by
  constructor
  · intro h
    refine ⟨?_, h history x [] rfl⟩
    rintro before y after rfl
    exact h before y (after ++ [x]) (by simp)
  · rintro ⟨h, hx⟩ before y after hsplit
    rcases List.eq_nil_or_concat after with rfl | ⟨after, z, rfl⟩
    · obtain ⟨rfl, hxy⟩ := List.append_inj' hsplit rfl
      cases hxy
      exact hx
    · have hsplit' : history ++ [x] = (before ++ y :: after) ++ [z] := by
        rw [hsplit, List.concat_eq_append, List.append_assoc, List.cons_append]
      obtain ⟨hhist, -⟩ := List.append_inj' hsplit' rfl
      exact h before y after hhist

/-- A history goes on lawfully with entries that are allowed after all of it. -/
theorem lawful_append {history entries : List α} :
    Lawful allowed (history ++ entries) ↔
      Lawful allowed history ∧ Lawful (fun before => allowed (history ++ before)) entries := by
  constructor
  · intro h
    constructor
    · rintro before x after rfl
      exact h before x (after ++ entries) (by simp)
    · rintro before x after rfl
      exact h (history ++ before) x after (by simp)
  · rintro ⟨hhist, hentries⟩
    induction entries using List.reverseRecOn with
    | nil => simpa using hhist
    | append_singleton entries x ih =>
        rw [lawful_concat] at hentries
        rw [← List.append_assoc, lawful_concat]
        exact ⟨ih hentries.1, hentries.2⟩

theorem lawful_cons {x : α} {entries : List α} :
    Lawful allowed (x :: entries) ↔
      allowed [] x ∧ Lawful (fun before => allowed (x :: before)) entries := by
  have hone : Lawful allowed [x] ↔ allowed [] x := by
    rw [← List.nil_append [x], lawful_concat]
    exact and_iff_right lawful_nil
  rw [← List.singleton_append, lawful_append, hone]
  rfl

theorem Lawful.mono {allowed' : List α → α → Prop} {history : List α} (h : Lawful allowed history)
    (himp : ∀ before x, allowed before x → allowed' before x) : Lawful allowed' history := by
  intro before x after hsplit
  exact himp before x (h before x after hsplit)

/-- An entry that is not made is in front of no other. -/
theorem lawful_of_not_mem {x : α} {history : List α} (h : x ∉ history) :
    Lawful (fun before _ => x ∉ before) history := by
  rintro before y after rfl hmem
  exact h (List.mem_append_left _ hmem)

/-- What comes last comes after every other entry. -/
theorem last_mem_after {entries before after : List α} {x last : α} (hne : x ≠ last)
    (h : entries ++ [last] = before ++ x :: after) : last ∈ after := by
  rcases List.eq_nil_or_concat after with rfl | ⟨after, y, rfl⟩
  · obtain ⟨-, hlast⟩ := List.append_inj' h rfl
    cases hlast
    exact absurd rfl hne
  · rw [List.concat_eq_append, ← List.cons_append, ← List.append_assoc] at h
    obtain ⟨-, hlast⟩ := List.append_inj' h rfl
    cases hlast
    simp

section Runs

variable {σ ε φ : Type*} (step : σ → ε → Except φ σ)

/-- The state after a list of events, or the failure that stopped the run. -/
def run (s : σ) : List ε → Except φ σ
  | [] => .ok s
  | e :: events =>
      match step s e with
      | .ok s' => run s' events
      | .error fault => .error fault

variable {step}

theorem exists_ok {α : Type*} {x : Except φ α} (h : x.isOk = true) : ∃ a, x = .ok a := by
  cases x with
  | error fault => cases h
  | ok a => exact ⟨a, rfl⟩

@[simp] theorem run_nil (s : σ) : run step s [] = .ok s := rfl

theorem run_cons_ok {s s' : σ} {e : ε} {events : List ε} :
    run step s (e :: events) = .ok s' ↔
      ∃ s₁, step s e = .ok s₁ ∧ run step s₁ events = .ok s' := by
  change (match step s e with
    | .ok s₁ => run step s₁ events
    | .error fault => .error fault) = .ok s' ↔ _
  cases step s e with
  | ok s₁ =>
      constructor
      · intro h
        exact ⟨s₁, rfl, h⟩
      · rintro ⟨_, ⟨⟩, h⟩
        exact h
  | error fault =>
      constructor
      · intro h
        cases h
      · rintro ⟨_, ⟨⟩, _⟩

theorem run_append_ok {s s' : σ} {events later : List ε} :
    run step s (events ++ later) = .ok s' ↔
      ∃ s₁, run step s events = .ok s₁ ∧ run step s₁ later = .ok s' := by
  induction events generalizing s with
  | nil => simp
  | cons e events ih =>
      rw [List.cons_append, run_cons_ok]
      constructor
      · rintro ⟨s₁, hstep, hrun⟩
        obtain ⟨s₂, hevents, hlater⟩ := ih.mp hrun
        exact ⟨s₂, run_cons_ok.mpr ⟨s₁, hstep, hevents⟩, hlater⟩
      · rintro ⟨s₂, hevents, hlater⟩
        obtain ⟨s₁, hstep, hrun⟩ := run_cons_ok.mp hevents
        exact ⟨s₁, hstep, ih.mpr ⟨s₂, hrun, hlater⟩⟩

theorem run_concat_ok {s s' : σ} {events : List ε} {e : ε} :
    run step s (events ++ [e]) = .ok s' ↔
      ∃ s₁, run step s events = .ok s₁ ∧ step s₁ e = .ok s' := by
  rw [run_append_ok]
  constructor
  · rintro ⟨s₁, hrun, hlast⟩
    obtain ⟨s₂, hstep, hnil⟩ := run_cons_ok.mp hlast
    rw [run_nil] at hnil
    cases hnil
    exact ⟨s₁, hrun, hstep⟩
  · rintro ⟨s₁, hrun, hstep⟩
    exact ⟨s₁, hrun, run_cons_ok.mpr ⟨s', hstep, rfl⟩⟩

/-- An invariant of the steps for the events of a run is one of the run. -/
theorem run_invariant_of_mem {inv : σ → Prop} {s s' : σ} {events : List ε}
    (hstep : ∀ e ∈ events, ∀ s s', inv s → step s e = .ok s' → inv s')
    (hinv : inv s) (hrun : run step s events = .ok s') : inv s' := by
  induction events generalizing s with
  | nil =>
      rw [run_nil] at hrun
      cases hrun
      exact hinv
  | cons e events ih =>
      obtain ⟨s₁, hs₁, hrest⟩ := run_cons_ok.mp hrun
      apply ih (fun e' he' => hstep e' (List.mem_cons_of_mem e he')) _ hrest
      exact hstep e List.mem_cons_self s s₁ hinv hs₁

/-- An invariant of the step is one of every run. -/
theorem run_invariant {inv : σ → Prop}
    (hstep : ∀ s e s', inv s → step s e = .ok s' → inv s') {s s' : σ} {events : List ε}
    (hinv : inv s) (hrun : run step s events = .ok s') : inv s' :=
  run_invariant_of_mem (fun e _ s s' => hstep s e s') hinv hrun

section LawfulRuns

variable {start : σ} {allowed : List ε → ε → Prop}

/-- What the allowed events of a run keep holds behind a lawful list of them. -/
theorem run_lawful {inv : List ε → σ → Prop} {s : σ} {events : List ε} (hstart : inv [] start)
    (hstep : ∀ before e s s', run step start before = .ok s → inv before s →
      allowed before e → step s e = .ok s' → inv (before ++ [e]) s')
    (hlawful : Lawful allowed events) (hrun : run step start events = .ok s) : inv events s := by
  induction events using List.reverseRecOn generalizing s with
  | nil =>
      cases hrun
      exact hstart
  | append_singleton events e ih =>
      obtain ⟨hbefore, hallowed⟩ := lawful_concat.mp hlawful
      obtain ⟨s₁, hevents, hlast⟩ := run_concat_ok.mp hrun
      exact hstep events e s₁ s hevents (ih hbefore hevents) hallowed hlast

/-- What each event keeps exactly when it is allowed holds exactly behind lawful events. -/
theorem run_lawful_iff {inv : σ → Prop} {s : σ} {events : List ε} (hstart : inv start)
    (hstep : ∀ before e s s', run step start before = .ok s → step s e = .ok s' →
      (inv s' ↔ inv s ∧ allowed before e))
    (hrun : run step start events = .ok s) : inv s ↔ Lawful allowed events := by
  induction events using List.reverseRecOn generalizing s with
  | nil =>
      cases hrun
      exact iff_of_true hstart lawful_nil
  | append_singleton events e ih =>
      obtain ⟨s₁, hevents, hlast⟩ := run_concat_ok.mp hrun
      rw [lawful_concat, hstep events e s₁ s hevents hlast, ih hevents]

end LawfulRuns

section Outputs

variable {β : Type*} (out : σ → ε → List β)

/-- What the steps of a run put out, in order. -/
def outputs (step : σ → ε → Except φ σ) (out : σ → ε → List β) : σ → List ε → List β
  | _, [] => []
  | s, e :: events =>
      out s e ++
        match step s e with
        | .ok s' => outputs step out s' events
        | .error _ => []

variable {out}

theorem outputs_cons {s s' : σ} {e : ε} {events : List ε} (h : step s e = .ok s') :
    outputs step out s (e :: events) = out s e ++ outputs step out s' events := by
  rw [outputs, h]

/-- An invariant of the state and all outputs so far. -/
theorem run_outputs_invariant {inv : List β → σ → Prop}
    (hstep : ∀ before s e s', inv before s → step s e = .ok s' → inv (before ++ out s e) s')
    {before : List β} {s s' : σ} {events : List ε} (hinv : inv before s)
    (hrun : run step s events = .ok s') : inv (before ++ outputs step out s events) s' := by
  induction events generalizing before s with
  | nil =>
      rw [run_nil] at hrun
      cases hrun
      rw [outputs, List.append_nil]
      exact hinv
  | cons e events ih =>
      obtain ⟨s₁, hs₁, hrest⟩ := run_cons_ok.mp hrun
      rw [outputs_cons hs₁, ← List.append_assoc]
      exact ih (hstep before s e s₁ hinv hs₁) hrest

/-- All outputs of a run are as wanted exactly when each step that is reached makes such
ones. -/
theorem outputs_forall_iff {wanted : β → Prop} {s : σ} {events : List ε} :
    (∀ b ∈ outputs step out s events, wanted b) ↔
      Lawful (fun before e => ∀ s', run step s before = .ok s' → ∀ b ∈ out s' e, wanted b)
        events := by
  induction events generalizing s with
  | nil => exact iff_of_true (by simp [outputs]) lawful_nil
  | cons e events ih =>
      rw [lawful_cons]
      cases hstep : step s e with
      | error fault =>
          have hnever : Lawful (fun before e' => ∀ s', run step s (e :: before) = .ok s' →
              ∀ b ∈ out s' e', wanted b) events := by
            intro before e' after _ s' hrun
            obtain ⟨s₁, hs₁, -⟩ := run_cons_ok.mp hrun
            rw [hstep] at hs₁
            cases hs₁
          rw [outputs, hstep, and_iff_left hnever]
          simp
      | ok s₁ =>
          have hlater : ∀ before s', run step s (e :: before) = .ok s' ↔
              run step s₁ before = .ok s' := by
            intro before s'
            rw [run_cons_ok, hstep]
            simp
          rw [outputs_cons hstep, List.forall_mem_append, ih]
          simp only [hlater, run_nil, Except.ok.injEq, forall_eq']

end Outputs

end Runs

end History
