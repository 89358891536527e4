/-
  Foundation/Transition.lean --- runs of a labelled transition function.

  A system is a partial function from a state and a label to the next state; every
  choice (who moves, what the environment answers) is part of the label.  A run is a
  list of labels, and it exists if each label is enabled where it is taken.
-/
import Mathlib.Data.List.Chain

set_option autoImplicit false

namespace Esp32Deskflow.Foundation.Transition

variable {σ α : Type}

/-- The state at the end of a run. -/
def run (step : σ → α → Option σ) : σ → List α → Option σ
  | s, [] => some s
  | s, a :: as => (step s a).bind fun m => run step m as

/-- Every step of a run is taken in a state where it is `good`. -/
def AllSteps (step : σ → α → Option σ) (good : σ → α → Prop) : σ → List α → Prop
  | _, [] => True
  | s, a :: as => good s a ∧ ∀ m, step s a = some m → AllSteps step good m as

variable {step : σ → α → Option σ}

@[simp] theorem run_nil (s : σ) : run step s [] = some s := rfl

theorem run_cons_iff {s t : σ} {a : α} {as : List α} :
    run step s (a :: as) = some t ↔ ∃ m, step s a = some m ∧ run step m as = some t := by
  simp only [run, Option.bind_eq_some_iff]

theorem run_append (s : σ) (as bs : List α) :
    run step s (as ++ bs) = (run step s as).bind fun m => run step m bs := by
  induction as generalizing s with
  | nil => rfl
  | cons a as ih =>
      simp only [List.cons_append, run]
      cases step s a with
      | none => rfl
      | some m => exact ih m

theorem run_append_iff {s t : σ} {as bs : List α} :
    run step s (as ++ bs) = some t ↔ ∃ m, run step s as = some m ∧ run step m bs = some t := by
  rw [run_append, Option.bind_eq_some_iff]

/-- If every label is enabled in every state, every run exists. -/
theorem run_total (htotal : ∀ s a, ∃ t, step s a = some t) (s : σ) (as : List α) :
    ∃ t, run step s as = some t := by
  induction as generalizing s with
  | nil => exact ⟨s, rfl⟩
  | cons a as ih =>
      obtain ⟨m, hm⟩ := htotal s a
      obtain ⟨t, ht⟩ := ih m
      exact ⟨t, run_cons_iff.mpr ⟨m, hm, ht⟩⟩

/-- What every step preserves, every run preserves. -/
theorem run_invariant {Inv : σ → Prop}
    (hstep : ∀ s a t, Inv s → step s a = some t → Inv t) :
    ∀ {as : List α} {s t : σ}, Inv s → run step s as = some t → Inv t := by
  intro as
  induction as with
  | nil =>
      intro s t hs hrun
      cases hrun
      exact hs
  | cons a as ih =>
      intro s t hs hrun
      obtain ⟨m, hm, hrest⟩ := run_cons_iff.mp hrun
      exact ih (hstep s a m hs hm) hrest

/-- What every good step preserves, every run of good steps preserves. -/
theorem run_invariant_of_good {Inv : σ → Prop} {good : σ → α → Prop}
    (hstep : ∀ s a t, Inv s → good s a → step s a = some t → Inv t) :
    ∀ {as : List α} {s t : σ}, Inv s → AllSteps step good s as → run step s as = some t →
      Inv t := by
  intro as
  induction as with
  | nil =>
      intro s t hs _ hrun
      cases hrun
      exact hs
  | cons a as ih =>
      intro s t hs hgood hrun
      obtain ⟨m, hm, hrest⟩ := run_cons_iff.mp hrun
      exact ih (hstep s a m hs hgood.1 hm) (hgood.2 m hm) hrest

/-- If every good step is enabled and keeps the invariant, a run of good steps exists and keeps
it. -/
theorem run_total_of_good {Inv : σ → Prop} {good : σ → α → Prop}
    (hstep : ∀ s a, Inv s → good s a → ∃ t, step s a = some t ∧ Inv t) {s : σ} {as : List α}
    (hs : Inv s) (hgood : AllSteps step good s as) : ∃ t, run step s as = some t ∧ Inv t := by
  induction as generalizing s with
  | nil => exact ⟨s, rfl, hs⟩
  | cons a as ih =>
      obtain ⟨m, hm, hinv⟩ := hstep s a hs hgood.1
      obtain ⟨t, hrest, ht⟩ := ih hinv (hgood.2 m hm)
      exact ⟨t, run_cons_iff.mpr ⟨m, hm, hrest⟩, ht⟩

theorem allSteps_cons_of_some {good : σ → α → Prop} {s m : σ} {a : α} {as : List α}
    (hstep : step s a = some m) :
    AllSteps step good s (a :: as) ↔ good s a ∧ AllSteps step good m as := by
  refine and_congr_right fun _ => ⟨fun hall => hall m hstep, ?_⟩
  intro hall m' hm'
  rw [hstep] at hm'
  cases hm'
  exact hall

theorem allSteps_cons_of_none {good : σ → α → Prop} {s : σ} {a : α} {as : List α}
    (hstep : step s a = none) : AllSteps step good s (a :: as) ↔ good s a := by
  refine ⟨And.left, fun hgood => ⟨hgood, ?_⟩⟩
  intro m hm
  rw [hstep] at hm
  cases hm

theorem AllSteps.mono {good good' : σ → α → Prop} (himp : ∀ s a, good s a → good' s a)
    {s : σ} {as : List α} (h : AllSteps step good s as) : AllSteps step good' s as := by
  induction as generalizing s with
  | nil => trivial
  | cons a as ih => exact ⟨himp s a h.1, fun m hm => ih (h.2 m hm)⟩

theorem AllSteps.and {good good' : σ → α → Prop} {s : σ} {as : List α}
    (h : AllSteps step good s as) (h' : AllSteps step good' s as) :
    AllSteps step (fun s a => good s a ∧ good' s a) s as := by
  induction as generalizing s with
  | nil => trivial
  | cons a as ih => exact ⟨⟨h.1, h'.1⟩, fun m hm => ih (h.2 m hm) (h'.2 m hm)⟩

theorem AllSteps.of_append {good : σ → α → Prop} {s : σ} {as bs : List α}
    (h : AllSteps step good s (as ++ bs)) : AllSteps step good s as := by
  induction as generalizing s with
  | nil => trivial
  | cons a as ih => exact ⟨h.1, fun m hm => ih (h.2 m hm)⟩

theorem allSteps_of_forall {good : σ → α → Prop} {s : σ} {as : List α}
    (hgood : ∀ a ∈ as, ∀ s, good s a) : AllSteps step good s as := by
  induction as generalizing s with
  | nil => trivial
  | cons a as ih =>
      obtain ⟨ha, has⟩ := List.forall_mem_cons.mp hgood
      exact ⟨ha s, fun _ _ => ih has⟩

/-- Labels that are good in every state may be appended. -/
theorem AllSteps.append_of_forall {good : σ → α → Prop} {s : σ} {as bs : List α}
    (h : AllSteps step good s as) (hgood : ∀ b ∈ bs, ∀ s, good s b) :
    AllSteps step good s (as ++ bs) := by
  induction as generalizing s with
  | nil => exact allSteps_of_forall hgood
  | cons a as ih => exact ⟨h.1, fun m hm => ih (h.2 m hm)⟩

/-- A condition that implies another one under an invariant, which its steps keep, implies it on
runs. -/
theorem AllSteps.imp_of_inv {Inv : σ → Prop} {good good' : σ → α → Prop}
    (himp : ∀ s a, Inv s → good s a → good' s a)
    (hstep : ∀ s a t, Inv s → good s a → step s a = some t → Inv t) {s : σ} {as : List α}
    (hs : Inv s) (h : AllSteps step good s as) : AllSteps step good' s as := by
  induction as generalizing s with
  | nil => trivial
  | cons a as ih =>
      exact ⟨himp s a hs h.1, fun m hm => ih (hstep s a m hs h.1 hm) (h.2 m hm)⟩

/-- Two conditions that agree under an invariant, which the steps of the second keep, agree on
runs. -/
theorem allSteps_congr {Inv : σ → Prop} {good good' : σ → α → Prop}
    (hiff : ∀ s a, Inv s → (good s a ↔ good' s a))
    (hstep : ∀ s a t, Inv s → good' s a → step s a = some t → Inv t) {s : σ} {as : List α}
    (hs : Inv s) : AllSteps step good s as ↔ AllSteps step good' s as := by
  induction as generalizing s with
  | nil => exact Iff.rfl
  | cons a as ih =>
      have hhead := hiff s a hs
      constructor
      · rintro ⟨hgood, hrest⟩
        exact ⟨hhead.mp hgood, fun m hm =>
          (ih (hstep s a m hs (hhead.mp hgood) hm)).mp (hrest m hm)⟩
      · rintro ⟨hgood, hrest⟩
        exact ⟨hhead.mpr hgood, fun m hm => (ih (hstep s a m hs hgood hm)).mpr (hrest m hm)⟩

/-- A run whose steps are not all good has a first one that is not. -/
theorem exists_first_not_good {good : σ → α → Prop} {s t : σ} {as : List α}
    (hrun : run step s as = some t) (hnot : ¬ AllSteps step good s as) :
    ∃ done a rest m, as = done ++ a :: rest ∧ run step s done = some m ∧
      AllSteps step good s done ∧ ¬ good m a := by
  induction as generalizing s with
  | nil => exact absurd trivial hnot
  | cons a as ih =>
      by_cases hgood : good s a
      · obtain ⟨m, hm, hrest⟩ := run_cons_iff.mp hrun
        have hlater : ¬ AllSteps step good m as := fun h =>
          hnot ((allSteps_cons_of_some hm).mpr ⟨hgood, h⟩)
        obtain ⟨done, b, rest, n, rfl, hdone, hall, hb⟩ := ih hrest hlater
        exact ⟨a :: done, b, rest, n, rfl, run_cons_iff.mpr ⟨m, hm, hdone⟩,
          (allSteps_cons_of_some hm).mpr ⟨hgood, hall⟩, hb⟩
      · exact ⟨[], a, as, s, rfl, rfl, trivial, hgood⟩

/-- Two conditions that agree on the steps that can be taken agree on the runs that exist, where
every step is as `given`. -/
theorem run_allSteps_congr_of_given {Inv : σ → Prop} {given good good' : σ → α → Prop}
    (hinv : ∀ s a t, Inv s → given s a → step s a = some t → Inv t)
    (hiff : ∀ s a t, Inv s → given s a → step s a = some t → (good s a ↔ good' s a)) :
    ∀ {as : List α} {s t : σ}, Inv s → AllSteps step given s as → run step s as = some t →
      (AllSteps step good s as ↔ AllSteps step good' s as) := by
  intro as
  induction as with
  | nil =>
      intro s t _ _ _
      exact Iff.rfl
  | cons a as ih =>
      intro s t hs hgiven hrun
      obtain ⟨m, hm, hrest⟩ := run_cons_iff.mp hrun
      rw [allSteps_cons_of_some hm, allSteps_cons_of_some hm, hiff s a m hs hgiven.1 hm,
        ih (hinv s a m hs hgiven.1 hm) (hgiven.2 m hm) hrest]

theorem run_allSteps_congr {Inv : σ → Prop} {good good' : σ → α → Prop}
    (hinv : ∀ s a t, Inv s → step s a = some t → Inv t)
    (hiff : ∀ s a t, Inv s → step s a = some t → (good s a ↔ good' s a)) {as : List α} {s t : σ}
    (hs : Inv s) (hrun : run step s as = some t) :
    AllSteps step good s as ↔ AllSteps step good' s as := by
  have hgiven : AllSteps step (fun _ _ => True) s as := allSteps_of_forall fun _ _ _ => trivial
  exact run_allSteps_congr_of_given (fun s a t hs _ => hinv s a t hs)
    (fun s a t hs _ => hiff s a t hs) hs hgiven hrun

/-- If `P` holds after a step exactly if it held before and the step was good, it holds after a
run exactly if it held before and all steps were good. -/
theorem run_iff_allSteps {Inv P : σ → Prop} {good : σ → α → Prop}
    (hinv : ∀ s a t, Inv s → step s a = some t → Inv t)
    (hstep : ∀ s a t, Inv s → step s a = some t → (P t ↔ P s ∧ good s a)) :
    ∀ {as : List α} {s t : σ}, Inv s → run step s as = some t →
      (P t ↔ P s ∧ AllSteps step good s as) := by
  intro as
  induction as with
  | nil =>
      intro s t _ hrun
      cases hrun
      exact (and_iff_left trivial).symm
  | cons a as ih =>
      intro s t hs hrun
      obtain ⟨m, hm, hrest⟩ := run_cons_iff.mp hrun
      rw [ih (hinv s a m hs hm) hrest, hstep s a m hs hm, and_assoc, allSteps_cons_of_some hm]

/-! ## Going on with some of the labels -/

/-- Steps with labels of its `own` lead to one that is not `ok`. -/
def CanBreak (step : σ → α → Option σ) (ok : σ → α → Prop) (own : α → Prop) (s : σ) : Prop :=
  ∃ bs, (∀ b ∈ bs, own b) ∧ ¬ AllSteps step ok s bs

section

variable {ok good : σ → α → Prop} {own : α → Prop}

theorem CanBreak.of_not_ok {s : σ} {b : α} (hown : own b) (hnot : ¬ ok s b) :
    CanBreak step ok own s :=
  ⟨[b], List.forall_mem_singleton.mpr hown, fun hok => hnot hok.1⟩

theorem CanBreak.of_step {s t : σ} {b : α} (hown : own b) (hstep : step s b = some t)
    (h : CanBreak step ok own t) : CanBreak step ok own s := by
  obtain ⟨bs, hall, hnot⟩ := h
  exact ⟨b :: bs, List.forall_mem_cons.mpr ⟨hown, hall⟩, fun hok => hnot (hok.2 t hstep)⟩

/-- If nothing breaks after any part of a run, and every step that is not good lets something
break, then all steps of the run are good. -/
theorem allSteps_good_of_own {Inv : σ → Prop}
    (hkeeps : ∀ s a t, Inv s → good s a → step s a = some t → Inv t)
    (hbad : ∀ s a, Inv s → ¬ good s a → ∃ t, step s a = some t ∧ CanBreak step ok own t)
    {s : σ} {as : List α} (hs : Inv s)
    (h : ∀ done bs, done <+: as → (∀ b ∈ bs, own b) → AllSteps step ok s (done ++ bs)) :
    AllSteps step good s as := by
  induction as generalizing s with
  | nil => trivial
  | cons a as ih =>
      have hgood : good s a := by
        by_contra hnot
        obtain ⟨t, hstep, bs, hown, hbreak⟩ := hbad s a hs hnot
        exact hbreak ((h [a] bs (List.prefix_append [a] as) hown).2 t hstep)
      refine ⟨hgood, fun m hm => ih (hkeeps s a m hs hgood hm) fun done bs hdone hown => ?_⟩
      exact (h (a :: done) bs (List.cons_prefix_cons.mpr ⟨rfl, hdone⟩) hown).2 m hm

/-- If good steps keep an invariant under which they are `ok`, own steps are good, and a step
that is not good lets own steps break, then nothing breaks after any part of a run exactly if all
its steps are good. -/
theorem allSteps_own_iff {Inv : σ → Prop}
    (hok : ∀ s a, Inv s → good s a → ok s a)
    (hkeeps : ∀ s a t, Inv s → good s a → step s a = some t → Inv t)
    (hown : ∀ s b, own b → good s b)
    (hbad : ∀ s a, Inv s → ¬ good s a → ∃ t, step s a = some t ∧ CanBreak step ok own t)
    {s : σ} {as : List α} (hs : Inv s) :
    (∀ done bs, done <+: as → (∀ b ∈ bs, own b) → AllSteps step ok s (done ++ bs)) ↔
      AllSteps step good s as := by
  refine ⟨allSteps_good_of_own hkeeps hbad hs, ?_⟩
  rintro hgood done bs ⟨rest, rfl⟩ hbs
  have hall : AllSteps step good s (done ++ bs) :=
    hgood.of_append.append_of_forall fun b hb s => hown s b (hbs b hb)
  exact hall.imp_of_inv hok hkeeps hs

end

/-! ## Every state of a run -/

/-- Every state that a run passes has the property, the first and the last one included. -/
def AllStates (step : σ → α → Option σ) (P : σ → Prop) : σ → List α → Prop
  | s, [] => P s
  | s, a :: as => P s ∧ ∀ m, step s a = some m → AllStates step P m as

theorem AllStates.head {P : σ → Prop} {s : σ} {as : List α} (h : AllStates step P s as) : P s := by
  cases as with
  | nil => exact h
  | cons a as => exact h.1

theorem AllStates.last {P : σ → Prop} {s t : σ} {as : List α} (h : AllStates step P s as)
    (hrun : run step s as = some t) : P t := by
  induction as generalizing s with
  | nil =>
      cases hrun
      exact h
  | cons a as ih =>
      obtain ⟨m, hm, hrest⟩ := run_cons_iff.mp hrun
      exact ih (h.2 m hm) hrest

/-- All states have the property exactly if the first one has, and every step leads to one that
has. -/
theorem allStates_iff {P : σ → Prop} {s : σ} {as : List α} :
    AllStates step P s as ↔ P s ∧ AllSteps step (fun s a => ∀ m, step s a = some m → P m) s as := by
  induction as generalizing s with
  | nil => exact (and_iff_left trivial).symm
  | cons a as ih =>
      refine and_congr_right fun _ => ⟨fun hall => ⟨?_, ?_⟩, fun hsteps m hm => ?_⟩
      · exact fun m hm => (hall m hm).head
      · exact fun m hm => (ih.mp (hall m hm)).2
      · exact ih.mpr ⟨hsteps.1 m hm, hsteps.2 m hm⟩

/-- If a step from a state with the property leads to one exactly if it is good, all states of a
run have the property exactly if all its steps are good. -/
theorem run_allStates_iff {Inv P : σ → Prop} {good : σ → α → Prop}
    (hinv : ∀ s a t, Inv s → step s a = some t → Inv t)
    (hstep : ∀ s a t, Inv s → P s → step s a = some t → (P t ↔ good s a)) :
    ∀ {as : List α} {s t : σ}, Inv s → P s → run step s as = some t →
      (AllStates step P s as ↔ AllSteps step good s as) := by
  intro as
  induction as with
  | nil =>
      intro s t _ hP _
      exact iff_of_true hP trivial
  | cons a as ih =>
      intro s t hs hP hrun
      obtain ⟨m, hm, hrest⟩ := run_cons_iff.mp hrun
      have hnext := hstep s a m hs hP hm
      rw [allSteps_cons_of_some hm]
      constructor
      · rintro ⟨_, hall⟩
        have hstates := hall m hm
        exact ⟨hnext.mp hstates.head, (ih (hinv s a m hs hm) hstates.head hrest).mp hstates⟩
      · rintro ⟨hgood, hall⟩
        refine ⟨hP, fun m' hm' => ?_⟩
        rw [hm] at hm'
        cases hm'
        exact (ih (hinv s a m hs hm) (hnext.mpr hgood) hrest).mpr hall

instance decidableAllSteps {good : σ → α → Prop} [∀ s a, Decidable (good s a)] :
    (s : σ) → (as : List α) → Decidable (AllSteps step good s as)
  | _, [] => isTrue trivial
  | s, a :: as =>
      match hstep : step s a with
      | none => decidable_of_iff _ (allSteps_cons_of_none hstep).symm
      | some m =>
          have : Decidable (AllSteps step good m as) := decidableAllSteps m as
          decidable_of_iff _ (allSteps_cons_of_some hstep).symm

theorem allStates_cons_of_some {P : σ → Prop} {s m : σ} {a : α} {as : List α}
    (hstep : step s a = some m) :
    AllStates step P s (a :: as) ↔ P s ∧ AllStates step P m as := by
  refine and_congr_right fun _ => ⟨fun hall => hall m hstep, ?_⟩
  intro hall m' hm'
  rw [hstep] at hm'
  cases hm'
  exact hall

theorem allStates_cons_of_none {P : σ → Prop} {s : σ} {a : α} {as : List α}
    (hstep : step s a = none) : AllStates step P s (a :: as) ↔ P s := by
  refine ⟨And.left, fun hP => ⟨hP, ?_⟩⟩
  intro m hm
  rw [hstep] at hm
  cases hm

instance decidableAllStates {P : σ → Prop} [DecidablePred P] :
    (s : σ) → (as : List α) → Decidable (AllStates step P s as)
  | s, [] => inferInstanceAs (Decidable (P s))
  | s, a :: as =>
      match hstep : step s a with
      | none => decidable_of_iff _ (allStates_cons_of_none hstep).symm
      | some m =>
          have : Decidable (AllStates step P m as) := decidableAllStates m as
          decidable_of_iff _ (allStates_cons_of_some hstep).symm

/-! ## States that can still be reached -/

section

variable {goal : σ → Prop} {s t : σ}

/-- Some run from `s` ends in the goal.  That it can be reached is shown backwards, one step
at a time; that it cannot be reached any more, by an invariant without the goal. -/
def CanReach (step : σ → α → Option σ) (goal : σ → Prop) (s : σ) : Prop :=
  ∃ as t, run step s as = some t ∧ goal t

theorem CanReach.here (h : goal s) : CanReach step goal s := ⟨[], s, rfl, h⟩

theorem CanReach.after {a : α} (hstep : step s a = some t) (h : CanReach step goal t) :
    CanReach step goal s := by
  obtain ⟨as, u, hrun, hgoal⟩ := h
  exact ⟨a :: as, u, run_cons_iff.mpr ⟨t, hstep, hrun⟩, hgoal⟩

theorem CanReach.after_run {as : List α} (hrun : run step s as = some t)
    (h : CanReach step goal t) : CanReach step goal s := by
  obtain ⟨bs, u, hrest, hgoal⟩ := h
  exact ⟨as ++ bs, u, run_append_iff.mpr ⟨t, hrun, hrest⟩, hgoal⟩

theorem not_canReach {Inv : σ → Prop} (hstep : ∀ s a t, Inv s → step s a = some t → Inv t)
    (hgoal : ∀ s, Inv s → ¬ goal s) (h : Inv s) : ¬ CanReach step goal s := by
  rintro ⟨as, t, hrun, ht⟩
  exact hgoal t (run_invariant hstep h hrun) ht

end

/-! ## One system shows another one -/

/-- A relation says which abstract state a concrete one stands for.  If every good step can
be taken and is matched by an abstract step with the same label, every run of good steps is. -/
theorem run_refines {τ : Type} {absStep : τ → α → Option τ} {R : σ → τ → Prop}
    {good : σ → α → Prop}
    (hmatch : ∀ s t a, R s t → good s a →
      ∃ s' t', step s a = some s' ∧ absStep t a = some t' ∧ R s' t') :
    ∀ {as : List α} {s : σ} {t : τ}, R s t → AllSteps step good s as →
      ∃ s' t', run step s as = some s' ∧ run absStep t as = some t' ∧ R s' t' := by
  intro as
  induction as with
  | nil =>
      intro s t hR _
      exact ⟨s, t, rfl, rfl, hR⟩
  | cons a as ih =>
      intro s t hR hgood
      obtain ⟨m, n, hm, hn, hRm⟩ := hmatch s t a hR hgood.1
      obtain ⟨s', t', hrun, hrun', hR'⟩ := ih hRm (hgood.2 m hm)
      exact ⟨s', t', run_cons_iff.mpr ⟨m, hm, hrun⟩, run_cons_iff.mpr ⟨n, hn, hrun'⟩, hR'⟩

/-! ## Ghost state -/

variable {γ : Type}

/-- The system with a ghost beside its state: every step computes the next ghost, and none
reads it. -/
def withGhost (step : σ → α → Option σ) (next : σ → α → γ → γ) (s : σ × γ) (a : α) :
    Option (σ × γ) :=
  (step s.1 a).map fun t => (t, next s.1 a s.2)

theorem withGhost_eq_some_iff {next : σ → α → γ → γ} {s t : σ × γ} {a : α} :
    withGhost step next s a = some t ↔ step s.1 a = some t.1 ∧ t.2 = next s.1 a s.2 := by
  rw [withGhost, Option.map_eq_some_iff]
  constructor
  · rintro ⟨m, hm, rfl⟩
    exact ⟨hm, rfl⟩
  · rintro ⟨hm, hghost⟩
    exact ⟨t.1, hm, Prod.ext rfl hghost.symm⟩

/-- The ghost follows every run. -/
theorem run_withGhost (next : σ → α → γ → γ) {as : List α} {s t : σ} (g : γ)
    (hrun : run step s as = some t) : ∃ g', run (withGhost step next) (s, g) as = some (t, g') := by
  induction as generalizing s g with
  | nil =>
      cases hrun
      exact ⟨g, rfl⟩
  | cons a as ih =>
      obtain ⟨m, hm, hrest⟩ := run_cons_iff.mp hrun
      obtain ⟨g', hg'⟩ := ih (next s a g) hrest
      exact ⟨g', run_cons_iff.mpr ⟨_, withGhost_eq_some_iff.mpr ⟨hm, rfl⟩, hg'⟩⟩

/-- A condition that does not look at the ghost. -/
theorem AllSteps.withGhost {good : σ → α → Prop} {next : σ → α → γ → γ} {s : σ} {as : List α}
    (h : AllSteps step good s as) (g : γ) :
    AllSteps (withGhost step next) (fun s a => good s.1 a) (s, g) as := by
  induction as generalizing s g with
  | nil => trivial
  | cons a as ih =>
      refine ⟨h.1, ?_⟩
      rintro ⟨m, g'⟩ hm
      exact ih (h.2 m (withGhost_eq_some_iff.mp hm).1) g'

/-! ## What the steps of a run give -/

variable {β : Type}

/-- What the steps of a run give, in order. -/
def emitted (step : σ → α → Option σ) (out : σ → α → List β) : σ → List α → List β
  | _, [] => []
  | s, a :: as =>
      out s a ++ match step s a with
        | some m => emitted step out m as
        | none => []

theorem emitted_cons_of_some {out : σ → α → List β} {s m : σ} {a : α} {as : List α}
    (hstep : step s a = some m) :
    emitted step out s (a :: as) = out s a ++ emitted step out m as := by
  simp only [emitted, hstep]

theorem emitted_nothing (s : σ) (as : List α) :
    emitted step (fun _ _ => ([] : List β)) s as = [] := by
  induction as generalizing s with
  | nil => rfl
  | cons a as ih =>
      rw [emitted, List.nil_append]
      split
      · exact ih _
      · rfl

theorem emitted_sublist {out out' : σ → α → List β} (h : ∀ s a, (out s a).Sublist (out' s a))
    (s : σ) (as : List α) : (emitted step out s as).Sublist (emitted step out' s as) := by
  induction as generalizing s with
  | nil => exact List.Sublist.refl _
  | cons a as ih =>
      refine (h s a).append ?_
      split
      · exact ih _
      · exact List.Sublist.refl _

/-- If every good step gives out, in order, of what is held and what it takes in, so does a run of
good steps. -/
theorem emitted_conserved {Inv : σ → Prop} {good : σ → α → Prop} {hold : σ → List β}
    {taken given : σ → α → List β}
    (hinv : ∀ s a t, Inv s → good s a → step s a = some t → Inv t)
    (hstep : ∀ s a t, Inv s → good s a → step s a = some t →
      hold s ++ taken s a = given s a ++ hold t) :
    ∀ {as : List α} {s t : σ}, Inv s → AllSteps step good s as → run step s as = some t →
      hold s ++ emitted step taken s as = emitted step given s as ++ hold t := by
  intro as
  induction as with
  | nil =>
      intro s t _ _ hrun
      cases hrun
      exact List.append_nil _
  | cons a as ih =>
      intro s t hs hgood hrun
      obtain ⟨m, hm, hrest⟩ := run_cons_iff.mp hrun
      rw [emitted_cons_of_some hm, emitted_cons_of_some hm, ← List.append_assoc,
        hstep s a m hs hgood.1 hm, List.append_assoc, List.append_assoc,
        ih (hinv s a m hs hgood.1 hm) (hgood.2 m hm) hrest]

/-- If every step gives out as many as it takes in, but for what is held, so does a run. -/
theorem emitted_length_conserved {hold : σ → Nat} {taken given : σ → α → List β}
    (hstep : ∀ s a t, step s a = some t →
      hold s + (taken s a).length = (given s a).length + hold t) {as : List α} {s t : σ}
    (hrun : run step s as = some t) :
    hold s + (emitted step taken s as).length = (emitted step given s as).length + hold t := by
  induction as generalizing s with
  | nil =>
      cases hrun
      exact Nat.add_comm _ _
  | cons a as ih =>
      obtain ⟨m, hm, hrest⟩ := run_cons_iff.mp hrun
      have hhead := hstep s a m hm
      have htail := ih hrest
      rw [emitted_cons_of_some hm, emitted_cons_of_some hm, List.length_append, List.length_append]
      omega

theorem emitted_append {out : σ → α → List β} {s m : σ} {as : List α}
    (hrun : run step s as = some m) (bs : List α) :
    emitted step out s (as ++ bs) = emitted step out s as ++ emitted step out m bs := by
  induction as generalizing s with
  | nil =>
      cases hrun
      rfl
  | cons a as ih =>
      obtain ⟨n, hn, hrest⟩ := run_cons_iff.mp hrun
      rw [List.cons_append, emitted_cons_of_some hn, emitted_cons_of_some hn, ih hrest,
        List.append_assoc]

/-- Of the first part of a chain only the last element is needed to go on. -/
theorem isChain_append_iff_getLast? {R : β → β → Prop} (xs ys : List β) :
    (xs ++ ys).IsChain R ↔ xs.IsChain R ∧ (xs.getLast?.toList ++ ys).IsChain R := by
  rw [List.isChain_append, List.isChain_append]
  cases xs.getLast? with
  | none => simp
  | some x => simp

theorem isChain_toList_append_singleton {R : β → β → Prop} {newest : Option β} {x : β} :
    (newest.toList ++ [x]).IsChain R ↔ ∀ y ∈ newest, R y x := by
  cases newest with
  | none => simp
  | some y => simp

theorem isChain_toList_append_nil {R : β → β → Prop} (newest : Option β) :
    (newest.toList ++ []).IsChain R := by
  cases newest with
  | none => simp
  | some y => simp

/-- What a run gives is a chain exactly if every step goes on from the newest that was given
before, which a ghost keeps. -/
theorem isChain_emitted_iff {R : β → β → Prop} {out : σ → α → List β} {next : σ → α → γ → γ}
    {newest : γ → Option β}
    (hnext : ∀ s a g, newest (next s a g) = (out s a).getLast?.or (newest g)) :
    ∀ {as : List α} {s t : σ} (g : γ), run step s as = some t →
      (((newest g).toList ++ emitted step out s as).IsChain R ↔
        AllSteps (withGhost step next)
          (fun s a => ((newest s.2).toList ++ out s.1 a).IsChain R) (s, g) as) := by
  intro as
  induction as with
  | nil =>
      intro s t g _
      refine iff_of_true ?_ trivial
      cases newest g <;> simp [emitted]
  | cons a as ih =>
      intro s t g hrun
      obtain ⟨m, hm, hrest⟩ := run_cons_iff.mp hrun
      have hghost : withGhost step next (s, g) a = some (m, next s a g) :=
        withGhost_eq_some_iff.mpr ⟨hm, rfl⟩
      have hlast : ((newest g).toList ++ out s a).getLast? = newest (next s a g) := by
        rw [hnext, List.getLast?_append]
        cases newest g <;> rfl
      rw [emitted_cons_of_some hm, allSteps_cons_of_some hghost, ← ih (next s a g) hrest,
        ← List.append_assoc, isChain_append_iff_getLast?, hlast]

end Esp32Deskflow.Foundation.Transition
