import Mathlib.Data.List.Infix

/-!
# Labelled partial transitions

`next state label` is the successor, and `none` where the label is not enabled. The two rules at
the end are the only inductions over runs that the development needs: an invariant is carried
along every run whose steps meet a side condition, and, where the condition can be read back from
the states, the two are equivalent.
-/

namespace Flannel.Transition

universe u v

abbrev Step (σ : Type u) (Λ : Type v) := σ → Λ → Option σ

variable {σ : Type u} {Λ : Type v}

def run (next : Step σ Λ) : σ → List Λ → Option σ
  | state, [] => some state
  | state, label :: labels => (next state label).bind fun target => run next target labels

@[simp]
theorem run_nil (next : Step σ Λ) (state : σ) : run next state [] = some state :=
  rfl

theorem run_cons_eq_some_iff (next : Step σ Λ) (state target : σ) (label : Λ)
    (labels : List Λ) :
    run next state (label :: labels) = some target ↔
      ∃ middle, next state label = some middle ∧ run next middle labels = some target := by
  simp only [run]
  exact Option.bind_eq_some_iff

theorem run_append (next : Step σ Λ) (state : σ) (first second : List Λ) :
    run next state (first ++ second) =
      (run next state first).bind fun middle => run next middle second := by
  induction first generalizing state with
  | nil => rfl
  | cons label labels ih =>
    simp only [List.cons_append, run, Option.bind_assoc]
    congr 1
    funext middle
    exact ih middle

variable {next : Step σ Λ} {state : σ} {labels : List Λ} {Cond : σ → Λ → Prop} {Inv : σ → Prop}
  {Good : σ → Λ → Prop}

theorem run_of_simulation {τ : Type u} {M : Type v} {next' : Step τ M} {f : σ → τ} {g : Λ → M}
    (simulates : ∀ state label target, next state label = some target →
      next' (f state) (g label) = some (f target))
    {target : σ} (reached : run next state labels = some target) :
    run next' (f state) (labels.map g) = some (f target) := by
  induction labels generalizing state with
  | nil =>
    cases reached
    rfl
  | cons label labels ih =>
    obtain ⟨middle, step, rest⟩ := (run_cons_eq_some_iff _ _ _ _ _).mp reached
    exact (run_cons_eq_some_iff _ _ _ _ _).mpr ⟨f middle, simulates _ _ _ step, ih rest⟩

/-- Every step taken while executing `labels` from `state` meets `Cond`, which
sees the state before the step and the label. -/
def Along (next : Step σ Λ) (Cond : σ → Λ → Prop) : σ → List Λ → Prop
  | _, [] => True
  | state, label :: labels =>
    Cond state label ∧ ∀ target, next state label = some target → Along next Cond target labels

def decidableForallSome (step : Option σ) (P : σ → Prop) [DecidablePred P] :
    Decidable (∀ target, step = some target → P target) :=
  match step with
  | none => .isTrue nofun
  | some target =>
    decidable_of_iff (P target)
      ⟨fun holds _ same => Option.some.inj same ▸ holds, fun holds => holds target rfl⟩

instance decidableAlong (next : Step σ Λ) (Cond : σ → Λ → Prop)
    [∀ state label, Decidable (Cond state label)] :
    ∀ (state : σ) (labels : List Λ), Decidable (Along next Cond state labels)
  | _, [] => .isTrue trivial
  -- the last step is not taken
  | state, [label] =>
    decidable_of_iff (Cond state label) ⟨fun here => ⟨here, fun _ _ => trivial⟩, And.left⟩
  | state, label :: second :: labels =>
    match found : next state label with
    | none =>
      decidable_of_iff (Cond state label)
        ⟨fun here => ⟨here, fun target step => by rw [found] at step; contradiction⟩, And.left⟩
    | some target =>
      haveI := decidableAlong next Cond target (second :: labels)
      decidable_of_iff (Cond state label ∧ Along next Cond target (second :: labels))
        ⟨fun ⟨here, later⟩ => ⟨here, fun other step =>
            Option.some.inj (found.symm.trans step) ▸ later⟩,
          fun ⟨here, later⟩ => ⟨here, later target found⟩⟩

theorem Along.mono {Cond' : σ → Λ → Prop}
    (weaker : ∀ state label, Cond state label → Cond' state label)
    (along : Along next Cond state labels) :
    Along next Cond' state labels := by
  induction labels generalizing state with
  | nil => trivial
  | cons label labels ih =>
    exact ⟨weaker state label along.1, fun target step => ih (along.2 target step)⟩

theorem Along.and {Cond' : σ → Λ → Prop}
    (first : Along next Cond state labels) (second : Along next Cond' state labels) :
    Along next (fun state label => Cond state label ∧ Cond' state label) state labels := by
  induction labels generalizing state with
  | nil => trivial
  | cons label labels ih =>
    exact ⟨⟨first.1, second.1⟩, fun target step => ih (first.2 target step) (second.2 target step)⟩

theorem Along.of_append {first second : List Λ}
    (along : Along next Cond state (first ++ second)) : Along next Cond state first := by
  induction first generalizing state with
  | nil => trivial
  | cons label first ih => exact ⟨along.1, fun target step => ih (along.2 target step)⟩

theorem along_of_forall_mem {next : Step σ Λ} {P : Λ → Prop} {state : σ} {labels : List Λ}
    (all : ∀ label ∈ labels, P label) : Along next (fun _ label => P label) state labels := by
  induction labels generalizing state with
  | nil => trivial
  | cons label labels ih =>
    refine ⟨all label (.head _), fun target _ => ih fun later mem => ?_⟩
    exact all later (.tail label mem)

/-- Where every step meeting `Cond` is enabled and preserves the invariant, a run
whose steps all meet `Cond` executes to its end. -/
theorem exists_run_of_along (progress : ∀ state label, Inv state → Cond state label →
      ∃ target, next state label = some target ∧ Inv target)
    (initial : Inv state) (along : Along next Cond state labels) :
    ∃ target, run next state labels = some target := by
  induction labels generalizing state with
  | nil => exact ⟨state, rfl⟩
  | cons label labels ih =>
    obtain ⟨middle, step, preserved⟩ := progress state label initial along.1
    obtain ⟨target, rest⟩ := ih preserved (along.2 middle step)
    exact ⟨target, (run_cons_eq_some_iff _ _ _ _ _).mpr ⟨middle, step, rest⟩⟩

/-- An invariant that every step meeting `Cond` preserves holds at the end of
every run whose steps all meet `Cond`. -/
theorem invariant_of_along (preserved : ∀ state label target, Inv state → Cond state label →
      next state label = some target → Inv target)
    {target : σ} (initial : Inv state)
    (along : Along next Cond state labels) (reached : run next state labels = some target) :
    Inv target := by
  induction labels generalizing state with
  | nil =>
    cases reached
    exact initial
  | cons label labels ih =>
    obtain ⟨middle, step, rest⟩ := (run_cons_eq_some_iff _ _ _ _ _).mp reached
    exact ih (preserved state label middle initial along.1 step) (along.2 middle step) rest

theorem Along.imp_of_invariant
    (good : ∀ state label, Inv state → Cond state label → Good state label)
    (preserved : ∀ state label target, Inv state → Cond state label →
      next state label = some target → Inv target)
    (along : Along next Cond state labels) (initial : Inv state) :
    Along next Good state labels := by
  induction labels generalizing state with
  | nil => trivial
  | cons label labels ih =>
    refine ⟨good state label initial along.1, fun target step => ?_⟩
    exact ih (along.2 target step) (preserved state label target initial along.1 step)

theorem along_of_invariant (good : ∀ state label, Inv state → Good state label)
    (preserved : ∀ state label target, Inv state → Cond state label →
      next state label = some target → Inv target)
    (initial : Inv state) (along : Along next Cond state labels) : Along next Good state labels :=
  along.imp_of_invariant (fun state label inv _ => good state label inv) preserved initial

theorem along_iff_along
    (equivalent : ∀ state label, Inv state → (Good state label ↔ Cond state label))
    (preserved : ∀ state label target, Inv state → Cond state label →
      next state label = some target → Inv target)
    (initial : Inv state) :
    Along next Good state labels ↔ Along next Cond state labels := by
  constructor
  · intro along
    refine along.imp_of_invariant (fun state label inv => (equivalent state label inv).mp) ?_ initial
    exact fun state label target inv good =>
      preserved state label target inv ((equivalent state label inv).mp good)
  · intro along
    exact along.imp_of_invariant (fun state label inv => (equivalent state label inv).mpr) preserved
      initial

theorem invariant_of_run
    (preserved : ∀ state label target, Inv state → next state label = some target → Inv target)
    {target : σ} (initial : Inv state)
    (reached : run next state labels = some target) : Inv target :=
  invariant_of_along (fun state label target inv _ => preserved state label target inv) initial
    (along_of_forall_mem fun _ _ => trivial) reached

/-- `Good` holds in every state that a prefix of `labels` reaches. -/
def Throughout (next : Step σ Λ) (Good : σ → Prop) (state : σ) (labels : List Λ) : Prop :=
  ∀ initial, initial <+: labels → ∀ target, run next state initial = some target → Good target

/-- An invariant that every step meeting `Cond` preserves holds in every state of a
run whose steps all meet `Cond`. -/
theorem throughout_of_invariant (preserved : ∀ state label target, Inv state → Cond state label →
      next state label = some target → Inv target)
    (initial : Inv state) (along : Along next Cond state labels) :
    Throughout next Inv state labels := by
  rintro first ⟨second, rfl⟩ target reached
  exact invariant_of_along preserved initial along.of_append reached

theorem throughout_cons_iff (next : Step σ Λ) (Good : σ → Prop) (state : σ) (label : Λ)
    (labels : List Λ) :
    Throughout next Good state (label :: labels) ↔
      Good state ∧ ∀ target, next state label = some target →
        Throughout next Good target labels := by
  constructor
  · intro holds
    refine ⟨holds [] (List.nil_prefix) state rfl, ?_⟩
    intro middle step initial isInitial target reached
    refine holds (label :: initial) ((List.prefix_cons_inj label).mpr isInitial) target ?_
    exact (run_cons_eq_some_iff _ _ _ _ _).mpr ⟨middle, step, reached⟩
  · rintro ⟨here, later⟩ initial isInitial target reached
    cases initial with
    | nil =>
      cases reached
      exact here
    | cons first rest =>
      obtain ⟨rfl, isRest⟩ := List.cons_prefix_cons.mp isInitial
      obtain ⟨middle, step, reached⟩ := (run_cons_eq_some_iff _ _ _ _ _).mp reached
      exact later middle step rest isRest target reached

theorem along_of_run_eq_some {target : σ}
    (along : Along next (fun state label => (next state label).isSome → Cond state label)
      state labels)
    (reached : run next state labels = some target) : Along next Cond state labels := by
  induction labels generalizing state with
  | nil => trivial
  | cons label labels ih =>
    obtain ⟨middle, step, rest⟩ := (run_cons_eq_some_iff _ _ _ _ _).mp reached
    refine ⟨along.1 (by rw [step]; rfl), fun other step' => ?_⟩
    obtain rfl : middle = other := Option.some.inj (step.symm.trans step')
    exact ih (along.2 middle step) rest

/-- Let every step of a run meet `Assume`. Under an invariant that yields `Good`
and is preserved by the steps meeting `Cond`, and where a step into a `Good`
state must have met `Cond`, the states of the run are all `Good` exactly when its
enabled steps all meet `Cond`. -/
theorem throughout_iff_along {next : Step σ Λ} {Assume Cond : σ → Λ → Prop} {Inv Good : σ → Prop}
    (good : ∀ state, Inv state → Good state)
    (preserved : ∀ state label target, Inv state → Assume state label → Cond state label →
      next state label = some target → Inv target)
    (readBack : ∀ state label target, Inv state → Assume state label →
      next state label = some target → Good target → Cond state label)
    {state : σ} {labels : List Λ} (initial : Inv state)
    (assumed : Along next Assume state labels) :
    Throughout next Good state labels ↔
      Along next (fun state label => (next state label).isSome → Cond state label)
        state labels := by
  induction labels generalizing state with
  | nil =>
    refine ⟨fun _ => trivial, ?_⟩
    intro _ initialLabels isInitial target reached
    obtain rfl := List.prefix_nil.mp isInitial
    cases reached
    exact good state initial
  | cons label labels ih =>
    rw [throughout_cons_iff]
    constructor
    · rintro ⟨_, later⟩
      have cond : ∀ target, next state label = some target → Cond state label := by
        intro target step
        exact readBack state label target initial assumed.1 step
          (later target step [] List.nil_prefix target rfl)
      refine ⟨fun enabled => ?_, fun target step => ?_⟩
      · obtain ⟨target, step⟩ := Option.isSome_iff_exists.mp enabled
        exact cond target step
      · exact (ih (preserved state label target initial assumed.1 (cond target step) step)
          (assumed.2 target step)).mp (later target step)
    · rintro ⟨cond, later⟩
      refine ⟨good state initial, fun target step => ?_⟩
      have met : Cond state label := cond (by rw [step]; rfl)
      exact (ih (preserved state label target initial assumed.1 met step)
        (assumed.2 target step)).mpr (later target step)

end Flannel.Transition
