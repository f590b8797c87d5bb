import Flannel.Program.Core

/-!
# Programs whose requests may fail

`perform` runs a program in a world in which no request fails; `play` by a script that lets
requests fail, before or after they took effect, and cuts the program short where it ends.
`Endures`: a run to the end meets the postcondition, and one cut short a crash condition.
-/

namespace Flannel.Program

variable {Op : Type} {Res : Op → Type} {α β σ ε : Type}

/-! ## Runs in which no request fails -/

section Perform

variable (world : σ → (op : Op) → Res op × σ)

def perform : σ → Prog Op Res α → α × σ
  | state, .ret result => (result, state)
  | state, .call op rest => perform (world state op).2 (rest (world state op).1)

@[simp]
theorem perform_ret (state : σ) (result : α) :
    perform world state (.ret result : Prog Op Res α) = (result, state) :=
  rfl

@[simp]
theorem perform_request (state : σ) (op : Op) :
    perform world state (Prog.request op) = world state op :=
  rfl

@[simp]
theorem perform_bind (state : σ) (program : Prog Op Res α) (next : α → Prog Op Res β) :
    perform world state (program >>= next) =
      perform world (perform world state program).2 (next (perform world state program).1) := by
  induction program generalizing state with
  | ret result => rfl
  | call op rest ih => exact ih _ _

end Perform

def collect {φ ι : Type} (body : ι → Prog Op Res (List φ)) : List ι → Prog Op Res (List φ)
  | [] => pure []
  | x :: xs => do
    let first ← body x
    let others ← collect body xs
    pure (first ++ others)

attribute [local simp] collect

theorem collect_map {φ ι κ : Type} (body : κ → Prog Op Res (List φ)) (f : ι → κ) (xs : List ι) :
    collect body (xs.map f) = collect (fun x => body (f x)) xs := by
  induction xs with
  | nil => rfl
  | cons x xs ih =>
    rw [List.map_cons, collect, collect, ih]

theorem perform_collect {φ ι : Type} {world : σ → (op : Op) → Res op × σ}
    {body : ι → Prog Op Res (List φ)} {next : σ → ι → σ} {xs : List ι} {I : σ → Prop}
    (step : ∀ x ∈ xs, ∀ state, I state → perform world state (body x) = ([], next state x))
    (preserved : ∀ x ∈ xs, ∀ state, I state → I (next state x)) {state : σ} (initial : I state) :
    perform world state (collect body xs) = ([], xs.foldl next state) := by
  induction xs generalizing state with
  | nil => rfl
  | cons x xs ih =>
    have later := ih (fun y mem => step y (.tail x mem))
      (fun y mem => preserved y (.tail x mem))
      (preserved x (.head _) state initial)
    simp [step x (.head _) state initial, later]

theorem perform_collect_snd {φ ι : Type} (world : σ → (op : Op) → Res op × σ)
    (body : ι → Prog Op Res (List φ)) (state : σ) (xs : List ι) :
    (perform world state (collect body xs)).2 =
      xs.foldl (fun state x => (perform world state (body x)).2) state := by
  induction xs generalizing state with
  | nil => rfl
  | cons x xs ih => simp [ih]

theorem within_collect {φ ι : Type} {Allowed : Op → Prop} {body : ι → Prog Op Res (List φ)}
    (round : ∀ x, Within Allowed (body x)) (xs : List ι) : Within Allowed (collect body xs) := by
  induction xs with
  | nil => exact .ret
  | cons x xs ih =>
    exact within_bind (round x) fun _ => within_bind ih fun _ => .ret

theorem safe_collect {φ ι η γ : Type} {contract : Contract Op Res η γ} {history : η}
    {body : ι → Prog Op Res (List φ)} {xs : List ι}
    (round : ∀ x ∈ xs, Safe (contract.ensuring fun later _ => later = history) history (body x)) :
    Safe (contract.ensuring fun later _ => later = history) history (collect body xs) := by
  induction xs with
  | nil => exact .ret rfl
  | cons x xs ih =>
    have rest := ih fun y mem => round y (.tail x mem)
    refine (round x (.head _)).bind_ensuring ?_
    rintro later first rfl
    refine rest.bind_ensuring ?_
    rintro later others rfl
    exact .ret rfl

/-! ## Runs in which requests fail -/

/-- What becomes of a request: it is performed, or it fails without or with effect. -/
inductive Outcome (ε : Type)
  | performed
  | refused (error : ε)
  | lost (error : ε)
  deriving DecidableEq

section Play

variable (world : σ → (op : Op) → Res op × σ) (failure : ε → (op : Op) → Res op)

def play : List (Outcome ε) → σ → Prog Op Res α → Option α × σ
  | _, state, .ret result => (some result, state)
  | [], state, .call _ _ => (none, state)
  | .performed :: script, state, .call op rest =>
    play script (world state op).2 (rest (world state op).1)
  | .refused error :: script, state, .call op rest => play script state (rest (failure error op))
  | .lost error :: script, state, .call op rest =>
    play script (world state op).2 (rest (failure error op))

/-- Whatever the script, a run from the state ends with the postcondition or is cut short
with the crash condition. -/
inductive Endures (Crash : σ → Prop) (Post : α → σ → Prop) : Prog Op Res α → σ → Prop
  | ret {result : α} {state : σ} : Post result state → Endures Crash Post (.ret result) state
  | call {op : Op} {rest : Res op → Prog Op Res α} {state : σ} : Crash state →
      Endures Crash Post (rest (world state op).1) (world state op).2 →
      (∀ error, Endures Crash Post (rest (failure error op)) state) →
      (∀ error, Endures Crash Post (rest (failure error op)) (world state op).2) →
      Endures Crash Post (.call op rest) state

variable {world failure} {Crash : σ → Prop} {Post : α → σ → Prop} {state : σ}

variable {program : Prog Op Res α}

theorem Endures.sound
    (endures : Endures world failure Crash Post program state) (script : List (Outcome ε)) :
    ((play world failure script state program).1 = none →
        Crash (play world failure script state program).2) ∧
      ∀ result, (play world failure script state program).1 = some result →
        Post result (play world failure script state program).2 := by
  induction endures generalizing script with
  | ret post =>
    cases script
    all_goals
      refine ⟨fun cut => absurd cut (Option.some_ne_none _), fun other returned => ?_⟩
      exact Option.some.inj returned ▸ post
  | call crash _ _ _ performed refused lost =>
    cases script with
    | nil => exact ⟨fun _ => crash, fun _ returned => absurd returned.symm (Option.some_ne_none _)⟩
    | cons outcome script =>
      cases outcome with
      | performed => exact performed script
      | refused error => exact refused error script
      | lost error => exact lost error script

theorem Endures.imp {Post' : α → σ → Prop}
    (endures : Endures world failure Crash Post program state)
    (weaker : ∀ result state, Post result state → Post' result state) :
    Endures world failure Crash Post' program state := by
  induction endures with
  | ret post => exact .ret (weaker _ _ post)
  | call crash _ _ _ performed refused lost => exact .call crash performed refused lost

theorem Endures.weaken {Crash' : σ → Prop}
    (endures : Endures world failure Crash Post program state)
    (weaker : ∀ state, Crash state → Crash' state) :
    Endures world failure Crash' Post program state := by
  induction endures with
  | ret post => exact .ret post
  | call crash _ _ _ performed refused lost => exact .call (weaker _ crash) performed refused lost

theorem play_bind {next : α → Prog Op Res β} {script : List (Outcome ε)} {f : α → β}
    (done : ∀ result, (play world failure script state program).1 = some result →
      next result = .ret (f result)) :
    play world failure script state (program >>= next) =
      ((play world failure script state program).1.map f,
        (play world failure script state program).2) := by
  induction program generalizing state script with
  | ret result =>
    have next_eq := done result (by cases script <;> rfl)
    rw [Prog.ret_bind, next_eq]
    cases script <;> rfl
  | call op rest ih =>
    cases script with
    | nil => rfl
    | cons outcome script =>
      cases outcome with
      | performed => exact ih _ done
      | refused error => exact ih _ done
      | lost error => exact ih _ done

theorem invariant_play {Allowed : Op → Prop} {I : σ → Prop} {program : Prog Op Res α}
    (within : Within Allowed program)
    (preserved : ∀ state op, Allowed op → I state → I (world state op).2) (initial : I state)
    (script : List (Outcome ε)) : I (play world failure script state program).2 := by
  induction within generalizing state script with
  | ret => cases script <;> exact initial
  | call allowed _ ih =>
    cases script with
    | nil => exact initial
    | cons outcome script =>
      cases outcome with
      | performed => exact ih _ (preserved _ _ allowed initial) script
      | refused error => exact ih _ initial script
      | lost error => exact ih _ (preserved _ _ allowed initial) script

theorem endures_true (program : Prog Op Res α) (state : σ) :
    Endures world failure (fun _ => True) (fun _ _ => True) program state := by
  induction program generalizing state with
  | ret result => exact .ret trivial
  | call op rest ih =>
    exact .call trivial (ih _ _) (fun error => ih _ _) (fun error => ih _ _)

theorem endures_bind {next : α → Prog Op Res β} {Post : β → σ → Prop}
    (endures : Endures world failure Crash
      (fun result => Endures world failure Crash Post (next result)) program state) :
    Endures world failure Crash Post (program >>= next) state := by
  induction endures with
  | ret post => exact post
  | call crash _ _ _ performed refused lost => exact .call crash performed refused lost

theorem endures_request {op : Op} {next : Res op → Prog Op Res α} (crash : Crash state)
    (performed : Endures world failure Crash Post (next (world state op).1) (world state op).2)
    (failed : ∀ error, Endures world failure Crash Post (next (failure error op)) state ∧
      Endures world failure Crash Post (next (failure error op)) (world state op).2) :
    Endures world failure Crash Post (Prog.request op >>= next) state :=
  .call crash performed (fun error => (failed error).1) (fun error => (failed error).2)

theorem endures_collect {φ ι : Type} {body : ι → Prog Op Res (List φ)} {xs : List ι}
    (round : ∀ x ∈ xs, ∀ state, Crash state →
      Endures world failure Crash (fun _ => Crash) (body x) state)
    (initial : Crash state) :
    Endures world failure Crash (fun _ => Crash) (collect body xs) state := by
  induction xs generalizing state with
  | nil => exact .ret initial
  | cons x xs ih =>
    apply endures_bind
    refine (round x (.head _) state initial).imp ?_
    intro first middle kept
    apply endures_bind
    refine (ih (fun y mem => round y (.tail x mem)) kept).imp ?_
    exact fun _ _ kept => .ret kept

theorem endures_collect_rounds {φ ι : Type} {body : ι → Prog Op Res (List φ)} {xs : List ι}
    {Q : ι → List φ → σ → Prop}
    (round : ∀ x ∈ xs, ∀ state, Crash state → Endures world failure Crash
      (fun out later => Crash later ∧ Q x out later ∧ ∀ y outs, Q y outs state → Q y outs later)
      (body x) state)
    (initial : Crash state) :
    Endures world failure Crash
      (fun outs later => Crash later ∧
        (∀ x ∈ xs, ∃ out, Q x out later ∧ out ⊆ outs) ∧
        (∀ f ∈ outs, ∃ x ∈ xs, ∃ out, Q x out later ∧ f ∈ out) ∧
        ∀ y outs, Q y outs state → Q y outs later)
      (collect body xs) state := by
  induction xs generalizing state with
  | nil => exact .ret ⟨initial, by simp, by simp, fun _ _ holds => holds⟩
  | cons x xs ih =>
    apply endures_bind
    refine (round x (.head _) state initial).imp ?_
    rintro first middle ⟨kept, holds, stable⟩
    apply endures_bind
    refine (ih (fun y mem => round y (.tail x mem)) kept).imp ?_
    rintro others later ⟨kept, all, only, stable'⟩
    refine .ret ⟨kept, ?_, ?_, fun y outs holds => stable' y outs (stable y outs holds)⟩
    · intro y mem
      rcases List.mem_cons.mp mem with rfl | mem
      · exact ⟨first, stable' _ _ holds, List.subset_append_left _ _⟩
      · obtain ⟨out, holds, sub⟩ := all y mem
        exact ⟨out, holds, List.Subset.trans sub (List.subset_append_right _ _)⟩
    · intro f mem
      rcases List.mem_append.mp mem with mem | mem
      · exact ⟨x, (.head _), first, stable' _ _ holds, mem⟩
      · obtain ⟨y, memY, out, holds, mem⟩ := only f mem
        exact ⟨y, List.mem_cons_of_mem x memY, out, holds, mem⟩

end Play

end Flannel.Program
