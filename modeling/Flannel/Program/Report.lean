import Flannel.Program.Fallible

/-!
# Programs that tell of failed requests

A program tells of failed requests if, whatever the answers are, one failed answer is enough for
the result to say so.
-/

namespace Flannel.Program

variable {Op : Type} {Res : Op → Type} {α β σ ε ε' φ ι : Type}

section Heard

variable (world : σ → (op : Op) → Res op × σ) (failure : ε → (op : Op) → Res op)

def heard : List (Outcome ε) → σ → Prog Op Res α → List ((op : Op) × Res op)
  | _, _, .ret _ => []
  | [], _, .call _ _ => []
  | .performed :: script, state, .call op rest =>
    ⟨op, (world state op).1⟩ :: heard script (world state op).2 (rest (world state op).1)
  | .refused error :: script, state, .call op rest =>
    ⟨op, failure error op⟩ :: heard script state (rest (failure error op))
  | .lost error :: script, state, .call op rest =>
    ⟨op, failure error op⟩ :: heard script (world state op).2 (rest (failure error op))

end Heard

/-! ## Results for all answers -/

inductive Yields (P : α → Prop) : Prog Op Res α → Prop
  | ret {result : α} : P result → Yields P (.ret result)
  | call {op : Op} {rest : Res op → Prog Op Res α} :
      (∀ answer, Yields P (rest answer)) → Yields P (.call op rest)

theorem yields_true (program : Prog Op Res α) : Yields (fun _ => True) program := by
  induction program with
  | ret result => exact .ret trivial
  | call op rest ih => exact .call ih

theorem yields_bind {P : α → Prop} {Q : β → Prop} {program : Prog Op Res α}
    {next : α → Prog Op Res β} (first : Yields P program)
    (second : ∀ result, P result → Yields Q (next result)) : Yields Q (program >>= next) := by
  induction first with
  | ret holds => exact second _ holds
  | call _ ih => exact .call ih

theorem Yields.sound {world : σ → (op : Op) → Res op × σ} {failure : ε → (op : Op) → Res op}
    {P : α → Prop} {program : Prog Op Res α} (yields : Yields P program) {state : σ}
    {script : List (Outcome ε)} {result : α}
    (returned : (play world failure script state program).1 = some result) : P result := by
  induction yields generalizing state script with
  | ret holds =>
    cases script <;> exact Option.some.inj returned ▸ holds
  | call _ ih =>
    cases script with
    | nil => exact absurd returned.symm (Option.some_ne_none _)
    | cons outcome script =>
      cases outcome with
      | performed => exact ih _ returned
      | refused error => exact ih _ returned
      | lost error => exact ih _ returned

/-! ## Failed answers -/

/-- Whatever the answers, if one of them failed, the result tells. -/
inductive Tells (Failed : (op : Op) → Res op → Prop) (Told : α → Prop) : Prog Op Res α → Prop
  | ret {result : α} : Tells Failed Told (.ret result)
  | call {op : Op} {rest : Res op → Prog Op Res α} :
      (∀ answer, Failed op answer → Yields Told (rest answer)) →
      (∀ answer, Tells Failed Told (rest answer)) → Tells Failed Told (.call op rest)

section Tells

variable {Failed : (op : Op) → Res op → Prop}

theorem Tells.sound {world : σ → (op : Op) → Res op × σ} {failure : ε → (op : Op) → Res op}
    {Told : α → Prop} {program : Prog Op Res α} (tells : Tells Failed Told program) {state : σ}
    {script : List (Outcome ε)} {result : α}
    (returned : (play world failure script state program).1 = some result)
    (failed : ∃ answer ∈ heard world failure script state program, Failed answer.1 answer.2) :
    Told result := by
  obtain ⟨answer, mem, failed⟩ := failed
  induction tells generalizing state script with
  | ret => cases script <;> simp [heard] at mem
  | call first _ ih =>
    cases script with
    | nil => exact absurd returned.symm (Option.some_ne_none _)
    | cons outcome script =>
      -- the first answer failed, or a later one
      cases outcome with
      | performed =>
        rcases List.mem_cons.mp mem with rfl | mem
        · exact (first _ failed).sound returned
        · exact ih _ returned mem
      | refused error =>
        rcases List.mem_cons.mp mem with rfl | mem
        · exact (first _ failed).sound returned
        · exact ih _ returned mem
      | lost error =>
        rcases List.mem_cons.mp mem with rfl | mem
        · exact (first _ failed).sound returned
        · exact ih _ returned mem

theorem tells_request (op : Op) :
    Tells Failed (Failed op) (Prog.request op : Prog Op Res (Res op)) :=
  .call (fun _ failed => .ret failed) fun _ => .ret

theorem tells_bind {Told : α → Prop} {Told' : β → Prop} {program : Prog Op Res α}
    {next : α → Prog Op Res β} (first : Tells Failed Told program)
    (passed : ∀ result, Told result → Yields Told' (next result))
    (second : ∀ result, Tells Failed Told' (next result)) : Tells Failed Told' (program >>= next) := by
  induction first with
  | ret => exact second _
  | call told _ ih => exact .call (fun answer failed => yields_bind (told answer failed) passed) ih

def IsError : Except ε α → Prop :=
  fun result => ∃ err, result = .error err

theorem tells_attempt {program : Prog Op Res (Except ε α)} {next : α → Prog Op Res (Except ε β)}
    (first : Tells Failed IsError program) (second : ∀ value, Tells Failed IsError (next value)) :
    Tells Failed IsError (attempt program next) := by
  refine tells_bind first ?_ fun result => ?_
  · rintro _ ⟨err, rfl⟩
    exact .ret ⟨err, rfl⟩
  · cases result with
    | error err => exact .ret
    | ok value => exact second value

theorem tells_wrap {f : ε → ε'} {program : Prog Op Res (Except ε α)}
    (tells : Tells Failed IsError program) : Tells Failed IsError (wrap f program) := by
  refine tells_bind tells ?_ fun result => .ret
  rintro _ ⟨err, rfl⟩
  exact .ret ⟨f err, rfl⟩

theorem tells_collect {Told : φ → Prop} {body : ι → Prog Op Res (List φ)}
    (round : ∀ x, Tells Failed (fun out => ∃ f ∈ out, Told f) (body x)) (xs : List ι) :
    Tells Failed (fun outs => ∃ f ∈ outs, Told f) (collect body xs) := by
  induction xs with
  | nil => exact .ret
  | cons x xs ih =>
    refine tells_bind (round x) ?_ fun first => tells_bind ih ?_ fun others => .ret
    · rintro first ⟨f, mem, told⟩
      refine yields_bind (yields_true _) fun others _ => .ret ?_
      exact ⟨f, List.mem_append_left _ mem, told⟩
    · rintro others ⟨f, mem, told⟩
      exact .ret ⟨f, List.mem_append_right _ mem, told⟩

end Tells

end Flannel.Program
