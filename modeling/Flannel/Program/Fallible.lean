import Flannel.Program.Outage

/-!
# Programs that end with an error

A program that returns an error or a value. `attempt` goes on with the value, and an
error ends the whole; `wrap` changes the error.
-/

namespace Flannel.Program

variable {Op : Type} {Res : Op → Type} {α β σ ε ε' φ : Type}

def attempt (program : Prog Op Res (Except ε α)) (next : α → Prog Op Res (Except ε β)) :
    Prog Op Res (Except ε β) :=
  program >>= fun
    | .error err => .ret (.error err)
    | .ok value => next value

def wrap (f : ε → ε') (program : Prog Op Res (Except ε α)) : Prog Op Res (Except ε' α) :=
  program >>= fun result => .ret (result.mapError f)

def Ends (Fails : ε → σ → Prop) (Post : α → σ → Prop) : Except ε α → σ → Prop
  | .error err, state => Fails err state
  | .ok value, state => Post value state

@[simp]
theorem ends_ok {Fails : ε → σ → Prop} {Post : α → σ → Prop} {value : α} {state : σ} :
    Ends Fails Post (.ok value) state ↔ Post value state :=
  Iff.rfl

section Within

variable {Allowed : Op → Prop}

theorem within_attempt {program : Prog Op Res (Except ε α)} {next : α → Prog Op Res (Except ε β)}
    (first : Within Allowed program) (second : ∀ value, Within Allowed (next value)) :
    Within Allowed (attempt program next) := by
  refine within_bind first fun result => ?_
  cases result with
  | error err => exact .ret
  | ok value => exact second value

theorem within_wrap {f : ε → ε'} {program : Prog Op Res (Except ε α)}
    (within : Within Allowed program) : Within Allowed (wrap f program) :=
  within_bind within fun _ => .ret

end Within

section Perform

variable (world : σ → (op : Op) → Res op × σ) (state : σ)

end Perform

/-! ## Runs in which requests fail -/

section Endures

variable {world : σ → (op : Op) → Res op × σ} {failure : φ → (op : Op) → Res op}
variable {Crash : σ → Prop} {state : σ}

variable {program : Prog Op Res (Except ε α)}

theorem endures_attempt {Fails : ε → σ → Prop} {Post : β → σ → Prop}
    {next : α → Prog Op Res (Except ε β)} (endures : Endures world failure Crash
      (Ends Fails fun value => Endures world failure Crash (Ends Fails Post) (next value))
      program state) :
    Endures world failure Crash (Ends Fails Post) (attempt program next) state := by
  apply endures_bind
  refine endures.imp ?_
  intro result state ends
  cases result with
  | error err => exact .ret ends
  | ok value => exact ends

theorem Endures.attempt {Fails : ε → σ → Prop} {Middle : α → σ → Prop} {Post : β → σ → Prop}
    {next : α → Prog Op Res (Except ε β)}
    (first : Endures world failure Crash (Ends Fails Middle) program state)
    (second : ∀ value later, Middle value later →
      Endures world failure Crash (Ends Fails Post) (next value) later) :
    Endures world failure Crash (Ends Fails Post) (attempt program next) state := by
  apply endures_attempt
  refine first.imp ?_
  intro result later ends
  cases result with
  | error err => exact ends
  | ok value => exact second value later ends

theorem endures_wrap {Fails : ε' → σ → Prop} {Post : α → σ → Prop} {f : ε → ε'}
    (endures : Endures world failure Crash (Ends (fun err => Fails (f err)) Post) program state) :
    Endures world failure Crash (Ends Fails Post) (wrap f program) state := by
  apply endures_bind
  refine endures.imp ?_
  intro result state ends
  cases result with
  | error err => exact .ret ends
  | ok value => exact .ret ends

section Request

variable {Value : Op → Type} {fallible : σ → (op : Op) → Except φ (Value op) × σ} {op : Op} {target : σ}

theorem endures_answered {value : Value op} (answered : fallible state op = (.ok value, target))
    (before : Crash state) (after : Crash target) :
    Endures fallible (fun err _ => .error err) Crash
      (Ends (fun _ => Crash) fun result s => s = target ∧ result = value) (Prog.request op) state := by
  refine .call before ?_ (fun _ => .ret before) (fun _ => .ret ?_)
  · rw [answered]
    exact .ret ⟨rfl, rfl⟩
  · rw [answered]
    exact after

theorem endures_rejected {err : φ} {Post : Value op → σ → Prop}
    (answered : fallible state op = (.error err, target)) (before : Crash state) (after : Crash target) :
    Endures fallible (fun err _ => .error err) Crash (Ends (fun _ => Crash) Post) (Prog.request op)
      state := by
  refine .call before ?_ (fun _ => .ret before) (fun _ => .ret ?_)
  · rw [answered]
    exact .ret after
  · rw [answered]
    exact after

end Request

theorem Endures.ends {Post : α → σ → Prop} {program : Prog Op Res (Except ε α)}
    (endures : Endures world failure Crash (Ends (fun _ => Crash) Post) program state)
    (script : List (Outcome φ)) :
    (∃ value, (play world failure script state program).1 = some (.ok value) ∧
        Post value (play world failure script state program).2) ∨
      (∀ value, (play world failure script state program).1 ≠ some (.ok value)) ∧
        Crash (play world failure script state program).2 := by
  have sound := endures.sound script
  cases returned : (play world failure script state program).1 with
  | none => exact .inr ⟨by simp, sound.1 returned⟩
  | some result =>
    have ends := sound.2 result returned
    cases result with
    | error err => exact .inr ⟨by simp, ends⟩
    | ok value => exact .inl ⟨value, rfl, ends⟩

end Endures

end Flannel.Program
