import Mathlib.Logic.Basic

/-!
# Programs that issue requests

A program returns or issues a request and continues with the answer. A sequential run answers from
one handler; an interleaved system advances many programs one request at a time.

A `Contract` is the rely/guarantee reading: as long as every answer meets the rely condition,
every request meets the guarantee and the result the postcondition, each read against the history
of answers.
-/

namespace Flannel.Program

universe u v w

/-- A program over requests `Op`, where a request `op` is answered by a value of
type `Res op`. -/
inductive Prog (Op : Type u) (Res : Op → Type v) (α : Type w) : Type (max u v w)
  | ret (result : α)
  | call (op : Op) (rest : Res op → Prog Op Res α)

namespace Prog

variable {Op : Type u} {Res : Op → Type v} {α β : Type w}

def bind : Prog Op Res α → (α → Prog Op Res β) → Prog Op Res β
  | ret result, next => next result
  | call op rest, next => call op fun answer => (rest answer).bind next

instance : Monad (Prog Op Res) where
  pure := ret
  bind := bind

@[simp]
theorem pure_eq_ret (result : α) : (pure result : Prog Op Res α) = ret result :=
  rfl

@[simp]
theorem ret_bind (result : α) (next : α → Prog Op Res β) : ret result >>= next = next result :=
  rfl

@[simp]
theorem call_bind (op : Op) (rest : Res op → Prog Op Res α) (next : α → Prog Op Res β) :
    call op rest >>= next = call op fun answer => rest answer >>= next :=
  rfl

def request {Res : Op → Type w} (op : Op) : Prog Op Res (Res op) :=
  call op ret

end Prog

variable {Op : Type u} {Res : Op → Type v} {η α β : Type w}

inductive Within (Allowed : Op → Prop) : Prog Op Res α → Prop
  | ret {result : α} : Within Allowed (.ret result)
  | call {op : Op} {rest : Res op → Prog Op Res α} : Allowed op →
      (∀ answer, Within Allowed (rest answer)) → Within Allowed (.call op rest)

section Within

variable {Allowed : Op → Prop}

theorem within_true (program : Prog Op Res α) : Within (fun _ => True) program := by
  induction program with
  | ret result => exact .ret
  | call op rest ih => exact .call trivial ih

theorem within_request {Res : Op → Type w} {op : Op} (allowed : Allowed op) :
    Within Allowed (Prog.request op : Prog Op Res (Res op)) :=
  .call allowed fun _ => .ret

theorem within_bind {program : Prog Op Res α} {next : α → Prog Op Res β}
    (first : Within Allowed program) (second : ∀ result, Within Allowed (next result)) :
    Within Allowed (program >>= next) := by
  induction first with
  | ret => exact second _
  | call allowed _ ih => exact .call allowed ih

end Within

/-- What a program promises about its requests and its result, relative to what
it may assume of the answers and to a history `η` of the answers so far. -/
structure Contract (Op : Type u) (Res : Op → Type v) (η : Type w) (α : Type w) where
  note : η → (op : Op) → Res op → η
  rely : η → (op : Op) → Res op → Prop
  guarantee : η → Op → Prop
  post : η → α → Prop

def Contract.ensuring (contract : Contract Op Res η α) (post : η → β → Prop) :
    Contract Op Res η β :=
  ⟨contract.note, contract.rely, contract.guarantee, post⟩

/-- The program keeps the contract from the given history on. -/
inductive Safe (contract : Contract Op Res η α) : η → Prog Op Res α → Prop
  | ret {history : η} {result : α} :
      contract.post history result → Safe contract history (.ret result)
  | call {history : η} {op : Op} {rest : Res op → Prog Op Res α} :
      contract.guarantee history op →
      (∀ answer, contract.rely history op answer →
        Safe contract (contract.note history op answer) (rest answer)) →
      Safe contract history (.call op rest)

variable {contract : Contract Op Res η α} {history : η} {program : Prog Op Res α}

theorem safe_ret_iff {result : α} :
    Safe contract history (.ret result) ↔ contract.post history result :=
  ⟨fun | .ret post => post, Safe.ret⟩

theorem safe_call_iff {op : Op} {rest : Res op → Prog Op Res α} :
    Safe contract history (.call op rest) ↔
      contract.guarantee history op ∧ ∀ answer, contract.rely history op answer →
        Safe contract (contract.note history op answer) (rest answer) :=
  ⟨fun | .call guarantee later => ⟨guarantee, later⟩, fun ⟨guarantee, later⟩ => .call guarantee later⟩

theorem Safe.bind {contract : Contract Op Res η β} {middle : η → α → Prop} {history : η}
    {program : Prog Op Res α} {next : α → Prog Op Res β}
    (first : Safe (contract.ensuring middle) history program)
    (second : ∀ later result, middle later result → Safe contract later (next result)) :
    Safe contract history (program >>= next) := by
  induction first with
  | ret post => exact second _ _ post
  | call guarantee _ ih => exact .call guarantee ih

theorem Safe.bind_ensuring {γ : Type w} {contract : Contract Op Res η γ} {middle : η → α → Prop}
    {post : η → β → Prop} {next : α → Prog Op Res β}
    (first : Safe (contract.ensuring middle) history program)
    (second : ∀ later result, middle later result →
      Safe (contract.ensuring post) later (next result)) :
    Safe (contract.ensuring post) history (program >>= next) :=
  @Safe.bind Op Res η α β (contract.ensuring post) middle history program next first second

theorem safe_request_bind {Res : Op → Type w} {contract : Contract Op Res η β}
    {op : Op} {next : Res op → Prog Op Res β} (guarantee : contract.guarantee history op)
    (continues : ∀ answer, contract.rely history op answer →
      Safe contract (contract.note history op answer) (next answer)) :
    Safe contract history (Prog.request op >>= next) :=
  .call guarantee continues

theorem Safe.weaken {contract : Contract Op Res η β} {post post' : η → α → Prop}
    (safe : Safe (contract.ensuring post) history program)
    (weaker : ∀ later result, post later result → post' later result) :
    Safe (contract.ensuring post') history program := by
  induction safe with
  | ret holds => exact .ret (weaker _ _ holds)
  | call guarantee _ ih => exact .call guarantee ih

theorem safe_of_within {Allowed : Op → Prop} (within : Within Allowed program)
    (allowed : ∀ history op, Allowed op → contract.guarantee history op)
    (post : ∀ history result, contract.post history result) (history : η) :
    Safe contract history program := by
  induction within generalizing history with
  | ret => exact .ret (post history _)
  | call here _ ih => exact .call (allowed history _ here) fun answer _ => ih answer _

/-- Run a program to its result against a stateful handler. The handler may
refuse a request, in which case the program never returns. -/
def interp {σ : Type w} (handle : σ → (op : Op) → Option (Res op × σ)) :
    σ → Prog Op Res α → Option (α × σ)
  | state, .ret result => some (result, state)
  | state, .call op rest =>
    match handle state op with
    | none => none
    | some (answer, next) => interp handle next (rest answer)

theorem interp_request_bind {Res : Op → Type w} {σ : Type w}
    {handle : σ → (op : Op) → Option (Res op × σ)} {state later : σ} {op : Op} {answer : Res op}
    {next : Res op → Prog Op Res β} (answered : handle state op = some (answer, later)) :
    interp handle state (Prog.request op >>= next) = interp handle later (next answer) := by
  change interp handle state (.call op next) = _
  rw [interp, answered]

theorem interp_bind {σ : Type w} {handle : σ → (op : Op) → Option (Res op × σ)} {state later : σ}
    {result : α} {next : α → Prog Op Res β}
    (runs : interp handle state program = some (result, later)) :
    interp handle state (program >>= next) = interp handle later (next result) := by
  induction program generalizing state with
  | ret value =>
    cases runs
    rfl
  | call op rest ih =>
    rw [interp] at runs
    rw [Prog.call_bind, interp]
    cases answered : handle state op with
    | none => simp [answered] at runs
    | some served =>
      rw [answered] at runs
      exact ih _ runs

/-- A program that keeps its contract returns, and meets its postcondition, under a
handler that answers every allowed request as the program may rely on; `R` relates
the handler's state to the history. -/
theorem Safe.interp {σ : Type w} {handle : σ → (op : Op) → Option (Res op × σ)} {R : σ → η → Prop}
    (answers : ∀ state history op, R state history → contract.guarantee history op →
      ∃ answer next, handle state op = some (answer, next) ∧ contract.rely history op answer ∧
        R next (contract.note history op answer))
    (safe : Safe contract history program) {state : σ} (related : R state history) :
    ∃ result later history', interp handle state program = some (result, later) ∧
      R later history' ∧ contract.post history' result := by
  induction safe generalizing state with
  | ret post => exact ⟨_, state, _, rfl, related, post⟩
  | call guarantee _ ih =>
    obtain ⟨answer, next, answered, rely, related⟩ := answers state _ _ related guarantee
    obtain ⟨result, later, history', runs, related, post⟩ := ih answer rely related
    refine ⟨result, later, history', ?_, related, post⟩
    rw [Program.interp, answered]
    exact runs

end Flannel.Program
