import Flannel.Program.Core

/-!
# Programs that may crash

A program crashes where it issues a request nobody answers. `Reaches` says that some answers lead
to a given request; `exec` runs a program against a world that answers every other request.
-/

namespace Flannel.Program

variable {Op : Type} {Res : Op → Type} {α β σ : Type}

/-- Why a program crashes: at a nil pointer, at an index out of range, or because it
says so. -/
inductive Fault
  | nilPointer
  | outOfRange
  | raised
  deriving DecidableEq

abbrev Answer (Res : Op → Type) : Fault ⊕ Op → Type
  | .inl _ => Empty
  | .inr op => Res op

abbrev Proc (Op : Type) (Res : Op → Type) := Prog (Fault ⊕ Op) (Answer Res)

def crash (fault : Fault) : Proc Op Res α :=
  .call (.inl fault) nofun

def ask (op : Op) : Proc Op Res (Res op) :=
  .call (.inr op) .ret

def deref : Option α → Proc Op Res α
  | none => crash .nilPointer
  | some value => pure value

/-- Attempt something until it succeeds, `further` times more at the most. -/
def retry (attempt : Proc Op Res Bool) : (further : Nat) → Proc Op Res Bool
  | 0 => attempt
  | further + 1 => do
    if ← attempt then pure true else retry attempt further

def each {ε : Type} (body : ε → Proc Op Res Unit) : List ε → Proc Op Res Unit
  | [] => pure ()
  | x :: xs => do
    body x
    each body xs

/-! ## Requests that can be reached -/

section Reaches

variable (allowed : (op : Op) → Res op → Prop)

def Reaches : Proc Op Res α → Fault ⊕ Op → Prop
  | .ret _, _ => False
  | .call (.inl fault) _, request => request = .inl fault
  | .call (.inr op) rest, request =>
    request = .inr op ∨ ∃ answer, allowed op answer ∧ Reaches (rest answer) request

def Any : (op : Op) → Res op → Prop :=
  fun _ _ => True

def Returns : Proc Op Res α → α → Prop
  | .ret value, result => result = value
  | .call (.inl _) _, _ => False
  | .call (.inr op) rest, result => ∃ answer, allowed op answer ∧ Returns (rest answer) result

variable {allowed} {request : Fault ⊕ Op}

attribute [local simp] Reaches Returns

@[simp]
theorem not_reaches_ret (value : α) : ¬ Reaches allowed (.ret value) request :=
  id

@[simp]
theorem reaches_crash {fault : Fault} :
    Reaches allowed (crash fault : Proc Op Res α) request ↔ request = .inl fault :=
  Iff.rfl

@[simp]
theorem reaches_ask {op : Op} : Reaches allowed (ask op) request ↔ request = .inr op := by
  simp [ask]

@[simp]
theorem reaches_deref {pointer : Option α} :
    Reaches allowed (deref pointer) request ↔ pointer = none ∧ request = .inl .nilPointer := by
  cases pointer <;> simp [deref]

@[simp]
theorem returns_ret {value result : α} : Returns allowed (.ret value) result ↔ result = value :=
  Iff.rfl

@[simp]
theorem not_returns_crash {fault : Fault} {result : α} :
    ¬ Returns allowed (crash fault : Proc Op Res α) result :=
  id

@[simp]
theorem returns_ask {op : Op} {result : Res op} :
    Returns allowed (ask op) result ↔ allowed op result := by
  simp [ask]

@[simp]
theorem returns_deref {pointer : Option α} {result : α} :
    Returns allowed (deref pointer) result ↔ pointer = some result := by
  cases pointer <;> simp [deref, eq_comm]

@[simp]
theorem reaches_bind (program : Proc Op Res α) (next : α → Proc Op Res β) :
    Reaches allowed (program >>= next) request ↔
      Reaches allowed program request ∨
        ∃ result, Returns allowed program result ∧ Reaches allowed (next result) request := by
  induction program with
  | ret value => simp
  | call op rest ih =>
    cases op with
    | inl fault => simp
    | inr op =>
      simp only [Prog.call_bind, Reaches, Returns, ih]
      constructor
      · rintro (here | ⟨answer, isAllowed, before | ⟨result, returns, after⟩⟩)
        · exact .inl (.inl here)
        · exact .inl (.inr ⟨answer, isAllowed, before⟩)
        · exact .inr ⟨result, ⟨answer, isAllowed, returns⟩, after⟩
      · rintro ((here | ⟨answer, isAllowed, before⟩) | ⟨result, ⟨answer, isAllowed, returns⟩, after⟩)
        · exact .inl here
        · exact .inr ⟨answer, isAllowed, .inl before⟩
        · exact .inr ⟨answer, isAllowed, .inr ⟨result, returns, after⟩⟩

@[simp]
theorem returns_bind (program : Proc Op Res α) (next : α → Proc Op Res β) (result : β) :
    Returns allowed (program >>= next) result ↔
      ∃ middle, Returns allowed program middle ∧ Returns allowed (next middle) result := by
  induction program with
  | ret value => simp
  | call op rest ih =>
    cases op with
    | inl fault => simp
    | inr op =>
      simp only [Prog.call_bind, Returns, ih]
      constructor
      · rintro ⟨answer, isAllowed, middle, first, second⟩
        exact ⟨middle, ⟨answer, isAllowed, first⟩, second⟩
      · rintro ⟨middle, ⟨answer, isAllowed, first⟩, second⟩
        exact ⟨answer, isAllowed, middle, first, second⟩

@[simp]
theorem reaches_retry {attempt : Proc Op Res Bool} {further : Nat} :
    Reaches allowed (retry attempt further) request ↔ Reaches allowed attempt request := by
  induction further with
  | zero => rfl
  | succ further ih =>
    rw [retry, reaches_bind, or_iff_left_of_imp]
    rintro ⟨_ | _, _, again⟩
    · exact ih.mp again
    · exact absurd again (not_reaches_ret true)

theorem Returns.retry {attempt : Proc Op Res Bool} (returns : Returns allowed attempt true)
    (further : Nat) : Returns allowed (retry attempt further) true := by
  cases further with
  | zero => exact returns
  | succ further => exact (returns_bind _ _ _).mpr ⟨true, returns, rfl⟩

@[simp]
theorem reaches_each_singleton {ε : Type} {body : ε → Proc Op Res Unit} {x : ε} :
    Reaches allowed (each body [x]) request ↔ Reaches allowed (body x) request := by
  simp [each]

end Reaches

/-! ## Runs against a world -/

def exec (world : σ → (op : Op) → Res op × σ) : σ → Proc Op Res α → Option (α × σ)
  | state, .ret result => some (result, state)
  | _, .call (.inl _) _ => none
  | state, .call (.inr op) rest => exec world (world state op).2 (rest (world state op).1)

variable (world : σ → (op : Op) → Res op × σ) (state : σ)

@[simp]
theorem exec_ret (result : α) :
    exec world state (.ret result : Proc Op Res α) = some (result, state) :=
  rfl

@[simp]
theorem exec_ask (op : Op) : exec world state (ask op) = some (world state op) :=
  rfl

@[simp]
theorem exec_deref_some (value : α) :
    exec world state (deref (some value) : Proc Op Res α) = some (value, state) :=
  rfl

@[simp]
theorem exec_bind (program : Proc Op Res α) (next : α → Proc Op Res β) :
    exec world state (program >>= next) =
      (exec world state program).bind fun result => exec world result.2 (next result.1) := by
  induction program generalizing state with
  | ret value => rfl
  | call op rest ih =>
    cases op with
    | inl fault => rfl
    | inr op => exact ih _ _

theorem invariant_exec {Allowed : Op → Prop} {I : σ → Prop} {program : Proc Op Res α}
    (within : Within (Sum.elim (fun _ => True) Allowed) program)
    (preserved : ∀ state op, Allowed op → I state → I (world state op).2) (initial : I state)
    {result : α} {target : σ} (returned : exec world state program = some (result, target)) :
    I target := by
  induction program generalizing state with
  | ret value =>
    cases returned
    exact initial
  | call op rest ih =>
    cases within with
    | call allowed within =>
      cases op with
      | inl fault => contradiction
      | inr op => exact ih _ _ (within _) (preserved _ _ allowed initial) returned

theorem exec_retry {attempt : Proc Op Res Bool} {target : σ}
    (succeeds : exec world state attempt = some (true, target)) (further : Nat) :
    exec world state (retry attempt further) = some (true, target) := by
  cases further with
  | zero => exact succeeds
  | succ further => simp [retry, succeeds]

theorem exec_each {ε : Type} (body : ε → Proc Op Res Unit) (xs : List ε) :
    (exec world state (each body xs)).map Prod.snd =
      xs.foldlM (fun state x => (exec world state (body x)).map Prod.snd) state := by
  induction xs generalizing state with
  | nil => rfl
  | cons x xs ih =>
    rw [each, exec_bind, List.foldlM_cons, Option.bind_eq_bind, Option.map_bind, Option.bind_map]
    congr 1
    funext result
    exact ih result.2

end Flannel.Program
