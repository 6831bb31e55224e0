import Mathlib.Logic.Function.Basic

namespace Sisfila

/-- A request as its database sees it: a finite tree of atomic statements. A statement shows an
event, changes the shared state and hands the state it found to the rest of the request.
An exception ends the request and undoes nothing. -/
inductive Prog (L σ ε α : Type) where
  | ret (a : α)
  | raise (e : ε)
  | step (l : σ → L) (w : σ → σ) (k : σ → Prog L σ ε α)

/-- What a request leaves behind when nothing runs beside it. -/
structure Outcome (L σ ε α : Type) where
  log : List L
  result : Except ε α
  state : σ

/-- Continue with `f` after a result; an exception skips `f` and keeps the state. -/
def Outcome.andThen {L σ ε α β : Type} (o : Outcome L σ ε α)
    (f : α → σ → Outcome L σ ε β) : Outcome L σ ε β :=
  match o.result with
  | .ok a => ⟨o.log++(f a o.state).log,(f a o.state).result,(f a o.state).state⟩
  | .error e => ⟨o.log,.error e,o.state⟩

namespace Prog

variable {L σ ε α β γ : Type}

def bind : Prog L σ ε α → (α → Prog L σ ε β) → Prog L σ ε β
  | .ret a,f => f a
  | .raise e,_ => .raise e
  | .step l w k,f => .step l w (fun s => (k s).bind f)

instance : Monad (Prog L σ ε) where
  pure := .ret
  bind := .bind

@[simp] theorem pure_eq (a : α) : (pure a : Prog L σ ε α) = .ret a := rfl
@[simp] theorem ret_bind (a : α) (f : α → Prog L σ ε β) : (Prog.ret a >>= f) = f a := rfl
@[simp] theorem raise_bind (e : ε) (f : α → Prog L σ ε β) :
    (Prog.raise e >>= f) = .raise e := rfl
@[simp] theorem step_bind (l : σ → L) (w : σ → σ) (k : σ → Prog L σ ε α)
    (f : α → Prog L σ ε β) : (Prog.step l w k >>= f) = .step l w (fun s => k s >>= f) := rfl

theorem bind_ret (p : Prog L σ ε α) : (p >>= Prog.ret) = p := by
  induction p with
  | ret a => rfl
  | raise e => rfl
  | step l w k ih =>
    rw [step_bind]
    exact congrArg (Prog.step l w) (funext ih)

theorem bind_bind (p : Prog L σ ε α) (f : α → Prog L σ ε β) (g : β → Prog L σ ε γ) :
    ((p >>= f) >>= g) = p >>= fun a => f a >>= g := by
  induction p with
  | ret a => rfl
  | raise e => rfl
  | step l w k ih =>
    simp only [step_bind]
    exact congrArg (Prog.step l w) (funext ih)

instance : LawfulMonad (Prog L σ ε) :=
  LawfulMonad.mk' _ bind_ret (fun _ _ => rfl) bind_bind

/-- Run to the end with nothing beside it, collecting the events. -/
def exec : Prog L σ ε α → σ → Outcome L σ ε α
  | .ret a,s => ⟨[],.ok a,s⟩
  | .raise e,s => ⟨[],.error e,s⟩
  | .step l w k,s => ⟨l s::((k s).exec (w s)).log,((k s).exec (w s)).result,
      ((k s).exec (w s)).state⟩

@[simp] theorem exec_ret (a : α) (s : σ) :
    (Prog.ret a : Prog L σ ε α).exec s = ⟨[],.ok a,s⟩ := rfl
@[simp] theorem exec_raise (e : ε) (s : σ) :
    (Prog.raise e : Prog L σ ε α).exec s = ⟨[],.error e,s⟩ := rfl
@[simp] theorem exec_step (l : σ → L) (w : σ → σ) (k : σ → Prog L σ ε α) (s : σ) :
    (Prog.step l w k).exec s = ⟨l s::((k s).exec (w s)).log,((k s).exec (w s)).result,
      ((k s).exec (w s)).state⟩ := rfl

theorem exec_bind (p : Prog L σ ε α) (f : α → Prog L σ ε β) (s : σ) :
    (p >>= f).exec s = (p.exec s).andThen (fun a t => (f a).exec t) := by
  induction p generalizing s with
  | ret a => rfl
  | raise e => rfl
  | step l w k ih =>
    rw [step_bind,exec_step,ih]
    cases h : ((k s).exec (w s)).result <;> simp [Outcome.andThen,h]

/-- Every statement of the program, on every path, satisfies `S`. -/
def Every (S : (σ → L) → (σ → σ) → Prop) : Prog L σ ε α → Prop
  | .ret _ => True
  | .raise _ => True
  | .step l w k => S l w ∧ ∀ s,(k s).Every S

variable {S : (σ → L) → (σ → σ) → Prop}

theorem Every.bind {p : Prog L σ ε α} {f : α → Prog L σ ε β}
    (hp : p.Every S) (hf : ∀ a,(f a).Every S) : (p >>= f).Every S := by
  induction p with
  | ret a => exact hf a
  | raise e => exact trivial
  | step l w k ih => exact ⟨hp.1,fun s => ih s (hp.2 s)⟩

/-- A reflexive and transitive relation kept by each statement is kept by the run,
also by one that ends in an exception. -/
theorem Every.exec_rel {p : Prog L σ ε α} (hp : p.Every S) (R : σ → σ → Prop)
    (hr : ∀ s,R s s) (ht : ∀ a b c,R a b → R b c → R a c)
    (hS : ∀ l w,S l w → ∀ s,R s (w s)) (s : σ) : R s (p.exec s).state := by
  induction p generalizing s with
  | ret a => exact hr s
  | raise e => exact hr s
  | step l w k ih => exact ht _ _ _ (hS l w hp.1 s) (ih s (hp.2 s) (w s))

theorem Every.exec_log {p : Prog L σ ε α} (hp : p.Every S) (N : L → Prop)
    (hS : ∀ l w,S l w → ∀ s,N (l s)) (s : σ) : ∀ e ∈ (p.exec s).log,N e := by
  induction p generalizing s with
  | ret a => simp
  | raise e => simp
  | step l w k ih =>
    intro e he
    rcases List.mem_cons.mp he with rfl | he
    · exact hS l w hp.1 s
    · exact ih s (hp.2 s) (w s) e he

/-- No statement of the program changes the state. -/
def ReadOnly (p : Prog L σ ε α) : Prop := p.Every (fun _ w => ∀ s,w s=s)

theorem ReadOnly.exec_state {p : Prog L σ ε α} (h : p.ReadOnly) (s : σ) :
    (p.exec s).state=s :=
  (h.exec_rel Eq (fun _ => rfl) (fun _ _ _ hab hbc => hab.trans hbc)
    (fun _ _ hw s => (hw s).symm) s).symm

end Prog

end Sisfila
