import Sisfila.Framework.Program

namespace Sisfila

/-- What concurrent requests share: the state, and the events so far, newest first, each with the
request that caused it. -/
structure Obs (ι L σ : Type) where
  state : σ
  trace : List (ι × L)

/-- The shared state after one statement of request `i`. -/
def Obs.push {ι L σ : Type} (x : Obs ι L σ) (i : ι) (l : σ → L) (w : σ → σ) : Obs ι L σ :=
  ⟨w x.state,(i,l x.state)::x.trace⟩

@[simp] theorem Obs.push_state {ι L σ : Type} (x : Obs ι L σ) (i : ι) (l : σ → L) (w : σ → σ) :
    (x.push i l w).state = w x.state := rfl
@[simp] theorem Obs.push_trace {ι L σ : Type} (x : Obs ι L σ) (i : ι) (l : σ → L) (w : σ → σ) :
    (x.push i l w).trace = (i,l x.state)::x.trace := rfl

/-- The newest events, back to the `n`-th newest of request `i`. -/
def since {ι L : Type} [DecidableEq ι] (i : ι) : Nat → List (ι × L) → List (ι × L)
  | 0,_ => []
  | _+1,[] => []
  | n+1,e::tr => e::since i (if e.1=i then n else n+1) tr

theorem since_cons_self {ι L : Type} [DecidableEq ι] (i : ι) (n : Nat) (e : L) (tr : List (ι × L)) :
    since i (n+1) ((i,e)::tr)=(i,e)::since i n tr := by
  rw [since,if_pos rfl]

/-- The events of others are all among the newest. -/
theorem since_append {ι L : Type} [DecidableEq ι] {i : ι} (n : Nat) {es : List (ι × L)}
    (h : ∀ e ∈ es,e.1≠i) (tr : List (ι × L)) : since i (n+1) (es++tr)=es++since i (n+1) tr := by
  induction es with
  | nil => rfl
  | cons e es ih =>
    rw [List.cons_append,since,if_neg (h e List.mem_cons_self),
      ih (fun e he => h e (List.mem_cons_of_mem _ he)),List.cons_append]

/-- Requests in flight over a shared state; each is what is left of its program. -/
structure Config (ι L σ ε α : Type) where
  obs : Obs ι L σ
  pool : ι → Prog L σ ε α

/-- The request has ended without an exception. -/
def Prog.returned {L σ ε α : Type} : Prog L σ ε α → Bool
  | .ret _ => true
  | _ => false

namespace Config

variable {ι L σ ε α : Type} [DecidableEq ι]

def start (s : σ) (pool : ι → Prog L σ ε α) : Config ι L σ ε α := ⟨⟨s,[]⟩,pool⟩

/-- Request `i` executes its next statement; a finished one does nothing. -/
def fire (c : Config ι L σ ε α) (i : ι) : Config ι L σ ε α :=
  match c.pool i with
  | .step l w k => ⟨c.obs.push i l w,Function.update c.pool i (k c.obs.state)⟩
  | _ => c

def fireAll (c : Config ι L σ ε α) (is : List ι) : Config ι L σ ε α := is.foldl fire c

/-- `ok x i e` says when request `i` may show event `e` in `x`: the condition a schedule keeps. -/
def Allowed (ok : Obs ι L σ → ι → L → Prop) (c : Config ι L σ ε α) (i : ι) : Prop :=
  match c.pool i with
  | .step l _ _ => ok c.obs i (l c.obs.state)
  | _ => True

/-- Configurations reached by any interleaving whose steps all meet `ok`. -/
inductive Reach (ok : Obs ι L σ → ι → L → Prop) (c₀ : Config ι L σ ε α) :
    Config ι L σ ε α → Prop
  | refl : Reach ok c₀ c₀
  | step {c : Config ι L σ ε α} (i : ι) : Reach ok c₀ c → c.Allowed ok i → Reach ok c₀ (c.fire i)

/-- A schedule as a list of request names, checked step by step. -/
def AllowedAll (ok : Obs ι L σ → ι → L → Prop) (c : Config ι L σ ε α) : List ι → Prop
  | [] => True
  | i::is => c.Allowed ok i ∧ AllowedAll ok (c.fire i) is

instance (ok : Obs ι L σ → ι → L → Prop) [∀ x i e,Decidable (ok x i e)]
    (c : Config ι L σ ε α) (i : ι) : Decidable (c.Allowed ok i) := by
  unfold Allowed
  split <;> infer_instance

instance decidableAllowedAll (ok : Obs ι L σ → ι → L → Prop) [∀ x i e,Decidable (ok x i e)] :
    (c : Config ι L σ ε α) → (is : List ι) → Decidable (c.AllowedAll ok is)
  | _,[] => isTrue trivial
  | c,i::is => @instDecidableAnd _ _ _ (decidableAllowedAll ok (c.fire i) is)

theorem Reach.fireAll {ok : Obs ι L σ → ι → L → Prop} {c₀ c : Config ι L σ ε α}
    (h : Reach ok c₀ c) (is : List ι) (ha : c.AllowedAll ok is) : Reach ok c₀ (c.fireAll is) := by
  induction is generalizing c with
  | nil => exact h
  | cons i is ih => exact ih (h.step i ha.1) ha.2

/-- A schedule that asks for nothing reaches every configuration it names. -/
theorem reach_fireAll (c : Config ι L σ ε α) (is : List ι) :
    Reach (fun _ _ _ => True) c (c.fireAll is) := by
  apply Reach.refl.fireAll
  induction is generalizing c with
  | nil => trivial
  | cons i is ih =>
    refine ⟨?_,ih (c.fire i)⟩
    unfold Allowed
    split <;> trivial

end Config

end Sisfila
