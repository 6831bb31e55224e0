import Sisfila.Framework.Program

namespace Sisfila

/-- Requests one after another, from `s₀`. `ok s r o` says which request may run in `s` and how it
may end. -/
inductive Runs {ι L σ ε α : Type} (prog : ι → Prog L σ ε α)
    (ok : σ → ι → Outcome L σ ε α → Prop) (s₀ : σ) : σ → Prop
  | start : Runs prog ok s₀ s₀
  | next {s : σ} (h : Runs prog ok s₀ s) (r : ι) (hr : ok s r ((prog r).exec s)) :
      Runs prog ok s₀ ((prog r).exec s).state

namespace Runs

variable {ι L σ ε α : Type} {prog : ι → Prog L σ ε α} {ok : σ → ι → Outcome L σ ε α → Prop}
  {s₀ s : σ}

/-- What every allowed request keeps holds in every state reached. -/
theorem invariant (h : Runs prog ok s₀ s) (I : σ → Prop) (h₀ : I s₀)
    (hI : ∀ s r,I s → ok s r ((prog r).exec s) → I ((prog r).exec s).state) : I s := by
  induction h with
  | start => exact h₀
  | next _ r hr ih => exact hI _ r ih hr

/-- A run that keeps an invariant meets every condition the invariant implies. -/
theorem strengthen {ok' : σ → ι → Outcome L σ ε α → Prop} (h : Runs prog ok s₀ s) (I : σ → Prop)
    (h₀ : I s₀) (hI : ∀ s r,I s → ok s r ((prog r).exec s) → I ((prog r).exec s).state)
    (hok : ∀ s r,I s → ok s r ((prog r).exec s) → ok' s r ((prog r).exec s)) :
    Runs prog ok' s₀ s := by
  induction h with
  | start => exact .start
  | next h r hr ih => exact ih.next r (hok _ r (h.invariant I h₀ hI) hr)

end Runs

/-- The state a list of requests ends in. -/
def runAll {ι L σ ε α : Type} (prog : ι → Prog L σ ε α) (s : σ) (rs : List ι) : σ :=
  rs.foldl (fun s r => ((prog r).exec s).state) s

/-- Every request of the list is allowed where it runs. -/
def AllowedRun {ι L σ ε α : Type} (prog : ι → Prog L σ ε α)
    (ok : σ → ι → Outcome L σ ε α → Prop) (s : σ) : List ι → Prop
  | [] => True
  | r::rs => ok s r ((prog r).exec s) ∧ AllowedRun prog ok ((prog r).exec s).state rs

instance decidableAllowedRun {ι L σ ε α : Type} (prog : ι → Prog L σ ε α)
    (ok : σ → ι → Outcome L σ ε α → Prop) [∀ s r o,Decidable (ok s r o)] :
    (s : σ) → (rs : List ι) → Decidable (AllowedRun prog ok s rs)
  | _,[] => isTrue trivial
  | s,r::rs => @instDecidableAnd _ _ _ (decidableAllowedRun prog ok ((prog r).exec s).state rs)

theorem Runs.append {ι L σ ε α : Type} {prog : ι → Prog L σ ε α}
    {ok : σ → ι → Outcome L σ ε α → Prop} {s₀ s : σ} (h : Runs prog ok s₀ s) (rs : List ι)
    (hrs : AllowedRun prog ok s rs) : Runs prog ok s₀ (runAll prog s rs) := by
  induction rs generalizing s with
  | nil => exact h
  | cons r rs ih => exact ih (h.next r hrs.1) hrs.2

end Sisfila
