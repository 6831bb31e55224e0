import Sisfila.Framework.RelyGuarantee

namespace Sisfila

/-! Reads that a later statement of the same request relies on. What was read of a key stays true
as long as nobody shows an event that touches the key. -/

section freshness

variable {ι L σ κ β : Type} (touches : κ → L → Bool) (view : κ → σ → β)

/-- What `i` may rely on: the view of a key changes only by an event of another that touches it. -/
def Watched (i : ι) (x y : Obs ι L σ) : Prop :=
  ∃ es,y.trace=es++x.trace ∧ (∀ e ∈ es,e.1≠i) ∧
    ∀ k,(∀ e ∈ es,touches k e.2=false) → view k y.state=view k x.state

/-- Nothing has touched key `k` since the `n`-th newest statement of `i`. -/
def Untouched [DecidableEq ι] (i : ι) (k : κ) (n : Nat) (x : Obs ι L σ) : Prop :=
  ∀ e ∈ since i n x.trace,touches k e.2=false

/-- `i` found `P` of key `k`, `n` statements ago, and `P` holds unless the key was touched. -/
def Fresh [DecidableEq ι] (i : ι) (k : κ) (P : β → Prop) (n : Nat) (x : Obs ι L σ) : Prop :=
  Untouched touches i k n x → P (view k x.state)

variable {touches view}

theorem Watched.refl (i : ι) (x : Obs ι L σ) : Watched touches view i x x :=
  ⟨[],rfl,fun _ h => absurd h List.not_mem_nil,fun _ _ => rfl⟩

theorem Watched.trans (i : ι) (x y z : Obs ι L σ) (h : Watched touches view i x y)
    (h' : Watched touches view i y z) : Watched touches view i x z := by
  obtain ⟨es,ht,hi,hv⟩ := h
  obtain ⟨es',ht',hi',hv'⟩ := h'
  refine ⟨es'++es,by rw [ht',ht,List.append_assoc],?_,?_⟩
  · intro e he
    exact (List.mem_append.mp he).elim (hi' e) (hi e)
  · intro k hk
    rw [hv' k (fun e he => hk e (List.mem_append_left _ he)),
      hv k (fun e he => hk e (List.mem_append_right _ he))]

/-- One statement of another request. -/
theorem Watched.of_step {i j : ι} (hij : i≠j) {x y : Obs ι L σ} {e : L}
    (ht : y.trace=(i,e)::x.trace)
    (hv : ∀ k,touches k e=false → view k y.state=view k x.state) : Watched touches view j x y := by
  refine ⟨[(i,e)],ht,?_,?_⟩
  · intro e' he
    rw [List.mem_singleton.mp he]
    exact hij
  · intro k hk
    exact hv k (hk _ (List.mem_singleton_self _))

variable [DecidableEq ι] {i : ι} {k : κ} {P : β → Prop} {n : Nat}

theorem Fresh.stable :
    Prog.Stable (Watched touches view i) (Fresh touches view i k P (n+1)) := by
  intro x y hx h hs
  obtain ⟨es,ht,hi,hv⟩ := h
  unfold Untouched at hs
  rw [ht,since_append n hi] at hs
  rw [hv k (fun e he => hs e (List.mem_append_left _ he))]
  exact hx (fun e he => hs e (List.mem_append_right _ he))

/-- A statement of `i` that leaves the view moves the reading one statement further away. -/
theorem Fresh.push {x : Obs ι L σ} (h : Fresh touches view i k P n x) {l : σ → L} {w : σ → σ}
    (hw : view k (w x.state)=view k x.state) :
    Fresh touches view i k P (n+1) (x.push i l w) := by
  intro hs
  unfold Untouched at hs
  rw [Obs.push_trace,since_cons_self] at hs
  rw [Obs.push_state,hw]
  exact h (fun e he => hs e (List.mem_cons_of_mem _ he))

/-- What is read now. -/
theorem Fresh.now {x : Obs ι L σ} (h : P (view k x.state)) : Fresh touches view i k P 0 x :=
  fun _ => h

end freshness

end Sisfila
