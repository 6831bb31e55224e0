import Sisfila.Framework.Interleaving

namespace Sisfila

namespace Prog

variable {ι L σ ε α β : Type}

/-- Rely/guarantee judgement for what is left of request `i`. Whenever the others have moved the
shared state along `R`, the next statement, if the schedule allows it, moves it along `G`, and a
result is returned only where `Q` holds. Exceptions end the obligation. -/
def Safe (i : ι) (ok : Obs ι L σ → ι → L → Prop) (R G : Obs ι L σ → Obs ι L σ → Prop)
    (Q : α → Obs ι L σ → Prop) : Prog L σ ε α → Obs ι L σ → Prop
  | .ret a,x => ∀ y,R x y → Q a y
  | .raise _,_ => True
  | .step l w k,x => ∀ y,R x y → ok y i (l y.state) →
      G y (y.push i l w) ∧ (k y.state).Safe i ok R G Q (y.push i l w)

section rules

variable {i : ι} {ok : Obs ι L σ → ι → L → Prop} {R G : Obs ι L σ → Obs ι L σ → Prop}
  (hr : ∀ x,R x x) (ht : ∀ x y z,R x y → R y z → R x z)

include ht in
/-- Interference by the others does not spoil a judgement. -/
theorem Safe.stable {Q : α → Obs ι L σ → Prop} {p : Prog L σ ε α} {x y : Obs ι L σ}
    (h : p.Safe i ok R G Q x) (hxy : R x y) : p.Safe i ok R G Q y := by
  cases p with
  | ret a => exact fun z hz => h z (ht _ _ _ hxy hz)
  | raise e => trivial
  | step l w k => exact fun z hz => h z (ht _ _ _ hxy hz)

theorem Safe.mono {Q Q' : α → Obs ι L σ → Prop} {p : Prog L σ ε α} {x : Obs ι L σ}
    (h : p.Safe i ok R G Q x) (hQ : ∀ a y,Q a y → Q' a y) : p.Safe i ok R G Q' x := by
  induction p generalizing x with
  | ret a => exact fun y hy => hQ a y (h y hy)
  | raise e => trivial
  | step l w k ih =>
    intro y hy hok
    obtain ⟨hg,hk⟩ := h y hy hok
    exact ⟨hg,ih y.state hk⟩

include hr in
/-- Sequencing: the first part hands over a state in which the rest is safe. -/
theorem Safe.bind {Q : β → Obs ι L σ → Prop} {p : Prog L σ ε α} {f : α → Prog L σ ε β}
    {x : Obs ι L σ} (h : p.Safe i ok R G (fun a y => (f a).Safe i ok R G Q y) x) :
    (p >>= f).Safe i ok R G Q x := by
  induction p generalizing x with
  | ret a => exact h x (hr x)
  | raise e => trivial
  | step l w k ih =>
    intro y hy hok
    obtain ⟨hg,hk⟩ := h y hy hok
    exact ⟨hg,ih y.state hk⟩

/-- What the others do along `R` does not spoil `A`. -/
def Stable (R : Obs ι L σ → Obs ι L σ → Prop) (A : Obs ι L σ → Prop) : Prop :=
  ∀ x y,A x → R x y → A y

theorem Stable.fact {P : Prop} {A : Obs ι L σ → Prop} (hA : Stable R A) :
    Stable R (fun x => P ∧ A x) :=
  fun x y hx h => ⟨hx.1,hA x y hx.2 h⟩

theorem Stable.and {A B : Obs ι L σ → Prop} (hA : Stable R A) (hB : Stable R B) :
    Stable R (fun x => A x ∧ B x) :=
  fun x y hx h => ⟨hA x y hx.1 h,hB x y hx.2 h⟩

/-- A program made of statements that keep an assertion keeps it as a whole. -/
theorem Safe.of_every {S : (σ → L) → (σ → σ) → Prop} {A : Obs ι L σ → Prop}
    {p : Prog L σ ε α} (hp : p.Every S) {x : Obs ι L σ} (hx : A x) (hA : Stable R A)
    (hS : ∀ l w y,S l w → A y → G y (y.push i l w) ∧ A (y.push i l w)) :
    p.Safe i ok R G (fun _ y => A y) x := by
  induction p generalizing x with
  | ret a => exact fun y hy => hA x y hx hy
  | raise e => trivial
  | step l w k ih =>
    intro y hy _
    obtain ⟨hg,ha⟩ := hS l w y hp.1 (hA x y hx hy)
    exact ⟨hg,ih y.state (hp.2 y.state) ha⟩

/-- From `A`, whatever the others do along `R`, the program moves along `G` and returns in `B`. -/
def Triple (i : ι) (ok : Obs ι L σ → ι → L → Prop) (R G : Obs ι L σ → Obs ι L σ → Prop)
    (A : Obs ι L σ → Prop) (p : Prog L σ ε α) (B : α → Obs ι L σ → Prop) : Prop :=
  ∀ x,A x → p.Safe i ok R G B x

namespace Triple

variable {A : Obs ι L σ → Prop} {B : α → Obs ι L σ → Prop} {p : Prog L σ ε α}

theorem ret {a : α} (hA : Stable R A) (h : ∀ x,A x → B a x) :
    Triple i ok R G A (.ret a : Prog L σ ε α) B :=
  fun x hx y hy => h y (hA x y hx hy)

theorem raise {e : ε} : Triple i ok R G A (.raise e : Prog L σ ε α) B := fun _ _ => trivial

/-- One statement. -/
theorem step {l : σ → L} {w : σ → σ} {q : σ → α} (hA : Stable R A) (hB : ∀ a,Stable R (B a))
    (h : ∀ x,A x → ok x i (l x.state) → G x (x.push i l w) ∧ B (q x.state) (x.push i l w)) :
    Triple i ok R G A (.step l w (fun s => .ret (q s)) : Prog L σ ε α) B := by
  intro x hx y hy hok
  obtain ⟨hg,hb⟩ := h y (hA x y hx hy) hok
  exact ⟨hg,fun z hz => hB _ _ z hb hz⟩

/-- A read that shows the others nothing: its result may be used where it was found. -/
theorem query {l : σ → L} {q : σ → α} (hA : Stable R A) (hB : ∀ a,Stable R (B a))
    (hl : ∀ x,A x → R x (x.push i l id) ∧ G x (x.push i l id))
    (h : ∀ x,A x → B (q x.state) x) :
    Triple i ok R G A (.step l id (fun s => .ret (q s)) : Prog L σ ε α) B := by
  apply step hA hB
  intro x hx _
  obtain ⟨hR,hg⟩ := hl x hx
  exact ⟨hg,hB _ x _ (h x hx) hR⟩

include hr in
theorem bind {f : α → Prog L σ ε β} {C : β → Obs ι L σ → Prop}
    (hp : Triple i ok R G A p B) (hf : ∀ a,Triple i ok R G (B a) (f a) C) :
    Triple i ok R G A (p >>= f) C := by
  intro x hx
  exact Safe.bind hr ((hp x hx).mono (fun a y hb => hf a y hb))

theorem conseq {A' : Obs ι L σ → Prop} {B' : α → Obs ι L σ → Prop}
    (h : Triple i ok R G A p B) (hA : ∀ x,A' x → A x) (hB : ∀ a x,B a x → B' a x) :
    Triple i ok R G A' p B' :=
  fun x hx => (h x (hA x hx)).mono hB

theorem of_fact {P : Prop} (h : P → Triple i ok R G A p B) :
    Triple i ok R G (fun x => P ∧ A x) p B :=
  fun x hx => h hx.1 x hx.2

/-- Statements that all keep `A`. -/
theorem of_every {S : (σ → L) → (σ → σ) → Prop} (hp : p.Every S) (hA : Stable R A)
    (hS : ∀ l w x,S l w → A x → G x (x.push i l w) ∧ A (x.push i l w)) :
    Triple i ok R G A p (fun _ => A) :=
  fun _ hx => Safe.of_every hp hx hA hS

end Triple

/-- `q` after `p`, however `p` ends. -/
def anyway : Prog L σ ε α → Prog L σ ε β → Prog L σ ε β
  | .ret _,q => q
  | .raise _,q => q
  | .step l w k,q => .step l w (fun s => (k s).anyway q)

/-- What neither the others nor the program itself can spoil is there for `q` even after an
exception. -/
theorem Safe.anyway {A : Obs ι L σ → Prop} {Q : β → Obs ι L σ → Prop} {p : Prog L σ ε α}
    {q : Prog L σ ε β} {x : Obs ι L σ} (h : p.Safe i ok R G (fun _ _ => True) x) (hx : A x)
    (hR : Stable R A) (hG : ∀ x y,A x → G x y → A y) (hq : Triple i ok R G A q Q) :
    (p.anyway q).Safe i ok R G Q x := by
  induction p generalizing x with
  | ret a => exact hq x hx
  | raise e => exact hq x hx
  | step l w k ih =>
    intro y hy hok
    obtain ⟨hg,hk⟩ := h y hy hok
    exact ⟨hg,ih y.state hk (hG y _ (hR x y hx hy) hg)⟩

/-- As long as the state keeps `I`, every statement is one of `S`, and a result satisfies `P`. -/
def Within (I : σ → Prop) (S : (σ → L) → (σ → σ) → Prop) (P : α → Prop) : Prog L σ ε α → Prop
  | .ret a => P a
  | .raise _ => True
  | .step l w k => S l w ∧ ∀ s,I s → (k s).Within I S P

section scope

variable {I : σ → Prop} {S : (σ → L) → (σ → σ) → Prop} {P : α → Prop} {p : Prog L σ ε α}

theorem Within.mono {Q : α → Prop} (hp : p.Within I S P) (h : ∀ a,P a → Q a) :
    p.Within I S Q := by
  induction p with
  | ret a => exact h a hp
  | raise e => trivial
  | step l w k ih => exact ⟨hp.1,fun s hs => ih s (hp.2 s hs)⟩

theorem Within.bind {f : α → Prog L σ ε β} {Q : β → Prop} (hp : p.Within I S P)
    (hf : ∀ a,P a → (f a).Within I S Q) : (p >>= f).Within I S Q := by
  induction p with
  | ret a => exact hf a hp
  | raise e => trivial
  | step l w k ih => exact ⟨hp.1,fun s hs => ih s (hp.2 s hs)⟩

theorem Every.within {T : (σ → L) → (σ → σ) → Prop} (hp : p.Every T)
    (hT : ∀ l w,T l w → S l w) : p.Within I S (fun _ => True) := by
  induction p with
  | ret a => trivial
  | raise e => trivial
  | step l w k ih => exact ⟨hT l w hp.1,fun s _ => ih s (hp.2 s)⟩

/-- The scope rule: what is known of the statements of a program stands in for a condition on the
schedule, and goes into its guarantee. -/
theorem Safe.within {ok' : Obs ι L σ → ι → L → Prop} {Q : α → Obs ι L σ → Prop} {x : Obs ι L σ}
    (h : p.Safe i ok' R G Q x) (hp : p.Within I S P) (hx : I x.state)
    (hR : ∀ x y,R x y → I x.state → I y.state) (hS : ∀ l w s,S l w → I s → I (w s))
    (hok : ∀ y l w,S l w → I y.state → ok y i (l y.state) → ok' y i (l y.state)) :
    p.Safe i ok R (fun x y => G x y ∧ ∃ l w,S l w ∧ y=x.push i l w) Q x := by
  induction p generalizing x with
  | ret a => exact h
  | raise e => trivial
  | step l w k ih =>
    intro y hy ha
    have hi := hR x y hy hx
    obtain ⟨hg,hk⟩ := h y hy (hok y l w hp.1 hi ha)
    exact ⟨⟨hg,l,w,hp.1,rfl⟩,ih y.state hk (hp.2 y.state hi) (hS l w y.state hp.1 hi)⟩

end scope

end rules

end Prog

namespace Config

variable {ι L σ ε α : Type} {ok : Obs ι L σ → ι → L → Prop}
  {R G : ι → Obs ι L σ → Obs ι L σ → Prop} {Q : ι → α → Obs ι L σ → Prop}

/-- Every request of the pool is safe in the current shared state. -/
def AllSafe (ok : Obs ι L σ → ι → L → Prop) (R G : ι → Obs ι L σ → Obs ι L σ → Prop)
    (Q : ι → α → Obs ι L σ → Prop) (c : Config ι L σ ε α) : Prop :=
  ∀ i,(c.pool i).Safe i ok (R i) (G i) (Q i) c.obs

/-- A request that has returned has established its postcondition. -/
theorem AllSafe.returned {c : Config ι L σ ε α} (h : c.AllSafe ok R G Q)
    (hr : ∀ i x,R i x x) {i : ι} (hi : (c.pool i).returned) : ∃ a,Q i a c.obs := by
  have hs := h i
  cases hp : c.pool i with
  | ret a =>
    rw [hp] at hs
    exact ⟨a,hs c.obs (hr i c.obs)⟩
  | raise e =>
    rw [hp] at hi
    cases hi
  | step l w k =>
    rw [hp] at hi
    cases hi

variable [DecidableEq ι]

/-- One step of a safe pool: it moves along some guarantee, and the pool stays safe when each
request relies on the guarantees of the others only. -/
theorem AllSafe.fire {c : Config ι L σ ε α} (h : c.AllSafe ok R G Q)
    (hr : ∀ i x,R i x x) (ht : ∀ i x y z,R i x y → R i y z → R i x z)
    (hG : ∀ i j,i≠j → ∀ x y,G i x y → R j x y) (i : ι) (ha : c.Allowed ok i) :
    (c.fire i).AllSafe ok R G Q ∧ ((c.fire i).obs=c.obs ∨ G i c.obs (c.fire i).obs) := by
  have hi := h i
  unfold Allowed at ha
  unfold Config.fire
  cases hp : c.pool i with
  | ret a => exact ⟨h,Or.inl rfl⟩
  | raise e => exact ⟨h,Or.inl rfl⟩
  | step l w k =>
    rw [hp] at hi ha
    obtain ⟨hg,hk⟩ := hi c.obs (hr i c.obs) ha
    refine ⟨?_,Or.inr hg⟩
    intro j
    by_cases hj : j=i
    · subst j
      simpa using hk
    · have hs := (h j).stable (ht j) (hG i j (Ne.symm hj) _ _ hg)
      simpa [hj] using hs

/-- The parallel rule: along every allowed interleaving the pool stays safe, and what all
guarantees preserve holds throughout. -/
theorem AllSafe.reach {c₀ c : Config ι L σ ε α} (h : Reach ok c₀ c)
    (h₀ : c₀.AllSafe ok R G Q) (J : Obs ι L σ → Prop) (hJ₀ : J c₀.obs)
    (hr : ∀ i x,R i x x) (ht : ∀ i x y z,R i x y → R i y z → R i x z)
    (hG : ∀ i j,i≠j → ∀ x y,G i x y → R j x y) (hJ : ∀ i x y,J x → G i x y → J y) :
    c.AllSafe ok R G Q ∧ J c.obs := by
  induction h with
  | refl => exact ⟨h₀,hJ₀⟩
  | step i _ ha ih =>
    obtain ⟨hs,hm⟩ := ih.1.fire hr ht hG i ha
    refine ⟨hs,?_⟩
    rcases hm with he | hg
    · rw [he]
      exact ih.2
    · exact hJ i _ _ ih.2 hg

end Config

end Sisfila
