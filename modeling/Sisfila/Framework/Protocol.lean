import Sisfila.Framework.Interleaving

namespace Sisfila

/-! Protocols of single requests. An automaton reads the events a request shows; what the request
may do next depends on the phase it is in, whatever the others have done to the shared state. -/

namespace Prog

variable {L σ ε α β τ : Type}

/-- From phase `q` on, on every path and whatever state each statement finds: the statements of a
phase satisfy `S`, exceptions leave a phase in `E`, results a phase in `Q`. -/
def Follows (δ : τ → L → τ) (S : τ → (σ → L) → (σ → σ) → Prop) (E : τ → Prop)
    (Q : α → τ → Prop) : Prog L σ ε α → τ → Prop
  | .ret a,q => Q a q
  | .raise _,q => E q
  | .step l w k,q => S q l w ∧ ∀ s,(k s).Follows δ S E Q (δ q (l s))

variable {δ : τ → L → τ} {S : τ → (σ → L) → (σ → σ) → Prop} {E : τ → Prop} {q : τ}
  {p : Prog L σ ε α}

theorem Follows.mono {Q Q' : α → τ → Prop} (h : p.Follows δ S E Q q)
    (hQ : ∀ a q,Q a q → Q' a q) : p.Follows δ S E Q' q := by
  induction p generalizing q with
  | ret a => exact hQ a q h
  | raise e => exact h
  | step l w k ih => exact ⟨h.1,fun s => ih s (h.2 s)⟩

theorem Follows.bind {Q : β → τ → Prop} {f : α → Prog L σ ε β}
    (h : p.Follows δ S E (fun a q => (f a).Follows δ S E Q q) q) :
    (p >>= f).Follows δ S E Q q := by
  induction p generalizing q with
  | ret a => exact h
  | raise e => exact h
  | step l w k ih => exact ⟨h.1,fun s => ih s (h.2 s)⟩

/-- Every statement of a program that follows a protocol is one of some phase. -/
theorem Follows.every {Q : α → τ → Prop} (h : p.Follows δ S E Q q) :
    p.Every (fun l w => ∃ q,S q l w) := by
  induction p generalizing q with
  | ret a => trivial
  | raise e => trivial
  | step l w k ih => exact ⟨⟨q,h.1⟩,fun s => ih s (h.2 s)⟩

/-- Statements that do not show leave the request in its phase. -/
theorem Follows.of_every {T : (σ → L) → (σ → σ) → Prop} (hp : p.Every T)
    (hT : ∀ l w,T l w → S q l w ∧ ∀ s,δ q (l s)=q) (hE : E q) :
    p.Follows δ S E (fun _ q' => q'=q) q := by
  induction p with
  | ret a => rfl
  | raise e => exact hE
  | step l w k ih =>
    obtain ⟨hS,hδ⟩ := hT l w hp.1
    refine ⟨hS,fun s => ?_⟩
    rw [hδ s]
    exact ih s (hp.2 s)

/-- The same before a program that follows the protocol from there. -/
theorem Follows.every_bind {T : (σ → L) → (σ → σ) → Prop} {Q : β → τ → Prop}
    {f : α → Prog L σ ε β} (hp : p.Every T) (hT : ∀ l w,T l w → S q l w ∧ ∀ s,δ q (l s)=q)
    (hE : E q) (hf : ∀ a,(f a).Follows δ S E Q q) : (p >>= f).Follows δ S E Q q := by
  apply Follows.bind
  apply (of_every hp hT hE).mono
  intro a q' hq
  rw [hq]
  exact hf a

/-- The request has come to its end, by a result or by an exception. -/
def ended : Prog L σ ε α → Bool
  | .step _ _ _ => false
  | _ => true

/-- The result of a request that has returned. -/
def answer : Prog L σ ε α → Option α
  | .ret a => some a
  | _ => none

theorem answer_eq_some {a : α} (h : p.answer=some a) : p=.ret a := by
  cases p with
  | ret b => exact congrArg ret (Option.some.inj h)
  | raise e => cases h
  | step l w k => cases h

end Prog

section phases

variable {ι L τ : Type} [DecidableEq ι]

/-- The phase of request `i`: what the automaton makes of its events, newest first. -/
def phase (δ : τ → L → τ) (q₀ : τ) (i : ι) : List (ι × L) → τ
  | [] => q₀
  | (j,e)::tr => if j=i then δ (phase δ q₀ i tr) e else phase δ q₀ i tr

theorem phase_cons_self (δ : τ → L → τ) (q₀ : τ) (i : ι) (e : L) (tr : List (ι × L)) :
    phase δ q₀ i ((i,e)::tr)=δ (phase δ q₀ i tr) e := if_pos rfl

theorem phase_cons_of_ne (δ : τ → L → τ) (q₀ : τ) {i j : ι} (h : j≠i) (e : L)
    (tr : List (ι × L)) : phase δ q₀ i ((j,e)::tr)=phase δ q₀ i tr := if_neg h

/-- The requests that have shown an event of kind `p`, newest first. -/
def shown (p : L → Bool) (tr : List (ι × L)) : List ι :=
  (tr.filter (fun e => p e.2)).map Prod.fst

/-- No request has shown an event of kind `p` twice: the event leads into the phases `A`, and there
is no way back. -/
structure Once (δ : τ → L → τ) (q₀ : τ) (p : L → Bool) (A : τ → Prop) (tr : List (ι × L)) : Prop where
  nodup : (shown p tr).Nodup
  inside : ∀ i ∈ shown p tr,A (phase δ q₀ i tr)

theorem Once.nil (δ : τ → L → τ) (q₀ : τ) (p : L → Bool) (A : τ → Prop) :
    Once (ι := ι) δ q₀ p A [] := ⟨List.nodup_nil,by simp [shown]⟩

theorem Once.cons {δ : τ → L → τ} {q₀ : τ} {p : L → Bool} {A : τ → Prop} {tr : List (ι × L)}
    (h : Once δ q₀ p A tr) {i : ι} {e : L}
    (hA : A (phase δ q₀ i tr) → A (δ (phase δ q₀ i tr) e))
    (hp : p e=true → ¬A (phase δ q₀ i tr) ∧ A (δ (phase δ q₀ i tr) e)) :
    Once δ q₀ p A ((i,e)::tr) := by
  have hkeep : ∀ j ∈ shown p tr,A (phase δ q₀ j ((i,e)::tr)) := by
    intro j hj
    by_cases hij : i=j
    · subst hij
      rw [phase_cons_self]
      exact hA (h.inside i hj)
    · rw [phase_cons_of_ne δ q₀ hij]
      exact h.inside j hj
  cases hpe : p e with
  | false =>
    have hs : shown p ((i,e)::tr)=shown p tr := by simp [shown,hpe]
    rw [← hs] at hkeep
    exact ⟨hs ▸ h.nodup,hkeep⟩
  | true =>
    obtain ⟨hout,hin⟩ := hp hpe
    have hs : shown p ((i,e)::tr)=i::shown p tr := by simp [shown,hpe]
    refine ⟨?_,?_⟩
    · rw [hs]
      exact List.nodup_cons.mpr ⟨fun hi => hout (h.inside i hi),h.nodup⟩
    · rw [hs]
      intro j hj
      rcases List.mem_cons.mp hj with rfl | hj
      · rw [phase_cons_self]
        exact hin
      · exact hkeep j hj

end phases

namespace Config

variable {ι L σ ε α τ : Type} [DecidableEq ι] {δ : τ → L → τ} {q₀ : τ}
  {S : ι → τ → (σ → L) → (σ → σ) → Prop} {E : τ → Prop} {Q : α → τ → Prop}
  {ok : Obs ι L σ → ι → L → Prop}

/-- Every request of the pool follows its protocol from the phase it is in. -/
def Following (δ : τ → L → τ) (q₀ : τ) (S : ι → τ → (σ → L) → (σ → σ) → Prop) (E : τ → Prop)
    (Q : α → τ → Prop) (c : Config ι L σ ε α) : Prop :=
  ∀ i,(c.pool i).Follows δ (S i) E Q (phase δ q₀ i c.obs.trace)

theorem following_start {s : σ} {pool : ι → Prog L σ ε α}
    (h : ∀ i,(pool i).Follows δ (S i) E Q q₀) : (start s pool).Following δ q₀ S E Q := h

/-- One step of the pool is a statement its request may make in its phase. -/
theorem Following.fire {c : Config ι L σ ε α} (h : c.Following δ q₀ S E Q) (i : ι) :
    (c.fire i).Following δ q₀ S E Q ∧ ((c.fire i).obs=c.obs ∨
      ∃ l w,S i (phase δ q₀ i c.obs.trace) l w ∧ (c.fire i).obs=c.obs.push i l w) := by
  have hi := h i
  unfold Config.fire
  cases hp : c.pool i with
  | ret a => exact ⟨h,.inl rfl⟩
  | raise e => exact ⟨h,.inl rfl⟩
  | step l w k =>
    rw [hp] at hi
    refine ⟨?_,.inr ⟨l,w,hi.1,rfl⟩⟩
    intro j
    by_cases hj : j=i
    · subst j
      simpa [phase_cons_self] using hi.2 c.obs.state
    · simpa [hj,phase_cons_of_ne δ q₀ (Ne.symm hj)] using h j

/-- Along every interleaving the requests stay in their protocols, and what each allowed statement
preserves holds throughout. -/
theorem Following.reach {c₀ c : Config ι L σ ε α} (h : Reach ok c₀ c)
    (h₀ : c₀.Following δ q₀ S E Q) (J : Obs ι L σ → Prop) (hJ₀ : J c₀.obs)
    (hJ : ∀ i l w x,S i (phase δ q₀ i x.trace) l w → J x → J (x.push i l w)) :
    c.Following δ q₀ S E Q ∧ J c.obs := by
  induction h with
  | refl => exact ⟨h₀,hJ₀⟩
  | @step c i _ _ ih =>
    obtain ⟨hf,he | ⟨l,w,hS,he⟩⟩ := ih.1.fire i
    · rw [he]
      exact ⟨hf,ih.2⟩
    · rw [he]
      exact ⟨hf,hJ i l w c.obs hS ih.2⟩

/-- A request that has ended, one way or the other, is in a final phase. -/
theorem Following.ended {c : Config ι L σ ε α} (h : c.Following δ q₀ S E Q) {P : τ → Prop}
    (hE : ∀ q,E q → P q) (hQ : ∀ a q,Q a q → P q) {i : ι} (hi : (c.pool i).ended=true) :
    P (phase δ q₀ i c.obs.trace) := by
  have hf := h i
  cases hp : c.pool i with
  | ret a =>
    rw [hp] at hf
    exact hQ a _ hf
  | raise e =>
    rw [hp] at hf
    exact hE _ hf
  | step l w k =>
    rw [hp] at hi
    cases hi

end Config

end Sisfila
