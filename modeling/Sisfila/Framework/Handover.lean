import Mathlib.Data.List.Nodup
import Mathlib.Logic.Function.Basic

namespace Sisfila

/-- Lanes that are served in the order of their places, each by the server that owns it. A server
first moves the pointer of a lane and then hands over whoever stands at the new place; in between
that place is pending. -/
structure Handover {κ δ α : Type} (owns : δ → κ → Prop) (place : α → Option (κ × Int))
    (pointer : κ → Option Int) (served : List α) (pending : δ → Option (κ × Int)) : Prop where
  owned : ∀ d f p,pending d=some (f,p) → owns d f
  once : served.Nodup
  passed : ∀ a ∈ served,∃ f p q,place a=some (f,p) ∧ pointer f=some q ∧ p≤q ∧
    ∀ d,pending d≠some (f,p)
  complete : ∀ a f p q,place a=some (f,p) → pointer f=some q → p≤q →
    a ∈ served ∨ ∃ d,pending d=some (f,p)

namespace Handover

variable {κ δ α : Type} {owns : δ → κ → Prop} {place place' : α → Option (κ × Int)}
  {pointer pointer' : κ → Option Int} {served : List α} {pending : δ → Option (κ × Int)}
  {a : α} {d : δ} {f : κ} {p q : Int}

/-- Nobody has been passed yet. -/
theorem start (hp : ∀ a f p q,place a=some (f,p) → pointer f=some q → q<p) :
    Handover owns place pointer [] (fun _ => none) where
  owned := nofun
  once := List.nodup_nil
  passed := nofun
  complete := fun a f p q ha hq hle => absurd (hp a f p q ha hq) (by omega)

/-- Somebody joins past the pointer. -/
theorem join (h : Handover owns place pointer served pending) (hnew : place a=none)
    (hkeep : ∀ b,b≠a → place' b=place b)
    (ha : ∀ f p q,place' a=some (f,p) → pointer f=some q → q<p) :
    Handover owns place' pointer served pending where
  owned := h.owned
  once := h.once
  passed := by
    intro b hb
    obtain ⟨g,r,q,hplace,hrest⟩ := h.passed b hb
    have hne : b≠a := by
      rintro rfl
      rw [hnew] at hplace
      cases hplace
    exact ⟨g,r,q,by rw [hkeep b hne]; exact hplace,hrest⟩
  complete := by
    intro b g r q hb hq hle
    by_cases hne : b=a
    · subst hne
      exact absurd (ha g r q hb hq) (by omega)
    · rw [hkeep b hne] at hb
      exact h.complete b g r q hb hq hle

variable [DecidableEq δ]

/-- The owner of a lane moves its pointer on. -/
theorem move (h : Handover owns place pointer served pending) (hd : owns d f)
    (hfree : pending d=none) (hq : pointer f=some q) (hf : pointer' f=some (q+1))
    (hother : ∀ g,g≠f → pointer' g=pointer g) :
    Handover owns place pointer' served (Function.update pending d (some (f,q+1))) where
  owned := by
    intro e g r he
    by_cases hed : e=d
    · subst hed
      rw [Function.update_self] at he
      obtain ⟨rfl,rfl⟩ := Prod.mk.inj (Option.some.inj he)
      exact hd
    · rw [Function.update_of_ne hed] at he
      exact h.owned e g r he
  once := h.once
  passed := by
    intro b hb
    obtain ⟨g,r,s,hplace,hs,hle,hnone⟩ := h.passed b hb
    have hpend : (r≤q ∨ g≠f) → ∀ e,Function.update pending d (some (f,q+1)) e≠some (g,r) := by
      intro hr e
      by_cases hed : e=d
      · subst hed
        rw [Function.update_self]
        intro he
        obtain ⟨rfl,rfl⟩ := Prod.mk.inj (Option.some.inj he)
        rcases hr with hr | hr
        · omega
        · exact hr rfl
      · rw [Function.update_of_ne hed]
        exact hnone e
    by_cases hg : g=f
    · subst hg
      obtain rfl := Option.some.inj (hq.symm.trans hs)
      exact ⟨g,r,q+1,hplace,hf,by omega,hpend (.inl hle)⟩
    · exact ⟨g,r,s,hplace,(hother g hg).trans hs,hle,hpend (.inr hg)⟩
  complete := by
    intro b g r s hb hs hle
    have hkeep : (b ∈ served ∨ ∃ e,pending e=some (g,r)) →
        b ∈ served ∨ ∃ e,Function.update pending d (some (f,q+1)) e=some (g,r) := by
      rintro (hb | ⟨e,he⟩)
      · exact Or.inl hb
      · have hed : e≠d := by
          rintro rfl
          rw [hfree] at he
          cases he
        exact Or.inr ⟨e,by rw [Function.update_of_ne hed]; exact he⟩
    by_cases hg : g=f
    · subst hg
      obtain rfl := Option.some.inj (hf.symm.trans hs)
      by_cases hr : r=q+1
      · subst hr
        exact Or.inr ⟨d,Function.update_self ..⟩
      · exact hkeep (h.complete b g r q hb hq (by omega))
    · exact hkeep (h.complete b g r s hb (by rw [← hother g hg]; exact hs) hle)

theorem update_none_eq_some {e : δ} {x : κ × Int} :
    Function.update pending d none e=some x ↔ e≠d ∧ pending e=some x := by
  by_cases h : e=d
  · simp [h]
  · simp [h]

/-- The pending place is taken care of: whoever stands there has been handed over, or nobody does. -/
private theorem settle (h : Handover owns place pointer served pending)
    (hd : pending d=some (f,p)) {served' : List α} (hsub : ∀ b ∈ served,b ∈ served')
    (honce : served'.Nodup)
    (hpassed : ∀ b ∈ served',b ∉ served → place b=some (f,p) ∧ ∃ q,pointer f=some q ∧ p≤q)
    (hall : ∀ b,place b=some (f,p) → b ∈ served') (huniq : ∀ e,owns e f → e=d) :
    Handover owns place pointer served' (Function.update pending d none) where
  owned := fun e g r he => h.owned e g r (update_none_eq_some.mp he).2
  once := honce
  passed := by
    intro b hb
    by_cases hs : b ∈ served
    · obtain ⟨g,r,s,hplace,hs,hle,hnone⟩ := h.passed b hs
      exact ⟨g,r,s,hplace,hs,hle,fun e he => hnone e (update_none_eq_some.mp he).2⟩
    · obtain ⟨hplace,q,hq,hle⟩ := hpassed b hb hs
      refine ⟨f,p,q,hplace,hq,hle,fun e he => ?_⟩
      -- a second server at this place would own the lane as well
      obtain ⟨hed,he⟩ := update_none_eq_some.mp he
      exact hed (huniq e (h.owned e f p he))
  complete := by
    intro b g r s hb hs hle
    rcases h.complete b g r s hb hs hle with hb' | ⟨e,he⟩
    · exact Or.inl (hsub b hb')
    · by_cases hed : e=d
      · subst hed
        obtain ⟨rfl,rfl⟩ := Prod.mk.inj (Option.some.inj (hd.symm.trans he))
        exact Or.inl (hall b hb)
      · exact Or.inr ⟨e,update_none_eq_some.mpr ⟨hed,he⟩⟩

theorem serve (h : Handover owns place pointer served pending)
    (hinj : ∀ a b x,place a=some x → place b=some x → a=b) (huniq : ∀ e,owns e f → e=d)
    (hd : pending d=some (f,p)) (ha : place a=some (f,p)) (hq : pointer f=some q) (hle : p≤q) :
    Handover owns place pointer (a::served) (Function.update pending d none) := by
  have hfresh : a ∉ served := by
    intro hs
    obtain ⟨g,r,s,hplace,-,-,hnone⟩ := h.passed a hs
    obtain ⟨rfl,rfl⟩ := Prod.mk.inj (Option.some.inj (ha.symm.trans hplace))
    exact hnone d hd
  refine h.settle hd (fun b hb => List.mem_cons_of_mem _ hb) (List.nodup_cons.mpr ⟨hfresh,h.once⟩)
    ?_ (fun b hb => hinj a b _ ha hb ▸ List.mem_cons_self) huniq
  intro b hb hs
  rcases List.mem_cons.mp hb with rfl | hb
  · exact ⟨ha,q,hq,hle⟩
  · exact absurd hb hs

/-- Nobody stands at the pending place. -/
theorem skip (h : Handover owns place pointer served pending) (huniq : ∀ e,owns e f → e=d)
    (hd : pending d=some (f,p)) (hnone : ∀ a,place a≠some (f,p)) :
    Handover owns place pointer served (Function.update pending d none) :=
  h.settle hd (fun _ hb => hb) h.once (fun _ hb hs => absurd hb hs)
    (fun b hb => absurd hb (hnone b)) huniq

end Handover

end Sisfila
