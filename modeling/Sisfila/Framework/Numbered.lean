import Mathlib.Order.Lattice

namespace Sisfila

/-- The maximum of a list bounds every value and is one of them, or is 0. -/
theorem foldr_max_spec {ρ : Type} (f : ρ → Nat) (l : List ρ) :
    (∀ r ∈ l,f r≤l.foldr (fun r n => max (f r) n) 0) ∧
    (l.foldr (fun r n => max (f r) n) 0=0 ∨ ∃ r ∈ l,f r=l.foldr (fun r n => max (f r) n) 0) := by
  induction l with
  | nil => simp
  | cons a l ih =>
    obtain ⟨hle,hat⟩ := ih
    rw [List.foldr_cons]
    generalize l.foldr (fun r n => max (f r) n) 0=n at hle hat
    constructor
    · intro r hr
      rcases List.mem_cons.mp hr with rfl | hr
      · exact Nat.le_max_left _ _
      · exact Nat.le_trans (hle r hr) (Nat.le_max_right _ _)
    · by_cases hn : n≤f a
      · exact Or.inr ⟨a,List.mem_cons_self,(Nat.max_eq_left hn).symm⟩
      · rw [Nat.max_eq_right (by omega)]
        exact hat.imp id (fun ⟨r,hr,he⟩ => ⟨r,List.mem_cons_of_mem a hr,he⟩)

/-- The rows of a list carry the positions 1, 2, 3, ... in order. -/
def Numbered {ρ : Type} (pos : ρ → Option Int) (l : List ρ) : Prop :=
  ∀ (i : Nat) (r : ρ),l[i]?=some r → pos r=some ((i : Int)+1)

namespace Numbered

variable {ρ : Type} {pos : ρ → Option Int} {l : List ρ}

theorem nil : Numbered pos ([] : List ρ) := by
  intro i r h
  simp at h

theorem append (h : Numbered pos l) {r : ρ} (hr : pos r=some ((l.length : Int)+1)) :
    Numbered pos (l++[r]) := by
  intro i a ha
  rw [List.getElem?_append] at ha
  split_ifs at ha with hi
  · exact h i a ha
  · have hlt := (List.getElem?_eq_some_iff.mp ha).1
    obtain rfl : i=l.length := by simp at hlt; omega
    simp at ha
    rw [← ha,hr]

theorem pos_of_mem (h : Numbered pos l) {r : ρ} (hr : r ∈ l) :
    ∃ i,i<l.length ∧ l[i]?=some r ∧ pos r=some ((i : Int)+1) := by
  obtain ⟨i,hi⟩ := List.mem_iff_getElem?.mp hr
  exact ⟨i,(List.getElem?_eq_some_iff.mp hi).1,hi,h i r hi⟩

theorem eq_of_pos (h : Numbered pos l) {a b : ρ} (ha : a ∈ l) (hb : b ∈ l)
    (hab : pos a=pos b) : a=b := by
  obtain ⟨i,_,hia,hi⟩ := h.pos_of_mem ha
  obtain ⟨j,_,hjb,hj⟩ := h.pos_of_mem hb
  rw [hi,hj] at hab
  obtain rfl : i=j := by simpa [Int.natCast_inj] using hab
  rw [hia] at hjb
  exact Option.some.inj hjb

theorem map_iff {σ : Type} {g : σ → ρ} {l : List σ} :
    Numbered pos (l.map g) ↔ Numbered (fun r => pos (g r)) l := by
  constructor
  · intro h i r hr
    exact h i (g r) (by rw [List.getElem?_map,hr]; rfl)
  · intro h i r hr
    rw [List.getElem?_map] at hr
    obtain ⟨a,ha,rfl⟩ := Option.map_eq_some_iff.mp hr
    exact h i a ha

theorem map_pos (h : Numbered pos l) :
    l.map pos=(List.range l.length).map (fun i : Nat => some ((i : Int)+1)) := by
  refine List.ext_getElem? (fun i => ?_)
  rw [List.getElem?_map,List.getElem?_map]
  by_cases hi : i<l.length
  · rw [List.getElem?_range hi,List.getElem?_eq_getElem hi,Option.map_some,Option.map_some,
      h i _ (List.getElem?_eq_getElem hi)]
  · rw [List.getElem?_eq_none (Nat.le_of_not_lt hi),List.getElem?_eq_none (by simpa using hi)]
    rfl

/-- Along a list in the order of a key the positions grow with the key. -/
theorem lt_of_key_lt (h : Numbered pos l) {key : ρ → Nat}
    (hk : l.Pairwise (fun a b => key a<key b)) {a b : ρ} (ha : a ∈ l) (hb : b ∈ l)
    (hab : key a<key b) : ∃ p q,pos a=some p ∧ pos b=some q ∧ p<q := by
  obtain ⟨i,hi,hia,hpa⟩ := h.pos_of_mem ha
  obtain ⟨j,hj,hjb,hpb⟩ := h.pos_of_mem hb
  refine ⟨_,_,hpa,hpb,?_⟩
  obtain ⟨_,rfl⟩ := List.getElem?_eq_some_iff.mp hia
  obtain ⟨_,rfl⟩ := List.getElem?_eq_some_iff.mp hjb
  rcases Nat.lt_trichotomy i j with hij | rfl | hij
  · omega
  · exact absurd hab (Nat.lt_irrefl _)
  · exact absurd hab (Nat.lt_asymm (List.pairwise_iff_getElem.mp hk j i hj hi hij))

/-- The row at position `n+1` is the `n`-th of the list. -/
theorem find_eq (h : Numbered pos l) (n : Nat) :
    l.find? (fun r => pos r==some ((n : Int)+1))=l[n]? := by
  cases hf : l.find? (fun r => pos r==some ((n : Int)+1)) with
  | some r =>
    obtain ⟨i,_,hir,hi⟩ := h.pos_of_mem (List.mem_of_find?_eq_some hf)
    have hp := List.find?_some hf
    rw [hi] at hp
    obtain rfl : i=n := by simpa [Int.natCast_inj] using hp
    exact hir.symm
  | none =>
    cases hn : l[n]? with
    | none => rfl
    | some r =>
      have hr := List.find?_eq_none.mp hf r (List.mem_of_getElem? hn)
      simp [h n r hn] at hr

theorem getLast_pos (h : Numbered pos l) {r : ρ} (hr : l.getLast?=some r) :
    pos r=some (l.length : Int) := by
  rw [List.getLast?_eq_getElem?] at hr
  have hlt := (List.getElem?_eq_some_iff.mp hr).1
  rw [h _ r hr]
  congr 1
  omega

/-- The greatest position is the length of the list. -/
theorem foldr_max (h : Numbered pos l) :
    l.foldr (fun r n => max ((pos r).getD 0).toNat n) 0=l.length := by
  obtain ⟨hle,hat⟩ := foldr_max_spec (fun r => ((pos r).getD 0).toNat) l
  generalize l.foldr (fun r n => max ((pos r).getD 0).toNat n) 0=m at hle hat
  have hm : m≤l.length := by
    rcases hat with rfl | ⟨r,hr,rfl⟩
    · exact Nat.zero_le _
    · obtain ⟨i,hi,-,hp⟩ := h.pos_of_mem hr
      rw [hp,Option.getD_some]
      omega
  refine Nat.le_antisymm hm ?_
  cases hl : l.getLast? with
  | none =>
    rw [List.getLast?_eq_none_iff.mp hl]
    exact Nat.zero_le m
  | some r =>
    have hr := hle r (List.mem_of_getLast? hl)
    rw [h.getLast_pos hl,Option.getD_some] at hr
    omega

/-- One row goes and those behind it move up. -/
theorem eraseIdx (h : Numbered pos l) {k : Nat} {g : ρ → ρ} (hg : ∀ r ∈ l,∀ p,pos r=some p →
    pos (g r)=some (if (k : Int)+1<p then p-1 else p)) : Numbered pos ((l.eraseIdx k).map g) := by
  intro i a ha
  rw [List.getElem?_map,List.getElem?_eraseIdx] at ha
  obtain ⟨r,hr,rfl⟩ := Option.map_eq_some_iff.mp ha
  split_ifs at hr with hi
  · rw [hg r (List.mem_of_getElem? hr) _ (h i r hr),if_neg (by omega)]
  · rw [hg r (List.mem_of_getElem? hr) _ (h (i+1) r hr),if_pos (by omega)]
    congr 1
    omega

/-- Up to position `n` there are `n` rows. -/
theorem countP_le (h : Numbered pos l) {n : Nat} (hn : n≤l.length) :
    l.countP (fun r => decide (∃ q ∈ pos r,q≤(n : Int)))=n := by
  have htake : (l.take n).countP (fun r => decide (∃ q ∈ pos r,q≤(n : Int)))=n := by
    have hall : (l.take n).countP (fun r => decide (∃ q ∈ pos r,q≤(n : Int)))=
        (l.take n).length := by
      rw [List.countP_eq_length]
      intro r hr
      obtain ⟨i,hi⟩ := List.mem_iff_getElem?.mp hr
      rw [List.getElem?_take] at hi
      split_ifs at hi with hlt
      exact decide_eq_true ⟨_,h i r hi,by omega⟩
    rw [hall,List.length_take]
    omega
  have hdrop : (l.drop n).countP (fun r => decide (∃ q ∈ pos r,q≤(n : Int)))=0 := by
    rw [List.countP_eq_zero]
    intro r hr
    obtain ⟨i,hi⟩ := List.mem_iff_getElem?.mp hr
    rw [List.getElem?_drop] at hi
    have hp := h (n+i) r hi
    simp only [decide_eq_true_eq]
    rintro ⟨q,hq,hle⟩
    have he : q=((n+i : Nat) : Int)+1 := Option.some.inj ((Option.mem_def.mp hq).symm.trans hp)
    omega
  have happ := congrArg (List.countP (fun r => decide (∃ q ∈ pos r,q≤(n : Int))))
    (List.take_append_drop n l)
  rw [List.countP_append,htake,hdrop] at happ
  exact happ.symm

/-- The others are past it. -/
theorem countP_gt (h : Numbered pos l) {n : Nat} (hn : n≤l.length) :
    n+l.countP (fun r => decide (∃ q ∈ pos r,(n : Int)<q))=l.length := by
  have hle := h.countP_le hn
  have hsplit := List.length_eq_countP_add_countP (fun r => decide (∃ q ∈ pos r,q≤(n : Int))) (l := l)
  have hgt : l.countP (fun r => decide (∃ q ∈ pos r,(n : Int)<q))=
      l.countP (fun r => !decide (∃ q ∈ pos r,q≤(n : Int))) := by
    apply List.countP_congr
    intro r hr
    obtain ⟨i,-,-,hp⟩ := h.pos_of_mem hr
    simp [hp]
  rw [hgt]
  simp only [hle,decide_not] at hsplit
  simpa using hsplit.symm

end Numbered

end Sisfila
