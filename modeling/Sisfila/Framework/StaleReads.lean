import Mathlib.Data.Fintype.Card

namespace Sisfila

/-! A counter that several workers read, compare with a limit and advance at some later moment, each
acting on what it read and not on what the counter has become. -/

variable {ι : Type} [Fintype ι]

/-- The workers that hold a reading below `c`. -/
def heldBelow (held : ι → Option Int) (c : Int) : Finset ι :=
  Finset.univ.filter (fun i => (held i).any (fun p => decide (p<c)))

/-- At any level from the limit up to the counter, the advances past it and the workers that may
still advance past it are fewer than the workers there are. -/
def Overrun (v l : Int) (held : ι → Option Int) : Prop :=
  ∀ c,l≤c → c≤v → v+((heldBelow held c).card : Int)<c+(Fintype.card ι : Int)

namespace Overrun

variable {v l p : Int} {held held' : ι → Option Int}

theorem mem_heldBelow {c : Int} {i : ι} :
    i ∈ heldBelow held c ↔ ∃ p,held i=some p ∧ p<c := by
  simp [heldBelow,Option.any_eq_true]

/-- Nobody holds a reading yet. -/
theorem start (h : v<l+(Fintype.card ι : Int)) (hn : ∀ i,held i=none) : Overrun v l held := by
  intro c hl _
  have he : heldBelow held c=∅ := by
    apply Finset.eq_empty_of_forall_notMem
    intro i hi
    obtain ⟨p,hp,-⟩ := mem_heldBelow.mp hi
    rw [hn i] at hp
    cases hp
  rw [he,Finset.card_empty]
  omega

theorem lt_add_card (h : Overrun v l held) : v<l+(Fintype.card ι : Int) := by
  rcases lt_or_ge v l with hv | hv
  · omega
  · have hb := h l le_rfl hv
    omega

theorem limit (h : Overrun v l held) {l' : Int} (hl : l≤l') : Overrun v l' held :=
  fun c hc hv => h c (le_trans hl hc) hv

/-- A fresh reading is below no level the counter has reached, and to drop one is harmless. -/
theorem reread (h : Overrun v l held)
    (hs : ∀ i p,held' i=some p → p<v → held i=some p) : Overrun v l held' := by
  intro c hl hv
  have hsub : heldBelow held' c ⊆ heldBelow held c := by
    intro i hi
    obtain ⟨p,hp,hc⟩ := mem_heldBelow.mp hi
    exact mem_heldBelow.mpr ⟨p,hs i p hp (lt_of_lt_of_le hc hv),hc⟩
  have hcard := Finset.card_le_card hsub
  have hb := h c hl hv
  omega

/-- Worker `i` acts on a reading below the limit and gives it up. At every level already reached it
turns from one that may advance into one that has; the level reached just now counts all but it. -/
theorem advance (h : Overrun v l held) {i : ι} (hi : held i=some p) (hp : p<l)
    (hn : held' i=none) (hs : ∀ j q,held' j=some q → held j=some q) :
    Overrun (v+1) l held' := by
  classical
  intro c hl hv
  have hout : i ∉ heldBelow held' c := by
    intro hm
    obtain ⟨q,hq,-⟩ := mem_heldBelow.mp hm
    rw [hn] at hq
    cases hq
  rcases eq_or_lt_of_le hv with rfl | hlt
  · have hlt : (heldBelow held' (v+1)).card<Fintype.card ι :=
      Finset.card_lt_univ_of_notMem hout
    omega
  · have hsub : insert i (heldBelow held' c) ⊆ heldBelow held c := by
      intro j hj
      rcases Finset.mem_insert.mp hj with rfl | hj
      · exact mem_heldBelow.mpr ⟨p,hi,lt_of_lt_of_le hp hl⟩
      · obtain ⟨q,hq,hc⟩ := mem_heldBelow.mp hj
        exact mem_heldBelow.mpr ⟨q,hs j q hq,hc⟩
    have hcard := Finset.card_le_card hsub
    rw [Finset.card_insert_of_notMem hout] at hcard
    have hb := h c hl (by omega)
    omega

end Overrun

end Sisfila
