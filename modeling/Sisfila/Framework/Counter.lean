import Mathlib.Data.List.Pairwise
import Mathlib.Data.List.Nodup

namespace Sisfila

/-- A counter that may be missing, started at `a`: its value after some increments by one, and the
values they reported, newest first. -/
inductive Counted (a : Option Int) : Option Int → List Int → Prop
  | start : Counted a a []
  | inc {p : Int} {l : List Int} : Counted a (some p) l → Counted a (some (p+1)) ((p+1)::l)

namespace Counted

/-- Every value passed is reported. -/
theorem mem_iff {a p : Int} {l : List Int} (h : Counted (some a) (some p) l) :
    a≤p ∧ ∀ q,q ∈ l ↔ a<q ∧ q≤p := by
  generalize ho : some p=o at h
  induction h generalizing p with
  | start =>
    obtain rfl : p=a := Option.some.inj ho
    exact ⟨Int.le_refl p,fun q => ⟨fun h => absurd h List.not_mem_nil,fun h => by omega⟩⟩
  | @inc r l _ ih =>
    obtain rfl : p=r+1 := Option.some.inj ho
    obtain ⟨hle,hmem⟩ := ih rfl
    refine ⟨by omega,fun q => ?_⟩
    rw [List.mem_cons,hmem]
    omega

theorem le_of_mem {a : Option Int} {p q : Int} {l : List Int} (h : Counted a (some p) l)
    (hq : q ∈ l) : q≤p := by
  generalize ho : some p=o at h
  induction h generalizing p with
  | start => exact absurd hq List.not_mem_nil
  | @inc r l _ ih =>
    obtain rfl : p=r+1 := Option.some.inj ho
    rcases List.mem_cons.mp hq with rfl | hq
    · exact Int.le_refl _
    · have hr := ih hq rfl
      omega

/-- No value is reported twice. -/
theorem nodup {a o : Option Int} {l : List Int} (h : Counted a o l) : l.Nodup := by
  induction h with
  | start => exact List.nodup_nil
  | inc h ih =>
    apply List.nodup_cons.mpr
    refine ⟨fun hm => ?_,ih⟩
    have hle := h.le_of_mem hm
    omega

end Counted

/-- In a log whose readings are all different, a reading names its entry. -/
theorem eq_of_nodup_filterMap {α β : Type} {g : α → Option β} {l : List α}
    (h : (l.filterMap g).Nodup) {a b : α} {c : β} (ha : a ∈ l) (hb : b ∈ l) (hga : g a=some c)
    (hgb : g b=some c) : a=b := by
  have hp : l.Pairwise (fun a b => ∀ c,g a=some c → ∀ d,g b=some d → c≠d) :=
    List.pairwise_filterMap.mp h
  by_contra hne
  have hs : Std.Symm (fun a b => ∀ c,g a=some c → ∀ d,g b=some d → c≠d) :=
    ⟨fun _ _ h d hd c hc => (h c hc d hd).symm⟩
  exact hp.forall ha hb hne c hga c hgb rfl

end Sisfila
